import Mathlib.Data.List.Forall2
import VetoMachine.Proofs.JsonOutlines

/-!
# What readers accept

For every reader the trees it reads and the values it gives are told without it (`Reader.Reads`): the JSON reader
gives the value of a tree of limited depth (`Tree.Means`), and the readers of strings, lists and dictionaries follow the
shape of the tree.  What holds of a reader and a tree holds of every text of the tree (`Reader.Reads.text`).
-/

namespace VetoMachine.Json

theorem bind_eq_ok {ε α β : Type} {x : Except ε α} {f : α → Except ε β} {b : β} :
    x >>= f = .ok b ↔ ∃ a, x = .ok a ∧ f a = .ok b := by
  cases x with
  | error e => exact ⟨nofun, nofun⟩
  | ok a => exact ⟨fun h => ⟨a, rfl, h⟩, fun ⟨_, rfl, h⟩ => h⟩

theorem map_eq_ok {ε α β : Type} {x : Except ε α} {f : α → β} {b : β} :
    f <$> x = .ok b ↔ ∃ a, x = .ok a ∧ b = f a := by
  cases x with
  | error e => exact ⟨nofun, nofun⟩
  | ok a => exact ⟨fun h => ⟨a, rfl, (Except.ok.inj h).symm⟩, fun ⟨_, ha, hb⟩ => by cases ha; rw [hb]; rfl⟩

/-! ### Values -/

mutual

/-- The number of arrays and objects inside one another. -/
def Tree.depth : Tree → Nat
  | .array items => Tree.itemsDepth items + 1
  | .object members => Tree.membersDepth members + 1
  | _ => 0

def Tree.itemsDepth : List Tree → Nat
  | [] => 0
  | x :: rest => max x.depth (Tree.itemsDepth rest)

def Tree.membersDepth : List (String × Tree) → Nat
  | [] => 0
  | (_, x) :: rest => max x.depth (Tree.membersDepth rest)

end

mutual

/-- The value of a tree; of several members with one key the last counts. -/
def Tree.Means : Tree → Json → Prop
  | .null, j => j = .null
  | .bool b, j => j = .bool b
  | .number n, j => ∃ x, n.text.value = .ok x ∧ j = .number x
  | .string s, j => j = .string s
  | .array items, j => ∃ xs, ItemsMean items xs ∧ j = .array xs
  | .object members, j => ∃ xs, MembersMean members xs ∧ j = ofMembers xs

def ItemsMean : List Tree → List Json → Prop
  | [], xs => xs = []
  | t :: rest, xs => ∃ x more, t.Means x ∧ ItemsMean rest more ∧ xs = x :: more

def MembersMean : List (String × Tree) → List (String × Json) → Prop
  | [], xs => xs = []
  | (k, t) :: rest, xs => ∃ x more, t.Means x ∧ MembersMean rest more ∧ xs = (k, x) :: more

end

mutual

/-- A value is read where there is room for its depth. -/
theorem Tree.json_eq_ok : (t : Tree) → ∀ {o : Outline}, t.HasOutline o → ∀ (room : Nat) (j : Json),
    o.json room = .ok j ↔ t.depth ≤ room ∧ t.Means j
  | .null, o, ho, room, j => by
    obtain rfl := ho
    simp [Outline.json, Lexeme.value, Tree.depth, Tree.Means, eq_comm]
  | .bool b, o, ho, room, j => by
    obtain rfl := ho
    simp [Outline.json, Lexeme.value, Tree.depth, Tree.Means, eq_comm]
  | .number n, o, ho, room, j => by
    obtain rfl := ho
    simp [Outline.json, Lexeme.value, Tree.depth, Tree.Means, map_eq_ok]
  | .string s, o, ho, room, j => by
    obtain ⟨text, htext, rfl⟩ := ho
    simp [Outline.json, Lexeme.value, Tree.depth, Tree.Means, htext.value, eq_comm]
  | .array items, o, ho, room, j => by
    obtain ⟨body, hbody, rfl⟩ := ho
    rw [Outline.json, Tree.depth, Tree.Means]
    cases room with
    | zero => simp
    | succ room =>
      simp only [Nat.add_one_ne_zero, if_false, Nat.add_sub_cancel, map_eq_ok, Nat.add_le_add_iff_right,
        ItemsHaveOutline.json_eq_ok items hbody room, and_assoc, exists_and_left]
  | .object members, o, ho, room, j => by
    obtain ⟨body, hbody, rfl⟩ := ho
    rw [Outline.json, Tree.depth, Tree.Means]
    cases room with
    | zero => simp
    | succ room =>
      simp only [Nat.add_one_ne_zero, if_false, Nat.add_sub_cancel, map_eq_ok, Nat.add_le_add_iff_right,
        MembersHaveOutline.json_eq_ok members hbody room, and_assoc, exists_and_left]

theorem ItemsHaveOutline.json_eq_ok : (items : List Tree) → ∀ {body : Items}, ItemsHaveOutline items body →
    ∀ (room : Nat) (xs : List Json), body.json room = .ok xs ↔ Tree.itemsDepth items ≤ room ∧ ItemsMean items xs
  | [], body, hbody, room, xs => by
    obtain rfl := hbody
    simp [Items.json, Tree.itemsDepth, ItemsMean, eq_comm]
  | t :: rest, body, hbody, room, xs => by
    obtain ⟨value, more, hvalue, hmore, rfl⟩ := hbody
    have hfirst := Tree.json_eq_ok t hvalue room
    have hrest := ItemsHaveOutline.json_eq_ok rest hmore room
    simp only [Items.json, bind_eq_ok, hfirst, hrest, Tree.itemsDepth, ItemsMean, Nat.max_le]
    constructor
    · rintro ⟨x, ⟨hdepth, hx⟩, ys, ⟨hdepth', hys⟩, ⟨⟩⟩
      exact ⟨⟨hdepth, hdepth'⟩, x, ys, hx, hys, rfl⟩
    · rintro ⟨⟨hdepth, hdepth'⟩, x, ys, hx, hys, rfl⟩
      exact ⟨x, ⟨hdepth, hx⟩, ys, ⟨hdepth', hys⟩, rfl⟩

theorem MembersHaveOutline.json_eq_ok : (members : List (String × Tree)) → ∀ {body : Members},
    MembersHaveOutline members body → ∀ (room : Nat) (xs : List (String × Json)),
    body.json room = .ok xs ↔ Tree.membersDepth members ≤ room ∧ MembersMean members xs
  | [], body, hbody, room, xs => by
    obtain rfl := hbody
    simp [Members.json, Tree.membersDepth, MembersMean, eq_comm]
  | (k, t) :: rest, body, hbody, room, xs => by
    obtain ⟨key, value, more, hkey, hvalue, hmore, rfl⟩ := hbody
    have hfirst := Tree.json_eq_ok t hvalue room
    have hrest := MembersHaveOutline.json_eq_ok rest hmore room
    simp only [Members.json, bind_eq_ok, hkey.value, hfirst, hrest, Tree.membersDepth, MembersMean, Nat.max_le]
    constructor
    · rintro ⟨_, ⟨⟩, x, ⟨hdepth, hx⟩, ys, ⟨hdepth', hys⟩, ⟨⟩⟩
      exact ⟨⟨hdepth, hdepth'⟩, x, ys, hx, hys, rfl⟩
    · rintro ⟨⟨hdepth, hdepth'⟩, x, ys, hx, hys, rfl⟩
      exact ⟨k, rfl, x, ⟨hdepth, hx⟩, ys, ⟨hdepth', hys⟩, rfl⟩

end

/-! ### Readers -/

/-- With this room the reader reads exactly the trees that `R` relates to a value, and gives that value. -/
def Reader.Reads {α : Type} (read : Reader α) (room : Nat) (R : Tree → α → Prop) : Prop :=
  ∀ t o, Tree.HasOutline t o → ∀ a, read room o = .ok a ↔ R t a

/-- A reader reads every text of the trees it reads. -/
theorem Reader.Reads.text {α : Type} {read : Reader α} {room : Nat} {R : Tree → α → Prop}
    (h : read.Reads room R) {t : Tree} {text : String} (ht : t.IsText text) (a : α) :
    read.text room text = .ok a ↔ R t a := by
  obtain ⟨o, ho, hread⟩ := ht.exists_outline
  rw [hread, h t o ho]

/-- The tree is the string. -/
def IsString (t : Tree) (s : String) : Prop := t = .string s

/-- The tree is `null` for nothing, or another tree that `R` relates to the value. -/
def IsNullable {α : Type} (R : Tree → α → Prop) (t : Tree) (a : Option α) : Prop :=
  t = .null ∧ a = none ∨ t ≠ .null ∧ ∃ x, R t x ∧ a = some x

/-- The tree is an array whose elements `R` relates to the values, one by one. -/
def IsListOf {α : Type} (R : Tree → α → Prop) (t : Tree) (as : List α) : Prop :=
  ∃ items, t = .array items ∧ List.Forall₂ R items as

/-- The tree is an object whose members `R` relates to the values under the same keys, one by one. -/
def IsDictionaryOf {α : Type} (R : Tree → α → Prop) (t : Tree) (as : List (String × α)) : Prop :=
  ∃ members, t = .object members ∧ List.Forall₂ (fun m a => m.1 = a.1 ∧ R m.2 a.2) members as

namespace Reader

variable {α : Type} {read : Reader α} {room : Nat} {R : Tree → α → Prop}

theorem unwanted_ne_ok (wanted : String) (lexeme : Lexeme) (a : α) : unwanted wanted lexeme ≠ .ok a := by
  rw [unwanted]
  cases lexeme.value <;> nofun

theorem reads_json (room : Nat) : Reads .json room fun t j => t.depth ≤ room ∧ t.Means j :=
  fun t _ ho j => Tree.json_eq_ok t ho room j

theorem reads_string (room : Nat) : Reads .string room IsString := by
  intro t o ho s
  unfold IsString
  cases t with
  | null | bool | number =>
    obtain rfl := ho
    simp [string, unwanted_ne_ok]
  | string =>
    obtain ⟨text, htext, rfl⟩ := ho
    simp [string, htext.value]
  | array | object =>
    obtain ⟨_, -, rfl⟩ := ho
    simp [string]

theorem Reads.nullable (h : read.Reads room R) : (nullable read).Reads room (IsNullable R) := by
  intro t o ho a
  by_cases hnull : t = .null
  · subst hnull
    obtain rfl := ho
    simp [Reader.nullable, IsNullable, eq_comm]
  · have hread : Reader.nullable read room o = some <$> read room o := by
      refine Reader.nullable.eq_2 _ _ _ fun hscalar => hnull ?_
      subst hscalar
      cases t with
      | null => rfl
      | bool | number => cases ho
      | string | array | object =>
        obtain ⟨_, -, heq⟩ := ho
        cases heq
    simp [hread, map_eq_ok, h t o ho, IsNullable, hnull]

private theorem Reads.items (h : read.Reads room R) {trees : List Tree} {body : Items}
    (hbody : ItemsHaveOutline trees body) (as : List α) :
    items read room body = .ok as ↔ List.Forall₂ R trees as := by
  induction trees generalizing body as with
  | nil =>
    obtain rfl := hbody
    simp [Reader.items, eq_comm]
  | cons t rest ih =>
    obtain ⟨value, more, hvalue, hmore, rfl⟩ := hbody
    simp only [Reader.items, bind_eq_ok, h _ _ hvalue, ih hmore, List.forall₂_cons_left_iff]
    constructor
    · rintro ⟨x, hx, xs, hxs, ⟨⟩⟩
      exact ⟨x, xs, hx, hxs, rfl⟩
    · rintro ⟨x, xs, hx, hxs, rfl⟩
      exact ⟨x, hx, xs, hxs, rfl⟩

theorem Reads.list (h : read.Reads room R) : (list read).Reads (room + 1) (IsListOf R) := by
  intro t o ho as
  cases t with
  | null | bool | number =>
    obtain rfl := ho
    simp [Reader.list, unwanted_ne_ok, IsListOf]
  | string | object =>
    obtain ⟨_, -, rfl⟩ := ho
    simp [Reader.list, unwanted_ne_ok, IsListOf]
  | array trees =>
    obtain ⟨body, hbody, rfl⟩ := ho
    simp [Reader.list, IsListOf, h.items hbody]

private theorem Reads.members (h : read.Reads room R) {trees : List (String × Tree)} {body : Members}
    (hbody : MembersHaveOutline trees body) (as : List (String × α)) :
    members read room body = .ok as ↔ List.Forall₂ (fun m a => m.1 = a.1 ∧ R m.2 a.2) trees as := by
  induction trees generalizing body as with
  | nil =>
    obtain rfl := hbody
    simp [Reader.members, eq_comm]
  | cons m rest ih =>
    obtain ⟨key, value, more, hkey, hvalue, hmore, rfl⟩ := hbody
    simp only [Reader.members, bind_eq_ok, hkey.value, h _ _ hvalue, ih hmore, List.forall₂_cons_left_iff]
    constructor
    · rintro ⟨_, ⟨⟩, x, hx, xs, hxs, ⟨⟩⟩
      exact ⟨(m.1, x), xs, ⟨rfl, hx⟩, hxs, rfl⟩
    · rintro ⟨⟨_, x⟩, xs, ⟨rfl, hx⟩, hxs, rfl⟩
      exact ⟨m.1, rfl, x, hx, xs, hxs, rfl⟩

theorem Reads.dictionary (h : read.Reads room R) : (dictionary read).Reads (room + 1) (IsDictionaryOf R) := by
  intro t o ho as
  cases t with
  | null | bool | number =>
    obtain rfl := ho
    simp [Reader.dictionary, unwanted_ne_ok, IsDictionaryOf]
  | string | array =>
    obtain ⟨_, -, rfl⟩ := ho
    simp [Reader.dictionary, unwanted_ne_ok, IsDictionaryOf]
  | object trees =>
    obtain ⟨body, hbody, rfl⟩ := ho
    simp [Reader.dictionary, IsDictionaryOf, h.members hbody]

end Reader

end VetoMachine.Json
