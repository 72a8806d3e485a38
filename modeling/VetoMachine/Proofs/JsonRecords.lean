import Mathlib.Data.List.Nodup
import VetoMachine.Proofs.JsonReaders

/-!
# What record readers accept

The fields of a record are slots of its type, each with a way to look at it and to fill it (`Slot`).  A record is read
exactly from an object or an array that fills its slots (`Record.HasSlots.reads`): every required slot once, every
other one at most once, with unknown members of an object passed over and elements missing only at the end of an
array.
-/

namespace VetoMachine.Json

/-- The element at the place of a name among `names`, if there is one. -/
def elementOf (names : List String) (items : List Tree) (name : String) : List Tree := items[names.idxOf name]?.toList

/-- The trees that stand for every field of a record with these field names: the values of its members in an object,
where others may stand between them, and in an array the element at its place. -/
def Tree.fieldValues? (names : List String) : Tree → Option (String → List Tree)
  | .object members => some fun name => valuesOf name members
  | .array items => if items.length ≤ names.length then some (elementOf names items) else none
  | _ => none

/-- The trees that stand for an optional field: none, a `null`, or one that `R` relates to the value. -/
def IsOptional {α : Type} (R : Tree → α → Prop) (values : List Tree) (a : Option α) : Prop :=
  (values = [] ∨ values = [.null]) ∧ a = none ∨ ∃ t x, values = [t] ∧ R t x ∧ a = some x

/-! ### Slots -/

/-- A field of a record as a lens, with the trees that write its values. -/
structure Slot (α : Type) where
  Value : Type
  name : String
  isRequired : Bool
  get : α → Value
  set : Value → α → α
  IsWritten : Tree → Value → Prop

namespace Slot

variable {α β : Type}

/-- A slot that has to be filled. -/
def required (name : String) (get : α → β) (set : β → α → α) (R : Tree → β → Prop) : Slot α :=
  ⟨β, name, true, get, set, R⟩

/-- A slot that may be left out, but that `null` does not empty. -/
def defaulted (name : String) (get : α → β) (set : β → α → α) (R : Tree → β → Prop) : Slot α :=
  ⟨β, name, false, get, set, R⟩

/-- A slot that may be left out or filled with `null`. -/
def optional (name : String) (get : α → Option β) (set : Option β → α → α) (R : Tree → β → Prop) : Slot α :=
  ⟨Option β, name, false, get, set, IsNullable R⟩

@[simp] theorem required_name (name : String) (get : α → β) (set : β → α → α) (R : Tree → β → Prop) :
    (required name get set R).name = name := rfl

@[simp] theorem defaulted_name (name : String) (get : α → β) (set : β → α → α) (R : Tree → β → Prop) :
    (defaulted name get set R).name = name := rfl

@[simp] theorem optional_name (name : String) (get : α → Option β) (set : Option β → α → α) (R : Tree → β → Prop) :
    (optional name get set R).name = name := rfl

/-- The trees `values` fill the slot: one tree that writes its content, or none if the slot is not required, and then
its content is that of `blank`. -/
def Filled (s : Slot α) (blank a : α) (values : List Tree) : Prop :=
  values = [] ∧ s.isRequired = false ∧ s.get a = s.get blank ∨ ∃ t, values = [t] ∧ s.IsWritten t (s.get a)

theorem filled_required {name : String} {get : α → β} {set : β → α → α} {R : Tree → β → Prop} {blank a : α}
    {values : List Tree} : (required name get set R).Filled blank a values ↔ ∃ t, values = [t] ∧ R t (get a) := by
  simp [Filled, required]

theorem filled_string {name : String} {get : α → String} {set : String → α → α} {blank a : α} {values : List Tree} :
    (required name get set IsString).Filled blank a values ↔ values = [.string (get a)] := by
  simp [Filled, required, IsString]

theorem filled_defaulted {name : String} {get : α → β} {set : β → α → α} {R : Tree → β → Prop} {blank a : α}
    {values : List Tree} : (defaulted name get set R).Filled blank a values ↔
      values = [] ∧ get a = get blank ∨ ∃ t, values = [t] ∧ R t (get a) := by
  simp [Filled, defaulted]

theorem filled_optional {name : String} {get : α → Option β} {set : Option β → α → α} {R : Tree → β → Prop}
    {blank a : α} (hblank : get blank = none) (hnull : ∀ x, ¬ R .null x) {values : List Tree} :
    (optional name get set R).Filled blank a values ↔ IsOptional R values (get a) := by
  simp only [Filled, optional, IsOptional, IsNullable, hblank, true_and]
  constructor
  · rintro (⟨hvalues, hget⟩ | ⟨t, hvalues, ⟨rfl, hget⟩ | ⟨-, x, hx, hget⟩⟩)
    · exact .inl ⟨.inl hvalues, hget⟩
    · exact .inl ⟨.inr hvalues, hget⟩
    · exact .inr ⟨t, x, hvalues, hx, hget⟩
  · rintro (⟨hvalues | hvalues, hget⟩ | ⟨t, x, hvalues, hx, hget⟩)
    · exact .inl ⟨hvalues, hget⟩
    · exact .inr ⟨.null, hvalues, .inl ⟨rfl, hget⟩⟩
    · exact .inr ⟨t, hvalues, .inr ⟨fun h => hnull x (h ▸ hx), x, hx, hget⟩⟩

/-- The field is read into the slot. -/
structure Describes (s : Slot α) (room : Nat) (f : Field α) : Prop where
  name : f.name = s.name
  isRequired : f.isRequired = s.isRequired
  read : ∀ {t o}, t.HasOutline o → ∀ a b, f.read room o a = .ok b ↔ ∃ v, s.IsWritten t v ∧ b = s.set v a

/-- A field that is stored as `convert` of what is read. -/
theorem describes_of (s : Slot α) {room : Nat} {read : Reader β} {R : Tree → β → Prop} (hread : read.Reads room R)
    (convert : β → s.Value) (hwritten : ∀ t v, s.IsWritten t v ↔ ∃ w, R t w ∧ v = convert w) :
    s.Describes room (.of s.name s.isRequired read fun w a => s.set (convert w) a) where
  name := rfl
  isRequired := rfl
  read := by
    intro t o ho a b
    have hfield : (Field.of s.name s.isRequired read fun w a => s.set (convert w) a).read room o a = .ok b ↔
        ∃ w, read room o = .ok w ∧ b = s.set (convert w) a := map_eq_ok
    simp only [hfield, hread t o ho, hwritten]
    constructor
    · rintro ⟨w, hw, rfl⟩
      exact ⟨convert w, ⟨w, hw, rfl⟩, rfl⟩
    · rintro ⟨_, ⟨w, hw, rfl⟩, rfl⟩
      exact ⟨w, hw, rfl⟩

/-- A field that is stored as it is read. -/
theorem describes {s : Slot α} {room : Nat} {read : Reader s.Value} (hread : read.Reads room s.IsWritten) :
    s.Describes room (.of s.name s.isRequired read s.set) :=
  s.describes_of hread id fun _ _ => ⟨fun h => ⟨_, h, rfl⟩, fun ⟨_, h, hv⟩ => hv ▸ h⟩

theorem describes_required {room : Nat} {read : Reader β} {R : Tree → β → Prop} (hread : read.Reads room R)
    (name : String) (get : α → β) (set : β → α → α) :
    (required name get set R).Describes room (.required name read set) :=
  describes (s := required name get set R) hread

theorem describes_defaulted {room : Nat} {read : Reader β} {R : Tree → β → Prop} (hread : read.Reads room R)
    (name : String) (get : α → β) (set : β → α → α) :
    (defaulted name get set R).Describes room (.optional name read set) :=
  describes (s := defaulted name get set R) hread

theorem describes_defaulted_of {γ : Type} {room : Nat} {read : Reader γ} {R : Tree → γ → Prop}
    (hread : read.Reads room R) (convert : γ → β) (name : String) (get : α → β) (set : β → α → α) :
    (defaulted name get set fun t v => ∃ w, R t w ∧ v = convert w).Describes room
      (.optional name read fun w a => set (convert w) a) :=
  (defaulted name get set _).describes_of hread convert fun _ _ => .rfl

theorem describes_optional {room : Nat} {read : Reader β} {R : Tree → β → Prop} (hread : read.Reads room R)
    (name : String) (get : α → Option β) (set : Option β → α → α) :
    (optional name get set R).Describes room (.optional name (.nullable read) set) :=
  describes (s := optional name get set R) hread.nullable

end Slot

/-- The slots of a record: what is put into a slot is found there and nowhere else, and a record is what its slots
hold. -/
structure Record.HasSlots {α : Type} (r : Record α) (room : Nat) (slots : List (Slot α)) : Prop where
  fields : List.Forall₂ (fun s f => s.Describes room f) slots r.fields
  nodup : (slots.map (·.name)).Nodup
  get_set : ∀ s ∈ slots, ∀ v a, s.get (s.set v a) = v
  get_set_of_ne : ∀ s ∈ slots, ∀ s' ∈ slots, s'.name ≠ s.name → ∀ v a, s'.get (s.set v a) = s'.get a
  ext : ∀ a b, (∀ s ∈ slots, s.get a = s.get b) → a = b

/-- The tree fills the slots of a record. -/
def Record.IsWritten {α : Type} (r : Record α) (slots : List (Slot α)) (t : Tree) (a : α) : Prop :=
  ∃ values, t.fieldValues? (slots.map (·.name)) = some values ∧ ∀ s ∈ slots, s.Filled r.blank a (values s.name)

/-! ### Objects -/

section

variable {α : Type} {key k : String}

theorem valuesOf_cons (x : α) (members : List (String × α)) :
    valuesOf key ((k, x) :: members) = if k = key then x :: valuesOf key members else valuesOf key members := by
  by_cases h : k = key <;> simp [valuesOf, h]

theorem valuesOf_cons_self (x : α) (members : List (String × α)) :
    valuesOf key ((key, x) :: members) = x :: valuesOf key members := by
  rw [valuesOf_cons, if_pos rfl]

theorem valuesOf_cons_of_ne (h : key ≠ k) (x : α) (members : List (String × α)) :
    valuesOf key ((k, x) :: members) = valuesOf key members := by
  rw [valuesOf_cons, if_neg h.symm]

theorem valuesOf_append (ms ns : List (String × α)) : valuesOf key (ms ++ ns) = valuesOf key ms ++ valuesOf key ns :=
  List.filterMap_append

theorem valuesOf_toList (x : Option α) :
    valuesOf key (x.map (k, ·)).toList = if k = key then x.toList else [] := by
  by_cases h : k = key <;> cases x <;> simp [valuesOf, h]

end

namespace Record.HasSlots

variable {α : Type} {r : Record α} {room : Nat} {slots : List (Slot α)}

private theorem eq_iff (h : r.HasSlots room slots) (a b : α) : a = b ↔ ∀ s ∈ slots, s.get b = s.get a :=
  ⟨fun hab _ _ => hab ▸ rfl, fun hget => h.ext a b fun s hs => (hget s hs).symm⟩

/-- A key names a slot with its field, or neither. -/
private theorem find?_cases (h : r.HasSlots room slots) (key : String) :
    (∃ s ∈ slots, s.name = key ∧ ∃ f, r.fields.find? (·.name = key) = some f ∧ s.Describes room f) ∨
      r.fields.find? (·.name = key) = none ∧ ∀ s ∈ slots, s.name ≠ key := by
  have hfields := h.fields
  generalize r.fields = fields at hfields
  clear h
  induction hfields with
  | nil => exact .inr ⟨rfl, by simp⟩
  | @cons s f slots fields hf _ ih =>
    by_cases hkey : s.name = key
    · refine .inl ⟨s, by simp, hkey, f, ?_, hf⟩
      simp [hf.name, hkey]
    · rw [List.find?_cons_of_neg (by simp [hf.name, hkey])]
      obtain ⟨s', hs', hname, hfind⟩ | ⟨hnone, hall⟩ := ih
      · exact .inl ⟨s', by simp [hs'], hname, hfind⟩
      · refine .inr ⟨hnone, ?_⟩
        simp only [List.forall_mem_cons]
        exact ⟨hkey, hall⟩

private theorem firstMissing?_eq_none (h : r.HasSlots room slots) (seen : List String) :
    r.firstMissing? seen = none ↔ ∀ s ∈ slots, s.name ∉ seen → s.isRequired = false := by
  have hfields := h.fields
  rw [firstMissing?, List.find?_eq_none]
  generalize r.fields = fields at hfields
  clear h
  induction hfields with
  | nil => simp
  | @cons s f slots fields hf _ ih =>
    rw [List.forall_mem_cons, List.forall_mem_cons]
    refine and_congr ?_ ih
    rw [hf.name, hf.isRequired]
    cases s.isRequired <;> simp

/-- What is left to fill while the members of an object are read, those in `seen` being filled already. -/
private def Pending (s : Slot α) (seen : List String) (a b : α) (values : List Tree) : Prop :=
  if s.name ∈ seen then values = [] ∧ s.get b = s.get a else s.Filled a b values

private theorem pending_nil (s : Slot α) (seen : List String) (a b : α) :
    Pending s seen a b [] ↔ s.get b = s.get a ∧ (s.name ∉ seen → s.isRequired = false) := by
  by_cases hseen : s.name ∈ seen <;> simp [Pending, Slot.Filled, hseen, and_comm]

/-- Filling one slot leaves what is to be filled elsewhere. -/
private theorem filled_set (h : r.HasSlots room slots) {s s' : Slot α} (hs : s ∈ slots) (hs' : s' ∈ slots)
    (hne : s'.name ≠ s.name) (v : s.Value) (a b : α) (values : List Tree) :
    s'.Filled (s.set v a) b values ↔ s'.Filled a b values := by
  simp [Slot.Filled, h.get_set_of_ne s hs s' hs' hne]

private theorem pending_set (h : r.HasSlots room slots) {s s' : Slot α} (hs : s ∈ slots) (hs' : s' ∈ slots)
    (hne : s'.name ≠ s.name) (v : s.Value) (seen : List String) (a b : α) (values : List Tree) :
    Pending s' (s.name :: seen) (s.set v a) b values ↔ Pending s' seen a b values := by
  simp [Pending, hne, h.filled_set hs hs' hne, h.get_set_of_ne s hs s' hs' hne]

/-- A known member that is not filled yet fills its slot. -/
private theorem pending_cons (h : r.HasSlots room slots) {s : Slot α} (hs : s ∈ slots) {seen : List String}
    (hseen : s.name ∉ seen) (x : Tree) (rest : List (String × Tree)) (a b : α) :
    (∃ a', (∃ v, s.IsWritten x v ∧ a' = s.set v a) ∧
        ∀ s' ∈ slots, Pending s' (s.name :: seen) a' b (valuesOf s'.name rest)) ↔
      ∀ s' ∈ slots, Pending s' seen a b (valuesOf s'.name ((s.name, x) :: rest)) := by
  constructor
  · rintro ⟨_, ⟨v, hv, rfl⟩, hall⟩ s' hs'
    by_cases hsame : s'.name = s.name
    · obtain rfl := List.inj_on_of_nodup_map h.nodup hs' hs hsame
      have hrest := hall s' hs
      rw [Pending, if_pos (by simp), h.get_set s' hs] at hrest
      rw [Pending, if_neg hseen, valuesOf_cons_self, hrest.1]
      exact .inr ⟨x, rfl, hrest.2 ▸ hv⟩
    · rw [valuesOf_cons_of_ne hsame]
      exact (h.pending_set hs hs' hsame v seen a b _).1 (hall s' hs')
  · intro hall
    have hfill := hall s hs
    rw [Pending, if_neg hseen, valuesOf_cons_self] at hfill
    obtain ⟨hempty, -⟩ | ⟨t, hone, ht⟩ := hfill
    · cases hempty
    · obtain ⟨rfl, hrest⟩ := List.cons_eq_cons.1 hone
      refine ⟨s.set (s.get b) a, ⟨_, ht, rfl⟩, fun s' hs' => ?_⟩
      by_cases hsame : s'.name = s.name
      · obtain rfl := List.inj_on_of_nodup_map h.nodup hs' hs hsame
        rw [Pending, if_pos (by simp), h.get_set s' hs]
        exact ⟨hrest, rfl⟩
      · have hother := hall s' hs'
        rw [valuesOf_cons_of_ne hsame] at hother
        exact (h.pending_set hs hs' hsame _ seen a b _).2 hother

/-- A member is read by the field of its key, or passed over. -/
private theorem readMembers_member (r : Record α) (room : Nat) {key : StringText} {k : String} (hkey : key.Spells k)
    (value : Outline) (more : Members) (seen : List String) (a : α) :
    r.readMembers room (.member key value more) seen a =
      match r.fields.find? (·.name = k) with
      | some f =>
        if seen.contains k then .error (.duplicateField k)
        else f.read room value a >>= r.readMembers room more (k :: seen)
      | none => value.skip >>= fun _ => r.readMembers room more seen a := by
  rw [readMembers, hkey.value]
  rfl

private theorem readMembers_iff (h : r.HasSlots room slots) {members : List (String × Tree)} {body : Members}
    (hbody : MembersHaveOutline members body) (seen : List String) (a b : α) :
    r.readMembers room body seen a = .ok b ↔ ∀ s ∈ slots, Pending s seen a b (valuesOf s.name members) := by
  induction members generalizing body seen a with
  | nil =>
    obtain rfl := hbody
    have hread : r.readMembers room .closed seen a = .ok b ↔ a = b ∧ r.firstMissing? seen = none := by
      rw [readMembers]
      cases r.firstMissing? seen <;> simp
    simp only [hread, h.eq_iff, h.firstMissing?_eq_none, valuesOf, List.filterMap_nil, pending_nil, forall_and]
  | cons m rest ih =>
    obtain ⟨k, x⟩ := m
    obtain ⟨key, value, more, hkey, hvalue, hmore, rfl⟩ := hbody
    have hread := readMembers_member r room hkey value more seen a
    obtain ⟨s, hs, rfl, f, hfind, hf⟩ | ⟨hfind, hnone⟩ := h.find?_cases k
    · simp only [hread, hfind]
      by_cases hseen : s.name ∈ seen
      · -- the slot is filled already
        have hfilled : ¬ Pending s seen a b (valuesOf s.name ((s.name, x) :: rest)) := by
          rw [valuesOf_cons_self, Pending, if_pos hseen]
          simp
        rw [if_pos (List.contains_iff_mem.2 hseen)]
        exact ⟨fun hok => (by cases hok), fun hall => absurd (hall s hs) hfilled⟩
      · rw [if_neg (by simpa using hseen), ← h.pending_cons hs hseen]
        simp only [bind_eq_ok, hf.read hvalue, ih hmore]
    · -- an unknown member is passed over
      simp only [hread, hfind, hvalue.skip]
      show r.readMembers room more seen a = .ok b ↔ _
      rw [ih hmore]
      refine forall₂_congr fun s hs => ?_
      rw [valuesOf_cons_of_ne (hnone s hs)]

/-! ### Arrays -/

private theorem elementOf_nil (names : List String) (name : String) : elementOf names [] name = [] := rfl

private theorem elementOf_cons_self (name : String) (names : List String) (t : Tree) (items : List Tree) :
    elementOf (name :: names) (t :: items) name = [t] := by
  simp [elementOf]

private theorem elementOf_cons_of_ne {name n : String} (hne : name ≠ n) (names : List String) (t : Tree)
    (items : List Tree) : elementOf (n :: names) (t :: items) name = elementOf names items name := by
  simp [elementOf, Ne.symm hne]

/-- Whatever is not among `todo` keeps its content from `a` to `b`, told with the slot `s` and without it. -/
private theorem kept_cons {s : Slot α} (hs : s ∈ slots) (hnodup : (slots.map (·.name)).Nodup) {names : List String}
    (hname : s.name ∉ names) (a a' : α) (ha : ∀ s' ∈ slots, s'.name ≠ s.name → s'.get a' = s'.get a) (b : α) :
    (∀ s' ∈ slots, s'.name ∉ names → s'.get b = s'.get a') ↔
      (∀ s' ∈ slots, s'.name ∉ s.name :: names → s'.get b = s'.get a) ∧ s.get b = s.get a' := by
  constructor
  · intro hkept
    refine ⟨fun s' hs' hout => ?_, hkept s hs hname⟩
    simp only [List.mem_cons, not_or] at hout
    exact (hkept s' hs' hout.2).trans (ha s' hs' hout.1)
  · rintro ⟨hkept, hsame⟩ s' hs' hout
    by_cases hne : s'.name = s.name
    · obtain rfl := List.inj_on_of_nodup_map hnodup hs' hs hne
      exact hsame
    · rw [hkept s' hs' (by simp [hne, hout]), ha s' hs' hne]

/-- From `a` to `b` the slots `todo` are filled from the elements in their order, and no other slot changes. -/
private def Takes (slots todo : List (Slot α)) (items : List Tree) (a b : α) : Prop :=
  (∀ s ∈ slots, s.name ∉ todo.map (·.name) → s.get b = s.get a) ∧
    ∀ s ∈ todo, s.Filled a b (elementOf (todo.map (·.name)) items s.name)

private theorem takes_nil (h : r.HasSlots room slots) (a b : α) : Takes slots [] [] a b ↔ a = b := by
  simp [Takes, h.eq_iff]

/-- Where the elements end, a slot that is not required is left as it is. -/
private theorem takes_cons_nil (h : r.HasSlots room slots) {s : Slot α} (hs : s ∈ slots) {todo : List (Slot α)}
    (hname : s.name ∉ todo.map (·.name)) (a b : α) :
    Takes slots (s :: todo) [] a b ↔ s.isRequired = false ∧ Takes slots todo [] a b := by
  have hkept := kept_cons hs h.nodup hname a a (fun _ _ _ => rfl) b
  have hfilled : ∀ (s : Slot α) names, s.Filled a b (elementOf names [] s.name) ↔
      s.isRequired = false ∧ s.get b = s.get a := by
    simp [Slot.Filled, elementOf_nil]
  simp only [Takes, hkept, hfilled, List.map_cons, List.forall_mem_cons]
  constructor
  · rintro ⟨hout, ⟨hrequired, hget⟩, htodo⟩
    exact ⟨hrequired, ⟨hout, hget⟩, htodo⟩
  · rintro ⟨hrequired, ⟨hout, hget⟩, htodo⟩
    exact ⟨hout, ⟨hrequired, hget⟩, htodo⟩

/-- The next element fills the next slot. -/
private theorem takes_cons (h : r.HasSlots room slots) {s : Slot α} (hs : s ∈ slots) {todo : List (Slot α)}
    (hsub : ∀ s' ∈ todo, s' ∈ slots) (hname : s.name ∉ todo.map (·.name)) (t : Tree) (items : List Tree) (a b : α) :
    (∃ a', (∃ v, s.IsWritten t v ∧ a' = s.set v a) ∧ Takes slots todo items a' b) ↔
      Takes slots (s :: todo) (t :: items) a b := by
  have hne : ∀ s' ∈ todo, s'.name ≠ s.name := fun s' hs' hsame => hname (hsame ▸ List.mem_map_of_mem hs')
  have hkept := fun v => kept_cons hs h.nodup hname a (s.set v a) (h.get_set_of_ne s hs · · · v a) b
  have hstep : ∀ v, (∀ s' ∈ todo, s'.Filled (s.set v a) b (elementOf (todo.map (·.name)) items s'.name)) ↔
      ∀ s' ∈ todo, s'.Filled a b (elementOf (s.name :: todo.map (·.name)) (t :: items) s'.name) := by
    intro v
    refine forall₂_congr fun s' hs' => ?_
    rw [h.filled_set hs (hsub s' hs') (hne s' hs'), elementOf_cons_of_ne (hne s' hs')]
  have hfilled : s.Filled a b (elementOf (s.name :: todo.map (·.name)) (t :: items) s.name) ↔
      s.IsWritten t (s.get b) := by
    simp [Slot.Filled, elementOf_cons_self]
  simp only [Takes, List.map_cons, List.forall_mem_cons, hfilled]
  constructor
  · rintro ⟨_, ⟨v, hv, rfl⟩, hall, htodo⟩
    obtain ⟨hout, hget⟩ := (hkept v).1 hall
    rw [h.get_set s hs] at hget
    exact ⟨hout, hget ▸ hv, (hstep v).1 htodo⟩
  · rintro ⟨hout, hv, htodo⟩
    exact ⟨_, ⟨_, hv, rfl⟩, (hkept _).2 ⟨hout, (h.get_set s hs _ a).symm⟩, (hstep _).2 htodo⟩

private theorem readItems_iff (h : r.HasSlots room slots) {todo : List (Slot α)} {fields : List (Field α)}
    (hfields : List.Forall₂ (fun s f => s.Describes room f) todo fields) (hsub : ∀ s ∈ todo, s ∈ slots)
    (hnodup : (todo.map (·.name)).Nodup) {items : List Tree} {body : Items} (hbody : ItemsHaveOutline items body)
    (count : Nat) (a b : α) :
    r.readItems room fields count body a = .ok b ↔ items.length ≤ todo.length ∧ Takes slots todo items a b := by
  induction hfields generalizing items body count a with
  | nil =>
    cases items with
    | nil =>
      obtain rfl := hbody
      simp [readItems, h.takes_nil]
    | cons t items =>
      obtain ⟨value, more, -, -, rfl⟩ := hbody
      simp [readItems]
  | @cons s f todo fields hf hrest ih =>
    simp only [List.forall_mem_cons] at hsub
    simp only [List.map_cons, List.nodup_cons] at hnodup
    obtain ⟨hs, hsub⟩ := hsub
    obtain ⟨hname, hnodup⟩ := hnodup
    cases items with
    | nil =>
      obtain rfl := hbody
      have hclosed : ItemsHaveOutline [] .closed := rfl
      rw [readItems, hf.isRequired, h.takes_cons_nil hs hname]
      cases hrequired : s.isRequired with
      | true => simp
      | false =>
        rw [if_neg Bool.false_ne_true, ih hsub hnodup hclosed count a]
        simp
    | cons t items =>
      obtain ⟨value, more, hvalue, hmore, rfl⟩ := hbody
      rw [← h.takes_cons hs hsub hname]
      simp only [readItems, bind_eq_ok, hf.read hvalue, ih hsub hnodup hmore, List.length_cons,
        Nat.add_le_add_iff_right]
      constructor
      · rintro ⟨a', ha', hlength, htodo⟩
        exact ⟨hlength, a', ha', htodo⟩
      · rintro ⟨hlength, a', ha', htodo⟩
        exact ⟨a', ha', hlength, htodo⟩

/-- A record is read from the trees that fill its slots. -/
theorem reads (h : r.HasSlots room slots) : r.reader.Reads (room + 1) (r.IsWritten slots) := by
  intro t o ho a
  cases t with
  | null | bool | number =>
    obtain rfl := ho
    simp [reader, Reader.unwanted_ne_ok, IsWritten, Tree.fieldValues?]
  | string =>
    obtain ⟨_, -, rfl⟩ := ho
    simp [reader, Reader.unwanted_ne_ok, IsWritten, Tree.fieldValues?]
  | array items =>
    obtain ⟨body, hbody, rfl⟩ := ho
    have hitems := h.readItems_iff h.fields (fun _ => id) h.nodup hbody 0 r.blank a
    have hout : ∀ s ∈ slots, s.name ∉ slots.map (·.name) → s.get a = s.get r.blank :=
      fun s hs hname => absurd (List.mem_map_of_mem hs) hname
    rw [Takes, and_iff_right hout] at hitems
    rw [reader, if_neg (Nat.succ_ne_zero room), Nat.add_sub_cancel, hitems, IsWritten, Tree.fieldValues?]
    by_cases hlength : items.length ≤ slots.length <;> simp [hlength]
  | object members =>
    obtain ⟨body, hbody, rfl⟩ := ho
    have hmembers := h.readMembers_iff hbody [] r.blank a
    simp only [Pending, List.not_mem_nil, if_false] at hmembers
    rw [reader, if_neg (Nat.succ_ne_zero room), Nat.add_sub_cancel, hmembers, IsWritten, Tree.fieldValues?]
    simp

end Record.HasSlots

end VetoMachine.Json
