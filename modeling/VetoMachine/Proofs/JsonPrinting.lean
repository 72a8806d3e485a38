import VetoMachine.Json.Printer
import VetoMachine.Proofs.JsonTokens

/-!
# Printed JSON

What is printed is a text in the grammar: strings (`writesString_quoteChars`), trees without blanks
(`Tree.isText_render`) and values whose numbers are read back (`isText_render`).  A value has the texts of all its
trees (`IsText`), in which the members of every object may stand in any order.  Every integer that is kept exactly is
read back from its own text (`Number.readsBack_int`).
-/

namespace VetoMachine

namespace Json

/-! ### Strings -/

private theorem isUnit_control : ∀ n < 0x20,
    hexDigits 4 n = ['0', '0', Nat.digitChar (n / 16), Nat.digitChar (n % 16)] := by
  decide

private theorem writesChar_escapeChar (c : Char) : WritesChar c (escapeChar c) := by
  unfold escapeChar
  split
  · subst_vars; exact .short (by decide)
  split
  · subst_vars; exact .short (by decide)
  split
  · subst_vars; exact .short (by decide)
  split
  · subst_vars; exact .short (by decide)
  split
  · subst_vars; exact .short (by decide)
  split
  · -- a control character is written as a unit
    rename_i hcontrol
    refine .unit ⟨'0', '0', _, _, 0, 0, c.toNat / 16, c.toNat % 16, ⟨by omega, .inl rfl⟩, ⟨by omega, .inl rfl⟩,
      ⟨by omega, .inl rfl⟩, ⟨by omega, .inl rfl⟩, isUnit_control c.toNat hcontrol, by omega⟩
  · rename_i hquote hslash _ _ _ hcontrol
    exact .plain (by omega) hquote hslash

theorem writesString_quoteChars (s : String) : WritesString s (quoteChars s) := by
  have h : ∀ cs, WritesChars cs (cs.flatMap escapeChar) := by
    intro cs
    induction cs with
    | nil => exact .nil
    | cons c cs ih => exact .cons (writesChar_escapeChar c) ih
  exact ⟨_, h s.toList, rfl⟩

/-! ### Trees -/

theorem Padded.of {P : List Char → Prop} {cs : List Char} (h : P cs) : Padded P cs :=
  ⟨[], cs, [], nofun, h, nofun, by simp⟩

mutual

/-- The text of a tree without blanks. -/
def Tree.chars : Tree → List Char
  | .null => ['n', 'u', 'l', 'l']
  | .bool true => ['t', 'r', 'u', 'e']
  | .bool false => ['f', 'a', 'l', 's', 'e']
  | .number n => n.chars
  | .string s => quoteChars s
  | .array items => '[' :: (Tree.itemsChars items ++ [']'])
  | .object members => '{' :: (Tree.membersChars members ++ ['}'])

def Tree.itemsChars : List Tree → List Char
  | [] => []
  | [x] => x.chars
  | x :: y :: rest => x.chars ++ ',' :: Tree.itemsChars (y :: rest)

def Tree.membersChars : List (String × Tree) → List Char
  | [] => []
  | [(k, x)] => quoteChars k ++ ':' :: x.chars
  | (k, x) :: m :: rest => quoteChars k ++ ':' :: (x.chars ++ ',' :: Tree.membersChars (m :: rest))

end

def Tree.render (t : Tree) : String := String.ofList t.chars

mutual

theorem Tree.written_chars : (t : Tree) → t.Written t.chars
  | .null => rfl
  | .bool true => rfl
  | .bool false => rfl
  | .number _ => rfl
  | .string s => writesString_quoteChars s
  | .array items => ⟨_, itemsWritten_itemsChars items, rfl⟩
  | .object members => ⟨_, membersWritten_membersChars members, rfl⟩

theorem itemsWritten_itemsChars : (items : List Tree) → ItemsWritten items (Tree.itemsChars items)
  | [] => nofun
  | [x] => .of x.written_chars
  | x :: y :: rest => ⟨_, _, .of x.written_chars, itemsWritten_itemsChars (y :: rest), rfl⟩

theorem membersWritten_membersChars : (members : List (String × Tree)) →
    MembersWritten members (Tree.membersChars members)
  | [] => nofun
  | [(k, x)] => ⟨_, _, .of (writesString_quoteChars k), .of x.written_chars, rfl⟩
  | (k, x) :: m :: rest =>
    ⟨_, _, _, .of (writesString_quoteChars k), .of x.written_chars, membersWritten_membersChars (m :: rest), rfl⟩

end

theorem Tree.isText_render (t : Tree) : t.IsText t.render := by
  rw [IsText, render, String.toList_ofList]
  exact .of t.written_chars

end Json

/-! ### Numbers -/

/-- The text of a number is a number in the grammar, and has its value. -/
def Number.ReadsBack (n : Number) : Prop :=
  ∃ h : Json.IsNumber n.chars, (Json.NumberLiteral.mk n.chars h).text.value = .ok n

namespace Json

private theorem head?_toDigits (n : Nat) : (Nat.toDigits 10 n).head? = some '0' → n = 0 := by
  induction n using Nat.strongRecOn with
  | ind n ih =>
    by_cases hn : n < 10
    · rw [Nat.toDigits_of_lt_base hn]
      simp
    · obtain ⟨c, cs, hcs⟩ := List.exists_cons_of_ne_nil (Nat.toDigits_ne_nil (n := n / 10) (b := 10))
      have hrest := ih (n / 10) (by omega)
      rw [Nat.toDigits_of_base_le (by decide) (by omega), hcs, List.cons_append]
      rw [hcs] at hrest
      intro hhead
      have := hrest hhead
      omega

private theorem isWhole_toDigits (n : Nat) : IsWhole (Nat.toDigits 10 n) := by
  refine ⟨⟨Nat.toDigits_ne_nil, fun c hc => Nat.isDigit_of_mem_toDigits (by decide) (by decide) hc⟩, fun hhead => ?_⟩
  rw [head?_toDigits n hhead]
  rfl

private theorem ofDigits_digitsOf_toDigits (n : Nat) : ofDigits (digitsOf (Nat.toDigits 10 n)) = n := by
  have h := Nat.ofDigitChars_toDigits (b := 10) (n := n) (by decide) (by decide)
  rw [Nat.ofDigitChars] at h
  rw [ofDigits, digitsOf, List.foldl_map]
  simpa only [Nat.mul_comm] using h

private theorem scanUnsigned_whole {cs : List Char} (hcs : IsWhole cs) (negative : Bool) :
    scanUnsigned negative cs = .ok (⟨negative, digitsOf cs, [], none⟩, []) := by
  have hscan : scanWhole (cs ++ []) = .ok (digitsOf cs, []) := hcs.scanWhole_append nofun
  rw [List.append_nil] at hscan
  rw [scanUnsigned, hscan]
  rfl

end Json

open Json

private theorem Number.readsBack_of {n : Number} {sign cs : List Char} (hsign : sign ∈ [[], ['-']])
    (hcs : IsWhole cs) (hchars : n.chars = sign ++ cs)
    (hvalue : (NumberText.complete ⟨sign = ['-'], digitsOf cs, [], none⟩).value = .ok n) : n.ReadsBack := by
  have hnumber : IsNumber n.chars :=
    ⟨sign, hsign, cs, [], [], hcs, .inl rfl, .inl rfl, by rw [hchars]; simp⟩
  refine ⟨hnumber, ?_⟩
  rw [← hvalue]
  show (NumberText.scan n.chars).1.value = _
  simp only [List.mem_cons, List.not_mem_nil, or_false] at hsign
  obtain rfl | rfl := hsign
  · obtain ⟨c, cs, rfl⟩ := List.exists_cons_of_ne_nil hcs.1.1
    have hc := hcs.1.2 c (by simp)
    rw [hchars, List.nil_append, NumberText.scan, scanUnsigned_whole hcs]
    · rfl
    · rintro more ⟨⟩
      cases hc
  · simp only [hchars, List.cons_append, List.nil_append, NumberText.scan, scanUnsigned_whole hcs]
    rfl

/-- An integer that is kept exactly is read back from its text. -/
theorem Number.readsBack_int {n : Int} (hlow : -(maxNegative : Int) ≤ n) (hhigh : n < integerBound) :
    (Number.int n).ReadsBack := by
  cases n with
  | ofNat m =>
    have hchars : (Number.int (.ofNat m)).chars = [] ++ Nat.toDigits 10 m := Nat.toList_repr
    refine readsBack_of (by simp) (isWhole_toDigits m) hchars ?_
    have hm : m < integerBound := by simpa using hhigh
    simp [NumberText.value, NumberParts.value, NumberParts.int?, ofDigits_digitsOf_toDigits, hm]
  | negSucc m =>
    have hchars : (Number.int (.negSucc m)).chars = ['-'] ++ Nat.toDigits 10 (m + 1) := by
      show ("-" ++ (m + 1).repr).toList = _
      rw [String.toList_append, Nat.toList_repr]
      rfl
    refine readsBack_of (by simp) (isWhole_toDigits (m + 1)) hchars ?_
    have hm : ¬ maxNegative < m + 1 := by omega
    simp [NumberText.value, NumberParts.value, NumberParts.int?, ofDigits_digitsOf_toDigits, hm]
    omega

namespace Json

/-! ### Values -/

mutual

/-- The trees of a value: the members of an object may stand in any order. -/
def IsTree : Json → Tree → Prop
  | .null, t => t = .null
  | .bool b, t => t = .bool b
  | .number n, t => ∃ literal : NumberLiteral, literal.chars = n.chars ∧ t = .number literal
  | .string s, t => t = .string s
  | .array items, t => ∃ ts, ItemsAre items ts ∧ t = .array ts
  | .object members, t => ∃ us ts, MembersAre members us ∧ us.Perm ts ∧ t = .object ts

/-- The trees of the elements of an array, one by one. -/
def ItemsAre : List Json → List Tree → Prop
  | [], ts => ts = []
  | x :: rest, ts => ∃ t more, x.IsTree t ∧ ItemsAre rest more ∧ ts = t :: more

/-- The trees of the members of an object, one by one. -/
def MembersAre : List (String × Json) → List (String × Tree) → Prop
  | [], ts => ts = []
  | (k, x) :: rest, ts => ∃ t more, x.IsTree t ∧ MembersAre rest more ∧ ts = (k, t) :: more

end

/-- The texts of a value. -/
def IsText (j : Json) (text : String) : Prop := ∃ t, j.IsTree t ∧ t.IsText text

mutual

/-- All numbers in a value are read back from their texts. -/
def ReadsBack : Json → Prop
  | .null | .bool _ | .string _ => True
  | .number n => n.ReadsBack
  | .array items => ItemsReadBack items
  | .object members => MembersReadBack members

def ItemsReadBack : List Json → Prop
  | [] => True
  | x :: rest => x.ReadsBack ∧ ItemsReadBack rest

def MembersReadBack : List (String × Json) → Prop
  | [] => True
  | (_, x) :: rest => x.ReadsBack ∧ MembersReadBack rest

end

mutual

private theorem exists_tree : (j : Json) → j.ReadsBack → ∃ t, j.IsTree t ∧ t.chars = j.chars
  | .null, _ => ⟨.null, rfl, by simp [Tree.chars, chars]⟩
  | .bool true, _ => ⟨.bool true, rfl, by simp [Tree.chars, chars]⟩
  | .bool false, _ => ⟨.bool false, rfl, by simp [Tree.chars, chars]⟩
  | .number n, ⟨hn, _⟩ => ⟨.number ⟨n.chars, hn⟩, ⟨_, rfl, rfl⟩, rfl⟩
  | .string s, _ => ⟨.string s, rfl, rfl⟩
  | .array items, h =>
    let ⟨ts, hts, hchars⟩ := exists_trees items h
    ⟨.array ts, ⟨ts, hts, rfl⟩, by rw [Tree.chars, chars, hchars, List.cons_append]⟩
  | .object members, h =>
    let ⟨ts, hts, hchars⟩ := exists_memberTrees members h
    ⟨.object ts, ⟨ts, ts, hts, .refl ts, rfl⟩, by rw [Tree.chars, chars, hchars, List.cons_append]⟩

private theorem exists_trees : (items : List Json) → ItemsReadBack items →
    ∃ ts, ItemsAre items ts ∧ Tree.itemsChars ts = itemsChars items
  | [], _ => ⟨[], rfl, rfl⟩
  | [x], h =>
    let ⟨t, ht, hchars⟩ := exists_tree x h.1
    ⟨[t], ⟨t, [], ht, rfl, rfl⟩, hchars⟩
  | x :: y :: rest, h => by
    obtain ⟨t, ht, hchars⟩ := exists_tree x h.1
    obtain ⟨_, ⟨u, more, hu, hmore, rfl⟩, hrest⟩ := exists_trees (y :: rest) h.2
    refine ⟨t :: u :: more, ⟨t, _, ht, ⟨u, more, hu, hmore, rfl⟩, rfl⟩, ?_⟩
    rw [Tree.itemsChars, itemsChars, hchars, hrest]

private theorem exists_memberTrees : (members : List (String × Json)) → MembersReadBack members →
    ∃ ts, MembersAre members ts ∧ Tree.membersChars ts = membersChars members
  | [], _ => ⟨[], rfl, rfl⟩
  | [(k, x)], h =>
    let ⟨t, ht, hchars⟩ := exists_tree x h.1
    ⟨[(k, t)], ⟨t, [], ht, rfl, rfl⟩, by rw [Tree.membersChars, membersChars, hchars]⟩
  | (k, x) :: (l, y) :: rest, h => by
    obtain ⟨t, ht, hchars⟩ := exists_tree x h.1
    obtain ⟨_, ⟨u, more, hu, hmore, rfl⟩, hrest⟩ := exists_memberTrees ((l, y) :: rest) h.2
    refine ⟨(k, t) :: (l, u) :: more, ⟨t, _, ht, ⟨u, more, hu, hmore, rfl⟩, rfl⟩, ?_⟩
    rw [Tree.membersChars, membersChars, hchars, hrest]
    simp

end

theorem mem_insertMember {key : String} {value : Json} {members : List (String × Json)} {m : String × Json}
    (h : m ∈ insertMember key value members) : m = (key, value) ∨ m ∈ members := by
  induction members with
  | nil => exact .inl (by simpa [insertMember] using h)
  | cons x rest ih =>
    rw [insertMember] at h
    split at h
    · simpa using h
    · obtain h | h := List.mem_cons.1 h
      · exact .inl h
      · exact .inr (List.mem_cons_of_mem x h)
    · obtain h | h := List.mem_cons.1 h
      · exact .inr (h ▸ List.mem_cons_self)
      · exact (ih h).imp_right (List.mem_cons_of_mem x)

private theorem membersReadBack_iff {members : List (String × Json)} :
    MembersReadBack members ↔ ∀ m ∈ members, m.2.ReadsBack := by
  induction members with
  | nil => simp [MembersReadBack]
  | cons m rest ih => rw [MembersReadBack, ih, List.forall_mem_cons]

theorem readsBack_ofMembers {ms : List (String × Json)} (h : ∀ m ∈ ms, m.2.ReadsBack) : (ofMembers ms).ReadsBack := by
  have hfold : ∀ (ms acc : List (String × Json)), (∀ m ∈ ms, m.2.ReadsBack) → (∀ m ∈ acc, m.2.ReadsBack) →
      ∀ m ∈ ms.foldl (fun sorted m => insertMember m.1 m.2 sorted) acc, m.2.ReadsBack := by
    intro ms
    induction ms with
    | nil => exact fun _ _ hacc => hacc
    | cons x ms ih =>
      intro acc hms hacc
      refine ih _ (fun m hm => hms m (List.mem_cons_of_mem x hm)) fun m hm => ?_
      obtain rfl | hm := mem_insertMember hm
      · exact hms x List.mem_cons_self
      · exact hacc m hm
  exact membersReadBack_iff.2 (hfold ms [] h nofun)

theorem readsBack_array {items : List Json} (h : ∀ x ∈ items, x.ReadsBack) : (Json.array items).ReadsBack := by
  rw [ReadsBack]
  induction items with
  | nil => trivial
  | cons x rest ih =>
    rw [List.forall_mem_cons] at h
    exact ⟨h.1, ih h.2⟩

/-- What is printed is a text of the value. -/
theorem isText_render {j : Json} (h : j.ReadsBack) : j.IsText j.render := by
  obtain ⟨t, ht, hchars⟩ := exists_tree j h
  refine ⟨t, ht, ?_⟩
  rw [render, ← hchars]
  exact t.isText_render

end Json

end VetoMachine
