import Mathlib.Data.List.Perm.Basic
import VetoMachine.Proofs.JsonPrinting
import VetoMachine.Proofs.JsonRecords

/-!
# What a value has in common with its texts

A canonical value is the only one that its trees mean (`Tree.means_iff`) and is as deep as they are
(`IsTree.depth_eq`), although the members of an object may stand in another order in each of them.  The fields of an
object that was made of members with distinct keys are found in all its trees (`IsTree.exists_fieldValues`) and in the
object itself (`get?_ofMembers`).
-/

namespace VetoMachine.Json

/-! ### Sorted members -/

/-- The keys of members ascend. -/
def Ascending (members : List (String × Json)) : Prop := members.Pairwise fun a b => compare a.1 b.1 = .lt

private theorem insertMember_perm {key : String} {members : List (String × Json)} (hkey : ∀ m ∈ members, m.1 ≠ key)
    (value : Json) : (insertMember key value members).Perm ((key, value) :: members) := by
  induction members with
  | nil => exact .refl _
  | cons m rest ih =>
    simp only [List.forall_mem_cons] at hkey
    rw [insertMember]
    split
    · exact .refl _
    · rename_i heq
      exact absurd (Std.LawfulEqCmp.eq_of_compare heq).symm hkey.1
    · exact ((ih hkey.2).cons m).trans (.swap ..)

private theorem ascending_insertMember {members : List (String × Json)} (hsorted : Ascending members) (key : String)
    (value : Json) : Ascending (insertMember key value members) := by
  induction members with
  | nil => exact List.pairwise_singleton ..
  | cons m rest ih =>
    rw [Ascending, List.pairwise_cons] at hsorted
    rw [insertMember]
    split
    · rename_i hlt
      refine .cons ?_ (.cons hsorted.1 hsorted.2)
      simp only [List.forall_mem_cons]
      exact ⟨hlt, fun x hx => Std.TransCmp.lt_trans hlt (hsorted.1 x hx)⟩
    · rename_i heq
      obtain rfl := Std.LawfulEqCmp.eq_of_compare heq
      exact .cons hsorted.1 hsorted.2
    · rename_i hgt
      refine .cons (fun x hx => ?_) (ih hsorted.2)
      obtain rfl | hx := mem_insertMember hx
      · exact Std.OrientedCmp.lt_of_gt hgt
      · exact hsorted.1 x hx

private theorem ascending_foldl (ms : List (String × Json)) {acc : List (String × Json)} (hacc : Ascending acc) :
    Ascending (ms.foldl (fun sorted m => insertMember m.1 m.2 sorted) acc) := by
  induction ms generalizing acc with
  | nil => exact hacc
  | cons m ms ih => exact ih (ascending_insertMember hacc m.1 m.2)

private theorem mem_foldl_insertMember {ms acc : List (String × Json)} {m : String × Json}
    (hm : m ∈ ms.foldl (fun sorted m => insertMember m.1 m.2 sorted) acc) : m ∈ ms ∨ m ∈ acc := by
  induction ms generalizing acc with
  | nil => exact .inr hm
  | cons x ms ih =>
    obtain hm | hm := ih hm
    · exact .inl (List.mem_cons_of_mem x hm)
    · obtain rfl | hm := mem_insertMember hm
      · exact .inl List.mem_cons_self
      · exact .inr hm

/-- An object made of members with distinct keys holds these members, sorted. -/
theorem exists_ofMembers_eq {ms : List (String × Json)} (hms : (ms.map (·.1)).Nodup) :
    ∃ members, ofMembers ms = .object members ∧ members.Perm ms ∧ Ascending members := by
  have hfold : ∀ (ms acc : List (String × Json)), ((acc ++ ms).map (·.1)).Nodup →
      (ms.foldl (fun sorted m => insertMember m.1 m.2 sorted) acc).Perm (acc ++ ms) := by
    intro ms
    induction ms with
    | nil => exact fun acc _ => by simp
    | cons m ms ih =>
      intro acc hnodup
      have hmove : (acc ++ m :: ms).Perm (m :: acc ++ ms) := List.perm_middle
      have hnodup' := (hmove.map (·.1)).nodup_iff.1 hnodup
      have hkey : ∀ x ∈ acc, x.1 ≠ m.1 := by
        intro x hx heq
        simp only [List.cons_append, List.map_cons, List.nodup_cons] at hnodup'
        exact hnodup'.1 (heq ▸ List.mem_map_of_mem (List.mem_append_left ms hx))
      have hinsert := (insertMember_perm hkey m.2).append_right ms
      have hrest := ih (insertMember m.1 m.2 acc) ((hinsert.map (·.1)).nodup_iff.2 hnodup')
      exact hrest.trans (hinsert.trans hmove.symm)
  exact ⟨_, rfl, hfold ms [] hms, ascending_foldl ms .nil⟩

theorem Ascending.nodup {members : List (String × Json)} (h : Ascending members) : (members.map (·.1)).Nodup := by
  rw [List.Nodup, List.pairwise_map]
  refine h.imp fun {a b} hlt heq => ?_
  have hself : compare b.1 b.1 = .eq := Std.ReflCmp.compare_self
  rw [heq, hself] at hlt
  cases hlt

/-- Sorted members are an object in any order. -/
theorem ofMembers_of_perm {ms members : List (String × Json)} (hsorted : Ascending members)
    (hperm : ms.Perm members) : ofMembers ms = .object members := by
  obtain ⟨found, hfound, hperm', hsorted'⟩ := exists_ofMembers_eq ((hperm.map (·.1)).nodup_iff.2 hsorted.nodup)
  have hsame : found = members := by
    refine List.Perm.eq_of_pairwise (fun a b _ _ hab hba => ?_) hsorted' hsorted (hperm'.trans hperm)
    rw [Std.OrientedCmp.gt_of_lt hab] at hba
    cases hba
  rw [hfound, hsame]

/-! ### Canonical values -/

mutual

/-- The values that occur: integers that are kept exactly, and objects with sorted members.  No other value is ever
read (`Tree.Means.isCanonical`). -/
def IsCanonical : Json → Prop
  | .number (.int n) => -(maxNegative : Int) ≤ n ∧ n < integerBound
  | .null | .bool _ | .number (.float _) | .string _ => True
  | .array items => ItemsCanonical items
  | .object members => Ascending members ∧ MembersCanonical members

def ItemsCanonical : List Json → Prop
  | [] => True
  | x :: rest => x.IsCanonical ∧ ItemsCanonical rest

def MembersCanonical : List (String × Json) → Prop
  | [] => True
  | (_, x) :: rest => x.IsCanonical ∧ MembersCanonical rest

end

mutual

/-- The doubles in a value. -/
def doubles : Json → List Float
  | .number (.float x) => [x]
  | .null | .bool _ | .number (.int _) | .string _ => []
  | .array items => itemsDoubles items
  | .object members => membersDoubles members

def itemsDoubles : List Json → List Float
  | [] => []
  | x :: rest => x.doubles ++ itemsDoubles rest

def membersDoubles : List (String × Json) → List Float
  | [] => []
  | (_, x) :: rest => x.doubles ++ membersDoubles rest

end

mutual

/-- The numbers of a canonical value are read back if its doubles are. -/
theorem IsCanonical.readsBack : (j : Json) → j.IsCanonical → (∀ x ∈ j.doubles, (Number.float x).ReadsBack) →
    j.ReadsBack
  | .null, _, _ | .bool _, _, _ | .string _, _, _ => trivial
  | .number (.int _), h, _ => Number.readsBack_int h.1 h.2
  | .number (.float x), _, hdoubles => hdoubles x (by simp [doubles])
  | .array items, h, hdoubles => ItemsCanonical.readsBack items h hdoubles
  | .object members, h, hdoubles => MembersCanonical.readsBack members h.2 hdoubles

theorem ItemsCanonical.readsBack : (items : List Json) → ItemsCanonical items →
    (∀ x ∈ itemsDoubles items, (Number.float x).ReadsBack) → ItemsReadBack items
  | [], _, _ => trivial
  | x :: rest, h, hdoubles => by
    rw [itemsDoubles, List.forall_mem_append] at hdoubles
    exact ⟨IsCanonical.readsBack x h.1 hdoubles.1, ItemsCanonical.readsBack rest h.2 hdoubles.2⟩

theorem MembersCanonical.readsBack : (members : List (String × Json)) → MembersCanonical members →
    (∀ x ∈ membersDoubles members, (Number.float x).ReadsBack) → MembersReadBack members
  | [], _, _ => trivial
  | (_, x) :: rest, h, hdoubles => by
    rw [membersDoubles, List.forall_mem_append] at hdoubles
    exact ⟨IsCanonical.readsBack x h.1 hdoubles.1, MembersCanonical.readsBack rest h.2 hdoubles.2⟩

end

/-! ### The depth of a value -/

mutual

/-- The number of arrays and objects inside one another. -/
def depth : Json → Nat
  | .array items => itemsDepth items + 1
  | .object members => membersDepth members + 1
  | _ => 0

def itemsDepth : List Json → Nat
  | [] => 0
  | x :: rest => max x.depth (itemsDepth rest)

def membersDepth : List (String × Json) → Nat
  | [] => 0
  | (_, x) :: rest => max x.depth (membersDepth rest)

end

private theorem membersDepth_perm {us ts : List (String × Tree)} (h : us.Perm ts) :
    Tree.membersDepth us = Tree.membersDepth ts := by
  induction h with
  | nil => rfl
  | cons m _ ih => simp only [Tree.membersDepth, ih]
  | swap m n _ => simp only [Tree.membersDepth, Nat.max_left_comm]
  | trans _ _ ih ih' => exact ih.trans ih'

mutual

/-- A value is as deep as its trees. -/
theorem IsTree.depth_eq : (j : Json) → ∀ {t : Tree}, j.IsTree t → t.depth = j.depth
  | .null, t, ht | .bool _, t, ht | .string _, t, ht => by obtain rfl := ht; rfl
  | .number _, t, ht => by obtain ⟨_, -, rfl⟩ := ht; rfl
  | .array items, t, ht => by
    obtain ⟨ts, hts, rfl⟩ := ht
    rw [Tree.depth, depth, ItemsAre.depth_eq items hts]
  | .object members, t, ht => by
    obtain ⟨us, ts, hus, hperm, rfl⟩ := ht
    rw [Tree.depth, depth, ← membersDepth_perm hperm, MembersAre.depth_eq members hus]

theorem ItemsAre.depth_eq : (items : List Json) → ∀ {ts : List Tree}, ItemsAre items ts →
    Tree.itemsDepth ts = itemsDepth items
  | [], ts, hts => by obtain rfl := hts; rfl
  | x :: rest, ts, hts => by
    obtain ⟨t, more, ht, hmore, rfl⟩ := hts
    rw [Tree.itemsDepth, itemsDepth, IsTree.depth_eq x ht, ItemsAre.depth_eq rest hmore]

theorem MembersAre.depth_eq : (members : List (String × Json)) → ∀ {ts : List (String × Tree)},
    MembersAre members ts → Tree.membersDepth ts = membersDepth members
  | [], ts, hts => by obtain rfl := hts; rfl
  | (k, x) :: rest, ts, hts => by
    obtain ⟨t, more, ht, hmore, rfl⟩ := hts
    rw [Tree.membersDepth, membersDepth, IsTree.depth_eq x ht, MembersAre.depth_eq rest hmore]

end

/-! ### The value of a tree -/

private theorem membersMean_iff_forall₂ {ts : List (String × Tree)} {xs : List (String × Json)} :
    MembersMean ts xs ↔ List.Forall₂ (fun t x => t.1 = x.1 ∧ t.2.Means x.2) ts xs := by
  induction ts generalizing xs with
  | nil => simp [MembersMean]
  | cons t ts ih =>
    rw [MembersMean, List.forall₂_cons_left_iff]
    constructor
    · rintro ⟨x, more, hx, hmore, rfl⟩
      exact ⟨(t.1, x), more, ⟨rfl, hx⟩, ih.1 hmore, rfl⟩
    · rintro ⟨⟨_, x⟩, more, ⟨rfl, hx⟩, hmore, rfl⟩
      exact ⟨x, more, hx, ih.2 hmore, rfl⟩

/-- Members in another order mean the same members in another order. -/
private theorem MembersMean.perm {us ts : List (String × Tree)} {xs : List (String × Json)} (h : MembersMean ts xs)
    (hperm : us.Perm ts) : ∃ ys, MembersMean us ys ∧ ys.Perm xs := by
  obtain ⟨ys, hys, hperm'⟩ := List.perm_comp_forall₂ hperm (membersMean_iff_forall₂.1 h)
  exact ⟨ys, membersMean_iff_forall₂.2 hys, hperm'⟩

mutual

/-- A canonical value is what its trees mean. -/
theorem Tree.means_iff : (j : Json) → j.IsCanonical → j.ReadsBack → ∀ {t : Tree}, j.IsTree t →
    ∀ x, t.Means x ↔ x = j
  | .null, _, _, t, ht, x | .bool _, _, _, t, ht, x | .string _, _, _, t, ht, x => by obtain rfl := ht; rfl
  | .number n, _, ⟨hn, hvalue⟩, t, ht, x => by
    obtain ⟨⟨_, _⟩, rfl, rfl⟩ := ht
    rw [Tree.Means, hvalue]
    simp
  | .array items, hc, hr, t, ht, x => by
    obtain ⟨ts, hts, rfl⟩ := ht
    simp only [Tree.Means, itemsMean_iff items hc hr hts, exists_eq_left]
  | .object members, hc, hr, t, ht, x => by
    obtain ⟨us, ts, hus, hperm, rfl⟩ := ht
    have hmeans := membersMean_iff members hc.2 hr hus
    rw [Tree.Means]
    constructor
    · rintro ⟨xs, hxs, rfl⟩
      obtain ⟨ys, hys, hperm'⟩ := hxs.perm hperm
      rw [(hmeans ys).1 hys] at hperm'
      exact ofMembers_of_perm hc.1 hperm'.symm
    · rintro rfl
      obtain ⟨xs, hxs, hperm'⟩ := ((hmeans members).2 rfl).perm hperm.symm
      exact ⟨xs, hxs, (ofMembers_of_perm hc.1 hperm').symm⟩

theorem itemsMean_iff : (items : List Json) → ItemsCanonical items → ItemsReadBack items →
    ∀ {ts : List Tree}, ItemsAre items ts → ∀ xs, ItemsMean ts xs ↔ xs = items
  | [], _, _, ts, hts, xs => by obtain rfl := hts; rfl
  | x :: rest, hc, hr, ts, hts, xs => by
    obtain ⟨t, more, ht, hmore, rfl⟩ := hts
    simp [ItemsMean, Tree.means_iff x hc.1 hr.1 ht, itemsMean_iff rest hc.2 hr.2 hmore]

theorem membersMean_iff : (members : List (String × Json)) → MembersCanonical members → MembersReadBack members →
    ∀ {ts : List (String × Tree)}, MembersAre members ts → ∀ xs, MembersMean ts xs ↔ xs = members
  | [], _, _, ts, hts, xs => by obtain rfl := hts; rfl
  | (k, x) :: rest, hc, hr, ts, hts, xs => by
    obtain ⟨t, more, ht, hmore, rfl⟩ := hts
    simp [MembersMean, Tree.means_iff x hc.1 hr.1 ht, membersMean_iff rest hc.2 hr.2 hmore]

end

private theorem isCanonical_of_value {p : NumberParts} {n : Number} (h : p.value = .ok n) :
    (Json.number n).IsCanonical := by
  rw [NumberParts.value] at h
  cases n with
  | float x => trivial
  | int n =>
    have hint : p.int? = some n := by
      revert h
      cases p.int? with
      | some m => simp
      | none => cases p.float? <;> simp
    rw [NumberParts.int?] at hint
    show -(maxNegative : Int) ≤ n ∧ n < integerBound
    dsimp only at hint
    split at hint
    · cases hint
    · split at hint <;> split at hint <;> cases hint <;> simp only [Int.ofNat_eq_natCast] <;> omega

private theorem membersCanonical_iff {members : List (String × Json)} :
    MembersCanonical members ↔ ∀ m ∈ members, m.2.IsCanonical := by
  induction members with
  | nil => simp [MembersCanonical]
  | cons m rest ih => rw [MembersCanonical, ih, List.forall_mem_cons]

mutual

/-- What a tree means is canonical. -/
theorem Tree.Means.isCanonical : (t : Tree) → ∀ {j : Json}, t.Means j → j.IsCanonical
  | .null, j, h | .bool _, j, h | .string _, j, h => by obtain rfl := h; trivial
  | .number n, j, h => by
    obtain ⟨x, hx, rfl⟩ := h
    obtain ⟨parts, hparts, -⟩ := n.exists_parts
    rw [hparts] at hx
    exact isCanonical_of_value hx
  | .array items, j, h => by
    obtain ⟨xs, hxs, rfl⟩ := h
    exact ItemsMean.isCanonical items hxs
  | .object members, j, h => by
    obtain ⟨xs, hxs, rfl⟩ := h
    refine ⟨ascending_foldl xs .nil, membersCanonical_iff.2 fun m hm => ?_⟩
    have hm : m ∈ xs := (mem_foldl_insertMember hm).resolve_right List.not_mem_nil
    exact membersCanonical_iff.1 (MembersMean.isCanonical members hxs) m hm

theorem ItemsMean.isCanonical : (items : List Tree) → ∀ {xs : List Json}, ItemsMean items xs → ItemsCanonical xs
  | [], xs, h => by obtain rfl := h; trivial
  | t :: rest, xs, h => by
    obtain ⟨x, more, hx, hmore, rfl⟩ := h
    exact ⟨Tree.Means.isCanonical t hx, ItemsMean.isCanonical rest hmore⟩

theorem MembersMean.isCanonical : (members : List (String × Tree)) → ∀ {xs : List (String × Json)},
    MembersMean members xs → MembersCanonical xs
  | [], xs, h => by obtain rfl := h; trivial
  | (k, t) :: rest, xs, h => by
    obtain ⟨x, more, hx, hmore, rfl⟩ := h
    exact ⟨Tree.Means.isCanonical t hx, MembersMean.isCanonical rest hmore⟩

end

/-! ### The fields of an object -/

private theorem membersAre_iff_forall₂ {members : List (String × Json)} {ts : List (String × Tree)} :
    MembersAre members ts ↔ List.Forall₂ (fun m t => m.1 = t.1 ∧ m.2.IsTree t.2) members ts := by
  induction members generalizing ts with
  | nil => simp [MembersAre]
  | cons m members ih =>
    rw [MembersAre, List.forall₂_cons_left_iff]
    constructor
    · rintro ⟨t, more, ht, hmore, rfl⟩
      exact ⟨(m.1, t), more, ⟨rfl, ht⟩, ih.1 hmore, rfl⟩
    · rintro ⟨⟨_, t⟩, more, ⟨rfl, ht⟩, hmore, rfl⟩
      exact ⟨t, more, ht, ih.2 hmore, rfl⟩

/-- The trees of an object that was made of members are those of the members, in any order. -/
theorem IsTree.exists_members {ms : List (String × Json)} (hms : (ms.map (·.1)).Nodup) {t : Tree}
    (ht : (ofMembers ms).IsTree t) :
    ∃ us ts, List.Forall₂ (fun m t => m.1 = t.1 ∧ m.2.IsTree t.2) ms us ∧ us.Perm ts ∧ t = .object ts := by
  obtain ⟨members, hmembers, hperm, -⟩ := exists_ofMembers_eq hms
  rw [hmembers] at ht
  obtain ⟨us, ts, hus, hperm', rfl⟩ := ht
  obtain ⟨us', hus', hperm''⟩ := List.perm_comp_forall₂ hperm.symm (membersAre_iff_forall₂.1 hus)
  exact ⟨us', ts, hus', hperm''.trans hperm', rfl⟩

private theorem forall₂_valuesOf {ms : List (String × Json)} {us : List (String × Tree)}
    (h : List.Forall₂ (fun m t => m.1 = t.1 ∧ m.2.IsTree t.2) ms us) (key : String) :
    List.Forall₂ IsTree (valuesOf key ms) (valuesOf key us) := by
  induction h with
  | nil => exact .nil
  | @cons m t _ _ hm _ ih =>
    obtain ⟨k, x⟩ := m
    obtain ⟨_, u⟩ := t
    obtain ⟨rfl, hu⟩ := hm
    by_cases hkey : key = k
    · subst hkey
      simpa only [valuesOf_cons_self] using .cons hu ih
    · simpa only [valuesOf_cons_of_ne hkey] using ih

private theorem length_valuesOf_le {α : Type} {ms : List (String × α)} (hms : (ms.map (·.1)).Nodup) (key : String) :
    (valuesOf key ms).length ≤ 1 := by
  induction ms with
  | nil => exact Nat.zero_le 1
  | cons m rest ih =>
    obtain ⟨k, x⟩ := m
    simp only [List.map_cons, List.nodup_cons] at hms
    by_cases hkey : key = k
    · subst hkey
      have hrest : valuesOf key rest = [] := by
        refine List.filterMap_eq_nil_iff.2 fun m hm => if_neg fun heq => hms.1 ?_
        exact heq ▸ List.mem_map_of_mem hm
      rw [valuesOf_cons_self, hrest]
      exact Nat.le_refl 1
    · rw [valuesOf_cons_of_ne hkey]
      exact ih hms.2

/-- Under a key that at most one member has, the order of the members does not matter. -/
private theorem valuesOf_eq_of_perm {α : Type} {us ts : List (String × α)} (hperm : us.Perm ts) {key : String}
    (hone : (valuesOf key us).length ≤ 1) : valuesOf key us = valuesOf key ts := by
  have hvalues : (valuesOf key us).Perm (valuesOf key ts) := hperm.filterMap _
  match hfound : valuesOf key us, hone with
  | [], _ =>
    rw [hfound] at hvalues
    exact (List.nil_perm.1 hvalues).symm
  | [u], _ =>
    rw [hfound] at hvalues
    exact List.singleton_perm.1 hvalues

/-- Under every key the trees of an object have the trees of the member with that key. -/
theorem IsTree.exists_fieldValues {ms : List (String × Json)} (hms : (ms.map (·.1)).Nodup) {t : Tree}
    (ht : (ofMembers ms).IsTree t) (names : List String) :
    ∃ values, t.fieldValues? names = some values ∧
      ∀ key, List.Forall₂ IsTree (valuesOf key ms) (values key) := by
  obtain ⟨us, ts, hus, hperm, rfl⟩ := ht.exists_members hms
  refine ⟨_, rfl, fun key => ?_⟩
  have hvalues := forall₂_valuesOf hus key
  have hone := length_valuesOf_le hms key
  rw [hvalues.length_eq] at hone
  rwa [valuesOf_eq_of_perm hperm hone] at hvalues

private theorem lookup_eq_head?_valuesOf (key : String) (members : List (String × Json)) :
    members.lookup key = (valuesOf key members).head? := by
  induction members with
  | nil => rfl
  | cons m rest ih =>
    obtain ⟨k, x⟩ := m
    by_cases hkey : key = k
    · subst hkey
      rw [List.lookup_cons_self, valuesOf_cons_self, List.head?_cons]
    · rw [List.lookup_cons, beq_eq_false_iff_ne.2 hkey, valuesOf_cons_of_ne hkey, ← ih]

/-- Under every key an object that was made of members has the member with that key. -/
theorem get?_ofMembers {ms : List (String × Json)} (hms : (ms.map (·.1)).Nodup) (key : String) :
    (ofMembers ms).get? key = (valuesOf key ms).head? := by
  obtain ⟨members, hmembers, hperm, hsorted⟩ := exists_ofMembers_eq hms
  have hvalues : valuesOf key members = valuesOf key ms :=
    valuesOf_eq_of_perm hperm (length_valuesOf_le hsorted.nodup key)
  rw [hmembers, get?, lookup_eq_head?_valuesOf, hvalues]

theorem get?_ofMembers_eq_some_iff {ms : List (String × Json)} (hms : (ms.map (·.1)).Nodup) {key : String}
    {x : Json} : (ofMembers ms).get? key = some x ↔ (key, x) ∈ ms := by
  have hmem : x ∈ valuesOf key ms ↔ (key, x) ∈ ms := by
    simp [valuesOf]
  have hone := length_valuesOf_le hms key
  rw [get?_ofMembers hms, ← hmem]
  generalize valuesOf key ms = values at hone ⊢
  cases values with
  | nil => simp
  | cons y rest =>
    obtain rfl : rest = [] := by simpa using hone
    simp [eq_comm]

theorem eq_string_of_forall₂ {s : String} {values : List Tree} (h : List.Forall₂ IsTree [.string s] values) :
    values = [.string s] := by
  obtain _ | ⟨rfl, ⟨⟩⟩ := h
  rfl

/-- An optional string is what the trees of its member stand for. -/
theorem isOptional_iff {a : Option String} {values : List Tree}
    (h : List.Forall₂ IsTree (a.map Json.string).toList values) (b : Option String) :
    IsOptional IsString values b ↔ b = a := by
  cases a with
  | none =>
    obtain _ | _ := h
    simp [IsOptional]
  | some s =>
    obtain rfl := eq_string_of_forall₂ h
    simp [IsOptional, IsString]

/-- The trees of a list are lists of the trees of its elements. -/
theorem isListOf_of_forall₂ {α : Type} {form : α → Json} {R : Tree → α → Prop}
    (hR : ∀ a t, (form a).IsTree t → R t a) {as : List α} {values : List Tree}
    (h : List.Forall₂ IsTree [.array (as.map form)] values) : ∃ t, values = [t] ∧ IsListOf R t as := by
  have hitems : ∀ {as : List α} {ts : List Tree}, ItemsAre (as.map form) ts → List.Forall₂ R ts as := by
    intro as
    induction as with
    | nil => rintro _ rfl; exact .nil
    | cons a as ih =>
      rintro _ ⟨t, more, ht, hmore, rfl⟩
      exact .cons (hR a t ht) (ih hmore)
  obtain _ | ⟨⟨ts, hts, rfl⟩, ⟨⟩⟩ := h
  exact ⟨_, rfl, ts, rfl, hitems hts⟩

end VetoMachine.Json
