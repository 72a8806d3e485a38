import VetoMachine.Proofs.JsonForms
import VetoMachine.State

/-!
# The texts of states

A state is read back from every text of its JSON form (`State.ofText_of_isText`), in particular from the printed one
(`State.ofText_render`): each event has a member exactly if it is there, and a table is bound again from its members in
whatever order they stand.  What the JSON form has under each key is told by `State.HasForm`.
-/

namespace VetoMachine.State

open Json (Tree Slot Record Reader IsString IsOptional IsDictionaryOf)

/-! ### Names, events and tables -/

private theorem eventMember_eq (key : String) (event : Option String) :
    eventMember key event = ((event.map Json.string).map (key, ·)).toList := by
  cases event <;> rfl

private theorem nodup_keys (name : String) (entering exiting changed : Option String) (table : Option Json) :
    (List.map (·.1) (("name", Json.string name) :: eventMember "entering" entering ++ eventMember "exiting" exiting
      ++ eventMember "changed" changed ++ (table.map ("transitions", ·)).toList)).Nodup := by
  cases entering <;> cases exiting <;> cases changed <;> cases table <;> simp [eventMember]

/-- What the trees of a state and of its declaration have in common: the name, the events and maybe a table. -/
theorem exists_fieldValues {name : String} {entering exiting changed : Option String} (table : Option Json) {t : Tree}
    (h : (Json.ofMembers (("name", .string name) :: eventMember "entering" entering ++ eventMember "exiting" exiting
      ++ eventMember "changed" changed ++ (table.map ("transitions", ·)).toList)).IsTree t) :
    ∃ values, t.fieldValues? ["name", "entering", "exiting", "changed", "transitions"] = some values ∧
      values "name" = [.string name] ∧ (∀ a, IsOptional IsString (values "entering") a ↔ a = entering) ∧
      (∀ a, IsOptional IsString (values "exiting") a ↔ a = exiting) ∧
      (∀ a, IsOptional IsString (values "changed") a ↔ a = changed) ∧
      List.Forall₂ Json.IsTree table.toList (values "transitions") := by
  have hkeys := nodup_keys name entering exiting changed table
  obtain ⟨values, hvalues, htrees⟩ :=
    h.exists_fieldValues hkeys ["name", "entering", "exiting", "changed", "transitions"]
  simp only [eventMember_eq, List.cons_append, Json.valuesOf_cons, Json.valuesOf_append, Json.valuesOf_toList] at htrees
  have hname := htrees "name"
  have hentering := htrees "entering"
  have hexiting := htrees "exiting"
  have hchanged := htrees "changed"
  have htransitions := htrees "transitions"
  simp only [↓reduceIte, String.reduceEq, List.append_nil, List.nil_append]
    at hname hentering hexiting hchanged htransitions
  exact ⟨values, hvalues, Json.eq_string_of_forall₂ hname, Json.isOptional_iff hentering,
    Json.isOptional_iff hexiting, Json.isOptional_iff hchanged, htransitions⟩

/-- The table with the given bindings; of several for one action the last counts. -/
def tableOf (bindings : List (String × String)) : Transitions := bindings.foldl (fun t b => t.insert b.1 b.2) ∅

/-- Binding what a table binds, in any order, makes the table again. -/
private theorem tableOf_of_perm {t : Transitions} {bindings : List (String × String)}
    (h : bindings.Perm t.toList) : tableOf bindings = t := by
  have hdistinct : bindings.Pairwise fun a b => ¬ compare a.1 b.1 = .eq := by
    refine h.symm.pairwise t.distinct_keys_toList fun hab hba => hab ?_
    exact Std.OrientedCmp.eq_symm hba
  rw [tableOf, ← Std.ExtTreeMap.ofList_eq_foldl]
  apply Std.ExtTreeMap.ext_getElem?
  intro action
  cases htarget : t[action]? with
  | some target =>
    have hmem : (action, target) ∈ bindings :=
      h.mem_iff.2 (Std.ExtTreeMap.mem_toList_iff_getElem?_eq_some.2 htarget)
    exact Std.ExtTreeMap.getElem?_ofList_of_mem Std.ReflCmp.compare_self hdistinct hmem
  | none =>
    refine Std.ExtTreeMap.getElem?_ofList_of_contains_eq_false ?_
    have hkey : action ∉ t.toList.map Prod.fst := by
      rw [Std.ExtTreeMap.map_fst_toList_eq_keys, Std.ExtTreeMap.mem_keys]
      simpa using htarget
    simpa only [List.contains_eq_mem, decide_eq_false_iff_not] using mt (h.map Prod.fst).mem_iff.1 hkey

/-- The tree writes a table. -/
def IsTable (t : Tree) (table : Transitions) : Prop :=
  ∃ bindings, IsDictionaryOf IsString t bindings ∧ table = tableOf bindings

private theorem nodup_actions (table : Transitions) :
    ((table.toList.map fun b => (b.1, Json.string b.2)).map (·.1)).Nodup := by
  rw [List.map_map, List.Nodup, List.pairwise_map]
  refine table.distinct_keys_toList.imp fun {a b} hab heq => hab ?_
  have hself : compare b.1 b.1 = .eq := Std.ReflCmp.compare_self
  exact (congrArg (compare · b.1) heq).trans hself

private theorem isTable_of_isTree (table : Transitions) {t : Tree} (h : (transitionsJson table).IsTree t) :
    IsTable t table := by
  obtain ⟨us, ts, hus, hperm, rfl⟩ := h.exists_members (nodup_actions table)
  have hbindings : List.Forall₂ (fun m b => m.1 = b.1 ∧ IsString m.2 b.2) us table.toList := by
    rw [List.forall₂_map_left_iff] at hus
    exact hus.flip.imp fun _ _ ⟨hkey, htarget⟩ => ⟨hkey.symm, htarget⟩
  obtain ⟨bindings, hwritten, hperm'⟩ := List.perm_comp_forall₂ hperm.symm hbindings
  exact ⟨bindings, ⟨ts, rfl, hwritten⟩, (tableOf_of_perm hperm').symm⟩

/-! ### The JSON form -/

/-- The value tells a state and nothing else: its name, its events, an absent one by no member, and the target of
every bound action. -/
structure HasForm (s : State) (j : Json) : Prop where
  name : j.get? "name" = some (.string s.name)
  entering : j.get? "entering" = s.entering.map .string
  exiting : j.get? "exiting" = s.exiting.map .string
  changed : j.get? "changed" = s.changed.map .string
  transitions : ∃ table, j.get? "transitions" = some table ∧
    (∃ members, table = .object members) ∧ ∀ action, table.get? action = (s.target? action).map .string
  others : ∀ key ∉ ["name", "entering", "exiting", "changed", "transitions"], j.get? key = none

private theorem get?_transitionsJson (t : Transitions) (action : String) :
    (transitionsJson t).get? action = t[action]?.map .string := by
  apply Option.ext
  intro j
  rw [transitionsJson, Json.get?_ofMembers_eq_some_iff (nodup_actions t)]
  simp [Std.ExtTreeMap.mem_toList_iff_getElem?_eq_some]

/-- The JSON form of a state tells the state. -/
theorem hasForm_toJson (s : State) : s.HasForm s.toJson := by
  have hget : ∀ key, s.toJson.get? key = _ := fun key =>
    Json.get?_ofMembers (nodup_keys s.name s.entering s.exiting s.changed (some (transitionsJson s.transitions))) key
  simp only [eventMember_eq, List.cons_append, Json.valuesOf_cons, Json.valuesOf_append, Json.valuesOf_toList] at hget
  refine ⟨?_, ?_, ?_, ?_, ⟨transitionsJson s.transitions, ?_, ⟨_, rfl⟩, get?_transitionsJson s.transitions⟩, ?_⟩
  · simp [hget]
  · simp [hget]
  · simp [hget]
  · simp [hget]
  · simp [hget]
  · intro key hkey
    simp only [List.mem_cons, List.not_mem_nil, or_false, not_or] at hkey
    obtain ⟨hname, hentering, hexiting, hchanged, htransitions⟩ := hkey
    simp [hget, Ne.symm hname, Ne.symm hentering, Ne.symm hexiting, Ne.symm hchanged, Ne.symm htransitions]

/-! ### States -/

private def slots : List (Slot State) :=
  [ .required "name" (·.name) (fun name s => { s with name }) IsString,
    .optional "entering" (·.entering) (fun entering s => { s with entering }) IsString,
    .optional "exiting" (·.exiting) (fun exiting s => { s with exiting }) IsString,
    .optional "changed" (·.changed) (fun changed s => { s with changed }) IsString,
    .defaulted "transitions" (·.transitions) (fun transitions s => { s with transitions }) IsTable ]

private theorem hasSlots (room : Nat) : record.HasSlots (room + 1) slots where
  fields :=
    .cons (Slot.describes_required (Reader.reads_string _) ..) <|
    .cons (Slot.describes_optional (Reader.reads_string _) ..) <|
    .cons (Slot.describes_optional (Reader.reads_string _) ..) <|
    .cons (Slot.describes_optional (Reader.reads_string _) ..) <|
    .cons (Slot.describes_defaulted_of (Reader.reads_string room).dictionary tableOf ..) .nil
  nodup := by simp [slots]
  get_set := by simp [slots, Slot.required, Slot.optional, Slot.defaulted]
  get_set_of_ne := by simp [slots, Slot.required, Slot.optional, Slot.defaulted]
  ext := by
    rintro ⟨_, _, _, _, _⟩ ⟨_, _, _, _, _⟩ h
    simpa [slots, Slot.required, Slot.optional, Slot.defaulted] using h

/-- The tree writes a state. -/
def IsWritten (t : Tree) (s : State) : Prop :=
  ∃ values, t.fieldValues? ["name", "entering", "exiting", "changed", "transitions"] = some values ∧
    values "name" = [.string s.name] ∧ IsOptional IsString (values "entering") s.entering ∧
    IsOptional IsString (values "exiting") s.exiting ∧ IsOptional IsString (values "changed") s.changed ∧
    (values "transitions" = [] ∧ s.transitions = ∅ ∨
      ∃ table, values "transitions" = [table] ∧ IsTable table s.transitions)

/-- A text of a tree is read as a state exactly if the tree writes it. -/
theorem ofText_eq_ok (t : Tree) (text : String) (h : t.IsText text) (s : State) :
    ofText text = .ok s ↔ IsWritten t s := by
  have hstring : ∀ s, ¬ IsString .null s := nofun
  refine ((hasSlots 125).reads.text h s).trans ?_
  simp [Record.IsWritten, IsWritten, slots, Slot.filled_string, Slot.filled_optional, Slot.filled_defaulted, hstring,
    record, new]

/-- A state is read back from every text of its JSON form. -/
theorem ofText_of_isText (s : State) (text : String) (h : s.toJson.IsText text) : ofText text = .ok s := by
  obtain ⟨t, ht, htext⟩ := h
  obtain ⟨values, hvalues, hname, hentering, hexiting, hchanged, htable⟩ :=
    exists_fieldValues (some (transitionsJson s.transitions)) ht
  obtain ⟨table, _, htree, hnil, htransitions⟩ := List.forall₂_cons_left_iff.1 htable
  obtain rfl := List.forall₂_nil_left_iff.1 hnil
  rw [ofText_eq_ok t text htext]
  exact ⟨values, hvalues, hname, (hentering _).2 rfl, (hexiting _).2 rfl, (hchanged _).2 rfl,
    .inr ⟨table, htransitions, isTable_of_isTree s.transitions htree⟩⟩

theorem readsBack_eventMember (key : String) (event : Option String) :
    ∀ m ∈ eventMember key event, m.2.ReadsBack := by
  cases event <;> simp [eventMember, Json.ReadsBack]

theorem readsBack_toJson (s : State) : s.toJson.ReadsBack := by
  have htable : (transitionsJson s.transitions).ReadsBack := by
    refine Json.readsBack_ofMembers fun m hm => ?_
    obtain ⟨b, -, rfl⟩ := List.mem_map.1 hm
    trivial
  refine Json.readsBack_ofMembers ?_
  simp only [List.forall_mem_append, List.forall_mem_cons]
  exact ⟨⟨⟨⟨trivial, readsBack_eventMember _ _⟩, readsBack_eventMember _ _⟩, readsBack_eventMember _ _⟩, htable, nofun⟩

/-- A state is read back from its own text. -/
theorem ofText_render (s : State) : ofText s.toJson.render = .ok s :=
  s.ofText_of_isText _ (Json.isText_render s.readsBack_toJson)

theorem readsBack_eq_true (s : State) : s.readsBack = true := by
  simp [readsBack, ofText_render]

end VetoMachine.State
