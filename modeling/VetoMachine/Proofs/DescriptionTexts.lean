import VetoMachine.Description
import VetoMachine.Proofs.StateText

/-!
# The texts of descriptions

A text is read as a description exactly if its tree writes one (`Description.ofText_eq_ok_iff`).  On each of the three
levels a record is an object, in which other members may stand anywhere and any number of times, or an array of its
fields.  An optional field may be absent or `null`, and both mean that there is nothing.
-/

namespace VetoMachine

open Json (Tree Slot Record Reader IsString IsOptional IsListOf)

/-- The tree writes a declared transition. -/
def Binding.IsWritten (t : Tree) (b : Binding) : Prop :=
  ∃ values, t.fieldValues? ["action", "target"] = some values ∧
    values "action" = [.string b.action] ∧ values "target" = [.string b.target]

/-- The tree writes the declaration of a state. -/
def Definition.IsWritten (t : Tree) (d : Definition) : Prop :=
  ∃ values, t.fieldValues? ["name", "entering", "exiting", "changed", "transitions"] = some values ∧
    values "name" = [.string d.name] ∧ IsOptional IsString (values "entering") d.entering ∧
    IsOptional IsString (values "exiting") d.exiting ∧ IsOptional IsString (values "changed") d.changed ∧
    IsOptional (IsListOf Binding.IsWritten) (values "transitions") d.transitions

/-- The tree writes a description. -/
def Description.IsWritten (t : Tree) (d : Description) : Prop :=
  ∃ values states, t.fieldValues? ["initial", "states"] = some values ∧ values "initial" = [.string d.initial] ∧
    values "states" = [states] ∧ IsListOf Definition.IsWritten states d.states

namespace Binding

private def slots : List (Slot Binding) :=
  [ .required "action" (·.action) (fun action b => { b with action }) IsString,
    .required "target" (·.target) (fun target b => { b with target }) IsString ]

private theorem hasSlots (room : Nat) : record.HasSlots room slots where
  fields := .cons (Slot.describes_required (Reader.reads_string room) ..)
    (.cons (Slot.describes_required (Reader.reads_string room) ..) .nil)
  nodup := by simp [slots]
  get_set := by simp [slots, Slot.required]
  get_set_of_ne := by simp [slots, Slot.required]
  ext := by
    rintro ⟨_, _⟩ ⟨_, _⟩ h
    simpa [slots, Slot.required] using h

/-- A transition is read from the trees that write it. -/
theorem reads (room : Nat) : record.reader.Reads (room + 1) IsWritten := by
  intro t o ho b
  rw [(hasSlots room).reads t o ho]
  simp [Record.IsWritten, IsWritten, slots, Slot.filled_string]

end Binding

namespace Definition

private def slots : List (Slot Definition) :=
  [ .required "name" (·.name) (fun name d => { d with name }) IsString,
    .optional "entering" (·.entering) (fun entering d => { d with entering }) IsString,
    .optional "exiting" (·.exiting) (fun exiting d => { d with exiting }) IsString,
    .optional "changed" (·.changed) (fun changed d => { d with changed }) IsString,
    .optional "transitions" (·.transitions) (fun transitions d => { d with transitions })
      (IsListOf Binding.IsWritten) ]

private theorem hasSlots (room : Nat) : record.HasSlots (room + 2) slots where
  fields :=
    .cons (Slot.describes_required (Reader.reads_string _) ..) <|
    .cons (Slot.describes_optional (Reader.reads_string _) ..) <|
    .cons (Slot.describes_optional (Reader.reads_string _) ..) <|
    .cons (Slot.describes_optional (Reader.reads_string _) ..) <|
    .cons (Slot.describes_optional (Binding.reads room).list ..) .nil
  nodup := by simp [slots]
  get_set := by simp [slots, Slot.required, Slot.optional]
  get_set_of_ne := by simp [slots, Slot.required, Slot.optional]
  ext := by
    rintro ⟨_, _, _, _, _⟩ ⟨_, _, _, _, _⟩ h
    simpa [slots, Slot.required, Slot.optional] using h

/-- A definition is read from the trees that write it. -/
theorem reads (room : Nat) : record.reader.Reads (room + 3) IsWritten := by
  intro t o ho d
  have hstring : ∀ s, ¬ IsString .null s := nofun
  have hlist : ∀ bindings, ¬ IsListOf Binding.IsWritten .null bindings := by
    rintro _ ⟨_, ⟨⟩, -⟩
  rw [(hasSlots room).reads t o ho]
  simp [Record.IsWritten, IsWritten, slots, Slot.filled_string, Slot.filled_optional, hstring, hlist, record]

end Definition

namespace Description

private def slots : List (Slot Description) :=
  [ .required "initial" (·.initial) (fun initial d => { d with initial }) IsString,
    .required "states" (·.states) (fun states d => { d with states }) (IsListOf Definition.IsWritten) ]

private theorem hasSlots (room : Nat) : record.HasSlots (room + 4) slots where
  fields := .cons (Slot.describes_required (Reader.reads_string _) ..)
    (.cons (Slot.describes_required (Definition.reads room).list ..) .nil)
  nodup := by simp [slots]
  get_set := by simp [slots, Slot.required]
  get_set_of_ne := by simp [slots, Slot.required]
  ext := by
    rintro ⟨_, _⟩ ⟨_, _⟩ h
    simpa [slots, Slot.required] using h

/-- A description is read from the trees that write it. -/
theorem reads (room : Nat) : record.reader.Reads (room + 5) IsWritten := by
  intro t o ho d
  rw [(hasSlots room).reads t o ho]
  simp [Record.IsWritten, IsWritten, IsString, slots, Slot.filled_required]

/-- A text of a tree is read as a description exactly if the tree writes it, and whatever the text, nothing else is
read from it.  How deep the values are that are passed over does not matter. -/
theorem ofText_eq_ok_iff (t : Tree) (text : String) (h : t.IsText text) (d : Description) :
    ofText text = .ok d ↔ IsWritten t d :=
  (reads 122).text h d

def door : Description :=
  ⟨"shut", [⟨"shut", none, none, none, some [⟨"go", "wide"⟩]⟩, ⟨"wide", none, none, none, none⟩]⟩

/-- A tree of `door` with an unknown member that stands twice, and with arrays in the place of records. -/
def doorTree : Tree :=
  .object
    [ ("x", .null),
      ("states", .array
        [ .array [.string "shut", .null, .null, .null, .array [.array [.string "go", .string "wide"]]],
          .object [("name", .string "wide")] ]),
      ("x", .array []), ("initial", .string "shut") ]

def doorText : String :=
  " \x7b\"x\":null,\"states\":[[\"shut\",null,null,null,[[\"go\",\"wide\"]]],\x7b\"name\":\"wide\"\x7d],\"x\":[],\"initial\":\"shut\"\x7d"

set_option maxRecDepth 2000 in
private theorem doorText_eq : doorText = String.ofList (' ' :: doorTree.chars) := by
  rfl

theorem ofText_eq_ok_iff_door : doorTree.IsText doorText ∧ ofText doorText = .ok door := by
  have htext : doorTree.IsText doorText := by
    rw [doorText_eq, Tree.IsText, String.toList_ofList]
    exact ⟨[' '], doorTree.chars, [], by simp [Json.Blanks], doorTree.written_chars, by simp [Json.Blanks], by simp⟩
  have hgo : IsListOf Binding.IsWritten (.array [.array [.string "go", .string "wide"]]) [⟨"go", "wide"⟩] :=
    ⟨_, rfl, .cons ⟨_, rfl, rfl, rfl⟩ .nil⟩
  have hnull : IsOptional IsString [.null] none := .inl ⟨.inr rfl, rfl⟩
  have habsent : IsOptional IsString [] none := .inl ⟨.inl rfl, rfl⟩
  have hshut : Definition.IsWritten
      (.array [.string "shut", .null, .null, .null, .array [.array [.string "go", .string "wide"]]])
      ⟨"shut", none, none, none, some [⟨"go", "wide"⟩]⟩ :=
    ⟨_, rfl, rfl, hnull, hnull, hnull, .inr ⟨_, _, rfl, hgo, rfl⟩⟩
  have hwide : Definition.IsWritten (.object [("name", .string "wide")]) ⟨"wide", none, none, none, none⟩ :=
    ⟨_, rfl, rfl, habsent, habsent, habsent, .inl ⟨.inl rfl, rfl⟩⟩
  have hdoor : IsWritten doorTree door := ⟨_, _, rfl, rfl, rfl, _, rfl, .cons hshut (.cons hwide .nil)⟩
  exact ⟨htext, (ofText_eq_ok_iff doorTree doorText htext door).2 hdoor⟩

end Description

/-! ### Reading back -/

private theorem Binding.isWritten_of_isTree (b : Binding) (t : Tree) (h : b.toJson.IsTree t) : IsWritten t b := by
  obtain ⟨values, hvalues, htrees⟩ := h.exists_fieldValues (by simp) ["action", "target"]
  exact ⟨values, hvalues, Json.eq_string_of_forall₂ (htrees "action"), Json.eq_string_of_forall₂ (htrees "target")⟩

private theorem Definition.toJson_eq (d : Definition) : d.toJson = Json.ofMembers
    (("name", .string d.name) :: State.eventMember "entering" d.entering ++ State.eventMember "exiting" d.exiting
      ++ State.eventMember "changed" d.changed
      ++ ((d.transitions.map fun bindings => Json.array (bindings.map Binding.toJson)).map
        ("transitions", ·)).toList) := by
  rw [toJson]
  cases d.transitions <;> rfl

private theorem Definition.isWritten_of_isTree (d : Definition) (t : Tree) (h : d.toJson.IsTree t) :
    IsWritten t d := by
  rw [toJson_eq] at h
  obtain ⟨values, hvalues, hname, hentering, hexiting, hchanged, htable⟩ := State.exists_fieldValues _ h
  refine ⟨values, hvalues, hname, (hentering _).2 rfl, (hexiting _).2 rfl, (hchanged _).2 rfl, ?_⟩
  cases hbindings : d.transitions with
  | none =>
    rw [hbindings] at htable
    exact .inl ⟨.inl (List.forall₂_nil_left_iff.1 htable), rfl⟩
  | some bindings =>
    rw [hbindings] at htable
    obtain ⟨table, htransitions, hlist⟩ := Json.isListOf_of_forall₂ Binding.isWritten_of_isTree htable
    exact .inr ⟨table, bindings, htransitions, hlist, rfl⟩

private theorem Description.isWritten_of_isTree (d : Description) (t : Tree) (h : d.toJson.IsTree t) :
    IsWritten t d := by
  obtain ⟨values, hvalues, htrees⟩ := h.exists_fieldValues (by simp) ["initial", "states"]
  obtain ⟨states, hstates, hlist⟩ := Json.isListOf_of_forall₂ Definition.isWritten_of_isTree (htrees "states")
  exact ⟨values, states, hvalues, Json.eq_string_of_forall₂ (htrees "initial"), hstates, hlist⟩

/-- A description is read back from every text of its JSON form. -/
theorem Description.ofText_of_isText (d : Description) (text : String) (h : d.toJson.IsText text) :
    ofText text = .ok d := by
  obtain ⟨t, ht, htext⟩ := h
  exact ((reads 122).text htext d).2 (d.isWritten_of_isTree t ht)

private theorem Definition.readsBack_toJson (d : Definition) : d.toJson.ReadsBack := by
  rw [toJson_eq]
  refine Json.readsBack_ofMembers ?_
  simp only [List.forall_mem_append, List.forall_mem_cons]
  refine ⟨⟨⟨⟨trivial, State.readsBack_eventMember _ _⟩, State.readsBack_eventMember _ _⟩,
    State.readsBack_eventMember _ _⟩, ?_⟩
  cases d.transitions with
  | none => exact nofun
  | some bindings =>
    have hbinding : ∀ b : Binding, b.toJson.ReadsBack := fun b =>
      Json.readsBack_ofMembers (by simp [Json.ReadsBack])
    simp only [Option.map_some, Option.toList_some, List.forall_mem_singleton]
    exact Json.readsBack_array (List.forall_mem_map.2 fun b _ => hbinding b)

theorem Description.readsBack_toJson (d : Description) : d.toJson.ReadsBack := by
  refine Json.readsBack_ofMembers ?_
  simp only [List.forall_mem_cons]
  exact ⟨trivial, Json.readsBack_array (List.forall_mem_map.2 fun s _ => s.readsBack_toJson), nofun⟩

/-- A description is read back from its own text. -/
theorem Description.ofText_render (d : Description) : ofText d.toJson.render = .ok d :=
  d.ofText_of_isText _ (Json.isText_render d.readsBack_toJson)

theorem Description.readsBack_eq_true (d : Description) : d.readsBack = true := by
  delta readsBack
  rw [ofText_render]
  exact decide_eq_true rfl

end VetoMachine
