import VetoMachine.Notification
import VetoMachine.Proofs.DescriptionTexts

/-!
# Round trips

Descriptions, states and notifications are read back from their JSON forms (`texts_read_back`).  A text of a form may
put the members of every object in any order and blanks between them, and may escape any character.  The body of a
notification is the only part that can be too deep, and the only one that holds numbers.
-/

namespace VetoMachine

namespace Notification

open Json (Tree Slot Record Reader IsString IsOptional)

private def slots (room : Nat) : List (Slot Notification) :=
  [ .required "name" (·.name) (fun name n => { n with name }) IsString,
    .defaulted "body" (·.body) (fun body n => { n with body }) fun t j => t.depth ≤ room ∧ t.Means j,
    .optional "kind" (·.kind) (fun kind n => { n with kind }) IsString ]

private theorem hasSlots (room : Nat) : record.HasSlots room (slots room) where
  fields :=
    .cons (Slot.describes_required (Reader.reads_string _) ..) <|
    .cons (Slot.describes_defaulted (Reader.reads_json room) ..) <|
    .cons (Slot.describes_optional (Reader.reads_string _) ..) .nil
  nodup := by simp [slots]
  get_set := by simp [slots, Slot.required, Slot.optional, Slot.defaulted]
  get_set_of_ne := by simp [slots, Slot.required, Slot.optional, Slot.defaulted]
  ext := by
    rintro ⟨_, _, _⟩ ⟨_, _, _⟩ h
    simpa [slots, Slot.required, Slot.optional, Slot.defaulted] using h

/-- The tree writes a notification: an absent body is `null`, and one that is too deep is none. -/
def IsWritten (t : Tree) (n : Notification) : Prop :=
  ∃ values, t.fieldValues? ["name", "body", "kind"] = some values ∧ values "name" = [.string n.name] ∧
    (values "body" = [] ∧ n.body = .null ∨ ∃ body, values "body" = [body] ∧ body.depth ≤ 126 ∧ body.Means n.body) ∧
    IsOptional IsString (values "kind") n.kind

/-- A text of a tree is read as a notification exactly if the tree writes it. -/
theorem ofText_eq_ok (t : Tree) (text : String) (h : t.IsText text) (n : Notification) :
    ofText text = .ok n ↔ IsWritten t n := by
  have hstring : ∀ s, ¬ IsString .null s := nofun
  refine ((hasSlots 126).reads.text h n).trans ?_
  simp [Record.IsWritten, IsWritten, slots, Slot.filled_string, Slot.filled_optional, Slot.filled_defaulted, hstring,
    record]

private theorem toJson_eq (n : Notification) : n.toJson = Json.ofMembers
    (("name", .string n.name) :: ("body", n.body) :: ((n.kind.map Json.string).map ("kind", ·)).toList) := by
  rw [toJson]
  cases n.kind <;> rfl

/-- From a text of its JSON form a notification is read back if its body is not too deep, and nothing is read else. -/
theorem ofText_iff_of_isText (n : Notification) (hcanonical : n.body.IsCanonical) (hnumbers : n.body.ReadsBack)
    (text : String) (h : n.toJson.IsText text) (m : Notification) :
    ofText text = .ok m ↔ n.body.depth ≤ 126 ∧ m = n := by
  obtain ⟨t, ht, htext⟩ := h
  rw [toJson_eq] at ht
  have hkeys : (List.map (·.1) (("name", Json.string n.name) :: ("body", n.body) ::
      ((n.kind.map Json.string).map ("kind", ·)).toList)).Nodup := by
    cases n.kind <;> simp
  obtain ⟨values, hvalues, htrees⟩ := ht.exists_fieldValues hkeys ["name", "body", "kind"]
  simp only [Json.valuesOf_cons, Json.valuesOf_toList] at htrees
  have hname := htrees "name"
  have hbody := htrees "body"
  have hkind := htrees "kind"
  simp only [↓reduceIte, String.reduceEq] at hname hbody hkind
  obtain ⟨body, _, htree, hnil, hvalue⟩ := List.forall₂_cons_left_iff.1 hbody
  obtain rfl := List.forall₂_nil_left_iff.1 hnil
  have hmeans := Tree.means_iff n.body hcanonical hnumbers htree
  rw [ofText_eq_ok t text htext, ← Json.IsTree.depth_eq n.body htree]
  constructor
  · rintro ⟨values', hvalues', hname', hbody', hkind'⟩
    obtain rfl : values = values' := Option.some.inj (hvalues.symm.trans hvalues')
    rw [Json.eq_string_of_forall₂ hname] at hname'
    have hsame : n.name = m.name := by simpa using hname'
    have hkind : m.kind = n.kind := (Json.isOptional_iff hkind _).1 hkind'
    obtain ⟨hempty, -⟩ | ⟨body', hbody', hdepth, hm⟩ := hbody'
    · rw [hvalue] at hempty
      cases hempty
    · obtain rfl : body = body' := by simpa [hvalue] using hbody'
      obtain ⟨name, body, kind⟩ := m
      obtain rfl := (hmeans _).1 hm
      obtain rfl := hsame
      obtain rfl := hkind
      exact ⟨hdepth, rfl⟩
  · rintro ⟨hdepth, rfl⟩
    exact ⟨values, hvalues, Json.eq_string_of_forall₂ hname, .inr ⟨body, hvalue, hdepth, (hmeans _).2 rfl⟩,
      (Json.isOptional_iff hkind _).2 rfl⟩

theorem readsBack_toJson (n : Notification) (h : n.body.ReadsBack) : n.toJson.ReadsBack := by
  rw [toJson_eq]
  refine Json.readsBack_ofMembers ?_
  cases n.kind <;> simp [h, Json.ReadsBack]

end Notification

/-- Descriptions, states and notifications are read back from their JSON forms.  The form has a text, the one that is
printed, and from every text of it the same value is read: so whatever differs in a value, an absent event from an
empty one or an absent list from an empty one, differs in every text, and a table comes back whole however it was
built.  A notification is read back exactly if its body nests at most 126 arrays and objects.  Of the doubles in a body
it is assumed that each is read back from its own text; all other numbers are. -/
theorem texts_read_back :
    (∀ d : Description, d.toJson.IsText d.toJson.render ∧
      ∀ text, d.toJson.IsText text → Description.ofText text = .ok d) ∧
    (∀ s : State, s.toJson.IsText s.toJson.render ∧ ∀ text, s.toJson.IsText text → State.ofText text = .ok s) ∧
    (∀ n : Notification, n.body.IsCanonical → (∀ x ∈ n.body.doubles, (Number.float x).ReadsBack) →
      n.toJson.IsText n.toJson.render ∧
      ∀ text, n.toJson.IsText text → ∀ m, Notification.ofText text = .ok m ↔ n.body.depth ≤ 126 ∧ m = n) := by
  refine ⟨fun d => ⟨Json.isText_render d.readsBack_toJson, d.ofText_of_isText⟩,
    fun s => ⟨Json.isText_render s.readsBack_toJson, s.ofText_of_isText⟩, fun n hcanonical hdoubles => ?_⟩
  have hnumbers := hcanonical.readsBack n.body hdoubles
  exact ⟨Json.isText_render (n.readsBack_toJson hnumbers), n.ofText_iff_of_isText hcanonical hnumbers⟩

/-- A notification with a nested body and an empty kind. -/
def Notification.door : Notification :=
  ⟨"door", .object [("angle", .number (.float 1.5)), ("turns", .array [.number (.int (-7)), .null])], some ""⟩

/-- The text of `Notification.door` with the fields in their declared order. -/
def Notification.doorText : String :=
  "\x7b\"name\":\"door\",\"body\":\x7b\"turns\":[-7,null],\"angle\":1.5\x7d,\"kind\":\"\"\x7d"

private theorem readsBack_oneAndAHalf : (Number.float 1.5).ReadsBack := by
  have hchars : (Number.float 1.5).chars = ['1', '.', '5'] := by decide +kernel
  have hwhole : Json.IsWhole ['1'] := ⟨⟨by simp, by simp⟩, by simp⟩
  have hfraction : Json.IsFraction ['.', '5'] := .inr ⟨['5'], ⟨by simp, by simp⟩, rfl⟩
  refine ⟨⟨[], by simp, ['1'], ['.', '5'], [], hwhole, hfraction, .inl rfl, hchars⟩, ?_⟩
  show (Json.NumberText.scan (Number.float 1.5).chars).1.value = _
  rw [hchars]
  rfl

theorem texts_read_back_door :
    Notification.door.body.IsCanonical ∧ (∀ x ∈ Notification.door.body.doubles, (Number.float x).ReadsBack) ∧
      Notification.ofText Notification.doorText = .ok Notification.door := by
  have hcanonical : Notification.door.body.IsCanonical :=
    ⟨.cons (by decide) (.cons (by simp) .nil), trivial, ⟨⟨by decide, by decide⟩, trivial, trivial⟩, trivial⟩
  have hdoubles : ∀ x ∈ Notification.door.body.doubles, (Number.float x).ReadsBack := by
    intro x hx
    obtain rfl : x = 1.5 := List.mem_singleton.1 hx
    exact readsBack_oneAndAHalf
  have htext : Notification.door.toJson.IsText Notification.doorText := by
    obtain ⟨hangle, -⟩ := readsBack_oneAndAHalf
    obtain ⟨hseven, -⟩ := Number.readsBack_int (n := -7) (by decide) (by decide)
    let turns : Json.Tree := .array [.number ⟨_, hseven⟩, .null]
    let angle : Json.Tree := .number ⟨_, hangle⟩
    let body : Json.Tree := .object [("turns", turns), ("angle", angle)]
    have hturns : Json.IsTree (.array [.number (.int (-7)), .null]) turns :=
      ⟨_, ⟨_, _, ⟨_, rfl, rfl⟩, ⟨_, _, rfl, rfl, rfl⟩, rfl⟩, rfl⟩
    have hbody : Notification.door.body.IsTree body :=
      ⟨[("angle", angle), ("turns", turns)], _, ⟨_, _, ⟨_, rfl, rfl⟩, ⟨_, _, hturns, rfl, rfl⟩, rfl⟩, .swap .., rfl⟩
    let tree : Json.Tree := .object [("name", .string "door"), ("body", body), ("kind", .string "")]
    have hform : Notification.door.toJson =
        .object [("body", Notification.door.body), ("kind", .string ""), ("name", .string "door")] := rfl
    have htree : Notification.door.toJson.IsTree tree := by
      rw [hform]
      exact ⟨[("body", body), ("kind", .string ""), ("name", .string "door")], _,
        ⟨_, _, hbody, ⟨_, _, rfl, ⟨_, _, rfl, rfl, rfl⟩, rfl⟩, rfl⟩, List.perm_append_singleton _ [_, _], rfl⟩
    have hchars : Notification.doorText.toList = tree.chars := by
      simp only [tree, body, turns, angle, Json.Tree.chars, Json.Tree.membersChars, Json.Tree.itemsChars]
      decide +kernel
    refine ⟨tree, htree, ?_⟩
    rw [Json.Tree.IsText, hchars]
    exact .of tree.written_chars
  exact ⟨hcanonical, hdoubles,
    ((texts_read_back.2.2 Notification.door hcanonical hdoubles).2 _ htext _).2 ⟨by decide, rfl⟩⟩

end VetoMachine
