import Mathlib.Data.List.DropRight
import Mathlib.Data.List.Induction
import Mathlib.Data.Set.Card
import VetoMachine.Proofs.Loaders

/-!
# A table of transitions and its history

A table that was empty binds an action to the first target given to it since it was last unbound
(`State.target?_editAll`).  Calls on one action see nothing of the calls on other actions
(`State.target?_editAll_filter`, `State.transcript_filter`), so only the order among calls on the same action matters.
What a table says about the calls that were made on it follows from this (`State.table_by_history`).
-/

namespace VetoMachine

namespace State

namespace Edit

/-- The action that a change is about. -/
def action : Edit → String
  | .define action _ => action
  | .undefine action => action

/-- The target that a change gives to an action. -/
def gives? (action : String) : Edit → Option String
  | .define other target => if other = action then some target else none
  | .undefine _ => none

/-- The reply to a change, told by the target that its action has. -/
def reply (bound : Option String) : Edit → EditReply
  | .define _ _ => .defined bound.isNone
  | .undefine _ => .undefined bound

end Edit

/-- The first target given to an action since it was last unbound. -/
def givenSince (action : String) (edits : List Edit) : Option String :=
  (edits.rtakeWhile fun e => e ≠ .undefine action).findSome? (Edit.gives? action)

def editAll (s : State) (edits : List Edit) : State := edits.foldl (fun s e => (s.edit e).2) s

/-- The changes made to a state in turn, each with its reply. -/
def transcript : State → List Edit → List (Edit × EditReply)
  | _, [] => []
  | s, e :: rest => (e, (s.edit e).1) :: transcript (s.edit e).2 rest

variable {s : State} {e e' : Edit} {edits edits' : List Edit} {action : String}

theorem editAll_append (s : State) (edits edits' : List Edit) :
    s.editAll (edits ++ edits') = (s.editAll edits).editAll edits' := List.foldl_append

theorem editAll_concat (s : State) (edits : List Edit) (e : Edit) :
    s.editAll (edits ++ [e]) = ((s.editAll edits).edit e).2 := editAll_append s edits [e]

theorem transcript_append (s : State) (edits edits' : List Edit) :
    s.transcript (edits ++ edits') = s.transcript edits ++ (s.editAll edits).transcript edits' := by
  induction edits generalizing s with
  | nil => rfl
  | cons e rest ih =>
    rw [List.cons_append, transcript, ih, transcript, List.cons_append]
    rfl

theorem length_transcript (s : State) (edits : List Edit) : (s.transcript edits).length = edits.length := by
  induction edits generalizing s with
  | nil => rfl
  | cons e rest ih => rw [transcript, List.length_cons, List.length_cons, ih]

/-! ### One change -/

/-- A change is made in the table and nowhere else, and its reply tells what was there before. -/
theorem edit_eq (s : State) (e : Edit) :
    s.edit e = (e.reply (s.target? e.action), { s with transitions := (s.edit e).2.transitions }) := by
  cases e with
  | define action target =>
    rw [edit, define, Edit.action, Edit.reply]
    cases s.target? action with
    | none => rfl
    | some bound => rfl
  | undefine action => rfl

theorem edit_reply (s : State) (e : Edit) : (s.edit e).1 = e.reply (s.target? e.action) :=
  congrArg Prod.fst (s.edit_eq e)

/-- An action that is unbound has no target; otherwise it keeps the target it has, or else takes the one it is given. -/
theorem target?_edit (s : State) (e : Edit) (action : String) :
    (s.edit e).2.target? action =
      if e = .undefine action then none else (s.target? action).or (e.gives? action) := by
  cases e with
  | define other target =>
    simp [edit, target?_define, Edit.gives?, eq_comm (a := action)]
  | undefine other =>
    have herase : (s.edit (.undefine other)).2.target? action = if other = action then none else s.target? action := by
      simp [edit, undefine, target?, Std.ExtTreeMap.getElem?_erase]
    simp [herase, Edit.gives?]

theorem target?_edit_of_ne (h : e.action ≠ action) : (s.edit e).2.target? action = s.target? action := by
  rw [target?_edit]
  cases e with
  | define other target =>
    have hother : other ≠ action := h
    simp [Edit.gives?, hother]
  | undefine other =>
    have hother : other ≠ action := h
    simp [Edit.gives?, hother]

theorem givenSince_concat (action : String) (edits : List Edit) (e : Edit) :
    givenSince action (edits ++ [e]) =
      if e = .undefine action then none else (givenSince action edits).or (e.gives? action) := by
  rw [givenSince, List.rtakeWhile_concat]
  by_cases he : e = .undefine action
  · simp [he]
  · simp [he, givenSince, List.findSome?_append]

/-! ### Many changes -/

theorem editAll_eq (s : State) (edits : List Edit) :
    s.editAll edits = { s with transitions := (s.editAll edits).transitions } := by
  induction edits using List.reverseRecOn with
  | nil => rfl
  | append_singleton edits e ih =>
    have hlast : ((s.editAll edits).edit e).2 =
        { s.editAll edits with transitions := ((s.editAll edits).edit e).2.transitions } :=
      congrArg Prod.snd ((s.editAll edits).edit_eq e)
    rw [editAll_concat, hlast, ih]

/-- An action without a target gets the first that is given to it, unless it is unbound later. -/
theorem target?_editAll (hs : s.target? action = none) (edits : List Edit) :
    (s.editAll edits).target? action = givenSince action edits := by
  -- whether an action was unbound last is decided at the end of the history, so the last change is split off
  induction edits using List.reverseRecOn with
  | nil => exact hs
  | append_singleton edits e ih => rw [editAll_concat, target?_edit, ih, givenSince_concat]

/-- Only the calls on an action count for its target. -/
theorem target?_editAll_filter (s : State) (edits : List Edit) (action : String) :
    (s.editAll (edits.filter (·.action = action))).target? action = (s.editAll edits).target? action := by
  induction edits using List.reverseRecOn with
  | nil => rfl
  | append_singleton edits e ih =>
    rw [List.filter_append, List.filter_singleton, editAll_concat]
    by_cases he : e.action = action
    · simp only [he, decide_true, cond_true, editAll_concat, target?_edit, ih]
    · simp only [he, decide_false, cond_false, List.append_nil, target?_edit_of_ne he, ih]

/-- Only the calls on an action count for the replies to them. -/
theorem transcript_filter (s : State) (edits : List Edit) (action : String) :
    (s.transcript edits).filter (·.1.action = action) = s.transcript (edits.filter (·.action = action)) := by
  induction edits using List.reverseRecOn with
  | nil => rfl
  | append_singleton edits e ih =>
    rw [transcript_append, List.filter_append, List.filter_append, List.filter_singleton, transcript_append, ih]
    by_cases he : e.action = action
    · subst he
      simp [transcript, edit_reply, target?_editAll_filter]
    · simp [transcript, he]

theorem getElem?_transcript (s : State) (before : List Edit) (e : Edit) (rest : List Edit) :
    (s.transcript (before ++ e :: rest))[before.length]? = some (e, e.reply ((s.editAll before).target? e.action)) := by
  rw [transcript_append, ← length_transcript s before, List.getElem?_append_right (Nat.le_refl _), Nat.sub_self,
    transcript, List.getElem?_cons_zero, edit_reply]

/-- Two sequences of changes make equal states of one exactly if every action has the same target after both. -/
theorem editAll_eq_iff :
    s.editAll edits = s.editAll edits' ↔
      ∀ action, (s.editAll edits).target? action = (s.editAll edits').target? action := by
  constructor
  · intro h action
    rw [h]
  · intro h
    have htable : (s.editAll edits).transitions = (s.editAll edits').transitions := Std.ExtTreeMap.ext_getElem? h
    rw [editAll_eq s edits, editAll_eq s edits', htable]

/-- As many actions have a target as the table counts. -/
theorem encard_target? (s : State) : {action | s.target? action ≠ none}.encard = s.count := by
  have hkeys : {action | s.target? action ≠ none} = (s.transitions.keys.toFinset : Set String) := by
    ext action
    simp [target?]
  have hnodup : s.transitions.keys.Nodup := by
    simpa [List.Nodup] using Std.ExtTreeMap.distinct_keys (t := s.transitions)
  rw [hkeys, Set.encard_coe_eq_coe_finsetCard, List.toFinset_card_of_nodup hnodup, Std.ExtTreeMap.length_keys]
  rfl

/-! ### Changes in another order -/

/-- Two sequences make the same calls on every action, in the same order. -/
def Edit.Regroups (edits edits' : List Edit) : Prop :=
  ∀ action, edits.filter (·.action = action) = edits'.filter (·.action = action)

namespace Edit.Regroups

theorem editAll (h : Edit.Regroups edits edits') (s : State) : s.editAll edits = s.editAll edits' := by
  refine editAll_eq_iff.2 fun action => ?_
  rw [← target?_editAll_filter, h action, target?_editAll_filter]

theorem transcript (h : Edit.Regroups edits edits') (s : State) (action : String) :
    (s.transcript edits).filter (·.1.action = action) = (s.transcript edits').filter (·.1.action = action) := by
  rw [transcript_filter, h action, transcript_filter]

theorem swap (h : e.action ≠ e'.action) (before rest : List Edit) :
    Edit.Regroups (before ++ e :: e' :: rest) (before ++ e' :: e :: rest) := by
  intro action
  rw [List.filter_append, List.filter_append]
  congr 1
  by_cases he : e.action = action
  · subst he
    simp [Ne.symm h]
  · simp [List.filter_cons, he]

end Edit.Regroups

/-- Two calls on different actions in turn get the replies that they get the other way round. -/
theorem transcript_swap (h : e.action ≠ e'.action) (s : State) (rest : List Edit) :
    ∃ r r' later, s.transcript (e :: e' :: rest) = (e, r) :: (e', r') :: later ∧
      s.transcript (e' :: e :: rest) = (e', r') :: (e, r) :: later := by
  have hstates : ((s.edit e).2.edit e').2 = ((s.edit e').2.edit e).2 := (Edit.Regroups.swap h [] []).editAll s
  refine ⟨(s.edit e).1, (s.edit e').1, ((s.edit e).2.edit e').2.transcript rest, ?_, ?_⟩
  · rw [transcript, transcript, edit_reply (s.edit e).2, target?_edit_of_ne h, ← edit_reply]
  · rw [transcript, transcript, edit_reply (s.edit e').2, target?_edit_of_ne h.symm, ← edit_reply, hstates]

/-! ### What a table recounts -/

/-- What the table of a state recounts of the changes made to it, and what their replies told. -/
structure Recounts (s : State) (edits : List Edit) : Prop where
  /-- An action has the first target given to it since it was last unbound. -/
  targets : ∀ action, (s.editAll edits).target? action = givenSince action edits
  /-- A target is taken exactly if the action had none just before. -/
  defined : ∀ {before action target rest}, edits = before ++ .define action target :: rest →
    ∃ added, (s.transcript edits)[before.length]? = some (.define action target, .defined added) ∧
      (added = true ↔ (s.editAll before).target? action = none)
  /-- Unbinding an action gives the target that it had just before. -/
  undefined : ∀ {before action rest}, edits = before ++ .undefine action :: rest →
    (s.transcript edits)[before.length]? = some (.undefine action, .undefined ((s.editAll before).target? action))
  counts : {action | (s.editAll edits).target? action ≠ none}.encard = (s.editAll edits).count
  keeps : (s.editAll edits).name = s.name ∧ (s.editAll edits).entering = s.entering ∧
    (s.editAll edits).exiting = s.exiting ∧ (s.editAll edits).changed = s.changed
  /-- Other changes lead to an equal state exactly if they lead to the same targets. -/
  equals : ∀ edits', s.editAll edits = s.editAll edits' ↔
    ∀ action, (s.editAll edits).target? action = (s.editAll edits').target? action
  /-- Two calls on different actions can be exchanged: each gets the same reply, and so do all others. -/
  commutes : ∀ {before e e' rest}, edits = before ++ e :: e' :: rest → e.action ≠ e'.action →
    s.editAll edits = s.editAll (before ++ e' :: e :: rest) ∧
    ∃ earlier r r' later, s.transcript edits = earlier ++ (e, r) :: (e', r') :: later ∧
      s.transcript (before ++ e' :: e :: rest) = earlier ++ (e', r') :: (e, r) :: later
  /-- All that matters is the order of the calls on each action. -/
  regroups : ∀ edits', Edit.Regroups edits edits' → s.editAll edits = s.editAll edits' ∧
    ∀ action, (s.transcript edits).filter (·.1.action = action) = (s.transcript edits').filter (·.1.action = action)

/-- The table of a state recounts the whole history of changes, if it was empty at first. -/
theorem table_by_history (hs : s.transitions = ∅) (edits : List Edit) : s.Recounts edits where
  targets action := target?_editAll (by simp [target?, hs]) edits
  defined := by
    rintro before action target rest rfl
    refine ⟨_, getElem?_transcript s before _ rest, ?_⟩
    rw [Option.isNone_iff_eq_none, Edit.action]
  undefined := by
    rintro before action rest rfl
    exact getElem?_transcript s before _ rest
  counts := encard_target? _
  keeps := by
    rw [editAll_eq]
    exact ⟨rfl, rfl, rfl, rfl⟩
  equals _ := editAll_eq_iff
  commutes := by
    rintro before e e' rest rfl hne
    obtain ⟨r, r', later, hfirst, hsecond⟩ := transcript_swap hne (s.editAll before) rest
    refine ⟨(Edit.Regroups.swap hne before rest).editAll s, s.transcript before, r, r', later, ?_, ?_⟩
    · rw [transcript_append, hfirst]
    · rw [transcript_append, hsecond]
  regroups _ hsame := ⟨hsame.editAll s, hsame.transcript s⟩

/-- A door is opened by the first push defined, until pushing is unbound, and shut by the next; a kick that is defined
between the two could as well be defined last. -/
theorem table_by_history_door :
    let door : State := ⟨"door", some "creak", none, some "slam", ∅⟩
    let first : List Edit := [.define "push" "open", .define "push" "ajar", .undefine "push"]
    let edits := first ++ [.define "kick" "gone", .define "push" "shut"]
    let exchanged := first ++ [.define "push" "shut", .define "kick" "gone"]
    door.transitions = ∅ ∧ door.Recounts edits ∧ (door.editAll first).target? "push" = none ∧
    (door.editAll edits).target? "push" = some "shut" ∧ (door.editAll edits).count = 2 ∧
    (door.transcript edits).map (·.2) =
      [.defined true, .defined false, .undefined (some "open"), .defined true, .defined true] ∧
    door.editAll edits = door.editAll exchanged ∧ Edit.Regroups edits exchanged := by
  intro door first edits exchanged
  have hedits : door.Recounts edits := table_by_history rfl edits
  have hfirst : door.Recounts first := table_by_history rfl first
  have hpush : (door.editAll first).target? "push" = none := (hfirst.targets "push").trans (by decide)
  have hpushed : (door.editAll edits).target? "push" = some "shut" := (hedits.targets "push").trans (by decide)
  have hne : (Edit.define "kick" "gone").action ≠ (Edit.define "push" "shut").action := by decide
  have hexchanged : door.editAll edits = door.editAll exchanged := (hedits.commutes rfl hne).1
  exact ⟨rfl, hedits, hpush, hpushed, by decide +kernel, by decide +kernel, hexchanged, .swap hne first []⟩

end State

end VetoMachine
