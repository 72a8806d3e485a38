import VetoMachine.Proofs.Course
import VetoMachine.Proofs.StateText

/-!
# What a machine announces

The notifications that a call to move hands to the bus, those of listeners in between apart, are determined by its
outcome (`Machine.announcements`): the exit event of the state the machine is in, the enter event and the changed
event of the target, and the change with the target as body, up to the point where the call ends.  A call that
handles an action announces what the call to move to its target does (`Machine.announcements_of_call`).  The change
at the end of a committed call carries the JSON of the target, from which the target can be told
(`Notification.IsChangeTo`).
-/

namespace VetoMachine

variable {M L : Type}

namespace Machine

/-- The notifications that a call to move to `target` hands to the bus if it has the given outcome. -/
def announcements (m : Machine) (target : String) (payload : Json) (o : Outcome) : List Notification :=
  match m.state? target with
  | none => []
  | some next =>
    match o with
    | .ignored => []
    | .vetoedOnExit _ _ => (m.exitNote target payload).toList
    | .vetoedOnEnter _ _ => (m.exitNote target payload).toList ++ (next.enterNote payload).toList
    | .committed _ _ =>
      (m.exitNote target payload).toList ++ (next.enterNote payload).toList ++ (next.changedNote payload).toList
        ++ [⟨Notification.changedName, next.toJson, some target⟩]

end Machine

/-- The change to a state: it is of the kind of the state's name, and its body, never `null`, is a JSON form of the
state, whose text is read as the state. -/
structure Notification.IsChangeTo (next : State) (change : Notification) : Prop where
  name : change.name = Notification.changedName
  kind : change.kind = some next.name
  body_ne_null : change.body ≠ .null
  body_form : next.HasForm change.body
  body_text : State.ofText change.body.render = .ok next

theorem State.toJson_ne_null (s : State) : s.toJson ≠ .null := by
  simp [toJson, Json.ofMembers]

theorem State.isChangeTo (s : State) : Notification.IsChangeTo s ⟨Notification.changedName, s.toJson, some s.name⟩ where
  name := rfl
  kind := rfl
  body_ne_null := s.toJson_ne_null
  body_form := s.hasForm_toJson
  body_text := s.ofText_render

private theorem map_note_toList {event : Option Delivery} {note : Option Notification}
    (h : event.map (·.note) = note) : event.toList.map (·.note) = note.toList := by
  subst h
  cases event <;> rfl

/-- The deliveries of a course carry the notifications of its outcome. -/
private theorem Passage.Takes.announcements {m : Machine} {target : String} {next : State} {payload : Json}
    {c : Course} {o : Outcome} (hs : m.state? target = some next) (hname : next.name = target)
    (htakes : (m.passageTo next).Takes m.flag payload c o) :
    c.deliveries.map (·.note) = m.announcements target payload o := by
  subst hname
  rw [Machine.announcements, hs]
  cases htakes with
  | vetoedOnExit hexit _ =>
    have he := map_note_toList hexit
    simp only [Course.deliveries, Option.toList_none, List.append_nil, he]
    rfl
  | vetoedOnEnter hexit _ henter _ =>
    have he := map_note_toList hexit
    have hn := map_note_toList henter
    simp only [Course.deliveries, List.append_nil, List.map_append, he, hn]
    rfl
  | committed hexit _ henter _ hchanged hchange =>
    have he := map_note_toList hexit
    have hn := map_note_toList henter
    have hc := map_note_toList hchanged
    have hbody : (m.passageTo next).changeNote =
        ⟨Notification.changedName, next.toJson, some next.name⟩ := by
      rw [← Machine.report_commit hs]
      rfl
    simp only [Course.deliveries, List.map_append, List.map_cons, List.map_nil, he, hn, hc, hchange, hbody,
      List.append_assoc]
    rfl

namespace Machine

variable {respond : Response M L} {depth : Nat} {h h' : Hub M L} {name : String} {m m' : Machine}
  {payload : Json} {o : Outcome}

/-- A committed move announces its target last. -/
private theorem getLast?_announcements (source : Option String) (dest : String) {target : String}
    {next : State} (hs : m.state? target = some next) :
    (m.announcements target payload (.committed source dest)).getLast? =
      some ⟨Notification.changedName, next.toJson, some target⟩ := by
  rw [announcements, hs]
  simp

private theorem announcements_of_transition (hh : h.Reachable) (hseat : h.machines[name]? = some (.idle m))
    {target : String}
    (hcall : m.transition (Hub.publishWithin respond depth) target payload (h.occupy name m) = some (o, m', h')) :
    (h.deliveriesSince h').map (·.note) = m.announcements target payload o ∧
      (o.isCommitted = true → ∃ next change, m.state? target = some next ∧ next.name = target ∧
        (m.announcements target payload o).getLast? = some change ∧ change.IsChangeTo next) := by
  obtain ⟨hs, rfl, hsince⟩ | ⟨next, c, hs, rfl, hsince, htakes⟩ := transition_course hh hseat hcall
  · refine ⟨?_, nofun⟩
    rw [hsince, announcements, hs]
    rfl
  · refine ⟨?_, fun hcommitted => ?_⟩
    · rw [hsince]
      exact htakes.announcements hs rfl
    · cases o with
      | committed source dest => exact ⟨next, _, hs, rfl, getLast?_announcements source dest hs, next.isChangeTo⟩
      | vetoedOnExit _ _ => cases hcommitted
      | vetoedOnEnter _ _ => cases hcommitted
      | ignored => cases hcommitted

private theorem announcements_of_handleAction (hh : h.Reachable) (hseat : h.machines[name]? = some (.idle m))
    {action : String}
    (hcall : m.handleAction (Hub.publishWithin respond depth) action payload (h.occupy name m) =
      some (o, m', h')) :
    (∃ target next, m.boundTarget? action = some target ∧ m.state? target = some next ∧
        (h.deliveriesSince h').map (·.note) = m.announcements target payload o ∧
        (o.isCommitted = true → ∃ change, (m.announcements target payload o).getLast? = some change ∧
          change.IsChangeTo next)) ∨
      (∀ target, m.boundTarget? action = some target → m.state? target = none) ∧ o = .ignored ∧
        (h.deliveriesSince h').map (·.note) = [] := by
  obtain ⟨hnone, ho, -, warnings, rfl⟩ | ⟨target, next, hbound, hs, hcall⟩ := handleAction_cases hcall
  · right
    have hsince : h.deliveriesSince ((h.occupy name m).warn warnings) = [] :=
      (Hub.Quiet.warn (h.occupy name m) warnings).deliveriesSince_eq
    exact ⟨hnone, ho, by rw [hsince]; rfl⟩
  · left
    obtain ⟨hnotes, hlast⟩ := announcements_of_transition hh hseat hcall
    refine ⟨target, next, hbound, hs, hnotes, fun hcommitted => ?_⟩
    obtain ⟨found, change, hfound, -, hchange, htells⟩ := hlast hcommitted
    obtain rfl : found = next := Option.some.inj (hfound.symm.trans hs)
    exact ⟨change, hchange, htells⟩

/-- The notifications of a call are determined by its outcome: those of a call to move as `announcements` says, with
the change to the registered target at the end if it is committed, and those of handling an action as for its
registered target. -/
theorem announcements_of_call (hh : h.Reachable) (hseat : h.machines[name]? = some (.idle m)) :
    (∀ target, m.transition (Hub.publishWithin respond depth) target payload (h.occupy name m) = some (o, m', h') →
      (h.deliveriesSince h').map (·.note) = m.announcements target payload o ∧
        (o.isCommitted = true → ∃ next change, m.state? target = some next ∧ next.name = target ∧
          (m.announcements target payload o).getLast? = some change ∧ change.IsChangeTo next)) ∧
    ∀ action, m.handleAction (Hub.publishWithin respond depth) action payload (h.occupy name m) =
        some (o, m', h') →
      (∃ target next, m.boundTarget? action = some target ∧ m.state? target = some next ∧
          (h.deliveriesSince h').map (·.note) = m.announcements target payload o ∧
          (o.isCommitted = true → ∃ change, (m.announcements target payload o).getLast? = some change ∧
            change.IsChangeTo next)) ∨
        (∀ target, m.boundTarget? action = some target → m.state? target = none) ∧ o = .ignored ∧
          (h.deliveriesSince h').map (·.note) = [] :=
  ⟨fun _ hcall => announcements_of_transition hh hseat hcall,
    fun _ hcall => announcements_of_handleAction hh hseat hcall⟩

/-- A door with every event that is still in a state `closed` which is no longer the registered one. -/
def rehungDoor : Machine :=
  let closed : State := { State.new "closed" with exiting := some "unlock" }
  let opened : State := { State.new "open" with entering := some "swing", changed := some "creak" }
  let door := (((Machine.empty 0).register (closed.define "push" "open").2 true).2.register opened false).2
  ((door.remove "closed").2.register (State.new "closed") false).2

theorem reachable_rehungDoor : rehungDoor.Reachable :=
  ((((Reachable.new 0).register _ true).register _ false).remove "closed").register _ false

/-- Pushing a guarded door announces that it is unlocked, and nothing else; pushing a rehung one that nobody guards
announces every event, the exit event of the state that was removed included, and the state `open`. -/
theorem announcements_of_call_door :
    (∃ h' m',
      door.handleAction (Hub.publishWithin guard 1) "push" .null (Hub.guardedDoor.occupy "door" door) =
        some (.vetoedOnExit "closed" "open", m', h') ∧
      (Hub.guardedDoor.deliveriesSince h').map (·.note) = [⟨"unlock", .null, some "open"⟩]) ∧
    let h : Hub Unit FlagId := (Hub.empty 1 ()).newFlag.2.seat "door" rehungDoor
    ∃ h' m' change,
      rehungDoor.handleAction (Hub.publishWithin guard 1) "push" (.bool true) (h.occupy "door" rehungDoor) =
        some (.committed (some "closed") "open", m', h') ∧
      (h.deliveriesSince h').map (·.note) =
        [⟨"unlock", .bool true, some "open"⟩, ⟨"swing", .bool true, none⟩, ⟨"creak", .bool true, none⟩, change] ∧
      change.name = Notification.changedName ∧ change.kind = some "open" ∧
      change.body.get? "name" = some (.string "open") ∧ change.body.get? "entering" = some (.string "swing") ∧
      change.body.get? "exiting" = none := by
  constructor
  · have hcall : ((door.handleAction (Hub.publishWithin guard 1) "push" .null
        (Hub.guardedDoor.occupy "door" door)).map (·.1)) = some (.vetoedOnExit "closed" "open") := by
      decide
    obtain ⟨⟨o, m', h'⟩, hcall, rfl⟩ := Option.map_eq_some_iff.1 hcall
    have hseat : Hub.guardedDoor.machines["door"]? = some (.idle door) := rfl
    refine ⟨h', m', hcall, ?_⟩
    obtain ⟨target, next, hbound, -, hnotes, -⟩ | ⟨-, ho, -⟩ :=
      (announcements_of_call Hub.reachable_guardedDoor hseat).2 "push" hcall
    · have htarget : door.boundTarget? "push" = some "open" := rfl
      rw [htarget] at hbound
      cases hbound
      rw [hnotes]
      rfl
    · cases ho
  · intro h
    have hcall : ((rehungDoor.handleAction (Hub.publishWithin guard 1) "push" (.bool true)
        (h.occupy "door" rehungDoor)).map (·.1)) = some (.committed (some "closed") "open") := by
      decide
    obtain ⟨⟨o, m', h'⟩, hcall, rfl⟩ := Option.map_eq_some_iff.1 hcall
    have hh : h.Reachable := (Hub.Reachable.empty 1 ()).create reachable_rehungDoor rfl "door"
    have hseat : h.machines["door"]? = some (.idle rehungDoor) := rfl
    obtain ⟨target, next, hbound, hs, hnotes, hlast⟩ | ⟨-, ho, -⟩ :=
      (announcements_of_call hh hseat).2 "push" hcall
    · have htarget : rehungDoor.boundTarget? "push" = some "open" := rfl
      rw [htarget] at hbound
      cases hbound
      let opened : State := { State.new "open" with entering := some "swing", changed := some "creak" }
      have hopen : rehungDoor.state? "open" = some opened := by decide
      obtain rfl : opened = next := Option.some.inj (hopen.symm.trans hs)
      have hall : rehungDoor.announcements "open" (.bool true) (.committed (some "closed") "open") =
          [⟨"unlock", .bool true, some "open"⟩, ⟨"swing", .bool true, none⟩, ⟨"creak", .bool true, none⟩,
            ⟨Notification.changedName, opened.toJson, some "open"⟩] := by
        rw [announcements, hopen]
        rfl
      obtain ⟨change, hchange, htells⟩ := hlast rfl
      rw [hall] at hnotes hchange
      obtain rfl := Option.some.inj hchange
      exact ⟨h', m', _, hcall, hnotes, rfl, rfl, htells.body_form.name, htells.body_form.entering,
        htells.body_form.exiting⟩
    · cases ho

end Machine

end VetoMachine
