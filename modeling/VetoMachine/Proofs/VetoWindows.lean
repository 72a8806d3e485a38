import VetoMachine.Proofs.Course

/-!
# The windows in which a move can be vetoed

A call to move to a registered state is decided by two deliveries, that of the exit event of the state the machine
is in and that of the enter event of the target: it ends in the first of them during which a listener raises the
cancel flag of the machine, on whatever level, and is committed if there is none
(`Machine.transition_decided`).  What is raised before, between and after the two does not count.
-/

namespace VetoMachine

variable {M L : Type}

/-- The deliveries of a call to move from the state `m` is in to `next` decide its outcome. -/
structure Machine.DecidedBy (m : Machine) (next : State) (payload : Json) (c : Course) (o : Outcome) : Prop where
  exit_note : c.exit.map (·.note) = m.exitNote next.name payload
  enter_note : ¬ Vetoes m.flag c.exit → c.enter.map (·.note) = next.enterNote payload
  vetoedOnExit_iff : (∃ source dest, o = .vetoedOnExit source dest) ↔ Vetoes m.flag c.exit
  vetoedOnEnter_iff :
    (∃ source dest, o = .vetoedOnEnter source dest) ↔ ¬ Vetoes m.flag c.exit ∧ Vetoes m.flag c.enter
  committed_iff :
    (∃ source dest, o = .committed source dest) ↔ ¬ Vetoes m.flag c.exit ∧ ¬ Vetoes m.flag c.enter
  /-- A veto on exit comes from a state with an exit event, and the outcome tells the name of that state. -/
  exit_names : ∀ {source dest}, o = .vetoedOnExit source dest →
    dest = next.name ∧ ∃ s event, m.currentState = some s ∧ s.exiting = some event ∧ source = s.name
  /-- A veto on enter comes from a target with an enter event. -/
  enter_names : ∀ {source dest}, o = .vetoedOnEnter source dest →
    dest = next.name ∧ source = m.currentState.map (·.name) ∧ ∃ event, next.entering = some event
  committed_names : ∀ {source dest}, o = .committed source dest →
    dest = next.name ∧ source = m.currentState.map (·.name)

/-- A delivery of the exit event shows a current state that declares one. -/
private theorem Machine.exists_exiting {m : Machine} {target : String} {payload : Json} {exit : Option Delivery}
    (hexit : exit.map (·.note) = m.exitNote target payload) (hveto : Vetoes m.flag exit) :
    ∃ s event, m.currentState = some s ∧ s.exiting = some event := by
  obtain ⟨d, rfl, -⟩ := hveto
  rw [Option.map_some, exitNote, eq_comm, Option.map_eq_some_iff] at hexit
  obtain ⟨event, hevent, -⟩ := hexit
  obtain ⟨s, hs, hexiting⟩ := Option.bind_eq_some_iff.1 hevent
  exact ⟨s, event, hs, hexiting⟩

private theorem State.exists_entering {s : State} {flag : FlagId} {payload : Json} {enter : Option Delivery}
    (henter : enter.map (·.note) = s.enterNote payload) (hveto : Vetoes flag enter) :
    ∃ event, s.entering = some event := by
  obtain ⟨d, rfl, -⟩ := hveto
  rw [Option.map_some, enterNote, eq_comm, Option.map_eq_some_iff] at henter
  obtain ⟨event, hevent, -⟩ := henter
  exact ⟨event, hevent⟩

/-- The course that a passage takes decides its outcome. -/
private theorem Passage.Takes.decides {m : Machine} {next : State} {payload : Json} {c : Course} {o : Outcome}
    (htakes : (m.passageTo next).Takes m.flag payload c o) : m.DecidedBy next payload c o := by
  cases htakes with
  | vetoedOnExit hexit hveto =>
    have hnames := Machine.exists_exiting hexit hveto
    refine ⟨hexit, fun hpass => absurd hveto hpass, ?_, ?_, ?_, ?_, nofun, nofun⟩
    · exact ⟨fun _ => hveto, fun _ => ⟨_, _, rfl⟩⟩
    · constructor
      · rintro ⟨_, _, ho⟩
        cases ho
      · rintro ⟨hpass, -⟩
        exact absurd hveto hpass
    · constructor
      · rintro ⟨_, _, ho⟩
        cases ho
      · rintro ⟨hpass, -⟩
        exact absurd hveto hpass
    · rintro _ _ ⟨rfl, rfl⟩
      obtain ⟨s, event, hs, hexiting⟩ := hnames
      have hsource : (m.passageTo next).source.getD "" = s.name := by
        rw [Machine.passageTo, hs, Option.map_some, Option.getD_some]
      exact ⟨rfl, s, event, hs, hexiting, hsource⟩
  | vetoedOnEnter hexit hpass henter hveto =>
    refine ⟨hexit, fun _ => henter, ?_, ?_, ?_, nofun, ?_, nofun⟩
    · constructor
      · rintro ⟨_, _, ho⟩
        cases ho
      · intro hveto'
        exact absurd hveto' hpass
    · exact ⟨fun _ => ⟨hpass, hveto⟩, fun _ => ⟨_, _, rfl⟩⟩
    · constructor
      · rintro ⟨_, _, ho⟩
        cases ho
      · rintro ⟨-, hpass'⟩
        exact absurd hveto hpass'
    · rintro _ _ ⟨rfl, rfl⟩
      exact ⟨rfl, rfl, State.exists_entering henter hveto⟩
  | committed hexit hpass henter hpass' _ _ =>
    refine ⟨hexit, fun _ => henter, ?_, ?_, ?_, nofun, nofun, ?_⟩
    · constructor
      · rintro ⟨_, _, ho⟩
        cases ho
      · intro hveto
        exact absurd hveto hpass
    · constructor
      · rintro ⟨_, _, ho⟩
        cases ho
      · rintro ⟨-, hveto⟩
        exact absurd hveto hpass'
    · exact ⟨fun _ => ⟨hpass, hpass'⟩, fun _ => ⟨_, _, rfl⟩⟩
    · rintro _ _ ⟨rfl, rfl⟩
      exact ⟨rfl, rfl⟩

/-- A call to move is ignored exactly if its target is not registered; otherwise the deliveries it makes, in order
an exit window, an enter window and a rest, decide its outcome by what is raised in the two windows. -/
theorem Machine.transition_decided {respond : Response M L} {depth : Nat} {h h' : Hub M L} {name : String}
    {m m' : Machine} {target : String} {payload : Json} {o : Outcome} (hh : h.Reachable)
    (hseat : h.machines[name]? = some (.idle m))
    (hcall : m.transition (Hub.publishWithin respond depth) target payload (h.occupy name m) = some (o, m', h')) :
    (o = .ignored ↔ m.state? target = none) ∧
      ∀ next, m.state? target = some next → next.name = target ∧
        ∃ c : Course, h.deliveriesSince h' = c.exit.toList ++ c.enter.toList ++ c.rest ∧
          m.DecidedBy next payload c o := by
  obtain ⟨hs, rfl, -⟩ | ⟨next, c, hs, hname, hsince, htakes⟩ := transition_course hh hseat hcall
  · refine ⟨⟨fun _ => hs, fun _ => rfl⟩, ?_⟩
    intro next hnext
    rw [hs] at hnext
    cases hnext
  · have hregistered : m.state? target ≠ none := by
      rw [hs]
      nofun
    have hproceeds : o ≠ .ignored := by
      cases htakes <;> nofun
    refine ⟨⟨fun ho => absurd ho hproceeds, fun ho => absurd ho hregistered⟩, ?_⟩
    intro next' hnext'
    rw [hs] at hnext'
    cases hnext'
    exact ⟨hname, c, hsince, htakes.decides⟩

/-- A guarded door is not left closed. -/
theorem transition_decided_door : ∃ (h' : Hub Unit FlagId) (m' : Machine) (next : State) (c : Course),
    Machine.door.transition (Hub.publishWithin guard 1) "open" .null (Hub.guardedDoor.occupy "door" Machine.door) =
      some (.vetoedOnExit "closed" "open", m', h') ∧
    Hub.guardedDoor.deliveriesSince h' = c.exit.toList ++ c.enter.toList ++ c.rest ∧
    Machine.door.DecidedBy next .null c (.vetoedOnExit "closed" "open") := by
  have hcall : ((Machine.door.transition (Hub.publishWithin guard 1) "open" .null
      (Hub.guardedDoor.occupy "door" Machine.door)).map (·.1)) = some (.vetoedOnExit "closed" "open") := by
    decide
  obtain ⟨⟨o, m', h'⟩, hcall, rfl⟩ := Option.map_eq_some_iff.1 hcall
  have hseat : Hub.guardedDoor.machines["door"]? = some (.idle Machine.door) := rfl
  obtain ⟨-, hdecided⟩ := Machine.transition_decided Hub.reachable_guardedDoor hseat hcall
  obtain ⟨-, c, hsince, hc⟩ := hdecided (State.new "open") rfl
  exact ⟨h', m', State.new "open", c, hcall, hsince, hc⟩

end VetoMachine
