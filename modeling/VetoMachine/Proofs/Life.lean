import VetoMachine.Proofs.Consistency
import VetoMachine.Proofs.Registrations

/-!
# The life of a machine

A life is all that is ever done to one machine, from its making on, as a list of episodes (`Life`).  An episode is one
deed on a hub on which the machine is idle, with what came of it; in between the hub may change at will, and each
episode may as well take place inside a delivery that somebody else makes.  In an episode the machine is either driven,
which gives outcomes, or put into a state without a move: a registration founds it or it is started.
-/

namespace VetoMachine

variable {M L : Type}

/-- The name of the state that a machine is in. -/
def Machine.place (m : Machine) : Option String := m.currentState.map (·.name)

theorem Machine.Sound.place_eq {m : Machine} (hm : m.Sound) : m.place = m.current := hm.currentState_name

/-- One deed in the life of a machine, with all that came of it. -/
structure Episode (M L : Type) where
  deed : Deed
  /-- How deep notifications may be nested. -/
  depth : Nat
  /-- How many actions may be drained. -/
  fuel : Nat
  before : Machine
  /-- The hub at the beginning, with the machine out of its seat. -/
  outset : Hub M L
  answer : Except Rejection Answer
  after : Machine
  /-- The hub at the end, with the machine still out of its seat. -/
  ending : Hub M L

namespace Episode

/-- The machine is idle on a hub that can come about, and driven there with this result. -/
structure Occurs (respond : Response M L) (e : Episode M L) : Prop where
  seated : ∃ (h : Hub M L) (name : String), h.Reachable ∧ h.machines[name]? = some (.idle e.before) ∧
    e.outset = h.occupy name e.before
  undergone : e.before.undergo (Hub.publishWithin respond e.depth) e.fuel e.outset e.deed =
    some (e.answer, e.after, e.ending)

/-- The outcomes of the moves that are attempted, in order. -/
def outcomes (e : Episode M L) : List Outcome :=
  match e.answer with
  | .ok a => a.allOutcomes
  | .error _ => []

/-- Where the last committed move leads. -/
def arrival? (e : Episode M L) : Option String := (e.outcomes.filterMap Outcome.arrival?).getLast?

/-- The registrations that are made, directly or in the course of loading a description. -/
def registrations (e : Episode M L) : List Registration :=
  match e.deed with
  | .operate (.register s asInitial) => [⟨e.before, s, asInitial⟩]
  | .operate _ => []
  | .populate l =>
    match l.load.1 with
    | .ok states => Machine.registrations (fun s => l.load.2.isInitial s.name) states e.before
    | .error _ => []

/-- The name of the state that founds the machine. -/
def founder? (e : Episode M L) : Option String := (e.registrations.find? (·.isFounding)).map (·.state.name)

/-- The name of the state that the machine is started at. -/
def start? (e : Episode M L) : Option String :=
  match e.deed, e.answer with
  | .operate (.startAt name), .ok (.accepted true) => some name
  | _, _ => none

end Episode

/-- A life of a machine with listeners that respond in a given way: it is made and then goes through episodes. -/
inductive Life (respond : Response M L) : List (Episode M L) → Machine → Prop where
  | new (flag : FlagId) : Life respond [] (.empty flag)
  | next {es : List (Episode M L)} {e : Episode M L} (hlife : Life respond es e.before) (he : e.Occurs respond) :
      Life respond (es ++ [e]) e.after

variable {respond : Response M L} {es : List (Episode M L)} {e : Episode M L} {m : Machine}

theorem Life.reachable (hlife : Life respond es m) : m.Reachable := by
  induction hlife with
  | new flag => exact .new flag
  | next _ he ih => exact ih.undergo he.undergone

/-- The machine is sound at both ends of every episode of a life. -/
theorem Life.sound_of_mem (hlife : Life respond es m) (he : e ∈ es) :
    e.before.Sound ∧ e.after.Sound ∧ e.Occurs respond := by
  induction hlife with
  | new flag => cases he
  | @next es last hlife hlast ih =>
    rcases List.mem_append.1 he with he | he
    · exact ih he
    · cases List.mem_singleton.1 he
      exact ⟨hlife.reachable.sound, (hlife.reachable.undergo hlast.undergone).sound, hlast⟩

/-! ### What an episode can be -/

/-- The four kinds of episodes, each with all that it does. -/
inductive Episode.Goes (e : Episode M L) : Prop where
  /-- States are registered: one, those of a description, or none if it is refused. -/
  | registering (isInitial : State → Bool) (states : List State)
      (hregistrations : e.registrations = Machine.registrations isInitial states e.before)
      (hafter : e.after = Machine.registerAll isInitial states e.before)
      (hending : ∃ warnings, e.ending = e.outset.warn warnings) (houtcomes : e.outcomes = []) (hstart : e.start? = none)
  /-- The machine is started. -/
  | starting (name : String) (hstart : e.start? = some name) (hbefore : e.before.current = none)
      (hregistered : e.before.isRegistered name = true) (hafter : e.after = { e.before with current := some name })
      (hending : ∃ warnings, e.ending = e.outset.warn warnings) (hregistrations : e.registrations = [])
      (houtcomes : e.outcomes = [])
  /-- A state is removed or edited, or a machine refuses to start. -/
  | arranging (hcurrent : e.after.current = e.before.current) (hinitial : e.after.initial = e.before.initial)
      (hregistrations : e.registrations = []) (houtcomes : e.outcomes = []) (hstart : e.start? = none)
  /-- The machine is driven, and moves where the outcomes tell. -/
  | driving (op : Operation) (hdeed : e.deed = .operate op) (hop : op.isDriving = true)
      (hafter : e.after = e.before.moved e.outcomes) (hregistrations : e.registrations = []) (hstart : e.start? = none)

namespace Machine

theorem startAt_cases (m : Machine) (name : String) :
    (m.current = none ∧ m.isRegistered name = true ∧ m.startAt name = (true, { m with current := some name })) ∨
      m.startAt name = (false, m) := by
  unfold startAt
  split
  · rename_i hstarts
    simp only [Bool.and_eq_true, Option.isNone_iff_eq_none] at hstarts
    exact .inl ⟨hstarts.1, hstarts.2, rfl⟩
  · exact .inr rfl

theorem remove_current (m : Machine) (name : String) : (m.remove name).2.current = m.current := by
  unfold remove; split <;> rfl

theorem remove_initial (m : Machine) (name : String) : (m.remove name).2.initial = m.initial := by
  unfold remove; split <;> rfl

theorem editCurrent_current (m : Machine) (e : State.Edit) : (m.editCurrent e).2.current = m.current := by
  unfold editCurrent
  split
  · rfl
  · split
    · exact edit_current m _ e
    · rfl

theorem editCurrent_initial (m : Machine) (e : State.Edit) : (m.editCurrent e).2.initial = m.initial := by
  unfold editCurrent
  split
  · rfl
  · split
    · exact edit_initial m _ e
    · rfl

end Machine

private theorem Episode.goes_of_perform {op : Operation} {b : Answer} (hdeed : e.deed = .operate op)
    (hanswer : e.answer = .ok b) {publish : Publisher M L}
    (hcall : e.before.perform publish e.fuel e.outset op = some (b, e.after, e.ending)) : e.Goes := by
  obtain ⟨deed, depth, fuel, before, outset, answer, after, ending⟩ := e
  dsimp only at hdeed hanswer hcall
  cases hdeed
  cases hanswer
  cases op with
  | register s asInitial =>
    cases hcall
    exact .registering (fun _ => asInitial) [s] rfl rfl ⟨_, rfl⟩ rfl rfl
  | startAt name =>
    obtain ⟨hbefore, hregistered, hstarts⟩ | hrefuses := before.startAt_cases name
    · simp only [Machine.perform, hstarts, Option.some.injEq, Prod.mk.injEq] at hcall
      obtain ⟨rfl, rfl, rfl⟩ := hcall
      exact .starting name rfl hbefore hregistered rfl ⟨_, rfl⟩ rfl rfl
    · simp only [Machine.perform, hrefuses, Option.some.injEq, Prod.mk.injEq] at hcall
      obtain ⟨rfl, rfl, rfl⟩ := hcall
      exact .arranging rfl rfl rfl rfl rfl
  | remove name => cases hcall; exact .arranging (before.remove_current name) (before.remove_initial name) rfl rfl rfl
  | edit name change =>
    cases hcall
    exact .arranging (before.edit_current name change) (before.edit_initial name change) rfl rfl rfl
  | editCurrent change =>
    cases hcall
    exact .arranging (before.editCurrent_current change) (before.editCurrent_initial change) rfl rfl rfl
  | cancel | moveTo _ _ | handleAction _ _ | handleNotification _ | drain _ =>
    exact .driving _ rfl rfl (Machine.moved_of_perform rfl hcall) rfl rfl

/-- To load a description is to register states one after the other, none if it is refused. -/
theorem Episode.Occurs.registers (he : e.Occurs respond) {l : Loader} (hdeed : e.deed = .populate l) :
    ∃ isInitial states, e.registrations = Machine.registrations isInitial states e.before ∧
      e.after = Machine.registerAll isInitial states e.before := by
  obtain ⟨op, b, hother, -⟩ | ⟨l', hdeed', -, hl, -⟩ | ⟨l', r, hdeed', -, hl, hsame, -⟩ :=
    Machine.undergo_cases he.undergone
  · rw [hdeed] at hother; cases hother
  · rw [hdeed] at hdeed'; cases hdeed'
    cases hload : l.load.1 with
    | error r => simp [Loader.populate, hload, Except.map] at hl
    | ok states =>
      simp only [Loader.populate, hload, Except.map, Except.ok.injEq] at hl
      refine ⟨fun s => l.load.2.isInitial s.name, states, ?_, hl.symm⟩
      simp only [registrations, hdeed, hload]
  · rw [hdeed] at hdeed'; cases hdeed'
    cases hload : l.load.1 with
    | ok states => simp [Loader.populate, hload, Except.map] at hl
    | error r =>
      refine ⟨fun _ => false, [], ?_, hsame⟩
      simp only [registrations, hdeed, hload, Machine.registrations]

/-- Every episode is of one of the four kinds. -/
theorem Episode.Occurs.goes (he : e.Occurs respond) : e.Goes := by
  obtain ⟨op, b, hdeed, hanswer, hcall⟩ | ⟨l, hdeed, hanswer, -, hending⟩ | ⟨l, r, hdeed, hanswer, -, -, hending⟩ :=
    Machine.undergo_cases he.undergone
  · exact goes_of_perform hdeed hanswer hcall
  all_goals
    obtain ⟨isInitial, states, hregistrations, hafter⟩ := he.registers hdeed
    have houtcomes : e.outcomes = [] := by simp only [outcomes, hanswer, Answer.allOutcomes]
    have hstart : e.start? = none := by simp only [start?, hdeed]
    exact .registering isInitial states hregistrations hafter ⟨_, hending⟩ houtcomes hstart

/-! ### What episodes do to the current and the initial name -/

namespace Episode.Goes

/-- The current name is where the last committed move led, or that of the state which founded the machine or at which
it was started, or it is the old one. -/
theorem current_eq (he : e.Goes) :
    e.after.current = (e.arrival?.or (e.founder?.or e.start?)).or e.before.current := by
  cases he with
  | registering isInitial states hregistrations hafter _ houtcomes hstart =>
    rw [hafter, Machine.registerAll_current, arrival?, houtcomes, founder?, hregistrations, hstart]
    simp
  | starting name hstart _ _ hafter _ hregistrations houtcomes =>
    rw [hafter, arrival?, houtcomes, founder?, hregistrations, hstart]
    simp
  | arranging hcurrent _ hregistrations houtcomes hstart =>
    rw [hcurrent, arrival?, houtcomes, founder?, hregistrations, hstart]
    simp
  | driving _ _ _ hafter hregistrations hstart =>
    rw [hafter, Machine.moved_current, founder?, hregistrations, hstart, arrival?]
    simp

theorem started (he : e.Goes) {name : String} (hname : e.start? = some name) :
    e.before.current = none ∧ e.before.isRegistered name = true ∧
      e.after = { e.before with current := some name } := by
  cases he with
  | starting name' hstart hbefore hregistered hafter _ _ _ =>
    rw [hstart] at hname
    cases hname
    exact ⟨hbefore, hregistered, hafter⟩
  | registering _ _ _ _ _ _ hstart => rw [hstart] at hname; cases hname
  | arranging _ _ _ _ hstart => rw [hstart] at hname; cases hname
  | driving _ _ _ _ _ hstart => rw [hstart] at hname; cases hname

theorem initial_eq (he : e.Goes) :
    e.after.initial = e.before.initial.or ((e.registrations.find? (·.isFlagged)).map (·.state.name)) := by
  cases he with
  | registering isInitial states hregistrations hafter _ _ _ =>
    rw [hafter, Machine.registerAll_initial, hregistrations]
  | starting _ _ _ _ hafter _ hregistrations _ => simp [hafter, hregistrations]
  | arranging _ hinitial hregistrations _ _ => simp [hinitial, hregistrations]
  | driving _ _ _ hafter hregistrations _ => simp [hafter, hregistrations]

theorem initial_eq_none (he : e.Goes) (hafter : e.after.initial = none) : e.before.initial = none := by
  rw [he.initial_eq, Option.or_eq_none_iff] at hafter
  exact hafter.1

theorem filter_isFounding (he : e.Goes) :
    e.registrations.filter (·.isFounding) =
      if e.before.initial.isNone then (e.registrations.find? (·.isFlagged)).toList else [] := by
  cases he with
  | registering isInitial states hregistrations _ _ _ _ =>
    rw [hregistrations, Machine.filter_isFounding_registrations]
  | starting _ _ _ _ _ _ hregistrations _ => simp [hregistrations]
  | arranging _ _ hregistrations _ _ => simp [hregistrations]
  | driving _ _ _ _ hregistrations _ => simp [hregistrations]

end Episode.Goes

/-! ### A door in its doorway -/

/-- The listeners do nothing. -/
def silence : Response Unit FlagId := fun _ _ => .done

/-- A hub where a machine is the door, and nobody listens. -/
def Hub.doorway (m : Machine) : Hub Unit FlagId := (Hub.empty 1 ()).newFlag.2.seat "door" m

/-- What is done to a machine in a doorway, and what comes of it. -/
def Episode.inDoorway (m : Machine) (op : Operation) (b : Answer) (m' : Machine) (h' : Hub Unit FlagId) :
    Episode Unit FlagId :=
  ⟨.operate op, 1, 1, m, (Hub.doorway m).occupy "door" m, .ok b, m', h'⟩

/-- A life goes on with whatever is done to the machine in a doorway. -/
theorem Life.inDoorway {es : List (Episode Unit FlagId)} {m m' : Machine} (hlife : Life silence es m)
    (hflag : m.flag = 0) {op : Operation} {b : Answer} {h' : Hub Unit FlagId}
    (hcall : m.perform (Hub.publishWithin silence 1) 1 ((Hub.doorway m).occupy "door" m) op = some (b, m', h')) :
    Life silence (es ++ [.inDoorway m op b m' h']) m' := by
  have hhub : (Hub.doorway m).Reachable := (Hub.Reachable.empty 1 ()).create hlife.reachable hflag "door"
  have hseat : (Hub.doorway m).machines["door"]? = some (.idle m) := by simp [Hub.doorway, Hub.seat]
  have hundergone : m.undergo (Hub.publishWithin silence 1) 1 ((Hub.doorway m).occupy "door" m) (.operate op) =
      some (.ok b, m', h') := by
    rw [Machine.undergo, hcall]
    rfl
  have hoccurs : (Episode.inDoorway m op b m' h').Occurs silence := ⟨⟨_, "door", hhub, hseat, rfl⟩, hundergone⟩
  exact hlife.next hoccurs

section Doorway

variable {es : List (Episode Unit FlagId)} {m : Machine}

theorem Life.registerInDoorway (hlife : Life silence es m) (hflag : m.flag = 0) (s : State) (asInitial : Bool) :
    ∃ h', Life silence (es ++ [.inDoorway m (.register s asInitial) (.accepted (m.register s asInitial).1)
      (m.register s asInitial).2 h']) (m.register s asInitial).2 :=
  ⟨_, hlife.inDoorway hflag rfl⟩

theorem Life.removeInDoorway (hlife : Life silence es m) (hflag : m.flag = 0) (name : String) :
    ∃ h', Life silence (es ++ [.inDoorway m (.remove name) (.removed (m.remove name).1) (m.remove name).2 h'])
      (m.remove name).2 :=
  ⟨_, hlife.inDoorway hflag rfl⟩

theorem Life.startInDoorway (hlife : Life silence es m) (hflag : m.flag = 0) (name : String) :
    ∃ h', Life silence (es ++ [.inDoorway m (.startAt name) (.accepted (m.startAt name).1) (m.startAt name).2 h'])
      (m.startAt name).2 :=
  ⟨_, hlife.inDoorway hflag rfl⟩

theorem Life.moveInDoorway (hlife : Life silence es m) (hflag : m.flag = 0) (target : String) (o : Outcome)
    (hmove : (m.transition (Hub.publishWithin silence 1) target .null ((Hub.doorway m).occupy "door" m)).map (·.1) =
      some o) :
    ∃ h', Life silence (es ++ [.inDoorway m (.moveTo target .null) (.outcome o) (m.moved [o]) h']) (m.moved [o]) := by
  obtain ⟨⟨o, m', h'⟩, hresult, rfl⟩ := Option.map_eq_some_iff.1 hmove
  have hmoved : m' = m.moved [o] := Machine.moved_of_transition hresult
  have hcall : m.perform (Hub.publishWithin silence 1) 1 ((Hub.doorway m).occupy "door" m) (.moveTo target .null) =
      some (.outcome o, m.moved [o], h') := by
    rw [Machine.perform, hresult, ← hmoved]
    rfl
  exact ⟨h', hlife.inDoorway hflag hcall⟩

end Doorway

/-- A door is made and opened, its state `open` is removed, and it is closed. -/
theorem Life.exists_door : ∃ (e₁ e₂ e₃ e₄ e₅ : Episode Unit FlagId) (m : Machine),
    Life silence [e₁, e₂, e₃, e₄, e₅] m ∧
    [e₁, e₂, e₃, e₄, e₅].map Episode.outcomes =
      [[], [], [.committed (some "closed") "open"], [], [.committed (some "open") "closed"]] ∧
    [e₁, e₂, e₃, e₄, e₅].map Episode.founder? = [some "closed", none, none, none, none] ∧
    ∀ e ∈ [e₁, e₂, e₃, e₄, e₅], e.start? = none := by
  have hnew : Life silence [] (.empty 0) := .new 0
  obtain ⟨h₁, hfounded⟩ := hnew.registerInDoorway rfl
    (State.define { State.new "closed" with exiting := some "unlock" } "push" "open").2 true
  obtain ⟨h₂, hdoor⟩ := hfounded.registerInDoorway (by decide) (State.new "open") false
  obtain ⟨h₃, hopened⟩ := hdoor.moveInDoorway (by decide) "open" (.committed (some "closed") "open") (by decide)
  obtain ⟨h₄, hremoved⟩ := hopened.removeInDoorway (by decide) "open"
  obtain ⟨h₅, hend⟩ := hremoved.moveInDoorway (by decide) "closed" (.committed (some "open") "closed") (by decide)
  refine ⟨_, _, _, _, _, _, hend, rfl, rfl, ?_⟩
  simp [Episode.start?, Episode.inDoorway]

end VetoMachine
