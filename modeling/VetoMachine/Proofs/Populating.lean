import VetoMachine.Proofs.InitialRole
import VetoMachine.Proofs.LoaderHistory

/-!
# Loading a description into any machine

A description can be loaded into a machine that has states of its own, has an initial state, or is under way.  Names
that are taken stay with the states that have them, and the first definition of every other name is added.  The machine
is founded if nothing founded it before and the initial state of the description is among those added, and goes on
where it was if not (`Life.populated`).  To load the description once more changes nothing.
-/

namespace VetoMachine

variable {M L : Type} {respond : Response M L} {es : List (Episode M L)} {e : Episode M L} {d : Description}
  {l : Loader} {m m' : Machine}

/-- The name at which a machine should have been started, if a warning is about one that was not. -/
def Warning.notStarted? : Warning → Option String
  | .notStarted initial => some initial
  | .initialAlreadySet _ _ | .alreadyStarted _ _ | .unregisteredStart _ | .unregisteredTarget _ _ _
  | .namelessAction | .namelessActionDropped | .unsound _ => none

/-! ### Registering states one after the other -/

namespace Machine

variable {states : List State} {name : String}

/-- A machine stays where it is if the one name that carries the flag is taken, or not among those registered. -/
theorem registerAll_stays (hname : m.state? name ≠ none ∨ ∀ s ∈ states, s.name ≠ name) :
    (registerAll (fun s => decide (name = s.name)) states m).initial = m.initial ∧
      (registerAll (fun s => decide (name = s.name)) states m).current = m.current ∧
      (registerAll (fun s => decide (name = s.name)) states m).detached = m.detached := by
  induction states generalizing m with
  | nil => exact ⟨rfl, rfl, rfl⟩
  | cons s rest ih =>
    have hrest : (m.register s (decide (name = s.name))).2.state? name ≠ none ∨ ∀ t ∈ rest, t.name ≠ name := by
      refine hname.imp (fun htaken => ?_) fun hnone t ht => hnone t (List.mem_cons_of_mem _ ht)
      rw [state?_register, Option.ne_none_iff_isSome, Option.isSome_or, Option.isSome_iff_ne_none.2 htaken,
        Bool.true_or]
    obtain ⟨hinitial, hcurrent, hdetached⟩ := ih hrest
    rw [registerAll, hinitial, hcurrent, hdetached]
    obtain ⟨-, h⟩ | ⟨hfree, hflag, -, -⟩ | ⟨-, -, h⟩ := m.register_cases s (decide (name = s.name))
    · rw [h]
      exact ⟨rfl, rfl, rfl⟩
    · -- `s` would found the machine, but its name is taken
      have hsame : s.name = name := (of_decide_eq_true hflag).symm
      rcases hname with htaken | hnone
      · exact absurd (hsame ▸ hfree) htaken
      · exact absurd hsame (hnone s List.mem_cons_self)
    · rw [h]
      exact ⟨rfl, rfl, rfl⟩

/-- States whose names are taken change nothing. -/
theorem registerAll_of_isRegistered {isInitial : State → Bool}
    (hstates : ∀ s ∈ states, m.isRegistered s.name = true) : registerAll isInitial states m = m := by
  induction states with
  | nil => rfl
  | cons s rest ih =>
    have hs : (m.register s (isInitial s)).2 = m := by
      rw [register, if_pos (hstates s List.mem_cons_self)]
    rw [registerAll, hs]
    exact ih fun t ht => hstates t (List.mem_cons_of_mem _ ht)

/-- Once states were registered, to register them again changes nothing. -/
theorem registerAll_again (isInitial isInitial' : State → Bool) (states : List State) (m : Machine) :
    registerAll isInitial' states (registerAll isInitial states m) = registerAll isInitial states m := by
  refine registerAll_of_isRegistered fun s hs => ?_
  have hfind : (states.find? (·.name = s.name)).isSome = true := List.find?_isSome.2 ⟨s, hs, decide_eq_true rfl⟩
  rw [isRegistered, state?_registerAll, Option.isSome_or, hfind, Bool.or_true]

theorem notStarted?_registerAllWarnings (isInitial : State → Bool) (states : List State) (m : Machine) :
    (registerAllWarnings isInitial states m).filterMap Warning.notStarted? = [] := by
  induction states generalizing m with
  | nil => rfl
  | cons s rest ih =>
    have hfirst : (m.registerWarnings s (isInitial s)).filterMap Warning.notStarted? = [] := by
      unfold registerWarnings
      split
      · split <;> rfl
      · rfl
    rw [registerAllWarnings, List.filterMap_append, hfirst, ih, List.nil_append]

end Machine

/-! ### Loading -/

namespace Loader

/-- A loader that has given its states keeps them. -/
theorem load_again {states : List State} (hload : l.load.1 = .ok states) : l.load.2.load = (.ok states, l.load.2) := by
  obtain ⟨built, hbuilt, h, -⟩ | ⟨-, -, -, h, -⟩ | ⟨-, -, h, -⟩ := l.load_cases
  · rw [h] at hload ⊢
    rw [h, ← hload]
  · rw [h] at hload
    cases hload
  · rw [h] at hload ⊢
    rw [load, ← hload]

theorem Reachable.load_of_ok (hl : l.Reachable d) {states : List State} (hload : l.load.1 = .ok states) :
    states = d.states.map Definition.state ∧ l.load.2.description = d := by
  refine ⟨?_, hl.loaded.built_eq.1⟩
  obtain ⟨built, hbuilt, h, -⟩ | ⟨-, -, -, h, -⟩ | ⟨-, -, h, -⟩ := l.load_cases
  · rw [h] at hload
    cases hload
    exact hl.built_eq.2 states hbuilt
  · rw [h] at hload
    cases hload
  · rw [h] at hload
    cases hload
    rw [hl.built_eq.1]

/-- A loader that does not refuse registers the states of its description, the initial one with the flag. -/
theorem Reachable.populate_of_ok (hl : l.Reachable d) (hm : (l.populate m).1 = .ok m') :
    l.load.1 = .ok (d.states.map Definition.state) ∧
      m' = Machine.registerAll (fun s => decide (d.initial = s.name)) (d.states.map Definition.state) m := by
  cases hload : l.load.1 with
  | error r => simp [populate, hload, Except.map] at hm
  | ok states =>
    obtain ⟨rfl, hdescription⟩ := hl.load_of_ok hload
    refine ⟨rfl, ?_⟩
    simp only [populate, hload, Except.map, isInitial, hdescription, Except.ok.injEq] at hm
    exact hm.symm

/-- Of a machine that is not started afterwards there is one warning. -/
theorem Reachable.notStarted?_populateWarnings (hl : l.Reachable d) (hm : (l.populate m).1 = .ok m') :
    (l.populateWarnings m).filterMap Warning.notStarted? = if m'.isStarted then [] else [d.initial] := by
  obtain ⟨hload, hm'⟩ := hl.populate_of_ok hm
  have hdescription : l.load.2.description = d := hl.loaded.built_eq.1
  have hloading : l.loadWarnings.filterMap Warning.notStarted? = [] := by
    unfold loadWarnings
    split
    · rw [List.filterMap_map]
      exact List.filterMap_eq_nil_iff.2 fun _ _ => rfl
    · rfl
  simp only [populateWarnings, hload, isInitial, hdescription, ← hm', List.filterMap_append, hloading,
    Machine.notStarted?_registerAllWarnings, List.nil_append, hl.built_eq.1]
  split <;> rfl

/-- To load a description once more leaves a machine as it is. -/
theorem populate_again (hm : (l.populate m).1 = .ok m') : ((l.populate m).2.populate m').1 = .ok m' := by
  cases hload : l.load.1 with
  | error r => simp [populate, hload, Except.map] at hm
  | ok states =>
    simp only [populate, hload, Except.map, Except.ok.injEq] at hm
    simp only [populate, load_again hload, Except.map, ← hm, Machine.registerAll_again]

end Loader

/-! ### In the life of a machine -/

/-- A machine has no initial state exactly if it never had one. -/
theorem Life.initial_eq_none_iff (hlife : Life respond es m) : m.initial = none ↔ ∀ e ∈ es, e.after.initial = none := by
  induction hlife with
  | new flag => simp [Machine.empty]
  | @next es last hlife hlast ih =>
    rw [List.forall_mem_append, List.forall_mem_singleton, ← ih, iff_and_self]
    exact hlast.goes.initial_eq_none

/-- To load a description into a machine registers the first definition of every name that is free.  If the machine
never had an initial state and that of the description is among those registered, it becomes initial and current;
otherwise the machine stays where it is.  Nothing is published, a machine that is not started is warned of once, and
to load the description once more changes nothing. -/
theorem Life.populated (hlife : Life respond es e.before) (he : e.Occurs respond) (hl : l.Reachable d)
    (hdeed : e.deed = .populate l) {a : Answer} (hanswer : e.answer = .ok a) :
    (∀ name, e.after.state? name =
      (e.before.state? name).or ((d.states.find? (·.name = name)).map Definition.state)) ∧
    ((∀ past ∈ es, past.after.initial = none) ∧ (∃ s ∈ d.states, s.name = d.initial) ∧
        e.before.state? d.initial = none →
      e.after.initial = some d.initial ∧ e.after.current = some d.initial ∧ e.after.detached = none) ∧
    (¬ ((∀ past ∈ es, past.after.initial = none) ∧ (∃ s ∈ d.states, s.name = d.initial) ∧
        e.before.state? d.initial = none) →
      e.after.initial = e.before.initial ∧ e.after.current = e.before.current ∧
        e.after.detached = e.before.detached) ∧
    (∃ warnings, e.ending = e.outset.warn warnings ∧ publishedIn (e.outset.entriesSince e.ending) = [] ∧
      warnings.filterMap Warning.notStarted? = if e.after.isStarted then [] else [d.initial]) ∧
    ∀ (publish : Publisher M L) (fuel : Nat) (h : Hub M L), ∃ h',
      e.after.undergo publish fuel h (.populate (l.populate e.before).2) = some (.ok .done, e.after, h') := by
  have hpopulate : (l.populate e.before).1 = .ok e.after ∧ e.ending = e.outset.warn (l.populateWarnings e.before) := by
    obtain ⟨op, b, hother, -⟩ | ⟨l', hsame, -, h⟩ | ⟨l', r, -, hrefused, -⟩ := Machine.undergo_cases he.undergone
    · rw [hdeed] at hother; cases hother
    · rw [hdeed] at hsame; cases hsame
      exact h
    · rw [hanswer] at hrefused; cases hrefused
  obtain ⟨hpopulate, hending⟩ := hpopulate
  obtain ⟨hload, hafter⟩ := hl.populate_of_ok hpopulate
  rw [← hlife.initial_eq_none_iff]
  refine ⟨fun name => ?_, fun ⟨hnone, hdefined, hfree⟩ => ?_, fun hno => ?_, ?_, fun publish fuel h => ?_⟩
  · rw [hafter, Machine.state?_registerAll, List.find?_map]
    simp only [Function.comp_def, Definition.state_name]
  · rw [hafter]
    refine Machine.registerAll_founds hnone hfree ?_
    obtain ⟨s, hs, hname⟩ := hdefined
    exact ⟨s.state, List.mem_map_of_mem hs, by rw [Definition.state_name, hname]⟩
  · rw [hafter]
    by_cases hnone : e.before.initial = none
    · refine Machine.registerAll_stays ?_
      by_cases hfree : e.before.state? d.initial = none
      · right
        intro s hs hname
        obtain ⟨t, ht, rfl⟩ := List.mem_map.1 hs
        rw [Definition.state_name] at hname
        exact hno ⟨hnone, ⟨t, ht, hname⟩, hfree⟩
      · exact .inl hfree
    · exact Machine.registerAll_keeps hnone
  · refine ⟨_, hending, ?_, hl.notStarted?_populateWarnings hpopulate⟩
    rw [Hub.entriesSince_eq (by rw [hending, Hub.journal_warn])]
    simp [publishedIn, Entry.opened?]
  · exact ⟨_, by simp only [Machine.undergo, Loader.populate_again hpopulate]; rfl⟩

/-! ### A door that was ajar -/

/-- A door with two definitions of its initial state. -/
def Description.twiceClosed : Description :=
  ⟨"closed", [⟨"ajar", none, none, none, none⟩, ⟨"closed", none, some "unlock", none, none⟩,
    ⟨"closed", some "bang", none, none, none⟩]⟩

/-- A door that was started at a state which was removed since. -/
def ajarDoor : Machine := ((((Machine.empty 0).register (State.new "ajar") false).2.startAt "ajar").2.remove "ajar").2

private theorem exists_ajarDoor : ∃ es : List (Episode Unit FlagId),
    Life silence es ajarDoor ∧ ∀ e ∈ es, e.after.initial = none := by
  have hnew : Life silence [] (.empty 0) := .new 0
  obtain ⟨h₁, hregistered⟩ := hnew.registerInDoorway rfl (State.new "ajar") false
  obtain ⟨h₂, hstarted⟩ := hregistered.startInDoorway (by decide) "ajar"
  obtain ⟨h₃, hajar⟩ := hstarted.removeInDoorway (by decide) "ajar"
  exact ⟨_, hajar, hajar.initial_eq_none_iff.1 (by decide)⟩

/-- The description is loaded into the door that was ajar.  It is closed now, and nothing is left of the removed
state. -/
theorem Life.populated_ajar : ajarDoor.currentState = some (State.new "ajar") ∧ ajarDoor.state? "ajar" = none ∧
    ∃ e : Episode Unit FlagId, e.Occurs silence ∧ e.before = ajarDoor ∧ e.after.initial = some "closed" ∧
      e.after.current = some "closed" ∧ e.after.detached = none ∧
      (e.after.state? "closed").map (·.exiting) = some (some "unlock") := by
  refine ⟨by decide, by decide, ?_⟩
  obtain ⟨es, hlife, hnever⟩ := exists_ajarDoor
  let l := Loader.new .twiceClosed
  let e : Episode Unit FlagId := ⟨.populate l, 1, 1, ajarDoor, (Hub.doorway ajarDoor).occupy "door" ajarDoor, .ok .done,
    Machine.registerAll (fun s => l.isInitial s.name) (Description.twiceClosed.states.map Definition.state) ajarDoor,
    ((Hub.doorway ajarDoor).occupy "door" ajarDoor).warn (l.populateWarnings ajarDoor)⟩
  have hhub : (Hub.doorway ajarDoor).Reachable := (Hub.Reachable.empty 1 ()).create hlife.reachable (by decide) "door"
  have hoccurs : e.Occurs silence :=
    ⟨⟨_, "door", hhub, by simp [Hub.doorway, Hub.seat, e], rfl⟩, rfl⟩
  obtain ⟨hstates, hfounded, -, -, -⟩ := Life.populated (e := e) hlife hoccurs .new rfl rfl
  have hdefined : ∃ s ∈ Description.twiceClosed.states, s.name = Description.twiceClosed.initial :=
    ⟨_, List.mem_cons_of_mem _ List.mem_cons_self, rfl⟩
  obtain ⟨hinitial, hcurrent, hdetached⟩ := hfounded ⟨hnever, hdefined, by decide⟩
  refine ⟨e, hoccurs, rfl, hinitial, hcurrent, hdetached, ?_⟩
  rw [hstates]
  decide

end VetoMachine
