import VetoMachine.Proofs.Loaders
import VetoMachine.Session

/-!
# The history of a loader

A loader remembers two things of what was asked of it: the strategy that was set last, and whether the states have been
built (`Loader.Remembers`).  So whether a call is refused, what it gives and what it warns of can be told from the
calls before it (`Loader.turn_by_history`).
-/

namespace VetoMachine

/-- The violation that a warning is about, if it is about one. -/
def Warning.violation? : Warning → Option Violation
  | .unsound v => some v
  | .initialAlreadySet _ _ | .alreadyStarted _ _ | .unregisteredStart _ | .unregisteredTarget _ _ _
  | .namelessAction | .namelessActionDropped | .notStarted _ => none

namespace Loader

/-- What is asked of a loader. -/
inductive Call where
  | onViolation (strategy : Strategy)
  | load
  | populate (m : Machine)
  | inject (flag : FlagId)

/-- What a call gives that is not refused. -/
inductive Reply where
  | done
  | states (states : List State)
  | machine (m : Machine)

namespace Call

/-- Whether a call asks for the states of the description. -/
def isLoading : Call → Bool
  | .onViolation _ => false
  | .load | .populate _ | .inject _ => true

/-- The strategy that a call sets. -/
def strategy? : Call → Option Strategy
  | .onViolation strategy => some strategy
  | .load | .populate _ | .inject _ => none

/-- What a call gives that gets these states, of which the one named `initial` is the initial one. -/
def give (initial : String) (states : List State) : Call → Reply
  | .onViolation _ => .done
  | .load => .states states
  | .populate m => .machine (Machine.registerAll (fun s => decide (initial = s.name)) states m)
  | .inject flag => .machine (Machine.registerAll (fun s => decide (initial = s.name)) states (.empty flag))

end Call

/-- A call, with the loader as it finds it. -/
structure Turn where
  loader : Loader
  call : Call

namespace Turn

def reply (t : Turn) : Except Rejection Reply :=
  match t.call with
  | .onViolation _ => .ok .done
  | .load => t.loader.load.1.map .states
  | .populate m => (t.loader.populate m).1.map .machine
  | .inject flag => (t.loader.inject flag).1.map .machine

/-- The loader as a call leaves it. -/
def after (t : Turn) : Loader :=
  match t.call with
  | .onViolation strategy => t.loader.onViolation strategy
  | .load => t.loader.load.2
  | .populate m => (t.loader.populate m).2
  | .inject flag => (t.loader.inject flag).2

def warnings (t : Turn) : List Warning :=
  match t.call with
  | .onViolation _ => []
  | .load => t.loader.loadWarnings
  | .populate m => t.loader.populateWarnings m
  | .inject flag => t.loader.injectWarnings flag

/-- Whether a call asks for the states and gets them. -/
def succeeds (t : Turn) : Bool := t.call.isLoading && t.reply.isOk

end Turn

/-- Calls made one after the other on a loader. -/
def turns : List Call → Loader → List Turn
  | [], _ => []
  | c :: rest, l => ⟨l, c⟩ :: turns rest (Turn.after ⟨l, c⟩)

/-- The strategy set last, and to begin with the one that warns. -/
def strategyInForce (past : List Turn) : Strategy := (past.filterMap (·.call.strategy?)).getLast?.getD .ignoreAndWarn

variable {l : Loader} {d : Description} {past later : List Turn} {t : Turn}

/-! ### A single call -/

/-- The states are there, or refused, or built with a warning of every violation. -/
theorem load_cases (l : Loader) :
    (∃ states, l.built = some states ∧ l.load = (.ok states, l) ∧ l.loadWarnings = []) ∨
    (l.built = none ∧ l.strategy = .reject ∧ l.description.violations ≠ [] ∧
      l.load = (.error ⟨l.description.violations⟩, l) ∧ l.loadWarnings = []) ∨
    (l.built = none ∧ (l.strategy = .reject → l.description.violations = []) ∧
      l.load = (.ok (l.description.states.map Definition.state),
        { l with built := some (l.description.states.map Definition.state) }) ∧
      l.loadWarnings = l.description.violations.map .unsound) := by
  unfold load loadWarnings
  cases hbuilt : l.built with
  | some states => exact .inl ⟨states, rfl, rfl, rfl⟩
  | none =>
    right
    cases hstrategy : l.strategy with
    | ignoreAndWarn => right; exact ⟨rfl, nofun, rfl, rfl⟩
    | reject =>
      cases hviolations : l.description.violations with
      | nil => right; exact ⟨rfl, fun _ => rfl, rfl, rfl⟩
      | cons v vs => left; exact ⟨rfl, rfl, List.cons_ne_nil v vs, rfl, rfl⟩

/-- A call that asks for the states gets what `load` gives. -/
theorem Turn.reply_eq (hload : t.call.isLoading = true) :
    t.reply = t.loader.load.1.map fun states => t.call.give t.loader.load.2.description.initial states := by
  obtain ⟨l, c⟩ := t
  cases c with
  | onViolation strategy => cases hload
  | load => rfl
  | populate m => simp only [reply, populate]; cases l.load.1 <;> rfl
  | inject flag => simp only [reply, inject, populate]; cases l.load.1 <;> rfl

theorem Turn.after_eq (hload : t.call.isLoading = true) : t.after = t.loader.load.2 := by
  obtain ⟨l, c⟩ := t
  cases c with
  | onViolation strategy => cases hload
  | load | populate _ | inject _ => rfl

theorem Turn.succeeds_eq (hload : t.call.isLoading = true) : t.succeeds = t.loader.load.1.isOk := by
  rw [succeeds, hload, Bool.true_and, reply_eq hload]
  cases t.loader.load.1 <;> rfl

private theorem filterMap_violation?_registerAllWarnings (isInitial : State → Bool) (states : List State)
    (m : Machine) : (Machine.registerAllWarnings isInitial states m).filterMap Warning.violation? = [] := by
  induction states generalizing m with
  | nil => rfl
  | cons s rest ih =>
    have hfirst : (m.registerWarnings s (isInitial s)).filterMap Warning.violation? = [] := by
      unfold Machine.registerWarnings
      split
      · split <;> rfl
      · rfl
    rw [Machine.registerAllWarnings, List.filterMap_append, hfirst, ih, List.append_nil]

private theorem populateWarnings_of_error {r : Rejection} (hr : l.load.1 = .error r) (m : Machine) :
    l.populateWarnings m = [] := by
  simp [populateWarnings, hr]

private theorem filterMap_violation?_populateWarnings {states : List State} (hstates : l.load.1 = .ok states)
    (m : Machine) :
    (l.populateWarnings m).filterMap Warning.violation? = l.loadWarnings.filterMap Warning.violation? := by
  simp only [populateWarnings, hstates, List.filterMap_append, filterMap_violation?_registerAllWarnings,
    List.append_nil]
  split
  · rw [List.filterMap_nil, List.append_nil]
  · exact List.append_nil _

theorem Turn.warnings_of_error {r : Rejection} (hload : t.call.isLoading = true) (hr : t.loader.load.1 = .error r)
    (hnone : t.loader.loadWarnings = []) : t.warnings = [] := by
  obtain ⟨l, c⟩ := t
  cases c with
  | onViolation strategy => cases hload
  | load => exact hnone
  | populate m => exact populateWarnings_of_error hr m
  | inject flag => exact populateWarnings_of_error hr (.empty flag)

theorem Turn.violations_warned {states : List State} (hload : t.call.isLoading = true)
    (hstates : t.loader.load.1 = .ok states) :
    t.warnings.filterMap Warning.violation? = t.loader.loadWarnings.filterMap Warning.violation? := by
  obtain ⟨l, c⟩ := t
  cases c with
  | onViolation strategy => cases hload
  | load => rfl
  | populate m => exact filterMap_violation?_populateWarnings hstates m
  | inject flag => exact filterMap_violation?_populateWarnings hstates (.empty flag)

/-- A loader that is told to warn gives the states. -/
theorem Turn.succeeds_of_ignoring (hl : l.strategy = .ignoreAndWarn) {c : Call} (hc : c.isLoading = true) :
    (Turn.mk l c).succeeds = true := by
  rw [succeeds_eq hc]
  obtain ⟨states, -, h, -⟩ | ⟨-, hstrategy, -, -⟩ | ⟨-, -, h, -⟩ := l.load_cases
  · rw [h]; rfl
  · rw [hl] at hstrategy; cases hstrategy
  · rw [h]; rfl

/-- A table that differs from `t` at most at `key` becomes `t` by what `t` has there. -/
private theorem insert_eq_of_getElem? {α : Type} {t u : Std.ExtTreeMap String α} {key : String} {value : α}
    (hkey : t[key]? = some value) (hother : ∀ other, other ≠ key → u[other]? = t[other]?) : u.insert key value = t := by
  apply Std.ExtTreeMap.ext_getElem?
  intro other
  rw [Std.ExtTreeMap.getElem?_insert]
  split
  · rename_i hsame
    rw [← Std.LawfulEqCmp.eq_of_compare hsame, hkey]
  · rename_i hdiffers
    exact hother other fun h => hdiffers (h ▸ Std.ReflCmp.compare_self)

/-- A machine is not touched by a loader that refuses, nor is anything else in a session. -/
theorem step_populate_of_error {r : Rejection} (hr : l.load = (.error r, l)) {s : Session} {loader name : String}
    {m : Machine} (hl : s.loaders[loader]? = some l) (hm : s.hub.machines[name]? = some (.idle m)) :
    s.step name (.populate loader) = some (.rejected r, s) := by
  have hthere : s.hasMachine name = true := by
    rw [Session.hasMachine, Std.ExtTreeMap.contains_eq_isSome_getElem?, hm]
    rfl
  have hmachine : (l.populate m).1 = .error r := by rw [populate, hr]; rfl
  have hwarnings : l.populateWarnings m = [] := populateWarnings_of_error (by rw [hr]) m
  -- the machine leaves its seat and comes back
  have hseat : (s.hub.machines.insert name (.inUse m.flag)).insert name (.idle m) = s.hub.machines := by
    refine insert_eq_of_getElem? hm fun other hother => ?_
    rw [Std.ExtTreeMap.getElem?_insert, if_neg fun h => hother (Std.LawfulEqCmp.eq_of_compare h).symm]
  have hloader : s.loaders.insert loader l = s.loaders := insert_eq_of_getElem? hl fun _ _ => rfl
  simp only [Session.step, Session.withLoader, hl, hthere, if_true, Session.populate, hr, Session.setLoader, hloader,
    Session.drive, Hub.drive, hm, hmachine, hwarnings, Hub.warn, List.foldl_nil, Option.bind_eq_bind,
    Option.bind_some, Option.pure_def, Hub.seat, Hub.occupy, hseat]

/-! ### Calls one after the other -/

/-- A loader of `d` as the calls made so far leave it. -/
structure Remembers (d : Description) (past : List Turn) (l : Loader) : Prop where
  description : l.description = d
  strategy : l.strategy = strategyInForce past
  built : l.built = if past.any (·.succeeds) then some (d.states.map Definition.state) else none

theorem remembers_new (d : Description) : Remembers d [] (new d) := ⟨rfl, rfl, rfl⟩

theorem Remembers.of_built (hl : Remembers d past l) {states : List State} (hbuilt : l.built = some states) :
    past.any (·.succeeds) = true ∧ states = d.states.map Definition.state := by
  rw [hl.built] at hbuilt
  split at hbuilt
  · rename_i hpast
    exact ⟨hpast, (Option.some.inj hbuilt).symm⟩
  · cases hbuilt

theorem Remembers.of_unbuilt (hl : Remembers d past l) (hbuilt : l.built = none) :
    past.any (·.succeeds) = false := by
  rw [hl.built] at hbuilt
  split at hbuilt
  · cases hbuilt
  · rename_i hpast
    exact Bool.eq_false_iff.2 hpast

private theorem strategyInForce_concat (past : List Turn) (t : Turn) :
    strategyInForce (past ++ [t]) = t.call.strategy?.getD (strategyInForce past) := by
  unfold strategyInForce
  cases hcall : t.call.strategy? <;> simp [hcall]

/-- One more call. -/
theorem Remembers.after (hl : Remembers d past l) (c : Call) :
    Remembers d (past ++ [⟨l, c⟩]) (Turn.after ⟨l, c⟩) := by
  by_cases hload : c.isLoading = true
  · have hcall : c.strategy? = none := by cases c <;> first | rfl | cases hload
    have hstrategy : l.strategy = strategyInForce (past ++ [⟨l, c⟩]) := by
      rw [strategyInForce_concat, hcall]
      exact hl.strategy
    have hsucceeds : (Turn.mk l c).succeeds = l.load.1.isOk := Turn.succeeds_eq hload
    rw [Turn.after_eq hload]
    obtain ⟨states, hbuilt, h, -⟩ | ⟨hbuilt, -, -, h, -⟩ | ⟨hbuilt, -, h, -⟩ := l.load_cases <;> rw [h]
    · obtain ⟨-, hstates⟩ := hl.of_built hbuilt
      refine ⟨hl.description, hstrategy, ?_⟩
      simp [hsucceeds, h, Except.isOk, Except.toBool, hbuilt, hstates]
    · have hpast := hl.of_unbuilt hbuilt
      refine ⟨hl.description, hstrategy, ?_⟩
      simp [hsucceeds, h, Except.isOk, Except.toBool, hbuilt, hpast]
    · refine ⟨hl.description, hstrategy, ?_⟩
      simp [hsucceeds, h, Except.isOk, Except.toBool, hl.description]
  · obtain ⟨strategy, rfl⟩ : ∃ strategy, c = .onViolation strategy := by
      cases c with
      | onViolation strategy => exact ⟨strategy, rfl⟩
      | load | populate _ | inject _ => exact absurd rfl hload
    have hfails : (Turn.mk l (.onViolation strategy)).succeeds = false := rfl
    refine ⟨hl.description, ?_, ?_⟩
    · rw [strategyInForce_concat]
      rfl
    · rw [List.any_append, List.any_cons, List.any_nil, hfails, Bool.or_false, Bool.or_false]
      exact hl.built

/-- The loader of every call remembers the calls before it. -/
theorem remembers_of_turns {calls : List Call} (hturns : turns calls (new d) = past ++ t :: later) :
    Remembers d past t.loader := by
  suffices ∀ (calls : List Call) (before past : List Turn) (l : Loader), Remembers d before l →
      turns calls l = past ++ t :: later → Remembers d (before ++ past) t.loader by
    simpa using this calls [] past (new d) (remembers_new d) hturns
  intro calls
  induction calls with
  | nil =>
    intro before past l _ h
    cases past <;> cases h
  | cons c rest ih =>
    intro before past l hl h
    cases past with
    | nil =>
      simp only [turns, List.nil_append, List.cons.injEq] at h
      rw [← h.1, List.append_nil]
      exact hl
    | cons u past =>
      simp only [turns, List.cons_append, List.cons.injEq] at h
      have hrest := ih (before ++ [⟨l, c⟩]) past _ (hl.after c) h.2
      rwa [h.1, List.append_assoc] at hrest

/-- A call that asks for the states is refused exactly if none before it got them, the strategy in force is to reject,
and there are violations.  The refusal tells them all, nothing is warned of, the loader and the machine stay as they
are, and once it is told to warn the loader gives the states.  A call that is not refused gives what the definitions
declare, in their order, and only the first of these warns of the violations, of one after the other. -/
theorem turn_by_history {calls : List Call} (hturns : turns calls (new d) = past ++ t :: later)
    (hload : t.call.isLoading = true) :
    (t.succeeds = false ↔
      past.any (·.succeeds) = false ∧ strategyInForce past = .reject ∧ d.violations ≠ []) ∧
    (t.succeeds = false →
      t.reply = .error ⟨d.violations⟩ ∧ t.after = t.loader ∧ t.loader.built = none ∧ t.warnings = [] ∧
      (∀ (s : Session) (loader name : String) (m : Machine), s.loaders[loader]? = some t.loader →
        s.hub.machines[name]? = some (.idle m) →
        s.step name (.populate loader) = some (.rejected ⟨d.violations⟩, s)) ∧
      ∀ c : Call, c.isLoading = true → (Turn.mk (t.after.onViolation .ignoreAndWarn) c).succeeds = true) ∧
    (t.succeeds = true → t.reply = .ok (t.call.give d.initial (d.states.map Definition.state))) ∧
    t.warnings.filterMap Warning.violation? =
      if past.any (·.succeeds) = false ∧ t.succeeds = true then d.violations else [] := by
  have hl : Remembers d past t.loader := remembers_of_turns hturns
  have hd : t.loader.description = d := hl.description
  have hstrategy : t.loader.strategy = strategyInForce past := hl.strategy
  rw [Turn.succeeds_eq hload, Turn.reply_eq hload, Turn.after_eq hload]
  obtain ⟨states, hbuilt, h, hwarnings⟩ | ⟨hbuilt, hreject, hviolations, h, hwarnings⟩ |
      ⟨hbuilt, hsound, h, hwarnings⟩ := t.loader.load_cases
  · -- the states are there already
    obtain ⟨hpast, rfl⟩ := hl.of_built hbuilt
    have hwarned := Turn.violations_warned hload (congrArg Prod.fst h)
    rw [hwarned, hwarnings, h, hd, hpast]
    simp [Except.isOk, Except.toBool, Except.map]
  · have hpast := hl.of_unbuilt hbuilt
    have hnone := Turn.warnings_of_error hload (congrArg Prod.fst h) hwarnings
    rw [hd] at hviolations h
    have hignoring : (t.loader.onViolation .ignoreAndWarn).strategy = .ignoreAndWarn := rfl
    rw [hnone, h, hpast, ← hstrategy]
    refine ⟨?_, fun _ => ⟨rfl, rfl, hbuilt, rfl, ?_, ?_⟩, nofun, by simp [Except.isOk, Except.toBool]⟩
    · simp [Except.isOk, Except.toBool, hreject, hviolations]
    · intro s loader name m
      exact step_populate_of_error h
    · intro c
      exact Turn.succeeds_of_ignoring hignoring
  · have hpast := hl.of_unbuilt hbuilt
    have hwarned := Turn.violations_warned hload (congrArg Prod.fst h)
    have hall : (d.violations.map Warning.unsound).filterMap Warning.violation? = d.violations := by
      rw [List.filterMap_map]
      exact List.filterMap_some
    rw [hd] at hsound hwarnings h
    rw [hwarned, hwarnings, h, hpast, hall, ← hstrategy]
    refine ⟨?_, nofun, fun _ => ?_, by simp [Except.isOk, Except.toBool]⟩
    · simp only [Except.isOk, Except.toBool, Bool.true_eq_false, false_iff, not_and, true_and]
      exact fun hreject hviolations => hviolations (hsound hreject)
    · simp [Except.map]

/-- A door with three violations is refused first.  Told to warn, its loader gives the states with three warnings, and
told to reject again it makes a machine of them without any. -/
theorem turn_by_history_door :
    let door : Description := ⟨"shut",
      [⟨"open", none, none, none, some [⟨"push", "ajar"⟩]⟩, ⟨"open", some "creak", none, none, none⟩]⟩
    let violations : List Violation :=
      [.unknownInitial "shut", .duplicateState "open", .danglingTarget "open" "push" "ajar"]
    let states := door.states.map Definition.state
    let built : Loader := ⟨door, .reject, some states⟩
    let before : List Turn := [⟨new door, .onViolation .reject⟩]
    let refused : Turn := ⟨(new door).onViolation .reject, .populate (.empty 0)⟩
    let between : List Turn := [⟨(new door).onViolation .reject, .onViolation .ignoreAndWarn⟩, ⟨new door, .load⟩,
      ⟨⟨door, .ignoreAndWarn, some states⟩, .onViolation .reject⟩]
    let last : Turn := ⟨built, .inject 1⟩
    turns [.onViolation .reject, .populate (.empty 0), .onViolation .ignoreAndWarn, .load, .onViolation .reject,
        .inject 1] (new door) = before ++ refused :: (between ++ [last]) ∧
      (refused.call.isLoading = true ∧ refused.succeeds = false ∧ refused.reply = .error ⟨violations⟩ ∧
        refused.warnings = []) ∧
      last.call.isLoading = true ∧ last.succeeds = true ∧
        last.reply = .ok (.machine (Machine.registerAll (fun s => decide ("shut" = s.name)) states (.empty 1))) ∧
        last.warnings.filterMap Warning.violation? = [] := by
  intro door violations states built before refused between last
  have hturns : turns [.onViolation .reject, .populate (.empty 0), .onViolation .ignoreAndWarn, .load,
      .onViolation .reject, .inject 1] (new door) = before ++ refused :: (between ++ [last]) := rfl
  have hviolations : door.violations = violations := by decide
  obtain ⟨hrefused, hrefusal, -, -⟩ := turn_by_history (t := refused) hturns rfl
  have hfails : refused.succeeds = false := hrefused.2 ⟨rfl, rfl, by rw [hviolations]; decide⟩
  obtain ⟨hreply, -, -, hnone, -⟩ := hrefusal hfails
  rw [hviolations] at hreply
  -- the states were built by the call before the last but one
  have hpast : (before ++ refused :: between).any (·.succeeds) = true := rfl
  have hsplit : before ++ refused :: (between ++ [last]) = (before ++ refused :: between) ++ last :: [] := rfl
  obtain ⟨hlast, -, hgiven, hwarned⟩ := turn_by_history (t := last) (hturns.trans hsplit) rfl
  have hsucceeds : last.succeeds = true := by
    rw [← Bool.not_eq_false, hlast, hpast]
    nofun
  rw [hpast, if_neg (by nofun)] at hwarned
  exact ⟨hturns, ⟨rfl, hfails, hreply, hnone⟩, rfl, hsucceeds, hgiven hsucceeds, hwarned⟩

end Loader

end VetoMachine
