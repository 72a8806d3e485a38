import VetoMachine.Assembly
import VetoMachine.Proofs.Loaders

/-!
# Assembling what a description declares

A description can be assembled from drafts of its definitions, or loaded with a warning of every violation.  An
assembly refuses a repeated name and an undefined initial state, in this order, and takes no offence at targets; what
it makes is what the loader makes (`Description.build_assembly`).
-/

namespace VetoMachine

/-- The name that a violation says is defined twice. -/
def Violation.duplicate? : Violation → Option String
  | .duplicateState name => some name
  | .unknownInitial _ | .danglingTarget _ _ _ => none

namespace Definition

/-- The draft with the name, the events and the transitions of a definition. -/
def draft (s : Definition) : Draft :=
  let named := Draft.new s.name
  let entering := s.entering.elim named named.withEntering
  let exiting := s.exiting.elim entering entering.withExiting
  let changed := s.changed.elim exiting exiting.withChanged
  s.bindings.foldl (fun d b => d.withTransition b.action b.target) changed

private theorem foldl_withTransition (bindings : List Binding) (d : Draft) :
    bindings.foldl (fun d b => d.withTransition b.action b.target) d =
      { d with transitions := d.transitions ++ bindings.map fun b => (b.action, b.target) } := by
  induction bindings generalizing d with
  | nil => simp
  | cons b rest ih => rw [List.foldl_cons, ih]; simp [Draft.withTransition]

theorem draft_eq (s : Definition) :
    s.draft = ⟨s.name, s.entering, s.exiting, s.changed, s.bindings.map fun b => (b.action, b.target)⟩ := by
  rw [draft, foldl_withTransition]
  cases s.entering <;> cases s.exiting <;> cases s.changed <;> rfl

/-- The draft of a definition makes the state that the definition declares. -/
theorem draft_state (s : Definition) : s.draft.state = s.state := by
  rw [draft_eq]
  rfl

end Definition

namespace Description

/-- The assembly of the drafts of all definitions, in their order. -/
def assembly (d : Description) : Assembly :=
  d.states.foldl (fun a s => a.addDraft s.draft) (Assembly.empty.withInitial d.initial)

theorem assembly_eq (d : Description) : d.assembly = ⟨some d.initial, d.states.map Definition.state⟩ := by
  have hfold : ∀ (definitions : List Definition) (a : Assembly),
      definitions.foldl (fun a s => a.addDraft s.draft) a = a.add (definitions.map Definition.state) := by
    intro definitions
    induction definitions with
    | nil => intro a; simp [Assembly.add]
    | cons s rest ih =>
      intro a
      rw [List.foldl_cons, ih]
      simp [Assembly.addDraft, Assembly.add, Definition.draft_state]
  rw [assembly, hfold]
  rfl

/-! ### What is refused -/

theorem map_name_firstRepeated? (seen : List String) (states : List State) :
    (Assembly.firstRepeated? seen states).map (·.name) = (repeats seen (states.map (·.name))).head? := by
  induction states generalizing seen with
  | nil => rfl
  | cons s rest ih =>
    rw [Assembly.firstRepeated?, List.map_cons, repeats]
    split
    · rfl
    · exact ih (s.name :: seen)

theorem filterMap_duplicate?_violations (d : Description) :
    d.violations.filterMap Violation.duplicate? = repeats [] (d.states.map (·.name)) := by
  have hinitial : d.initialViolations.filterMap Violation.duplicate? = [] := by
    unfold initialViolations
    split <;> rfl
  have htargets : d.targetViolations.filterMap Violation.duplicate? = [] := by
    rw [List.filterMap_eq_nil_iff]
    intro v hv
    obtain ⟨s, -, hv⟩ := List.mem_flatMap.1 hv
    obtain ⟨b, -, rfl⟩ := List.mem_map.1 hv
    rfl
  have hduplicates : d.duplicateViolations.filterMap Violation.duplicate? = repeats [] (d.states.map (·.name)) := by
    rw [duplicateViolations, List.filterMap_map]
    exact List.filterMap_some
  rw [violations, List.filterMap_append, List.filterMap_append, hinitial, htargets, hduplicates, List.nil_append,
    List.append_nil]

theorem findSome?_duplicate?_violations (d : Description) :
    d.violations.findSome? Violation.duplicate? = (repeats [] (d.states.map (·.name))).head? := by
  rw [← filterMap_duplicate?_violations, List.head?_filterMap]

theorem duplicateState_mem_violations {d : Description} {name : String} :
    .duplicateState name ∈ d.violations ↔ name ∈ repeats [] (d.states.map (·.name)) := by
  rw [← filterMap_duplicate?_violations, List.mem_filterMap]
  constructor
  · exact fun h => ⟨_, h, rfl⟩
  · rintro ⟨v, hv, hname⟩
    cases v with
    | duplicateState other => cases hname; exact hv
    | unknownInitial _ | danglingTarget _ _ _ => cases hname

theorem unknownInitial_mem_violations {d : Description} {name : String} :
    .unknownInitial name ∈ d.violations ↔ d.defines d.initial = false ∧ name = d.initial := by
  have hduplicates : .unknownInitial name ∉ d.duplicateViolations := by
    simp [duplicateViolations]
  have htargets : .unknownInitial name ∉ d.targetViolations := by
    simp [targetViolations]
  simp only [violations, List.mem_append, hduplicates, htargets, or_false, initialViolations]
  cases d.defines d.initial <;> simp

/-- What comes of an assembly, told by the names that are repeated. -/
theorem build_assembly_eq (d : Description) (flag : FlagId) :
    d.assembly.build flag =
      match (repeats [] (d.states.map (·.name))).head? with
      | some name => .error (.duplicateState name)
      | none =>
        if d.defines d.initial then
          .ok (Machine.registerAll (fun s => decide (d.initial = s.name)) (d.states.map Definition.state) (.empty flag))
        else .error (.unknownInitial d.initial) := by
  have hnames : d.states.map (·.name) = (d.states.map Definition.state).map (·.name) := by
    simp [Function.comp_def]
  have hdefined : (d.states.map Definition.state).any (fun s => decide (s.name = d.initial)) = d.defines d.initial := by
    simp [defines, Function.comp_def]
  have hflag : (fun s : State => decide (s.name = d.initial)) = fun s => decide (d.initial = s.name) := by
    funext s
    exact decide_eq_decide.2 eq_comm
  rw [hnames, ← map_name_firstRepeated?, assembly_eq]
  simp only [Assembly.build, hdefined]
  cases Assembly.firstRepeated? [] (d.states.map Definition.state) with
  | some s => rfl
  | none => simp only [Option.map_none, hflag]

end Description

/-! ### What is made -/

/-- But for the cancel flag, machines that the same states are registered with come out alike. -/
theorem Machine.registerAll_withFlag (isInitial : State → Bool) (states : List State) (m : Machine) (flag : FlagId) :
    registerAll isInitial states { m with flag } = { registerAll isInitial states m with flag } := by
  induction states generalizing m with
  | nil => rfl
  | cons s rest ih =>
    have hfirst : (({ m with flag } : Machine).register s (isInitial s)).2 =
        { (m.register s (isInitial s)).2 with flag } := by
      unfold register
      simp only [isRegistered, state?]
      split
      · rfl
      · split <;> rfl
    rw [registerAll, registerAll, hfirst, ih]

namespace Description

/-- An assembly of the drafts of a description is built exactly if no violation is a repeated name or an undefined
initial state, whatever its targets are, and makes the machine that a loader makes which warns of violations: with the
same registry, started at the initial state.  Otherwise the first name that a violation says is repeated is refused, or
the initial state if there is none. -/
theorem build_assembly (d : Description) {l : Loader} (hl : l.Reachable d) (hstrategy : l.strategy = .ignoreAndWarn)
    (flag other : FlagId) :
    ((∃ m, d.assembly.build flag = .ok m) ↔
      (∀ name, .duplicateState name ∉ d.violations) ∧ ∀ name, .unknownInitial name ∉ d.violations) ∧
    (∀ m, d.assembly.build flag = .ok m →
      ∃ m', (l.inject other).1 = .ok m' ∧ m.states = m'.states ∧ m.initial = m'.initial ∧ m.current = m'.current ∧
        m.current = some d.initial ∧ m.detached = none ∧ m'.detached = none) ∧
    (∀ name, d.violations.findSome? Violation.duplicate? = some name →
      d.assembly.build flag = .error (.duplicateState name)) ∧
    (d.violations.findSome? Violation.duplicate? = none → (∃ name, .unknownInitial name ∈ d.violations) →
      d.assembly.build flag = .error (.unknownInitial d.initial)) := by
  have hinject := hl.inject_of_willing (by rw [hstrategy]; nofun) other
  rw [findSome?_duplicate?_violations, build_assembly_eq]
  simp only [duplicateState_mem_violations, unknownInitial_mem_violations]
  cases hrepeated : repeats [] (d.states.map (·.name)) with
  | cons name rest =>
    refine ⟨?_, nofun, ?_, nofun⟩
    · refine ⟨nofun, fun h => absurd ?_ (h.1 name)⟩
      simp
    · rintro other ⟨⟩
      rfl
  | nil =>
    cases hdefined : d.defines d.initial with
    | false =>
      refine ⟨?_, nofun, nofun, fun _ _ => rfl⟩
      refine ⟨nofun, fun h => absurd ?_ (h.2 d.initial)⟩
      simp
    | true =>
      refine ⟨?_, ?_, nofun, ?_⟩
      · simp
      · rintro m ⟨⟩
        refine ⟨_, hinject, ?_⟩
        have hflag := Machine.registerAll_withFlag (fun s => decide (d.initial = s.name))
          (d.states.map Definition.state) (.empty flag) other
        obtain ⟨s, hs, hname⟩ : ∃ s ∈ d.states, s.name = d.initial := by simpa [defines] using hdefined
        have hfounds : ∃ t ∈ d.states.map Definition.state, t.name = d.initial :=
          ⟨s.state, List.mem_map_of_mem hs, by rw [Definition.state_name, hname]⟩
        obtain ⟨-, hcurrent, hattached⟩ := Machine.registerAll_founds (m := .empty flag) rfl (by simp) hfounds
        have hempty : (Machine.empty other) = { Machine.empty flag with flag := other } := rfl
        rw [hempty, hflag]
        exact ⟨rfl, rfl, rfl, hcurrent, hattached, hattached⟩
      · rintro - ⟨name, hundefined, -⟩
        cases hundefined

/-- A door with a transition that leads nowhere is built as it is loaded, and of the two targets of `pull` the first
counts.  Of a door with two definitions of `open` and no definition of its initial state the repeated name is refused,
though the undefined state is the first violation. -/
theorem build_assembly_door :
    let door : Description := ⟨"closed",
      [⟨"open", none, none, none, some [⟨"pull", "ajar"⟩, ⟨"pull", "closed"⟩]⟩,
        ⟨"closed", none, some "unlock", none, some [⟨"push", "open"⟩]⟩]⟩
    let broken : Description := ⟨"shut", [⟨"open", none, none, none, none⟩, ⟨"open", none, none, none, some []⟩]⟩
    (door.violations = [.danglingTarget "open" "pull" "ajar"] ∧ (Loader.new door).Reachable door ∧
      (Loader.new door).strategy = .ignoreAndWarn ∧
      ∃ m m', door.assembly.build 0 = .ok m ∧ ((Loader.new door).inject 1).1 = .ok m' ∧ m.states = m'.states ∧
        m.current = some "closed" ∧ (m.state? "open").bind (·.target? "pull") = some "ajar" ∧
        (m'.state? "open").bind (·.target? "pull") = some "ajar") ∧
    broken.violations = [.unknownInitial "shut", .duplicateState "open"] ∧
      broken.assembly.build 0 = .error (.duplicateState "open") := by
  intro door broken
  have hdoor : door.violations = [.danglingTarget "open" "pull" "ajar"] := by decide
  have hbroken : broken.violations = [.unknownInitial "shut", .duplicateState "open"] := by decide
  obtain ⟨hbuilt, hsame, -, -⟩ := build_assembly door .new rfl 0 1
  obtain ⟨m, hm⟩ := hbuilt.2 (by rw [hdoor]; simp)
  obtain ⟨m', hm', hstates, -, -, hcurrent, -⟩ := hsame m hm
  have htarget : (door.assembly.build 0).toOption.bind (fun m => (m.state? "open").bind (·.target? "pull")) =
      some "ajar" := by decide
  rw [hm] at htarget
  have htarget' : (m'.state? "open").bind (·.target? "pull") = some "ajar" := by
    rw [Machine.state?, ← hstates]
    exact htarget
  obtain ⟨-, -, hrefused, -⟩ := build_assembly broken .new rfl 0 1
  refine ⟨⟨hdoor, .new, rfl, m, m', hm, hm', hstates, hcurrent, htarget, htarget'⟩, hbroken, hrefused "open" ?_⟩
  rw [hbroken]
  rfl

end Description

end VetoMachine
