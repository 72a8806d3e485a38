import Mathlib.Data.List.Basic
import VetoMachine.Proofs.Populating
import VetoMachine.Proofs.Violations

/-!
# The order of definitions

Two descriptions that list the same definitions in different orders have the same violations, as many times each
(`Description.Reorders.violations`).  What a machine is made of is the first definition of every name
(`Machine.registerAll_resembles`), so the order does not matter as long as definitions that share a name stay in
their order, and in particular if no two do (`Description.order_irrelevant`).
-/

namespace VetoMachine

/-! ### Machines made alike -/

/-- Two machines have the same registry, the same initial state and the same current state; the cancel flag of each
is its own. -/
structure Machine.Resembles (m m' : Machine) : Prop where
  states : m.states = m'.states
  initial : m.initial = m'.initial
  current : m.current = m'.current
  detached : m.detached = m'.detached

/-- Two attempts to make a machine both fail, for corresponding reasons, or both make one, and these are alike. -/
inductive Machine.MadeAlike {ε : Type} (reasons : ε → ε → Prop) : Except ε Machine → Except ε Machine → Prop where
  | failed {e e' : ε} (h : reasons e e') : MadeAlike reasons (.error e) (.error e')
  | made {m m' : Machine} (h : m.Resembles m') : MadeAlike reasons (.ok m) (.ok m')

/-- The same violations are given as the reason, in whatever order. -/
def Rejection.Reorders (r r' : Rejection) : Prop := r.violations.Perm r'.violations

namespace Machine

variable {states states' : List State} {name : String}

/-- New machines are alike if the states registered with them have the same first state of every name. -/
theorem registerAll_resembles (hfirst : ∀ other, states.find? (·.name = other) = states'.find? (·.name = other))
    (name : String) (flag flag' : FlagId) :
    (registerAll (fun s => decide (name = s.name)) states (.empty flag)).Resembles
      (registerAll (fun s => decide (name = s.name)) states' (.empty flag')) := by
  have hstates : (registerAll (fun s => decide (name = s.name)) states (.empty flag)).states =
      (registerAll (fun s => decide (name = s.name)) states' (.empty flag')).states := by
    apply Std.ExtTreeMap.ext_getElem?
    intro other
    rw [getElem?_states, getElem?_states, state?_registerAll, state?_registerAll, state?_empty, state?_empty, hfirst]
  have hdefined : ∀ {list : List State}, (∃ s ∈ list, s.name = name) ↔ (list.find? (·.name = name)).isSome = true := by
    intro list
    simp [List.find?_isSome]
  by_cases hname : ∃ s ∈ states, s.name = name
  · have hname' : ∃ s ∈ states', s.name = name := by rwa [hdefined, ← hfirst, ← hdefined]
    obtain ⟨hinitial, hcurrent, hdetached⟩ := registerAll_founds (m := .empty flag) rfl (by simp) hname
    obtain ⟨hinitial', hcurrent', hdetached'⟩ := registerAll_founds (m := .empty flag') rfl (by simp) hname'
    exact ⟨hstates, by rw [hinitial, hinitial'], by rw [hcurrent, hcurrent'], by rw [hdetached, hdetached']⟩
  · have hname' : ¬ ∃ s ∈ states', s.name = name := by rwa [hdefined, ← hfirst, ← hdefined]
    push Not at hname hname'
    obtain ⟨hinitial, hcurrent, hdetached⟩ := registerAll_stays (m := .empty flag) (.inr hname)
    obtain ⟨hinitial', hcurrent', hdetached'⟩ := registerAll_stays (m := .empty flag') (.inr hname')
    exact ⟨by rw [hstates], by rw [hinitial, hinitial']; rfl, by rw [hcurrent, hcurrent']; rfl,
      by rw [hdetached, hdetached']; rfl⟩

end Machine

/-! ### Descriptions in another order -/

namespace Description

/-- Two descriptions have the same initial state and list the same definitions, in whatever order. -/
structure Reorders (d d' : Description) : Prop where
  initial : d.initial = d'.initial
  states : d.states.Perm d'.states

/-- Definitions that share a name are listed in the same order. -/
def KeepsNamesakes (d d' : Description) : Prop :=
  ∀ name, d.states.filter (·.name = name) = d'.states.filter (·.name = name)

variable {d d' : Description}

/-- A name is repeated as many times as it comes, the first time apart. -/
theorem count_repeats (seen names : List String) (name : String) :
    (repeats seen names).count name = names.count name - if name ∈ seen then 0 else 1 := by
  induction names generalizing seen with
  | nil => simp [repeats]
  | cons first rest ih =>
    rw [repeats]
    by_cases hsame : first = name
    · subst hsame
      by_cases hseen : first ∈ seen
      · simp [hseen, ih]
      · simp [hseen, ih]
    · have hmem : name ∈ first :: seen ↔ name ∈ seen := by simp [Ne.symm hsame]
      split
      · rw [List.count_cons_of_ne hsame, List.count_cons_of_ne hsame, ih]
      · simp only [ih, hmem, List.count_cons_of_ne hsame]

namespace Reorders

theorem defines (hd : d.Reorders d') (name : String) : d.defines name = d'.defines name := by
  rw [Bool.eq_iff_iff, defines_iff, defines_iff]
  simp only [hd.states.mem_iff]

/-- The same violations are found in any order, each as many times. -/
theorem violations (hd : d.Reorders d') : d.violations.Perm d'.violations := by
  have hinitial : d.initialViolations = d'.initialViolations := by
    rw [initialViolations, initialViolations, ← hd.initial, hd.defines]
  have hnames : (d.states.map (·.name)).Perm (d'.states.map (·.name)) := hd.states.map _
  have hduplicates : d.duplicateViolations.Perm d'.duplicateViolations := by
    refine List.Perm.map _ (List.perm_iff_count.2 fun name => ?_)
    rw [count_repeats, count_repeats, hnames.count_eq]
  have htargets : d.targetViolations.Perm d'.targetViolations := by
    unfold targetViolations
    simp only [hd.defines]
    exact hd.states.flatMap_right _
  rw [Description.violations, Description.violations, hinitial]
  exact (List.Perm.append_left _ hduplicates).append htargets

/-- If no two definitions share a name, those that do are trivially in the same order. -/
theorem keepsNamesakes (hd : d.Reorders d') (hnames : (d.states.map (·.name)).Nodup) : d.KeepsNamesakes d' := by
  intro name
  have hperm : (d.states.filter (·.name = name)).Perm (d'.states.filter (·.name = name)) := hd.states.filter _
  -- there is at most one definition of the name, and one definition has one order
  have hsame : ∀ s ∈ d.states.filter (·.name = name), s.name = name := fun s hs => by
    simpa using (List.mem_filter.1 hs).2
  have hnodup : ((d.states.filter (·.name = name)).map (·.name)).Nodup := hnames.sublist (List.filter_sublist.map _)
  cases hlist : d.states.filter (·.name = name) with
  | nil =>
    rw [hlist] at hperm
    exact hperm.nil_eq
  | cons s rest =>
    cases rest with
    | nil =>
      rw [hlist] at hperm
      exact List.singleton_perm.1 hperm
    | cons t rest =>
      rw [hlist] at hsame hnodup
      have hst : s.name = t.name := (hsame s (by simp)).trans (hsame t (by simp)).symm
      simp [hst] at hnodup

end Reorders

/-- The states of two descriptions have the same first state of every name. -/
theorem KeepsNamesakes.find?_eq (hd : d.KeepsNamesakes d') (name : String) :
    (d.states.map Definition.state).find? (·.name = name) = (d'.states.map Definition.state).find? (·.name = name) := by
  simp only [List.find?_map, Function.comp_def, Definition.state_name]
  rw [← List.head?_filter, ← List.head?_filter, hd name]

end Description

/-! ### Loading and assembling in another order -/

/-- A loader refuses a description that has violations, if it is to reject them and has not built the states yet; it
registers the states otherwise. -/
theorem Loader.Reachable.inject_cases {d : Description} {l : Loader} (hl : l.Reachable d) (flag : FlagId) :
    (l.built.isSome = false ∧ l.strategy = .reject ∧ d.violations ≠ [] ∧
      (l.inject flag).1 = .error ⟨d.violations⟩) ∨
    ((l.built.isSome = false → l.strategy = .reject → d.violations = []) ∧
      (l.inject flag).1 = .ok (Machine.registerAll (fun s => decide (d.initial = s.name))
        (d.states.map Definition.state) (.empty flag))) := by
  obtain ⟨hdescription, -⟩ := hl.built_eq
  obtain ⟨states, hbuilt, hload, -⟩ | ⟨hbuilt, hreject, hviolations, hload, -⟩ | ⟨hbuilt, hsound, hload, -⟩ :=
    l.load_cases
  · right
    obtain ⟨rfl, -⟩ := hl.load_of_ok (congrArg Prod.fst hload)
    refine ⟨by simp [hbuilt], ?_⟩
    simp only [inject, populate, hload, Except.map, isInitial, hdescription]
  · left
    rw [hdescription] at hviolations hload
    refine ⟨by simp [hbuilt], hreject, hviolations, ?_⟩
    simp only [inject, populate, hload, Except.map]
  · right
    rw [hdescription] at hsound hload
    refine ⟨fun _ => hsound, ?_⟩
    simp only [inject, populate, hload, Except.map, isInitial]

namespace Description

/-- Loaders that have been treated alike refuse both orders or make the same of them. -/
theorem KeepsNamesakes.inject (hnamesakes : d.KeepsNamesakes d') (hd : d.Reorders d') {l l' : Loader}
    (hl : l.Reachable d) (hl' : l'.Reachable d') (hstrategy : l.strategy = l'.strategy)
    (hbuilt : l.built.isSome = l'.built.isSome) (flag flag' : FlagId) :
    Machine.MadeAlike Rejection.Reorders (l.inject flag).1 (l'.inject flag').1 := by
  have hsound : d.violations = [] ↔ d'.violations = [] := by
    rw [← List.length_eq_zero_iff, ← List.length_eq_zero_iff, hd.violations.length_eq]
  obtain ⟨hunbuilt, hreject, hviolations, hresult⟩ | ⟨hwilling, hresult⟩ := hl.inject_cases flag <;>
    obtain ⟨hunbuilt', hreject', hviolations', hresult'⟩ | ⟨hwilling', hresult'⟩ := hl'.inject_cases flag' <;>
    rw [hresult, hresult']
  · exact .failed hd.violations
  · exact absurd (hsound.2 (hwilling' (hbuilt ▸ hunbuilt) (hstrategy ▸ hreject))) hviolations
  · exact absurd (hsound.1 (hwilling (hbuilt ▸ hunbuilt') (hstrategy ▸ hreject'))) hviolations'
  · rw [hd.initial]
    exact .made (Machine.registerAll_resembles hnamesakes.find?_eq _ flag flag')

/-- The order of definitions changes neither the violations nor, if no two definitions share a name, what loaders and
assemblies make of a description: each of them fails for both orders or makes the same machine of both, and the machines
of loaders are those of assemblies.  If names are repeated, loaders still make the same machine of any order that keeps
definitions of one name in theirs. -/
theorem order_irrelevant (hd : d.Reorders d') {l l' : Loader} (hl : l.Reachable d) (hl' : l'.Reachable d')
    (hstrategy : l.strategy = l'.strategy) (hbuilt : l.built.isSome = l'.built.isSome) (flag flag' : FlagId) :
    d.violations.Perm d'.violations ∧
    ((d.states.map (·.name)).Nodup →
      Machine.MadeAlike Rejection.Reorders (l.inject flag).1 (l'.inject flag').1 ∧
      Machine.MadeAlike (· = ·) (d.assembly.build flag) (d'.assembly.build flag') ∧
      ∀ m m', (l.inject flag).1 = .ok m → d'.assembly.build flag' = .ok m' → m.Resembles m') ∧
    (d.KeepsNamesakes d' → Machine.MadeAlike Rejection.Reorders (l.inject flag).1 (l'.inject flag').1) := by
  refine ⟨hd.violations, fun hnames => ?_, fun hnamesakes =>
    hnamesakes.inject hd hl hl' hstrategy hbuilt flag flag'⟩
  have hnamesakes : d.KeepsNamesakes d' := hd.keepsNamesakes hnames
  have halike := Machine.registerAll_resembles hnamesakes.find?_eq d.initial flag flag'
  have hbuild : ∀ {e : Description} (flag : FlagId), (e.states.map (·.name)).Nodup →
      e.assembly.build flag =
        if e.defines e.initial then
          .ok (Machine.registerAll (fun s => decide (e.initial = s.name)) (e.states.map Definition.state) (.empty flag))
        else .error (.unknownInitial e.initial) := by
    intro e flag hnames
    rw [build_assembly_eq, repeats_eq_nil_iff.2 ⟨hnames, fun _ _ => List.not_mem_nil⟩]
    rfl
  have hfirst := hbuild flag hnames
  have hsecond := hbuild flag' ((hd.states.map (·.name)).nodup_iff.1 hnames)
  rw [← hd.initial, ← hd.defines] at hsecond
  refine ⟨hnamesakes.inject hd hl hl' hstrategy hbuilt flag flag', ?_, ?_⟩
  · rw [hfirst, hsecond]
    split
    · exact .made halike
    · exact .failed rfl
  · intro m m' hm hm'
    obtain ⟨-, -, -, hrefused⟩ | ⟨-, hmade⟩ := hl.inject_cases flag
    · rw [hrefused] at hm
      cases hm
    · rw [hmade] at hm
      rw [hsecond] at hm'
      split at hm'
      · cases hm
        cases hm'
        exact halike
      · cases hm'

/-- A door listed in two orders is loaded and assembled alike, though it has a transition to nowhere in each state; with
one more definition of `open` it is still loaded alike, and refused alike if violations are to be rejected. -/
theorem order_irrelevant_door :
    let opened : Definition := ⟨"open", none, none, none, some [⟨"pull", "ajar"⟩]⟩
    let again : Definition := ⟨"open", some "creak", none, none, none⟩
    let closed : Definition := ⟨"closed", none, some "unlock", none, some [⟨"push", "open"⟩, ⟨"kick", "gone"⟩]⟩
    let door : Description := ⟨"closed", [opened, closed]⟩
    let turned : Description := ⟨"closed", [closed, opened]⟩
    let twice : Description := ⟨"closed", [opened, again, closed]⟩
    let turnedTwice : Description := ⟨"closed", [closed, opened, again]⟩
    (door.Reorders turned ∧ (door.states.map (·.name)).Nodup ∧ door.violations.Perm turned.violations ∧
      ∃ m m', ((Loader.new door).inject 0).1 = .ok m ∧ turned.assembly.build 1 = .ok m' ∧ m.Resembles m') ∧
    (twice.Reorders turnedTwice ∧ twice.KeepsNamesakes turnedTwice ∧
      Machine.MadeAlike Rejection.Reorders ((Loader.new twice).inject 0).1 ((Loader.new turnedTwice).inject 1).1 ∧
      Machine.MadeAlike Rejection.Reorders (((Loader.new twice).onViolation .reject).inject 0).1
        (((Loader.new turnedTwice).onViolation .reject).inject 1).1) := by
  intro opened again closed door turned twice turnedTwice
  have hdoor : door.Reorders turned := ⟨rfl, .swap _ _ _⟩
  have hnames : (door.states.map (·.name)).Nodup := by decide
  have htwice : twice.Reorders turnedTwice :=
    ⟨rfl, ((List.Perm.swap closed again []).cons opened).trans (.swap closed opened [again])⟩
  have hnamesakes : twice.KeepsNamesakes turnedTwice := by
    intro name
    by_cases hname : "closed" = name
    · subst hname
      decide
    · simp [twice, turnedTwice, closed, opened, again, List.filter_cons, hname]
  obtain ⟨hviolations, hmade, -⟩ := order_irrelevant hdoor .new .new rfl rfl 0 1
  obtain ⟨-, -, halike⟩ := hmade hnames
  obtain ⟨m, hm⟩ : ∃ m, ((Loader.new door).inject 0).1 = .ok m := ⟨_, rfl⟩
  obtain ⟨m', hm'⟩ : ∃ m', turned.assembly.build 1 = .ok m' := ⟨_, rfl⟩
  obtain ⟨-, -, hloaded⟩ := order_irrelevant htwice .new .new rfl rfl 0 1
  obtain ⟨-, -, hrefused⟩ :=
    order_irrelevant htwice (.onViolation .new .reject) (.onViolation .new .reject) rfl rfl 0 1
  exact ⟨⟨hdoor, hnames, hviolations, m, m', hm, hm', halike m m' hm hm'⟩,
    htwice, hnamesakes, hloaded hnamesakes, hrefused hnamesakes⟩

end Description

end VetoMachine
