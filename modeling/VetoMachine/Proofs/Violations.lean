import Mathlib.Data.Finset.Card
import Mathlib.Data.Finset.Dedup
import Mathlib.Tactic.Push
import VetoMachine.Proofs.Assemblies
import VetoMachine.Proofs.SoundDescriptions

/-!
# What the violations of a description are

The violations are what single checks find, one check for the initial state, one for every name and one for every
transition, put together by anything that keeps all of them in order.  They are listed without reference to the names
seen on the way: a definition repeats a name if an earlier one has it (`Description.violations_exact`).
-/

namespace VetoMachine

variable {d : Description}

/-- The outcome of a check: all is well, or the violation that was found. -/
abbrev Check := Except Violation Unit

namespace Check

def found? : Check → Option Violation
  | .ok () => none
  | .error v => some v

/-- A way to put checks together that keeps what each of them finds, in order. -/
structure KeepsAll (all : List Check → Except (List Violation) Unit) : Prop where
  ok : ∀ checks, (∀ c ∈ checks, c = .ok ()) → all checks = .ok ()
  error : ∀ checks, (∃ c ∈ checks, c ≠ .ok ()) → all checks = .error (checks.filterMap found?)

theorem filterMap_found?_eq_nil_iff {checks : List Check} :
    checks.filterMap found? = [] ↔ ∀ c ∈ checks, c = .ok () := by
  rw [List.filterMap_eq_nil_iff]
  refine forall₂_congr fun c _ => ?_
  cases c <;> simp [found?]

theorem KeepsAll.eq {all : List Check → Except (List Violation) Unit} (hall : KeepsAll all) (checks : List Check) :
    all checks =
      if (checks.filterMap found?).isEmpty then .ok () else .error (checks.filterMap found?) := by
  split
  · rename_i hempty
    exact hall.ok checks (filterMap_found?_eq_nil_iff.1 (List.isEmpty_iff.1 hempty))
  · rename_i hfound
    refine hall.error checks ?_
    rw [List.isEmpty_iff, filterMap_found?_eq_nil_iff] at hfound
    push Not at hfound
    exact hfound

/-- Puts checks together one by one, from the last to the first. -/
def gather : List Check → Except (List Violation) Unit
  | [] => .ok ()
  | .ok () :: rest => gather rest
  | .error v :: rest =>
    match gather rest with
    | .ok () => .error [v]
    | .error vs => .error (v :: vs)

theorem keepsAll_gather : KeepsAll gather where
  ok checks hok := by
    induction checks with
    | nil => rfl
    | cons c rest ih =>
      cases hok c List.mem_cons_self
      exact ih fun c hc => hok c (List.mem_cons_of_mem _ hc)
  error checks herror := by
    have heq : ∀ checks : List Check, gather checks =
        if (checks.filterMap found?).isEmpty then .ok () else .error (checks.filterMap found?) := by
      intro checks
      induction checks with
      | nil => rfl
      | cons c rest ih =>
        cases c with
        | ok u => exact ih
        | error v =>
          rw [gather, ih]
          cases hrest : rest.filterMap found? <;> simp [found?, hrest]
    rw [heq, if_neg]
    rw [List.isEmpty_iff, filterMap_found?_eq_nil_iff]
    push Not
    exact herror

end Check

namespace Description

/-! ### The checks one by one -/

def initialCheck (d : Description) : Check :=
  if d.defines d.initial then .ok () else .error (.unknownInitial d.initial)

/-- A check for every name, whether it is among those seen so far. -/
def nameChecks (seen : List String) : List String → List Check
  | [] => []
  | name :: rest =>
    if name ∈ seen then .error (.duplicateState name) :: nameChecks seen rest
    else .ok () :: nameChecks (name :: seen) rest

/-- A check for every transition of every definition, whether its target is defined. -/
def targetChecks (d : Description) : List Check :=
  (d.states.flatMap fun s => s.bindings.map fun b => (s, b)).map fun p =>
    if d.defines p.2.target then .ok () else .error (.danglingTarget p.1.name p.2.action p.2.target)

def checks (d : Description) : List Check :=
  d.initialCheck :: (nameChecks [] (d.states.map (·.name)) ++ d.targetChecks)

theorem filterMap_nameChecks (seen names : List String) :
    (nameChecks seen names).filterMap Check.found? = (repeats seen names).map .duplicateState := by
  induction names generalizing seen with
  | nil => rfl
  | cons name rest ih =>
    rw [nameChecks, repeats]
    split
    · rw [List.map_cons, ← ih]
      rfl
    · rw [← ih]
      rfl

theorem filterMap_targetChecks (d : Description) :
    d.targetChecks.filterMap Check.found? = d.targetViolations := by
  rw [targetChecks, targetViolations, List.filterMap_map, List.filterMap_flatMap]
  refine List.flatMap_congr fun s _ => ?_
  rw [List.filterMap_map, ← List.filterMap_eq_filter, List.map_filterMap]
  refine List.filterMap_congr fun b _ => ?_
  cases hdefined : d.defines b.target <;> simp [Check.found?, hdefined]

/-- The violations are what the checks find. -/
theorem filterMap_checks (d : Description) : d.checks.filterMap Check.found? = d.violations := by
  have hinitial : (Check.found? d.initialCheck).toList = d.initialViolations := by
    unfold initialCheck initialViolations
    split <;> rfl
  rw [checks, violations, duplicateViolations, ← hinitial, ← filterMap_nameChecks, ← filterMap_targetChecks,
    List.append_assoc, ← List.filterMap_append]
  cases d.initialCheck <;> rfl

/-! ### Names that come again -/

/-- A name is among the repeats once for every place where it stands behind itself. -/
theorem repeats_eq {seen past : List String} (hseen : ∀ name, name ∈ seen ↔ name ∈ past) (names : List String) :
    repeats seen names =
      ((names.zipIdx past.length).filter fun p => p.1 ∈ (past ++ names).take p.2).map (·.1) := by
  induction names generalizing seen past with
  | nil => rfl
  | cons name rest ih =>
    have hfuture : past ++ name :: rest = past ++ [name] ++ rest := by simp
    have hlength : past.length + 1 = (past ++ [name]).length := by simp
    rw [repeats, List.zipIdx_cons, List.filter_cons, List.take_left, hfuture, hlength]
    by_cases hname : name ∈ past
    · have hsame : ∀ other, other ∈ seen ↔ other ∈ past ++ [name] := by
        intro other
        rw [hseen, List.mem_append, List.mem_singleton]
        exact ⟨.inl, fun h => h.elim id fun h => h ▸ hname⟩
      simp [hseen, hname, ih hsame]
    · have hgrown : ∀ other, other ∈ name :: seen ↔ other ∈ past ++ [name] := by
        intro other
        rw [List.mem_cons, hseen, List.mem_append, List.mem_singleton, or_comm]
      simp [hseen, hname, ih hgrown]

/-- What is repeated and what is new make up all names. -/
theorem length_repeats (seen names : List String) :
    (repeats seen names).length + (names.toFinset \ seen.toFinset).card = names.length := by
  induction names generalizing seen with
  | nil => simp [repeats]
  | cons name rest ih =>
    rw [repeats, List.toFinset_cons]
    split
    · rename_i hname
      rw [Finset.insert_sdiff_of_mem _ (List.mem_toFinset.2 hname), List.length_cons, List.length_cons, ← ih seen]
      omega
    · rename_i hname
      have hcard : (insert name rest.toFinset \ seen.toFinset).card =
          (rest.toFinset \ (name :: seen).toFinset).card + 1 := by
        have hnew : name ∉ rest.toFinset \ (name :: seen).toFinset := by simp
        rw [← Finset.card_insert_of_notMem hnew]
        congr 1
        ext other
        by_cases hother : other = name <;> simp [hother, hname]
      rw [hcard, List.length_cons, ← ih (name :: seen)]
      omega

/-! ### The list -/

private theorem map_filter_eq_flatMap {α β : Type} (l : List α) (p : α → Bool) (f : α → β) :
    (l.filter p).map f = l.flatMap fun x => if p x then [f x] else [] := by
  induction l with
  | nil => rfl
  | cons x rest ih => rw [List.filter_cons, List.flatMap_cons, ← ih]; split <;> rfl

theorem initialViolations_eq (d : Description) :
    d.initialViolations = if ∃ s ∈ d.states, s.name = d.initial then [] else [.unknownInitial d.initial] := by
  simp only [initialViolations, defines_iff]

theorem duplicateViolations_eq (d : Description) :
    d.duplicateViolations = d.states.zipIdx.flatMap fun (p : Definition × Nat) =>
      if ∃ s ∈ d.states.take p.2, s.name = p.1.name then [.duplicateState p.1.name] else [] := by
  have hnone : ∀ name, name ∈ ([] : List String) ↔ name ∈ ([] : List String) := fun _ => Iff.rfl
  have hrepeats := repeats_eq hnone (d.states.map (·.name))
  rw [duplicateViolations, hrepeats, List.nil_append, List.length_nil, List.zipIdx_map, List.filter_map, List.map_map,
    List.map_map, map_filter_eq_flatMap]
  refine List.flatMap_congr fun p _ => ?_
  have hearlier : p.1.name ∈ (d.states.map (·.name)).take p.2 ↔ ∃ s ∈ d.states.take p.2, s.name = p.1.name := by
    rw [← List.map_take, List.mem_map]
  simp [hearlier]

theorem targetViolations_eq (d : Description) :
    d.targetViolations = d.states.flatMap fun s => s.bindings.flatMap fun b =>
      if ∃ t ∈ d.states, t.name = b.target then [] else [.danglingTarget s.name b.action b.target] := by
  rw [targetViolations]
  refine List.flatMap_congr fun s _ => ?_
  rw [map_filter_eq_flatMap]
  refine List.flatMap_congr fun b _ => ?_
  rw [← ite_not]
  simp only [← defines_iff, Bool.not_eq_true', Bool.not_eq_false]

/-- The violations are, in this order: the initial state, if no definition has its name; every definition whose name an
earlier one has; every transition whose target no definition has.  Checks that are made one by one come to the same, a
description is sound exactly if there are none, and the definitions that repeat a name are as many as there are more
definitions than names. -/
theorem violations_exact {all : List Check → Except (List Violation) Unit} (hall : Check.KeepsAll all)
    (d : Description) :
    d.violations =
        (if ∃ s ∈ d.states, s.name = d.initial then [] else [.unknownInitial d.initial]) ++
          (d.states.zipIdx.flatMap fun (p : Definition × Nat) =>
            if ∃ s ∈ d.states.take p.2, s.name = p.1.name then [.duplicateState p.1.name] else []) ++
          (d.states.flatMap fun s => s.bindings.flatMap fun b =>
            if ∃ t ∈ d.states, t.name = b.target then [] else [.danglingTarget s.name b.action b.target]) ∧
      all d.checks = d.validate ∧
      (∀ vs, d.validate = .error vs ↔ vs = d.violations ∧ d.violations ≠ []) ∧
      (d.validate = .ok () ↔ d.violations = []) ∧
      (d.violations = [] ↔ (∃ s ∈ d.states, s.name = d.initial) ∧ (d.states.map (·.name)).Nodup ∧
        ∀ s ∈ d.states, ∀ b ∈ s.bindings, ∃ t ∈ d.states, t.name = b.target) ∧
      (d.violations.filterMap Violation.duplicate?).length + (d.states.map (·.name)).toFinset.card =
        d.states.length := by
  refine ⟨?_, ?_, fun vs => ?_, ?_, violations_eq_nil_iff, ?_⟩
  · rw [violations, initialViolations_eq, duplicateViolations_eq, targetViolations_eq]
  · rw [hall.eq, filterMap_checks, validate]
  · rw [validate]
    cases d.violations <;> simp [eq_comm]
  · rw [validate]
    cases d.violations <;> simp
  · have hlength := length_repeats [] (d.states.map (·.name))
    rwa [List.toFinset_nil, Finset.sdiff_empty, List.length_map, ← filterMap_duplicate?_violations] at hlength

/-- A door that is defined twice, starts at no definition, and has two transitions for one action to nowhere. -/
def botched : Description :=
  ⟨"ajar", [⟨"closed", none, none, none, some [⟨"open", "gone"⟩, ⟨"open", "away"⟩, ⟨"keep", "closed"⟩]⟩,
    ⟨"open", none, none, none, none⟩, ⟨"closed", none, none, none, some [⟨"open", "gone"⟩]⟩]⟩

theorem violations_exact_botched :
    Check.gather botched.checks = .error botched.violations ∧
      botched.violations = [.unknownInitial "ajar", .duplicateState "closed", .danglingTarget "closed" "open" "gone",
        .danglingTarget "closed" "open" "away", .danglingTarget "closed" "open" "gone"] := by
  obtain ⟨-, hchecks, hvalidate, -, -, -⟩ := violations_exact Check.keepsAll_gather botched
  have hviolations : botched.violations = [.unknownInitial "ajar", .duplicateState "closed",
      .danglingTarget "closed" "open" "gone", .danglingTarget "closed" "open" "away",
      .danglingTarget "closed" "open" "gone"] := by decide
  refine ⟨?_, hviolations⟩
  rw [hchecks, hvalidate]
  exact ⟨rfl, by rw [hviolations]; exact List.cons_ne_nil _ _⟩

end Description

end VetoMachine
