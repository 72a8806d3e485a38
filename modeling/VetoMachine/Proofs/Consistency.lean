import VetoMachine.Proofs.Deeds
import VetoMachine.Proofs.Seats

/-!
# What can be relied on in every machine

The registry, the name of the current state, the detached state and the initial name of a machine that can come about
fit together (`Machine.Reachable.consistent`): in particular it is started exactly if it is in a state, the state it is
in has the name it keeps, and whatever is done to it, it stays started once it is.
-/

namespace VetoMachine.Machine

variable {m : Machine}

/-- The name that a machine keeps is the name of the state it is in. -/
theorem Sound.currentState_name (hm : m.Sound) : m.currentState.map (·.name) = m.current := by
  unfold currentState
  cases hd : m.detached with
  | some s => exact (hm.kept hd).symm
  | none =>
    cases hc : m.current with
    | none => rfl
    | some name =>
      obtain ⟨s, hs⟩ := hm.occupied hd hc
      simp [hs, hm.named hs]

/-- Nothing takes a machine out of all states. -/
theorem isInvariant_started : IsInvariant fun m => m.current ≠ none where
  register {m} hm s asInitial := by
    obtain ⟨-, h⟩ | ⟨-, -, -, h⟩ | ⟨-, -, h⟩ := m.register_cases s asInitial <;> rw [h]
    · exact hm
    · exact Option.some_ne_none _
    · exact hm
  remove hm name := by unfold remove; split <;> exact hm
  startAt hm name := by
    unfold startAt
    split
    · exact Option.some_ne_none _
    · exact hm
  edit hm name e := by rw [edit_current]; exact hm
  editCurrent hm e := by
    unfold editCurrent
    split
    · exact hm
    · split
      · rw [edit_current]; exact hm
      · exact hm
  commit _ _ _ _ := Option.some_ne_none _

/-- An invariant holds of all that a machine may become. -/
theorem IsInvariant.of_leads {P : Machine → Prop} (hP : IsInvariant P) (hm : P m) {m' : Machine}
    (hlater : Relation.ReflTransGen Leads m m') : P m' := by
  induction hlater with
  | refl => exact hm
  | tail _ hstep ih =>
    obtain ⟨M, L, publish, fuel, h, h', deed, a, hcall⟩ := hstep
    exact hP.undergo ih hcall

/-- In a machine that can come about every state is registered under its own name; the current name is that of the
detached state if there is one, and otherwise registered; and a machine with an initial state is started.  So it is
started exactly if it is in a state, whose name is the current one, and it stays started whatever is done to it. -/
theorem Reachable.consistent (hm : m.Reachable) :
    (∀ name s, m.state? name = some s → s.name = name) ∧
    (m.detached = none → ∀ name, m.current = some name → m.isRegistered name = true) ∧
    (∀ s, m.detached = some s → m.current = some s.name) ∧
    (m.initial ≠ none → m.isStarted = true) ∧
    (m.isStarted = true ↔ ∃ s, m.currentState = some s) ∧
    m.currentState.map (·.name) = m.current ∧
    (m.isStarted = true → ∀ m', Relation.ReflTransGen Leads m m' → m'.isStarted = true) := by
  have hs : m.Sound := hm.sound
  have hname : m.currentState.map (·.name) = m.current := hs.currentState_name
  refine ⟨fun _ _ => hs.named, ?_, fun _ => hs.kept, ?_, ?_, hname, ?_⟩
  · intro hd name hc
    exact isRegistered_iff.2 (hs.occupied hd hc)
  · intro hi
    exact Option.isSome_iff_ne_none.2 (hs.started hi)
  · rw [isStarted, ← hname, Option.isSome_map, Option.isSome_iff_exists]
  · intro hstarted m' hlater
    have hnow : m.current ≠ none := Option.isSome_iff_ne_none.1 hstarted
    exact Option.isSome_iff_ne_none.2 (isInvariant_started.of_leads hnow hlater)

/-- A door whose state `closed` is removed while it is closed, and registered anew, is still in the old state. -/
theorem consistent_door :
    let rehung := (((door.remove "closed").2).register (State.new "closed") true).2
    rehung.Reachable ∧ (∃ s, rehung.detached = some s ∧ s.exiting = some "unlock" ∧ rehung.current = some s.name) ∧
      rehung.state? "closed" = some (State.new "closed") ∧ rehung.isStarted = true ∧
      rehung.currentState.map (·.name) = some "closed" := by
  intro rehung
  have hreached : rehung.Reachable := (reachable_door.remove "closed").register (State.new "closed") true
  have hdetached : rehung.detached = some ((State.define { State.new "closed" with exiting := some "unlock" }
      "push" "open").2) := by decide
  have hinitial : rehung.initial ≠ none := by decide
  obtain ⟨-, -, hkept, hstarted, -, hname, -⟩ := hreached.consistent
  have hcurrent := hkept _ hdetached
  refine ⟨hreached, ⟨_, hdetached, rfl, hcurrent⟩, by decide, hstarted hinitial, ?_⟩
  rw [hname, hcurrent]
  rfl

end VetoMachine.Machine
