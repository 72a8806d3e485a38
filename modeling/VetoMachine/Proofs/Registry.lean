import VetoMachine.Assembly
import VetoMachine.Hub.Operation
import VetoMachine.Loader

/-!
# The registry of a machine

How the operations change what is registered under a name: a state is registered under a free name
(`Machine.state?_register`), removing frees a name (`Machine.state?_remove`), and an edit changes a state in its
place (`Machine.state?_edit`).
-/

namespace VetoMachine

namespace State

@[simp] theorem define_name (s : State) (action target : String) : (s.define action target).2.name = s.name := by
  unfold define; split <;> rfl

@[simp] theorem edit_name (s : State) (e : Edit) : (s.edit e).2.name = s.name := by
  cases e <;> simp [edit, undefine]

end State

namespace Machine

/-! ### Looking up a name -/

/-- Looking into the map of states is looking up a registered state. -/
@[simp] theorem getElem?_states (m : Machine) (name : String) : m.states[name]? = m.state? name := rfl

@[simp] theorem getElem?_states_insert (m : Machine) (s : State) (bound name : String) :
    (m.states.insert bound s)[name]? = if name = bound then some s else m.state? name := by
  simp [Std.ExtTreeMap.getElem?_insert, eq_comm (a := name)]

@[simp] theorem getElem?_states_erase (m : Machine) (erased name : String) :
    (m.states.erase erased)[name]? = if name = erased then none else m.state? name := by
  simp [Std.ExtTreeMap.getElem?_erase, eq_comm (a := name)]

@[simp] theorem state?_mk (flag : FlagId) (states : Std.ExtTreeMap String State) (initial current : Option String)
    (detached : Option State) (name : String) :
    (Machine.mk flag states initial current detached).state? name = states[name]? := rfl

@[simp] theorem state?_empty (flag : FlagId) (name : String) : (empty flag).state? name = none := by
  simp [empty]

theorem isRegistered_iff {m : Machine} {name : String} : m.isRegistered name = true ↔ ∃ s, m.state? name = some s :=
  Option.isSome_iff_exists

/-- A state is refused, becomes the initial state, or is just added. -/
theorem register_cases (m : Machine) (s : State) (asInitial : Bool) :
    ((∃ t, m.state? s.name = some t) ∧ m.register s asInitial = (false, m)) ∨
    (m.state? s.name = none ∧ asInitial = true ∧ m.initial = none ∧ m.register s asInitial =
      (true, ⟨m.flag, m.states.insert s.name s, some s.name, some s.name, none⟩)) ∨
    (m.state? s.name = none ∧ (asInitial = true → m.initial ≠ none) ∧ m.register s asInitial =
      (true, { m with states := m.states.insert s.name s })) := by
  unfold register
  cases hs : m.state? s.name with
  | some t => left; simp [isRegistered, hs]
  | none =>
    by_cases hfirst : asInitial = true ∧ m.initial = none
    · right; left; simp [isRegistered, hs, hfirst.1, hfirst.2]
    · right; right
      refine ⟨rfl, fun h hi => hfirst ⟨h, hi⟩, ?_⟩
      simp [isRegistered, hs, hfirst]

/-- A name is bound already, bound by the state registered, or free. -/
theorem state?_register (m : Machine) (s : State) (asInitial : Bool) (name : String) :
    (m.register s asInitial).2.state? name = (m.state? name).or (if name = s.name then some s else none) := by
  rcases m.register_cases s asInitial with ⟨⟨t, ht⟩, h⟩ | ⟨hs, -, -, h⟩ | ⟨hs, -, h⟩ <;> rw [h] <;>
    by_cases hname : name = s.name
  · subst hname; simp [ht]
  · simp [hname]
  · subst hname; simp [hs]
  · simp [hname]
  · subst hname; simp [hs]
  · simp [hname]

/-- Removing a name frees it. -/
theorem state?_remove (m : Machine) (removed name : String) :
    (m.remove removed).2.state? name = if name = removed then none else m.state? name := by
  unfold remove
  by_cases hname : name = removed
  · subst hname
    split <;> simp [*]
  · split <;> simp [hname]

/-- Editing a registered state changes it in its place. -/
theorem state?_edit (m : Machine) (edited : String) (e : State.Edit) (name : String) :
    (m.edit edited e).2.state? name =
      if name = edited then (m.state? name).map fun s => (s.edit e).2 else m.state? name := by
  unfold edit
  by_cases hname : name = edited
  · subst hname
    split <;> simp [*]
  · split <;> simp [hname]

@[simp] theorem edit_flag (m : Machine) (name : String) (e : State.Edit) : (m.edit name e).2.flag = m.flag := by
  unfold edit; split <;> rfl

@[simp] theorem edit_initial (m : Machine) (name : String) (e : State.Edit) :
    (m.edit name e).2.initial = m.initial := by
  unfold edit; split <;> rfl

@[simp] theorem edit_current (m : Machine) (name : String) (e : State.Edit) :
    (m.edit name e).2.current = m.current := by
  unfold edit; split <;> rfl

@[simp] theorem edit_detached (m : Machine) (name : String) (e : State.Edit) :
    (m.edit name e).2.detached = m.detached := by
  unfold edit; split <;> rfl

end Machine

end VetoMachine
