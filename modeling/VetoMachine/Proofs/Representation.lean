import VetoMachine.Proofs.ObjectMachine
import VetoMachine.Proofs.Protocol

/-!
# Names and copies in place of pointers

A machine represents a machine of objects (`Machine.Represents`) if its registry shows the same states, its
initial and current names are the names of the objects pointed at, and its detached state is the current object
exactly when that object is not the one registered under its name.  Every operation keeps the representation and
gives the same answer, so the two machines cannot be told apart by any run.
-/

namespace VetoMachine

namespace ObjectMachine

/-- The name of the current object. -/
def currentName (r : ObjectMachine) : Option String := r.current.map fun i => (r.objects i).name

/-- The state of the current object, if the object is not registered under its name. -/
def detachedState (r : ObjectMachine) : Option State :=
  r.current.bind fun i => if r.registry (r.objects i).name = some i then none else some (r.objects i)

/-- The registry keeps objects under their names, and only objects in use are pointed at. -/
structure WellFormed (r : ObjectMachine) : Prop where
  named : ∀ {name i}, r.registry name = some i → (r.objects i).name = name
  registered_lt : ∀ {name i}, r.registry name = some i → i < r.nextObject
  initial_lt : ∀ {i}, r.initial = some i → i < r.nextObject
  current_lt : ∀ {i}, r.current = some i → i < r.nextObject

end ObjectMachine

namespace Machine

/-- The machine shows what the machine of objects shows, with names and a copy in place of pointers. -/
structure Represents (m : Machine) (r : ObjectMachine) : Prop where
  wellFormed : r.WellFormed
  flag : m.flag = r.flag
  state? : ∀ name, m.state? name = r.state? name
  initial : m.initial = r.initialName
  current : m.current = r.currentName
  detached : m.detached = r.detachedState

namespace Represents

variable {m : Machine} {r : ObjectMachine}

theorem empty (flag : FlagId) : (Machine.empty flag).Represents (.empty flag) where
  wellFormed := ⟨nofun, nofun, nofun, nofun⟩
  flag := rfl
  state? := by simp [ObjectMachine.state?, ObjectMachine.empty]
  initial := rfl
  current := rfl
  detached := rfl

theorem registry_eq_none (h : m.Represents r) {name : String} (hs : m.state? name = none) :
    r.registry name = none := by
  rw [h.state?, ObjectMachine.state?, Option.map_eq_none_iff] at hs
  exact hs

theorem registry_eq_some (h : m.Represents r) {name : String} {s : State} (hs : m.state? name = some s) :
    ∃ i, r.registry name = some i ∧ r.objects i = s ∧ s.name = name := by
  rw [h.state?, ObjectMachine.state?, Option.map_eq_some_iff] at hs
  obtain ⟨i, hi, rfl⟩ := hs
  exact ⟨i, hi, rfl, h.wellFormed.named hi⟩

theorem current_eq_none (h : m.Represents r) (hc : m.current = none) : r.current = none := by
  rw [h.current, ObjectMachine.currentName, Option.map_eq_none_iff] at hc
  exact hc

theorem current_eq_some (h : m.Represents r) {name : String} (hc : m.current = some name) :
    ∃ i, r.current = some i ∧ (r.objects i).name = name := by
  rw [h.current, ObjectMachine.currentName, Option.map_eq_some_iff] at hc
  exact hc

/-- Without a detached state the current object is registered under its name. -/
theorem registry_of_attached (h : m.Represents r) (hd : m.detached = none) {i : ObjectId}
    (hi : r.current = some i) : r.registry (r.objects i).name = some i := by
  have hdet := h.detached
  simp only [hd, ObjectMachine.detachedState, hi, Option.bind_some] at hdet
  by_contra hne
  simp [hne] at hdet

/-- A detached state is held by the current object, which is not registered. -/
theorem registry_of_detached (h : m.Represents r) {s : State} (hd : m.detached = some s) :
    ∃ i, r.current = some i ∧ r.objects i = s ∧ r.registry s.name ≠ some i := by
  have hdet := h.detached
  rw [hd, ObjectMachine.detachedState, eq_comm, Option.bind_eq_some_iff] at hdet
  obtain ⟨i, hi, hs⟩ := hdet
  by_cases hreg : r.registry (r.objects i).name = some i
  · simp [hreg] at hs
  · simp only [hreg, if_false, Option.some.injEq] at hs
    subst hs
    exact ⟨i, hi, rfl, hreg⟩

theorem currentState (h : m.Represents r) : m.currentState = r.currentState := by
  unfold Machine.currentState ObjectMachine.currentState
  cases hd : m.detached with
  | some s =>
    obtain ⟨i, hi, rfl, -⟩ := h.registry_of_detached hd
    simp [hi]
  | none =>
    cases hc : m.current with
    | none => simp [h.current_eq_none hc]
    | some name =>
      obtain ⟨i, hi, rfl⟩ := h.current_eq_some hc
      simp [hi, h.state?, ObjectMachine.state?, h.registry_of_attached hd hi]

end Represents

end Machine

namespace ObjectMachine

theorem detachedState_of_current {r : ObjectMachine} {i : ObjectId} (hi : r.current = some i) :
    r.detachedState = if r.registry (r.objects i).name = some i then none else some (r.objects i) := by
  rw [detachedState, hi, Option.bind_some]

theorem detachedState_of_none {r : ObjectMachine} (hc : r.current = none) : r.detachedState = none := by
  rw [detachedState, hc, Option.bind_none]

/-! ### Adding an object -/

theorem add_objects_of_lt (r : ObjectMachine) (s : State) {i : ObjectId} (hi : i < r.nextObject) :
    (r.add s).objects i = r.objects i := by
  simp [add, Nat.ne_of_lt hi]

theorem WellFormed.add {r : ObjectMachine} (h : r.WellFormed) (s : State) : (r.add s).WellFormed where
  named {name i} hi := by
    by_cases hname : name = s.name
    · subst hname
      obtain rfl : r.nextObject = i := by simpa [ObjectMachine.add] using hi
      simp [ObjectMachine.add]
    · have hi' : r.registry name = some i := by simpa [ObjectMachine.add, hname] using hi
      rw [r.add_objects_of_lt s (h.registered_lt hi'), h.named hi']
  registered_lt {name i} hi := by
    show i < r.nextObject + 1
    by_cases hname : name = s.name
    · subst hname
      obtain rfl : r.nextObject = i := by simpa [ObjectMachine.add] using hi
      exact Nat.lt_succ_self _
    · exact Nat.lt_succ_of_lt (h.registered_lt (by simpa [ObjectMachine.add, hname] using hi))
  initial_lt hi := Nat.lt_succ_of_lt (h.initial_lt hi)
  current_lt hi := Nat.lt_succ_of_lt (h.current_lt hi)

theorem WellFormed.add_state? {r : ObjectMachine} (h : r.WellFormed) (s : State) (name : String) :
    (r.add s).state? name = if name = s.name then some s else r.state? name := by
  by_cases hname : name = s.name
  · subst hname; simp [state?, ObjectMachine.add]
  · rw [if_neg hname, state?, state?, show (r.add s).registry name = r.registry name by
      simp [ObjectMachine.add, hname]]
    cases hi : r.registry name with
    | none => rfl
    | some i => simp [r.add_objects_of_lt s (h.registered_lt hi)]

theorem WellFormed.add_initialName {r : ObjectMachine} (h : r.WellFormed) (s : State) :
    (r.add s).initialName = r.initialName := by
  show r.initial.map _ = r.initial.map _
  cases hi : r.initial with
  | none => rfl
  | some i => simp [r.add_objects_of_lt s (h.initial_lt hi)]

theorem WellFormed.add_currentName {r : ObjectMachine} (h : r.WellFormed) (s : State) :
    (r.add s).currentName = r.currentName := by
  show r.current.map _ = r.current.map _
  cases hi : r.current with
  | none => rfl
  | some i => simp [r.add_objects_of_lt s (h.current_lt hi)]

/-- A new object under a free name does not attach the current one. -/
theorem WellFormed.add_detachedState {r : ObjectMachine} (h : r.WellFormed) {s : State}
    (hfree : r.registry s.name = none) : (r.add s).detachedState = r.detachedState := by
  cases hi : r.current with
  | none => rw [detachedState_of_none hi, detachedState_of_none (r := r.add s) hi]
  | some i =>
    have hlt := h.current_lt hi
    rw [detachedState_of_current hi, detachedState_of_current (r := r.add s) hi, r.add_objects_of_lt s hlt]
    by_cases hname : (r.objects i).name = s.name
    · have hne : r.nextObject ≠ i := Ne.symm (Nat.ne_of_lt hlt)
      simp [ObjectMachine.add, hname, hfree, hne]
    · simp [ObjectMachine.add, hname]

/-! ### Editing an object -/

@[simp] theorem editObject_name (r : ObjectMachine) (e : State.Edit) (o : Option ObjectId) (i : ObjectId) :
    ((r.editObject e o).2.objects i).name = (r.objects i).name := by
  cases o with
  | none => rfl
  | some j =>
    by_cases hij : i = j
    · subst hij; simp [editObject]
    · simp [editObject, hij]

@[simp] theorem editObject_registry (r : ObjectMachine) (e : State.Edit) (o : Option ObjectId) :
    (r.editObject e o).2.registry = r.registry := by
  cases o <;> rfl

@[simp] theorem editObject_initial (r : ObjectMachine) (e : State.Edit) (o : Option ObjectId) :
    (r.editObject e o).2.initial = r.initial := by
  cases o <;> rfl

@[simp] theorem editObject_current (r : ObjectMachine) (e : State.Edit) (o : Option ObjectId) :
    (r.editObject e o).2.current = r.current := by
  cases o <;> rfl

@[simp] theorem editObject_initialName (r : ObjectMachine) (e : State.Edit) (o : Option ObjectId) :
    (r.editObject e o).2.initialName = r.initialName := by
  simp [initialName]

@[simp] theorem editObject_currentName (r : ObjectMachine) (e : State.Edit) (o : Option ObjectId) :
    (r.editObject e o).2.currentName = r.currentName := by
  simp [currentName]

@[simp] theorem editObject_flag (r : ObjectMachine) (e : State.Edit) (o : Option ObjectId) :
    (r.editObject e o).2.flag = r.flag := by
  cases o <;> rfl

theorem editObject_objects_of_ne (r : ObjectMachine) (e : State.Edit) {i j : ObjectId} (h : j ≠ i) :
    (r.editObject e (some i)).2.objects j = r.objects j := by
  simp [editObject, h]

theorem WellFormed.editObject {r : ObjectMachine} (h : r.WellFormed) (e : State.Edit) (o : Option ObjectId) :
    (r.editObject e o).2.WellFormed where
  named hi := by
    rw [editObject_name]
    exact h.named (by simpa using hi)
  registered_lt hi := by
    have := h.registered_lt (by simpa using hi)
    cases o <;> exact this
  initial_lt hi := by
    have := h.initial_lt (by simpa using hi)
    cases o <;> exact this
  current_lt hi := by
    have := h.current_lt (by simpa using hi)
    cases o <;> exact this

/-- An object that is not registered under its name can be edited behind the back of the registry. -/
theorem WellFormed.editObject_state? {r : ObjectMachine} (h : r.WellFormed) (e : State.Edit) {i : ObjectId}
    (hi : r.registry (r.objects i).name ≠ some i) (name : String) :
    (r.editObject e (some i)).2.state? name = r.state? name := by
  rw [state?, state?, editObject_registry]
  cases hj : r.registry name with
  | none => rfl
  | some j =>
    have hji : j ≠ i := by
      rintro rfl
      rw [h.named hj] at hi
      exact hi hj
    simp [editObject_objects_of_ne r e hji]

/-- Editing a registered object does not change what is detached. -/
theorem editObject_detachedState {r : ObjectMachine} (e : State.Edit) {i : ObjectId}
    (hi : r.registry (r.objects i).name = some i) :
    (r.editObject e (some i)).2.detachedState = r.detachedState := by
  unfold detachedState
  rw [editObject_current]
  cases r.current with
  | none => rfl
  | some c =>
    by_cases hci : c = i
    · subst hci; simp [hi]
    · simp [editObject_objects_of_ne r e hci]

end ObjectMachine

namespace Machine.Represents

variable {m : Machine} {r : ObjectMachine}

theorem edit (h : m.Represents r) (name : String) (e : State.Edit) :
    (m.edit name e).1 = (r.edit name e).1 ∧ (m.edit name e).2.Represents (r.edit name e).2 := by
  cases hs : m.state? name with
  | none =>
    have hm : m.edit name e = (none, m) := by simp [Machine.edit, hs]
    have hr : r.edit name e = (none, r) := by
      simp [ObjectMachine.edit, ObjectMachine.editObject, h.registry_eq_none hs]
    rw [hm, hr]
    exact ⟨rfl, h⟩
  | some s =>
    obtain ⟨i, hi, rfl, hname⟩ := h.registry_eq_some hs
    have hreg : r.registry (r.objects i).name = some i := by rw [hname, hi]
    rw [show r.edit name e = r.editObject e (some i) by rw [ObjectMachine.edit, hi]]
    refine ⟨by simp [Machine.edit, hs, ObjectMachine.editObject], ?_⟩
    constructor
    · exact h.wellFormed.editObject e _
    · simp [h.flag]
    · intro other
      rw [state?_edit]
      by_cases hother : other = name
      · subst hother
        simp [hs, ObjectMachine.state?, ObjectMachine.editObject, hi]
      · rw [if_neg hother, h.state?, ObjectMachine.state?, ObjectMachine.state?, ObjectMachine.editObject_registry]
        cases hj : r.registry other with
        | none => rfl
        | some j =>
          have hji : j ≠ i := by
            rintro rfl
            exact hother ((h.wellFormed.named hj).symm.trans hname)
          simp [ObjectMachine.editObject_objects_of_ne r e hji]
    · simp [h.initial]
    · simp [h.current]
    · rw [edit_detached, ObjectMachine.editObject_detachedState e hreg, h.detached]

theorem editCurrent (h : m.Represents r) (e : State.Edit) :
    (m.editCurrent e).1 = (r.editCurrent e).1 ∧ (m.editCurrent e).2.Represents (r.editCurrent e).2 := by
  cases hd : m.detached with
  | some s =>
    obtain ⟨i, hi, rfl, hreg⟩ := h.registry_of_detached hd
    rw [show r.editCurrent e = r.editObject e (some i) by rw [ObjectMachine.editCurrent, hi]]
    refine ⟨by simp [Machine.editCurrent, hd, ObjectMachine.editObject], ?_⟩
    simp only [Machine.editCurrent, hd]
    constructor
    · exact h.wellFormed.editObject e _
    · simp [h.flag]
    · intro name
      rw [h.wellFormed.editObject_state? e hreg]
      exact h.state? name
    · simp [h.initial]
    · simp [h.current]
    · simp [ObjectMachine.detachedState, hi, hreg, ObjectMachine.editObject]
  | none =>
    cases hc : m.current with
    | none =>
      have hm : m.editCurrent e = (none, m) := by simp [Machine.editCurrent, hd, hc]
      have hr : r.editCurrent e = (none, r) := by
        simp [ObjectMachine.editCurrent, ObjectMachine.editObject, h.current_eq_none hc]
      rw [hm, hr]
      exact ⟨rfl, h⟩
    | some name =>
      -- the current object is the registered one, so this is an edit of the registry
      obtain ⟨i, hi, rfl⟩ := h.current_eq_some hc
      have hm : m.editCurrent e = m.edit (r.objects i).name e := by simp [Machine.editCurrent, hd, hc]
      have hr : r.editCurrent e = r.edit (r.objects i).name e := by
        rw [ObjectMachine.editCurrent, ObjectMachine.edit, hi, h.registry_of_attached hd hi]
      rw [hm, hr]
      exact h.edit _ e

/-! ### Registering, removing and starting -/

theorem registerWarnings (h : m.Represents r) (s : State) (asInitial : Bool) :
    m.registerWarnings s asInitial = r.registerWarnings s asInitial := by
  unfold Machine.registerWarnings ObjectMachine.registerWarnings
  rw [h.initial]
  have hreg : (!m.isRegistered s.name) = (r.registry s.name).isNone := by
    simp [isRegistered, h.state?, ObjectMachine.state?]
  cases r.initialName <;> simp [hreg]

theorem register (h : m.Represents r) (s : State) (asInitial : Bool) :
    (m.register s asInitial).1 = (r.register s asInitial).1 ∧
      (m.register s asInitial).2.Represents (r.register s asInitial).2 := by
  have hwf := h.wellFormed.add s
  have hstates : ∀ name, (m.states.insert s.name s)[name]? = (r.add s).state? name := by
    intro name
    rw [h.wellFormed.add_state?, ← h.state?, getElem?_states_insert]
  rcases m.register_cases s asInitial with ⟨⟨t, ht⟩, hm⟩ | ⟨hs, rfl, hinit, hm⟩ | ⟨hs, hinit, hm⟩
  · obtain ⟨i, hi, -, -⟩ := h.registry_eq_some ht
    rw [hm, show r.register s asInitial = (false, r) by simp [ObjectMachine.register, hi]]
    exact ⟨rfl, h⟩
  · -- the new object is initial and current, and registered: nothing stays detached
    have hrinit : r.initial = none := by simpa [hinit, ObjectMachine.initialName] using h.initial.symm
    rw [hm, show r.register s true =
        (true, { r.add s with initial := some r.nextObject, current := some r.nextObject }) by
      simp [ObjectMachine.register, h.registry_eq_none hs, hrinit]]
    have hnew : r.nextObject < (r.add s).nextObject := Nat.lt_succ_self _
    refine ⟨rfl, ⟨hwf.named, hwf.registered_lt, ?_, ?_⟩, h.flag, hstates, ?_, ?_, ?_⟩
    · rintro _ ⟨rfl⟩; exact hnew
    · rintro _ ⟨rfl⟩; exact hnew
    · simp [ObjectMachine.initialName, ObjectMachine.add]
    · simp [ObjectMachine.currentName, ObjectMachine.add]
    · simp [ObjectMachine.detachedState, ObjectMachine.add]
  · have hr : r.register s asInitial = (true, r.add s) := by
      have hrinit : asInitial = true → r.initial ≠ none := by
        intro hb hi
        exact hinit hb (by rw [h.initial, ObjectMachine.initialName, hi, Option.map_none])
      cases asInitial with
      | false => simp [ObjectMachine.register, h.registry_eq_none hs]
      | true => simp [ObjectMachine.register, h.registry_eq_none hs, hrinit rfl]
    rw [hm, hr]
    refine ⟨rfl, hwf, h.flag, hstates, ?_, ?_, ?_⟩
    · rw [h.wellFormed.add_initialName]; exact h.initial
    · rw [h.wellFormed.add_currentName]; exact h.current
    · rw [h.wellFormed.add_detachedState (h.registry_eq_none hs)]; exact h.detached

/-- The removed state is kept as a copy exactly when its object was the current one. -/
private theorem remove_detached (h : m.Represents r) {name : String} {s : State} (hs : m.state? name = some s) :
    (if m.detached.isNone && m.current == some name then some s else m.detached) =
      (r.remove name).2.detachedState := by
  obtain ⟨i, hi, rfl, hname⟩ := h.registry_eq_some hs
  cases hc : r.current with
  | none =>
    have hm : m.current = none := by rw [h.current, ObjectMachine.currentName, hc]; rfl
    rw [ObjectMachine.detachedState_of_none (r := (r.remove name).2) hc, h.detached,
      ObjectMachine.detachedState_of_none hc]
    simp [hm]
  | some c =>
    have hm : m.current = some (r.objects c).name := by rw [h.current, ObjectMachine.currentName, hc]; rfl
    rw [ObjectMachine.detachedState_of_current (r := (r.remove name).2) hc, h.detached,
      ObjectMachine.detachedState_of_current hc, hm]
    by_cases hcname : (r.objects c).name = name
    · by_cases hci : c = i
      · subst hci; simp [ObjectMachine.remove, hcname, hi]
      · have hne : ¬ i = c := Ne.symm hci
        simp [ObjectMachine.remove, hcname, hi, hne]
    · simp [ObjectMachine.remove, hcname]

theorem remove (h : m.Represents r) (name : String) :
    (m.remove name).1 = (r.remove name).1 ∧ (m.remove name).2.Represents (r.remove name).2 := by
  have hstates : ∀ other, (m.remove name).2.state? other = (r.remove name).2.state? other := by
    intro other
    rw [state?_remove]
    by_cases hother : other = name
    · subst hother; simp [ObjectMachine.remove, ObjectMachine.state?]
    · simp [ObjectMachine.remove, ObjectMachine.state?, hother, h.state?]
  have hwf : (r.remove name).2.WellFormed := by
    have hof : ∀ {other i}, Function.update r.registry name none other = some i → r.registry other = some i := by
      intro other i hi
      by_cases hother : other = name
      · subst hother; simp at hi
      · simpa [hother] using hi
    exact ⟨fun hi => h.wellFormed.named (hof hi), fun hi => h.wellFormed.registered_lt (hof hi),
      h.wellFormed.initial_lt, h.wellFormed.current_lt⟩
  cases hs : m.state? name with
  | none =>
    have hm : m.remove name = (none, m) := by simp [Machine.remove, hs]
    have hr : (r.remove name).2 = r := by
      simp [ObjectMachine.remove, ← h.registry_eq_none hs, Function.update_eq_self]
    refine ⟨?_, ?_⟩
    · rw [hm]; simp [ObjectMachine.remove, ← h.state?, hs]
    · rw [hm, hr]; exact h
  | some s =>
    refine ⟨?_, ?_⟩
    · simp [Machine.remove, hs, ObjectMachine.remove, ← h.state?]
    · refine ⟨hwf, ?_, hstates, ?_, ?_, ?_⟩
      · simp only [Machine.remove, hs]; exact h.flag
      · simp only [Machine.remove, hs]; exact h.initial
      · simp only [Machine.remove, hs]; exact h.current
      · simp only [Machine.remove, hs]
        exact h.remove_detached hs

theorem startWarnings (h : m.Represents r) (name : String) : m.startWarnings name = r.startWarnings name := by
  unfold Machine.startWarnings ObjectMachine.startWarnings
  rw [h.current]
  have hreg : m.isRegistered name = (r.registry name).isSome := by
    simp [isRegistered, h.state?, ObjectMachine.state?]
  rw [hreg]
  unfold ObjectMachine.currentName ObjectMachine.currentState
  cases r.current <;> cases r.registry name <;> rfl

/-- A commit to the object registered under a name is a commit to the name. -/
theorem commit (h : m.Represents r) {name : String} {i : ObjectId} (hi : r.registry name = some i) :
    (m.commit name).Represents { r with current := some i } where
  wellFormed := ⟨h.wellFormed.named, h.wellFormed.registered_lt, h.wellFormed.initial_lt, by
    rintro _ ⟨rfl⟩
    exact h.wellFormed.registered_lt hi⟩
  flag := h.flag
  state? := h.state?
  initial := h.initial
  current := by simp [Machine.commit, ObjectMachine.currentName, h.wellFormed.named hi]
  detached := by simp [Machine.commit, ObjectMachine.detachedState, h.wellFormed.named hi, hi]

theorem startAt (h : m.Represents r) (name : String) :
    (m.startAt name).1 = (r.startAt name).1 ∧ (m.startAt name).2.Represents (r.startAt name).2 := by
  cases hc : m.current with
  | some other =>
    obtain ⟨i, hi, -⟩ := h.current_eq_some hc
    rw [show m.startAt name = (false, m) by simp [Machine.startAt, hc],
      show r.startAt name = (false, r) by simp [ObjectMachine.startAt, hi]]
    exact ⟨rfl, h⟩
  | none =>
    have hrc := h.current_eq_none hc
    cases hs : m.state? name with
    | none =>
      rw [show m.startAt name = (false, m) by simp [Machine.startAt, isRegistered, hs],
        show r.startAt name = (false, r) by simp [ObjectMachine.startAt, h.registry_eq_none hs]]
      exact ⟨rfl, h⟩
    | some s =>
      obtain ⟨i, hi, -, -⟩ := h.registry_eq_some hs
      -- a machine without a current state has no detached one, so starting is a commit
      have hd : m.detached = none := by rw [h.detached, ObjectMachine.detachedState, hrc]; rfl
      have hm : m.startAt name = (true, m.commit name) := by
        simp [Machine.startAt, isRegistered, hs, hc, Machine.commit, hd]
      rw [hm, show r.startAt name = (true, { r with current := some i }) by simp [ObjectMachine.startAt, hrc, hi]]
      exact ⟨rfl, h.commit hi⟩

/-! ### The protocol -/

/-- Both machines give the same answer, leave the same hub and represent one another afterwards. -/
def Agree {α M L : Type} (x : α × Machine × Hub M L) (y : α × ObjectMachine × Hub M L) : Prop :=
  x.1 = y.1 ∧ x.2.1.Represents y.2.1 ∧ x.2.2 = y.2.2

variable {M L : Type}

private theorem publishIfAny_map (publish : Publisher M L) (event : Option String) (body : Json)
    (kind : Option String) (k : Hub M L) :
    k.publishIfAny publish (event.map fun name => ⟨name, body, kind⟩) =
      ObjectMachine.announce publish event body kind k := by
  cases event <;> rfl

/-- What the protocol needs to know is the same for both machines. -/
private theorem passage?_eq (h : m.Represents r) {target : String} {i : ObjectId} (hi : r.registry target = some i) :
    m.passage? target = some ⟨r.currentState.map (·.name), r.currentState.bind (·.exiting), r.objects i,
      (r.objects i).toJson⟩ := by
  have hs : m.state? target = some (r.objects i) := by rw [h.state?, ObjectMachine.state?, hi, Option.map_some]
  have hreport : (m.commit (r.objects i).name).report = (r.objects i).toJson := by
    rw [h.wellFormed.named hi, report, (h.commit hi).currentState]
    rfl
  simp [passage?, passageTo, hs, h.currentState, hreport]

/-- Both machines run the protocol alike, whatever the listeners do. -/
theorem transition (h : m.Represents r) (publish : Publisher M L) (target : String) (payload : Json)
    (k : Hub M L) :
    Option.Rel Agree (m.transition publish target payload k) (r.moveTo publish target payload k) := by
  cases hs : m.state? target with
  | none =>
    simp only [Machine.transition, passage?, hs, ObjectMachine.moveTo, h.registry_eq_none hs, Option.map_none]
    exact .some ⟨rfl, h, rfl⟩
  | some s =>
    obtain ⟨i, hi, rfl, hname⟩ := h.registry_eq_some hs
    simp only [Machine.transition, h.passage?_eq hi, Passage.run, ObjectMachine.moveTo, hi, h.flag, hname,
      Passage.exitNote, Passage.enterNote, Passage.changedNote, Passage.changeNote, publishIfAny_map, Hub.take]
    cases ObjectMachine.announce publish (r.currentState.bind (·.exiting)) payload (some target)
        (k.lower r.flag) with
    | none => exact .none
    | some k₁ =>
      -- a flag that is not raised need not be lowered, which is where the two protocols differ
      cases hexit : k₁.isRaised r.flag with
      | true =>
        simp only [Option.bind_eq_bind, Option.bind_some, hexit]
        exact .some ⟨rfl, h, rfl⟩
      | false =>
        simp only [Option.bind_eq_bind, Option.bind_some, hexit, Hub.lower_eq_self hexit]
        cases ObjectMachine.announce publish (r.objects i).entering payload none k₁ with
        | none => exact .none
        | some k₂ =>
          cases henter : k₂.isRaised r.flag with
          | true =>
            simp only [Option.bind_some, henter]
            exact .some ⟨rfl, h, rfl⟩
          | false =>
            simp only [Option.bind_some, henter, Hub.lower_eq_self henter]
            cases ObjectMachine.announce publish (r.objects i).changed payload none k₂ with
            | none => exact .none
            | some k₃ =>
              simp only [Option.bind_some]
              cases publish ⟨Notification.changedName, (r.objects i).toJson, some target⟩ k₃ with
              | none => exact .none
              | some k₄ => exact .some ⟨rfl, h.commit hi, rfl⟩

theorem handleAction (h : m.Represents r) (publish : Publisher M L) (action : String) (payload : Json)
    (k : Hub M L) :
    Option.Rel Agree (m.handleAction publish action payload k) (r.handleAction publish action payload k) := by
  have hcur := h.currentState
  unfold Machine.handleAction ObjectMachine.handleAction boundTarget? actionWarnings
  rw [← hcur]
  cases m.currentState with
  | none => exact .some ⟨rfl, h, rfl⟩
  | some s =>
    simp only [Option.bind_some]
    cases htarget : s.target? action with
    | none => exact .some ⟨rfl, h, rfl⟩
    | some target =>
      cases hs : m.state? target with
      | none =>
        simp only [isRegistered, hs, h.registry_eq_none hs]
        exact .some ⟨rfl, h, rfl⟩
      | some t =>
        obtain ⟨i, hi, -, -⟩ := h.registry_eq_some hs
        simp only [isRegistered, hs, hi]
        exact h.transition publish target payload k

theorem handleNotification (h : m.Represents r) (publish : Publisher M L) (n : Notification) (k : Hub M L) :
    Option.Rel Agree (m.handleNotification publish n k) (r.handleNotification publish n k) := by
  unfold Machine.handleNotification ObjectMachine.handleNotification
  split
  · cases n.kind with
    | some action => exact h.handleAction publish action n.body k
    | none => exact .some ⟨rfl, h, rfl⟩
  · rw [h.flag]
    split <;> exact .some ⟨rfl, h, rfl⟩

theorem drain (h : m.Represents r) (publish : Publisher M L) (mailbox : MailboxId) (fuel : Nat) (k : Hub M L) :
    Option.Rel Agree (m.drain publish mailbox fuel k) (r.drain publish mailbox fuel k) := by
  induction fuel generalizing m r k with
  | zero => exact .none
  | succ fuel ih =>
    unfold Machine.drain ObjectMachine.drain
    rcases k.pop mailbox with ⟨_ | q, k₁⟩
    · exact .some ⟨rfl, h, rfl⟩
    · refine rel_bind (h.handleAction publish q.action q.payload k₁) ?_
      rintro ⟨o, m₁, k₂⟩ ⟨_, r₁, _⟩ ⟨rfl, h₁, rfl⟩
      refine rel_bind (ih h₁ k₂) ?_
      rintro ⟨os, m₂, k₃⟩ ⟨_, r₂, _⟩ ⟨rfl, h₂, rfl⟩
      exact .some ⟨rfl, h₂, rfl⟩

private theorem rel_answer {α : Type} {x : Option (α × Machine × Hub M L)}
    {y : Option (α × ObjectMachine × Hub M L)} (hxy : Option.Rel Agree x y) (f : α → Answer) :
    Option.Rel Agree (x.bind fun a => some (f a.1, a.2.1, a.2.2)) (y.bind fun a => some (f a.1, a.2.1, a.2.2)) := by
  refine rel_bind hxy ?_
  rintro ⟨a, m₁, k₁⟩ ⟨_, r₁, _⟩ ⟨rfl, h₁, rfl⟩
  exact .some ⟨rfl, h₁, rfl⟩

/-- Both machines carry out an operation alike. -/
theorem perform (h : m.Represents r) (publish : Publisher M L) (fuel : Nat) (k : Hub M L) (op : Operation) :
    Option.Rel Agree (m.perform publish fuel k op) (r.perform publish fuel k op) := by
  cases op with
  | register s asInitial =>
    obtain ⟨ha, hm⟩ := h.register s asInitial
    exact .some ⟨congrArg Answer.accepted ha, hm, by rw [h.registerWarnings]⟩
  | remove name =>
    obtain ⟨ha, hm⟩ := h.remove name
    exact .some ⟨congrArg Answer.removed ha, hm, rfl⟩
  | startAt name =>
    obtain ⟨ha, hm⟩ := h.startAt name
    exact .some ⟨congrArg Answer.accepted ha, hm, by rw [h.startWarnings]⟩
  | edit name e =>
    obtain ⟨ha, hm⟩ := h.edit name e
    exact .some ⟨congrArg Answer.edited ha, hm, rfl⟩
  | editCurrent e =>
    obtain ⟨ha, hm⟩ := h.editCurrent e
    exact .some ⟨congrArg Answer.edited ha, hm, rfl⟩
  | cancel => exact .some ⟨rfl, h, by rw [h.flag]⟩
  | moveTo target payload => exact rel_answer (h.transition publish target payload k) .outcome
  | handleAction action payload => exact rel_answer (h.handleAction publish action payload k) .outcome
  | handleNotification n => exact rel_answer (h.handleNotification publish n k) .outcome
  | drain mailbox => exact rel_answer (h.drain publish mailbox fuel k) .outcomes

theorem performAll (h : m.Represents r) (publish : Publisher M L) (fuel : Nat) (ops : List Operation)
    (k : Hub M L) :
    Option.Rel Agree (m.performAll publish fuel ops k) (r.performAll publish fuel ops k) := by
  induction ops generalizing m r k with
  | nil => exact .some ⟨rfl, h, rfl⟩
  | cons op ops ih =>
    refine rel_bind (h.perform publish fuel k op) ?_
    rintro ⟨a, m₁, k₁⟩ ⟨_, r₁, _⟩ ⟨rfl, h₁, rfl⟩
    refine rel_bind (ih h₁ k₁) ?_
    rintro ⟨as, m₂, k₂⟩ ⟨_, r₂, _⟩ ⟨rfl, h₂, rfl⟩
    exact .some ⟨rfl, h₂, rfl⟩

end Machine.Represents

/-! ### What can be seen of a machine -/

/-- What a machine shows to its owner.  Of the initial state it shows the name only: a machine looks that name up
whenever it is asked for the state (`Machine.initialState`), an object would stay the same, and so this is the one
question that the two machines may answer differently. -/
structure MachineView where
  registered : String → Option State
  current : Option State
  isStarted : Bool
  /-- The name of the first state registered with the initial flag. -/
  initial : Option String

def Machine.view (m : Machine) : MachineView := ⟨m.state?, m.currentState, m.isStarted, m.initial⟩

def ObjectMachine.view (r : ObjectMachine) : MachineView :=
  ⟨r.state?, r.currentState, r.current.isSome, r.initialName⟩

theorem Machine.Represents.view_eq {m : Machine} {r : ObjectMachine} (h : m.Represents r) : m.view = r.view := by
  have hstarted : m.isStarted = r.current.isSome := by
    rw [Machine.isStarted, h.current, ObjectMachine.currentName, Option.isSome_map]
  rw [Machine.view, ObjectMachine.view, hstarted, h.initial, h.currentState, funext h.state?]

/-- A new machine and a new machine of objects give the same answers, leave the same hub and show the same view
after any run of operations, or neither run comes to an end.  How notifications are delivered is arbitrary. -/
theorem performAll_view_eq {M L : Type} (publish : Publisher M L) (fuel : Nat) (flag : FlagId)
    (ops : List Operation) (h : Hub M L) :
    ((Machine.empty flag).performAll publish fuel ops h).map (fun x => (x.1, x.2.1.view, x.2.2)) =
      ((ObjectMachine.empty flag).performAll publish fuel ops h).map fun x => (x.1, x.2.1.view, x.2.2) := by
  have hagree := (Machine.Represents.empty flag).performAll publish fuel ops h
  generalize (Machine.empty flag).performAll publish fuel ops h = x at hagree ⊢
  generalize (ObjectMachine.empty flag).performAll publish fuel ops h = y at hagree ⊢
  cases hagree with
  | none => rfl
  | some hxy =>
    obtain ⟨hanswer, hrep, hhub⟩ := hxy
    rw [Option.map_some, Option.map_some, hanswer, hrep.view_eq, hhub]

end VetoMachine
