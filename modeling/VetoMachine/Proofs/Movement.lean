import VetoMachine.Proofs.Life

/-!
# A machine moves only by the protocol

The name of the current state changes only by a committed move, by the registration that founds the machine, or by a
start (`Life.moves_by_protocol`).  The founding registration is the first in the whole life that carries the initial
flag and is accepted, it fixes the initial name for good, and a machine is started at most once.
-/

namespace VetoMachine

variable {M L : Type} {respond : Response M L} {es : List (Episode M L)} {e : Episode M L} {m : Machine}

/-- In an episode the machine changes its place only as the protocol, a founding registration or a start has it, and
the latter two publish nothing and call nobody. -/
structure Episode.MovesByProtocol (e : Episode M L) : Prop where
  /-- The last committed move tells where the machine is afterwards. -/
  arrives : ∀ {target}, e.arrival? = some target → e.after.place = some target
  moves : e.after.place ≠ e.before.place →
    (∃ target, e.arrival? = some target) ∨
      (∃ r ∈ e.registrations, r.isFounding = true ∧ e.after.place = some r.state.name) ∨
      ∃ name, e.start? = some name ∧ e.before.place = none ∧ e.before.isRegistered name = true ∧
        e.after.place = some name
  /-- Registering and starting leave nothing on the hub but warnings. -/
  silent : e.registrations ≠ [] ∨ e.start? ≠ none → ∃ warnings, e.ending = e.outset.warn warnings
  /-- A state is refused exactly if its name is taken, and then nothing changes. -/
  refuses : ∀ r ∈ e.registrations,
    (r.result.1 = false ↔ r.machine.isRegistered r.state.name = true) ∧
      (r.result.1 = false → r.result.2 = r.machine)
  /-- A state that is handed in alone and refused leaves the machine and the hub as they are. -/
  answers : ∀ {s asInitial}, e.deed = .operate (.register s asInitial) →
    ∃ added, e.answer = .ok (.accepted added) ∧ (added = false ↔ e.before.isRegistered s.name = true) ∧
      (added = false → e.after = e.before ∧ e.ending = e.outset)

theorem Machine.registerWarnings_of_isRegistered {s : State} (hs : m.isRegistered s.name = true) (asInitial : Bool) :
    m.registerWarnings s asInitial = [] := by
  unfold registerWarnings
  split
  · simp [hs]
  · rfl

namespace Episode.Occurs

private theorem answers (he : e.Occurs respond) {s : State} {asInitial : Bool}
    (hdeed : e.deed = .operate (.register s asInitial)) :
    ∃ added, e.answer = .ok (.accepted added) ∧ (added = false ↔ e.before.isRegistered s.name = true) ∧
      (added = false → e.after = e.before ∧ e.ending = e.outset) := by
  have hcall := he.undergone
  rw [hdeed] at hcall
  simp only [Machine.undergo, Machine.perform, Option.bind_eq_bind, Option.bind_some, Option.pure_def,
    Option.some.injEq, Prod.mk.injEq] at hcall
  obtain ⟨hanswer, hafter, hending⟩ := hcall
  let r : Registration := ⟨e.before, s, asInitial⟩
  refine ⟨r.result.1, hanswer.symm, r.refused_iff, ?_⟩
  intro hrefused
  have hwarnings := e.before.registerWarnings_of_isRegistered (r.refused_iff.1 hrefused) asInitial
  rw [hwarnings] at hending
  exact ⟨hafter.symm.trans (Registration.result_of_refused hrefused), hending.symm⟩

private theorem moves (hgoes : e.Goes) (hbefore : e.before.Sound) (hafter : e.after.Sound)
    (hplace : e.after.place ≠ e.before.place) :
    (∃ target, e.arrival? = some target) ∨
      (∃ r ∈ e.registrations, r.isFounding = true ∧ e.after.place = some r.state.name) ∨
      ∃ name, e.start? = some name ∧ e.before.place = none ∧ e.before.isRegistered name = true ∧
        e.after.place = some name := by
  have hcurrent := hgoes.current_eq
  rw [hafter.place_eq, hbefore.place_eq] at hplace ⊢
  cases harrival : e.arrival? with
  | some target => exact .inl ⟨target, rfl⟩
  | none =>
    right
    cases hfounder : e.registrations.find? (·.isFounding) with
    | some r =>
      left
      have hfounded : e.after.current = some r.state.name := by
        rw [hcurrent, harrival, founder?, hfounder]
        rfl
      exact ⟨r, List.mem_of_find?_eq_some hfounder, List.find?_some hfounder, hfounded⟩
    | none =>
      right
      cases hstart : e.start? with
      | none =>
        -- nothing happened that could move the machine
        rw [harrival, founder?, hfounder, hstart] at hcurrent
        exact absurd hcurrent hplace
      | some name =>
        obtain ⟨hnone, hregistered, hresult⟩ := hgoes.started hstart
        exact ⟨name, rfl, hnone, hregistered, by rw [hresult]⟩

private theorem movesByProtocol (he : e.Occurs respond) (hbefore : e.before.Sound) (hafter : e.after.Sound) :
    e.MovesByProtocol where
  arrives {target} harrival := by
    rw [hafter.place_eq, he.goes.current_eq, harrival]
    rfl
  moves hplace := moves he.goes hbefore hafter hplace
  silent hdone := by
    cases he.goes with
    | registering _ _ _ _ hending _ _ => exact hending
    | starting _ _ _ _ _ hending _ _ => exact hending
    | arranging _ _ hregistrations _ hstart => simp [hregistrations, hstart] at hdone
    | driving _ _ _ _ hregistrations hstart => simp [hregistrations, hstart] at hdone
  refuses r _ := ⟨r.refused_iff, Registration.result_of_refused⟩
  answers hdeed := he.answers hdeed

end Episode.Occurs

/-! ### The whole life -/

/-- All registrations of a life, in order. -/
def Life.registrations (es : List (Episode M L)) : List Registration := es.flatMap Episode.registrations

theorem Life.registrations_append (es : List (Episode M L)) (e : Episode M L) :
    registrations (es ++ [e]) = registrations es ++ e.registrations := by
  simp [registrations]

theorem Life.initial_eq (hlife : Life respond es m) :
    m.initial = ((registrations es).find? (·.isFlagged)).map (·.state.name) := by
  induction hlife with
  | new flag => rfl
  | @next es e hlife he ih =>
    rw [registrations_append, he.goes.initial_eq, ih, List.find?_append, Option.map_or]

theorem Life.filter_isFounding (hlife : Life respond es m) :
    (registrations es).filter (·.isFounding) = ((registrations es).find? (·.isFlagged)).toList := by
  induction hlife with
  | new flag => rfl
  | @next es e hlife he ih =>
    rw [registrations_append, List.filter_append, ih, he.goes.filter_isFounding, hlife.initial_eq, List.find?_append]
    cases (registrations es).find? (·.isFlagged) <;> simp

/-- A machine that was started is in a state ever after, and is not started again. -/
private theorem Life.filterMap_start? (hlife : Life respond es m) :
    (m.current = none → es.filterMap Episode.start? = []) ∧ (es.filterMap Episode.start?).length ≤ 1 := by
  induction hlife with
  | new flag => exact ⟨fun _ => rfl, Nat.zero_le 1⟩
  | @next es e hlife he ih =>
    obtain ⟨hnever, hone⟩ := ih
    rw [List.filterMap_append]
    cases hstart : e.start? with
    | none =>
      have hlater : e.after.current = none → e.before.current = none := by
        intro hafter
        refine Decidable.byContradiction fun hbefore => ?_
        exact Machine.isInvariant_started.undergo hbefore he.undergone hafter
      simp only [List.filterMap_cons, hstart, List.filterMap_nil, List.append_nil]
      exact ⟨fun hafter => hnever (hlater hafter), hone⟩
    | some name =>
      obtain ⟨hbefore, -, -⟩ := he.goes.started hstart
      have hafter : e.after.current ≠ none := by
        rw [he.goes.current_eq, hstart]
        simp
      rw [hnever hbefore]
      simp only [List.filterMap_cons, hstart, List.filterMap_nil]
      exact ⟨fun hnone => absurd hnone hafter, Nat.le_refl 1⟩

/-- In every episode of a life the machine moves only by the protocol.  The registrations that found it are none or
the first one that carries the initial flag and is accepted, whose name is the initial one from then on, and it is
started at most once. -/
theorem Life.moves_by_protocol (hlife : Life respond es m) :
    (∀ e ∈ es, e.MovesByProtocol) ∧
      (registrations es).filter (·.isFounding) = ((registrations es).find? (·.isFlagged)).toList ∧
      m.initial = ((registrations es).find? (·.isFlagged)).map (·.state.name) ∧
      (es.filterMap Episode.start?).length ≤ 1 := by
  refine ⟨?_, hlife.filter_isFounding, hlife.initial_eq, hlife.filterMap_start?.2⟩
  intro e he
  obtain ⟨hbefore, hafter, hoccurs⟩ := hlife.sound_of_mem he
  exact hoccurs.movesByProtocol hbefore hafter

/-- A door is founded by the first state registered for it, and is never started. -/
theorem Life.moves_by_protocol_door : ∃ (es : List (Episode Unit FlagId)) (m : Machine), Life silence es m ∧
    es.map Episode.arrival? = [none, none, some "open", none, some "closed"] ∧ (∀ e ∈ es, e.MovesByProtocol) ∧
    m.initial = ((registrations es).find? (·.isFlagged)).map (·.state.name) := by
  obtain ⟨e₁, e₂, e₃, e₄, e₅, m, hlife, houtcomes, -, -⟩ := Life.exists_door
  let es := [e₁, e₂, e₃, e₄, e₅]
  have harrivals : es.map Episode.arrival? = [none, none, some "open", none, some "closed"] := by
    have hmap : es.map Episode.arrival? =
        (es.map Episode.outcomes).map fun os => (os.filterMap Outcome.arrival?).getLast? := by
      rw [List.map_map]
      rfl
    rw [hmap, houtcomes]
    rfl
  obtain ⟨hmoves, -, hinitial, -⟩ := hlife.moves_by_protocol
  exact ⟨es, m, hlife, harrivals, hmoves, hinitial⟩

end VetoMachine
