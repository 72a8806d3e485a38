import VetoMachine.Proofs.Movement

/-!
# Who holds the initial role

A machine keeps the name of its initial state and not the state.  The name is that of the state which founded the
machine, and it stays when that state is removed (`Life.initial_eq`).  What is registered under a name was added by the
last registration that was accepted there, and edited since (`Life.exists_addition`).  So the role is held by the state
that founded the machine until that is removed, and from then on by whatever state is registered under its name,
whether it carried the initial flag or not (`Life.initialState_added`, `Life.initialState_unflagged`).
-/

namespace VetoMachine

variable {M L : Type} {respond : Response M L} {es : List (Episode M L)} {e : Episode M L} {m : Machine}
  {name : String} {s t : State}

/-- Edits have made one state of another. -/
def State.EditedTo (s t : State) : Prop := ∃ edits : List State.Edit, t = edits.foldl (fun s e => (s.edit e).2) s

namespace State.EditedTo

theorem refl (s : State) : s.EditedTo s := ⟨[], rfl⟩

theorem edit (h : s.EditedTo t) (e : State.Edit) : s.EditedTo (t.edit e).2 := by
  obtain ⟨edits, rfl⟩ := h
  exact ⟨edits ++ [e], by simp⟩

end State.EditedTo

/-- Whether a registration is accepted and adds a state of the given name. -/
def Registration.adds (r : Registration) (name : String) : Bool := r.result.1 && r.state.name == name

/-! ### What becomes of an entry in an episode -/

namespace Machine

variable {m' : Machine}

theorem isRegistered_register (m : Machine) (s : State) (asInitial : Bool) (name : String) :
    (m.register s asInitial).2.isRegistered name = (m.isRegistered name || decide (name = s.name)) := by
  rw [isRegistered, state?_register, isRegistered]
  cases m.state? name with
  | some t => simp
  | none => by_cases hname : name = s.name <;> simp [hname]

/-- Of the states registered one after the other one is added under a free name, the first that has it. -/
theorem map_state_filter_adds (isInitial : State → Bool) (states : List State) (m : Machine) (name : String) :
    ((registrations isInitial states m).filter (·.adds name)).map (·.state) =
      if m.isRegistered name then [] else (states.find? (·.name = name)).toList := by
  induction states generalizing m with
  | nil => simp [registrations]
  | cons s rest ih =>
    have haccepted : (m.register s (isInitial s)).1 = !m.isRegistered s.name := by
      have hrefused := (Registration.mk m s (isInitial s)).refused_iff
      rw [Registration.result] at hrefused
      cases hregistered : m.isRegistered s.name <;> simp_all
    rw [registrations, List.filter_cons, List.find?_cons, Registration.adds, Registration.result, haccepted]
    by_cases hname : s.name = name
    · subst hname
      -- whether or not `s` is accepted, its name is taken afterwards
      cases hregistered : m.isRegistered s.name <;> simp [ih, isRegistered_register, hregistered]
    · simp [ih, isRegistered_register, hname, Ne.symm hname]

private theorem editedTo_refl (x : Option State) : Option.Rel State.EditedTo x x := by
  cases x with
  | none => exact .none
  | some s => exact .some (.refl s)

private theorem editedTo_of_edit (m : Machine) (edited : String) (change : State.Edit) (name : String) :
    Option.Rel State.EditedTo (m.state? name) ((m.edit edited change).2.state? name) := by
  rw [state?_edit]
  split
  · cases m.state? name with
    | none => exact .none
    | some s => exact .some ((State.EditedTo.refl s).edit change)
  · exact editedTo_refl _

private theorem editedTo_of_editCurrent (m : Machine) (change : State.Edit) (name : String) :
    Option.Rel State.EditedTo (m.state? name) ((m.editCurrent change).2.state? name) := by
  unfold editCurrent
  split
  · exact editedTo_refl _
  · split
    · exact editedTo_of_edit m _ change name
    · exact editedTo_refl _

/-- What is neither registering nor removing edits an entry at most. -/
theorem editedTo_of_perform {publish : Publisher M L} {fuel : Nat} {h h' : Hub M L} {op : Operation} {b : Answer}
    (hregister : ∀ s asInitial, op ≠ .register s asInitial) (hremove : op ≠ .remove name)
    (hcall : m.perform publish fuel h op = some (b, m', h')) :
    Option.Rel State.EditedTo (m.state? name) (m'.state? name) := by
  cases op with
  | register s asInitial => exact absurd rfl (hregister s asInitial)
  | remove removed =>
    simp only [perform, Option.some.injEq, Prod.mk.injEq] at hcall
    obtain ⟨-, rfl, -⟩ := hcall
    have hname : name ≠ removed := fun h => hremove (by rw [h])
    rw [state?_remove, if_neg hname]
    exact editedTo_refl _
  | startAt started =>
    simp only [perform, Option.some.injEq, Prod.mk.injEq] at hcall
    obtain ⟨-, rfl, -⟩ := hcall
    obtain ⟨-, -, h⟩ | h := m.startAt_cases started <;> rw [h] <;> exact editedTo_refl _
  | edit edited change =>
    simp only [perform, Option.some.injEq, Prod.mk.injEq] at hcall
    obtain ⟨-, rfl, -⟩ := hcall
    exact m.editedTo_of_edit edited change name
  | editCurrent change =>
    simp only [perform, Option.some.injEq, Prod.mk.injEq] at hcall
    obtain ⟨-, rfl, -⟩ := hcall
    exact m.editedTo_of_editCurrent change name
  | cancel | moveTo _ _ | handleAction _ _ | handleNotification _ | drain _ =>
    rw [moved_of_perform rfl hcall, moved_state?]
    exact editedTo_refl _

end Machine

namespace Episode

/-- The registrations of an episode that add a state of the given name. -/
def additions (e : Episode M L) (name : String) : List Registration := e.registrations.filter (·.adds name)

/-- What became of the entry under a name in an episode: it was removed, it was edited at most, or it was added. -/
inductive EntryGoes (e : Episode M L) (name : String) : Prop where
  | removed (hdeed : e.deed = .operate (.remove name)) (hadditions : e.additions name = [])
      (hafter : e.after.state? name = none)
  | kept (hdeed : e.deed ≠ .operate (.remove name)) (hadditions : e.additions name = [])
      (hafter : Option.Rel State.EditedTo (e.before.state? name) (e.after.state? name))
  | added (r : Registration) (hdeed : e.deed ≠ .operate (.remove name)) (hadditions : e.additions name = [r])
      (hbefore : e.before.state? name = none) (hafter : e.after.state? name = some r.state)

private theorem entryGoes_of_registerAll {isInitial : State → Bool} {states : List State}
    (hdeed : e.deed ≠ .operate (.remove name))
    (hregistrations : e.registrations = Machine.registrations isInitial states e.before)
    (hafter : e.after = Machine.registerAll isInitial states e.before) : e.EntryGoes name := by
  have hadditions : (e.additions name).map (·.state) =
      if e.before.isRegistered name then [] else (states.find? (·.name = name)).toList := by
    rw [additions, hregistrations, Machine.map_state_filter_adds]
  have hentry : e.after.state? name = (e.before.state? name).or (states.find? (·.name = name)) := by
    rw [hafter, Machine.state?_registerAll]
  cases hbefore : e.before.state? name with
  | some s =>
    rw [Machine.isRegistered, hbefore, Option.isSome_some, if_pos rfl, List.map_eq_nil_iff] at hadditions
    refine .kept hdeed hadditions ?_
    rw [hentry, hbefore]
    exact .some (.refl s)
  | none =>
    rw [Machine.isRegistered, hbefore, Option.isSome_none, if_neg Bool.false_ne_true] at hadditions
    rw [hbefore, Option.none_or] at hentry
    cases hfind : states.find? (·.name = name) with
    | none =>
      rw [hfind, Option.toList_none, List.map_eq_nil_iff] at hadditions
      refine .kept hdeed hadditions ?_
      rw [hentry, hbefore, hfind]
      exact .none
    | some s =>
      rw [hfind, Option.toList_some, List.map_eq_singleton_iff] at hadditions
      obtain ⟨r, hr, rfl⟩ := hadditions
      exact .added r hdeed hr hbefore (by rw [hentry, hfind])

private theorem entryGoes_of_operate {op : Operation} {b : Answer} {publish : Publisher M L}
    (hdeed : e.deed = .operate op) (hregister : ∀ s asInitial, op ≠ .register s asInitial)
    (hcall : e.before.perform publish e.fuel e.outset op = some (b, e.after, e.ending)) : e.EntryGoes name := by
  have hadditions : e.additions name = [] := by
    cases op with
    | register s asInitial => exact absurd rfl (hregister s asInitial)
    | _ => simp [additions, registrations, hdeed]
  by_cases hremove : op = .remove name
  · subst hremove
    simp only [Machine.perform, Option.some.injEq, Prod.mk.injEq] at hcall
    obtain ⟨-, hafter, -⟩ := hcall
    exact .removed hdeed hadditions (by rw [← hafter, Machine.state?_remove, if_pos rfl])
  · refine .kept ?_ hadditions (Machine.editedTo_of_perform hregister hremove hcall)
    rw [hdeed]
    rintro ⟨⟩
    exact hremove rfl

theorem Occurs.entryGoes (he : e.Occurs respond) (name : String) : e.EntryGoes name := by
  cases hdeed : e.deed with
  | populate l =>
    obtain ⟨isInitial, states, hregistrations, hafter⟩ := he.registers hdeed
    exact entryGoes_of_registerAll (by simp [hdeed]) hregistrations hafter
  | operate op =>
    have hcall := he.undergone
    rw [hdeed] at hcall
    obtain ⟨⟨b, m, h⟩, hcall, hresult⟩ := Option.bind_eq_some_iff.1 hcall
    simp only [Option.pure_def, Option.some.injEq, Prod.mk.injEq] at hresult
    obtain ⟨-, rfl, rfl⟩ := hresult
    by_cases hregister : ∃ s asInitial, op = .register s asInitial
    · obtain ⟨s, asInitial, rfl⟩ := hregister
      simp only [Machine.perform, Option.some.injEq, Prod.mk.injEq] at hcall
      obtain ⟨-, hafter, -⟩ := hcall
      have hregistrations : e.registrations = Machine.registrations (fun _ => asInitial) [s] e.before := by
        simp only [registrations, hdeed, Machine.registrations]
      have hregistered : e.after = Machine.registerAll (fun _ => asInitial) [s] e.before := hafter.symm
      exact entryGoes_of_registerAll (by simp [hdeed]) hregistrations hregistered
    · exact entryGoes_of_operate hdeed (fun s asInitial h => hregister ⟨s, asInitial, h⟩) hcall

end Episode

/-! ### Over a life -/

namespace Life

/-- The registration that added what is registered under a name: the last one that added a state of that name. -/
def addition? (es : List (Episode M L)) (name : String) : Option Registration :=
  ((registrations es).filter (·.adds name)).getLast?

theorem addition?_append (es : List (Episode M L)) (e : Episode M L) (name : String) :
    addition? (es ++ [e]) name = (e.additions name).getLast?.or (addition? es name) := by
  rw [addition?, registrations_append, List.filter_append, List.getLast?_append]
  rfl

/-- What is registered under a name was added by the last registration accepted there, and edited since. -/
theorem exists_addition (hlife : Life respond es m) (hs : m.state? name = some s) :
    ∃ r, addition? es name = some r ∧ r.state.EditedTo s := by
  induction hlife generalizing s with
  | new flag => simp at hs
  | @next es e hlife he ih =>
    rw [addition?_append]
    cases he.entryGoes name with
    | removed _ _ hafter => rw [hs] at hafter; cases hafter
    | kept _ hadditions hafter =>
      rw [hs] at hafter
      cases hbefore : e.before.state? name with
      | none => rw [hbefore] at hafter; cases hafter
      | some t =>
        rw [hbefore] at hafter
        obtain ⟨r, hr, edits, rfl⟩ := ih hbefore
        cases hafter with
        | some hedited =>
          obtain ⟨further, rfl⟩ := hedited
          refine ⟨r, by rw [hadditions, List.getLast?_nil, Option.none_or, hr], edits ++ further, ?_⟩
          rw [List.foldl_append]
    | added r _ hadditions _ hafter =>
      rw [hs] at hafter
      cases hafter
      exact ⟨r, by rw [hadditions]; rfl, .refl r.state⟩

/-- Whether the state of a name has been removed while the machine had an initial state. -/
def RemovedSinceFounded (es : List (Episode M L)) (name : String) : Prop :=
  ∃ e ∈ es, e.deed = .operate (.remove name) ∧ e.before.initial ≠ none

theorem initial_ne_none_of_removedSinceFounded (hlife : Life respond es m) (hremoved : RemovedSinceFounded es name) :
    m.initial ≠ none := by
  induction hlife with
  | new flag => obtain ⟨e, he, -⟩ := hremoved; cases he
  | @next es last hlife hlast ih =>
    have hkeeps : last.before.initial ≠ none → last.after.initial ≠ none := mt hlast.goes.initial_eq_none
    obtain ⟨e, he, hdeed, hinitial⟩ := hremoved
    rcases List.mem_append.1 he with he | he
    · exact hkeeps (ih ⟨e, he, hdeed, hinitial⟩)
    · rw [List.mem_singleton.1 he] at hinitial
      exact hkeeps hinitial

/-- A state that is registered again after it was removed does not found the machine. -/
theorem isFounding_of_removedSinceFounded (hlife : Life respond es m) (hremoved : RemovedSinceFounded es name)
    (hs : m.state? name = some s) : ∃ r, addition? es name = some r ∧ r.isFounding = false := by
  induction hlife generalizing s with
  | new flag => simp at hs
  | @next es last hlife hlast ih =>
    rw [addition?_append]
    obtain ⟨e, he, hdeed, hinitial⟩ := hremoved
    rcases List.mem_append.1 he with he | he
    · have hearlier : RemovedSinceFounded es name := ⟨e, he, hdeed, hinitial⟩
      cases hlast.entryGoes name with
      | removed _ _ hafter => rw [hs] at hafter; cases hafter
      | kept _ hadditions hafter =>
        rw [hadditions, List.getLast?_nil, Option.none_or]
        cases hbefore : last.before.state? name with
        | none => rw [hbefore, hs] at hafter; cases hafter
        | some t => exact ih hearlier hbefore
      | added r _ hadditions _ _ =>
        refine ⟨r, by rw [hadditions]; rfl, ?_⟩
        -- the machine was founded before, so nothing founds it in this episode
        have hnone : last.registrations.filter (·.isFounding) = [] := by
          have hfounded := initial_ne_none_of_removedSinceFounded hlife hearlier
          rw [hlast.goes.filter_isFounding, if_neg]
          rwa [Option.isNone_iff_eq_none]
        have hr : r ∈ last.additions name := by rw [hadditions]; exact List.mem_singleton_self r
        exact Bool.eq_false_iff.2 (List.filter_eq_nil_iff.1 hnone r (List.mem_filter.1 hr).1)
    · cases List.mem_singleton.1 he
      cases hlast.entryGoes name with
      | removed _ _ hafter => rw [hs] at hafter; cases hafter
      | kept hother _ _ => exact absurd hdeed hother
      | added _ hother _ _ _ => exact absurd hdeed hother

/-- The state that founded the machine stays registered until it is removed. -/
theorem addition?_founder (hlife : Life respond es m) {founder : Registration}
    (hfounder : (registrations es).find? (·.isFlagged) = some founder)
    (hkept : ¬ RemovedSinceFounded es founder.state.name) :
    m.state? founder.state.name ≠ none ∧ addition? es founder.state.name = some founder := by
  induction hlife with
  | new flag => cases hfounder
  | @next es last hlife hlast ih =>
    rw [registrations_append, List.find?_append, Option.or_eq_some_iff] at hfounder
    rw [addition?_append]
    have hgoes := hlast.entryGoes founder.state.name
    rcases hfounder with hfounder | ⟨hnone, hfounder⟩
    · have hinitial : last.before.initial ≠ none := by
        rw [hlife.initial_eq, hfounder]
        exact Option.some_ne_none _
      obtain ⟨hthere, haddition⟩ := ih hfounder fun ⟨e, he, h⟩ => hkept ⟨e, List.mem_append_left _ he, h⟩
      cases hgoes with
      | removed hdeed _ _ => exact absurd ⟨last, by simp, hdeed, hinitial⟩ hkept
      | kept _ hadditions hafter =>
        rw [hadditions, List.getLast?_nil, Option.none_or]
        refine ⟨fun hgone => ?_, haddition⟩
        cases hbefore : last.before.state? founder.state.name with
        | none => exact hthere hbefore
        | some t => rw [hbefore, hgone] at hafter; cases hafter
      | added _ _ _ hbefore _ => exact absurd hbefore hthere
    · -- the founder is the one that adds a state of its name in this episode
      have hmem : founder ∈ last.additions founder.state.name := by
        refine List.mem_filter.2 ⟨List.mem_of_find?_eq_some hfounder, ?_⟩
        have hflagged : founder.isFlagged = true := List.find?_some hfounder
        rw [Registration.isFlagged, Bool.and_eq_true] at hflagged
        simp [Registration.adds, hflagged.2]
      cases hgoes with
      | removed _ hadditions _ => rw [hadditions] at hmem; cases hmem
      | kept _ hadditions _ => rw [hadditions] at hmem; cases hmem
      | added r _ hadditions _ hafter =>
        rw [hadditions, List.mem_singleton] at hmem
        rw [hadditions, hafter, hmem]
        exact ⟨Option.some_ne_none _, rfl⟩

/-- The initial role goes with the name of the state that founded the machine, the first that was registered with the
initial flag.  The state that holds it was added by the last registration accepted under that name, which is the
founding one exactly as long as the name has not been removed since. -/
theorem initialState_added (hlife : Life respond es m) (hs : m.initialState = some s) :
    ∃ founder r, (registrations es).find? (·.isFlagged) = some founder ∧ m.initial = some founder.state.name ∧
      s.name = founder.state.name ∧ addition? es s.name = some r ∧ r.state.EditedTo s ∧
      (r = founder ↔ ¬ RemovedSinceFounded es s.name) := by
  obtain ⟨initial, hinitial, hregistered⟩ := Option.bind_eq_some_iff.1 hs
  obtain ⟨founder, hfounder, rfl⟩ : ∃ founder, (registrations es).find? (·.isFlagged) = some founder ∧
      founder.state.name = initial := by
    rw [hlife.initial_eq, Option.map_eq_some_iff] at hinitial
    exact hinitial
  have hname : s.name = founder.state.name := hlife.reachable.sound.named hregistered
  rw [hname]
  obtain ⟨r, hr, hedited⟩ := hlife.exists_addition hregistered
  refine ⟨founder, r, hfounder, hinitial, rfl, hr, hedited, ?_, ?_⟩
  · rintro rfl hremoved
    obtain ⟨later, hlater, hnot⟩ := hlife.isFounding_of_removedSinceFounded hremoved hregistered
    rw [hr] at hlater
    cases hlater
    -- but the first registration with the flag does found the machine
    have hmem : r ∈ (registrations es).filter (·.isFounding) := by
      rw [hlife.filter_isFounding, hfounder]
      exact List.mem_singleton_self r
    rw [(List.mem_filter.1 hmem).2] at hnot
    cases hnot
  · intro hkept
    obtain ⟨-, haddition⟩ := hlife.addition?_founder hfounder hkept
    rw [hr] at haddition
    exact Option.some.inj haddition

/-! ### A door that is taken off and hung anew -/

/-- A door founded by a plain state `closed` that was removed since. -/
def offHinges : Machine := (((Machine.empty 0).register (State.new "closed") true).2.remove "closed").2

private theorem exists_rehung (asInitial : Bool) : ∃ es : List (Episode Unit FlagId),
    Life silence es (offHinges.register (State.new "closed") asInitial).2 ∧
      es.map (·.deed) = [.operate (.register (State.new "closed") true), .operate (.remove "closed"),
        .operate (.register (State.new "closed") asInitial)] ∧
      registrations es = [⟨.empty 0, State.new "closed", true⟩, ⟨offHinges, State.new "closed", asInitial⟩] ∧
      RemovedSinceFounded es "closed" := by
  have hnew : Life silence [] (.empty 0) := .new 0
  obtain ⟨h₁, hfounded⟩ := hnew.registerInDoorway rfl (State.new "closed") true
  obtain ⟨h₂, hremoved⟩ := hfounded.removeInDoorway (by decide) "closed"
  obtain ⟨h₃, hrehung⟩ := hremoved.registerInDoorway (by decide) (State.new "closed") asInitial
  have hinitial : ((Machine.empty 0).register (State.new "closed") true).2.initial ≠ none := by decide
  refine ⟨_, hrehung, rfl, rfl, _, List.mem_append_left _ (List.mem_append_right _ (List.mem_singleton_self _)), ?_⟩
  exact ⟨rfl, hinitial⟩

/-- The state hung anew holds the initial role, and it is not the one that founded the door. -/
theorem initialState_added_rehung : ∃ (es : List (Episode Unit FlagId)) (m : Machine) (founder r : Registration),
    Life silence es m ∧ m.initialState = some (State.new "closed") ∧
      (registrations es).find? (·.isFlagged) = some founder ∧ addition? es "closed" = some r ∧ r ≠ founder := by
  obtain ⟨es, hlife, -, -, hremoved⟩ := exists_rehung true
  have hinitial : (offHinges.register (State.new "closed") true).2.initialState = some (State.new "closed") := by decide
  obtain ⟨founder, r, hfounder, -, -, hr, -, hsame⟩ := hlife.initialState_added hinitial
  exact ⟨es, _, founder, r, hlife, hinitial, hfounder, hr, fun h => hsame.1 h hremoved⟩

/-- A state that was registered without the flag can hold the initial role: the one that founded the machine is removed,
and another of its name registered without the flag. -/
theorem initialState_unflagged : ∃ (es : List (Episode Unit FlagId)) (m : Machine) (r : Registration),
    Life silence es m ∧
      es.map (·.deed) = [.operate (.register (State.new "closed") true), .operate (.remove "closed"),
        .operate (.register (State.new "closed") false)] ∧
      m.initialState = some (State.new "closed") ∧ addition? es "closed" = some r ∧
      r.state = State.new "closed" ∧ r.asInitial = false := by
  obtain ⟨es, hlife, hdeeds, hregistrations, -⟩ := exists_rehung false
  have hinitial : (offHinges.register (State.new "closed") false).2.initialState = some (State.new "closed") := by
    decide
  refine ⟨es, _, ⟨offHinges, State.new "closed", false⟩, hlife, hdeeds, hinitial, ?_, rfl, rfl⟩
  have hfirst : (Registration.mk (.empty 0) (State.new "closed") true).adds "closed" = true := by decide
  have hsecond : (Registration.mk offHinges (State.new "closed") false).adds "closed" = true := by decide
  simp [addition?, hregistrations, hfirst, hsecond]

end Life

end VetoMachine
