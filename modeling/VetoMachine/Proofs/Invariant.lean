import VetoMachine.Proofs.Protocol

/-!
# Invariants of a machine

A property of machines is an invariant (`Machine.IsInvariant`) if the operations on the registry and a commit to a
registered state keep it.  Then every operation keeps it, whatever the listeners do, and so does loading a
description (`IsInvariant.perform`, `IsInvariant.populate`).  The registry is sound in every machine that can come
about (`Machine.Reachable.sound`).
-/

namespace VetoMachine.Machine

variable {M L : Type} {publish : Publisher M L}

/-- A property that the operations of a machine keep. -/
structure IsInvariant (P : Machine → Prop) : Prop where
  register : ∀ {m : Machine}, P m → ∀ s asInitial, P (m.register s asInitial).2
  remove : ∀ {m : Machine}, P m → ∀ name, P (m.remove name).2
  startAt : ∀ {m : Machine}, P m → ∀ name, P (m.startAt name).2
  edit : ∀ {m : Machine}, P m → ∀ name e, P (m.edit name e).2
  editCurrent : ∀ {m : Machine}, P m → ∀ e, P (m.editCurrent e).2
  commit : ∀ {m : Machine}, P m → ∀ {name s}, m.state? name = some s → P (m.commit s.name)

namespace IsInvariant

variable {P : Machine → Prop} {m m' : Machine} {h h' : Hub M L} {o : Outcome}

theorem transition (hP : IsInvariant P) (hm : P m) {target : String} {payload : Json}
    (hcall : m.transition publish target payload h = some (o, m', h')) : P m' := by
  rcases transition_cases hcall with ⟨-, -, rfl, -⟩ | ⟨next, hs, -, rfl⟩
  · exact hm
  · split
    · exact hP.commit hm hs
    · exact hm

theorem handleAction (hP : IsInvariant P) (hm : P m) {action : String} {payload : Json}
    (hcall : m.handleAction publish action payload h = some (o, m', h')) : P m' := by
  rcases handleAction_cases hcall with ⟨-, -, rfl, -⟩ | ⟨target, next, -, -, hcall⟩
  · exact hm
  · exact hP.transition hm hcall

theorem handleNotification (hP : IsInvariant P) (hm : P m) {n : Notification}
    (hcall : m.handleNotification publish n h = some (o, m', h')) : P m' := by
  rcases handleNotification_cases hcall with ⟨-, action, -, hcall⟩ | ⟨-, -, rfl, -⟩ | ⟨-, rfl, -⟩
  · exact hP.handleAction hm hcall
  · exact hm
  · exact hm

theorem drain (hP : IsInvariant P) (hm : P m) {mailbox : MailboxId} {fuel : Nat} {os : List Outcome}
    (hcall : m.drain publish mailbox fuel h = some (os, m', h')) : P m' := by
  induction fuel generalizing m h os with
  | zero => cases hcall
  | succ fuel ih =>
    rcases drain_cases hcall with ⟨-, -, rfl⟩ | ⟨q, h₁, o, m₁, h₂, rest, -, haction, hrest, -⟩
    · exact hm
    · exact ih (hP.handleAction hm haction) hrest

/-- Every operation keeps an invariant. -/
theorem perform (hP : IsInvariant P) (hm : P m) {fuel : Nat} {op : Operation} {a : Answer}
    (hcall : m.perform publish fuel h op = some (a, m', h')) : P m' := by
  cases op with
  | register s asInitial => cases hcall; exact hP.register hm s asInitial
  | remove name => cases hcall; exact hP.remove hm name
  | startAt name => cases hcall; exact hP.startAt hm name
  | edit name e => cases hcall; exact hP.edit hm name e
  | editCurrent e => cases hcall; exact hP.editCurrent hm e
  | cancel => cases hcall; exact hm
  | moveTo target payload =>
    obtain ⟨_, hcall, -⟩ := call_of_answer hcall
    exact hP.transition hm hcall
  | handleAction action payload =>
    obtain ⟨_, hcall, -⟩ := call_of_answer hcall
    exact hP.handleAction hm hcall
  | handleNotification n =>
    obtain ⟨_, hcall, -⟩ := call_of_answer hcall
    exact hP.handleNotification hm hcall
  | drain mailbox =>
    obtain ⟨_, hcall, -⟩ := call_of_answer hcall
    exact hP.drain hm hcall

theorem registerAll (hP : IsInvariant P) (hm : P m) (isInitial : State → Bool) (states : List State) :
    P (Machine.registerAll isInitial states m) := by
  induction states generalizing m with
  | nil => exact hm
  | cons s rest ih => exact ih (hP.register hm s (isInitial s))

/-- Loading a description into a machine keeps an invariant. -/
theorem populate (hP : IsInvariant P) (hm : P m) {l : Loader} (hl : (l.populate m).1 = .ok m') : P m' := by
  unfold Loader.populate at hl
  cases hload : l.load.1 with
  | error _ => simp [hload, Except.map] at hl
  | ok states =>
    simp only [hload, Except.map, Except.ok.injEq] at hl
    subst hl
    exact hP.registerAll hm _ states

/-- An assembly is built up from an empty machine. -/
theorem build (hP : IsInvariant P) {a : Assembly} {flag : FlagId} (hempty : P (empty flag))
    (ha : a.build flag = .ok m) : P m := by
  unfold Assembly.build at ha
  split at ha
  · cases ha
  · split at ha
    · cases ha
    · split at ha
      · cases ha
        exact hP.registerAll hempty _ _
      · cases ha

end IsInvariant

/-! ### The cancel flag stays -/

/-- A machine keeps its cancel flag. -/
theorem isInvariant_flag (flag : FlagId) : IsInvariant fun m => m.flag = flag where
  register hm s asInitial := by
    rcases register_cases _ s asInitial with ⟨-, h⟩ | ⟨-, -, -, h⟩ | ⟨-, -, h⟩ <;> rw [h] <;> exact hm
  remove hm name := by unfold remove; split <;> exact hm
  startAt hm name := by unfold startAt; split <;> exact hm
  edit hm name e := by rw [edit_flag]; exact hm
  editCurrent hm e := by
    unfold editCurrent
    split
    · exact hm
    · split
      · rw [edit_flag]; exact hm
      · exact hm
  commit hm _ _ _ := hm

/-! ### A sound registry -/

/-- The registry, the current name and the detached state of a machine fit together. -/
structure Sound (m : Machine) : Prop where
  named : ∀ {name s}, m.state? name = some s → s.name = name
  occupied : m.detached = none → ∀ {name}, m.current = some name → ∃ s, m.state? name = some s
  kept : ∀ {s}, m.detached = some s → m.current = some s.name
  started : m.initial ≠ none → m.current ≠ none

theorem sound_empty (flag : FlagId) : (empty flag).Sound where
  named := by simp
  occupied _ := nofun
  kept := nofun
  started hi := absurd rfl hi

private theorem Sound.register {m : Machine} (hm : m.Sound) (s : State) (asInitial : Bool) :
    (m.register s asInitial).2.Sound := by
  have hnamed : ∀ {name t}, (m.register s asInitial).2.state? name = some t → t.name = name := by
    intro name t ht
    rw [state?_register, Option.or_eq_some_iff] at ht
    rcases ht with ht | ⟨-, ht⟩
    · exact hm.named ht
    · split at ht
      · rename_i hname
        cases ht
        exact hname.symm
      · cases ht
  have hgrows : ∀ {name}, (∃ t, m.state? name = some t) → ∃ t, (m.register s asInitial).2.state? name = some t := by
    rintro name ⟨t, ht⟩
    exact ⟨t, by rw [state?_register, ht, Option.some_or]⟩
  have hself : (m.register s asInitial).2.state? s.name ≠ none := by simp [state?_register]
  rcases m.register_cases s asInitial with ⟨-, h⟩ | ⟨-, -, -, h⟩ | ⟨-, -, h⟩ <;> rw [h] at hnamed hgrows hself ⊢
  · exact hm
  · refine ⟨hnamed, fun _ name hc => ?_, nofun, fun _ => nofun⟩
    cases hc
    exact Option.ne_none_iff_exists'.1 hself
  · exact ⟨hnamed, fun hd _ hc => hgrows (hm.occupied hd hc), hm.kept, hm.started⟩

private theorem Sound.remove {m : Machine} (hm : m.Sound) (name : String) : (m.remove name).2.Sound := by
  have hnamed : ∀ {other t}, (m.remove name).2.state? other = some t → t.name = other := by
    intro other t ht
    rw [state?_remove] at ht
    split at ht
    · cases ht
    · exact hm.named ht
  have hstate : ∀ {other}, other ≠ name → (m.remove name).2.state? other = m.state? other := by
    intro other hother
    rw [state?_remove, if_neg hother]
  unfold Machine.remove at hnamed hstate ⊢
  cases hs : m.state? name with
  | none => exact hm
  | some s =>
    simp only [hs] at hnamed hstate ⊢
    -- a detached state appears only for the current name, and hides no other
    by_cases hdet : m.detached.isNone && m.current == some name
    · simp only [hdet, if_true] at hnamed ⊢
      simp only [Bool.and_eq_true, Option.isNone_iff_eq_none, beq_iff_eq] at hdet
      refine ⟨hnamed, nofun, ?_, hm.started⟩
      rintro _ ⟨rfl⟩
      rw [hm.named hs]
      exact hdet.2
    · simp only [hdet, Bool.false_eq_true, if_false] at hnamed hstate ⊢
      refine ⟨hnamed, fun hd other hc => ?_, hm.kept, hm.started⟩
      have hother : other ≠ name := by
        rintro rfl
        have hd' : m.detached = none := hd
        have hc' : m.current = some other := hc
        simp [hd', hc'] at hdet
      obtain ⟨t, ht⟩ := hm.occupied hd hc
      exact ⟨t, by rw [hstate hother]; exact ht⟩

private theorem Sound.startAt {m : Machine} (hm : m.Sound) (name : String) : (m.startAt name).2.Sound := by
  unfold Machine.startAt
  split
  · rename_i hstart
    simp only [Bool.and_eq_true, Option.isNone_iff_eq_none] at hstart
    refine ⟨hm.named, ?_, fun hd => ?_, fun _ => nofun⟩
    · rintro _ _ ⟨rfl⟩
      exact isRegistered_iff.1 hstart.2
    · have := hm.kept hd
      rw [hstart.1] at this
      cases this
  · exact hm

private theorem Sound.edit {m : Machine} (hm : m.Sound) (name : String) (e : State.Edit) :
    (m.edit name e).2.Sound where
  named {other t} ht := by
    rw [state?_edit] at ht
    split at ht
    · rw [Option.map_eq_some_iff] at ht
      obtain ⟨s, hs, rfl⟩ := ht
      rw [State.edit_name, hm.named hs]
    · exact hm.named ht
  occupied hd other hc := by
    rw [edit_detached] at hd
    rw [edit_current] at hc
    obtain ⟨s, hs⟩ := hm.occupied hd hc
    rw [state?_edit, hs]
    split <;> exact ⟨_, rfl⟩
  kept hd := by
    rw [edit_detached] at hd
    rw [edit_current, hm.kept hd]
  started := by
    rw [edit_initial, edit_current]
    exact hm.started

private theorem Sound.editCurrent {m : Machine} (hm : m.Sound) (e : State.Edit) : (m.editCurrent e).2.Sound := by
  unfold Machine.editCurrent
  split
  · rename_i s hd
    refine ⟨hm.named, nofun, fun {t} ht => ?_, hm.started⟩
    have hname : t.name = s.name := by rw [← Option.some.inj ht, State.edit_name]
    rw [hname]
    exact hm.kept hd
  · split
    · exact hm.edit _ e
    · exact hm

private theorem Sound.commit {m : Machine} (hm : m.Sound) {name : String} {s : State}
    (hs : m.state? name = some s) : (m.commit s.name).Sound where
  named := hm.named
  occupied := by
    rintro _ _ ⟨rfl⟩
    exact ⟨s, by rw [hm.named hs]; exact hs⟩
  kept := nofun
  started _ := nofun

theorem isInvariant_sound : IsInvariant Sound where
  register hm s asInitial := hm.register s asInitial
  remove hm name := hm.remove name
  startAt hm name := hm.startAt name
  edit hm name e := hm.edit name e
  editCurrent hm e := hm.editCurrent e
  commit hm _ _ hs := hm.commit hs

/-! ### Machines that can come about -/

/-- A machine that can come about: it is new, assembled or made from a description, and then operations are
carried out on it, on any hubs and with any listeners, and descriptions loaded into it. -/
inductive Reachable : Machine → Prop where
  | new (flag : FlagId) : Reachable (empty flag)
  | assembled {a : Assembly} {flag : FlagId} {m : Machine} (ha : a.build flag = .ok m) : Reachable m
  | injected {l : Loader} {flag : FlagId} {m : Machine} (hl : (l.inject flag).1 = .ok m) : Reachable m
  | performed {M L : Type} {publish : Publisher M L} {fuel : Nat} {m m' : Machine} {h h' : Hub M L}
      {op : Operation} {a : Answer} (hm : Reachable m) (hcall : m.perform publish fuel h op = some (a, m', h')) :
      Reachable m'
  | populated {l : Loader} {m m' : Machine} (hm : Reachable m) (hl : (l.populate m).1 = .ok m') : Reachable m'

/-- An invariant of new machines holds of every machine that can come about. -/
theorem IsInvariant.of_reachable {P : Machine → Prop} (hP : IsInvariant P) (hempty : ∀ flag, P (empty flag))
    {m : Machine} (hm : m.Reachable) : P m := by
  induction hm with
  | new flag => exact hempty flag
  | assembled ha => exact hP.build (hempty _) ha
  | injected hl => exact hP.populate (hempty _) hl
  | performed _ hcall ih => exact hP.perform ih hcall
  | populated _ hl ih => exact hP.populate ih hl

theorem Reachable.sound {m : Machine} (hm : m.Reachable) : m.Sound :=
  isInvariant_sound.of_reachable sound_empty hm

section

variable {m : Machine} (hm : m.Reachable)
include hm

theorem Reachable.register (s : State) (asInitial : Bool) : (m.register s asInitial).2.Reachable :=
  have hcall : m.perform (fun _ => some) 0 (Hub.empty 0 () : Hub Unit Unit) (.register s asInitial) =
      some (.accepted (m.register s asInitial).1, (m.register s asInitial).2,
        (Hub.empty 0 ()).warn (m.registerWarnings s asInitial)) := rfl
  hm.performed hcall

theorem Reachable.remove (name : String) : (m.remove name).2.Reachable :=
  have hcall : m.perform (fun _ => some) 0 (Hub.empty 0 () : Hub Unit Unit) (.remove name) =
      some (.removed (m.remove name).1, (m.remove name).2, Hub.empty 0 ()) := rfl
  hm.performed hcall

end

end VetoMachine.Machine
