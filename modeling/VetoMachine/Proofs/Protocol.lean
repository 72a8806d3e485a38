import VetoMachine.Proofs.Flags
import VetoMachine.Proofs.Registry

/-!
# What a step of the protocol can do

The ways a call of the protocol can go, with everything that is then known: where the flag is found raised
(`Passage.run_cases`), what is ignored (`Machine.transition_cases`, `Machine.handleAction_cases`), and whether there
is a machine to be driven at all (`Hub.drive_cases`).  Later proofs use these and do not open the protocol again.
-/

namespace VetoMachine

/-- Two computations that go on from related results in a related way. -/
theorem rel_bind {α β γ δ : Type} {R : α → β → Prop} {S : γ → δ → Prop} {x : Option α} {y : Option β}
    {f : α → Option γ} {g : β → Option δ} (h : Option.Rel R x y)
    (hfg : ∀ a b, R a b → Option.Rel S (f a) (g b)) : Option.Rel S (x.bind f) (y.bind g) := by
  cases h with
  | some hab => exact hfg _ _ hab
  | none => exact .none

theorem rel_imp {α β : Type} {R S : α → β → Prop} {x : Option α} {y : Option β} (h : Option.Rel R x y)
    (hRS : ∀ {a b}, R a b → S a b) : Option.Rel S x y := by
  cases h with
  | some hab => exact .some (hRS hab)
  | none => exact .none

variable {M L : Type} {publish : Publisher M L}

namespace Passage

variable {p : Passage} {flag : FlagId} {payload : Json} {h h' : Hub M L} {o : Outcome}

/-- A passage ends at the first of its two windows that finds the flag raised, or is committed. -/
theorem run_cases (hrun : p.run publish flag payload h = some (o, h')) :
    ∃ h₁, (h.lower flag).publishIfAny publish (p.exitNote payload) = some h₁ ∧
      ((h₁.isRaised flag = true ∧ o = .vetoedOnExit (p.source.getD "") p.target.name ∧ h' = h₁.lower flag) ∨
        (h₁.isRaised flag = false ∧ ∃ h₂, h₁.publishIfAny publish (p.enterNote payload) = some h₂ ∧
          ((h₂.isRaised flag = true ∧ o = .vetoedOnEnter p.source p.target.name ∧ h' = h₂.lower flag) ∨
            (h₂.isRaised flag = false ∧ ∃ h₃ h₄, h₂.publishIfAny publish (p.changedNote payload) = some h₃ ∧
              publish p.changeNote h₃ = some h₄ ∧ o = .committed p.source p.target.name ∧
              h' = h₄.lower flag)))) := by
  simp only [run, Hub.take, Option.bind_eq_bind, Option.bind_eq_some_iff] at hrun
  obtain ⟨h₁, hexit, hrun⟩ := hrun
  refine ⟨h₁, hexit, ?_⟩
  cases hraised₁ : h₁.isRaised flag with
  | true =>
    simp only [hraised₁, if_true, Option.pure_def, Option.some.injEq, Prod.mk.injEq] at hrun
    obtain ⟨rfl, rfl⟩ := hrun
    exact .inl ⟨rfl, rfl, rfl⟩
  | false =>
    -- the flag is down, so lowering it changes nothing
    simp only [hraised₁, Bool.false_eq_true, if_false, Hub.lower_eq_self hraised₁, Option.bind_eq_some_iff] at hrun
    obtain ⟨h₂, henter, hrun⟩ := hrun
    refine .inr ⟨rfl, h₂, henter, ?_⟩
    cases hraised₂ : h₂.isRaised flag with
    | true =>
      simp only [hraised₂, if_true, Option.pure_def, Option.some.injEq, Prod.mk.injEq] at hrun
      obtain ⟨rfl, rfl⟩ := hrun
      exact .inl ⟨rfl, rfl, rfl⟩
    | false =>
      simp only [hraised₂, Bool.false_eq_true, if_false, Hub.lower_eq_self hraised₂, Option.bind_eq_some_iff,
        Option.pure_def, Option.some.injEq, Prod.mk.injEq] at hrun
      obtain ⟨h₃, hchanged, h₄, hchange, rfl, rfl⟩ := hrun
      exact .inr ⟨rfl, h₃, h₄, hchanged, hchange, rfl, rfl⟩

/-- The flag is down after a passage, whatever its outcome. -/
theorem isRaised_of_run (hrun : p.run publish flag payload h = some (o, h')) : h'.isRaised flag = false := by
  obtain ⟨_, _, ⟨_, _, rfl⟩ | ⟨_, _, _, ⟨_, _, rfl⟩ | ⟨_, _, _, _, _, _, rfl⟩⟩⟩ := run_cases hrun <;>
    exact Hub.isRaised_lower_self _ _

/-- A passage is never ignored. -/
theorem ne_ignored_of_run (hrun : p.run publish flag payload h = some (o, h')) : o ≠ .ignored := by
  obtain ⟨_, _, ⟨_, rfl, _⟩ | ⟨_, _, _, ⟨_, rfl, _⟩ | ⟨_, _, _, _, _, rfl, _⟩⟩⟩ := run_cases hrun <;> nofun

end Passage

/-! ### Calls of a machine -/

namespace Machine

variable {m m' : Machine} {target action : String} {payload : Json} {h h' : Hub M L} {o : Outcome}

/-- A call to move is ignored for want of a target, or is a passage to the registered target. -/
theorem transition_cases (hcall : m.transition publish target payload h = some (o, m', h')) :
    (m.state? target = none ∧ o = .ignored ∧ m' = m ∧ h' = h) ∨
      ∃ next, m.state? target = some next ∧
        (m.passageTo next).run publish m.flag payload h = some (o, h') ∧
        m' = if o.isCommitted then m.commit next.name else m := by
  unfold transition passage? at hcall
  cases hs : m.state? target with
  | none =>
    simp only [hs, Option.map_none, Option.some.injEq, Prod.mk.injEq] at hcall
    obtain ⟨rfl, rfl, rfl⟩ := hcall
    exact .inl ⟨rfl, rfl, rfl, rfl⟩
  | some next =>
    simp only [hs, Option.map_some, Option.bind_eq_bind, Option.bind_eq_some_iff, Option.pure_def,
      Option.some.injEq, Prod.mk.injEq, Prod.exists] at hcall
    obtain ⟨o, h', hrun, rfl, rfl, rfl⟩ := hcall
    exact .inr ⟨next, rfl, hrun, rfl⟩

/-- An action is ignored for want of a registered target, or is a call to move to its target. -/
theorem handleAction_cases (hcall : m.handleAction publish action payload h = some (o, m', h')) :
    ((∀ target, m.boundTarget? action = some target → m.state? target = none) ∧
        o = .ignored ∧ m' = m ∧ ∃ warnings, h' = h.warn warnings) ∨
      ∃ target next, m.boundTarget? action = some target ∧ m.state? target = some next ∧
        m.transition publish target payload h = some (o, m', h') := by
  unfold handleAction at hcall
  cases hbound : m.boundTarget? action with
  | none =>
    simp only [hbound, Option.some.injEq, Prod.mk.injEq] at hcall
    obtain ⟨rfl, rfl, rfl⟩ := hcall
    exact .inl ⟨nofun, rfl, rfl, [], rfl⟩
  | some target =>
    cases hs : m.state? target with
    | none =>
      simp only [hbound, isRegistered, hs, Option.isSome_none, Bool.false_eq_true, if_false, Option.some.injEq,
        Prod.mk.injEq] at hcall
      obtain ⟨rfl, rfl, rfl⟩ := hcall
      refine .inl ⟨?_, rfl, rfl, _, rfl⟩
      rintro _ ⟨rfl⟩
      exact hs
    | some next =>
      simp only [hbound, isRegistered, hs, Option.isSome_some, if_true] at hcall
      exact .inr ⟨target, next, rfl, hs, hcall⟩

/-- A notification asks for an action, raises the flag, or is ignored. -/
theorem handleNotification_cases {n : Notification}
    (hcall : m.handleNotification publish n h = some (o, m', h')) :
    (n.name = Notification.actionName ∧ ∃ action, n.kind = some action ∧
        m.handleAction publish action n.body h = some (o, m', h')) ∨
      (n.name = Notification.cancelName ∧ o = .ignored ∧ m' = m ∧ h' = h.raise m.flag) ∨
      (o = .ignored ∧ m' = m ∧ ∃ warnings, h' = h.warn warnings) := by
  unfold handleNotification at hcall
  split at hcall
  · rename_i hname
    cases hkind : n.kind with
    | some action => rw [hkind] at hcall; exact .inl ⟨hname, action, rfl, hcall⟩
    | none => rw [hkind] at hcall; cases hcall; exact .inr (.inr ⟨rfl, rfl, _, rfl⟩)
  · split at hcall
    · rename_i hname
      cases hcall
      exact .inr (.inl ⟨hname, rfl, rfl, rfl⟩)
    · cases hcall; exact .inr (.inr ⟨rfl, rfl, [], rfl⟩)

/-- A drain stops at an empty mailbox, or handles the oldest action and goes on. -/
theorem drain_cases {mailbox : MailboxId} {fuel : Nat} {os : List Outcome}
    (hcall : m.drain publish mailbox (fuel + 1) h = some (os, m', h')) :
    (h.pop mailbox = (none, h') ∧ os = [] ∧ m' = m) ∨
      ∃ q h₁ o m₁ h₂ rest, h.pop mailbox = (some q, h₁) ∧
        m.handleAction publish q.action q.payload h₁ = some (o, m₁, h₂) ∧
        m₁.drain publish mailbox fuel h₂ = some (rest, m', h') ∧ os = o :: rest := by
  unfold drain at hcall
  rcases hpop : h.pop mailbox with ⟨_ | q, h₁⟩ <;> rw [hpop] at hcall
  · cases hcall; exact .inl ⟨rfl, rfl, rfl⟩
  · simp only [Option.bind_eq_bind, Option.bind_eq_some_iff, Option.pure_def, Option.some.injEq, Prod.mk.injEq,
      Prod.exists] at hcall
    obtain ⟨o, m₁, h₂, haction, rest, _, _, hrest, rfl, rfl, rfl⟩ := hcall
    exact .inr ⟨q, h₁, o, m₁, h₂, rest, rfl, haction, hrest, rfl⟩

/-- An answer that wraps the result of a call comes from that call. -/
theorem call_of_answer {α : Type} {x : Option (α × Machine × Hub M L)} {f : α → Answer} {a : Answer}
    (hx : (x.bind fun r => some (f r.1, r.2.1, r.2.2)) = some (a, m', h')) :
    ∃ b, x = some (b, m', h') ∧ a = f b := by
  obtain ⟨⟨b, _, _⟩, hcall, hb⟩ := Option.bind_eq_some_iff.1 hx
  cases hb
  exact ⟨b, hcall, rfl⟩

end Machine

/-- Driving a machine by its name leaves the hub alone if it is absent or in use; else the machine is out of its seat
for the call, and back in it afterwards. -/
theorem Hub.drive_cases {α : Type} {h h' : Hub M L} {name : String}
    {f : Machine → Hub M L → Option (α × Machine × Hub M L)} {u : Usage α}
    (hdrive : h.drive name f = some (u, h')) :
    (h.machines[name]? = none ∧ u = .absent ∧ h' = h) ∨
      (∃ flag, h.machines[name]? = some (.inUse flag) ∧ u = .busy ∧ h' = h) ∨
      ∃ m a m' k, h.machines[name]? = some (.idle m) ∧ f m (h.occupy name m) = some (a, m', k) ∧ u = .done a ∧
        h' = k.seat name m' := by
  unfold drive at hdrive
  split at hdrive
  · rename_i hseat
    cases hdrive
    exact .inl ⟨hseat, rfl, rfl⟩
  · rename_i flag hseat
    cases hdrive
    exact .inr (.inl ⟨flag, hseat, rfl, rfl⟩)
  · rename_i m hseat
    simp only [Option.bind_eq_bind, Option.bind_eq_some_iff, Option.pure_def, Option.some.injEq, Prod.mk.injEq,
      Prod.exists] at hdrive
    obtain ⟨a, m', k, hcall, rfl, rfl⟩ := hdrive
    exact .inr (.inr ⟨m, a, m', k, hseat, hcall, rfl, rfl⟩)

end VetoMachine
