import VetoMachine.Proofs.Deeds

/-!
# One call on two hubs

A call of a machine reads of a hub whether its cancel flag is raised and what waits in a mailbox, and otherwise only
publishes, warns, and raises and lowers the flag.  So a relation between two hubs that deliveries and these few steps
keep is kept by whatever is done to a machine, with the same answer and the same machine on both
(`TwinLaw.undergo`, `TwinLaw.drive`).
-/

namespace VetoMachine

variable {M L : Type}

/-- A relation between hubs that is kept by all that a call of a machine can do on both of them. -/
structure TwinLaw (publish : Publisher M L) (R : Hub M L → Hub M L → Prop) : Prop where
  publish : ∀ {h₁ h₂} n, R h₁ h₂ → Option.Rel R (publish n h₁) (publish n h₂)
  isRaised : ∀ {h₁ h₂} flag, R h₁ h₂ → h₁.isRaised flag = h₂.isRaised flag
  raise : ∀ {h₁ h₂} flag, R h₁ h₂ → R (h₁.raise flag) (h₂.raise flag)
  lower : ∀ {h₁ h₂} flag, R h₁ h₂ → R (h₁.lower flag) (h₂.lower flag)
  warn : ∀ {h₁ h₂} warnings, R h₁ h₂ → R (h₁.warn warnings) (h₂.warn warnings)
  pop : ∀ {h₁ h₂} mailbox, R h₁ h₂ →
    (h₁.pop mailbox).1 = (h₂.pop mailbox).1 ∧ R (h₁.pop mailbox).2 (h₂.pop mailbox).2
  machines : ∀ {h₁ h₂}, R h₁ h₂ → h₁.machines = h₂.machines
  withMachines : ∀ {h₁ h₂} machines, R h₁ h₂ → R { h₁ with machines } { h₂ with machines }

/-- The same has come of two computations, on related hubs. -/
def Twin {α : Type} (R : Hub M L → Hub M L → Prop) (x y : α × Hub M L) : Prop := x.1 = y.1 ∧ R x.2 y.2

/-- The same has come of two calls of a machine, on related hubs. -/
def TwinCall {α : Type} (R : Hub M L → Hub M L → Prop) (x y : α × Machine × Hub M L) : Prop :=
  x.1 = y.1 ∧ x.2.1 = y.2.1 ∧ R x.2.2 y.2.2

namespace TwinLaw

variable {publish : Publisher M L} {R : Hub M L → Hub M L → Prop} {h₁ h₂ : Hub M L} {m : Machine}

theorem publishIfAny (hR : TwinLaw publish R) (n : Option Notification) (h : R h₁ h₂) :
    Option.Rel R (h₁.publishIfAny publish n) (h₂.publishIfAny publish n) := by
  cases n with
  | none => exact .some h
  | some n => exact hR.publish n h

/-- At the end of a window both hubs go the same way. -/
private theorem window {α : Type} {S : α → α → Prop} (hR : TwinLaw publish R) (flag : FlagId) (h : R h₁ h₂)
    {x₁ x₂ y₁ y₂ : α} (hvetoed : S x₁ x₂) (hpassed : S y₁ y₂) :
    S (if h₁.isRaised flag then x₁ else y₁) (if h₂.isRaised flag then x₂ else y₂) := by
  rw [← hR.isRaised flag h]
  split
  · exact hvetoed
  · exact hpassed

theorem run (hR : TwinLaw publish R) (flag : FlagId) (p : Passage) (payload : Json) (h : R h₁ h₂) :
    Option.Rel (Twin R) (p.run publish flag payload h₁) (p.run publish flag payload h₂) := by
  refine rel_bind (hR.publishIfAny _ (hR.lower flag h)) fun a₁ a₂ ha => ?_
  refine hR.window flag ha (.some ⟨rfl, hR.lower flag ha⟩) ?_
  refine rel_bind (hR.publishIfAny _ (hR.lower flag ha)) fun b₁ b₂ hb => ?_
  refine hR.window flag hb (.some ⟨rfl, hR.lower flag hb⟩) ?_
  refine rel_bind (hR.publishIfAny _ (hR.lower flag hb)) fun c₁ c₂ hc => ?_
  refine rel_bind (hR.publish _ hc) fun d₁ d₂ hd => ?_
  exact .some ⟨rfl, hR.lower flag hd⟩

theorem transition (hR : TwinLaw publish R) (target : String) (payload : Json) (h : R h₁ h₂) :
    Option.Rel (TwinCall R) (m.transition publish target payload h₁) (m.transition publish target payload h₂) := by
  unfold Machine.transition
  cases m.passage? target with
  | none => exact .some ⟨rfl, rfl, h⟩
  | some p =>
    refine rel_bind (hR.run m.flag p payload h) ?_
    rintro ⟨o, k₁⟩ ⟨-, k₂⟩ ⟨rfl, hk⟩
    exact .some ⟨rfl, rfl, hk⟩

theorem handleAction (hR : TwinLaw publish R) (action : String) (payload : Json) (h : R h₁ h₂) :
    Option.Rel (TwinCall R) (m.handleAction publish action payload h₁) (m.handleAction publish action payload h₂) := by
  unfold Machine.handleAction
  cases m.boundTarget? action with
  | none => exact .some ⟨rfl, rfl, h⟩
  | some target =>
    dsimp only
    split
    · exact hR.transition target payload h
    · exact .some ⟨rfl, rfl, hR.warn _ h⟩

theorem handleNotification (hR : TwinLaw publish R) (n : Notification) (h : R h₁ h₂) :
    Option.Rel (TwinCall R) (m.handleNotification publish n h₁) (m.handleNotification publish n h₂) := by
  unfold Machine.handleNotification
  split
  · cases n.kind with
    | some action => exact hR.handleAction action n.body h
    | none => exact .some ⟨rfl, rfl, hR.warn _ h⟩
  · split
    · exact .some ⟨rfl, rfl, hR.raise m.flag h⟩
    · exact .some ⟨rfl, rfl, h⟩

theorem drain (hR : TwinLaw publish R) (mailbox : MailboxId) (fuel : Nat) (h : R h₁ h₂) :
    Option.Rel (TwinCall R) (m.drain publish mailbox fuel h₁) (m.drain publish mailbox fuel h₂) := by
  induction fuel generalizing m h₁ h₂ with
  | zero => exact .none
  | succ fuel ih =>
    unfold Machine.drain
    obtain ⟨hsame, hpop⟩ := hR.pop mailbox h
    rcases hpop₁ : h₁.pop mailbox with ⟨q, k₁⟩
    rcases hpop₂ : h₂.pop mailbox with ⟨_, k₂⟩
    rw [hpop₁, hpop₂] at hsame hpop
    cases hsame
    cases q with
    | none => exact .some ⟨rfl, rfl, hpop⟩
    | some q =>
      refine rel_bind (hR.handleAction q.action q.payload hpop) ?_
      rintro ⟨o, m', l₁⟩ ⟨-, -, l₂⟩ ⟨rfl, rfl, hl⟩
      refine rel_bind (ih hl) ?_
      rintro ⟨os, m'', l₁⟩ ⟨-, -, l₂⟩ ⟨rfl, rfl, hl⟩
      exact .some ⟨rfl, rfl, hl⟩

private theorem answer {α : Type} {x y : Option (α × Machine × Hub M L)} (hxy : Option.Rel (TwinCall R) x y)
    (f : α → Answer) :
    Option.Rel (TwinCall R) (x.bind fun a => some (f a.1, a.2.1, a.2.2))
      (y.bind fun a => some (f a.1, a.2.1, a.2.2)) := by
  refine rel_bind hxy ?_
  rintro ⟨a, m', k₁⟩ ⟨-, -, k₂⟩ ⟨rfl, rfl, hk⟩
  exact .some ⟨rfl, rfl, hk⟩

theorem perform (hR : TwinLaw publish R) (fuel : Nat) (op : Operation) (h : R h₁ h₂) :
    Option.Rel (TwinCall R) (m.perform publish fuel h₁ op) (m.perform publish fuel h₂ op) := by
  cases op with
  | register _ _ | startAt _ => exact .some ⟨rfl, rfl, hR.warn _ h⟩
  | remove _ | edit _ _ | editCurrent _ => exact .some ⟨rfl, rfl, h⟩
  | cancel => exact .some ⟨rfl, rfl, hR.raise m.flag h⟩
  | moveTo target payload => exact answer (hR.transition target payload h) .outcome
  | handleAction action payload => exact answer (hR.handleAction action payload h) .outcome
  | handleNotification n => exact answer (hR.handleNotification n h) .outcome
  | drain mailbox => exact answer (hR.drain mailbox fuel h) .outcomes

/-- Whatever is done to a machine has the same answer and leaves the same machine on both hubs. -/
theorem undergo (hR : TwinLaw publish R) (fuel : Nat) (deed : Deed) (h : R h₁ h₂) :
    Option.Rel (TwinCall R) (m.undergo publish fuel h₁ deed) (m.undergo publish fuel h₂ deed) := by
  cases deed with
  | operate op =>
    refine rel_bind (hR.perform fuel op h) ?_
    rintro ⟨a, m', k₁⟩ ⟨-, -, k₂⟩ ⟨rfl, rfl, hk⟩
    exact .some ⟨rfl, rfl, hk⟩
  | populate l =>
    unfold Machine.undergo
    dsimp only
    split <;> exact .some ⟨rfl, rfl, hR.warn _ h⟩

/-- The same machine is seated on both hubs. -/
theorem seat (hR : TwinLaw publish R) (name : String) (m : Machine) (h : R h₁ h₂) :
    R (h₁.seat name m) (h₂.seat name m) := by
  have hsame := hR.withMachines (h₁.machines.insert name (.idle m)) h
  unfold Hub.seat
  rwa [← hR.machines h]

/-- The same machine is taken out of its seat on both hubs. -/
theorem occupy (hR : TwinLaw publish R) (name : String) (m : Machine) (h : R h₁ h₂) :
    R (h₁.occupy name m) (h₂.occupy name m) := by
  have hsame := hR.withMachines (h₁.machines.insert name (.inUse m.flag)) h
  unfold Hub.occupy
  rwa [← hR.machines h]

/-- The machine of a name is driven on both hubs, or absent or in use on both. -/
theorem drive (hR : TwinLaw publish R) {α : Type}
    {f₁ f₂ : Machine → Hub M L → Option (α × Machine × Hub M L)}
    (hf : ∀ m {k₁ k₂}, R k₁ k₂ → Option.Rel (TwinCall R) (f₁ m k₁) (f₂ m k₂)) (name : String) (h : R h₁ h₂) :
    Option.Rel (Twin R) (h₁.drive name f₁) (h₂.drive name f₂) := by
  unfold Hub.drive
  rw [← hR.machines h]
  split
  · exact .some ⟨rfl, h⟩
  · exact .some ⟨rfl, h⟩
  · rename_i m hm
    refine rel_bind (hf m (hR.occupy name m h)) ?_
    rintro ⟨a, m', k₁⟩ ⟨-, -, k₂⟩ ⟨rfl, rfl, hk⟩
    exact .some ⟨rfl, hR.seat name m' hk⟩

end TwinLaw

end VetoMachine
