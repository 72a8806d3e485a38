import VetoMachine.Hub

/-!
# Cancel flags

Raising and lowering a cancel flag changes that flag and no other.  Two hubs agree up to a flag (`Hub.AgreeUpTo`)
if they are the same once the flag is lowered on both.
-/

namespace VetoMachine.Hub

variable {M L : Type}

@[simp] theorem isRaised_note (h : Hub M L) (e : Entry) (flag : FlagId) :
    (h.note e).isRaised flag = h.isRaised flag := rfl

@[simp] theorem isRaised_raise (h : Hub M L) (raised flag : FlagId) :
    (h.raise raised).isRaised flag = true ↔ raised = flag ∨ h.isRaised flag = true := by
  simp [raise, isRaised, note]

@[simp] theorem isRaised_lower (h : Hub M L) (lowered flag : FlagId) :
    (h.lower lowered).isRaised flag = true ↔ lowered ≠ flag ∧ h.isRaised flag = true := by
  simp [lower, isRaised]

@[simp] theorem isRaised_lower_self (h : Hub M L) (flag : FlagId) : (h.lower flag).isRaised flag = false := by
  simp [lower, isRaised]

/-- Lowering a flag that is not raised changes nothing. -/
theorem lower_eq_self {h : Hub M L} {flag : FlagId} (hf : h.isRaised flag = false) : h.lower flag = h := by
  have hflags : h.raisedFlags.erase flag = h.raisedFlags := by
    apply Std.ExtTreeSet.ext_contains
    intro other
    rw [Std.ExtTreeSet.contains_erase]
    by_cases hother : flag = other
    · subst hother; simpa [isRaised] using hf.symm
    · simp [hother]
  rw [lower, hflags]

@[simp] theorem lower_lower (h : Hub M L) (flag : FlagId) : (h.lower flag).lower flag = h.lower flag :=
  lower_eq_self (isRaised_lower_self h flag)

/-! ### Hubs that agree up to a flag -/

/-- Two hubs differ at most in whether a flag is raised. -/
def AgreeUpTo (flag : FlagId) (h₁ h₂ : Hub M L) : Prop := h₁.lower flag = h₂.lower flag

/-- Agreement up to a flag, part by part. -/
theorem agreeUpTo_iff {flag : FlagId} {h₁ h₂ : Hub M L} :
    AgreeUpTo flag h₁ h₂ ↔
      (∀ other, other ≠ flag → h₁.isRaised other = h₂.isRaised other) ∧ h₁.bus = h₂.bus ∧
        h₁.mailboxes = h₂.mailboxes ∧ h₁.machines = h₂.machines ∧ h₁.memory = h₂.memory ∧
        h₁.journal = h₂.journal ∧ h₁.nextFlag = h₂.nextFlag ∧ h₁.nextMailbox = h₂.nextMailbox := by
  have hflags : h₁.raisedFlags.erase flag = h₂.raisedFlags.erase flag ↔
      ∀ other, other ≠ flag → h₁.isRaised other = h₂.isRaised other := by
    constructor
    · intro heq other hother
      have hne : (compare flag other != .eq) = true :=
        bne_iff_ne.2 fun hc => hother (Std.LawfulEqOrd.eq_of_compare hc).symm
      have hcontains := congrArg (·.contains other) heq
      simp only [Std.ExtTreeSet.contains_erase, hne, Bool.true_and] at hcontains
      exact hcontains
    · intro hall
      apply Std.ExtTreeSet.ext_contains
      intro other
      rw [Std.ExtTreeSet.contains_erase, Std.ExtTreeSet.contains_erase]
      by_cases hother : other = flag
      · subst hother; simp
      · rw [← isRaised, ← isRaised, hall other hother]
  rw [← hflags, AgreeUpTo, lower, lower, Hub.mk.injEq]
  constructor
  · rintro ⟨hbus, hflags, hmailboxes, hmachines, hmemory, hjournal, hnextFlag, hnextMailbox⟩
    exact ⟨hflags, hbus, hmailboxes, hmachines, hmemory, hjournal, hnextFlag, hnextMailbox⟩
  · rintro ⟨hflags, hbus, hmailboxes, hmachines, hmemory, hjournal, hnextFlag, hnextMailbox⟩
    exact ⟨hbus, hflags, hmailboxes, hmachines, hmemory, hjournal, hnextFlag, hnextMailbox⟩

namespace AgreeUpTo

variable {flag : FlagId} {h₁ h₂ : Hub M L}

theorem warn (h : AgreeUpTo flag h₁ h₂) (warnings : List Warning) :
    AgreeUpTo flag (h₁.warn warnings) (h₂.warn warnings) := by
  unfold Hub.warn
  induction warnings generalizing h₁ h₂ with
  | nil => exact h
  | cons w rest ih =>
    have hnote : (h₁.lower flag).note (.warned w) = (h₂.lower flag).note (.warned w) := by rw [h]
    exact ih hnote

/-- The same action is taken from a mailbox. -/
theorem pop (h : AgreeUpTo flag h₁ h₂) (mailbox : MailboxId) :
    (h₁.pop mailbox).1 = (h₂.pop mailbox).1 ∧ AgreeUpTo flag (h₁.pop mailbox).2 (h₂.pop mailbox).2 := by
  have hlower : ∀ k : Hub M L, (k.lower flag).pop mailbox = ((k.pop mailbox).1, (k.pop mailbox).2.lower flag) := by
    intro k
    have hmailboxes : (k.lower flag).mailboxes = k.mailboxes := rfl
    unfold Hub.pop
    rw [hmailboxes]
    cases k.mailboxes[mailbox]? <;> rfl
  have hpop : (h₁.lower flag).pop mailbox = (h₂.lower flag).pop mailbox := congrArg (·.pop mailbox) h
  rw [hlower, hlower, Prod.mk.injEq] at hpop
  exact hpop

end AgreeUpTo

end VetoMachine.Hub
