import VetoMachine.Proofs.Seats

/-!
# Stale cancels

Whether the cancel flag of a machine is raised before a call makes no difference (`Machine.stale_cancel`): from hubs
that agree up to the flag the calls come to the same results, and the hubs agree up to the flag again.  A drain
comes to the same results even if somebody sets the flag at will before each of its actions
(`Machine.drainDisturbed`).  After every attempt to move the flag is down.
-/

namespace VetoMachine

variable {M L : Type}

/-- Sets a cancel flag up or down, or leaves it alone. -/
def Hub.disturb (h : Hub M L) (flag : FlagId) : Option Bool → Hub M L
  | none => h
  | some true => { h with raisedFlags := h.raisedFlags.insert flag }
  | some false => h.lower flag

theorem Hub.agreeUpTo_disturb (h : Hub M L) (flag : FlagId) (up : Option Bool) :
    (h.disturb flag up).AgreeUpTo flag h := by
  cases up with
  | none => rfl
  | some up =>
    cases up with
    | false => exact lower_lower h flag
    | true =>
      refine agreeUpTo_iff.2 ⟨?_, rfl, rfl, rfl, rfl, rfl, rfl, rfl⟩
      intro other hother
      have hne : (compare flag other == .eq) = false :=
        beq_eq_false_iff_ne.2 fun hc => hother (Std.LawfulEqOrd.eq_of_compare hc).symm
      simp only [disturb, isRaised, Std.ExtTreeSet.contains_insert, hne, Bool.false_or]

namespace Machine

/-- Drains a mailbox like `drain`, but before an action is handled the cancel flag of the machine is disturbed as a
schedule says. -/
def drainDisturbed (publish : Publisher M L) (mailbox : MailboxId) (up : Nat → Option Bool) :
    Nat → Machine → Hub M L → Option (List Outcome × Machine × Hub M L)
  | 0, _, _ => none
  | fuel + 1, m, h =>
    match h.pop mailbox with
    | (none, h) => some ([], m, h)
    | (some q, h) => do
      let (outcome, m, h) ← m.handleAction publish q.action q.payload (h.disturb m.flag (up fuel))
      let (outcomes, m, h) ← drainDisturbed publish mailbox up fuel m h
      return (outcome :: outcomes, m, h)

/-- Results of calls of a machine that differ at most in whether its cancel flag is raised. -/
structure Alike {α : Type} (flag : FlagId) (r s : α × Machine × Hub M L) : Prop where
  answer : r.1 = s.1
  machine : r.2.1 = s.2.1
  flag_eq : r.2.1.flag = flag
  hub : r.2.2.AgreeUpTo flag s.2.2

variable {publish : Publisher M L} {m : Machine} {h₁ h₂ : Hub M L}

/-- A drain that is not disturbed is a drain. -/
theorem drainDisturbed_none (mailbox : MailboxId) (fuel : Nat) (m : Machine) (h : Hub M L) :
    m.drainDisturbed publish mailbox (fun _ => none) fuel h = m.drain publish mailbox fuel h := by
  induction fuel generalizing m h with
  | zero => rfl
  | succ fuel ih =>
    rcases hpop : h.pop mailbox with ⟨_ | q, h'⟩
    · simp only [drainDisturbed, drain, hpop]
    · simp only [drainDisturbed, drain, hpop, Hub.disturb, ih]

private theorem transition_alike (h : h₁.AgreeUpTo m.flag h₂) (target : String) (payload : Json) :
    Option.Rel (Alike m.flag) (m.transition publish target payload h₁) (m.transition publish target payload h₂) := by
  unfold transition
  cases m.passage? target with
  | none => exact .some ⟨rfl, rfl, rfl, h⟩
  | some p =>
    -- a passage begins by lowering the flag
    have hrun : p.run publish m.flag payload h₁ = p.run publish m.flag payload h₂ := by
      rw [Passage.run, Passage.run, h]
    simp only [hrun]
    cases p.run publish m.flag payload h₂ with
    | none => exact .none
    | some r =>
      refine .some ⟨rfl, rfl, ?_, rfl⟩
      cases r.1.isCommitted <;> rfl

private theorem handleAction_alike (h : h₁.AgreeUpTo m.flag h₂) (action : String) (payload : Json) :
    Option.Rel (Alike m.flag) (m.handleAction publish action payload h₁)
      (m.handleAction publish action payload h₂) := by
  unfold handleAction
  cases m.boundTarget? action with
  | none => exact .some ⟨rfl, rfl, rfl, h⟩
  | some target =>
    by_cases hregistered : m.isRegistered target = true
    · simp only [hregistered, if_true]
      exact transition_alike h target payload
    · simp only [hregistered]
      exact .some ⟨rfl, rfl, rfl, h.warn _⟩

/-- Drains go alike however they are disturbed. -/
private theorem drainDisturbed_alike (h : h₁.AgreeUpTo m.flag h₂) (mailbox : MailboxId) (fuel : Nat)
    (up₁ up₂ : Nat → Option Bool) :
    Option.Rel (Alike m.flag) (m.drainDisturbed publish mailbox up₁ fuel h₁)
      (m.drainDisturbed publish mailbox up₂ fuel h₂) := by
  induction fuel generalizing m h₁ h₂ with
  | zero => exact .none
  | succ fuel ih =>
    obtain ⟨hq, hrest⟩ := h.pop mailbox
    unfold drainDisturbed
    rcases hpop₁ : h₁.pop mailbox with ⟨q₁, k₁⟩
    rcases hpop₂ : h₂.pop mailbox with ⟨q₂, k₂⟩
    rw [hpop₁, hpop₂] at hq hrest
    cases hq
    cases q₁ with
    | none => exact .some ⟨rfl, rfl, rfl, hrest⟩
    | some q =>
      have hdisturbed : (k₁.disturb m.flag (up₁ fuel)).AgreeUpTo m.flag (k₂.disturb m.flag (up₂ fuel)) :=
        (k₁.agreeUpTo_disturb m.flag (up₁ fuel)).trans
          (Eq.trans hrest (k₂.agreeUpTo_disturb m.flag (up₂ fuel)).symm)
      refine rel_bind (handleAction_alike hdisturbed q.action q.payload) ?_
      rintro ⟨o, m₁, l₁⟩ ⟨_, _, l₂⟩ ⟨rfl, rfl, hflag, hl⟩
      rw [← hflag] at hl
      refine rel_bind (ih hl) ?_
      rintro ⟨os, m₂, n₁⟩ ⟨_, _, n₂⟩ ⟨rfl, rfl, hflag', hn⟩
      have hflag₂ : m₂.flag = m.flag := Eq.trans hflag' hflag
      rw [hflag] at hn
      exact .some ⟨rfl, rfl, hflag₂, hn⟩

private theorem isRaised_of_transition {target : String} {payload : Json} {o : Outcome} {m' : Machine} {h h' : Hub M L}
    (hcall : m.transition publish target payload h = some (o, m', h')) (ho : o ≠ .ignored) :
    h'.isRaised m.flag = false := by
  obtain ⟨-, hignored, -⟩ | ⟨next, -, hrun, -⟩ := transition_cases hcall
  · exact absurd hignored ho
  · exact Passage.isRaised_of_run hrun

private theorem isRaised_of_handleAction {action : String} {payload : Json} {o : Outcome} {m' : Machine}
    {h h' : Hub M L} (hcall : m.handleAction publish action payload h = some (o, m', h')) (ho : o ≠ .ignored) :
    h'.isRaised m.flag = false := by
  obtain ⟨-, hignored, -⟩ | ⟨target, next, -, -, hcall⟩ := handleAction_cases hcall
  · exact absurd hignored ho
  · exact isRaised_of_transition hcall ho

/-- From hubs that agree up to the cancel flag of a machine its calls come to the same outcomes and the same machine,
and to hubs that agree up to the flag, with the same journal in particular; a drain does so even if the flag is set
at will before each of its actions.  An attempt to move that is not ignored leaves the flag down. -/
theorem stale_cancel (h : h₁.AgreeUpTo m.flag h₂) :
    (∀ target payload,
      Option.Rel (Alike m.flag) (m.transition publish target payload h₁) (m.transition publish target payload h₂)) ∧
    (∀ action payload,
      Option.Rel (Alike m.flag) (m.handleAction publish action payload h₁)
        (m.handleAction publish action payload h₂)) ∧
    (∀ mailbox fuel,
      Option.Rel (Alike m.flag) (m.drain publish mailbox fuel h₁) (m.drain publish mailbox fuel h₂)) ∧
    (∀ mailbox fuel up,
      Option.Rel (Alike m.flag) (m.drain publish mailbox fuel h₁)
        (m.drainDisturbed publish mailbox up fuel h₂)) ∧
    (∀ {target payload o m' h'},
      m.transition publish target payload h₁ = some (o, m', h') → o ≠ .ignored → h'.isRaised m.flag = false) ∧
    ∀ {action payload o m' h'},
      m.handleAction publish action payload h₁ = some (o, m', h') → o ≠ .ignored → h'.isRaised m.flag = false := by
  refine ⟨transition_alike h, handleAction_alike h, ?_, ?_, isRaised_of_transition, isRaised_of_handleAction⟩
  · intro mailbox fuel
    rw [← drainDisturbed_none, ← drainDisturbed_none]
    exact drainDisturbed_alike h mailbox fuel _ _
  · intro mailbox fuel up
    rw [← drainDisturbed_none]
    exact drainDisturbed_alike h mailbox fuel _ up

/-- A door opens although its cancel flag has been raised before, and the flag is down afterwards. -/
theorem stale_cancel_door : ∃ h' m',
    door.transition (Hub.publishWithin (fun _ _ => .done) 1) "open" .null
        ((Hub.guardedDoor.occupy "door" door).disturb 0 (some true)) =
      some (.committed (some "closed") "open", m', h') ∧ h'.isRaised 0 = false := by
  have hagree : ((Hub.guardedDoor.occupy "door" door).disturb 0 (some true)).AgreeUpTo door.flag
      (Hub.guardedDoor.occupy "door" door) := Hub.agreeUpTo_disturb _ 0 (some true)
  have hquiet : ((door.transition (Hub.publishWithin (fun _ _ => .done) 1) "open" .null
      (Hub.guardedDoor.occupy "door" door)).map (·.1)) = some (.committed (some "closed") "open") := by
    decide
  obtain ⟨⟨o, m', h'⟩, hquiet, rfl⟩ := Option.map_eq_some_iff.1 hquiet
  obtain ⟨hrel, -, -, -, hdown, -⟩ := stale_cancel hagree
  have hrel := hrel "open" .null
  rw [hquiet] at hrel
  cases hcall : door.transition (Hub.publishWithin (fun _ _ => .done) 1) "open" .null
      ((Hub.guardedDoor.occupy "door" door).disturb 0 (some true)) with
  | none => rw [hcall] at hrel; cases hrel
  | some r =>
    obtain ⟨o', m'', h''⟩ := r
    rw [hcall] at hrel
    cases hrel with
    | some halike =>
      obtain ⟨rfl, -, -, -⟩ := halike
      exact ⟨h'', m'', rfl, hdown hcall nofun⟩

end Machine

end VetoMachine
