import VetoMachine.Proofs.Parallels
import VetoMachine.Proofs.Twins

/-!
# Listeners of two runs

A reaction of the fuller run echoes one of the plain run if it takes the same steps, and besides only uses the memory,
clears the log, and adds and removes observers (`Reaction.Echoes`).  If every listener echoes the one it corresponds to,
and observers echo nothing at all (`Correspondence.Admits`), then a delivery leads from matching hubs to matching hubs,
or comes to no end in either run (`Hub.keepsTogether_publishWithin`).
-/

namespace VetoMachine

variable {M L : Type}

/-- A reaction in the fuller run does what another does in the plain run.  The memories are those at the outset; what
they are after a delivery is not known, but that they correspond. -/
inductive Reaction.Echoes (k : Correspondence M L) : Ledger → M → M → Reaction M L → Reaction M L → Prop where
  | done {ρ : Ledger} {μ μ' : M} (hμ : k.memory ρ μ μ') : Echoes k ρ μ μ' .done .done
  | read {ρ : Ledger} {μ μ' : M} {next : M → Reaction M L} {s : Reaction M L} (h : Echoes k ρ μ μ' (next μ) s) :
      Echoes k ρ μ μ' (.read next) s
  | readExtra {ρ : Ledger} {μ μ' : M} {r : Reaction M L} {next : M → Reaction M L} (h : Echoes k ρ μ μ' r (next μ')) :
      Echoes k ρ μ μ' r (.read next)
  | remember {ρ : Ledger} {μ μ' ν : M} {r s : Reaction M L} (h : Echoes k ρ ν μ' r s) :
      Echoes k ρ μ μ' (.remember ν r) s
  | rememberExtra {ρ : Ledger} {μ μ' ν' : M} {r s : Reaction M L} (h : Echoes k ρ μ ν' r s) :
      Echoes k ρ μ μ' r (.remember ν' s)
  | seek {ρ : Ledger} {μ μ' : M} {r s : Option FlagId → Reaction M L} (machine : String)
      (h : ∀ flag, Echoes k ρ μ μ' (r flag) (s flag)) : Echoes k ρ μ μ' (.seek machine r) (.seek machine s)
  | cancel {ρ : Ledger} {μ μ' : M} {r s : Reaction M L} (flag : FlagId) (h : Echoes k ρ μ μ' r s) :
      Echoes k ρ μ μ' (.cancel flag r) (.cancel flag s)
  | check {ρ : Ledger} {μ μ' : M} {r s : Bool → Reaction M L} (flag : FlagId)
      (h : ∀ raised, Echoes k ρ μ μ' (r raised) (s raised)) : Echoes k ρ μ μ' (.check flag r) (.check flag s)
  | publish {ρ : Ledger} {μ μ' : M} {r s : Reaction M L} (n : Notification) (hμ : k.memory ρ μ μ')
      (h : ∀ {ρ' ν ν'}, ρ.Grows ρ' → k.memory ρ' ν ν' → Echoes k ρ' ν ν' r s) :
      Echoes k ρ μ μ' (.publish n r) (.publish n s)
  | subscribe {ρ : Ledger} {μ μ' : M} {c c' : L} {r s : SubscriptionId → Reaction M L} (name : String)
      (hc : k.code ρ.shared c c') (h : Echoes k ρ.shared μ μ' (r ρ.plain) (s ρ.fuller)) :
      Echoes k ρ μ μ' (.subscribe name c r) (.subscribe name c' s)
  | subscribeExtra {ρ : Ledger} {μ μ' : M} {c : L} {r : Reaction M L} {s : SubscriptionId → Reaction M L}
      (name : String) (hc : k.observer c) (h : Echoes k ρ.extra μ μ' r (s ρ.fuller)) :
      Echoes k ρ μ μ' r (.subscribe name c s)
  | unsubscribe {ρ : Ledger} {μ μ' : M} {i j : SubscriptionId} {r s : Bool → Reaction M L} (hij : (i, j) ∈ ρ.pairs)
      (h : ∀ removed, Echoes k ρ μ μ' (r removed) (s removed)) : Echoes k ρ μ μ' (.unsubscribe i r) (.unsubscribe j s)
  | unsubscribeExtra {ρ : Ledger} {μ μ' : M} {j : SubscriptionId} {r : Reaction M L} {s : Bool → Reaction M L}
      (hj : j ∈ ρ.extras) (h : ∀ removed, Echoes k ρ μ μ' r (s removed)) : Echoes k ρ μ μ' r (.unsubscribe j s)
  | push {ρ : Ledger} {μ μ' : M} {r s : Reaction M L} (mailbox : MailboxId) (q : QueuedAction)
      (h : Echoes k ρ μ μ' r s) : Echoes k ρ μ μ' (.push mailbox q r) (.push mailbox q s)
  | clearLog {ρ : Ledger} {μ μ' : M} {r s : Reaction M L} (h : Echoes k ρ μ μ' r s) :
      Echoes k ρ μ μ' (.clearLog r) (.clearLog s)
  | clearLogExtra {ρ : Ledger} {μ μ' : M} {r s : Reaction M L} (h : Echoes k ρ μ μ' r s) :
      Echoes k ρ μ μ' r (.clearLog s)
  | release {ρ : Ledger} {μ μ' : M} {r s : Reaction M L} (mailbox : MailboxId) (h : Echoes k ρ μ μ' r s) :
      Echoes k ρ μ μ' (.release mailbox r) (.release mailbox s)
  | act {ρ : Ledger} {μ μ' : M} {r s : Usage Outcome → Reaction M L} (machine action : String) (payload : Json)
      (hμ : k.memory ρ μ μ')
      (h : ∀ {ρ' ν ν'} usage, ρ.Grows ρ' → k.memory ρ' ν ν' → Echoes k ρ' ν ν' (r usage) (s usage)) :
      Echoes k ρ μ μ' (.act machine action payload r) (.act machine action payload s)

/-- Corresponding listeners do the same, and observers only observe. -/
structure Correspondence.Admits (k : Correspondence M L) (respond : Response M L) : Prop where
  code : ∀ {ρ c c' μ μ'} n, k.code ρ c c' → k.memory ρ μ μ' → (respond c n).Echoes k ρ μ μ' (respond c' n)
  observer : ∀ {ρ c μ μ'} n, k.observer c → k.memory ρ μ μ' → Reaction.done.Echoes k ρ μ μ' (respond c n)

variable {k : Correspondence M L} {ρ ρ' : Ledger}

namespace Hub

/-- The hubs of two runs match, memories included; subscriptions may have been made since the ledger was drawn up. -/
def Together (k : Correspondence M L) (ρ : Ledger) (h h' : Hub M L) : Prop :=
  ∃ ρ', ρ.Grows ρ' ∧ h.Matches k ρ' h' ∧ k.memory ρ' h.memory h'.memory

/-- Deliveries keep the hubs of two runs together. -/
def KeepsTogether (k : Correspondence M L) (publish : Publisher M L) : Prop :=
  ∀ {ρ h h'} n, Together k ρ h h' → Option.Rel (Together k ρ) (publish n h) (publish n h')

variable {h h' : Hub M L} {publish : Publisher M L}

theorem Matches.together (hm : h.Matches k ρ h') (hμ : k.memory ρ h.memory h'.memory) : Together k ρ h h' :=
  ⟨ρ, .refl, hm, hμ⟩

theorem Together.since (ht : Together k ρ' h h') (hρ : ρ.Grows ρ') : Together k ρ h h' := by
  obtain ⟨ρ'', hρ', hm, hμ⟩ := ht
  exact ⟨ρ'', hρ.trans hρ', hm, hμ⟩

/-- What is done on both hubs, and makes no subscriptions and leaves the memory alone, keeps them together. -/
theorem Together.step (f : Hub M L → Hub M L) (hf : ∀ {ρ'}, h.Matches k ρ' h' → (f h).Matches k ρ' (f h'))
    (hmemory : ∀ h, (f h).memory = h.memory) (ht : Together k ρ h h') : Together k ρ (f h) (f h') := by
  obtain ⟨ρ', hρ, hm, hμ⟩ := ht
  refine ⟨ρ', hρ, hf hm, ?_⟩
  rwa [hmemory, hmemory]

/-- All that a call of a machine does on both hubs keeps them together. -/
theorem KeepsTogether.twinLaw (hpub : KeepsTogether k publish) (ρ : Ledger) : TwinLaw publish (Together k ρ) where
  publish n ht := hpub n ht
  isRaised flag ht := by
    obtain ⟨ρ', -, hm, -⟩ := ht
    exact hm.isRaised flag
  raise flag ht := ht.step (·.raise flag) (fun hm => hm.raise flag) fun _ => rfl
  lower flag ht := ht.step (·.lower flag) (fun hm => hm.lower flag) fun _ => rfl
  warn warnings ht := ht.step (·.warn warnings) (fun hm => hm.warn warnings) fun h => memory_warn h warnings
  pop mailbox ht := by
    refine ⟨?_, ht.step (fun h => (h.pop mailbox).2) (fun hm => (hm.pop mailbox).2) fun h => memory_pop h mailbox⟩
    obtain ⟨ρ', -, hm, -⟩ := ht
    exact (hm.pop mailbox).1
  machines ht := by
    obtain ⟨ρ', -, hm, -⟩ := ht
    exact hm.machines
  withMachines machines ht := ht.step (fun h => { h with machines }) (fun hm => hm.withMachines machines) fun _ => rfl

end Hub

open Hub

/-- A reaction and its echo lead from matching hubs to matching hubs. -/
theorem Reaction.Echoes.run {publish : Publisher M L} (hpub : KeepsTogether k publish) {μ μ' : M}
    {r s : Reaction M L} (hr : r.Echoes k ρ μ μ' s) {h h' : Hub M L} (hm : h.Matches k ρ h') (hμ : h.memory = μ)
    (hμ' : h'.memory = μ') : Option.Rel (Together k ρ) (r.run publish h) (s.run publish h') := by
  induction hr generalizing h h' with
  | done hmemory =>
    subst hμ hμ'
    exact .some (hm.together hmemory)
  | read _ ih =>
    subst hμ
    exact ih hm rfl hμ'
  | readExtra _ ih =>
    subst hμ'
    exact ih hm hμ rfl
  | remember _ ih => exact ih (hm.withMemory _ h'.memory) rfl hμ'
  | rememberExtra _ ih => exact ih (hm.withMemory h.memory _) hμ rfl
  | seek machine _ ih =>
    have hflag : h.flagOf machine = h'.flagOf machine := by rw [flagOf, flagOf, hm.machines]
    unfold Reaction.run
    rw [← hflag]
    exact ih _ hm hμ hμ'
  | cancel flag _ ih => exact ih (hm.raise flag) hμ hμ'
  | check flag _ ih =>
    unfold Reaction.run
    rw [← hm.isRaised flag]
    exact ih _ hm hμ hμ'
  | publish n hmemory _ ih =>
    subst hμ hμ'
    refine rel_bind (hpub n (hm.together hmemory)) ?_
    rintro k₁ k₂ ⟨ρ', hρ, hm', hmemory'⟩
    exact rel_imp (ih hρ hmemory' hm' rfl rfl) fun ht => ht.since hρ
  | subscribe name hc _ ih =>
    obtain ⟨hid, hid', hm'⟩ := hm.subscribe name (.custom hc)
    rw [← hid, ← hid'] at ih
    exact rel_imp (ih hm' hμ hμ') fun ht => ht.since (.shared .refl)
  | subscribeExtra name hc _ ih =>
    obtain ⟨hid, hm'⟩ := hm.subscribeExtra name hc
    rw [← hid] at ih
    exact rel_imp (ih hm' hμ hμ') fun ht => ht.since (.extra .refl)
  | unsubscribe hij _ ih =>
    obtain ⟨hremoved, hm'⟩ := hm.unsubscribe hij
    unfold Reaction.run
    dsimp only
    rw [← hremoved]
    exact ih _ hm' hμ hμ'
  | unsubscribeExtra hj _ ih => exact ih _ (hm.unsubscribeExtra hj) hμ hμ'
  | push mailbox q _ ih =>
    exact ih (hm.push mailbox q) ((memory_push h mailbox q).trans hμ) ((memory_push h' mailbox q).trans hμ')
  | clearLog _ ih => exact ih hm.clearLog hμ hμ'
  | clearLogExtra _ ih => exact ih hm.clearLogExtra hμ hμ'
  | release mailbox _ ih =>
    exact ih (hm.release mailbox) ((memory_release h mailbox).trans hμ) ((memory_release h' mailbox).trans hμ')
  | @act ρ μ μ' r s machine action payload hmemory _ ih =>
    subst hμ hμ'
    have hlaw := hpub.twinLaw ρ
    have hcall (m : Machine) {k₁ k₂ : Hub M L} (hR : Together k ρ k₁ k₂) := hlaw.handleAction (m := m) action payload hR
    refine rel_bind (hlaw.drive hcall machine (hm.together hmemory)) ?_
    rintro ⟨usage, k₁⟩ ⟨-, k₂⟩ ⟨rfl, ρ', hρ, hm', hmemory'⟩
    exact rel_imp (ih usage hρ hmemory' hm' rfl rfl) fun ht => ht.since hρ

namespace Hub

variable {respond : Response M L} {publish : Publisher M L} {h h' : Hub M L}

/-- Corresponding listeners react alike. -/
theorem Together.react (hk : k.Admits respond) (hpub : KeepsTogether k publish) (n : Notification) {l l' : Listener L}
    (hl : Listener.Matches k ρ l l') (hm : h.Matches k ρ h') (hμ : k.memory ρ h.memory h'.memory) :
    Option.Rel (Together k ρ) (react respond publish n l h) (react respond publish n l' h') := by
  cases hl with
  | inbox mailbox =>
    refine .some ((hm.receive mailbox n).together ?_)
    rwa [memory_receive, memory_receive]
  | canceller flag => exact .some ((hm.raise flag).together hμ)
  | custom hc => exact (hk.code n hc hμ).run hpub hm rfl rfl

/-- The listeners of the plain run are called in the fuller one as well, and between them only observers. -/
theorem Together.callAll (hk : k.Admits respond) (hpub : KeepsTogether k publish) (n : Notification)
    {ss ts : List (Subscription L)} (hs : Aligned k ρ ss ts) (hm : h.Matches k ρ h')
    (hμ : k.memory ρ h.memory h'.memory) :
    Option.Rel (Together k ρ) (callAll respond publish n ss h) (callAll respond publish n ts h') := by
  -- The calls may add subscriptions, so the ledger grows from one call to the next.
  suffices hgrown : ∀ {ρ' h h'}, ρ.Grows ρ' → h.Matches k ρ' h' → k.memory ρ' h.memory h'.memory →
      Option.Rel (Together k ρ') (Hub.callAll respond publish n ss h) (Hub.callAll respond publish n ts h') from
    hgrown .refl hm hμ
  clear hm hμ
  induction hs with
  | nil =>
    intro ρ' h h' hρ hm hμ
    exact .some (hm.together hμ)
  | shared hid hl _ ih =>
    intro ρ' h h' hρ hm hμ
    refine rel_bind (Together.react hk hpub n (hl.grows hρ) (hm.called (hρ.pairs hid) n) hμ) ?_
    rintro k₁ k₂ ⟨ρ'', hρ', hm', hμ'⟩
    have hboth := hρ.trans hρ'
    exact rel_imp (ih hboth (hm'.returned (hboth.pairs hid)) hμ') fun ht => ht.since hρ'
  | @extra j c ss ts hid hc _ ih =>
    intro ρ' h h' hρ hm hμ
    have hcalled : h.Matches k ρ' (h'.note (.called j n)) := hm.noteHidden (decide_eq_true (hρ.extras hid))
    refine rel_bind (x := some h) ((hk.observer n hc hμ).run hpub hcalled rfl rfl) ?_
    rintro k₁ k₂ ⟨ρ'', hρ', hm', hμ'⟩
    have hboth := hρ.trans hρ'
    have hreturned : k₁.Matches k ρ'' (k₂.note (.returned j)) := hm'.noteHidden (decide_eq_true (hboth.extras hid))
    exact rel_imp (ih hboth hreturned hμ') fun ht => ht.since hρ'

/-- A delivery keeps the hubs of two runs together, or comes to no end in either. -/
theorem keepsTogether_publishWithin (hk : k.Admits respond) (depth : Nat) :
    KeepsTogether k (publishWithin respond depth) := by
  induction depth with
  | zero => exact fun _ _ => .none
  | succ depth ih =>
    rintro ρ h h' n ⟨ρ', hρ, hm, hμ⟩
    refine rel_bind (Together.callAll hk ih n (hm.bus.tables n.name) (hm.record n) hμ) ?_
    rintro k₁ k₂ ⟨ρ'', hρ', hm', hμ'⟩
    exact .some ⟨ρ'', hρ.trans hρ', hm'.note rfl, hμ'⟩

end Hub

end VetoMachine
