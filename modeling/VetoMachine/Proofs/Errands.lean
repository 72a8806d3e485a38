import VetoMachine.Proofs.Observers

/-!
# Two runs that differ in observers and in the log

An errand is something done with a hub from outside.  Lists of errands are done one after the other on a hub that is
empty at first (`Hub.runAll`).  If two such lists add to a third one nothing but clearings of the log and subscriptions
of observers, then the machines cannot tell the two runs apart, however many notifications the logs hold
(`observers_invisible`).
-/

namespace VetoMachine

variable {M L : Type}

/-- Something done with a hub that no listener does. -/
inductive Chore where
  | newFlag
  /-- Stores a machine without states under a name. -/
  | newMachine (name : String)
  /-- Builds a machine and stores it under a name. -/
  | build (name : String) (a : Assembly)
  | load (l : Loader)
  /-- Makes a machine from a loader and stores it under a name. -/
  | inject (name : String) (l : Loader)
  | undergo (name : String) (deed : Deed)
  | newMailbox
  | connect (flag : FlagId)
  | pop (mailbox : MailboxId)
  | hold (mailbox : MailboxId)

/-- What a chore gives back. -/
inductive Receipt where
  | done
  | flag (flag : FlagId)
  | mailbox (mailbox : MailboxId)
  | notBuilt (e : AssemblyError)
  | loaded (r : Except Rejection (List State))
  | rejected (r : Rejection)
  | used (usage : Usage (Except Rejection Answer))
  | popped (q : Option QueuedAction)

/-- Something done with a hub from outside. -/
inductive Errand (M L : Type) where
  /-- What a listener could do as well. -/
  | run (r : Reaction M L)
  | chore (c : Chore)

namespace Hub

/-- Does a chore; a mailbox is drained in less than `fuel` actions. -/
def attend (publish : Publisher M L) (fuel : Nat) (h : Hub M L) : Chore → Option (Receipt × Hub M L)
  | .newFlag => let (flag, h) := h.newFlag; some (.flag flag, h)
  | .newMachine name => let (flag, h) := h.newFlag; some (.flag flag, h.seat name (.empty flag))
  | .build name a =>
    let (flag, hub) := h.newFlag
    match a.build flag with
    | .error e => some (.notBuilt e, h)
    | .ok m => some (.flag flag, hub.seat name m)
  | .load l => some (.loaded l.load.1, h.warn l.loadWarnings)
  | .inject name l =>
    let (flag, h) := h.newFlag
    let h := h.warn (l.injectWarnings flag)
    match (l.inject flag).1 with
    | .error r => some (.rejected r, h)
    | .ok m => some (.flag flag, h.seat name m)
  | .undergo name deed => do
    let (usage, h) ← h.drive name fun m h => m.undergo publish fuel h deed
    return (.used usage, h)
  | .newMailbox => let (mailbox, h) := h.newMailbox; some (.mailbox mailbox, h)
  | .connect flag => let (mailbox, h) := h.connect flag; some (.mailbox mailbox, h)
  | .pop mailbox => let (q, h) := h.pop mailbox; some (.popped q, h)
  | .hold mailbox => some (.done, h.hold mailbox)

/-- Does one errand after the other, and gives what the chores give back. -/
def runAll (publish : Publisher M L) (fuel : Nat) : List (Errand M L) → Hub M L → Option (List Receipt × Hub M L)
  | [], h => some ([], h)
  | .run r :: errands, h => do
    let h ← r.run publish h
    runAll publish fuel errands h
  | .chore c :: errands, h => do
    let (receipt, h) ← h.attend publish fuel c
    let (receipts, h) ← runAll publish fuel errands h
    return (receipt :: receipts, h)

end Hub

/-- The errands of one list are those of another, and besides only such as clear the log, and add and remove
observers. -/
inductive Fuller (k : Correspondence M L) : List (Errand M L) → List (Errand M L) → Prop where
  | nil : Fuller k [] []
  | chore (c : Chore) {es es' : List (Errand M L)} (h : Fuller k es es') : Fuller k (.chore c :: es) (.chore c :: es')
  | run {r s : Reaction M L} {es es' : List (Errand M L)}
      (hr : ∀ {ρ μ μ'}, k.memory ρ μ μ' → r.Echoes k ρ μ μ' s) (h : Fuller k es es') :
      Fuller k (.run r :: es) (.run s :: es')
  | extra {s : Reaction M L} {es es' : List (Errand M L)}
      (hs : ∀ {ρ μ μ'}, k.memory ρ μ μ' → Reaction.done.Echoes k ρ μ μ' s) (h : Fuller k es es') :
      Fuller k es (.run s :: es')

variable {k : Correspondence M L} {ρ : Ledger} {publish : Publisher M L} {h h' : Hub M L}

theorem Fuller.append {es es' fs fs' : List (Errand M L)} (h : Fuller k es es') (h' : Fuller k fs fs') :
    Fuller k (es ++ fs) (es' ++ fs') := by
  induction h with
  | nil => exact h'
  | chore c _ ih => exact .chore c ih
  | run hr _ ih => exact .run hr ih
  | extra hs _ ih => exact .extra hs ih

namespace Hub.Together

theorem newFlag (ht : Together k ρ h h') : h.newFlag.1 = h'.newFlag.1 ∧ Together k ρ h.newFlag.2 h'.newFlag.2 := by
  refine ⟨?_, ht.step (·.newFlag.2) (fun hm => hm.newFlag.2) fun _ => rfl⟩
  obtain ⟨ρ', -, hm, -⟩ := ht
  exact hm.newFlag.1

/-- A chore is done in both runs, with the same receipt, or comes to no end in either. -/
theorem attend (hpub : KeepsTogether k publish) (fuel : Nat) (c : Chore) (ht : Together k ρ h h') :
    Option.Rel (Twin (Together k ρ)) (h.attend publish fuel c) (h'.attend publish fuel c) := by
  have hlaw := hpub.twinLaw ρ
  obtain ⟨hflag, hnew⟩ := ht.newFlag
  cases c with
  | newFlag => exact .some ⟨congrArg Receipt.flag hflag, hnew⟩
  | newMachine name =>
    simp only [Hub.attend, ← hflag]
    exact .some ⟨rfl, hlaw.seat name _ hnew⟩
  | build name a =>
    simp only [Hub.attend, ← hflag]
    cases a.build h.newFlag.1 with
    | error e => exact .some ⟨rfl, ht⟩
    | ok m => exact .some ⟨rfl, hlaw.seat name m hnew⟩
  | load l => exact .some ⟨rfl, hlaw.warn _ ht⟩
  | inject name l =>
    simp only [Hub.attend, ← hflag]
    cases (l.inject h.newFlag.1).1 with
    | error r => exact .some ⟨rfl, hlaw.warn _ hnew⟩
    | ok m => exact .some ⟨rfl, hlaw.seat name m (hlaw.warn _ hnew)⟩
  | undergo name deed =>
    have hcall (m : Machine) {k₁ k₂ : Hub M L} (hR : Together k ρ k₁ k₂) := hlaw.undergo (m := m) fuel deed hR
    refine rel_bind (hlaw.drive hcall name ht) ?_
    rintro ⟨usage, k₁⟩ ⟨-, k₂⟩ ⟨rfl, hk⟩
    exact .some ⟨rfl, hk⟩
  | newMailbox =>
    obtain ⟨ρ', hρ, hm, hμ⟩ := ht
    exact .some ⟨congrArg Receipt.mailbox hm.newMailbox.1, ρ', hρ, hm.newMailbox.2, hμ⟩
  | connect flag =>
    obtain ⟨ρ', hρ, hm, hμ⟩ := ht
    have hgrown : ρ.Grows ρ'.shared.shared := .shared (.shared hρ)
    exact .some ⟨congrArg Receipt.mailbox (hm.connect flag).1, _, hgrown, (hm.connect flag).2,
      k.memory_grows (.shared (.shared .refl)) hμ⟩
  | pop mailbox =>
    obtain ⟨hsame, hpop⟩ := hlaw.pop mailbox ht
    exact .some ⟨congrArg Receipt.popped hsame, hpop⟩
  | hold mailbox =>
    exact .some ⟨rfl, ht.step (·.hold mailbox) (fun hm => hm.hold mailbox) fun h => memory_updateMailbox h mailbox _⟩

/-- The errands of two runs are done with the same receipts, or come to no end in either. -/
theorem runAll (hpub : KeepsTogether k publish) (fuel : Nat) {es es' : List (Errand M L)} (hes : Fuller k es es')
    (ht : Together k ρ h h') :
    Option.Rel (Twin (Together k ρ)) (h.runAll publish fuel es) (h'.runAll publish fuel es') := by
  induction hes generalizing h h' with
  | nil => exact .some ⟨rfl, ht⟩
  | chore c _ ih =>
    refine rel_bind (ht.attend hpub fuel c) ?_
    rintro ⟨receipt, k₁⟩ ⟨-, k₂⟩ ⟨rfl, hk⟩
    refine rel_bind (ih hk) ?_
    rintro ⟨receipts, l₁⟩ ⟨-, l₂⟩ ⟨rfl, hl⟩
    exact .some ⟨rfl, hl⟩
  | run hr _ ih =>
    obtain ⟨ρ', hρ, hm, hμ⟩ := ht
    refine rel_bind ((hr hμ).run hpub hm rfl rfl) ?_
    exact fun k₁ k₂ hk => ih (hk.since hρ)
  | extra hs _ ih =>
    obtain ⟨ρ', hρ, hm, hμ⟩ := ht
    refine rel_bind (x := some h) ((hs hμ).run hpub hm rfl rfl) ?_
    exact fun k₁ k₂ hk => ih (hk.since hρ)

end Hub.Together

/-! ### What both runs have in common -/

/-- Two computations that each go as a third does. -/
private theorem rel_cases {α β γ : Type} {R : α → β → Prop} {S : α → γ → Prop} {x : Option α} {y : Option β}
    {z : Option γ} (h : Option.Rel R x y) (h' : Option.Rel S x z) :
    (x = none ∧ y = none ∧ z = none) ∨
      ∃ a b c, x = some a ∧ y = some b ∧ z = some c ∧ R a b ∧ S a c := by
  cases h with
  | none =>
    cases h'
    exact .inl ⟨rfl, rfl, rfl⟩
  | some hab =>
    cases h' with
    | some hac => exact .inr ⟨_, _, _, rfl, rfl, rfl, hab, hac⟩

/-- Two entries that each tell what a third tells tell the same. -/
theorem Entry.Matches.meet {same same' : SubscriptionId → SubscriptionId → Prop} {e e₁ e₂ : Entry}
    (h₁ : e.Matches same e₁) (h₂ : e.Matches same' e₂) :
    e₁.Matches (fun j j' => ∃ i, same i j ∧ same' i j') e₂ := by
  cases h₁ with
  | plain he =>
    cases h₂ with
    | plain _ => exact .plain he
    | called _ _ | returned _ => cases he
  | called hij n =>
    cases h₂ with
    | plain he => cases he
    | called hij' _ => exact .called ⟨_, hij, hij'⟩ n
  | returned hij =>
    cases h₂ with
    | plain he => cases he
    | returned hij' => exact .returned ⟨_, hij, hij'⟩

private theorem forall₂_meet {α β γ : Type} {R : α → β → Prop} {S : α → γ → Prop} {T : β → γ → Prop}
    (hT : ∀ {a b c}, R a b → S a c → T b c) {as : List α} {bs : List β} {cs : List γ} (h : List.Forall₂ R as bs)
    (h' : List.Forall₂ S as cs) : List.Forall₂ T bs cs := by
  induction h generalizing cs with
  | nil =>
    cases h'
    exact .nil
  | cons hab _ ih =>
    cases h' with
    | cons hac h' => exact .cons (hT hab hac) (ih h')

/-- Journals that agree but for identifiers and hidden entries tell of the same publications. -/
theorem publishedIn_eq_of_forall₂ {same : SubscriptionId → SubscriptionId → Prop} {hidden hidden' : List SubscriptionId}
    {es es' : List Entry} (h : List.Forall₂ (Entry.Matches same) (visibleIn hidden es) (visibleIn hidden' es')) :
    publishedIn es = publishedIn es' := by
  rw [← publishedIn_visibleIn hidden es, ← publishedIn_visibleIn hidden' es']
  generalize visibleIn hidden es = xs, visibleIn hidden' es' = ys at h
  unfold publishedIn
  induction h with
  | nil => rfl
  | cons he _ ih =>
    rw [List.filterMap_cons, List.filterMap_cons, ih]
    cases he <;> rfl

namespace Hub

/-- The fuller run has the subscriptions of the plain one and those that its ledger tells, and its journal tells what
that of the plain one tells, but for clearings of the log and calls of the extra subscriptions. -/
structure Retells (k : Correspondence M L) (ρ : Ledger) (h h' : Hub M L) : Prop where
  plain : h.bus.nextId = ρ.plain
  fuller : h'.bus.nextId = ρ.fuller
  memory : k.memory ρ h.memory h'.memory
  journal : List.Forall₂ (Entry.Matches fun i j => (i, j) ∈ ρ.pairs) (visibleIn [] h.journal)
    (visibleIn ρ.extras h'.journal)

/-- Two runs, and a third that has the extra steps of neither, are the same but for the log, observers, and the
identifiers of subscriptions. -/
structure Indistinct (k : Correspondence M L) (h h₁ h₂ : Hub M L) : Prop where
  machines : h₁.machines = h₂.machines
  raisedFlags : h₁.raisedFlags = h₂.raisedFlags
  isMailbox : ∀ id, h₁.mailboxes.contains id = h₂.mailboxes.contains id
  queue : ∀ id, h₁.queue id = h₂.queue id
  published : publishedIn h₁.journal = publishedIn h₂.journal
  /-- All that happened is the same in both runs, and happened in the third. -/
  journal : ∃ ρ₁ ρ₂, h.Retells k ρ₁ h₁ ∧ h.Retells k ρ₂ h₂ ∧
    List.Forall₂ (Entry.Matches fun j j' => ∃ i, (i, j) ∈ ρ₁.pairs ∧ (i, j') ∈ ρ₂.pairs)
      (visibleIn ρ₁.extras h₁.journal) (visibleIn ρ₂.extras h₂.journal)

theorem Matches.retells (hm : h.Matches k ρ h') (hμ : k.memory ρ h.memory h'.memory) : h.Retells k ρ h' :=
  ⟨hm.bus.plain, hm.bus.fuller, hμ, hm.journal.forall₂⟩

theorem Together.indistinct {h₁ h₂ : Hub M L} (ht₁ : Together k ρ h h₁) (ht₂ : Together k ρ h h₂) :
    Indistinct k h h₁ h₂ := by
  obtain ⟨ρ₁, -, hm₁, hμ₁⟩ := ht₁
  obtain ⟨ρ₂, -, hm₂, hμ₂⟩ := ht₂
  have hjournal := forall₂_meet Entry.Matches.meet hm₁.journal.forall₂ hm₂.journal.forall₂
  exact {
    machines := hm₁.machines.symm.trans hm₂.machines
    raisedFlags := hm₁.raisedFlags.symm.trans hm₂.raisedFlags
    isMailbox := fun id => (hm₁.contains_mailboxes id).symm.trans (hm₂.contains_mailboxes id)
    queue := fun id => (hm₁.queue_eq id).symm.trans (hm₂.queue_eq id)
    published := publishedIn_eq_of_forall₂ hjournal
    journal := ⟨ρ₁, ρ₂, hm₁.retells hμ₁, hm₂.retells hμ₂, hjournal⟩ }

/-- Does errands on a hub that is empty at first. -/
def runAfresh (respond : Response M L) (depth fuel capacity : Nat) (memory : M) (errands : List (Errand M L)) :
    Option (List Receipt × Hub M L) :=
  (Hub.empty capacity memory).runAll (publishWithin respond depth) fuel errands

end Hub

/-- Two runs of the same errands that differ in the capacity of the log, in clearings of it and in observers have the
same receipts and are the same in all that machines, mailboxes and other listeners do. -/
theorem observers_invisible {respond : Response M L} (hk : k.Admits respond) {plain one other : List (Errand M L)}
    (hone : Fuller k plain one) (hother : Fuller k plain other) {μ μ₁ μ₂ : M} (hμ₁ : k.memory .empty μ μ₁)
    (hμ₂ : k.memory .empty μ μ₂) (depth fuel capacity capacity₁ capacity₂ : Nat) :
    (Hub.runAfresh respond depth fuel capacity μ plain = none ∧
        Hub.runAfresh respond depth fuel capacity₁ μ₁ one = none ∧
        Hub.runAfresh respond depth fuel capacity₂ μ₂ other = none) ∨
      ∃ receipts h h₁ h₂, Hub.runAfresh respond depth fuel capacity μ plain = some (receipts, h) ∧
        Hub.runAfresh respond depth fuel capacity₁ μ₁ one = some (receipts, h₁) ∧
        Hub.runAfresh respond depth fuel capacity₂ μ₂ other = some (receipts, h₂) ∧ Hub.Indistinct k h h₁ h₂ := by
  have hpub : Hub.KeepsTogether k (Hub.publishWithin respond depth) := Hub.keepsTogether_publishWithin hk depth
  have hempty₁ := (Hub.Matches.empty k capacity capacity₁ μ μ₁).together hμ₁
  have hempty₂ := (Hub.Matches.empty k capacity capacity₂ μ μ₂).together hμ₂
  have hrun₁ := hempty₁.runAll hpub fuel hone
  have hrun₂ := hempty₂.runAll hpub fuel hother
  obtain hendless | ⟨⟨receipts, h⟩, ⟨-, h₁⟩, ⟨-, h₂⟩, hx, hy, hz, ⟨rfl, ht₁⟩, ⟨rfl, ht₂⟩⟩ := rel_cases hrun₁ hrun₂
  · exact .inl hendless
  · exact .inr ⟨receipts, h, h₁, h₂, hx, hy, hz, ht₁.indistinct ht₂⟩

/-- The doorkeeper (`true`) vetoes a move once and goes; all others note the names of what they hear and clear the
log. -/
def doorkeeper : Response (Option SubscriptionId × List String) Bool
  | true, _ => .seek "door" fun
    | some flag => .cancel flag (.read fun m =>
      match m.1 with
      | some id => .unsubscribe id fun _ => .done
      | none => .done)
    | none => .done
  | false, n => .read fun m => .remember (m.1, n.name :: m.2) (.clearLog .done)

/-- The doorkeeper knows its subscription in both runs. -/
def doorkeeping : Correspondence (Option SubscriptionId × List String) Bool where
  memory ρ m m' := Option.Rel (fun i j => (i, j) ∈ ρ.pairs) m.1 m'.1
  code _ c c' := c = true ∧ c' = true
  observer c := c = false
  memory_grows hρ hm := rel_imp hm hρ.pairs
  code_grows _ hc := hc

theorem admits_doorkeeper : doorkeeping.Admits doorkeeper where
  code := by
    rintro ρ - - ⟨own, heard⟩ ⟨own', heard'⟩ n ⟨rfl, rfl⟩ hm
    refine .seek "door" fun flag => ?_
    cases flag with
    | none => exact .done hm
    | some flag =>
      refine .cancel flag (.read (.readExtra ?_))
      cases hm with
      | none => exact .done .none
      | some hij => exact .unsubscribe hij fun _ => .done (.some hij)
  observer := by
    rintro ρ - μ μ' n rfl hm
    exact .readExtra (.rememberExtra (.clearLogExtra (.done hm)))

/-- A door with a doorkeeper is opened twice, with more errands before and between. -/
def doorErrands (before between : List (Errand (Option SubscriptionId × List String) Bool)) :
    List (Errand (Option SubscriptionId × List String) Bool) :=
  before ++ [.chore (.newMachine "door"),
    .chore (.undergo "door" (.operate (.register { State.new "closed" with exiting := some "unlock" } true))),
    .chore (.undergo "door" (.operate (.register (State.new "open") false))),
    .run (.subscribe "unlock" true fun id => .read fun m => .remember (some id, m.2) .done),
    .chore (.undergo "door" (.operate (.moveTo "open" .null)))] ++ between ++
    [.chore (.undergo "door" (.operate (.moveTo "open" .null)))]

private theorem fuller_doorErrands {before between : List (Errand (Option SubscriptionId × List String) Bool)}
    (hbefore : Fuller doorkeeping [] before) (hbetween : Fuller doorkeeping [] between) :
    Fuller doorkeeping (doorErrands [] []) (doorErrands before between) := by
  refine ((hbefore.append ?_).append hbetween).append (.chore _ .nil)
  refine .chore _ (.chore _ (.chore _ (.run (fun _ => ?_) (.chore _ .nil))))
  refine .subscribe "unlock" ⟨rfl, rfl⟩ (.read (.readExtra (.remember (.rememberExtra (.done ?_)))))
  exact .some List.mem_cons_self

/-- The outcomes that a receipt tells. -/
def Receipt.outcomes : Receipt → List Outcome
  | .used (.done (.ok a)) => a.allOutcomes
  | _ => []

/-- Someone who listens at the door from the start. -/
def eavesdropper : Errand (Option SubscriptionId × List String) Bool :=
  .run (.subscribe "unlock" false fun _ => .done)

/-- Someone who clears the log and hears of changes from then on. -/
def latecomer : Errand (Option SubscriptionId × List String) Bool :=
  .run (.clearLog (.subscribe Notification.changedName false fun _ => .done))

/-- The door, which is not opened at first and then is, takes no notice of an eavesdropper or a latecomer. -/
theorem observers_invisible_door : doorkeeping.Admits doorkeeper ∧
    Fuller doorkeeping (doorErrands [] []) (doorErrands [eavesdropper] []) ∧
    Fuller doorkeeping (doorErrands [] []) (doorErrands [] [latecomer]) ∧
    doorkeeping.memory .empty (none, []) (none, []) ∧ ∃ receipts h h₁ h₂,
      Hub.runAfresh doorkeeper 2 1 3 (none, []) (doorErrands [] []) = some (receipts, h) ∧
      Hub.runAfresh doorkeeper 2 1 0 (none, []) (doorErrands [eavesdropper] []) = some (receipts, h₁) ∧
      Hub.runAfresh doorkeeper 2 1 9 (none, []) (doorErrands [] [latecomer]) = some (receipts, h₂) ∧
      Hub.Indistinct doorkeeping h h₁ h₂ ∧
      receipts.flatMap Receipt.outcomes = [.vetoedOnExit "closed" "open", .committed (some "closed") "open"] ∧
      h₁.memory.2 = ["unlock", "unlock"] ∧ h₂.memory.2 = [Notification.changedName] := by
  have hone : Fuller doorkeeping (doorErrands [] []) (doorErrands [eavesdropper] []) :=
    fuller_doorErrands (.extra (fun hm => .subscribeExtra "unlock" rfl (.done hm)) .nil) .nil
  have hother : Fuller doorkeeping (doorErrands [] []) (doorErrands [] [latecomer]) :=
    fuller_doorErrands .nil
      (.extra (fun hm => .clearLogExtra (.subscribeExtra Notification.changedName rfl (.done hm))) .nil)
  have hends₁ : (Hub.runAfresh doorkeeper 2 1 0 (none, []) (doorErrands [eavesdropper] [])).map
      (fun x => (x.1.flatMap Receipt.outcomes, x.2.memory.2)) =
        some ([.vetoedOnExit "closed" "open", .committed (some "closed") "open"], ["unlock", "unlock"]) := by
    decide +kernel
  have hends₂ : (Hub.runAfresh doorkeeper 2 1 9 (none, []) (doorErrands [] [latecomer])).map
      (fun x => x.2.memory.2) = some [Notification.changedName] := by decide +kernel
  have hmemory : doorkeeping.memory .empty (none, []) (none, []) := .none
  obtain ⟨-, hnone, -⟩ | ⟨receipts, h, h₁, h₂, hrun, hrun₁, hrun₂, hsame⟩ :=
    observers_invisible admits_doorkeeper hone hother hmemory hmemory 2 1 3 0 9
  · rw [hnone] at hends₁
    cases hends₁
  · rw [hrun₁] at hends₁
    rw [hrun₂] at hends₂
    obtain ⟨houtcomes, hheard₁⟩ := Prod.mk.inj (Option.some.inj hends₁)
    exact ⟨admits_doorkeeper, hone, hother, hmemory, receipts, h, h₁, h₂, hrun, hrun₁, hrun₂, hsame, houtcomes, hheard₁,
      Option.some.inj hends₂⟩

end VetoMachine
