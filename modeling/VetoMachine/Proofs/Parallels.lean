import Mathlib.Data.List.Forall2
import VetoMachine.Proofs.Ledgers
import VetoMachine.Proofs.Queues

/-!
# Hubs of two runs

The hubs of a plain and a fuller run match if they have the same machines, flags and mailboxes, if their buses match,
and if the journal of the fuller run tells what that of the plain run tells, and besides only of calls of observers and
of a log that was cleared (`Hub.Matches`).  What is in the logs does not matter.  Every step that both runs take keeps
the hubs matching, and so does a step of the fuller run that concerns only observers or the log.
-/

namespace VetoMachine

variable {M L : Type} {k : Correspondence M L} {ρ ρ' : Ledger}

/-! ### Mailboxes -/

/-- The subscriptions of a mailbox in both runs. -/
def Connection.Matches (ρ : Ledger) (c c' : Connection) : Prop :=
  (c.onAction, c'.onAction) ∈ ρ.pairs ∧ (c.onCancel, c'.onCancel) ∈ ρ.pairs

/-- A mailbox in both runs. -/
structure Mailbox.Matches (ρ : Ledger) (mb mb' : Mailbox) : Prop where
  queue : mb.queue = mb'.queue
  holders : mb.holders = mb'.holders
  connection : Option.Rel (Connection.Matches ρ) mb.connection mb'.connection

theorem Mailbox.Matches.grows {mb mb' : Mailbox} (h : mb.Matches ρ mb') (hρ : ρ.Grows ρ') : mb.Matches ρ' mb' where
  queue := h.queue
  holders := h.holders
  connection := rel_imp h.connection fun hc => ⟨hρ.pairs hc.1, hρ.pairs hc.2⟩

/-! ### Journals -/

/-- The subscription whose call an entry tells of. -/
def Entry.subscription? : Entry → Option SubscriptionId
  | .called id _ | .returned id => some id
  | _ => none

/-- The same entry, but for the identifier of a subscription that is called. -/
inductive Entry.Matches (same : SubscriptionId → SubscriptionId → Prop) : Entry → Entry → Prop where
  | plain {e : Entry} (he : e.subscription? = none) : Matches same e e
  | called {i j : SubscriptionId} (hij : same i j) (n : Notification) : Matches same (.called i n) (.called j n)
  | returned {i j : SubscriptionId} (hij : same i j) : Matches same (.returned i) (.returned j)

/-- Whether an entry tells that the log was cleared, or of a call of one of the subscriptions given. -/
def Entry.isHidden (hidden : List SubscriptionId) : Entry → Bool
  | .cleared => true
  | .called id _ | .returned id => id ∈ hidden
  | _ => false

/-- The entries of a journal that are not hidden. -/
def visibleIn (hidden : List SubscriptionId) (es : List Entry) : List Entry := es.filter fun e => !e.isHidden hidden

/-- Hidden entries tell nothing of what is published. -/
theorem publishedIn_visibleIn (hidden : List SubscriptionId) (es : List Entry) :
    publishedIn (visibleIn hidden es) = publishedIn es := by
  rw [publishedIn, publishedIn, visibleIn, List.filterMap_filter]
  refine List.filterMap_congr fun e _ => ?_
  cases e <;> first | rfl | exact ite_self none

/-- The journal of the fuller run is that of the plain run with hidden entries in between. -/
inductive Traced (ρ : Ledger) : List Entry → List Entry → Prop where
  | nil : Traced ρ [] []
  | shared {e e' : Entry} {es es' : List Entry} (he : e.Matches (fun i j => (i, j) ∈ ρ.pairs) e')
      (h : Traced ρ es es') : Traced ρ (e :: es) (e' :: es')
  | hidden {e' : Entry} {es es' : List Entry} (he : e'.isHidden ρ.extras = true) (h : Traced ρ es es') :
      Traced ρ es (e' :: es')

namespace Entry

variable {same same' : SubscriptionId → SubscriptionId → Prop} {e e' : Entry}

theorem Matches.imp (h : e.Matches same e') (hsame : ∀ {i j}, same i j → same' i j) : e.Matches same' e' := by
  cases h with
  | plain he => exact .plain he
  | called hij n => exact .called (hsame hij) n
  | returned hij => exact .returned (hsame hij)

/-- An entry that is hidden in the fuller run for its subscription has no counterpart. -/
theorem Matches.isHidden_eq (h : e.Matches (fun i j => (i, j) ∈ ρ.pairs) e') :
    e.isHidden [] = e'.isHidden ρ.extras := by
  cases h with
  | @plain e he => cases e <;> first | rfl | cases he
  | called hij n => simp [isHidden, Ledger.notMem_extras hij]
  | returned hij => simp [isHidden, Ledger.notMem_extras hij]

theorem isHidden_grows (h : e.isHidden ρ.extras = true) (hρ : ρ.Grows ρ') : e.isHidden ρ'.extras = true := by
  cases e with
  | cleared => rfl
  | called id n => exact decide_eq_true (hρ.extras (of_decide_eq_true h))
  | returned id => exact decide_eq_true (hρ.extras (of_decide_eq_true h))
  | _ => cases h

end Entry

namespace Traced

variable {es es' : List Entry}

theorem grows (h : Traced ρ es es') (hρ : ρ.Grows ρ') : Traced ρ' es es' := by
  induction h with
  | nil => exact .nil
  | shared he _ ih => exact .shared (he.imp hρ.pairs) ih
  | hidden he _ ih => exact .hidden (Entry.isHidden_grows he hρ) ih

/-- Without hidden entries the journals agree entry by entry. -/
theorem forall₂ (h : Traced ρ es es') :
    List.Forall₂ (Entry.Matches fun i j => (i, j) ∈ ρ.pairs) (visibleIn [] es) (visibleIn ρ.extras es') := by
  unfold visibleIn
  induction h with
  | nil => exact .nil
  | @shared e e' es es' he _ ih =>
    rw [List.filter_cons, List.filter_cons, he.isHidden_eq]
    split
    · exact .cons he ih
    · exact ih
  | @hidden e' es es' he _ ih => rwa [List.filter_cons, he, if_neg (by simp)]

end Traced

/-! ### Hubs -/

namespace Hub

/-- The hubs of two runs, with all subscriptions that a ledger tells.  The memories are left out. -/
structure Matches (k : Correspondence M L) (ρ : Ledger) (h h' : Hub M L) : Prop where
  bus : Bus.Matches k ρ h.bus h'.bus
  raisedFlags : h.raisedFlags = h'.raisedFlags
  mailboxes : ∀ id : MailboxId, Option.Rel (Mailbox.Matches ρ) h.mailboxes[id]? h'.mailboxes[id]?
  machines : h.machines = h'.machines
  journal : Traced ρ h.journal h'.journal
  nextFlag : h.nextFlag = h'.nextFlag
  nextMailbox : h.nextMailbox = h'.nextMailbox

namespace Matches

variable {h h' : Hub M L} {mb mb' : Mailbox} {id : MailboxId}

theorem empty (k : Correspondence M L) (capacity capacity' : Nat) (memory memory' : M) :
    Matches k .empty (Hub.empty capacity memory) (Hub.empty capacity' memory') where
  bus := .empty k capacity capacity'
  raisedFlags := rfl
  mailboxes id := by
    simp only [Hub.empty, Std.ExtTreeMap.getElem?_empty]
    exact .none
  machines := rfl
  journal := .nil
  nextFlag := rfl
  nextMailbox := rfl

theorem note (hm : h.Matches k ρ h') {e : Entry} (he : e.subscription? = none) : (h.note e).Matches k ρ (h'.note e) :=
  { hm with journal := .shared (.plain he) hm.journal }

theorem noteHidden (hm : h.Matches k ρ h') {e : Entry} (he : e.isHidden ρ.extras = true) :
    h.Matches k ρ (h'.note e) :=
  { hm with journal := .hidden he hm.journal }

theorem called (hm : h.Matches k ρ h') {i j : SubscriptionId} (hij : (i, j) ∈ ρ.pairs) (n : Notification) :
    (h.note (.called i n)).Matches k ρ (h'.note (.called j n)) :=
  { hm with journal := .shared (.called hij n) hm.journal }

theorem returned (hm : h.Matches k ρ h') {i j : SubscriptionId} (hij : (i, j) ∈ ρ.pairs) :
    (h.note (.returned i)).Matches k ρ (h'.note (.returned j)) :=
  { hm with journal := .shared (.returned hij) hm.journal }

theorem record (hm : h.Matches k ρ h') (n : Notification) : (h.record n).Matches k ρ (h'.record n) :=
  { hm with bus := hm.bus.record n, journal := .shared (.plain rfl) hm.journal }

theorem warn (hm : h.Matches k ρ h') (warnings : List Warning) : (h.warn warnings).Matches k ρ (h'.warn warnings) := by
  unfold Hub.warn
  induction warnings generalizing h h' with
  | nil => exact hm
  | cons w rest ih => exact ih (hm.note rfl)

theorem withMemory (hm : h.Matches k ρ h') (memory memory' : M) :
    { h with memory }.Matches k ρ { h' with memory := memory' } := { hm with }

theorem withMachines (hm : h.Matches k ρ h') (machines : Std.ExtTreeMap String Seat) :
    { h with machines }.Matches k ρ { h' with machines } := { hm with machines := rfl }

/-! Flags. -/

theorem isRaised (hm : h.Matches k ρ h') (flag : FlagId) : h.isRaised flag = h'.isRaised flag := by
  rw [Hub.isRaised, Hub.isRaised, hm.raisedFlags]

theorem raise (hm : h.Matches k ρ h') (flag : FlagId) : (h.raise flag).Matches k ρ (h'.raise flag) := by
  have hraised : { h with raisedFlags := h.raisedFlags.insert flag }.Matches k ρ
      { h' with raisedFlags := h'.raisedFlags.insert flag } := { hm with raisedFlags := by rw [hm.raisedFlags] }
  exact hraised.note rfl

theorem lower (hm : h.Matches k ρ h') (flag : FlagId) : (h.lower flag).Matches k ρ (h'.lower flag) :=
  { hm with raisedFlags := by rw [Hub.lower, Hub.lower, hm.raisedFlags] }

theorem newFlag (hm : h.Matches k ρ h') : h.newFlag.1 = h'.newFlag.1 ∧ h.newFlag.2.Matches k ρ h'.newFlag.2 :=
  ⟨hm.nextFlag, { hm with nextFlag := congrArg (· + 1) hm.nextFlag }⟩

/-! The log. -/

theorem clearLog (hm : h.Matches k ρ h') : h.clearLog.Matches k ρ h'.clearLog := by
  have hcleared : { h with bus := h.bus.clearLog }.Matches k ρ { h' with bus := h'.bus.clearLog } :=
    { hm with bus := ⟨hm.bus.tables, hm.bus.plain, hm.bus.fuller⟩ }
  exact hcleared.note rfl

theorem clearLogExtra (hm : h.Matches k ρ h') : h.Matches k ρ h'.clearLog := by
  have hcleared : h.Matches k ρ { h' with bus := h'.bus.clearLog } :=
    { hm with bus := ⟨hm.bus.tables, hm.bus.plain, hm.bus.fuller⟩ }
  exact hcleared.noteHidden rfl

/-! Mailboxes. -/

/-- Both runs have a mailbox, or none has. -/
theorem mailbox_cases (hm : h.Matches k ρ h') (id : MailboxId) :
    (h.mailboxes[id]? = none ∧ h'.mailboxes[id]? = none) ∨
      ∃ mb mb', h.mailboxes[id]? = some mb ∧ h'.mailboxes[id]? = some mb' ∧ mb.Matches ρ mb' := by
  have hmb := hm.mailboxes id
  generalize h.mailboxes[id]? = x, h'.mailboxes[id]? = y at hmb ⊢
  cases hmb with
  | none => exact .inl ⟨rfl, rfl⟩
  | some hmb => exact .inr ⟨_, _, rfl, rfl, hmb⟩

theorem contains_mailboxes (hm : h.Matches k ρ h') (id : MailboxId) :
    h.mailboxes.contains id = h'.mailboxes.contains id := by
  rw [Std.ExtTreeMap.contains_eq_isSome_getElem?, Std.ExtTreeMap.contains_eq_isSome_getElem?]
  obtain ⟨hplain, hfuller⟩ | ⟨mb, mb', hplain, hfuller, -⟩ := hm.mailbox_cases id <;>
    simp only [hplain, hfuller, Option.isSome_none, Option.isSome_some]

theorem insertMailbox (hm : h.Matches k ρ h') (id : MailboxId) (hmb : mb.Matches ρ mb') :
    { h with mailboxes := h.mailboxes.insert id mb }.Matches k ρ
      { h' with mailboxes := h'.mailboxes.insert id mb' } :=
  { hm with
    mailboxes := fun other => by
      rw [Std.ExtTreeMap.getElem?_insert, Std.ExtTreeMap.getElem?_insert]
      split
      · exact .some hmb
      · exact hm.mailboxes other }

theorem eraseMailbox (hm : h.Matches k ρ h') (id : MailboxId) :
    { h with mailboxes := h.mailboxes.erase id }.Matches k ρ { h' with mailboxes := h'.mailboxes.erase id } :=
  { hm with
    mailboxes := fun other => by
      rw [Std.ExtTreeMap.getElem?_erase, Std.ExtTreeMap.getElem?_erase]
      split
      · exact .none
      · exact hm.mailboxes other }

theorem updateMailbox (hm : h.Matches k ρ h') (id : MailboxId) {f : Mailbox → Mailbox}
    (hf : ∀ {mb mb'}, mb.Matches ρ mb' → (f mb).Matches ρ (f mb')) :
    (h.updateMailbox id f).Matches k ρ (h'.updateMailbox id f) := by
  unfold Hub.updateMailbox
  obtain ⟨hplain, hfuller⟩ | ⟨mb, mb', hplain, hfuller, hmb⟩ := hm.mailbox_cases id <;> rw [hplain, hfuller]
  · exact hm
  · exact hm.insertMailbox id (hf hmb)

private theorem put (hm : h.Matches k ρ h') (id : MailboxId) (q : QueuedAction) :
    (h.updateMailbox id (·.push q)).Matches k ρ (h'.updateMailbox id (·.push q)) :=
  hm.updateMailbox id fun hmb => { hmb with queue := by rw [Mailbox.push, Mailbox.push, hmb.queue] }

theorem push (hm : h.Matches k ρ h') (id : MailboxId) (q : QueuedAction) :
    (h.push id q).Matches k ρ (h'.push id q) := by
  unfold Hub.push
  rw [hm.contains_mailboxes id]
  split
  · exact (hm.put id q).note rfl
  · exact hm

theorem receive (hm : h.Matches k ρ h') (id : MailboxId) (n : Notification) :
    (h.receive id n).Matches k ρ (h'.receive id n) := by
  unfold Hub.receive
  rw [hm.contains_mailboxes id]
  split
  · cases n.kind with
    | some action => exact (hm.put id _).note rfl
    | none => exact hm.warn _
  · exact hm

theorem pop (hm : h.Matches k ρ h') (id : MailboxId) :
    (h.pop id).1 = (h'.pop id).1 ∧ (h.pop id).2.Matches k ρ (h'.pop id).2 := by
  unfold Hub.pop
  obtain ⟨hplain, hfuller⟩ | ⟨mb, mb', hplain, hfuller, hmb⟩ := hm.mailbox_cases id <;> rw [hplain, hfuller]
  · exact ⟨rfl, hm⟩
  · have htail : mb.pop.2.Matches ρ mb'.pop.2 := { hmb with queue := congrArg List.tail hmb.queue }
    exact ⟨congrArg List.head? hmb.queue, hm.insertMailbox id htail⟩

theorem hold (hm : h.Matches k ρ h') (id : MailboxId) : (h.hold id).Matches k ρ (h'.hold id) :=
  hm.updateMailbox id fun hmb => { hmb with holders := by rw [hmb.holders] }

theorem queue_eq (hm : h.Matches k ρ h') (id : MailboxId) : h.queue id = h'.queue id := by
  unfold Hub.queue
  obtain ⟨hplain, hfuller⟩ | ⟨mb, mb', hplain, hfuller, hmb⟩ := hm.mailbox_cases id <;> rw [hplain, hfuller]
  simp [hmb.queue]

/-! Subscriptions. -/

theorem subscribe (hm : h.Matches k ρ h') (name : String) {l l' : Listener L}
    (hl : Listener.Matches k ρ.shared l l') : (h.subscribe name l).1 = ρ.plain ∧ (h'.subscribe name l').1 = ρ.fuller ∧
      (h.subscribe name l).2.Matches k ρ.shared (h'.subscribe name l').2 := by
  refine ⟨hm.bus.plain, hm.bus.fuller, ?_⟩
  have hρ : ρ.Grows ρ.shared := .shared .refl
  refine { hm with bus := hm.bus.subscribe name hl, mailboxes := fun id => ?_, journal := hm.journal.grows hρ }
  exact rel_imp (hm.mailboxes id) fun hmb => hmb.grows hρ

theorem subscribeExtra (hm : h.Matches k ρ h') (name : String) {c : L} (hc : k.observer c) :
    (h'.subscribe name (.custom c)).1 = ρ.fuller ∧ h.Matches k ρ.extra (h'.subscribe name (.custom c)).2 := by
  refine ⟨hm.bus.fuller, ?_⟩
  have hρ : ρ.Grows ρ.extra := .extra .refl
  refine { hm with bus := hm.bus.subscribeExtra name hc, mailboxes := fun id => ?_, journal := hm.journal.grows hρ }
  exact rel_imp (hm.mailboxes id) fun hmb => hmb.grows hρ

theorem unsubscribe (hm : h.Matches k ρ h') {i j : SubscriptionId} (hij : (i, j) ∈ ρ.pairs) :
    (h.unsubscribe i).1 = (h'.unsubscribe j).1 ∧ (h.unsubscribe i).2.Matches k ρ (h'.unsubscribe j).2 :=
  ⟨(hm.bus.unsubscribe hij).1, { hm with bus := (hm.bus.unsubscribe hij).2 }⟩

theorem unsubscribeExtra (hm : h.Matches k ρ h') {j : SubscriptionId} (hj : j ∈ ρ.extras) :
    h.Matches k ρ (h'.unsubscribe j).2 :=
  { hm with bus := hm.bus.unsubscribeExtra hj }

theorem release (hm : h.Matches k ρ h') (id : MailboxId) : (h.release id).Matches k ρ (h'.release id) := by
  unfold Hub.release
  obtain ⟨hplain, hfuller⟩ | ⟨mb, mb', hplain, hfuller, hmb⟩ := hm.mailbox_cases id <;> rw [hplain, hfuller]
  · exact hm
  · dsimp only
    rw [hmb.holders]
    split
    · unfold Hub.dropMailbox
      have hdropped := hm.eraseMailbox id
      have hconnection := hmb.connection
      generalize mb.connection = x, mb'.connection = y at hconnection ⊢
      cases hconnection with
      | none => exact hdropped
      | some hc => exact ((hdropped.unsubscribe hc.1).2.unsubscribe hc.2).2
    · exact hm.insertMailbox id { hmb with holders := rfl }

/-! New mailboxes. -/

theorem addMailbox (hm : h.Matches k ρ h') (hmb : mb.Matches ρ mb') :
    (h.addMailbox mb).1 = (h'.addMailbox mb').1 ∧ (h.addMailbox mb).2.Matches k ρ (h'.addMailbox mb').2 := by
  refine ⟨hm.nextMailbox, ?_⟩
  have hadded := hm.insertMailbox h'.nextMailbox hmb
  unfold Hub.addMailbox
  rw [hm.nextMailbox]
  exact { hadded with nextMailbox := rfl }

theorem newMailbox (hm : h.Matches k ρ h') :
    h.newMailbox.1 = h'.newMailbox.1 ∧ h.newMailbox.2.Matches k ρ h'.newMailbox.2 :=
  hm.addMailbox ⟨rfl, rfl, .none⟩

theorem connect (hm : h.Matches k ρ h') (flag : FlagId) :
    (h.connect flag).1 = (h'.connect flag).1 ∧ (h.connect flag).2.Matches k ρ.shared.shared (h'.connect flag).2 := by
  have hinbox : Listener.Matches k ρ.shared (.inbox h.nextMailbox) (.inbox h'.nextMailbox) := by
    rw [hm.nextMailbox]
    exact .inbox _
  obtain ⟨-, -, hm₁⟩ := hm.subscribe Notification.actionName hinbox
  obtain ⟨-, -, hm₂⟩ := hm₁.subscribe Notification.cancelName (.canceller flag)
  have hpairs : (h.bus.nextId, h'.bus.nextId) ∈ ρ.shared.shared.pairs ∧
      (h.bus.nextId + 1, h'.bus.nextId + 1) ∈ ρ.shared.shared.pairs := by
    rw [hm.bus.plain, hm.bus.fuller]
    exact ⟨List.mem_cons_of_mem _ List.mem_cons_self, List.mem_cons_self⟩
  exact hm₂.addMailbox ⟨rfl, rfl, .some hpairs⟩

end Matches

end Hub

end VetoMachine
