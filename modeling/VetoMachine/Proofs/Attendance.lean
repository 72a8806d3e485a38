import Mathlib.Data.List.Basic
import VetoMachine.Proofs.Connections
import VetoMachine.Proofs.Snapshots

/-!
# What a connected mailbox queues

As long as a connected mailbox is there, every delivery of an action that has a kind puts it into the mailbox once,
whoever publishes it and on whatever level, every delivery of a cancel raises the flag of the mailbox, and nothing
else comes in by its own subscriptions (`Delivery.Attended`).  What comes in goes to the end of the queue, so unless
actions are published while one is being delivered they wait in the order in which they were published
(`Hub.connected_mailbox`).
-/

namespace VetoMachine

variable {M L : Type}

/-- What a notification asks a machine to do. -/
def Notification.asked (n : Notification) : Option QueuedAction :=
  if n.name = Notification.actionName then n.kind.map fun action => ⟨action, n.body⟩ else none

/-- The action that an entry tells to have come into a mailbox by its own subscription. -/
def Entry.receivedIn? (mb : MailboxId) : Entry → Option QueuedAction
  | .received mailbox q => if mailbox = mb then some q else none
  | _ => none

def receivedIn (mb : MailboxId) (es : List Entry) : List QueuedAction := es.filterMap (Entry.receivedIn? mb)

theorem receivedIn_append (mb : MailboxId) (xs ys : List Entry) :
    receivedIn mb (xs ++ ys) = receivedIn mb xs ++ receivedIn mb ys := List.filterMap_append

theorem receivedIn_flatMap {α : Type} (mb : MailboxId) (f : α → List Entry) (as : List α) :
    receivedIn mb (as.flatMap f) = as.flatMap fun a => receivedIn mb (f a) := by
  induction as with
  | nil => rfl
  | cons a as ih => rw [List.flatMap_cons, receivedIn_append, ih, List.flatMap_cons]

theorem receivedIn_eq_nil {mb : MailboxId} {es : List Entry} (h : ∀ e ∈ es, e.receivedIn? mb = none) :
    receivedIn mb es = [] := List.filterMap_eq_nil_iff.2 h

theorem receivedIn_single (mb : MailboxId) (e : Entry) : receivedIn mb [e] = (e.receivedIn? mb).toList := by
  unfold receivedIn
  cases h : e.receivedIn? mb <;> simp [h]

theorem receivedIn?_receipt (mb id : MailboxId) (n : Notification) :
    (Hub.receipt id n).receivedIn? mb = if id = mb then n.kind.map (fun action => ⟨action, n.body⟩) else none := by
  unfold Hub.receipt
  cases n.kind with
  | some action => rfl
  | none => simp [Entry.receivedIn?]

theorem isPlain_receipt (id : MailboxId) (n : Notification) : (Hub.receipt id n).isPlain = true := by
  unfold Hub.receipt
  cases n.kind <;> rfl

/-- The brackets of a delivery tell of nothing received. -/
theorem Delivery.receivedIn_entries (mb : MailboxId) (d : Delivery) (rest : List Entry) :
    receivedIn mb (d.entries ++ rest) = receivedIn mb d.during ++ receivedIn mb rest := by
  rw [receivedIn_append]
  simp [receivedIn, Delivery.entries, Entry.receivedIn?, List.filterMap_cons]

/-- Whether a listener puts actions into a mailbox. -/
def Listener.isInbox (mb : MailboxId) : Listener L → Bool
  | .inbox mailbox => mailbox == mb
  | _ => false

/-- Among subscriptions with different identifiers only one is that of a mailbox. -/
theorem flatMap_isInbox {α : Type} {subscriptions : List (Subscription L)} {mb : MailboxId} {id : SubscriptionId}
    (hpair : (subscriptions.map (·.id)).Pairwise (· < ·)) (hin : ⟨id, .inbox mb⟩ ∈ subscriptions)
    (honly : ∀ s ∈ subscriptions, s.listener.isInbox mb = true → s.id = id) (xs : List α) :
    subscriptions.flatMap (fun s => if s.listener.isInbox mb then xs else []) = xs := by
  induction subscriptions with
  | nil => cases hin
  | cons s rest ih =>
    rw [List.map_cons, List.pairwise_cons] at hpair
    obtain ⟨hlater, hpair⟩ := hpair
    rw [List.flatMap_cons]
    by_cases hs : s.listener.isInbox mb = true
    · have hnone : ∀ t ∈ rest, t.listener.isInbox mb = false := by
        intro t ht
        refine Bool.eq_false_iff.2 fun hmb => ?_
        have hlt : s.id < t.id := hlater t.id (List.mem_map_of_mem ht)
        rw [honly s (by simp) hs, honly t (by simp [ht]) hmb] at hlt
        exact Nat.lt_irrefl _ hlt
      have hrest : rest.flatMap (fun s => if s.listener.isInbox mb then xs else []) = [] := by
        rw [List.flatMap_eq_nil_iff]
        intro t ht
        rw [hnone t ht]
        rfl
      rw [if_pos hs, hrest, List.append_nil]
    · rcases List.mem_cons.1 hin with heq | hin
      · rw [← heq] at hs
        exact absurd (beq_self_eq_true mb) hs
      · rw [if_neg hs, List.nil_append]
        exact ih hpair hin fun t ht => honly t (by simp [ht])

/-! ### Deliveries that a mailbox attends -/

/-- What the delivery of a notification does to a connected mailbox and its flag. -/
structure Delivery.Attended (respond : Response M L) (l : Link) (d : Delivery) : Prop where
  /-- The action asked for comes in once, and nothing else by the mailbox's own subscription. -/
  received : receivedIn l.mailbox (surface d.during) = d.note.asked.toList
  /-- What comes in waits in the mailbox after the call in which it does, and a cancel has raised the flag by then. -/
  made : ∃ calls, d.MadeBy respond calls ∧
    (∀ c ∈ calls, c.after.queue l.mailbox = c.before.queue l.mailbox ++ queuedIn l.mailbox c.during) ∧
    (d.note.name = Notification.cancelName →
      ∃ c ∈ calls, c.subscription.listener = .canceller l.flag ∧ c.after.isRaised l.flag = true)

namespace Hub

/-- A mailbox stays connected, actions are taken only from the front of its queue, and it attends all deliveries. -/
structure Attends (respond : Response M L) (l : Link) (tidy : M → Prop) (h h' : Hub M L) : Prop where
  attached : h.Attached l tidy → h'.Attached l tidy
  flows : h.Attached l tidy → ∃ taken, h.Flows l.mailbox taken h'
  attended : h.Attached l tidy → l.mailbox ∈ h'.mailboxes →
    Throughout (Delivery.Attended respond l) (h.entriesSince h') ∧
      receivedIn l.mailbox (surface (h.entriesSince h')) = []

namespace Attends

variable {respond : Response M L} {l : Link} {tidy : M → Prop} {h h' h'' : Hub M L} {taken : List QueuedAction}

/-- Single steps, in which nothing comes in by the mailbox's own subscription. -/
theorem of_steps (ha : h.Attached l tidy → h'.Attached l tidy) (hf : h.Flows l.mailbox taken h') (es : List Entry)
    (hj : h'.journal = es.reverse ++ h.journal)
    (hes : ∀ e ∈ es, e.isPlain = true ∧ e.receivedIn? l.mailbox = none) : Attends respond l tidy h h' where
  attached := ha
  flows _ := ⟨taken, hf⟩
  attended _ _ := by
    have hplain : ∀ e ∈ es, e.isPlain = true := fun e he => (hes e he).1
    rw [entriesSince_eq hj, surface_of_plain hplain]
    exact ⟨.of_plain hplain, receivedIn_eq_nil fun e he => (hes e he).2⟩

/-- Single steps by which the subscriptions of the mailbox stay. -/
theorem of_inherits (hi : h.Inherits h') (htidy : tidy h.memory → tidy h'.memory)
    (hleaves : h.Attached l tidy → h.Leaves l h') (hf : h.Flows l.mailbox taken h') (es : List Entry)
    (hj : h'.journal = es.reverse ++ h.journal)
    (hes : ∀ e ∈ es, e.isPlain = true ∧ e.receivedIn? l.mailbox = none) : Attends respond l tidy h h' :=
  of_steps (fun ha => ha.inherits hi (htidy ha.tidy) (hleaves ha)) hf es hj hes

theorem refl (h : Hub M L) : Attends respond l tidy h h := of_steps id (.refl h) [] rfl nofun

theorem trans (h12 : Attends respond l tidy h h') (h23 : Attends respond l tidy h' h'') :
    Attends respond l tidy h h'' := by
  refine ⟨fun ha => h23.attached (h12.attached ha), fun ha => ?_, fun ha hmb => ?_⟩
  · obtain ⟨taken, hxf⟩ := h12.flows ha
    obtain ⟨taken', hyf⟩ := h23.flows (h12.attached ha)
    exact ⟨taken ++ taken', hxf.trans hyf⟩
  obtain ⟨taken, hxf⟩ := h12.flows ha
  obtain ⟨taken', hyf⟩ := h23.flows (h12.attached ha)
  obtain ⟨hx, hxs⟩ := h12.attended ha (hyf.mem hmb)
  obtain ⟨hy, hys⟩ := h23.attended (h12.attached ha) hmb
  rw [entriesSince_append hxf.journal hyf.journal, surface_append hx.balanced, receivedIn_append, hxs, hys]
  exact ⟨hx.append hy, rfl⟩

/-- Steps that concern neither the bus nor mailboxes and write nothing. -/
theorem of_eq (hb : h'.bus = h.bus) (hm : h'.mailboxes = h.mailboxes) (hn : h'.nextMailbox = h.nextMailbox)
    (htidy : tidy h.memory → tidy h'.memory) (hj : h'.journal = h.journal) : Attends respond l tidy h h' :=
  of_inherits (.of_eq hb hm hn) htidy (fun _ => Attached.leaves_of_subscribed_eq fun _ => by rw [hb])
    (.of_mailboxes_eq hm [] hj nofun nofun) [] hj nofun

theorem warn (h : Hub M L) (warnings : List Warning) : Attends respond l tidy h (h.warn warnings) := by
  refine of_inherits (.warn h warnings) ?_ ?_ (.warn h warnings) _ (journal_warn h warnings) ?_
  · rw [warn_eq]
    exact id
  · rw [warn_eq]
    exact fun _ => Attached.leaves_of_subscribed_eq fun _ => rfl
  · simp [Entry.isPlain, Entry.receivedIn?]

theorem raise (h : Hub M L) (flag : FlagId) : Attends respond l tidy h (h.raise flag) :=
  of_inherits (.raise h flag) id (fun _ => Attached.leaves_of_subscribed_eq fun _ => rfl) (.raise h flag) [.raised flag]
    rfl (by simp [Entry.isPlain, Entry.receivedIn?])

theorem lower (h : Hub M L) (flag : FlagId) : Attends respond l tidy h (h.lower flag) := of_eq rfl rfl rfl id rfl

theorem machines (h : Hub M L) (machines : Std.ExtTreeMap String Seat) :
    Attends respond l tidy h { h with machines } := of_eq rfl rfl rfl id rfl

theorem remember (h : Hub M L) {memory : M} (hm : tidy memory) : Attends respond l tidy h { h with memory } :=
  of_eq rfl rfl rfl (fun _ => hm) rfl

theorem clearLog (h : Hub M L) : Attends respond l tidy h h.clearLog :=
  of_inherits (.clearLog h) id (fun _ => Attached.leaves_of_subscribed_eq fun _ => rfl) (.clearLog h) [.cleared] rfl
    (by simp [Entry.isPlain, Entry.receivedIn?])

theorem subscribe (h : Hub M L) (name : String) (code : L) :
    Attends respond l tidy h (h.subscribe name (.custom code)).2 :=
  of_inherits (.subscribe h name code) id (fun _ => Attached.leaves_subscribe h name _)
    (.of_mailboxes_eq rfl [] rfl nofun nofun) [] rfl nofun

theorem unsubscribe (h : Hub M L) {id : SubscriptionId} (hid : l.Spares id) :
    Attends respond l tidy h (h.unsubscribe id).2 :=
  of_inherits (.unsubscribe h id) (fun hm => hm) (fun _ => Attached.leaves_unsubscribe h hid)
    (.of_mailboxes_eq rfl [] rfl nofun nofun) [] rfl nofun

theorem push (h : Hub M L) (id : MailboxId) (q : QueuedAction) : Attends respond l tidy h (h.push id q) := by
  refine of_inherits (.push h id q) ?_ ?_ (.push h id q) (if h.mailboxes.contains id then [.pushed id q] else []) ?_ ?_
  · rw [push_eq]
    exact fun hm => hm
  · rw [push_eq]
    exact fun _ => Attached.leaves_of_subscribed_eq fun _ => rfl
  · rw [journal_push]
    split <;> rfl
  · split <;> simp [Entry.isPlain, Entry.receivedIn?]

theorem pop (h : Hub M L) (id : MailboxId) : Attends respond l tidy h (h.pop id).2 := by
  refine of_inherits (.pop h id) ?_ ?_ (.pop h id) [] (journal_pop h id) nofun
  · rw [pop_eq]
    exact fun hm => hm
  · rw [pop_eq]
    exact fun _ => Attached.leaves_of_subscribed_eq fun _ => rfl

theorem hold (h : Hub M L) (id : MailboxId) : Attends respond l tidy h (h.hold id) := by
  refine of_inherits (.hold h id) ?_ ?_ (.updateHolders h id (· + 1)) [] (journal_updateMailbox h id _) nofun
  · rw [Hub.hold, updateMailbox_eq]
    exact fun hm => hm
  · rw [Hub.hold, updateMailbox_eq]
    exact fun _ => Attached.leaves_of_subscribed_eq fun _ => rfl

theorem release (h : Hub M L) (id : MailboxId) : Attends respond l tidy h (h.release id) :=
  of_inherits (.release h id) (fun hm => (memory_release h id).symm ▸ hm) (fun ha => ha.leaves_release id)
    (.release h id) [] (journal_release h id) nofun

/-- Another mailbox is made, and perhaps connected. -/
private theorem addMailbox {b : Mailbox} (hissued : h.Issued → h'.Issued) (hbus : h.BusLeads h')
    (hmemory : h'.memory = h.memory) (hmailboxes : h'.mailboxes = h.mailboxes.insert h.nextMailbox b)
    (hnext : h'.nextMailbox = h.nextMailbox + 1)
    (hconnection : ∀ {c}, b.connection = some c → h.bus.nextId ≤ c.onAction ∧ h.bus.nextId ≤ c.onCancel)
    (hsubscribed : ∀ {name s}, s ∈ h.bus.subscribed name → s ∈ h'.bus.subscribed name)
    (hinbox : ∀ {name s}, l.mailbox < h.nextMailbox → s ∈ h'.bus.subscribed name →
      s.listener = .inbox l.mailbox → s ∈ h.bus.subscribed name)
    (hj : h'.journal = h.journal) : Attends respond l tidy h h' where
  attached ha :=
    ha.addMailbox (hissued ha.issued) hbus hmemory hmailboxes hnext hconnection hsubscribed (hinbox ha.mailbox)
  flows ha := by
    refine ⟨[], [], hj, .nil, ?_⟩
    intro b' hb'
    have hne : compare h.nextMailbox l.mailbox ≠ .eq := by
      intro heq
      exact absurd ha.mailbox (Std.LawfulEqOrd.eq_of_compare heq ▸ Nat.lt_irrefl _)
    rw [hmailboxes, Std.ExtTreeMap.getElem?_insert, if_neg hne] at hb'
    exact ⟨b', hb', by simp⟩
  attended _ _ := by
    have hnothing : h.entriesSince h' = [] := entriesSince_eq hj
    rw [hnothing]
    exact ⟨.nil, rfl⟩

theorem newMailbox (h : Hub M L) : Attends respond l tidy h h.newMailbox.2 :=
  addMailbox Issued.newMailbox (.of_bus_eq rfl) rfl rfl rfl nofun (fun hs => hs) (fun _ hs _ => hs) rfl

theorem connect (h : Hub M L) (flag : FlagId) : Attends respond l tidy h (h.connect flag).2 := by
  refine addMailbox (fun hh => hh.connect flag) (busLeads_connect h flag) rfl (mailboxes_connect h flag) rfl ?_ ?_ ?_
    rfl
  · rintro c ⟨rfl⟩
    exact ⟨Nat.le_refl _, Nat.le_succ _⟩
  · intro name s hs
    rw [subscribed_connect]
    exact List.mem_append_left _ (List.mem_append_left _ hs)
  · intro name s hmade hs hl
    rw [subscribed_connect] at hs
    rcases List.mem_append.1 hs with hs | hs
    · rcases List.mem_append.1 hs with hs | hs
      · exact hs
      · split at hs
        · rw [List.mem_singleton.1 hs] at hl
          exact absurd hmade (Listener.inbox.inj hl ▸ Nat.lt_irrefl _)
        · cases hs
    · split at hs
      · rw [List.mem_singleton.1 hs] at hl
        cases hl
      · cases hs

theorem moveLaw {publish : Publisher M L} (hpub : publish.Obeys (Attends respond l tidy)) (flag : FlagId) :
    MoveLaw publish flag (Attends respond l tidy) where
  refl := refl
  trans := trans
  publish := hpub
  lower h := lower h flag

end Attends

/-- Listeners that spare the subscriptions of the mailbox do not keep it from attending. -/
theorem reactionLaw_attends (respond : Response M L) (l : Link) (tidy : M → Prop) :
    ReactionLaw l.Spares tidy (Attached l tidy) (Attends respond l tidy) where
  memory ha := ha.tidy
  fresh ha := ⟨(Nat.ne_of_lt ha.onAction).symm, (Nat.ne_of_lt ha.onCancel).symm⟩
  keeps hattends ha := hattends.attached ha
  refl := Attends.refl
  trans := Attends.trans
  raise := Attends.raise
  remember h _ hm := .remember h hm
  subscribe := Attends.subscribe
  unsubscribe h _ hid := .unsubscribe h hid
  push := Attends.push
  clearLog := Attends.clearLog
  release := Attends.release
  act {publish} hpub {name action payload m m' h h' o} _ hcall := by
    have hout : Attends respond l tidy h (h.occupy name m) := .machines h _
    have hback : Attends respond l tidy h' (h'.seat name m') := .machines h' _
    exact hout.trans (((Attends.moveLaw @hpub m.flag).handleAction Attends.warn hcall).trans hback)

/-! ### The calls of a delivery -/

end Hub

/-- What a call does to a connected mailbox and its flag. -/
structure Call.Attended (respond : Response M L) (l : Link) (n : Notification) (c : Call M L) : Prop where
  inside : Throughout (Delivery.Attended respond l) c.during
  received : receivedIn l.mailbox (surface c.during) = if c.subscription.listener.isInbox l.mailbox then
    (n.kind.map fun action => QueuedAction.mk action n.body).toList else []
  queue : c.after.queue l.mailbox = c.before.queue l.mailbox ++ queuedIn l.mailbox c.during
  raised : c.subscription.listener = .canceller l.flag → c.after.isRaised l.flag = true

namespace Hub

variable {respond : Response M L} {l : Link} {tidy : M → Prop} {depth : Nat} {n : Notification} {h h' : Hub M L}

private theorem attached_receive (ha : h.Attached l tidy) (id : MailboxId) (n : Notification) :
    (h.receive id n).Attached l tidy := by
  refine ha.inherits (.receive h id n) ?_ ?_
  · rw [receive_eq]
    exact ha.tidy
  · rw [receive_eq]
    exact Attached.leaves_of_subscribed_eq fun _ => rfl

/-- A call in which single steps are made, and nothing is published. -/
private theorem Call.attended_of_steps {c : Call M L} (hf : c.before.Flows l.mailbox [] c.after) (es : List Entry)
    (hj : c.after.journal = es.reverse ++ c.before.journal) (hplain : ∀ e ∈ es, e.isPlain = true)
    (hreceived : l.mailbox ∈ c.after.mailboxes → receivedIn l.mailbox es =
      if c.subscription.listener.isInbox l.mailbox then
        (n.kind.map fun action => QueuedAction.mk action n.body).toList else [])
    (hraised : c.subscription.listener = .canceller l.flag → c.after.isRaised l.flag = true)
    (hmb : l.mailbox ∈ c.after.mailboxes) : c.Attended respond l n where
  inside := by
    rw [Call.during, entriesSince_eq hj]
    exact .of_plain hplain
  received := by
    rw [Call.during, entriesSince_eq hj, surface_of_plain hplain]
    exact hreceived hmb
  queue := (hf.queue_eq hmb).symm
  raised := hraised

private theorem Call.attended_of_inbox {c : Call M L} {id : MailboxId} (ha : c.before.Attached l tidy)
    (hlistener : c.subscription.listener = .inbox id) (hafter : c.before.receive id n = c.after) :
    c.after.Attached l tidy ∧ (l.mailbox ∈ c.after.mailboxes → c.Attended respond l n) := by
  have hf : c.before.Flows l.mailbox [] c.after := hafter ▸ .receive c.before id n
  have hj : c.after.journal = (if c.before.mailboxes.contains id then [receipt id n] else []).reverse
      ++ c.before.journal := by
    rw [← hafter, journal_receive]
    split <;> rfl
  refine ⟨hafter ▸ attached_receive ha id n, Call.attended_of_steps hf _ hj ?_ ?_ ?_⟩
  · intro e he
    split at he
    · rw [List.mem_singleton.1 he]
      exact isPlain_receipt id n
    · cases he
  · intro hmb
    have hin : l.mailbox ∈ c.before.mailboxes := hf.mem hmb
    rw [hlistener, Listener.isInbox]
    by_cases hid : id = l.mailbox
    · rw [hid, Std.ExtTreeMap.contains_iff_mem.2 hin, if_pos rfl, receivedIn_single, receivedIn?_receipt, if_pos rfl,
        beq_self_eq_true, if_pos rfl]
    · have hne : (id == l.mailbox) = false := beq_eq_false_iff_ne.2 hid
      rw [hne]
      split
      · rw [receivedIn_single, receivedIn?_receipt, if_neg hid]
        rfl
      · rfl
  · rw [hlistener]
    nofun

private theorem Call.attended_of_canceller {c : Call M L} {flag : FlagId} (ha : c.before.Attached l tidy)
    (hlistener : c.subscription.listener = .canceller flag) (hafter : c.before.raise flag = c.after) :
    c.after.Attached l tidy ∧ (l.mailbox ∈ c.after.mailboxes → c.Attended respond l n) := by
  have hf : c.before.Flows l.mailbox [] c.after := hafter ▸ .raise c.before flag
  have hattends : Attends respond l tidy c.before c.after := hafter ▸ .raise c.before flag
  refine ⟨hattends.attached ha, Call.attended_of_steps hf [.raised flag] ?_ ?_ ?_ ?_⟩
  · rw [← hafter]
    rfl
  · simp [Entry.isPlain]
  · intro _
    rw [hlistener]
    rfl
  · rw [hlistener]
    intro hflag
    rw [← hafter, isRaised_raise]
    exact .inl (Listener.canceller.inj hflag)

private theorem Call.attended_of_custom {c : Call M L} {code : L} (ha : c.before.Attached l tidy)
    (hlistener : c.subscription.listener = .custom code) (hf : c.before.Flows l.mailbox [] c.after)
    (hattends : Attends respond l tidy c.before c.after) :
    c.after.Attached l tidy ∧ (l.mailbox ∈ c.after.mailboxes → c.Attended respond l n) := by
  refine ⟨hattends.attached ha, fun hmb => ?_⟩
  obtain ⟨hinside, hreceived⟩ := hattends.attended ha hmb
  refine ⟨hinside, ?_, (hf.queue_eq hmb).symm, ?_⟩
  · rw [hlistener]
    exact hreceived
  · rw [hlistener]
    nofun

/-- A listener that is called attends, be it the mailbox itself or another. -/
private theorem Call.attended_of_react (hrespond : ∀ code n, (respond code n).Respects l.Spares tidy)
    (hpub : Publisher.Obeys (publishWithin respond depth) (Attends respond l tidy)) {c : Call M L}
    (ha : c.before.Attached l tidy)
    (hreact : react respond (publishWithin respond depth) n c.subscription.listener c.before = some c.after) :
    c.after.Attached l tidy ∧ (l.mailbox ∈ c.after.mailboxes → c.Attended respond l n) := by
  have hf : c.before.Flows l.mailbox [] c.after :=
    (deliveryLaw_flows l.mailbox).react ((deliveryLaw_flows l.mailbox).publishWithin respond depth) hreact
  cases hlistener : c.subscription.listener with
  | inbox id =>
    rw [hlistener] at hreact
    exact Call.attended_of_inbox ha hlistener (Option.some.inj hreact)
  | canceller flag =>
    rw [hlistener] at hreact
    exact Call.attended_of_canceller ha hlistener (Option.some.inj hreact)
  | custom code =>
    rw [hlistener] at hreact
    have hattends : Attends respond l tidy c.before c.after :=
      (reactionLaw_attends respond l tidy).run hpub (hrespond code n) ha hreact
    exact Call.attended_of_custom ha hlistener hf hattends

private theorem Calls.attended (hrespond : ∀ code n, (respond code n).Respects l.Spares tidy)
    (hpub : Publisher.Obeys (publishWithin respond depth) (Attends respond l tidy)) {calls : List (Call M L)}
    (hcalls : Calls respond (publishWithin respond depth) n h calls h') (ha : h.Attached l tidy) :
    h'.Attached l tidy ∧ (l.mailbox ∈ h'.mailboxes → ∀ c ∈ calls, c.Attended respond l n) := by
  induction hcalls with
  | nil h => exact ⟨ha, by simp⟩
  | @cons h h' c calls hbefore hreact hrest ih =>
    have hnoted : c.before.Attached l tidy := by
      rw [hbefore]
      exact ha.inherits (.of_eq rfl rfl rfl) ha.tidy (Attached.leaves_of_subscribed_eq fun _ => rfl)
    obtain ⟨hafter, hattended⟩ := Call.attended_of_react hrespond hpub hnoted hreact
    have hreturned : (c.after.note (.returned c.subscription.id)).Attached l tidy :=
      hafter.inherits (.of_eq rfl rfl rfl) hafter.tidy (Attached.leaves_of_subscribed_eq fun _ => rfl)
    obtain ⟨hend, hothers⟩ := ih hreturned
    refine ⟨hend, fun hmb => ?_⟩
    -- the mailbox was there during this call if it is after the others
    have hflows : (c.after.note (.returned c.subscription.id)).Flows l.mailbox [] h' :=
      (deliveryLaw_flows l.mailbox).callAll ((deliveryLaw_flows l.mailbox).publishWithin respond depth)
        hrest.callAll_eq
    exact List.forall_mem_cons.2 ⟨hattended (hflows.mem hmb), hothers hmb⟩

/-- In the calls of a delivery the action that is asked for comes in once. -/
private theorem receivedIn_calls (ha : h.Attached l tidy) (hmb : l.mailbox ∈ h.mailboxes) {calls : List (Call M L)}
    (hsubscribed : calls.map (·.subscription) = h.bus.subscribed n.name)
    (hattended : ∀ c ∈ calls, c.Attended respond l n) :
    receivedIn l.mailbox (surface (calls.flatMap (Call.entries n))) = n.asked.toList := by
  let action : List QueuedAction := (n.kind.map fun action => ⟨action, n.body⟩).toList
  have hentries : ∀ c ∈ calls, receivedIn l.mailbox (surface (Call.entries n c)) =
      if c.subscription.listener.isInbox l.mailbox then action else [] := by
    intro c hc
    have hbalanced : Balanced c.during := (hattended c hc).inside.balanced
    rw [← (hattended c hc).received, Call.entries, callEntries, surface_plain rfl, surface_append hbalanced]
    have hreturned : surface [.returned c.subscription.id] = [.returned c.subscription.id] := rfl
    rw [hreturned]
    simp [receivedIn, Entry.receivedIn?, List.filterMap_cons]
  have hbalanced : ∀ c ∈ calls, Balanced (Call.entries n c) := fun c hc =>
    .plain rfl ((hattended c hc).inside.balanced.append (.plain rfl .nil))
  have honly : ∀ s ∈ h.bus.subscribed n.name, s.listener.isInbox l.mailbox = true →
      n.name = Notification.actionName ∧ s.id = l.own.onAction := by
    intro s hs hinbox
    cases hlistener : s.listener with
    | inbox id =>
      rw [hlistener, Listener.isInbox, beq_iff_eq] at hinbox
      exact ha.only hs (hinbox ▸ hlistener)
    | canceller _ | custom _ =>
      rw [hlistener] at hinbox
      cases hinbox
  calc receivedIn l.mailbox (surface (calls.flatMap (Call.entries n)))
      = calls.flatMap fun c => receivedIn l.mailbox (surface (Call.entries n c)) := by
        rw [surface_flatMap hbalanced, receivedIn_flatMap]
    _ = (calls.map (·.subscription)).flatMap fun s => if s.listener.isInbox l.mailbox then action else [] := by
        rw [List.flatMap_map]
        exact List.flatMap_congr hentries
    _ = n.asked.toList := by
        rw [hsubscribed, Notification.asked]
        by_cases hname : n.name = Notification.actionName
        · have hin := (ha.listening hmb).1
          rw [← hname] at hin
          rw [if_pos hname]
          exact flatMap_isInbox (ha.issued.bus.ascending.order n.name) hin (fun s hs hinbox => (honly s hs hinbox).2) _
        · rw [if_neg hname, Option.toList_none, List.flatMap_eq_nil_iff]
          intro s hs
          rw [if_neg]
          exact fun hinbox => hname (honly s hs hinbox).1

/-- Whatever listeners publish, the mailbox attends. -/
theorem obeys_attends (hrespond : ∀ code n, (respond code n).Respects l.Spares tidy) (depth : Nat) :
    Publisher.Obeys (publishWithin respond depth) (Attends respond l tidy) := by
  refine Publisher.obeys_publishWithin ?_ depth
  intro depth hpub n h k hcall
  have hpublished : publishWithin respond (depth + 1) n h = some (k.note (.closed n)) := by
    rw [publishWithin, hcall]
    rfl
  have hflows : h.Flows l.mailbox [] (k.note (.closed n)) :=
    (deliveryLaw_flows l.mailbox).publishWithin respond (depth + 1) hpublished
  have hopened : h.Attached l tidy → (h.record n).Attached l tidy := by
    intro ha
    exact ha.inherits (.record h n) ha.tidy (Attached.leaves_of_subscribed_eq (Bus.subscribed_record h.bus n))
  refine ⟨fun ha => ?_, fun _ => ⟨_, hflows⟩, fun ha hmb => ?_⟩
  · obtain ⟨calls, -, hcalls⟩ := exists_calls hcall
    obtain ⟨hk, -⟩ := Calls.attended hrespond hpub hcalls (hopened ha)
    exact hk.inherits (.of_eq rfl rfl rfl) hk.tidy (Attached.leaves_of_subscribed_eq fun _ => rfl)
  · obtain ⟨calls, hcalls, hsnapshot, hmade⟩ := exists_madeBy ha.issued.bus hcall
    obtain ⟨-, hattended⟩ := Calls.attended hrespond hpub hcalls (hopened ha)
    have hattended : ∀ c ∈ calls, c.Attended respond l n := hattended hmb
    let d : Delivery := ⟨n, calls.flatMap (Call.entries n)⟩
    have hinside : Throughout (Delivery.Attended respond l) d.during :=
      .flatMap fun c hc => .plain rfl ((hattended c hc).inside.append (.plain rfl .nil))
    have hcancel : n.name = Notification.cancelName →
        ∃ c ∈ calls, c.subscription.listener = .canceller l.flag ∧ c.after.isRaised l.flag = true := by
      intro hname
      have hin := (ha.listening (hflows.mem hmb)).2
      rw [← hname, ← hsnapshot.subscribed, List.mem_map] at hin
      obtain ⟨c, hc, hsubscription⟩ := hin
      have hlistener : c.subscription.listener = .canceller l.flag := by rw [hsubscription]
      exact ⟨c, hc, hlistener, (hattended c hc).raised hlistener⟩
    have hd : d.Attended respond l :=
      { received := receivedIn_calls ha (hflows.mem hmb) hsnapshot.subscribed hattended
        made := ⟨calls, hmade, fun c hc => (hattended c hc).queue, hcancel⟩ }
    have hsurface := surface_entries hinside.balanced []
    rw [List.append_nil] at hsurface
    rw [entriesSince_eq hsnapshot.journal, hsurface]
    exact ⟨.single hinside hd, rfl⟩

/-- Whatever is asked of the hub that spares the subscriptions of the mailbox, it attends. -/
theorem requestLaw_attends (hrespond : ∀ code n, (respond code n).Respects l.Spares tidy) :
    RequestLaw respond l.Spares tidy (Attends respond l tidy) where
  refl := Attends.refl
  trans := Attends.trans
  publish := obeys_attends hrespond
  subscribe := Attends.subscribe
  unsubscribe h _ hid := .unsubscribe h hid
  clearLog := Attends.clearLog
  remember h _ hm := .remember h hm
  newFlag _ := .of_eq rfl rfl rfl (fun hm => hm) rfl
  raise := Attends.raise
  lower := Attends.lower
  warn := Attends.warn
  newMailbox := Attends.newMailbox
  connect := Attends.connect
  push := Attends.push
  pop := Attends.pop
  hold := Attends.hold
  release := Attends.release
  machines := Attends.machines

end Hub

/-! ### The order in which actions come in -/

namespace Throughout

variable {respond : Response M L} {l : Link} {es : List Entry}

/-- Where no action is published, what comes in by the mailbox's own subscription does so outside all deliveries. -/
private theorem receivedIn_surface (h : Throughout (Delivery.Attended respond l) es)
    (hnone : ∀ {d : Delivery}, d.TakesPlaceIn es → d.note.name ≠ Notification.actionName) :
    receivedIn l.mailbox es = receivedIn l.mailbox (surface es) ∧
      (publishedIn es).filterMap Notification.asked = [] := by
  induction h with
  | nil => exact ⟨rfl, rfl⟩
  | @plain e rest he hrest ih =>
    have hsame : deliveries (e :: rest) = deliveries rest := deliveries_plain he rest
    obtain ⟨hreceived, hasked⟩ := ih fun hd => hnone (hd.mono fun outer hin => hsame ▸ hin)
    have hpublished : publishedIn (e :: rest) = publishedIn rest := by
      cases e <;> first | rfl | cases he
    rw [hpublished, surface_plain he]
    refine ⟨?_, hasked⟩
    have happend := receivedIn_append l.mailbox [e]
    exact (happend rest).trans ((congrArg _ hreceived).trans (happend (surface rest)).symm)
  | @delivery d rest hinside hd hrest ihd ih =>
    have hsplit : deliveries (d.entries ++ rest) = d :: deliveries rest := deliveries_entries hinside.balanced rest
    have houter : d ∈ deliveries (d.entries ++ rest) := by simp [hsplit]
    have hasked : d.note.asked = none := if_neg (hnone (.outermost houter))
    obtain ⟨hduring, haskedd⟩ := ihd fun hin => hnone (.inside houter hin)
    obtain ⟨hreceived, haskedr⟩ := ih fun hin => hnone (hin.mono fun outer hmem => by simp [hsplit, hmem])
    rw [Delivery.receivedIn_entries, Delivery.publishedIn_entries, surface_entries hinside.balanced, hduring,
      hd.received, hasked, List.filterMap_cons, hasked, List.filterMap_append, haskedd, haskedr]
    exact ⟨hreceived, rfl⟩

/-- If no action is published while another is delivered, actions come in in the order in which they are published. -/
private theorem receivedIn_eq (h : Throughout (Delivery.Attended respond l) es)
    (hsurface : receivedIn l.mailbox (surface es) = [])
    (halone : ∀ {d : Delivery}, d.TakesPlaceIn es → d.note.name = Notification.actionName →
      ∀ {inner : Delivery}, inner.TakesPlaceIn d.during → inner.note.name ≠ Notification.actionName) :
    receivedIn l.mailbox es = (publishedIn es).filterMap Notification.asked := by
  induction h with
  | nil => rfl
  | @plain e rest he hrest ih =>
    have hsame : deliveries (e :: rest) = deliveries rest := deliveries_plain he rest
    have hpublished : publishedIn (e :: rest) = publishedIn rest := by
      cases e <;> first | rfl | cases he
    have happend := receivedIn_append l.mailbox [e]
    rw [surface_plain he] at hsurface
    obtain ⟨hfirst, hlater⟩ := List.append_eq_nil_iff.1 ((happend (surface rest)).symm.trans hsurface)
    rw [hpublished, ← ih hlater fun hd => halone (hd.mono fun outer hin => hsame ▸ hin)]
    exact (happend rest).trans (by rw [hfirst, List.nil_append])
  | @delivery d rest hinside hd hrest ihd ih =>
    have hsplit : deliveries (d.entries ++ rest) = d :: deliveries rest := deliveries_entries hinside.balanced rest
    have houter : d ∈ deliveries (d.entries ++ rest) := by simp [hsplit]
    rw [surface_entries hinside.balanced] at hsurface
    have hlater := ih hsurface fun hin => halone (hin.mono fun outer hmem => by simp [hsplit, hmem])
    rw [Delivery.receivedIn_entries, Delivery.publishedIn_entries, List.filterMap_cons, List.filterMap_append, hlater]
    by_cases hname : d.note.name = Notification.actionName
    · -- inside there is no action, so only the one asked for comes in
      obtain ⟨hduring, hasked⟩ := hinside.receivedIn_surface fun hin => halone (.outermost houter) hname hin
      rw [hduring, hd.received, hasked]
      cases d.note.asked <;> rfl
    · have hasked : d.note.asked = none := if_neg hname
      have hquiet : receivedIn l.mailbox (surface d.during) = [] := by rw [hd.received, hasked]; rfl
      rw [hasked, ihd hquiet fun hin => halone (.inside houter hin)]

end Throughout

namespace Hub

/-- What a run does to a connected mailbox that is there at its end. -/
structure Connected (respond : Response M L) (l : Link) (h h' : Hub M L) : Prop where
  /-- Every delivery on every level puts in the action that it asks for. -/
  deliveries : ∀ {d : Delivery}, d.TakesPlaceIn (h.entriesSince h') → d.Attended respond l
  /-- Outside deliveries nothing comes in by the mailbox's own subscription. -/
  outside : receivedIn l.mailbox (surface (h.entriesSince h')) = []
  /-- What comes in goes to the end of the queue, and what is taken comes from the front. -/
  queue : ∃ taken, h.queue l.mailbox ++ queuedIn l.mailbox (h.entriesSince h') = taken ++ h'.queue l.mailbox
  ordered : (∀ {d : Delivery}, d.TakesPlaceIn (h.entriesSince h') → d.note.name = Notification.actionName →
      ∀ {inner : Delivery}, inner.TakesPlaceIn d.during → inner.note.name ≠ Notification.actionName) →
    receivedIn l.mailbox (h.entriesSince h') = (publishedIn (h.entriesSince h')).filterMap Notification.asked

/-- On any hub that comes about, a mailbox that is connected attends everything that is published from then on, as
long as it is there and nobody else unsubscribes its subscriptions, whose identifiers are its own. -/
theorem connected_mailbox {respond : Response M L} {depth fuel capacity : Nat} {memory : M}
    {earlier later : List (Request M L)} {h h' : Hub M L} (flag : FlagId) {tidy : M → Prop}
    (hearlier : serveAll respond depth fuel earlier (Hub.empty capacity memory) = some h) (htidy : tidy h.memory)
    (hrespond : ∀ code n, (respond code n).Respects (h.link flag).Spares tidy)
    (hspares : ∀ r ∈ later, r.Respects (h.link flag).Spares tidy)
    (hlater : serveAll respond depth fuel later (h.connect flag).2 = some h')
    (hheld : (h.connect flag).1 ∈ h'.mailboxes) : Connected respond (h.link flag) (h.connect flag).2 h' := by
  have hissued : h.Issued := by
    refine (requestLaw_issued respond).serveAll (fun r _ => ?_) hearlier (.empty capacity memory)
    cases r <;> trivial
  have ha : (h.connect flag).2.Attached (h.link flag) tidy := .connect hissued htidy flag
  have hattends : Attends respond (h.link flag) tidy (h.connect flag).2 h' :=
    (requestLaw_attends hrespond).serveAll hspares hlater
  obtain ⟨taken, hflows⟩ := hattends.flows ha
  obtain ⟨hall, houtside⟩ := hattends.attended ha hheld
  exact
    { deliveries := hall.of_takesPlaceIn
      outside := houtside
      queue := ⟨taken, hflows.queue_eq hheld⟩
      ordered := fun halone => hall.receivedIn_eq houtside halone }

/-! ### A listener that asks for an action -/

/-- Whenever it is called it publishes an action. -/
def usher : Response Unit Unit := fun _ _ => .publish (.action "open" .null) .done

/-- A hub on which every knock is answered by an action. -/
def lobby : Hub Unit Unit := ((Hub.empty 1 ()).subscribe "knock" (.custom ())).2

/-- A mailbox in the lobby queues the action that a knock leads to, and a cancel raises its flag. -/
theorem connected_mailbox_lobby : ∃ h' : Hub Unit Unit,
    serveAll usher 2 0 [.publish ⟨"knock", .null, none⟩, .push 0 ⟨"close", .null⟩, .pop 0, .publish .cancel]
        (lobby.connect 5).2 = some h' ∧
      Connected usher (lobby.link 5) (lobby.connect 5).2 h' ∧
      (receivedIn 0 ((lobby.connect 5).2.entriesSince h')).map (·.action) = ["open"] ∧
      (h'.queue 0).map (·.action) = ["close"] ∧ h'.isRaised 5 = true := by
  let later : List (Request Unit Unit) :=
    [.publish ⟨"knock", .null, none⟩, .push 0 ⟨"close", .null⟩, .pop 0, .publish .cancel]
  have hends : (serveAll usher 2 0 later (lobby.connect 5).2).map (fun h =>
      (decide (0 ∈ h.mailboxes), (receivedIn 0 ((lobby.connect 5).2.entriesSince h)).map (·.action),
        (h.queue 0).map (·.action), h.isRaised 5)) = some (true, ["open"], ["close"], true) := by decide +kernel
  obtain ⟨h', hlater, hresult⟩ := Option.map_eq_some_iff.1 hends
  simp only [Prod.mk.injEq, decide_eq_true_eq] at hresult
  obtain ⟨hheld, hreceived, hqueue, hraised⟩ := hresult
  have hearlier : serveAll usher 2 0 [.subscribe "knock" ()] (Hub.empty 1 ()) = some lobby := rfl
  have hrespond : ∀ code n, (usher code n).Respects (lobby.link 5).Spares fun _ => True := fun _ _ => trivial
  have hspares : ∀ r ∈ later, r.Respects (lobby.link 5).Spares fun _ => True := by simp [later, Request.Respects]
  exact ⟨h', hlater, connected_mailbox 5 hearlier trivial hrespond hspares hlater hheld, hreceived, hqueue, hraised⟩

end Hub

end VetoMachine
