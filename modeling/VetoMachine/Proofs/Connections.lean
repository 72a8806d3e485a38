import VetoMachine.Proofs.Buses
import VetoMachine.Proofs.Queues
import VetoMachine.Proofs.Requests

/-!
# How mailboxes are connected

Listeners make no mailboxes and no subscriptions for them (`Hub.Inherits`), so on every hub that comes about the
identifiers in use have been issued (`Hub.Issued`).  A mailbox that has been connected stays so for as long as it is
there, as nobody else unsubscribes its two subscriptions (`Hub.Attached`).
-/

namespace VetoMachine

variable {M L : Type}

namespace Hub

/-- Operations lead from bus to bus, and there is no mailbox, connection or inbox that was not there before. -/
structure Inherits (h h' : Hub M L) : Prop where
  bus : h.BusLeads h'
  inbox : ∀ {name s mb}, s ∈ h'.bus.subscribed name → s.listener = .inbox mb → s ∈ h.bus.subscribed name
  mailbox : ∀ {id : MailboxId} {b' : Mailbox}, h'.mailboxes[id]? = some b' →
    ∃ b, h.mailboxes[id]? = some b ∧ b'.connection = b.connection
  next : h'.nextMailbox = h.nextMailbox

namespace Inherits

variable {h h' h'' : Hub M L}

theorem mem (hi : h.Inherits h') {mb : MailboxId} (hmb : mb ∈ h'.mailboxes) : mb ∈ h.mailboxes := by
  obtain ⟨b, hb, -⟩ := hi.mailbox (Std.ExtTreeMap.getElem?_eq_some_getElem hmb)
  rw [Std.ExtTreeMap.mem_iff_isSome_getElem?, hb]
  rfl

theorem trans (h12 : h.Inherits h') (h23 : h'.Inherits h'') : h.Inherits h'' where
  bus := h12.bus.trans h23.bus
  inbox hs hl := h12.inbox (h23.inbox hs hl) hl
  mailbox hb'' := by
    obtain ⟨b', hb', hc'⟩ := h23.mailbox hb''
    obtain ⟨b, hb, hc⟩ := h12.mailbox hb'
    exact ⟨b, hb, hc'.trans hc⟩
  next := h23.next.trans h12.next

/-- A step that changes nothing on the bus but its log. -/
theorem of_subscribed_eq (hb : h.BusLeads h') (hs : ∀ name, h'.bus.subscribed name = h.bus.subscribed name)
    (hm : ∀ {id : MailboxId} {b' : Mailbox}, h'.mailboxes[id]? = some b' →
      ∃ b, h.mailboxes[id]? = some b ∧ b'.connection = b.connection)
    (hn : h'.nextMailbox = h.nextMailbox) : h.Inherits h' where
  bus := hb
  inbox {name _ _} hin _ := hs name ▸ hin
  mailbox := hm
  next := hn

/-- A step that concerns neither the bus nor mailboxes. -/
theorem of_eq (hb : h'.bus = h.bus) (hm : h'.mailboxes = h.mailboxes) (hn : h'.nextMailbox = h.nextMailbox) :
    h.Inherits h' := by
  refine of_subscribed_eq (.of_bus_eq hb) (fun name => by rw [hb]) ?_ hn
  intro id b' hb'
  exact ⟨b', hm ▸ hb', rfl⟩

theorem refl (h : Hub M L) : h.Inherits h := of_eq rfl rfl rfl

theorem raise (h : Hub M L) (flag : FlagId) : h.Inherits (h.raise flag) := of_eq rfl rfl rfl

theorem lower (h : Hub M L) (flag : FlagId) : h.Inherits (h.lower flag) := of_eq rfl rfl rfl

theorem machines (h : Hub M L) (machines : Std.ExtTreeMap String Seat) : h.Inherits { h with machines } :=
  of_eq rfl rfl rfl

theorem warn (h : Hub M L) (warnings : List Warning) : h.Inherits (h.warn warnings) := by
  rw [warn_eq]
  exact of_eq rfl rfl rfl

theorem updateMailbox (h : Hub M L) (id : MailboxId) {f : Mailbox → Mailbox}
    (hf : ∀ b, (f b).connection = b.connection) : h.Inherits (h.updateMailbox id f) := by
  have hrest := updateMailbox_eq h id f
  refine of_subscribed_eq (.updateMailbox h id f) (fun name => by rw [hrest]) ?_ (by rw [hrest])
  intro other b' hb'
  rw [getElem?_updateMailbox] at hb'
  split at hb'
  · obtain ⟨b, hb, rfl⟩ := Option.map_eq_some_iff.1 hb'
    exact ⟨b, hb, hf b⟩
  · exact ⟨b', hb', rfl⟩

/-- An action comes into a mailbox, and something is noted. -/
private theorem put (h : Hub M L) (id : MailboxId) (q : QueuedAction) (e : Entry) :
    h.Inherits ((h.updateMailbox id (·.push q)).note e) := by
  have hput : h.Inherits (h.updateMailbox id (·.push q)) := updateMailbox h id fun _ => rfl
  have hnote : (h.updateMailbox id (·.push q)).Inherits ((h.updateMailbox id (·.push q)).note e) := of_eq rfl rfl rfl
  exact hput.trans hnote

theorem push (h : Hub M L) (id : MailboxId) (q : QueuedAction) : h.Inherits (h.push id q) := by
  unfold Hub.push
  split
  · exact put h id q _
  · exact refl h

theorem receive (h : Hub M L) (id : MailboxId) (n : Notification) : h.Inherits (h.receive id n) := by
  unfold Hub.receive
  split
  · split
    · exact put h id _ _
    · exact warn h _
  · exact refl h

theorem pop (h : Hub M L) (id : MailboxId) : h.Inherits (h.pop id).2 := by
  unfold Hub.pop
  split
  · rename_i b hb
    refine of_subscribed_eq (.of_bus_eq rfl) (fun _ => rfl) ?_ rfl
    intro other b' hb'
    rw [Std.ExtTreeMap.getElem?_insert] at hb'
    split at hb'
    · rename_i heq
      rw [← Std.LawfulEqOrd.eq_of_compare heq, ← Option.some.inj hb']
      exact ⟨b, hb, rfl⟩
    · exact ⟨b', hb', rfl⟩
  · exact refl h

theorem hold (h : Hub M L) (id : MailboxId) : h.Inherits (h.hold id) := updateMailbox h id fun _ => rfl

theorem record (h : Hub M L) (n : Notification) : h.Inherits (h.record n) :=
  of_subscribed_eq (.record h n) (fun name => Bus.subscribed_record h.bus n name) (fun hb => ⟨_, hb, rfl⟩) rfl

theorem clearLog (h : Hub M L) : h.Inherits h.clearLog :=
  of_subscribed_eq (.single (.clearLog h.bus)) (fun _ => rfl) (fun hb => ⟨_, hb, rfl⟩) rfl

theorem subscribe (h : Hub M L) (name : String) (code : L) : h.Inherits (h.subscribe name (.custom code)).2 where
  bus := .subscribe h name (.custom code)
  inbox {other s mb} hs hl := by
    have hsubscribed : (h.subscribe name (.custom code)).2.bus.subscribed other = _ :=
      h.bus.subscribed_subscribe name (.custom code) other
    rw [hsubscribed] at hs
    split at hs
    · rename_i hname
      rcases List.mem_append.1 hs with hs | hs
      · exact hname ▸ hs
      · rw [List.mem_singleton.1 hs] at hl
        cases hl
    · exact hs
  mailbox hb := ⟨_, hb, rfl⟩
  next := rfl

theorem unsubscribe (h : Hub M L) (id : SubscriptionId) : h.Inherits (h.unsubscribe id).2 where
  bus := .unsubscribe h id
  inbox {name s mb} hs _ := by
    have hsubscribed : (h.unsubscribe id).2.bus.subscribed name = _ := h.bus.subscribed_unsubscribe id name
    rw [hsubscribed] at hs
    exact (List.mem_filter.1 hs).1
  mailbox hb := ⟨_, hb, rfl⟩
  next := rfl

theorem dropMailbox (h : Hub M L) (id : MailboxId) (b : Mailbox) : h.Inherits (h.dropMailbox id b) := by
  have herase : h.Inherits { h with mailboxes := h.mailboxes.erase id } := by
    refine of_subscribed_eq (.of_bus_eq rfl) (fun _ => rfl) ?_ rfl
    intro other b' hb'
    rw [Std.ExtTreeMap.getElem?_erase] at hb'
    split at hb'
    · cases hb'
    · exact ⟨b', hb', rfl⟩
  unfold Hub.dropMailbox
  split
  · rename_i c hc
    exact herase.trans ((unsubscribe _ c.onAction).trans (unsubscribe _ c.onCancel))
  · exact herase

theorem release (h : Hub M L) (id : MailboxId) : h.Inherits (h.release id) := by
  unfold Hub.release
  split
  · rename_i b hb
    split
    · exact dropMailbox h id b
    · refine of_subscribed_eq (.of_bus_eq rfl) (fun _ => rfl) ?_ rfl
      intro other b' hb'
      rw [Std.ExtTreeMap.getElem?_insert] at hb'
      split at hb'
      · rename_i heq
        rw [← Std.LawfulEqOrd.eq_of_compare heq, ← Option.some.inj hb']
        exact ⟨b, hb, rfl⟩
      · exact ⟨b', hb', rfl⟩
  · exact refl h

theorem moveLaw {publish : Publisher M L} (hpub : publish.Obeys Inherits) (flag : FlagId) :
    MoveLaw publish flag Inherits where
  refl := refl
  trans := trans
  publish := hpub
  lower h := lower h flag

end Inherits

theorem deliveryLaw_inherits : DeliveryLaw (Inherits (M := M) (L := L)) where
  refl := Inherits.refl
  trans := Inherits.trans
  called _ _ _ := .of_eq rfl rfl rfl
  returned _ _ := .of_eq rfl rfl rfl
  receive := Inherits.receive
  raise := Inherits.raise
  remember _ _ := .of_eq rfl rfl rfl
  subscribe := Inherits.subscribe
  unsubscribe := Inherits.unsubscribe
  push := Inherits.push
  clearLog := Inherits.clearLog
  release := Inherits.release
  deliver {h _ n} hp := (Inherits.record h n).trans (hp.trans (.of_eq rfl rfl rfl))
  act {publish} hpub {name action payload m m' h h' o} _ hcall := by
    have hout : h.Inherits (h.occupy name m) := .machines h _
    have hback : h'.Inherits (h'.seat name m') := .machines h' _
    exact hout.trans (((Inherits.moveLaw @hpub m.flag).handleAction Inherits.warn hcall).trans hback)

/-! ### Identifiers -/

/-- Whatever identifies a mailbox or a subscription of one has been issued. -/
structure Issued (h : Hub M L) : Prop where
  bus : h.bus.Reachable
  mailbox : ∀ {id : MailboxId} {b : Mailbox}, h.mailboxes[id]? = some b → id < h.nextMailbox
  connection : ∀ {id : MailboxId} {b : Mailbox} {c : Connection}, h.mailboxes[id]? = some b → b.connection = some c →
    c.onAction < h.bus.nextId ∧ c.onCancel < h.bus.nextId
  inbox : ∀ {name s mb}, s ∈ h.bus.subscribed name → s.listener = .inbox mb → mb < h.nextMailbox

theorem Inherits.issued {h h' : Hub M L} (hi : h.Inherits h') (hh : h.Issued) : h'.Issued where
  bus := hh.bus.leads hi.bus
  mailbox hb' := by
    obtain ⟨b, hb, -⟩ := hi.mailbox hb'
    rw [hi.next]
    exact hh.mailbox hb
  connection hb' hc' := by
    obtain ⟨b, hb, hsame⟩ := hi.mailbox hb'
    obtain ⟨haction, hcancel⟩ := hh.connection hb (hsame ▸ hc')
    have hle : h.bus.nextId ≤ h'.bus.nextId := hi.bus.subscribed.1
    exact ⟨Nat.lt_of_lt_of_le haction hle, Nat.lt_of_lt_of_le hcancel hle⟩
  inbox hs hl := by
    rw [hi.next]
    exact hh.inbox (hi.inbox hs hl) hl

/-! ### Connecting a mailbox -/

/-- Who is subscribed once a mailbox has been connected. -/
theorem subscribed_connect (h : Hub M L) (flag : FlagId) (name : String) :
    (h.connect flag).2.bus.subscribed name =
      h.bus.subscribed name
        ++ (if name = Notification.actionName then [⟨h.bus.nextId, .inbox h.nextMailbox⟩] else [])
        ++ (if name = Notification.cancelName then [⟨h.bus.nextId + 1, .canceller flag⟩] else []) := by
  let onAction := (h.bus.subscribe Notification.actionName (.inbox h.nextMailbox)).2
  have hboth : (h.connect flag).2.bus = (onAction.subscribe Notification.cancelName (.canceller flag)).2 := rfl
  have hne : Notification.cancelName ≠ Notification.actionName := by decide
  rw [hboth, Bus.subscribed_subscribe, Bus.subscribed_subscribe, Bus.subscribed_subscribe, if_neg hne]
  by_cases haction : name = Notification.actionName
  · subst haction
    rw [if_neg hne.symm, if_pos rfl, if_pos rfl, if_neg hne.symm, List.append_nil]
  · by_cases hcancel : name = Notification.cancelName
    · subst hcancel
      rw [if_pos rfl, if_neg hne, if_pos rfl, List.append_nil]
      rfl
    · simp [haction, hcancel]

theorem mailboxes_connect (h : Hub M L) (flag : FlagId) :
    (h.connect flag).2.mailboxes = h.mailboxes.insert h.nextMailbox
      { Mailbox.new with connection := some ⟨h.bus.nextId, h.bus.nextId + 1⟩ } := rfl

theorem busLeads_connect (h : Hub M L) (flag : FlagId) : h.BusLeads (h.connect flag).2 :=
  (BusLeads.subscribe h _ (.inbox h.nextMailbox)).trans (BusLeads.subscribe _ _ (.canceller flag))

namespace Issued

variable {h h' : Hub M L}

theorem of_eq (hh : h.Issued) (hb : h'.bus = h.bus) (hm : h'.mailboxes = h.mailboxes)
    (hn : h'.nextMailbox = h.nextMailbox) : h'.Issued := (Inherits.of_eq hb hm hn).issued hh

theorem empty (capacity : Nat) (memory : M) : (Hub.empty capacity memory : Hub M L).Issued where
  bus := ⟨capacity, .refl⟩
  mailbox hb := by simp [Hub.empty] at hb
  connection hb := by simp [Hub.empty] at hb
  inbox hs := by simp [Hub.empty, Bus.empty, Bus.subscribed] at hs

theorem newMailbox (hh : h.Issued) : h.newMailbox.2.Issued where
  bus := hh.bus
  mailbox {id b} hb := by
    have hlookup : (h.mailboxes.insert h.nextMailbox .new)[id]? = some b := hb
    rw [Std.ExtTreeMap.getElem?_insert] at hlookup
    split at hlookup
    · rename_i heq
      rw [← Std.LawfulEqOrd.eq_of_compare heq]
      exact Nat.lt_succ_self _
    · exact Nat.lt_succ_of_lt (hh.mailbox hlookup)
  connection {id b c} hb hc := by
    have hlookup : (h.mailboxes.insert h.nextMailbox .new)[id]? = some b := hb
    rw [Std.ExtTreeMap.getElem?_insert] at hlookup
    split at hlookup
    · rw [← Option.some.inj hlookup] at hc
      cases hc
    · exact hh.connection hlookup hc
  inbox hs hl := Nat.lt_succ_of_lt (hh.inbox hs hl)

theorem connect (hh : h.Issued) (flag : FlagId) : (h.connect flag).2.Issued where
  bus := hh.bus.leads (busLeads_connect h flag)
  mailbox hb := by
    rw [mailboxes_connect, Std.ExtTreeMap.getElem?_insert] at hb
    split at hb
    · rename_i heq
      rw [← Std.LawfulEqOrd.eq_of_compare heq]
      exact Nat.lt_succ_self _
    · exact Nat.lt_succ_of_lt (hh.mailbox hb)
  connection hb hc := by
    have hnext : (h.connect flag).2.bus.nextId = h.bus.nextId + 1 + 1 := rfl
    rw [mailboxes_connect, Std.ExtTreeMap.getElem?_insert] at hb
    rw [hnext]
    split at hb
    · rw [← Option.some.inj hb] at hc
      rw [← Option.some.inj hc]
      exact ⟨Nat.lt_succ_of_lt (Nat.lt_succ_self _), Nat.lt_succ_self _⟩
    · obtain ⟨haction, hcancel⟩ := hh.connection hb hc
      exact ⟨Nat.lt_succ_of_lt (Nat.lt_succ_of_lt haction), Nat.lt_succ_of_lt (Nat.lt_succ_of_lt hcancel)⟩
  inbox {name s mb} hs hl := by
    have hnext : (h.connect flag).2.nextMailbox = h.nextMailbox + 1 := rfl
    rw [subscribed_connect] at hs
    rw [hnext]
    rcases List.mem_append.1 hs with hs | hs
    · rcases List.mem_append.1 hs with hs | hs
      · exact Nat.lt_succ_of_lt (hh.inbox hs hl)
      · split at hs
        · rw [List.mem_singleton.1 hs] at hl
          rw [← Listener.inbox.inj hl]
          exact Nat.lt_succ_self _
        · cases hs
    · split at hs
      · rw [List.mem_singleton.1 hs] at hl
        cases hl
      · cases hs

end Issued

/-- Whatever is asked of a hub, identifiers in use have been issued. -/
theorem requestLaw_issued (respond : Response M L) :
    RequestLaw respond (fun _ => True) (fun _ => True) (fun h h' => h.Issued → h'.Issued) where
  refl _ := id
  trans h12 h23 := fun hh => h23 (h12 hh)
  publish depth := fun hpub => (deliveryLaw_inherits.publishWithin respond depth hpub).issued
  subscribe h name code := (Inherits.subscribe h name code).issued
  unsubscribe h id _ := (Inherits.unsubscribe h id).issued
  clearLog h := (Inherits.clearLog h).issued
  remember _ _ _ := fun hh => hh.of_eq rfl rfl rfl
  newFlag _ := fun hh => hh.of_eq rfl rfl rfl
  raise h flag := (Inherits.raise h flag).issued
  lower h flag := (Inherits.lower h flag).issued
  warn h warnings := (Inherits.warn h warnings).issued
  newMailbox _ := Issued.newMailbox
  connect _ flag := fun hh => hh.connect flag
  push h mailbox q := (Inherits.push h mailbox q).issued
  pop h mailbox := (Inherits.pop h mailbox).issued
  hold h mailbox := (Inherits.hold h mailbox).issued
  release h mailbox := (Inherits.release h mailbox).issued
  machines h machines := (Inherits.machines h machines).issued

end Hub

/-! ### A mailbox that stays connected -/

/-- What belongs to a connected mailbox: its subscriptions, and the flag that it raises for every cancel. -/
structure Link where
  mailbox : MailboxId
  own : Connection
  flag : FlagId

/-- A subscription that is none of the mailbox. -/
def Link.Spares (l : Link) (id : SubscriptionId) : Prop := id ≠ l.own.onAction ∧ id ≠ l.own.onCancel

namespace Hub

/-- A mailbox has been connected, and is so still if it has not been dropped. -/
structure Attached (l : Link) (tidy : M → Prop) (h : Hub M L) : Prop where
  issued : h.Issued
  tidy : tidy h.memory
  mailbox : l.mailbox < h.nextMailbox
  onAction : l.own.onAction < h.bus.nextId
  onCancel : l.own.onCancel < h.bus.nextId
  others : ∀ {id : MailboxId} {b : Mailbox} {c : Connection}, h.mailboxes[id]? = some b → b.connection = some c →
    id ≠ l.mailbox → l.Spares c.onAction ∧ l.Spares c.onCancel
  only : ∀ {name s}, s ∈ h.bus.subscribed name → s.listener = .inbox l.mailbox →
    name = Notification.actionName ∧ s.id = l.own.onAction
  listening : l.mailbox ∈ h.mailboxes →
    ⟨l.own.onAction, .inbox l.mailbox⟩ ∈ h.bus.subscribed Notification.actionName ∧
      ⟨l.own.onCancel, .canceller l.flag⟩ ∈ h.bus.subscribed Notification.cancelName

/-- What `connect` makes. -/
def link (h : Hub M L) (flag : FlagId) : Link := ⟨h.nextMailbox, ⟨h.bus.nextId, h.bus.nextId + 1⟩, flag⟩

/-- The two subscriptions of a mailbox stay if it does. -/
def Leaves (l : Link) (h h' : Hub M L) : Prop :=
  l.mailbox ∈ h'.mailboxes → ∀ {name : String} {s : Subscription L}, ¬ l.Spares s.id → s ∈ h.bus.subscribed name →
    s ∈ h'.bus.subscribed name

namespace Attached

variable {l : Link} {tidy : M → Prop} {h h' : Hub M L}

theorem connect (hh : h.Issued) (htidy : tidy h.memory) (flag : FlagId) :
    (h.connect flag).2.Attached (h.link flag) tidy where
  issued := hh.connect flag
  tidy := htidy
  mailbox := Nat.lt_succ_self h.nextMailbox
  onAction := Nat.lt_succ_of_lt (Nat.lt_succ_self h.bus.nextId)
  onCancel := Nat.lt_succ_self (h.bus.nextId + 1)
  others {id b c} hb hc hid := by
    rw [mailboxes_connect, Std.ExtTreeMap.getElem?_insert] at hb
    split at hb
    · rename_i heq
      exact absurd (Std.LawfulEqOrd.eq_of_compare heq).symm hid
    · obtain ⟨haction, hcancel⟩ := hh.connection hb hc
      refine ⟨⟨Nat.ne_of_lt haction, ?_⟩, ⟨Nat.ne_of_lt hcancel, ?_⟩⟩
      · exact Nat.ne_of_lt (Nat.lt_succ_of_lt haction)
      · exact Nat.ne_of_lt (Nat.lt_succ_of_lt hcancel)
  only {name s} hs hl := by
    rw [subscribed_connect] at hs
    rcases List.mem_append.1 hs with hs | hs
    · rcases List.mem_append.1 hs with hs | hs
      · -- no earlier subscription is for this mailbox
        exact absurd (hh.inbox hs hl) (Nat.lt_irrefl _)
      · split at hs
        · rename_i hname
          rw [List.mem_singleton.1 hs]
          exact ⟨hname, rfl⟩
        · cases hs
    · split at hs
      · rw [List.mem_singleton.1 hs] at hl
        cases hl
      · cases hs
  listening _ := by
    rw [subscribed_connect, subscribed_connect]
    simp [link]

theorem inherits (ha : h.Attached l tidy) (hi : h.Inherits h') (htidy : tidy h'.memory) (hleaves : h.Leaves l h') :
    h'.Attached l tidy where
  issued := hi.issued ha.issued
  tidy := htidy
  mailbox := hi.next ▸ ha.mailbox
  onAction := Nat.lt_of_lt_of_le ha.onAction hi.bus.subscribed.1
  onCancel := Nat.lt_of_lt_of_le ha.onCancel hi.bus.subscribed.1
  others hb' hc' hid := by
    obtain ⟨b, hb, hsame⟩ := hi.mailbox hb'
    exact ha.others hb (hsame ▸ hc') hid
  only hs hl := ha.only (hi.inbox hs hl) hl
  listening hmb := by
    obtain ⟨haction, hcancel⟩ := ha.listening (hi.mem hmb)
    have hown : ¬ l.Spares l.own.onAction ∧ ¬ l.Spares l.own.onCancel := by
      simp [Link.Spares]
    exact ⟨hleaves hmb hown.1 haction, hleaves hmb hown.2 hcancel⟩

theorem leaves_of_subscribed_eq (hs : ∀ name, h'.bus.subscribed name = h.bus.subscribed name) : h.Leaves l h' := by
  intro _ name s _ hin
  rw [hs]
  exact hin

theorem leaves_unsubscribe (h : Hub M L) {id : SubscriptionId} (hid : l.Spares id) :
    h.Leaves l (h.unsubscribe id).2 := by
  intro _ name s hs hin
  have hne : s.id ≠ id := fun heq => hs (heq ▸ hid)
  have hsubscribed : (h.unsubscribe id).2.bus.subscribed name = _ := h.bus.subscribed_unsubscribe id name
  rw [hsubscribed, List.mem_filter]
  exact ⟨hin, by simpa using hne⟩

theorem leaves_trans {h'' : Hub M L} (h12 : h.Leaves l h') (h23 : h'.Leaves l h'') (hi : h'.Inherits h'') :
    h.Leaves l h'' := by
  intro hmb name s hs hin
  exact h23 hmb hs (h12 (hi.mem hmb) hs hin)

/-- A mailbox that is dropped takes no other subscriptions along. -/
theorem leaves_release (ha : h.Attached l tidy) (id : MailboxId) : h.Leaves l (h.release id) := by
  unfold Hub.release
  split
  · rename_i b hb
    split
    · by_cases hid : id = l.mailbox
      · have hgone : (h.dropMailbox id b).mailboxes = h.mailboxes.erase id := by
          unfold dropMailbox
          split <;> rfl
        have hnot : l.mailbox ∉ (h.dropMailbox id b).mailboxes := by
          rw [hgone, hid]
          simp
        intro hmb
        exact absurd hmb hnot
      · unfold dropMailbox
        split
        · rename_i c hc
          obtain ⟨haction, hcancel⟩ := ha.others hb hc hid
          have herase : h.Leaves l { h with mailboxes := h.mailboxes.erase id } := leaves_of_subscribed_eq fun _ => rfl
          have hfirst := leaves_trans herase (leaves_unsubscribe _ haction) (.unsubscribe _ c.onAction)
          exact leaves_trans hfirst (leaves_unsubscribe _ hcancel) (.unsubscribe _ c.onCancel)
        · exact leaves_of_subscribed_eq fun _ => rfl
    · exact leaves_of_subscribed_eq fun _ => rfl
  · exact leaves_of_subscribed_eq fun _ => rfl

theorem leaves_subscribe (h : Hub M L) (name : String) (listener : Listener L) :
    h.Leaves l (h.subscribe name listener).2 := by
  intro _ other s _ hin
  have hsubscribed : (h.subscribe name listener).2.bus.subscribed other = _ :=
    h.bus.subscribed_subscribe name listener other
  rw [hsubscribed]
  split
  · rename_i hname
    exact List.mem_append_left _ (hname ▸ hin)
  · exact hin

/-- Other mailboxes come and are connected elsewhere. -/
theorem addMailbox (ha : h.Attached l tidy) {b : Mailbox} (hh' : h'.Issued) (hbus : h.BusLeads h')
    (hmemory : h'.memory = h.memory) (hmailboxes : h'.mailboxes = h.mailboxes.insert h.nextMailbox b)
    (hnext : h'.nextMailbox = h.nextMailbox + 1)
    (hconnection : ∀ {c}, b.connection = some c → h.bus.nextId ≤ c.onAction ∧ h.bus.nextId ≤ c.onCancel)
    (hsubscribed : ∀ {name s}, s ∈ h.bus.subscribed name → s ∈ h'.bus.subscribed name)
    (hinbox : ∀ {name s}, s ∈ h'.bus.subscribed name → s.listener = .inbox l.mailbox → s ∈ h.bus.subscribed name) :
    h'.Attached l tidy where
  issued := hh'
  tidy := hmemory ▸ ha.tidy
  mailbox := by
    rw [hnext]
    exact Nat.lt_succ_of_lt ha.mailbox
  onAction := Nat.lt_of_lt_of_le ha.onAction hbus.subscribed.1
  onCancel := Nat.lt_of_lt_of_le ha.onCancel hbus.subscribed.1
  others {id b' c} hb' hc hid := by
    rw [hmailboxes, Std.ExtTreeMap.getElem?_insert] at hb'
    split at hb'
    · rw [← Option.some.inj hb'] at hc
      obtain ⟨haction, hcancel⟩ := hconnection hc
      have hlater : ∀ {i}, h.bus.nextId ≤ i → l.Spares i := fun hi =>
        ⟨(Nat.ne_of_lt (Nat.lt_of_lt_of_le ha.onAction hi)).symm,
          (Nat.ne_of_lt (Nat.lt_of_lt_of_le ha.onCancel hi)).symm⟩
      exact ⟨hlater haction, hlater hcancel⟩
    · exact ha.others hb' hc hid
  only hs hl := ha.only (hinbox hs hl) hl
  listening hmb := by
    have hold : l.mailbox ∈ h.mailboxes := by
      rw [hmailboxes, Std.ExtTreeMap.mem_insert] at hmb
      rcases hmb with heq | hmb
      · exact absurd ha.mailbox (Std.LawfulEqOrd.eq_of_compare heq ▸ Nat.lt_irrefl _)
      · exact hmb
    obtain ⟨haction, hcancel⟩ := ha.listening hold
    exact ⟨hsubscribed haction, hsubscribed hcancel⟩

end Attached

end Hub

end VetoMachine
