import VetoMachine.Proofs.MailboxTurnover

/-!
# Dropped mailboxes

A mailbox that is dropped takes its own two subscriptions along, and nothing else (`Hub.Dropped`).  From then on it is
never heard of again, whatever is published (`Hub.Gone`, `Hub.Ignores`).  So nothing is left behind by mailboxes that
come and go (`Hub.Interleaves.mailbox_turnover`).
-/

namespace VetoMachine

variable {M L : Type}

/-- An entry tells neither of an action that came into a mailbox nor of a call of one of its listeners. -/
def Entry.Omits (l : Link) (e : Entry) : Prop :=
  e.queuedIn? l.mailbox = none ∧ ∀ n, e ≠ .called l.own.onAction n ∧ e ≠ .called l.own.onCancel n

namespace Hub

variable {h h' : Hub M L} {mb : MailboxId}

/-! ### A mailbox that is gone -/

/-- A mailbox was there, and neither it nor its subscriptions will be again. -/
structure Gone (l : Link) (h : Hub M L) : Prop where
  mailbox : l.mailbox ∉ h.mailboxes
  subscribed : ∀ {name s}, s ∈ h.bus.subscribed name → l.Spares s.id
  past : l.mailbox < h.nextMailbox ∧ l.own.onAction < h.bus.nextId ∧ l.own.onCancel < h.bus.nextId

namespace Gone

variable {l : Link}

theorem of_busLeads (hg : h.Gone l) (hbus : h.BusLeads h') (hnext : l.mailbox < h'.nextMailbox)
    (hmailbox : l.mailbox ∈ h'.mailboxes → l.mailbox ∈ h.mailboxes) : h'.Gone l where
  mailbox hmem := hg.mailbox (hmailbox hmem)
  subscribed {name s} hs := by
    rcases hbus.subscribed.2 hs with hold | hnew
    · exact hg.subscribed hold
    · obtain ⟨-, haction, hcancel⟩ := hg.past
      have hlater : ∀ {id}, id < h.bus.nextId → s.id ≠ id := fun hid =>
        (Nat.ne_of_lt (Nat.lt_of_lt_of_le hid hnew)).symm
      exact ⟨hlater haction, hlater hcancel⟩
  past :=
    ⟨hnext, Nat.lt_of_lt_of_le hg.past.2.1 hbus.subscribed.1, Nat.lt_of_lt_of_le hg.past.2.2 hbus.subscribed.1⟩

theorem interleaves (hg : h.Gone l) (hsteps : h.Interleaves h') : h'.Gone l := by
  obtain ⟨hnext, hkept⟩ := hsteps.keeps hg.past.1
  exact hg.of_busLeads hsteps.busLeads hnext fun hmem => (hkept hmem).1

theorem inherits (hg : h.Gone l) (hi : h.Inherits h') : h'.Gone l :=
  hg.of_busLeads hi.bus (hi.next ▸ hg.past.1) hi.mem

end Gone

/-- A mailbox that is gone stays so, and what happens does not concern it. -/
def Ignores (l : Link) (h h' : Hub M L) : Prop :=
  h.Gone l → h'.Gone l ∧ ∃ es : List Entry, h'.journal = es.reverse ++ h.journal ∧ ∀ e ∈ es, e.Omits l

namespace Ignores

variable {l : Link} {h'' : Hub M L}

private theorem of_inherits (hi : h.Inherits h') (es : List Entry) (hj : h'.journal = es.reverse ++ h.journal)
    (hes : l.mailbox ∉ h.mailboxes → ∀ e ∈ es, e.Omits l) : Ignores l h h' :=
  fun hg => ⟨hg.inherits hi, es, hj, hes hg.mailbox⟩

private theorem untold (hi : h.Inherits h') (hj : h'.journal = h.journal) : Ignores l h h' :=
  of_inherits hi [] hj fun _ => nofun

private theorem note (h : Hub M L) {e : Entry} (he : e.Omits l) : Ignores l h (h.note e) :=
  of_inherits (.of_eq rfl rfl rfl) [e] rfl fun _ => by simpa using he

private theorem trans (h12 : Ignores l h h') (h23 : Ignores l h' h'') : Ignores l h h'' := by
  intro hg
  obtain ⟨hg', xs, hxj, hxs⟩ := h12 hg
  obtain ⟨hg'', ys, hyj, hys⟩ := h23 hg'
  refine ⟨hg'', xs ++ ys, ?_, List.forall_mem_append.2 ⟨hxs, hys⟩⟩
  rw [hyj, hxj, List.reverse_append, List.append_assoc]

private theorem warn (h : Hub M L) (warnings : List Warning) : Ignores l h (h.warn warnings) :=
  of_inherits (.warn h warnings) _ (journal_warn h warnings) fun _ => by simp [Entry.Omits, Entry.queuedIn?]

private theorem push (h : Hub M L) (id : MailboxId) (q : QueuedAction) : Ignores l h (h.push id q) := by
  refine of_inherits (.push h id q) (if h.mailboxes.contains id then [.pushed id q] else []) ?_ ?_
  · rw [journal_push]
    split <;> rfl
  · intro hmb e he
    split at he
    · rename_i hid
      have hne : id ≠ l.mailbox := fun heq => hmb (heq ▸ hid)
      rw [List.mem_singleton.1 he]
      exact ⟨if_neg hne, by simp⟩
    · cases he

private theorem receive (h : Hub M L) (id : MailboxId) (n : Notification) : Ignores l h (h.receive id n) := by
  refine of_inherits (.receive h id n) (if h.mailboxes.contains id then [receipt id n] else []) ?_ ?_
  · rw [journal_receive]
    split <;> rfl
  · intro hmb e he
    split at he
    · rename_i hid
      have hne : id ≠ l.mailbox := fun heq => hmb (heq ▸ hid)
      rw [List.mem_singleton.1 he, receipt]
      split
      · exact ⟨if_neg hne, by simp⟩
      · exact ⟨rfl, by simp⟩
    · cases he

private theorem raise (h : Hub M L) (flag : FlagId) : Ignores l h (h.raise flag) :=
  of_inherits (.raise h flag) [.raised flag] rfl fun _ => by simp [Entry.Omits, Entry.queuedIn?]

private theorem reactionLaw (l : Link) :
    ReactionLaw (fun _ => True) (fun _ => True) (fun _ => True) (Ignores (M := M) (L := L) l) where
  memory _ := trivial
  fresh _ := trivial
  keeps _ _ := trivial
  refl h := untold (.refl h) rfl
  trans := trans
  raise := raise
  remember _ _ _ := untold (.of_eq rfl rfl rfl) rfl
  subscribe h name code := untold (.subscribe h name code) rfl
  unsubscribe h id _ := untold (.unsubscribe h id) rfl
  push := push
  clearLog h := of_inherits (.clearLog h) [.cleared] rfl fun _ => by simp [Entry.Omits, Entry.queuedIn?]
  release h mailbox := untold (.release h mailbox) (journal_release h mailbox)
  act {publish} hpub {name action payload m m' h h' o} _ hcall := by
    have hlaw : MoveLaw publish m.flag (Ignores l) :=
      { refl := fun h => untold (.refl h) rfl
        trans := trans
        publish := hpub
        lower := fun h => untold (.lower h m.flag) rfl }
    have hout : Ignores l h (h.occupy name m) := untold (.machines h _) rfl
    have hback : Ignores l h' (h'.seat name m') := untold (.machines h' _) rfl
    exact hout.trans ((hlaw.handleAction warn hcall).trans hback)

/-- Whatever is published, and whatever the listeners do, a mailbox that is gone has no part in it. -/
theorem publishWithin (l : Link) (respond : Response M L) (depth : Nat) :
    Publisher.Obeys (Hub.publishWithin respond depth) (Ignores l) := by
  refine Publisher.obeys_publishWithin ?_ depth
  intro depth hpub n h h' hcall hg
  have hopened : Ignores l h (h.record n) :=
    of_inherits (.record h n) [.opened n] rfl fun _ => by simp [Entry.Omits, Entry.queuedIn?]
  have hcalled : ∀ k : Hub M L, ∀ s ∈ h.bus.subscribed n.name, Ignores l k (k.note (.called s.id n)) := by
    intro k s hs
    obtain ⟨haction, hcancel⟩ := hg.subscribed hs
    exact note k ⟨rfl, fun _ => by simp [haction, hcancel]⟩
  have hreturned : ∀ (k : Hub M L) id, Ignores l k (k.note (.returned id)) := fun k id =>
    note k (by simp [Entry.Omits, Entry.queuedIn?])
  have hcalls : Ignores l (h.record n) h' :=
    (reactionLaw l).callAll @hpub (fun code => (respond code n).respects_true) (fun k mailbox => receive k mailbox n)
      hcalled hreturned trivial hcall
  have hclosed : Ignores l h' (h'.note (.closed n)) := note h' (by simp [Entry.Omits, Entry.queuedIn?])
  exact (hopened.trans (hcalls.trans hclosed)) hg

end Ignores

/-! ### Dropping -/

/-- One hub is another without a mailbox. -/
structure Dropped (l : Link) (h h' : Hub M L) : Prop where
  mailboxes : h'.mailboxes[l.mailbox]? = none ∧
    ∀ other : MailboxId, other ≠ l.mailbox → h'.mailboxes[other]? = h.mailboxes[other]?
  actions : ∃ before after, h.bus.subscribed Notification.actionName =
      before ++ ⟨l.own.onAction, .inbox l.mailbox⟩ :: after ∧
    h'.bus.subscribed Notification.actionName = before ++ after
  cancels : ∃ before after, h.bus.subscribed Notification.cancelName =
      before ++ ⟨l.own.onCancel, .canceller l.flag⟩ :: after ∧
    h'.bus.subscribed Notification.cancelName = before ++ after
  elsewhere : ∀ name, name ≠ Notification.actionName → name ≠ Notification.cancelName →
    h'.bus.subscribed name = h.bus.subscribed name
  /-- Nothing else changes. -/
  rest : h' = { h with bus := { h.bus with table := h'.bus.table }, mailboxes := h'.mailboxes }

/-- Two subscriptions of different names go, one after the other. -/
private theorem subscribed_unsubscribe_both {b : Bus L} (hb : b.Reachable) {name name' : String} (hne : name' ≠ name)
    {s s' : Subscription L} {xs ys xs' ys' : List (Subscription L)} (hs : b.subscribed name = xs ++ s :: ys)
    (hs' : b.subscribed name' = xs' ++ s' :: ys') (other : String) :
    ((b.unsubscribe s.id).2.unsubscribe s'.id).2.subscribed other =
      if other = name' then xs' ++ ys' else if other = name then xs ++ ys else b.subscribed other := by
  obtain ⟨added, gone, htallies⟩ := hb.exists_tallies
  have hfirst := htallies.subscribed_unsubscribe_of_eq hs
  have hkept : (b.unsubscribe s.id).2.subscribed name' = xs' ++ s' :: ys' := by
    rw [hfirst, if_neg hne, hs']
  obtain ⟨added', gone', htallies'⟩ := (hb.leads (.single (.unsubscribe b s.id))).exists_tallies
  rw [htallies'.subscribed_unsubscribe_of_eq hkept, hfirst]

/-- What a mailbox has on the bus goes with it. -/
private theorem Tidy.dropped (hh : h.Tidy) {l : Link} {b : Mailbox} (hb : h.mailboxes[l.mailbox]? = some b)
    (hlast : b.holders ≤ 1) (hc : b.connection = some l.own)
    (haction : ⟨l.own.onAction, .inbox l.mailbox⟩ ∈ h.bus.subscribed Notification.actionName)
    (hcancel : ⟨l.own.onCancel, .canceller l.flag⟩ ∈ h.bus.subscribed Notification.cancelName) :
    Dropped l h (h.release l.mailbox) := by
  have hnames : Notification.cancelName ≠ Notification.actionName := by decide
  obtain ⟨as, as', has⟩ := List.append_of_mem haction
  obtain ⟨cs, cs', hcs⟩ := List.append_of_mem hcancel
  have hdrop := release_of_connection hb hlast hc
  have hboth := subscribed_unsubscribe_both hh.bus hnames has hcs
  have hsubscribed : ∀ name, (h.release l.mailbox).bus.subscribed name =
      if name = Notification.cancelName then cs ++ cs' else
        if name = Notification.actionName then as ++ as' else h.bus.subscribed name := by
    rw [hdrop]
    exact hboth
  refine ⟨⟨?_, ?_⟩, ⟨as, as', has, ?_⟩, ⟨cs, cs', hcs, ?_⟩, ?_, ?_⟩
  · rw [hdrop]
    exact Std.ExtTreeMap.getElem?_erase_self
  · intro other hother
    have hne : compare l.mailbox other ≠ .eq := fun heq => hother (Std.LawfulEqOrd.eq_of_compare heq).symm
    rw [hdrop, Std.ExtTreeMap.getElem?_erase, if_neg hne]
  · rw [hsubscribed, if_neg hnames.symm, if_pos rfl]
  · rw [hsubscribed, if_pos rfl]
  · intro name haction hcancel
    rw [hsubscribed, if_neg hcancel, if_neg haction]
  · rw [hdrop]
    rfl

private theorem Tidy.gone (hh : h.Tidy) {l : Link} {b : Mailbox} (hb : h.mailboxes[l.mailbox]? = some b)
    (hlast : b.holders ≤ 1) (hc : b.connection = some l.own) : (h.release l.mailbox).Gone l := by
  have hown : h.connection? l.mailbox = some l.own := by rw [connection?, hb, Option.bind_some, hc]
  have hi : h.Inherits (h.release l.mailbox) := .release h l.mailbox
  have hissued : ∀ {name : String} {s : Subscription L}, s ∈ h.bus.subscribed name →
      s.id < (h.release l.mailbox).bus.nextId := fun hs =>
    Nat.lt_of_lt_of_le (hh.bus.ascending.issued hs) hi.bus.subscribed.1
  obtain ⟨-, haction, flag, hcancel⟩ := hh.owns hown
  refine ⟨?_, ?_, ?_, hissued haction, hissued hcancel⟩
  · rw [release_of_connection hb hlast hc]
    simp
  · intro name s hs
    exact ((mem_subscribed_release hb hlast hc).1 hs).2
  · rw [hi.next]
    exact hh.mailbox l.mailbox (mem_of_connection? hown)

/-! ### Deliveries in between -/

/-- A hub that a delivery has come to, which began at an outset and whose listeners know only of subscriptions that
belonged to no mailbox then. -/
private structure Discreet (outset : Hub M L) (memorable : M → Prop) (h : Hub M L) : Prop where
  tidy : h.Tidy
  memory : memorable h.memory
  next : outset.bus.nextId ≤ h.bus.nextId
  spares : ∀ {id}, outset.Spares id → h.Spares id

/-- From such a hub, steps of an interleaving lead to such a hub. -/
private def Continues (outset : Hub M L) (memorable : M → Prop) (h h' : Hub M L) : Prop :=
  Discreet outset memorable h → h.Interleaves h' ∧ Discreet outset memorable h'

namespace Continues

variable {outset h'' : Hub M L} {memorable : M → Prop}

/-- A step that makes no mailbox. -/
private theorem of_turnover (hstep : Discreet outset memorable h → h.Turnover h') (hi : h.Inherits h')
    (hmemory : memorable h.memory → memorable h'.memory) : Continues outset memorable h h' := by
  intro hd
  refine ⟨.single (hstep hd), hd.tidy.turnover (hstep hd), hmemory hd.memory, ?_, ?_⟩
  · exact Nat.le_trans hd.next hi.bus.subscribed.1
  · intro id hid mb c hc
    obtain ⟨b', hb', hc'⟩ := Option.bind_eq_some_iff.1 hc
    obtain ⟨b, hb, hsame⟩ := hi.mailbox hb'
    refine hd.spares hid (?_ : h.connection? mb = some c)
    rw [connection?, hb, Option.bind_some, ← hsame, hc']

private theorem aside (hbus : h'.bus = h.bus) (hsame : h'.SameConnections h) (hi : h.Inherits h')
    (hmemory : h'.memory = h.memory) : Continues outset memorable h h' :=
  of_turnover (fun _ => .aside hbus hi.next hsame) hi fun hm => hmemory ▸ hm

private theorem refl (h : Hub M L) : Continues outset memorable h h := fun hd => ⟨.refl, hd⟩

private theorem trans (h12 : Continues outset memorable h h') (h23 : Continues outset memorable h' h'') :
    Continues outset memorable h h'' := by
  intro hd
  obtain ⟨hsteps, hd'⟩ := h12 hd
  obtain ⟨hsteps', hd''⟩ := h23 hd'
  exact ⟨hsteps.trans hsteps', hd''⟩

private theorem note (h : Hub M L) (e : Entry) : Continues outset memorable h (h.note e) :=
  aside rfl (fun _ => rfl) (.of_eq rfl rfl rfl) rfl

private theorem warn (h : Hub M L) (warnings : List Warning) : Continues outset memorable h (h.warn warnings) := by
  rw [warn_eq]
  exact aside rfl (fun _ => rfl) (.of_eq rfl rfl rfl) rfl

/-- An action comes into a mailbox, and something is noted. -/
private theorem put (h : Hub M L) (id : MailboxId) (q : QueuedAction) (e : Entry) :
    Continues outset memorable h ((h.updateMailbox id (·.push q)).note e) := by
  have hput : Continues outset memorable h (h.updateMailbox id (·.push q)) :=
    aside (by rw [updateMailbox_eq]) (sameConnections_updateMailbox h id fun _ => rfl)
      (.updateMailbox h id fun _ => rfl) (memory_updateMailbox h id _)
  exact hput.trans (note _ e)

private theorem push (h : Hub M L) (id : MailboxId) (q : QueuedAction) :
    Continues outset memorable h (h.push id q) := by
  unfold Hub.push
  split
  · exact put h id q _
  · exact refl h

private theorem receive (h : Hub M L) (id : MailboxId) (n : Notification) :
    Continues outset memorable h (h.receive id n) := by
  unfold Hub.receive
  split
  · split
    · exact put h id _ _
    · exact warn h _
  · exact refl h

private theorem reactionLaw (hh : outset.Tidy) :
    ReactionLaw outset.Spares memorable (Discreet outset memorable) (Continues outset memorable) where
  memory hd := hd.memory
  fresh {h} hd {mb c} hc := by
    -- identifiers of mailboxes had been handed out before
    obtain ⟨-, haction, flag, hcancel⟩ := hh.owns hc
    have hissued : ∀ {name : String} {s : Subscription L}, s ∈ outset.bus.subscribed name → h.bus.nextId ≠ s.id :=
      fun hs => (Nat.ne_of_lt (Nat.lt_of_lt_of_le (hh.bus.ascending.issued hs) hd.next)).symm
    exact ⟨hissued haction, hissued hcancel⟩
  keeps hcontinues hd := (hcontinues hd).2
  refl := refl
  trans := trans
  raise h flag := aside rfl (fun _ => rfl) (.raise h flag) rfl
  remember h memory hmemory :=
    of_turnover (fun _ => .aside rfl rfl fun _ => rfl) (.of_eq rfl rfl rfl) fun _ => hmemory
  subscribe h name code := of_turnover (fun _ => .subscribe h name code) (.subscribe h name code) id
  unsubscribe h id hid := of_turnover (fun hd => .unsubscribe h (hd.spares hid)) (.unsubscribe h id) fun hm => hm
  push := push
  clearLog h := of_turnover (fun _ => .clearLog h) (.clearLog h) id
  release h mailbox :=
    of_turnover (fun _ => .release h mailbox) (.release h mailbox) fun hm => (memory_release h mailbox).symm ▸ hm
  act {publish} hpub {name action payload m m' h h' o} _ hcall := by
    have hlaw : MoveLaw publish m.flag (Continues outset memorable) :=
      { refl := refl
        trans := trans
        publish := hpub
        lower := fun h => aside rfl (fun _ => rfl) (.lower h m.flag) rfl }
    have hout : Continues outset memorable h (h.occupy name m) := aside rfl (fun _ => rfl) (.machines h _) rfl
    have hback : Continues outset memorable h' (h'.seat name m') := aside rfl (fun _ => rfl) (.machines h' _) rfl
    exact hout.trans ((hlaw.handleAction warn hcall).trans hback)

/-- A notification is recorded, and some listeners are called with it. -/
private theorem callAll (hh : outset.Tidy) {respond : Response M L} {publish : Publisher M L}
    (hpub : publish.Obeys (Continues outset memorable)) {n : Notification}
    (hrespects : ∀ code, (respond code n).Respects outset.Spares memorable) {done : List (Subscription L)}
    (hcall : Hub.callAll respond publish n done (h.record n) = some h') : Continues outset memorable h h' := by
  have hopened : Continues outset memorable h (h.record n) := of_turnover (fun _ => .record h n) (.record h n) id
  intro hd
  have hcalls : Continues outset memorable (h.record n) h' :=
    (reactionLaw hh).callAll @hpub hrespects (fun k mailbox => receive k mailbox n) (fun k s _ => note k _)
      (fun k id => note k _) (hopened hd).2 hcall
  exact (hopened.trans hcalls) hd

private theorem publishWithin (hh : outset.Tidy) {respond : Response M L}
    (hrespects : ∀ code n, (respond code n).Respects outset.Spares memorable) (depth : Nat) :
    Publisher.Obeys (Hub.publishWithin respond depth) (Continues outset memorable) := by
  refine Publisher.obeys_publishWithin ?_ depth
  intro depth hpub n h h' hcall
  exact (callAll hh @hpub (fun code => hrespects code n) hcall).trans (note h' _)

end Continues

/-- A delivery, also one that is under way, takes its place among the steps of an interleaving if its listeners
unsubscribe for no mailbox. -/
theorem Tidy.interleaves_callAll (hh : h.Tidy) {respond : Response M L} {memorable : M → Prop}
    (hrespects : ∀ code n, (respond code n).Respects h.Spares memorable) (hmemory : memorable h.memory) {depth : Nat}
    {n : Notification} {done : List (Subscription L)}
    (hcall : callAll respond (publishWithin respond depth) n done (h.record n) = some h') : h.Interleaves h' := by
  have hd : Discreet h memorable h := ⟨hh, hmemory, Nat.le_refl _, fun hid => hid⟩
  have hpub : Publisher.Obeys (publishWithin respond depth) (Continues h memorable) :=
    Continues.publishWithin hh hrespects depth
  exact (Continues.callAll hh @hpub (fun code => hrespects code n) hcall hd).1

/-! ### Nothing is left behind -/

/-- Mailboxes are connected and dropped, while others subscribe and unsubscribe, in whatever order.  There is one
subscription under either name for every connected mailbox that is there, besides those that are no mailbox's.  With
its last handle a mailbox takes exactly its own two along, and from then on nothing that is published comes to it or is
cancelled through it.  One that was never connected leaves the bus as it is.  Among the steps may be deliveries, also
such as are under way. -/
theorem Interleaves.mailbox_turnover {capacity : Nat} {memory : M} (hsteps : (empty capacity memory).Interleaves h) :
    (∀ name, name = Notification.actionName ∨ name = Notification.cancelName →
      h.bus.subscriberCount name = h.connected.length + (h.bus.subscribed name).countP (·.isCustom)) ∧
    (∀ {k flag b}, (empty capacity memory).Interleaves k → (k.connect flag).2.Interleaves h →
      h.mailboxes[(k.link flag).mailbox]? = some b → b.holders ≤ 1 →
        Dropped (k.link flag) h (h.release (k.link flag).mailbox) ∧
        ∀ {k'}, (h.release (k.link flag).mailbox).Interleaves k' → k'.Gone (k.link flag) ∧
          ∀ {respond depth n k''}, publishWithin respond depth n k' = some k'' →
            k''.Gone (k.link flag) ∧ ∀ e ∈ k'.entriesSince k'', e.Omits (k.link flag)) ∧
    (∀ {k}, (empty capacity memory).Interleaves k → k.newMailbox.2.Interleaves h →
      (h.release k.nextMailbox).bus = h.bus) ∧
    ∀ {respond : Response M L} {memorable : M → Prop} {depth n done h'},
      (∀ code n, (respond code n).Respects h.Spares memorable) → memorable h.memory →
        callAll respond (publishWithin respond depth) n done (h.record n) = some h' → h.Interleaves h' := by
  have hh : h.Tidy := (Tidy.empty capacity memory).interleaves hsteps
  refine ⟨fun name hname => hh.counts hname, ?_, ?_, fun hrespects hmemory hcall =>
    hh.interleaves_callAll hrespects hmemory hcall⟩
  · intro k flag b hk hlater hb hlast
    have hmem : (k.link flag).mailbox ∈ h.mailboxes := by
      rw [Std.ExtTreeMap.mem_iff_isSome_getElem?, hb]
      rfl
    obtain ⟨hown, haction, hcancel⟩ := hlater.connected_of_mem ((Tidy.empty capacity memory).interleaves hk) hmem
    have hc : b.connection = some (k.link flag).own := by
      rwa [connection?, hb, Option.bind_some] at hown
    refine ⟨hh.dropped hb hlast hc haction hcancel, fun hafter => ?_⟩
    have hgone := (hh.gone hb hlast hc).interleaves hafter
    refine ⟨hgone, fun hpub => ?_⟩
    obtain ⟨hgone', es, hjournal, hes⟩ := Ignores.publishWithin (k.link flag) _ _ hpub hgone
    exact ⟨hgone', by rwa [entriesSince_eq hjournal]⟩
  · intro k hk hlater
    obtain ⟨b, c, hb, -, hc⟩ | ⟨hbus, -⟩ := h.release_cases k.nextMailbox
    · have hnone := hlater.connection?_newMailbox
      rw [connection?, hb, Option.bind_some, hc] at hnone
      cases hnone
    · exact hbus

def vacantHub : Hub Unit Unit := empty 4 ()

/-- Two mailboxes that raise the same flag, and a listener between them. -/
def sharedHub : Hub Unit Unit :=
  (((vacantHub.connect 7).2.subscribe Notification.actionName (.custom ())).2.connect 7).2

/-- The first of two mailboxes is dropped, and an action is published that only the others hear of. -/
theorem Interleaves.mailbox_turnover_shared : ∃ h : Hub Unit Unit,
    sharedHub.bus.subscriberCount Notification.actionName = sharedHub.connected.length + 1 ∧
    Dropped (vacantHub.link 7) sharedHub (sharedHub.release 0) ∧
    publishWithin (fun _ _ => .done) 1 (.action "go" .null) (sharedHub.release 0) = some h ∧
    (h.queue 0).length = 0 ∧ (h.queue 1).length = 1 ∧
    ∀ e ∈ (sharedHub.release 0).entriesSince h, e.Omits (vacantHub.link 7) := by
  have hlater : (vacantHub.connect 7).2.Interleaves sharedHub :=
    .tail (.single (.subscribe _ Notification.actionName ())) (.connect _ 7)
  have hsteps : vacantHub.Interleaves sharedHub := .head (.connect _ 7) hlater
  obtain ⟨hcounts, hdrops, -, -⟩ := mailbox_turnover hsteps
  have hb : sharedHub.mailboxes[0]? = some { Mailbox.new with connection := some ⟨0, 1⟩ } := by rfl
  obtain ⟨hdropped, hlater'⟩ := hdrops .refl hlater hb (Nat.le_refl 1)
  have hends : (publishWithin (fun _ _ => .done) 1 (.action "go" .null) (sharedHub.release 0)).map
      (fun h => ((h.queue 0).length, (h.queue 1).length)) = some (0, 1) := by decide +kernel
  obtain ⟨h, hpub, hqueues⟩ := Option.map_eq_some_iff.1 hends
  obtain ⟨hfirst, hsecond⟩ := Prod.mk.inj hqueues
  have hcustom : (sharedHub.bus.subscribed Notification.actionName).countP (·.isCustom) = 1 := by decide +kernel
  have hcount := hcounts Notification.actionName (.inl rfl)
  rw [hcustom] at hcount
  exact ⟨h, hcount, hdropped, hpub, hfirst, hsecond, ((hlater' .refl).2 hpub).2⟩

end Hub

end VetoMachine
