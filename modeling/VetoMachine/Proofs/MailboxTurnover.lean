import VetoMachine.Proofs.SubscriptionTable

/-!
# Mailboxes come and go

Mailboxes are connected and dropped while others subscribe and unsubscribe as they like (`Hub.Turnover`).  Whatever the
order (`Hub.Interleaves`), the subscriptions that are nobody else's are those of the connected mailboxes that are there
(`Hub.Tidy`), one for each under either name (`Hub.Tidy.counts`), and a mailbox keeps its own for as long as it is there
(`Hub.Interleaves.connected_of_mem`).
-/

namespace VetoMachine

variable {M L : Type}

/-- Whether a subscription is no mailbox's. -/
def Subscription.isCustom (s : Subscription L) : Bool :=
  match s.listener with
  | .custom _ => true
  | _ => false

namespace Hub

/-- The connection of a mailbox, if it is there and has one. -/
def connection? (h : Hub M L) (mb : MailboxId) : Option Connection := h.mailboxes[mb]?.bind (·.connection)

/-- A subscription that belongs to none of the mailboxes that are there. -/
def Spares (h : Hub M L) (id : SubscriptionId) : Prop :=
  ∀ {mb c}, h.connection? mb = some c → id ≠ c.onAction ∧ id ≠ c.onCancel

/-- The same mailboxes are there, with the same connections. -/
def SameConnections (h h' : Hub M L) : Prop :=
  ∀ mb : MailboxId, h.mailboxes[mb]?.map (·.connection) = h'.mailboxes[mb]?.map (·.connection)

/-- One step of an interleaving.  Nobody unsubscribes for a mailbox, which does that itself when it is dropped. -/
inductive Turnover : Hub M L → Hub M L → Prop where
  | connect (h : Hub M L) (flag : FlagId) : Turnover h (h.connect flag).2
  | newMailbox (h : Hub M L) : Turnover h h.newMailbox.2
  /-- A handle to a mailbox is given up, and the mailbox is dropped if it was the last one. -/
  | release (h : Hub M L) (mb : MailboxId) : Turnover h (h.release mb)
  | subscribe (h : Hub M L) (name : String) (code : L) : Turnover h (h.subscribe name (.custom code)).2
  | unsubscribe (h : Hub M L) {id : SubscriptionId} (hid : h.Spares id) : Turnover h (h.unsubscribe id).2
  | record (h : Hub M L) (n : Notification) : Turnover h (h.record n)
  | clearLog (h : Hub M L) : Turnover h h.clearLog
  /-- Something else happens: actions are queued and taken, mailboxes are handed on, flags are raised, and so on. -/
  | aside {h h' : Hub M L} (hbus : h'.bus = h.bus) (hnext : h'.nextMailbox = h.nextMailbox)
      (hmailboxes : h'.SameConnections h) : Turnover h h'

/-- Steps lead from a hub to another, in whatever order. -/
def Interleaves : Hub M L → Hub M L → Prop := Relation.ReflTransGen Turnover

/-! ### Connections -/

variable {h h' : Hub M L} {mb : MailboxId}

theorem mem_of_connection? {c : Connection} (hc : h.connection? mb = some c) : mb ∈ h.mailboxes := by
  rw [connection?, Option.bind_eq_some_iff] at hc
  obtain ⟨b, hb, -⟩ := hc
  rw [Std.ExtTreeMap.mem_iff_isSome_getElem?, hb]
  rfl

theorem SameConnections.connection?_eq (hsame : h'.SameConnections h) (mb : MailboxId) :
    h'.connection? mb = h.connection? mb := by
  have hjoin : ∀ k : Hub M L, k.connection? mb = (k.mailboxes[mb]?.map (·.connection)).join := by
    intro k
    rw [connection?]
    cases k.mailboxes[mb]? <;> rfl
  rw [hjoin, hsame, hjoin]

theorem SameConnections.mem_iff (hsame : h'.SameConnections h) : mb ∈ h'.mailboxes ↔ mb ∈ h.mailboxes := by
  have hsome := congrArg Option.isSome (hsame mb)
  rw [Option.isSome_map, Option.isSome_map] at hsome
  rw [Std.ExtTreeMap.mem_iff_isSome_getElem?, hsome, Std.ExtTreeMap.mem_iff_isSome_getElem?]

theorem sameConnections_updateMailbox (h : Hub M L) (id : MailboxId) {f : Mailbox → Mailbox}
    (hf : ∀ b, (f b).connection = b.connection) : (h.updateMailbox id f).SameConnections h := by
  intro mb
  rw [getElem?_updateMailbox]
  split
  · rw [Option.map_map]
    exact congrArg (fun g => h.mailboxes[mb]?.map g) (funext hf)
  · rfl

theorem connection?_of_insert {id : MailboxId} {b : Mailbox} (hmailboxes : h'.mailboxes = h.mailboxes.insert id b)
    (mb : MailboxId) : h'.connection? mb = if mb = id then b.connection else h.connection? mb := by
  rw [connection?, hmailboxes, Std.ExtTreeMap.getElem?_insert]
  by_cases hmb : mb = id
  · simp [hmb]
  · have hne : compare id mb ≠ .eq := fun hc => hmb (Std.LawfulEqOrd.eq_of_compare hc).symm
    rw [if_neg hne, if_neg hmb]
    rfl

theorem connection?_of_erase {id : MailboxId} (hmailboxes : h'.mailboxes = h.mailboxes.erase id) (mb : MailboxId) :
    h'.connection? mb = if mb = id then none else h.connection? mb := by
  rw [connection?, hmailboxes, Std.ExtTreeMap.getElem?_erase]
  by_cases hmb : mb = id
  · simp [hmb]
  · have hne : compare id mb ≠ .eq := fun hc => hmb (Std.LawfulEqOrd.eq_of_compare hc).symm
    rw [if_neg hne, if_neg hmb]
    rfl

theorem connection?_connect (h : Hub M L) (flag : FlagId) (mb : MailboxId) :
    (h.connect flag).2.connection? mb =
      if mb = h.nextMailbox then some ⟨h.bus.nextId, h.bus.nextId + 1⟩ else h.connection? mb :=
  connection?_of_insert (mailboxes_connect h flag) mb

theorem mailboxes_newMailbox (h : Hub M L) : h.newMailbox.2.mailboxes = h.mailboxes.insert h.nextMailbox .new := rfl

/-- Giving up the last handle to a connected mailbox. -/
theorem release_of_connection {b : Mailbox} {c : Connection} (hb : h.mailboxes[mb]? = some b) (hlast : b.holders ≤ 1)
    (hc : b.connection = some c) :
    h.release mb =
      { h with
        bus := ((h.bus.unsubscribe c.onAction).2.unsubscribe c.onCancel).2
        mailboxes := h.mailboxes.erase mb } := by
  rw [release, hb]
  simp only [if_pos hlast, dropMailbox, hc]
  rfl

theorem mem_subscribed_release {b : Mailbox} {c : Connection} (hb : h.mailboxes[mb]? = some b) (hlast : b.holders ≤ 1)
    (hc : b.connection = some c) {name : String} {s : Subscription L} :
    s ∈ (h.release mb).bus.subscribed name ↔
      s ∈ h.bus.subscribed name ∧ s.id ≠ c.onAction ∧ s.id ≠ c.onCancel := by
  rw [release_of_connection hb hlast hc, Bus.subscribed_unsubscribe, Bus.subscribed_unsubscribe, List.mem_filter,
    List.mem_filter]
  simp [and_assoc]

/-- A handle to a mailbox is given up, which is the last one to a connected mailbox or changes no connection. -/
theorem release_cases (h : Hub M L) (id : MailboxId) :
    (∃ b c, h.mailboxes[id]? = some b ∧ b.holders ≤ 1 ∧ b.connection = some c) ∨
    ((h.release id).bus = h.bus ∧ ∀ mb, (h.release id).connection? mb = h.connection? mb) := by
  cases hb : h.mailboxes[id]? with
  | none =>
    have hsame : h.release id = h := by rw [release, hb]
    exact .inr ⟨by rw [hsame], fun mb => by rw [hsame]⟩
  | some b =>
    have hown : h.connection? id = b.connection := by rw [connection?, hb, Option.bind_some]
    by_cases hlast : b.holders ≤ 1
    · cases hc : b.connection with
      | some c => exact .inl ⟨b, c, rfl, hlast, hc⟩
      | none =>
        have hdrop : h.release id = { h with mailboxes := h.mailboxes.erase id } := by
          rw [release, hb]
          simp only [if_pos hlast, dropMailbox, hc]
        refine .inr ⟨by rw [hdrop], fun mb => ?_⟩
        rw [connection?_of_erase (by rw [hdrop]) mb]
        split
        · rename_i hmb
          rw [hmb, hown, hc]
        · rfl
    · have hkeep : h.release id =
          { h with mailboxes := h.mailboxes.insert id { b with holders := b.holders - 1 } } := by
        rw [release, hb]
        simp only [if_neg hlast]
      refine .inr ⟨by rw [hkeep], fun mb => ?_⟩
      rw [connection?_of_insert (by rw [hkeep]) mb]
      split
      · rename_i hmb
        rw [hmb, hown]
      · rfl

/-! ### Whose subscriptions there are -/

/-- The subscriptions for mailboxes are those of the connected mailboxes that are there. -/
structure Tidy (h : Hub M L) : Prop where
  bus : h.bus.Reachable
  mailbox : ∀ mb ∈ h.mailboxes, mb < h.nextMailbox
  /-- The two subscriptions of a mailbox were made one after the other. -/
  owns : ∀ {mb c}, h.connection? mb = some c → c.onCancel = c.onAction + 1 ∧
    ⟨c.onAction, .inbox mb⟩ ∈ h.bus.subscribed Notification.actionName ∧
      ∃ flag, ⟨c.onCancel, .canceller flag⟩ ∈ h.bus.subscribed Notification.cancelName
  owned : ∀ {name s}, s ∈ h.bus.subscribed name → s.isCustom = false → ∃ mb c, h.connection? mb = some c ∧
    ((name = Notification.actionName ∧ s.id = c.onAction) ∨ (name = Notification.cancelName ∧ s.id = c.onCancel))

namespace Tidy

/-- Two mailboxes have nothing in common. -/
theorem spares (hh : h.Tidy) {mb' : MailboxId} {c c' : Connection} (hc : h.connection? mb = some c)
    (hc' : h.connection? mb' = some c') (hne : mb' ≠ mb) :
    (c'.onAction ≠ c.onAction ∧ c'.onAction ≠ c.onCancel) ∧ c'.onCancel ≠ c.onAction ∧ c'.onCancel ≠ c.onCancel := by
  obtain ⟨hnext, haction, flag, hcancel⟩ := hh.owns hc
  obtain ⟨hnext', haction', flag', hcancel'⟩ := hh.owns hc'
  obtain ⟨added, gone, hb⟩ := hh.bus.exists_tallies
  have hnames : Notification.actionName ≠ Notification.cancelName := by decide
  have hactions : c'.onAction ≠ c.onAction := by
    intro hid
    have heq := congrArg Subscription.listener (hb.apart haction' haction hid).2
    exact hne (Listener.inbox.inj heq)
  refine ⟨⟨hactions, ?_⟩, ?_, ?_⟩
  · exact fun hid => hnames (hb.apart haction' hcancel hid).1
  · exact fun hid => hnames (hb.apart haction hcancel' hid.symm).1
  · rw [hnext, hnext']
    exact fun hid => hactions (Nat.succ.inj hid)

/-- A step that concerns no subscription and no connection. -/
private theorem of_eq (hh : h.Tidy) (hbus : h.BusLeads h')
    (hsubscribed : ∀ name, h'.bus.subscribed name = h.bus.subscribed name)
    (hconnection : ∀ mb, h'.connection? mb = h.connection? mb) (hmailbox : ∀ mb ∈ h'.mailboxes, mb < h'.nextMailbox) :
    h'.Tidy where
  bus := hh.bus.leads hbus
  mailbox := hmailbox
  owns {mb c} hc := by
    rw [hsubscribed, hsubscribed]
    exact hh.owns (hconnection mb ▸ hc)
  owned {name s} hs hcustom := by
    rw [hsubscribed] at hs
    obtain ⟨mb, c, hc, hown⟩ := hh.owned hs hcustom
    exact ⟨mb, c, (hconnection mb).trans hc, hown⟩

private theorem lt_of_mem_insert (hh : h.Tidy) {b : Mailbox} (hmb : mb ∈ h.mailboxes.insert h.nextMailbox b) :
    mb < h.nextMailbox + 1 := by
  rcases Std.ExtTreeMap.mem_insert.1 hmb with heq | hmb
  · rw [← Std.LawfulEqOrd.eq_of_compare heq]
    exact Nat.lt_succ_self _
  · exact Nat.lt_succ_of_lt (hh.mailbox mb hmb)

private theorem connect (hh : h.Tidy) (flag : FlagId) : (h.connect flag).2.Tidy where
  bus := hh.bus.leads (busLeads_connect h flag)
  mailbox mb hmb := hh.lt_of_mem_insert (mailboxes_connect h flag ▸ hmb)
  owns {mb c} hc := by
    rw [connection?_connect] at hc
    rw [subscribed_connect, subscribed_connect]
    split at hc
    · rename_i hmb
      rw [← Option.some.inj hc, hmb]
      exact ⟨rfl, by simp, flag, by simp⟩
    · obtain ⟨hnext, haction, other, hcancel⟩ := hh.owns hc
      exact ⟨hnext, by simp [haction], other, by simp [hcancel]⟩
  owned {name s} hs hcustom := by
    rw [subscribed_connect] at hs
    have hnew : (h.connect flag).2.connection? h.nextMailbox = some ⟨h.bus.nextId, h.bus.nextId + 1⟩ := by
      rw [connection?_connect, if_pos rfl]
    rcases List.mem_append.1 hs with hs | hs
    · rcases List.mem_append.1 hs with hs | hs
      · obtain ⟨mb, c, hc, hown⟩ := hh.owned hs hcustom
        have hne : mb ≠ h.nextMailbox := Nat.ne_of_lt (hh.mailbox mb (mem_of_connection? hc))
        refine ⟨mb, c, ?_, hown⟩
        rw [connection?_connect, if_neg hne, hc]
      · split at hs
        · rename_i hname
          exact ⟨_, _, hnew, .inl ⟨hname, by rw [List.mem_singleton.1 hs]⟩⟩
        · cases hs
    · split at hs
      · rename_i hname
        exact ⟨_, _, hnew, .inr ⟨hname, by rw [List.mem_singleton.1 hs]⟩⟩
      · cases hs

private theorem newMailbox (hh : h.Tidy) : h.newMailbox.2.Tidy := by
  refine hh.of_eq (.of_bus_eq rfl) (fun _ => rfl) (fun mb => ?_) fun mb hmb => hh.lt_of_mem_insert hmb
  rw [connection?_of_insert (mailboxes_newMailbox h) mb]
  split
  · rename_i hmb
    have hnone : h.connection? h.nextMailbox = none := by
      refine Option.eq_none_iff_forall_ne_some.2 fun c hc => ?_
      exact Nat.lt_irrefl _ (hh.mailbox _ (mem_of_connection? hc))
    rw [hmb, hnone]
    rfl
  · rfl

private theorem subscribe (hh : h.Tidy) (name : String) (code : L) : (h.subscribe name (.custom code)).2.Tidy where
  bus := hh.bus.leads (.single (.subscribe _ name (.custom code)))
  mailbox := hh.mailbox
  owns {mb c} hc := by
    have hsubscribed : ∀ other, (h.subscribe name (.custom code)).2.bus.subscribed other = _ :=
      h.bus.subscribed_subscribe name (.custom code)
    obtain ⟨hnext, haction, flag, hcancel⟩ := hh.owns hc
    rw [hsubscribed, hsubscribed]
    refine ⟨hnext, ?_, flag, ?_⟩
    · split
      · rename_i hname
        exact List.mem_append_left _ (hname ▸ haction)
      · exact haction
    · split
      · rename_i hname
        exact List.mem_append_left _ (hname ▸ hcancel)
      · exact hcancel
  owned {other s} hs hcustom := by
    have hsubscribed : (h.subscribe name (.custom code)).2.bus.subscribed other = _ :=
      h.bus.subscribed_subscribe name (.custom code) other
    rw [hsubscribed] at hs
    split at hs
    · rename_i hname
      rcases List.mem_append.1 hs with hs | hs
      · exact hh.owned (hname ▸ hs) hcustom
      · rw [List.mem_singleton.1 hs] at hcustom
        cases hcustom
    · exact hh.owned hs hcustom

private theorem unsubscribe (hh : h.Tidy) {id : SubscriptionId} (hid : h.Spares id) : (h.unsubscribe id).2.Tidy where
  bus := hh.bus.leads (.single (.unsubscribe _ id))
  mailbox := hh.mailbox
  owns {mb c} hc := by
    have hsubscribed : ∀ name, (h.unsubscribe id).2.bus.subscribed name = _ := h.bus.subscribed_unsubscribe id
    obtain ⟨hnext, haction, flag, hcancel⟩ := hh.owns hc
    obtain ⟨hne, hne'⟩ := hid hc
    rw [hsubscribed, hsubscribed]
    refine ⟨hnext, List.mem_filter.2 ⟨haction, ?_⟩, flag, List.mem_filter.2 ⟨hcancel, ?_⟩⟩
    · simpa using hne.symm
    · simpa using hne'.symm
  owned {name s} hs hcustom := by
    have hsubscribed : (h.unsubscribe id).2.bus.subscribed name = _ := h.bus.subscribed_unsubscribe id name
    rw [hsubscribed] at hs
    exact hh.owned (List.mem_filter.1 hs).1 hcustom

/-- A connected mailbox is dropped, and its subscriptions with it. -/
private theorem drop (hh : h.Tidy) {b : Mailbox} {c : Connection} (hb : h.mailboxes[mb]? = some b)
    (hlast : b.holders ≤ 1) (hc : b.connection = some c) : (h.release mb).Tidy := by
  have hown : h.connection? mb = some c := by rw [connection?, hb, Option.bind_some, hc]
  have hdrop := release_of_connection hb hlast hc
  have hconnection : ∀ other, (h.release mb).connection? other = if other = mb then none else h.connection? other :=
    connection?_of_erase (by rw [hdrop])
  refine ⟨hh.bus.leads (BusLeads.release h mb), ?_, ?_, ?_⟩
  · intro other hother
    rw [hdrop] at hother ⊢
    exact hh.mailbox other (Std.ExtTreeMap.mem_of_mem_erase hother)
  · intro other c' hc'
    rw [hconnection] at hc'
    split at hc'
    · cases hc'
    · rename_i hne
      obtain ⟨hnext, haction, flag, hcancel⟩ := hh.owns hc'
      obtain ⟨hspares, hspares'⟩ := hh.spares hown hc' hne
      exact ⟨hnext, (mem_subscribed_release hb hlast hc).2 ⟨haction, hspares⟩, flag,
        (mem_subscribed_release hb hlast hc).2 ⟨hcancel, hspares'⟩⟩
  · intro name s hs hcustom
    obtain ⟨hs, haction, hcancel⟩ := (mem_subscribed_release hb hlast hc).1 hs
    obtain ⟨other, c', hc', hid⟩ := hh.owned hs hcustom
    have hne : other ≠ mb := by
      rintro rfl
      rw [hown] at hc'
      rw [← Option.some.inj hc'] at hid
      rcases hid with ⟨-, hid⟩ | ⟨-, hid⟩
      · exact haction hid
      · exact hcancel hid
    exact ⟨other, c', by rw [hconnection, if_neg hne, hc'], hid⟩

private theorem release (hh : h.Tidy) (mb : MailboxId) : (h.release mb).Tidy := by
  obtain ⟨b, c, hb, hlast, hc⟩ | ⟨hbus, hconnection⟩ := h.release_cases mb
  · exact hh.drop hb hlast hc
  · have hi : h.Inherits (h.release mb) := .release h mb
    refine hh.of_eq (.of_bus_eq hbus) (fun name => by rw [hbus]) hconnection ?_
    intro other hother
    rw [hi.next]
    exact hh.mailbox other (hi.mem hother)

private theorem aside (hh : h.Tidy) (hbus : h'.bus = h.bus) (hnext : h'.nextMailbox = h.nextMailbox)
    (hmailboxes : h'.SameConnections h) : h'.Tidy := by
  refine hh.of_eq (.of_bus_eq hbus) (fun name => by rw [hbus]) hmailboxes.connection?_eq ?_
  intro mb hmb
  rw [hnext]
  exact hh.mailbox mb (hmailboxes.mem_iff.1 hmb)

theorem turnover (hh : h.Tidy) (hstep : h.Turnover h') : h'.Tidy := by
  cases hstep with
  | connect flag => exact hh.connect flag
  | newMailbox => exact hh.newMailbox
  | release mb => exact hh.release mb
  | subscribe name code => exact hh.subscribe name code
  | unsubscribe hid => exact hh.unsubscribe hid
  | record n => exact hh.of_eq (.record h n) (fun name => h.bus.subscribed_record n name) (fun _ => rfl) hh.mailbox
  | clearLog => exact hh.of_eq (.single (.clearLog h.bus)) (fun _ => rfl) (fun _ => rfl) hh.mailbox
  | aside hbus hnext hmailboxes => exact hh.aside hbus hnext hmailboxes

theorem interleaves (hh : h.Tidy) (hsteps : h.Interleaves h') : h'.Tidy := by
  induction hsteps with
  | refl => exact hh
  | tail _ hstep ih => exact ih.turnover hstep

theorem empty (capacity : Nat) (memory : M) : (Hub.empty capacity memory : Hub M L).Tidy where
  bus := ⟨capacity, .refl⟩
  mailbox mb hmb := by simp [Hub.empty] at hmb
  owns hc := by simp [Hub.empty, connection?] at hc
  owned hs := by simp [Hub.empty, Bus.empty, Bus.subscribed] at hs

end Tidy

/-! ### How many subscriptions there are -/

/-- The connected mailboxes that are there, with their connections. -/
def connected (h : Hub M L) : List (MailboxId × Connection) :=
  h.mailboxes.toList.filterMap fun p => p.2.connection.map (p.1, ·)

theorem mem_connected {c : Connection} : (mb, c) ∈ h.connected ↔ h.connection? mb = some c := by
  simp only [connected, List.mem_filterMap, Prod.exists, Std.ExtTreeMap.mem_toList_iff_getElem?_eq_some,
    Option.map_eq_some_iff, Prod.mk.injEq, connection?, Option.bind_eq_some_iff]
  constructor
  · rintro ⟨_, b, hb, _, hc, rfl, rfl⟩
    exact ⟨b, hb, hc⟩
  · rintro ⟨b, hb, hc⟩
    exact ⟨mb, b, hb, c, hc, rfl, rfl⟩

theorem nodup_connected (h : Hub M L) : (h.connected.map (·.1)).Nodup := by
  have hkeys : h.mailboxes.toList.Pairwise fun p q => p.1 ≠ q.1 :=
    h.mailboxes.distinct_keys_toList.imp fun hne heq => hne (by rw [heq]; exact Std.ReflCmp.compare_self)
  rw [List.Nodup, List.pairwise_map]
  refine hkeys.filterMap _ ?_
  intro p q hne x hx y hy
  obtain ⟨c, -, rfl⟩ := Option.map_eq_some_iff.1 hx
  obtain ⟨c', -, rfl⟩ := Option.map_eq_some_iff.1 hy
  exact hne

/-- The subscriptions of a name are those of the mailboxes, each by one of its identifiers, and the others. -/
private theorem Tidy.subscriberCount (hh : h.Tidy) {name : String} (own : Connection → SubscriptionId)
    (hmem : ∀ id, (∃ s ∈ h.bus.subscribed name, s.isCustom = false ∧ s.id = id) ↔
      ∃ mb c, h.connection? mb = some c ∧ own c = id)
    (hinj : ∀ {mb mb' c c'}, h.connection? mb = some c → h.connection? mb' = some c' → own c = own c' → mb = mb') :
    h.bus.subscriberCount name = h.connected.length + (h.bus.subscribed name).countP (·.isCustom) := by
  obtain ⟨added, gone, hb⟩ := hh.bus.exists_tallies
  let mine := (h.bus.subscribed name).filter fun s => !s.isCustom
  have hmine : (mine.map (·.id)).Nodup := (hb.nodup_subscribed name).sublist (List.filter_sublist.map _)
  have hconnected : (h.connected.map fun p => own p.2).Nodup := by
    refine (List.Nodup.of_map _ h.nodup_connected).map_on ?_
    rintro ⟨mb, c⟩ hc ⟨mb', c'⟩ hc' hown
    obtain rfl := hinj (mem_connected.1 hc) (mem_connected.1 hc') hown
    rw [mem_connected] at hc hc'
    rw [← Option.some.inj (hc.symm.trans hc')]
  have hperm : (mine.map (·.id)).Perm (h.connected.map fun p => own p.2) := by
    refine (List.perm_ext_iff_of_nodup hmine hconnected).2 fun id => ?_
    simp only [mine, List.mem_map, List.mem_filter, Bool.not_eq_true', and_assoc, Prod.exists, mem_connected]
    exact hmem id
  have hlength : mine.length = h.connected.length := by
    have heq := hperm.length_eq
    rwa [List.length_map, List.length_map] at heq
  have hothers : (h.bus.subscribed name).countP (fun s => ¬ s.isCustom = true) = mine.length := by
    simp [mine, List.countP_eq_length_filter]
  rw [Bus.subscriberCount, List.length_eq_countP_add_countP (·.isCustom), hothers, hlength, Nat.add_comm]

/-- Under either name, each connected mailbox that is there has one subscription, and all others are custom. -/
theorem Tidy.counts (hh : h.Tidy) {name : String}
    (hname : name = Notification.actionName ∨ name = Notification.cancelName) :
    h.bus.subscriberCount name = h.connected.length + (h.bus.subscribed name).countP (·.isCustom) := by
  have hnames : Notification.actionName ≠ Notification.cancelName := by decide
  have hsame : ∀ {mb mb' c c'}, h.connection? mb = some c → h.connection? mb' = some c' →
      c.onAction = c'.onAction ∨ c.onCancel = c'.onCancel → mb = mb' := by
    intro mb mb' c c' hc hc' hid
    refine Decidable.byContradiction fun hne => ?_
    obtain ⟨⟨haction, -⟩, -, hcancel⟩ := hh.spares hc' hc hne
    exact hid.elim haction hcancel
  rcases hname with rfl | rfl
  · refine hh.subscriberCount (·.onAction) (fun id => ⟨?_, ?_⟩) fun hc hc' hid => hsame hc hc' (.inl hid)
    · rintro ⟨s, hs, hcustom, rfl⟩
      obtain ⟨mb, c, hc, ⟨-, hid⟩ | ⟨hname, -⟩⟩ := hh.owned hs hcustom
      · exact ⟨mb, c, hc, hid.symm⟩
      · exact absurd hname hnames
    · rintro ⟨mb, c, hc, rfl⟩
      exact ⟨_, (hh.owns hc).2.1, rfl, rfl⟩
  · refine hh.subscriberCount (·.onCancel) (fun id => ⟨?_, ?_⟩) fun hc hc' hid => hsame hc hc' (.inr hid)
    · rintro ⟨s, hs, hcustom, rfl⟩
      obtain ⟨mb, c, hc, ⟨hname, -⟩ | ⟨-, hid⟩⟩ := hh.owned hs hcustom
      · exact absurd hname hnames.symm
      · exact ⟨mb, c, hc, hid.symm⟩
    · rintro ⟨mb, c, hc, rfl⟩
      obtain ⟨-, -, flag, hcancel⟩ := hh.owns hc
      exact ⟨_, hcancel, rfl, rfl⟩

/-! ### What becomes of one mailbox -/

theorem Turnover.busLeads (hstep : h.Turnover h') : h.BusLeads h' := by
  cases hstep with
  | connect flag => exact busLeads_connect h flag
  | newMailbox => exact .of_bus_eq rfl
  | release mb => exact .release h mb
  | subscribe name code => exact .subscribe h name _
  | unsubscribe hid => exact .unsubscribe h _
  | record n => exact .record h n
  | clearLog => exact .single (.clearLog h.bus)
  | aside hbus hnext hmailboxes => exact .of_bus_eq hbus

/-- A mailbox that is there was there before, with the same connection. -/
private theorem Turnover.keeps (hstep : h.Turnover h') (hmb : mb < h.nextMailbox) :
    mb < h'.nextMailbox ∧ (mb ∈ h'.mailboxes → mb ∈ h.mailboxes ∧ h'.connection? mb = h.connection? mb) := by
  have hne : mb ≠ h.nextMailbox := Nat.ne_of_lt hmb
  have hinsert : ∀ {b : Mailbox}, mb ∈ h.mailboxes.insert h.nextMailbox b → mb ∈ h.mailboxes := by
    intro b hmem
    rcases Std.ExtTreeMap.mem_insert.1 hmem with heq | hmem
    · exact absurd (Std.LawfulEqOrd.eq_of_compare heq).symm hne
    · exact hmem
  cases hstep with
  | connect flag =>
    refine ⟨Nat.lt_succ_of_lt hmb, fun hmem => ⟨hinsert hmem, ?_⟩⟩
    rw [connection?_connect, if_neg hne]
  | newMailbox =>
    refine ⟨Nat.lt_succ_of_lt hmb, fun hmem => ⟨hinsert hmem, ?_⟩⟩
    rw [connection?_of_insert (mailboxes_newMailbox h), if_neg hne]
  | release id =>
    have hi : h.Inherits (h.release id) := .release h id
    refine ⟨hi.next ▸ hmb, fun hmem => ⟨hi.mem hmem, ?_⟩⟩
    obtain ⟨b, c, hb, hlast, hc⟩ | ⟨-, hconnection⟩ := h.release_cases id
    · have hmailboxes : (h.release id).mailboxes = h.mailboxes.erase id := by rw [release_of_connection hb hlast hc]
      have hother : mb ≠ id := by
        rintro rfl
        simp [hmailboxes] at hmem
      rw [connection?_of_erase hmailboxes, if_neg hother]
    · exact hconnection mb
  | subscribe name code => exact ⟨hmb, fun hmem => ⟨hmem, rfl⟩⟩
  | unsubscribe hid => exact ⟨hmb, fun hmem => ⟨hmem, rfl⟩⟩
  | record n => exact ⟨hmb, fun hmem => ⟨hmem, rfl⟩⟩
  | clearLog => exact ⟨hmb, fun hmem => ⟨hmem, rfl⟩⟩
  | aside hbus hnext hmailboxes =>
    exact ⟨hnext ▸ hmb, fun hmem => ⟨hmailboxes.mem_iff.1 hmem, hmailboxes.connection?_eq mb⟩⟩

namespace Interleaves

theorem busLeads (hsteps : h.Interleaves h') : h.BusLeads h' := by
  induction hsteps with
  | refl => exact .refl
  | tail _ hstep ih => exact ih.trans hstep.busLeads

theorem keeps (hsteps : h.Interleaves h') (hmb : mb < h.nextMailbox) :
    mb < h'.nextMailbox ∧ (mb ∈ h'.mailboxes → mb ∈ h.mailboxes ∧ h'.connection? mb = h.connection? mb) := by
  induction hsteps with
  | refl => exact ⟨hmb, fun hmem => ⟨hmem, rfl⟩⟩
  | tail _ hstep ih =>
    obtain ⟨hmb', hkept⟩ := ih
    obtain ⟨hnext, hstays⟩ := hstep.keeps hmb'
    refine ⟨hnext, fun hmem => ?_⟩
    obtain ⟨hmem', hsame⟩ := hstays hmem
    exact ⟨(hkept hmem').1, hsame.trans (hkept hmem').2⟩

/-- A mailbox that has been connected has the two subscriptions made for it, as long as it is there. -/
theorem connected_of_mem {k : Hub M L} {flag : FlagId} (hk : k.Tidy)
    (hsteps : (k.connect flag).2.Interleaves h) (hmem : (k.link flag).mailbox ∈ h.mailboxes) :
    h.connection? (k.link flag).mailbox = some (k.link flag).own ∧
      ⟨(k.link flag).own.onAction, .inbox (k.link flag).mailbox⟩ ∈ h.bus.subscribed Notification.actionName ∧
      ⟨(k.link flag).own.onCancel, .canceller flag⟩ ∈ h.bus.subscribed Notification.cancelName := by
  have hconnect : k.Turnover (k.connect flag).2 := .connect k flag
  have htidy := hk.turnover hconnect
  have hmade : (k.link flag).mailbox < (k.connect flag).2.nextMailbox := Nat.lt_succ_self k.nextMailbox
  obtain ⟨-, hkept⟩ := hsteps.keeps hmade
  have hown : h.connection? (k.link flag).mailbox = some (k.link flag).own := by
    rw [(hkept hmem).2, connection?_connect]
    exact if_pos rfl
  obtain ⟨-, haction, other, hcancel⟩ := (htidy.interleaves hsteps).owns hown
  -- no subscription but the one made then has this identifier
  have hfirst : ⟨(k.link flag).own.onCancel, .canceller flag⟩ ∈
      (k.connect flag).2.bus.subscribed Notification.cancelName := by
    rw [subscribed_connect]
    simp [link]
  have hsame : (⟨(k.link flag).own.onCancel, .canceller other⟩ : Subscription L) =
      ⟨(k.link flag).own.onCancel, .canceller flag⟩ := by
    obtain ⟨added, gone, hb⟩ := htidy.bus.exists_tallies
    rcases hsteps.busLeads.subscribed.2 hcancel with hold | hnew
    · exact (hb.apart hold hfirst rfl).2
    · exact absurd hnew (Nat.not_le_of_lt (Nat.lt_succ_self (k.bus.nextId + 1)))
  exact ⟨hown, haction, hsame ▸ hcancel⟩

/-- A mailbox that is not connected when it is made never is. -/
theorem connection?_newMailbox {k : Hub M L} (hsteps : k.newMailbox.2.Interleaves h) :
    h.connection? k.nextMailbox = none := by
  have hnew : k.newMailbox.2.connection? k.nextMailbox = none := by
    rw [connection?_of_insert (mailboxes_newMailbox k), if_pos rfl]
    rfl
  refine Option.eq_none_iff_forall_ne_some.2 fun c hc => ?_
  have hmade : k.nextMailbox < k.newMailbox.2.nextMailbox := Nat.lt_succ_self k.nextMailbox
  obtain ⟨-, hkept⟩ := hsteps.keeps hmade
  rw [(hkept (mem_of_connection? hc)).2, hnew] at hc
  cases hc

end Interleaves

end Hub

end VetoMachine
