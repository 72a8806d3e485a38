import VetoMachine.Proofs.Buses
import VetoMachine.Proofs.Nesting

/-!
# Who is called by a delivery

A delivery calls exactly the listeners that are subscribed to the name when it begins, in the order in which they
subscribed, whatever they do to the subscriptions meanwhile, and what one of them publishes is completely delivered
before the next is called (`Hub.Snapshot`).  This holds of every delivery that is made, and of those that its listeners
make in turn (`Hub.publish_snapshot`).
-/

namespace VetoMachine

variable {M L : Type}

/-- Whether an entry tells of a single step, neither of a delivery nor of a call. -/
def Entry.isStep : Entry → Bool
  | .opened _ | .closed _ | .called _ _ | .returned _ => false
  | _ => true

theorem Entry.isPlain_of_isStep {e : Entry} (he : e.isStep = true) : e.isPlain = true := by
  cases e <;> first | rfl | cases he

/-- How the journal tells the call of a listener. -/
def callEntries (n : Notification) (id : SubscriptionId) (during : List Entry) : List Entry :=
  .called id n :: (during ++ [.returned id])

/-- A call of a listener, from the hub that it finds to the hub that it leaves. -/
structure Call (M L : Type) where
  subscription : Subscription L
  before : Hub M L
  after : Hub M L

namespace Call

/-- What happens while the listener runs. -/
def during (c : Call M L) : List Entry := c.before.entriesSince c.after

def entries (n : Notification) (c : Call M L) : List Entry := callEntries n c.subscription.id c.during

end Call

namespace Hub

/-- Listeners are called with a notification one after the other. -/
inductive Calls (respond : Response M L) (publish : Publisher M L) (n : Notification) :
    Hub M L → List (Call M L) → Hub M L → Prop where
  | nil (h : Hub M L) : Calls respond publish n h [] h
  | cons {h h' : Hub M L} {c : Call M L} {calls : List (Call M L)}
      (hbefore : c.before = h.note (.called c.subscription.id n))
      (hreact : react respond publish n c.subscription.listener c.before = some c.after)
      (hrest : Calls respond publish n (c.after.note (.returned c.subscription.id)) calls h') :
      Calls respond publish n h (c :: calls) h'

theorem exists_calls {respond : Response M L} {publish : Publisher M L} {n : Notification}
    {subscriptions : List (Subscription L)} {h h' : Hub M L}
    (hcall : callAll respond publish n subscriptions h = some h') :
    ∃ calls : List (Call M L), calls.map (·.subscription) = subscriptions ∧ Calls respond publish n h calls h' := by
  induction subscriptions generalizing h with
  | nil => cases hcall; exact ⟨[], rfl, .nil _⟩
  | cons s rest ih =>
    obtain ⟨h₁, hreact, hrest⟩ := Option.bind_eq_some_iff.1 hcall
    obtain ⟨calls, hsubscriptions, hcalls⟩ := ih hrest
    refine ⟨⟨s, h.note (.called s.id n), h₁⟩ :: calls, ?_, .cons rfl hreact hcalls⟩
    rw [List.map_cons, hsubscriptions]

theorem Calls.callAll_eq {respond : Response M L} {publish : Publisher M L} {n : Notification}
    {calls : List (Call M L)} {h h' : Hub M L} (hcalls : Calls respond publish n h calls h') :
    callAll respond publish n (calls.map (·.subscription)) h = some h' := by
  induction hcalls with
  | nil h => rfl
  | cons hbefore hreact _ ih =>
    rw [hbefore] at hreact
    simp only [List.map_cons, callAll, hreact, Option.bind_eq_bind, Option.bind_some, ih]

theorem Calls.journal {respond : Response M L} {publish : Publisher M L} {n : Notification} {calls : List (Call M L)}
    {h h' : Hub M L} (hcalls : Calls respond publish n h calls h')
    (hgains : ∀ c ∈ calls, ∃ es : List Entry, c.after.journal = es.reverse ++ c.before.journal) :
    h'.journal = (calls.flatMap (Call.entries n)).reverse ++ h.journal := by
  induction hcalls with
  | nil h => rfl
  | @cons h h' c calls hbefore _ _ ih =>
    obtain ⟨es, hes⟩ := hgains c (by simp)
    have hduring : c.during = es := entriesSince_eq hes
    have hrest := ih fun x hx => hgains x (by simp [hx])
    rw [hrest, List.flatMap_cons, Call.entries, callEntries, hduring]
    simp [note, hes, hbefore]

/-- What becomes of a hub by a delivery, with room for `depth` deliveries inside one another. -/
structure Snapshot (respond : Response M L) (depth : Nat) (n : Notification) (h h' : Hub M L)
    (calls : List (Call M L)) : Prop where
  /-- Those who are subscribed when it begins are called, each once. -/
  subscribed : calls.map (·.subscription) = h.bus.subscribed n.name
  ascending : (calls.map (·.subscription.id)).Pairwise (· < ·)
  chained : ∃ k, Calls respond (publishWithin respond depth) n (h.record n) calls k ∧ h' = k.note (.closed n)
  journal : h'.journal = (Delivery.mk n (calls.flatMap (Call.entries n))).entries.reverse ++ h.journal
  /-- What a listener publishes is delivered before its call ends, and nobody is called meanwhile but by that. -/
  serial : ∀ c ∈ calls, Balanced c.during ∧ ∀ e ∈ surface c.during, e.isStep = true
  /-- Who is subscribed meanwhile is not among the called. -/
  newcomers : ∀ c ∈ calls, ∀ {name s}, s ∈ c.after.bus.subscribed name →
    s ∈ h.bus.subscribed name ∨ ∀ called ∈ calls, called.subscription.id < s.id

end Hub

/-- A delivery in a journal was made on some hub, by these calls. -/
def Delivery.MadeBy (respond : Response M L) (calls : List (Call M L)) (d : Delivery) : Prop :=
  ∃ (depth : Nat) (k k' : Hub M L), k.bus.Reachable ∧ Hub.publishWithin respond (depth + 1) d.note k = some k' ∧
    k.entriesSince k' = d.entries ∧ Hub.Snapshot respond depth d.note k k' calls

namespace Hub

/-! ### The law of all deliveries -/

/-- Operations lead from bus to bus, and the journal gains steps and deliveries. -/
def Unfolds (respond : Response M L) (h h' : Hub M L) : Prop :=
  h.BusLeads h' ∧ (h.bus.Reachable → ∃ es : List Entry, h'.journal = es.reverse ++ h.journal ∧
    Throughout (fun d => ∃ calls, d.MadeBy respond calls) es ∧ ∀ e ∈ surface es, e.isStep = true)

namespace Unfolds

variable {respond : Response M L} {h h' h'' : Hub M L}

theorem of_steps (hb : h.BusLeads h') (es : List Entry) (hj : h'.journal = es.reverse ++ h.journal)
    (hes : ∀ e ∈ es, e.isStep = true) : Unfolds respond h h' := by
  have hplain : ∀ e ∈ es, e.isPlain = true := fun e he => Entry.isPlain_of_isStep (hes e he)
  refine ⟨hb, fun _ => ⟨es, hj, .of_plain hplain, ?_⟩⟩
  rw [surface_of_plain hplain]
  exact hes

theorem refl (h : Hub M L) : Unfolds respond h h := of_steps (.of_bus_eq rfl) [] rfl nofun

theorem trans (h12 : Unfolds respond h h') (h23 : Unfolds respond h' h'') : Unfolds respond h h'' := by
  refine ⟨h12.1.trans h23.1, fun hb => ?_⟩
  obtain ⟨xs, hxj, hxs, hxsteps⟩ := h12.2 hb
  obtain ⟨ys, hyj, hys, hysteps⟩ := h23.2 (hb.leads h12.1)
  refine ⟨xs ++ ys, ?_, hxs.append hys, ?_⟩
  · rw [hyj, hxj, List.reverse_append, List.append_assoc]
  · rw [surface_append hxs.balanced]
    exact List.forall_mem_append.2 ⟨hxsteps, hysteps⟩

theorem warn (h : Hub M L) (warnings : List Warning) : Unfolds respond h (h.warn warnings) :=
  of_steps (.warn h warnings) _ (journal_warn h warnings) (by simp [Entry.isStep])

theorem push (h : Hub M L) (id : MailboxId) (q : QueuedAction) : Unfolds respond h (h.push id q) := by
  have hj := journal_push h id q
  refine of_steps (.push h id q) (if h.mailboxes.contains id then [.pushed id q] else []) ?_ ?_
  · rw [hj]
    split <;> rfl
  · split <;> simp [Entry.isStep]

theorem receive (h : Hub M L) (id : MailboxId) (n : Notification) : Unfolds respond h (h.receive id n) := by
  unfold Hub.receive
  split
  · split
    · rename_i action _
      have hj := journal_updateMailbox h id (·.push ⟨action, n.body⟩)
      refine of_steps (.updateMailbox h id _) [.received id ⟨action, n.body⟩] ?_ (by simp [Entry.isStep])
      rw [note, hj]
      rfl
    · exact warn h _
  · exact refl h

theorem raise (h : Hub M L) (flag : FlagId) : Unfolds respond h (h.raise flag) :=
  of_steps (.of_bus_eq rfl) [.raised flag] rfl (by simp [Entry.isStep])

theorem handleAction {publish : Publisher M L} (hpub : publish.Obeys (Unfolds respond)) {m m' : Machine}
    {action : String} {payload : Json} {o : Outcome}
    (hcall : m.handleAction publish action payload h = some (o, m', h')) : Unfolds respond h h' := by
  have hlaw : MoveLaw publish m.flag (Unfolds respond) :=
    { refl := refl
      trans := trans
      publish := hpub
      lower := fun h => of_steps (.of_bus_eq rfl) [] rfl nofun }
  exact hlaw.handleAction warn hcall

end Unfolds

private theorem reactionLaw_unfolds (respond : Response M L) :
    ReactionLaw (fun _ => True) (fun _ => True) (fun _ => True) (Unfolds respond) where
  memory _ := trivial
  fresh _ := trivial
  keeps _ _ := trivial
  refl := Unfolds.refl
  trans := Unfolds.trans
  raise := Unfolds.raise
  remember _ _ _ := .of_steps (.of_bus_eq rfl) [] rfl nofun
  subscribe h name code := .of_steps (.subscribe h name _) [] rfl nofun
  unsubscribe h id _ := .of_steps (.unsubscribe h id) [] rfl nofun
  push := Unfolds.push
  clearLog h := .of_steps (.single (.clearLog h.bus)) [.cleared] rfl (by simp [Entry.isStep])
  release h mailbox := .of_steps (.release h mailbox) [] (journal_release h mailbox) nofun
  act {publish} hpub {name action payload m m' h h' o} _ hcall := by
    have hunfolds : Unfolds respond (h.occupy name m) h' := Unfolds.handleAction @hpub hcall
    exact hunfolds

theorem Calls.unfolds {respond : Response M L} {publish : Publisher M L} (hpub : publish.Obeys (Unfolds respond))
    {n : Notification} {calls : List (Call M L)} {h h' : Hub M L} (hcalls : Calls respond publish n h calls h') :
    h.BusLeads h' ∧ ∀ c ∈ calls, h.BusLeads c.before ∧ Unfolds respond c.before c.after := by
  induction hcalls with
  | nil h => exact ⟨.refl, by simp⟩
  | @cons h h' c calls hbefore hreact _ ih =>
    have hbus : h.BusLeads c.before := .of_bus_eq (by rw [hbefore]; rfl)
    have hcall : Unfolds respond c.before c.after := by
      cases hlistener : c.subscription.listener with
      | inbox mailbox =>
        rw [hlistener] at hreact
        rw [← Option.some.inj hreact]
        exact .receive _ mailbox n
      | canceller flag =>
        rw [hlistener] at hreact
        rw [← Option.some.inj hreact]
        exact .raise _ flag
      | custom code =>
        rw [hlistener] at hreact
        exact (reactionLaw_unfolds respond).run hpub (respond code n).respects_true trivial hreact
    have hafter : h.BusLeads (c.after.note (.returned c.subscription.id)) := hbus.trans hcall.1
    refine ⟨hafter.trans ih.1, ?_⟩
    intro x hx
    rcases List.mem_cons.1 hx with rfl | hx
    · exact ⟨hbus, hcall⟩
    · exact ⟨hafter.trans (ih.2 x hx).1, (ih.2 x hx).2⟩

/-- What the calls of a delivery are, once what its listeners publish unfolds. -/
private theorem Calls.snapshot {respond : Response M L} {depth : Nat}
    (hpub : Publisher.Obeys (publishWithin respond depth) (Unfolds respond)) {n : Notification} {h k : Hub M L}
    (hb : h.bus.Reachable) {calls : List (Call M L)}
    (hsubscribed : calls.map (·.subscription) = h.bus.subscribed n.name)
    (hcalls : Calls respond (publishWithin respond depth) n (h.record n) calls k) :
    Snapshot respond depth n h (k.note (.closed n)) calls := by
  obtain ⟨-, hunfolds⟩ := hcalls.unfolds hpub
  have hbefore : ∀ c ∈ calls, h.BusLeads c.before := fun c hc => (BusLeads.record h n).trans (hunfolds c hc).1
  have hgains : ∀ c ∈ calls, ∃ es : List Entry, c.after.journal = es.reverse ++ c.before.journal ∧
      Throughout (fun d => ∃ calls, d.MadeBy respond calls) es ∧ ∀ e ∈ surface es, e.isStep = true :=
    fun c hc => (hunfolds c hc).2.2 (hb.leads (hbefore c hc))
  have hids : calls.map (·.subscription.id) = (h.bus.subscribed n.name).map (·.id) := by
    rw [← hsubscribed, List.map_map]
    rfl
  refine ⟨hsubscribed, ?_, ⟨k, hcalls, rfl⟩, ?_, ?_, ?_⟩
  · rw [hids]
    exact hb.ascending.order n.name
  · have hj := hcalls.journal fun c hc => (hgains c hc).imp fun _ hes => hes.1
    simp [note, hj, Hub.record, Delivery.entries]
  · intro c hc
    obtain ⟨es, hj, hes, hsteps⟩ := hgains c hc
    have hduring : c.during = es := entriesSince_eq hj
    rw [hduring]
    exact ⟨hes.balanced, hsteps⟩
  · intro c hc name s hs
    have hleads : h.bus.Leads c.after.bus := (hbefore c hc).trans (hunfolds c hc).2.1
    refine (hleads.subscribed.2 hs).imp_right fun hnew called hcalled => ?_
    have hissued : called.subscription ∈ h.bus.subscribed n.name := by
      rw [← hsubscribed]
      exact List.mem_map_of_mem hcalled
    exact Nat.lt_of_lt_of_le (hb.ascending.issued hissued) hnew

private theorem Calls.madeBy {respond : Response M L} {depth : Nat}
    (hpub : Publisher.Obeys (publishWithin respond depth) (Unfolds respond)) {n : Notification} {h k : Hub M L}
    (hb : h.bus.Reachable) {calls : List (Call M L)}
    (hsubscribed : calls.map (·.subscription) = h.bus.subscribed n.name)
    (hcalls : Calls respond (publishWithin respond depth) n (h.record n) calls k) :
    (Delivery.mk n (calls.flatMap (Call.entries n))).MadeBy respond calls := by
  have hsnapshot := hcalls.snapshot hpub hb hsubscribed
  have hpublished : publishWithin respond (depth + 1) n h = some (k.note (.closed n)) := by
    rw [publishWithin, ← hsubscribed, hcalls.callAll_eq]
    rfl
  exact ⟨depth, h, k.note (.closed n), hb, hpublished, entriesSince_eq hsnapshot.journal, hsnapshot⟩

/-- What listeners publish unfolds, however it nests. -/
theorem obeys_unfolds (respond : Response M L) (depth : Nat) :
    Publisher.Obeys (publishWithin respond depth) (Unfolds respond) := by
  refine Publisher.obeys_publishWithin ?_ depth
  intro depth hpub n h k hcall
  obtain ⟨calls, hsubscribed, hcalls⟩ := exists_calls hcall
  obtain ⟨hleads, hunfolds⟩ := hcalls.unfolds hpub
  refine ⟨(BusLeads.record h n).trans hleads, ?_⟩
  intro hb
  let d : Delivery := ⟨n, calls.flatMap (Call.entries n)⟩
  have hsnapshot : Snapshot respond depth n h (k.note (.closed n)) calls := hcalls.snapshot hpub hb hsubscribed
  have hd : d.MadeBy respond calls := hcalls.madeBy hpub hb hsubscribed
  have hduring : Throughout (fun d => ∃ calls, d.MadeBy respond calls) d.during := by
    refine .flatMap fun c hc => ?_
    have hbefore : h.BusLeads c.before := (BusLeads.record h n).trans (hunfolds c hc).1
    obtain ⟨es, hj, hes, -⟩ := (hunfolds c hc).2.2 (hb.leads hbefore)
    have hes' : c.during = es := entriesSince_eq hj
    rw [Call.entries, callEntries, hes']
    exact .plain rfl (hes.append (.plain rfl .nil))
  refine ⟨d.entries, hsnapshot.journal, .single hduring ⟨calls, hd⟩, ?_⟩
  -- outside all deliveries nothing happens
  have hsurface := surface_entries hduring.balanced []
  rw [List.append_nil] at hsurface
  rw [hsurface]
  exact nofun

/-- The delivery that a hub makes, by its calls. -/
theorem exists_madeBy {respond : Response M L} {depth : Nat} {n : Notification} {h k : Hub M L}
    (hb : h.bus.Reachable)
    (hcall : callAll respond (publishWithin respond depth) n (h.bus.subscribed n.name) (h.record n) = some k) :
    ∃ calls : List (Call M L), Calls respond (publishWithin respond depth) n (h.record n) calls k ∧
      Snapshot respond depth n h (k.note (.closed n)) calls ∧
      (Delivery.mk n (calls.flatMap (Call.entries n))).MadeBy respond calls := by
  obtain ⟨calls, hsubscribed, hcalls⟩ := exists_calls hcall
  have hpub : Publisher.Obeys (publishWithin respond depth) (Unfolds respond) := obeys_unfolds respond depth
  exact ⟨calls, hcalls, hcalls.snapshot hpub hb hsubscribed, hcalls.madeBy hpub hb hsubscribed⟩

/-- On any bus that operations can lead to, a delivery calls exactly the listeners that are subscribed to the name
when it begins, each once and in the order in which they subscribed, with the notification as it is; what a listener
publishes is completely delivered before the next is called.  All deliveries inside it, however deep, are likewise.
-/
theorem publish_snapshot {respond : Response M L} {depth : Nat} {n : Notification} {h h' : Hub M L}
    (hb : h.bus.Reachable) (hpub : publishWithin respond (depth + 1) n h = some h') :
    (∃ calls : List (Call M L), Snapshot respond depth n h h' calls) ∧ h'.bus.Reachable ∧
      ∀ d : Delivery, d.TakesPlaceIn (h.entriesSince h') → ∃ calls, d.MadeBy respond calls := by
  obtain ⟨hleads, hunfolds⟩ := obeys_unfolds respond (depth + 1) hpub
  obtain ⟨es, hj, hes, -⟩ := hunfolds hb
  refine ⟨?_, hb.leads hleads, ?_⟩
  · obtain ⟨k, hcall, hclose⟩ := Option.bind_eq_some_iff.1 hpub
    obtain ⟨calls, -, hsnapshot, -⟩ := exists_madeBy hb hcall
    exact ⟨calls, Option.some.inj hclose ▸ hsnapshot⟩
  · intro d hd
    rw [entriesSince_eq hj] at hd
    exact hes.of_takesPlaceIn hd

/-! ### Listeners that change the subscriptions under way -/

/-- The first call unsubscribes the second listener, subscribes a third and publishes once more. -/
def restless : Response Bool Unit := fun _ n =>
  .read fun stirred =>
    if stirred then .done
    else .remember true (.unsubscribe 1 fun _ => .subscribe n.name () fun _ => .publish n .done)

def tick : Notification := ⟨"tick", .null, none⟩

def restlessHub : Hub Bool Unit :=
  (((Hub.empty 8 false).subscribe tick.name (.custom ())).2.subscribe tick.name (.custom ())).2

/-- The second listener is called although it has been unsubscribed, and the third one is not. -/
theorem publish_snapshot_restless : ∃ (h' : Hub Bool Unit) (calls : List (Call Bool Unit)),
    publishWithin restless 2 tick restlessHub = some h' ∧ Snapshot restless 1 tick restlessHub h' calls ∧
      calls.map (·.subscription.id) = [0, 1] ∧ (h'.bus.subscribed tick.name).map (·.id) = [0, 2] := by
  have hb : restlessHub.bus.Reachable :=
    ⟨8, .tail (.single (.subscribe (.empty 8) _ _)) (.subscribe _ _ _)⟩
  have hends : (publishWithin restless 2 tick restlessHub).map (fun h => (h.bus.subscribed tick.name).map (·.id)) =
      some [0, 2] := by decide +kernel
  obtain ⟨h', hpub, hafter⟩ := Option.map_eq_some_iff.1 hends
  obtain ⟨⟨calls, hcalls⟩, -, -⟩ := publish_snapshot hb hpub
  refine ⟨h', calls, hpub, hcalls, ?_, hafter⟩
  have hids : calls.map (·.subscription.id) = (restlessHub.bus.subscribed tick.name).map (·.id) := by
    rw [← hcalls.subscribed, List.map_map]
    rfl
  rw [hids]
  decide

end Hub

end VetoMachine
