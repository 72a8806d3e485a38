import VetoMachine.Proofs.Attendance
import VetoMachine.Proofs.Bystanders
import VetoMachine.Proofs.Drains

/-!
# Two ways to hand notifications to a machine

Actions and cancels can be handed to a machine one by one, or published on the bus, where a connected mailbox queues
the actions, and the mailbox drained.  In the first case a cancel comes between two transitions, in the second before
all of them; but every transition begins by lowering the cancel flag.  So the machine does the same in both cases, if
no event of a state has the name of actions or cancels and its listeners only take notes and cancel
(`Machine.routes_agree`).
-/

namespace VetoMachine

variable {M L : Type}

theorem Notification.asked_eq_some {n : Notification} {q : QueuedAction} :
    n.asked = some q ↔ n.name = Notification.actionName ∧ n.kind = some q.action ∧ n.body = q.payload := by
  unfold asked
  by_cases haction : n.name = Notification.actionName
  · cases hkind : n.kind with
    | none => simp [haction]
    | some action =>
      cases q
      simp [haction]
  · simp [haction]

namespace Hub

/-- Nobody listens to actions and cancels, and whoever listens to something else only takes notes and cancels. -/
structure Unattended (respond : Response M L) (h : Hub M L) : Prop where
  silent : ∀ {name}, IsReserved name → h.bus.subscribed name = []
  passive : ∀ {name s}, ¬ IsReserved name → s ∈ h.bus.subscribed name →
    ∃ code, s.listener = .custom code ∧ ∀ n, (respond code n).Passive

/-- Only a mailbox listens to actions and cancels: it queues the ones and raises `flag` for the others. -/
structure Waiting (mb : MailboxId) (flag : FlagId) (h : Hub M L) : Prop where
  actions : ∃ id, h.bus.subscribed Notification.actionName = [⟨id, .inbox mb⟩]
  cancels : ∃ id, h.bus.subscribed Notification.cancelName = [⟨id, .canceller flag⟩]
  held : mb ∈ h.mailboxes

variable {respond : Response M L} {h k k' : Hub M L} {mb : MailboxId} {flag : FlagId} {n : Notification}

theorem Unattended.waiting (hh : h.Unattended respond) (flag : FlagId) :
    (h.connect flag).2.Waiting (h.connect flag).1 flag where
  actions := ⟨h.bus.nextId, by
    rw [subscribed_connect, hh.silent (.inl rfl)]
    rfl⟩
  cancels := ⟨h.bus.nextId + 1, by
    rw [subscribed_connect, hh.silent (.inr rfl)]
    rfl⟩
  held := by
    rw [mailboxes_connect]
    exact Std.ExtTreeMap.mem_insert_self

/-- The other listeners notice nothing of a mailbox that is connected. -/
theorem Unattended.alike_connect (hh : h.Unattended respond) (flag : FlagId) :
    h.Alike respond (· ≠ flag) (h.connect flag).2 where
  flags _ := rfl
  machines := rfl
  memory := rfl
  subscribed {name} hname := by
    have haction : name ≠ Notification.actionName := fun heq => hname (.inl heq)
    have hcancel : name ≠ Notification.cancelName := fun heq => hname (.inr heq)
    rw [subscribed_connect, if_neg haction, if_neg hcancel, List.append_nil, List.append_nil]
  passive := hh.passive

theorem queue_connect (h : Hub M L) (flag : FlagId) : (h.connect flag).2.queue (h.connect flag).1 = [] := by
  have hmb : (h.connect flag).2.mailboxes[(h.connect flag).1]? =
      some { Mailbox.new with connection := some ⟨h.bus.nextId, h.bus.nextId + 1⟩ } := by
    rw [mailboxes_connect]
    exact Std.ExtTreeMap.getElem?_insert_self
  rw [queue_of_getElem? hmb]
  rfl

theorem pop_of_queue_nil (hqueue : k.queue mb = []) : k.pop mb = (none, (k.pop mb).2) := by
  rcases hpop : k.pop mb with ⟨_ | q, k'⟩
  · rfl
  · rw [queue_of_pop_some hpop] at hqueue
    cases hqueue

theorem pop_of_queue_cons {q : QueuedAction} {rest : List QueuedAction} (hqueue : k.queue mb = q :: rest) :
    k.pop mb = (some q, (k.pop mb).2) ∧ (k.pop mb).2.queue mb = rest := by
  rcases hpop : k.pop mb with ⟨_ | q', k'⟩
  · rw [(queue_of_pop_none hpop).1] at hqueue
    cases hqueue
  · rw [queue_of_pop_some hpop, List.cons.injEq] at hqueue
    exact ⟨by rw [hqueue.1], hqueue.2⟩

theorem Tells.pop (h : Hub M L) (mb : MailboxId) : h.Tells [] (h.pop mb).2 := .of_journal_eq (journal_pop h mb)

theorem Alike.pop {watched : FlagId → Prop} (ha : h.Alike respond watched k) (mb : MailboxId) :
    h.Alike respond watched (k.pop mb).2 := by
  rw [pop_eq]
  exact ha.of_subscribed_eq (fun _ => rfl) (fun _ => rfl) ha.flags ha.machines ha.memory

/-! ### Publishing for the mailbox -/

/-- What becomes of a hub on which an action or a cancel is published for a mailbox: what is asked for waits there, and
the other listeners notice nothing. -/
structure Posts (respond : Response M L) (mb : MailboxId) (flag : FlagId) (ns : List Notification) (h k : Hub M L) :
    Prop where
  waiting : k.Waiting mb flag
  queue_eq : k.queue mb = h.queue mb ++ ns.filterMap Notification.asked
  tells : h.Tells ns k
  alike : ∀ {other : Hub M L}, other.Alike respond (· ≠ flag) h → other.Alike respond (· ≠ flag) k

namespace Posts

variable {ns ns' : List Notification}

theorem nil (hk : k.Waiting mb flag) : Posts respond mb flag [] k k where
  waiting := hk
  queue_eq := (List.append_nil _).symm
  tells := .of_journal_eq rfl
  alike := id

theorem trans (h12 : Posts respond mb flag ns h k) (h23 : Posts respond mb flag ns' k k') :
    Posts respond mb flag (ns ++ ns') h k' where
  waiting := h23.waiting
  queue_eq := by rw [h23.queue_eq, h12.queue_eq, List.filterMap_append, List.append_assoc]
  tells := h12.tells.trans h23.tells
  alike ha := h23.alike (h12.alike ha)

end Posts

/-- A notification with one listener, who writes one entry. -/
private theorem Waiting.posts (hk : k.Waiting mb flag) {depth : Nat} {s : Subscription L}
    (hs : k.bus.subscribed n.name = [s]) {e : Entry}
    (hreact : react respond (publishWithin respond depth) n s.listener ((k.record n).note (.called s.id n)) = some k')
    (hj : k'.journal = e :: ((k.record n).note (.called s.id n)).journal) (hopened : e.opened? = none)
    (hqueued : e.queuedIn? mb = n.asked) (hbus : k'.bus = k.bus.record n) (hheld : mb ∈ k'.mailboxes)
    (hflags : ∀ {other}, other ≠ flag → k'.isRaised other = k.isRaised other) (hmachines : k'.machines = k.machines)
    (hmemory : k'.memory = k.memory) :
    ∃ k'', publishWithin respond (depth + 1) n k = some k'' ∧ Posts respond mb flag [n] k k'' := by
  have hpublish : publishWithin respond (depth + 1) n k = some ((k'.note (.returned s.id)).note (.closed n)) := by
    simp [publishWithin, hs, callAll, hreact]
  have hsubscribed : ∀ name, k'.bus.subscribed name = k.bus.subscribed name := by
    intro name
    rw [hbus, Bus.subscribed_record]
  have hjournal : ((k'.note (.returned s.id)).note (.closed n)).journal =
      ([.opened n, .called s.id n] ++ ([e] ++ [.returned s.id, .closed n]) : List Entry).reverse ++ k.journal := by
    simp [Hub.note, hj, Hub.record]
  refine ⟨_, hpublish, ?_, ?_, ⟨_, hjournal, ?_⟩, ?_⟩
  · obtain ⟨⟨i, hactions⟩, ⟨j, hcancels⟩, -⟩ := hk
    exact ⟨⟨i, (hsubscribed _).trans hactions⟩, ⟨j, (hsubscribed _).trans hcancels⟩, hheld⟩
  · have hflows : k.Flows mb [] ((k'.note (.returned s.id)).note (.closed n)) :=
      (deliveryLaw_flows mb).publishWithin respond (depth + 1) hpublish
    have hqueue := hflows.queue_eq hheld
    rw [entriesSince_eq hjournal, queuedIn_append, queuedIn_append, queuedIn_single, hqueued] at hqueue
    have hafter : queuedIn mb [.returned s.id, .closed n] = [] := rfl
    rw [hafter, List.append_nil] at hqueue
    rw [List.filterMap_eq_flatMap_toList, List.flatMap_singleton]
    exact hqueue.symm
  · have hnone : publishedIn [e] = [] := by simp [publishedIn, hopened]
    rw [publishedIn_append, publishedIn_append, hnone]
    rfl
  · intro other ha
    refine ha.of_subscribed_eq (fun _ => rfl) hsubscribed ?_ (ha.machines.trans hmachines.symm)
      (ha.memory.trans hmemory.symm)
    intro f hf
    exact (ha.flags hf).trans (hflags hf).symm

private theorem Waiting.publish_action (hk : k.Waiting mb flag) (depth : Nat) (hn : n.name = Notification.actionName) :
    ∃ k', publishWithin respond (depth + 1) n k = some k' ∧ Posts respond mb flag [n] k k' := by
  obtain ⟨id, hid⟩ := hk.actions
  rw [← hn] at hid
  have hcontains : ((k.record n).note (.called id n)).mailboxes.contains mb = true := hk.held
  have hsame := receive_eq ((k.record n).note (.called id n)) mb n
  refine hk.posts hid (e := receipt mb n) rfl ?_ ?_ ?_ (by rw [hsame]; rfl) ((mem_receive _ mb n).2 hk.held) ?_
    (by rw [hsame]; rfl) (by rw [hsame]; rfl)
  · rw [journal_receive, hcontains]
    rfl
  · unfold receipt
    cases n.kind <;> rfl
  · rw [Notification.asked, if_pos hn, receipt]
    cases n.kind with
    | none => rfl
    | some action => exact if_pos rfl
  · intro other _
    rw [hsame]
    rfl

private theorem Waiting.publish_cancel (hk : k.Waiting mb flag) (depth : Nat) (hn : n.name = Notification.cancelName) :
    ∃ k', publishWithin respond (depth + 1) n k = some k' ∧ Posts respond mb flag [n] k k' := by
  obtain ⟨id, hid⟩ := hk.cancels
  rw [← hn] at hid
  refine hk.posts hid (e := .raised flag) rfl rfl rfl ?_ rfl hk.held ?_ rfl rfl
  · have hne : n.name ≠ Notification.actionName := by
      rw [hn]
      decide
    rw [Notification.asked, if_neg hne]
    rfl
  · intro other hother
    have hsame : (k.raise flag).isRaised other = k.isRaised other := by
      rw [Bool.eq_iff_iff, isRaised_raise]
      simp [hother.symm]
    exact hsame

theorem Waiting.publish (hk : k.Waiting mb flag) (depth : Nat) (hn : IsReserved n.name) :
    ∃ k', publishWithin respond (depth + 1) n k = some k' ∧ Posts respond mb flag [n] k k' := by
  rcases hn with haction | hcancel
  · exact hk.publish_action depth haction
  · exact hk.publish_cancel depth hcancel

/-- Actions and cancels are published for a mailbox one after the other. -/
theorem Waiting.publishAll (hk : k.Waiting mb flag) (depth fuel : Nat) {notes : List Notification}
    (hnotes : ∀ n ∈ notes, IsReserved n.name) :
    ∃ k', serveAll respond (depth + 1) fuel (notes.map .publish) k = some k' ∧ Posts respond mb flag notes k k' := by
  induction notes generalizing k with
  | nil => exact ⟨k, rfl, .nil hk⟩
  | cons n rest ih =>
    obtain ⟨k₁, hfirst, hposts⟩ := hk.publish depth (hnotes n (by simp))
    obtain ⟨k', hrest, hposts'⟩ := ih hposts.waiting fun x hx => hnotes x (by simp [hx])
    refine ⟨k', ?_, hposts.trans hposts'⟩
    rw [List.map_cons, serveAll, serve, hfirst]
    exact hrest

end Hub

namespace Machine

/-! ### One by one, or drained -/

/-- Of the outcomes `os` of notifications those of the actions asked for are `acted`, and the others say that nothing
was done. -/
structure Answers (notes : List Notification) (os acted : List Outcome) : Prop where
  length_eq : os.length = notes.length
  acted_eq : acted = ((notes.zip os).filter (·.1.asked.isSome)).map (·.2)
  ignored : ∀ x ∈ notes.zip os, x.1.asked = none → x.2 = .ignored

namespace Answers

variable {notes : List Notification} {os acted : List Outcome} {n : Notification}

theorem nil : Answers [] [] [] := ⟨rfl, rfl, nofun⟩

theorem ask (ha : Answers notes os acted) {q : QueuedAction} (hn : n.asked = some q) (o : Outcome) :
    Answers (n :: notes) (o :: os) (o :: acted) where
  length_eq := by simp [ha.length_eq]
  acted_eq := by simp [hn, ha.acted_eq]
  ignored := by
    rw [List.zip_cons_cons, List.forall_mem_cons]
    exact ⟨fun hnone => by simp [hn] at hnone, ha.ignored⟩

theorem ignore (ha : Answers notes os acted) (hn : n.asked = none) : Answers (n :: notes) (.ignored :: os) acted where
  length_eq := by simp [ha.length_eq]
  acted_eq := by simp [hn, ha.acted_eq]
  ignored := by
    rw [List.zip_cons_cons, List.forall_mem_cons]
    exact ⟨fun _ => rfl, ha.ignored⟩

end Answers

variable {respond : Response M L} {m : Machine} {h k : Hub M L} {mb : MailboxId} {n : Notification}

/-- A machine on two hubs: on the first, notifications are still to be handled one by one, and on the second the
actions that they ask for wait in a mailbox. -/
structure InStep (respond : Response M L) (mb : MailboxId) (flag : FlagId) (notes : List Notification) (m : Machine)
    (h k : Hub M L) : Prop where
  unreserved : m.Unreserved
  flag_eq : m.flag = flag
  reserved : ∀ n ∈ notes, IsReserved n.name
  alike : h.Alike respond (· ≠ flag) k
  waiting : k.queue mb = notes.filterMap Notification.asked

namespace InStep

variable {flag : FlagId} {notes : List Notification}

/-- A cancel, or an action without a kind, does no more than to raise the flag, which the second hub need not follow. -/
theorem ignore (hi : InStep respond mb flag (n :: notes) m h k) (hn : n.asked = none) (publish : Publisher M L) :
    ∃ h', m.handleNotification publish n h = some (.ignored, m, h') ∧ InStep respond mb flag notes m h' k ∧
      h.Tells [] h' := by
  obtain ⟨hm, hflag, hreserved, ha, hwaiting⟩ := hi
  rw [List.filterMap_cons_none hn] at hwaiting
  have hrest : ∀ x ∈ notes, IsReserved x.name := fun x hx => hreserved x (by simp [hx])
  by_cases haction : n.name = Notification.actionName
  · have hkind : n.kind = none := by simpa [Notification.asked, haction] using hn
    have hwarned : (h.warn [.namelessAction]).Alike respond (· ≠ flag) k := ha.warn [.namelessAction] []
    refine ⟨h.warn [.namelessAction], ?_, ⟨hm, hflag, hrest, hwarned, hwaiting⟩, (Hub.Publishes.warn h _).tells⟩
    rw [handleNotification, if_pos haction, hkind]
  · have hcancel : n.name = Notification.cancelName := (hreserved n (by simp)).resolve_left haction
    have hraised : (h.raise m.flag).Alike respond (· ≠ flag) k := by
      refine ha.of_subscribed_eq (fun _ => rfl) (fun _ => rfl) ?_ ha.machines ha.memory
      intro other hother
      rw [← ha.flags hother, Bool.eq_iff_iff, Hub.isRaised_raise, hflag]
      simp [Ne.symm hother]
    refine ⟨h.raise m.flag, ?_, ⟨hm, hflag, hrest, hraised, hwaiting⟩, (Hub.Publishes.raise h m.flag).tells⟩
    rw [handleNotification, if_neg haction, if_pos hcancel]

/-- An action comes to the same as the one that waits longest in the mailbox. -/
theorem ask (hi : InStep respond mb flag (n :: notes) m h k) {q : QueuedAction} (hn : n.asked = some q)
    (depth : Nat) :
    ∃ o m' h' k' ns, m.handleNotification (Hub.publishWithin respond (depth + 1)) n h = some (o, m', h') ∧
      k.pop mb = (some q, (k.pop mb).2) ∧
      m.handleAction (Hub.publishWithin respond (depth + 1)) q.action q.payload (k.pop mb).2 = some (o, m', k') ∧
      InStep respond mb flag notes m' h' k' ∧ h.Tells ns h' ∧ k.Tells ns k' ∧ ∀ x ∈ ns, ¬ IsReserved x.name := by
  obtain ⟨hm, rfl, hreserved, ha, hwaiting⟩ := hi
  rw [List.filterMap_cons_some hn] at hwaiting
  obtain ⟨hpop, hleft⟩ := Hub.pop_of_queue_cons hwaiting
  obtain ⟨o, m', h', k', ns, haction, hactionk, ha', hp, hpk, hns, hflag, hm'⟩ :=
    agree_handleAction depth hm (ha.pop mb) q.action q.payload
  have hwaiting' : k'.queue mb = notes.filterMap Notification.asked := by
    rw [← hleft, Hub.queue, hpk.mailboxes]
    rfl
  obtain ⟨hname, hkind, hbody⟩ := Notification.asked_eq_some.1 hn
  refine ⟨o, m', h', k', ns, ?_, hpop, hactionk, ⟨hm', hflag, ?_, ha', hwaiting'⟩, hp.tells,
    (Hub.Tells.pop k mb).trans hpk.tells, hns⟩
  · rw [handleNotification, if_pos hname, hkind, hbody]
    exact haction
  · exact fun x hx => hreserved x (by simp [hx])

/-- Handling the notifications one by one comes to the same as draining the mailbox. -/
theorem run (hi : InStep respond mb flag notes m h k) (depth fuel : Nat) {room : Nat}
    (hroom : (notes.filterMap Notification.asked).length < room) :
    ∃ os acted m' h' k' ns,
      m.performAll (Hub.publishWithin respond (depth + 1)) fuel (notes.map .handleNotification) h =
        some (os.map .outcome, m', h') ∧
      m.drain (Hub.publishWithin respond (depth + 1)) mb room k = some (acted, m', k') ∧
      Answers notes os acted ∧ h'.Alike respond (· ≠ flag) k' ∧ h.Tells ns h' ∧ k.Tells ns k' ∧
      ∀ n ∈ ns, ¬ IsReserved n.name := by
  induction notes generalizing m h k room with
  | nil =>
    obtain ⟨room, rfl⟩ : ∃ r, room = r + 1 := ⟨room - 1, by omega⟩
    have hdrain : m.drain (Hub.publishWithin respond (depth + 1)) mb (room + 1) k = some ([], m, (k.pop mb).2) := by
      rw [drain, Hub.pop_of_queue_nil hi.waiting]
    exact ⟨[], [], m, h, (k.pop mb).2, [], rfl, hdrain, .nil, hi.alike.pop mb, .of_journal_eq rfl, .pop k mb,
      by simp⟩
  | cons n rest ih =>
    cases hn : n.asked with
    | none =>
      rw [List.filterMap_cons_none hn] at hroom
      obtain ⟨h₁, hhandle, hi₁, hp⟩ := hi.ignore hn (Hub.publishWithin respond (depth + 1))
      obtain ⟨os, acted, m', h', k', ns, hperform, hdrain, hanswers, ha', hh', hk', hns⟩ := ih hi₁ hroom
      refine ⟨.ignored :: os, acted, m', h', k', ns, ?_, hdrain, hanswers.ignore hn, ha', hp.trans hh', hk', hns⟩
      simp [performAll, perform, hhandle, hperform]
    | some q =>
      obtain ⟨room, rfl⟩ : ∃ r, room = r + 1 := ⟨room - 1, by omega⟩
      rw [List.filterMap_cons_some hn] at hroom
      obtain ⟨o, m₁, h₁, k₁, ns₁, hhandle, hpop, haction, hi₁, hp, hpk, hns₁⟩ := hi.ask hn depth
      obtain ⟨os, acted, m', h', k', ns, hperform, hdrain, hanswers, ha', hh', hk', hns⟩ :=
        ih hi₁ (Nat.lt_of_succ_lt_succ hroom)
      refine ⟨o :: os, o :: acted, m', h', k', ns₁ ++ ns, ?_, ?_, hanswers.ask hn o, ha', hp.trans hh',
        hpk.trans hk', ?_⟩
      · simp [performAll, perform, hhandle, hperform]
      · rw [drain, hpop]
        simp [haction, hdrain]
      · intro x hx
        rcases List.mem_append.1 hx with hx | hx
        · exact hns₁ x hx
        · exact hns x hx

end InStep

/-- Whether actions and cancels are handled one by one, or published for a mailbox that is drained then, the machine
does the same and publishes the same events, if no state has an event of such a name and the listeners only take notes
and cancel. -/
theorem routes_agree (depth : Nat) {fuel : Nat} {notes : List Notification} (hm : m.Unreserved)
    (hh : h.Unattended respond) (hnotes : ∀ n ∈ notes, IsReserved n.name)
    (hfuel : (notes.filterMap Notification.asked).length < fuel) :
    ∃ os acted m' h₁ posted h₂ events,
      m.performAll (Hub.publishWithin respond (depth + 1)) fuel (notes.map .handleNotification) h =
        some (os.map .outcome, m', h₁) ∧
      Hub.serveAll respond (depth + 1) fuel (notes.map .publish) (h.connect m.flag).2 = some posted ∧
      m.drain (Hub.publishWithin respond (depth + 1)) (h.connect m.flag).1 fuel posted = some (acted, m', h₂) ∧
      Answers notes os acted ∧
      publishedIn (h.entriesSince h₁) = events ∧ publishedIn (posted.entriesSince h₂) = events ∧
      publishedIn ((h.connect m.flag).2.entriesSince posted) = notes ∧
      (∀ n ∈ events, ¬ IsReserved n.name) ∧ h₁.Alike respond (· ≠ m.flag) h₂ := by
  obtain ⟨posted, hserve, hposts⟩ := (hh.waiting m.flag).publishAll depth fuel hnotes
  have ha : h.Alike respond (· ≠ m.flag) posted := hposts.alike (hh.alike_connect m.flag)
  have hwaiting : posted.queue (h.connect m.flag).1 = notes.filterMap Notification.asked := by
    rw [hposts.queue_eq, Hub.queue_connect, List.nil_append]
  have hi : InStep respond (h.connect m.flag).1 m.flag notes m h posted := ⟨hm, rfl, hnotes, ha, hwaiting⟩
  obtain ⟨os, acted, m', h₁, h₂, events, hperform, hdrain, hanswers, halike, htells₁, htells₂, hevents⟩ :=
    hi.run depth fuel hfuel
  exact ⟨os, acted, m', h₁, posted, h₂, events, hperform, hserve, hdrain, hanswers, htells₁.publishedIn_eq,
    htells₂.publishedIn_eq, hposts.tells.publishedIn_eq, hevents, halike⟩

/-! ### A listener with a mind of its own -/

/-- Counts how often it is called, and raises the cancel flag that is its code unless the body is `null`. -/
def doorman : Response Nat FlagId := fun flag n =>
  .read fun count => .remember (count + 1) (match n.body with
    | .null => .done
    | _ => .cancel flag .done)

/-- A hub on which a doorman watches the door. -/
def watchedDoor : Hub Nat FlagId := ((Hub.empty 1 0).subscribe "unlock" (.custom 0)).2

/-- Two pushes, a cancel and an action without a kind. -/
def callers : List Notification :=
  [.action "push" (.bool true), .cancel, ⟨Notification.actionName, .null, none⟩, .action "push" .null]

/-- The first push is vetoed and the second is not, whether the cancel comes between them or before both. -/
theorem routes_agree_door : door.Unreserved ∧ watchedDoor.Unattended doorman ∧
    ∃ os acted m' h₁ posted h₂ events,
      door.performAll (Hub.publishWithin doorman 1) 3 (callers.map .handleNotification) watchedDoor =
        some (os.map .outcome, m', h₁) ∧
      Hub.serveAll doorman 1 3 (callers.map .publish) (watchedDoor.connect 0).2 = some posted ∧
      door.drain (Hub.publishWithin doorman 1) 0 3 posted = some (acted, m', h₂) ∧
      Answers callers os acted ∧ acted = [.vetoedOnExit "closed" "open", .committed (some "closed") "open"] ∧
      publishedIn (watchedDoor.entriesSince h₁) = events ∧ publishedIn (posted.entriesSince h₂) = events ∧
      events.map (·.name) = ["unlock", "unlock", Notification.changedName] ∧ h₁.memory = h₂.memory := by
  have hunlock : ¬ IsReserved "unlock" := by
    unfold IsReserved
    decide
  have hclosed : (State.define { State.new "closed" with exiting := some "unlock" } "push" "open").2.Unreserved := by
    rintro event (⟨⟨⟩⟩ | ⟨⟨⟩⟩ | ⟨⟨⟩⟩)
    exact hunlock
  have hopened : (State.new "open").Unreserved := by rintro event (⟨⟨⟩⟩ | ⟨⟨⟩⟩ | ⟨⟨⟩⟩)
  have hdoor : door.Unreserved :=
    Unreserved.register (Unreserved.register (Unreserved.empty 0) hclosed true) hopened false
  have hsubscribed : ∀ name, watchedDoor.bus.subscribed name = if name = "unlock" then [⟨0, .custom 0⟩] else [] := by
    intro name
    have hempty : ∀ other, (Bus.empty 1 : Bus FlagId).subscribed other = [] := fun _ => rfl
    have hbus : watchedDoor.bus = ((Bus.empty 1).subscribe "unlock" (.custom 0)).2 := rfl
    rw [hbus, Bus.subscribed_subscribe, hempty, hempty]
    rfl
  have hhub : watchedDoor.Unattended doorman := by
    refine ⟨?_, ?_⟩
    · intro name hname
      have hne : name ≠ "unlock" := fun heq => hunlock (heq ▸ hname)
      rw [hsubscribed, if_neg hne]
    · intro name s _ hs
      rw [hsubscribed] at hs
      split at hs
      · rw [List.mem_singleton] at hs
        refine ⟨0, congrArg Subscription.listener hs, fun n memory => ?_⟩
        cases hbody : n.body <;> trivial
      · cases hs
  have hnotes : ∀ n ∈ callers, IsReserved n.name := by
    simp [callers, IsReserved, Notification.action, Notification.cancel]
  have hends : ((Hub.serveAll doorman 1 3 (callers.map .publish) (watchedDoor.connect 0).2).bind fun posted =>
      (door.drain (Hub.publishWithin doorman 1) 0 3 posted).map fun r =>
        (r.1, (publishedIn (posted.entriesSince r.2.2)).map (·.name))) =
      some ([.vetoedOnExit "closed" "open", .committed (some "closed") "open"],
        ["unlock", "unlock", Notification.changedName]) := by decide +kernel
  have hfuel : (callers.filterMap Notification.asked).length < 3 := by decide
  obtain ⟨os, acted, m', h₁, posted, h₂, events, hperform, hserve, hdrain, hanswers, hfirst, hsecond, -, -, halike⟩ :=
    routes_agree 0 hdoor hhub hnotes hfuel
  have hserve : Hub.serveAll doorman 1 3 (callers.map .publish) (watchedDoor.connect 0).2 = some posted := hserve
  have hdrain : door.drain (Hub.publishWithin doorman 1) 0 3 posted = some (acted, m', h₂) := hdrain
  rw [hserve, Option.bind_some, hdrain, Option.map_some, hsecond] at hends
  obtain ⟨hacted, hnames⟩ := Prod.mk.inj (Option.some.inj hends)
  exact ⟨hdoor, hhub, os, acted, m', h₁, posted, h₂, events, hperform, hserve, hdrain, hanswers, hacted, hfirst,
    hsecond, hnames, halike.memory⟩

end Machine

end VetoMachine
