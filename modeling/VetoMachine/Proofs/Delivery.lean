import VetoMachine.Hub.Delivery
import VetoMachine.Proofs.Invariant
import VetoMachine.Proofs.Journal

/-!
# What deliveries and calls can do to a hub

A relation between hubs is a law of delivery (`DeliveryLaw`) if it is reflexive and transitive, every single thing
a listener can do obeys it, and it extends over the two brackets of a delivery and over driving a machine.  Then
every delivery obeys it, however its listeners nest (`DeliveryLaw.publishWithin`).  In the same way a relation that
every step of the protocol obeys is obeyed by all operations of a machine (`CallLaw.perform`).  Most of what a
listener can do changes neither machines nor flags and writes no bracket (`Hub.Quiet`).
-/

namespace VetoMachine

variable {M L : Type}

/-- Whatever the publisher delivers obeys a relation. -/
def Publisher.Obeys (publish : Publisher M L) (P : Hub M L → Hub M L → Prop) : Prop :=
  ∀ {n : Notification} {h h' : Hub M L}, publish n h = some h' → P h h'

/-- What a listener may do: it unsubscribes only what is `free`, given that whatever it subscribes is, and leaves the
memory `tidy`, given that it finds it so. -/
def Reaction.Respects (free : SubscriptionId → Prop) (tidy : M → Prop) : Reaction M L → Prop
  | .done => True
  | .read next => ∀ memory, tidy memory → (next memory).Respects free tidy
  | .remember memory next => tidy memory ∧ next.Respects free tidy
  | .seek _ next => ∀ flag, (next flag).Respects free tidy
  | .check _ next => ∀ raised, (next raised).Respects free tidy
  | .subscribe _ _ next => ∀ id, free id → (next id).Respects free tidy
  | .unsubscribe id next => free id ∧ ∀ removed, (next removed).Respects free tidy
  | .act _ _ _ next => ∀ usage, (next usage).Respects free tidy
  | .cancel _ next | .publish _ next | .push _ _ next | .clearLog next | .release _ next => next.Respects free tidy

/-- A listener that may do anything respects that. -/
theorem Reaction.respects_of_forall {free : SubscriptionId → Prop} {tidy : M → Prop} (hfree : ∀ id, free id)
    (htidy : ∀ memory, tidy memory) (r : Reaction M L) : r.Respects free tidy := by
  induction r with
  | done => trivial
  | read next ih => exact fun memory _ => ih memory
  | remember memory next ih => exact ⟨htidy memory, ih⟩
  | seek machine next ih => exact ih
  | check flag next ih => exact ih
  | subscribe name code next ih => exact fun id _ => ih id
  | unsubscribe id next ih => exact ⟨hfree id, ih⟩
  | act machine action payload next ih => exact ih
  | cancel _ _ ih | publish _ _ ih | push _ _ _ ih | clearLog _ ih | release _ _ ih => exact ih

theorem Reaction.respects_true (r : Reaction M L) : r.Respects (fun _ => True) (fun _ => True) :=
  r.respects_of_forall (fun _ => trivial) fun _ => trivial

/-- A relation that all listeners obey which respect `free` and `tidy`, on hubs that are `ready` for them, once every
single step of a listener does. -/
structure ReactionLaw (free : SubscriptionId → Prop) (tidy : M → Prop) (ready : Hub M L → Prop)
    (P : Hub M L → Hub M L → Prop) : Prop where
  memory : ∀ {h}, ready h → tidy h.memory
  fresh : ∀ {h}, ready h → free h.bus.nextId
  keeps : ∀ {h h'}, P h h' → ready h → ready h'
  refl : ∀ h, P h h
  trans : ∀ {h₁ h₂ h₃}, P h₁ h₂ → P h₂ h₃ → P h₁ h₃
  raise : ∀ h flag, P h (h.raise flag)
  remember : ∀ h memory, tidy memory → P h { h with memory }
  subscribe : ∀ h name code, P h (h.subscribe name (.custom code)).2
  unsubscribe : ∀ h id, free id → P h (h.unsubscribe id).2
  push : ∀ h mailbox q, P h (h.push mailbox q)
  clearLog : ∀ h, P h h.clearLog
  release : ∀ h mailbox, P h (h.release mailbox)
  /-- From deliveries to an action of a machine that is not in use. -/
  act : ∀ {publish : Publisher M L}, publish.Obeys P →
    ∀ {name action : String} {payload : Json} {m m' : Machine} {h h' : Hub M L} {o : Outcome},
      h.machines[name]? = some (.idle m) →
      m.handleAction publish action payload (h.occupy name m) = some (o, m', h') → P h (h'.seat name m')

namespace ReactionLaw

variable {free : SubscriptionId → Prop} {tidy : M → Prop} {ready : Hub M L → Prop} {P : Hub M L → Hub M L → Prop}
  {publish : Publisher M L} {h h' : Hub M L}

private theorem drive (hP : ReactionLaw free tidy ready P) (hpub : publish.Obeys P) {name action : String}
    {payload : Json} {u : Usage Outcome}
    (hcall : h.drive name (fun m h => m.handleAction publish action payload h) = some (u, h')) : P h h' := by
  obtain ⟨-, -, rfl⟩ | ⟨_, -, -, rfl⟩ | ⟨m, o, m', k, hm, haction, -, rfl⟩ := Hub.drive_cases hcall
  · exact hP.refl h'
  · exact hP.refl h'
  · exact hP.act hpub hm haction

/-- A listener obeys the law if what it publishes does. -/
theorem run (hP : ReactionLaw free tidy ready P) (hpub : publish.Obeys P) {r : Reaction M L}
    (hr : r.Respects free tidy) (hready : ready h) (hrun : r.run publish h = some h') : P h h' := by
  -- one step, after which the hub is ready again, and the rest of the program
  have hstep : ∀ {h₁ h₂ : Hub M L}, P h₁ h₂ → ready h₁ → (ready h₂ → P h₂ h') → P h₁ h' := by
    intro h₁ h₂ h12 hready₁ hrest
    exact hP.trans h12 (hrest (hP.keeps h12 hready₁))
  induction r generalizing h with
  | done => cases hrun; exact hP.refl _
  | read next ih => exact ih _ (hr _ (hP.memory hready)) hready hrun
  | remember memory next ih => exact hstep (hP.remember h memory hr.1) hready fun hready' => ih hr.2 hready' hrun
  | seek machine next ih => exact ih _ (hr _) hready hrun
  | cancel flag next ih => exact hstep (hP.raise h flag) hready fun hready' => ih hr hready' hrun
  | check flag next ih => exact ih _ (hr _) hready hrun
  | publish n next ih =>
    obtain ⟨h₁, hn, hrun⟩ := Option.bind_eq_some_iff.1 hrun
    exact hstep (hpub hn) hready fun hready' => ih hr hready' hrun
  | subscribe name code next ih =>
    exact hstep (hP.subscribe h name code) hready fun hready' => ih _ (hr _ (hP.fresh hready)) hready' hrun
  | unsubscribe id next ih =>
    exact hstep (hP.unsubscribe h id hr.1) hready fun hready' => ih _ (hr.2 _) hready' hrun
  | push mailbox q next ih => exact hstep (hP.push h mailbox q) hready fun hready' => ih hr hready' hrun
  | clearLog next ih => exact hstep (hP.clearLog h) hready fun hready' => ih hr hready' hrun
  | release mailbox next ih => exact hstep (hP.release h mailbox) hready fun hready' => ih hr hready' hrun
  | act machine action payload next ih =>
    obtain ⟨⟨u, h₁⟩, hdrive, hrun⟩ := Option.bind_eq_some_iff.1 hrun
    exact hstep (hP.drive hpub hdrive) hready fun hready' => ih _ (hr _) hready' hrun

/-- A listener of whatever kind obeys the law if what it publishes does. -/
theorem react (hP : ReactionLaw free tidy ready P) (hpub : publish.Obeys P) {respond : Response M L} {n : Notification}
    (hrespects : ∀ code, (respond code n).Respects free tidy) (hreceive : ∀ h mailbox, P h (h.receive mailbox n))
    {listener : Listener L} (hready : ready h) (hreact : Hub.react respond publish n listener h = some h') :
    P h h' := by
  cases listener with
  | inbox mailbox => cases hreact; exact hreceive h mailbox
  | canceller flag => cases hreact; exact hP.raise h flag
  | custom code => exact hP.run hpub (hrespects code) hready hreact

/-- Listeners who are called one after the other obey the law if the entries of their calls do. -/
theorem callAll (hP : ReactionLaw free tidy ready P) (hpub : publish.Obeys P) {respond : Response M L}
    {n : Notification} (hrespects : ∀ code, (respond code n).Respects free tidy)
    (hreceive : ∀ h mailbox, P h (h.receive mailbox n)) {subscriptions : List (Subscription L)}
    (hcalled : ∀ h, ∀ s ∈ subscriptions, P h (h.note (.called s.id n)))
    (hreturned : ∀ h id, P h (h.note (.returned id))) (hready : ready h)
    (hcall : Hub.callAll respond publish n subscriptions h = some h') : P h h' := by
  induction subscriptions generalizing h with
  | nil => cases hcall; exact hP.refl _
  | cons s rest ih =>
    obtain ⟨k, hreact, hrest⟩ := Option.bind_eq_some_iff.1 hcall
    have hbegun : P h (h.note (.called s.id n)) := hcalled h s (by simp)
    have hended : P (h.note (.called s.id n)) k := hP.react hpub hrespects hreceive (hP.keeps hbegun hready) hreact
    have hbefore : P h (k.note (.returned s.id)) := hP.trans hbegun (hP.trans hended (hreturned k s.id))
    exact hP.trans hbefore (ih (fun h x hx => hcalled h x (by simp [hx])) (hP.keeps hbefore hready) hrest)

end ReactionLaw

/-- A relation that all deliveries obey once every delivery does whose listeners publish through deliveries that
obey it. -/
theorem Publisher.obeys_publishWithin {respond : Response M L} {P : Hub M L → Hub M L → Prop}
    (hP : ∀ {depth : Nat}, Publisher.Obeys (Hub.publishWithin respond depth) P →
      ∀ {n : Notification} {h h' : Hub M L}, Hub.callAll respond (Hub.publishWithin respond depth) n
        (h.bus.subscribed n.name) (h.record n) = some h' → P h (h'.note (.closed n)))
    (depth : Nat) : Publisher.Obeys (Hub.publishWithin respond depth) P := by
  induction depth with
  | zero => exact nofun
  | succ depth ih =>
    intro n h h' hpub
    obtain ⟨h₁, hcall, hclose⟩ := Option.bind_eq_some_iff.1 hpub
    cases hclose
    exact hP ih hcall

/-- A relation that all deliveries obey once every step of a listener does. -/
structure DeliveryLaw (P : Hub M L → Hub M L → Prop) : Prop where
  refl : ∀ h, P h h
  trans : ∀ {h₁ h₂ h₃}, P h₁ h₂ → P h₂ h₃ → P h₁ h₃
  called : ∀ h id n, P h (h.note (.called id n))
  returned : ∀ h id, P h (h.note (.returned id))
  receive : ∀ h mailbox n, P h (h.receive mailbox n)
  raise : ∀ h flag, P h (h.raise flag)
  remember : ∀ h memory, P h { h with memory }
  subscribe : ∀ h name code, P h (h.subscribe name (.custom code)).2
  unsubscribe : ∀ h id, P h (h.unsubscribe id).2
  push : ∀ h mailbox q, P h (h.push mailbox q)
  clearLog : ∀ h, P h h.clearLog
  release : ∀ h mailbox, P h (h.release mailbox)
  /-- From within the brackets of a delivery to the delivery. -/
  deliver : ∀ {h h' n}, P (h.record n) h' → P h (h'.note (.closed n))
  /-- From deliveries to an action of a machine that is not in use. -/
  act : ∀ {publish : Publisher M L}, publish.Obeys P →
    ∀ {name action : String} {payload : Json} {m m' : Machine} {h h' : Hub M L} {o : Outcome},
      h.machines[name]? = some (.idle m) →
      m.handleAction publish action payload (h.occupy name m) = some (o, m', h') → P h (h'.seat name m')

namespace DeliveryLaw

variable {P : Hub M L → Hub M L → Prop} {publish : Publisher M L} {h h' : Hub M L}

private theorem reactionLaw (hP : DeliveryLaw P) :
    ReactionLaw (fun _ => True) (fun _ => True) (fun _ => True) P where
  memory _ := trivial
  fresh _ := trivial
  keeps _ _ := trivial
  refl := hP.refl
  trans := hP.trans
  raise := hP.raise
  remember h memory _ := hP.remember h memory
  subscribe := hP.subscribe
  unsubscribe h id _ := hP.unsubscribe h id
  push := hP.push
  clearLog := hP.clearLog
  release := hP.release
  act := hP.act

theorem react (hP : DeliveryLaw P) (hpub : publish.Obeys P) {respond : Response M L}
    {n : Notification} {listener : Listener L} (hreact : Hub.react respond publish n listener h = some h') :
    P h h' :=
  hP.reactionLaw.react hpub (fun code => (respond code n).respects_true) (fun k mailbox => hP.receive k mailbox n)
    trivial hreact

theorem callAll (hP : DeliveryLaw P) (hpub : publish.Obeys P) {respond : Response M L}
    {n : Notification} {subscriptions : List (Subscription L)}
    (hcall : Hub.callAll respond publish n subscriptions h = some h') : P h h' :=
  hP.reactionLaw.callAll hpub (fun code => (respond code n).respects_true) (fun k mailbox => hP.receive k mailbox n)
    (fun k s _ => hP.called k s.id n) hP.returned trivial hcall

/-- A delivery obeys the law, however its listeners nest. -/
theorem publishWithin (hP : DeliveryLaw P) (respond : Response M L) (depth : Nat) :
    Publisher.Obeys (Hub.publishWithin respond depth) P := by
  refine Publisher.obeys_publishWithin ?_ depth
  intro depth hpub n h h' hcall
  exact hP.deliver (hP.callAll hpub hcall)

/-- Between its brackets, too, a delivery obeys the law. -/
theorem between_brackets (hP : DeliveryLaw P) {respond : Response M L} {depth : Nat} {n : Notification}
    (hpub : Hub.publishWithin respond depth n h = some h') :
    ∃ h₁, P (h.record n) h₁ ∧ h' = h₁.note (.closed n) := by
  cases depth with
  | zero => cases hpub
  | succ depth =>
    obtain ⟨h₁, hcall, hclose⟩ := Option.bind_eq_some_iff.1 hpub
    cases hclose
    exact ⟨h₁, hP.callAll (hP.publishWithin respond depth) hcall, rfl⟩

end DeliveryLaw

/-! ### Calls of a machine -/

/-- A relation that all moves of a machine with the given cancel flag obey once every step of a move does. -/
structure MoveLaw (publish : Publisher M L) (flag : FlagId) (P : Hub M L → Hub M L → Prop) : Prop where
  refl : ∀ h, P h h
  trans : ∀ {h₁ h₂ h₃}, P h₁ h₂ → P h₂ h₃ → P h₁ h₃
  publish : publish.Obeys P
  lower : ∀ h, P h (h.lower flag)

/-- A relation that all calls of a machine with the given cancel flag obey once every step of a call does. -/
structure CallLaw (publish : Publisher M L) (flag : FlagId) (P : Hub M L → Hub M L → Prop) : Prop where
  refl : ∀ h, P h h
  trans : ∀ {h₁ h₂ h₃}, P h₁ h₂ → P h₂ h₃ → P h₁ h₃
  publish : publish.Obeys P
  lower : ∀ h, P h (h.lower flag)
  raise : ∀ h, P h (h.raise flag)
  warn : ∀ h warnings, P h (h.warn warnings)
  pop : ∀ h mailbox, P h (h.pop mailbox).2

section Calls

variable {publish : Publisher M L} {P : Hub M L → Hub M L → Prop} {m m' : Machine} {h h' : Hub M L} {o : Outcome}
  {payload : Json}

namespace MoveLaw

private theorem publishIfAny {flag : FlagId} (hP : MoveLaw publish flag P) {n : Option Notification}
    (hpub : h.publishIfAny publish n = some h') : P h h' := by
  cases n with
  | none => cases hpub; exact hP.refl h
  | some n => exact hP.publish hpub

private theorem run {flag : FlagId} (hP : MoveLaw publish flag P) {p : Passage}
    (hrun : p.run publish flag payload h = some (o, h')) : P h h' := by
  obtain ⟨h₁, hexit, hrun⟩ := Passage.run_cases hrun
  have h01 : P h h₁ := hP.trans (hP.lower h) (hP.publishIfAny hexit)
  obtain ⟨-, -, rfl⟩ | ⟨-, h₂, henter, hrun⟩ := hrun
  · exact hP.trans h01 (hP.lower h₁)
  have h02 : P h h₂ := hP.trans h01 (hP.publishIfAny henter)
  obtain ⟨-, -, rfl⟩ | ⟨-, h₃, h₄, hchanged, hchange, -, rfl⟩ := hrun
  · exact hP.trans h02 (hP.lower h₂)
  exact hP.trans h02 (hP.trans (hP.publishIfAny hchanged) (hP.trans (hP.publish hchange) (hP.lower h₄)))

theorem transition (hP : MoveLaw publish m.flag P) {target : String}
    (hcall : m.transition publish target payload h = some (o, m', h')) : P h h' := by
  obtain ⟨-, -, -, rfl⟩ | ⟨next, -, hrun, -⟩ := Machine.transition_cases hcall
  · exact hP.refl _
  · exact hP.run hrun

theorem handleAction (hP : MoveLaw publish m.flag P) (hwarn : ∀ h warnings, P h (h.warn warnings)) {action : String}
    (hcall : m.handleAction publish action payload h = some (o, m', h')) : P h h' := by
  obtain ⟨-, -, -, warnings, rfl⟩ | ⟨target, next, -, -, hcall⟩ := Machine.handleAction_cases hcall
  · exact hwarn h warnings
  · exact hP.transition hcall

end MoveLaw

namespace CallLaw

private theorem moveLaw {flag : FlagId} (hP : CallLaw publish flag P) : MoveLaw publish flag P :=
  ⟨hP.refl, hP.trans, hP.publish, hP.lower⟩

theorem transition (hP : CallLaw publish m.flag P) {target : String}
    (hcall : m.transition publish target payload h = some (o, m', h')) : P h h' :=
  hP.moveLaw.transition hcall

theorem handleAction (hP : CallLaw publish m.flag P) {action : String}
    (hcall : m.handleAction publish action payload h = some (o, m', h')) : P h h' :=
  hP.moveLaw.handleAction hP.warn hcall

private theorem handleNotification (hP : CallLaw publish m.flag P) {n : Notification}
    (hcall : m.handleNotification publish n h = some (o, m', h')) : P h h' := by
  obtain ⟨-, action, -, hcall⟩ | ⟨-, -, -, rfl⟩ | ⟨-, -, warnings, rfl⟩ := Machine.handleNotification_cases hcall
  · exact hP.handleAction hcall
  · exact hP.raise h
  · exact hP.warn h warnings

private theorem drain (hP : CallLaw publish m.flag P) {mailbox : MailboxId} {fuel : Nat} {os : List Outcome}
    (hcall : m.drain publish mailbox fuel h = some (os, m', h')) : P h h' := by
  induction fuel generalizing m h os with
  | zero => cases hcall
  | succ fuel ih =>
    obtain ⟨hpop, -, -⟩ | ⟨q, h₁, o, m₁, h₂, rest, hpop, haction, hrest, -⟩ := Machine.drain_cases hcall
    · have := hP.pop h mailbox
      rwa [hpop] at this
    · have h01 := hP.pop h mailbox
      rw [hpop] at h01
      have hflag : m₁.flag = m.flag := (Machine.isInvariant_flag m.flag).handleAction rfl haction
      exact hP.trans h01 (hP.trans (hP.handleAction haction) (ih (hflag ▸ hP) hrest))

theorem perform (hP : CallLaw publish m.flag P) {fuel : Nat} {op : Operation} {a : Answer}
    (hcall : m.perform publish fuel h op = some (a, m', h')) : P h h' := by
  cases op with
  | register s asInitial => cases hcall; exact hP.warn h _
  | remove name => cases hcall; exact hP.refl h
  | startAt name => cases hcall; exact hP.warn h _
  | edit name e => cases hcall; exact hP.refl h
  | editCurrent e => cases hcall; exact hP.refl h
  | cancel => cases hcall; exact hP.raise h
  | moveTo target payload =>
    obtain ⟨_, hcall, -⟩ := Machine.call_of_answer hcall
    exact hP.transition hcall
  | handleAction action payload =>
    obtain ⟨_, hcall, -⟩ := Machine.call_of_answer hcall
    exact hP.handleAction hcall
  | handleNotification n =>
    obtain ⟨_, hcall, -⟩ := Machine.call_of_answer hcall
    exact hP.handleNotification hcall
  | drain mailbox =>
    obtain ⟨_, hcall, -⟩ := Machine.call_of_answer hcall
    exact hP.drain hcall

end CallLaw

end Calls

/-! ### Steps that touch neither machines nor flags -/

/-- Whether an entry neither opens nor closes a delivery nor tells of a raised flag. -/
def Entry.isQuiet : Entry → Bool
  | .opened _ | .closed _ | .raised _ => false
  | _ => true

theorem Entry.isPlain_of_isQuiet {e : Entry} (he : e.isQuiet = true) : e.isPlain = true := by
  cases e <;> first | rfl | cases he

namespace Hub

/-- Machines and flags stay, and the journal gains quiet entries only. -/
structure Quiet (h h' : Hub M L) : Prop where
  machines : h'.machines = h.machines
  raisedFlags : h'.raisedFlags = h.raisedFlags
  nextFlag : h'.nextFlag = h.nextFlag
  journal : ∃ entries : List Entry, h'.journal = entries.reverse ++ h.journal ∧ ∀ e ∈ entries, e.isQuiet = true

namespace Quiet

variable {h h' h'' : Hub M L}

/-- A change of the bus, the mailboxes or the memory is quiet. -/
theorem of_journal_eq (hm : h'.machines = h.machines) (hr : h'.raisedFlags = h.raisedFlags)
    (hn : h'.nextFlag = h.nextFlag) (hj : h'.journal = h.journal) : h.Quiet h' :=
  ⟨hm, hr, hn, [], hj, by simp⟩

theorem note (hq : h.Quiet h') {e : Entry} (he : e.isQuiet = true) : h.Quiet (h'.note e) where
  machines := hq.machines
  raisedFlags := hq.raisedFlags
  nextFlag := hq.nextFlag
  journal := by
    obtain ⟨entries, hj, hall⟩ := hq.journal
    refine ⟨entries ++ [e], by simp [Hub.note, hj], fun x hx => ?_⟩
    rcases List.mem_append.1 hx with hx | hx
    · exact hall x hx
    · rw [List.mem_singleton.1 hx]; exact he

theorem refl (h : Hub M L) : h.Quiet h := of_journal_eq rfl rfl rfl rfl

/-- Quiet steps make no deliveries. -/
theorem deliveriesSince_eq (hq : h.Quiet h') : h.deliveriesSince h' = [] := by
  obtain ⟨entries, hj, hall⟩ := hq.journal
  rw [deliveriesSince, entriesSince_eq hj]
  exact deliveries_eq_nil fun e he => Entry.isPlain_of_isQuiet (hall e he)

theorem warn (h : Hub M L) (warnings : List Warning) : h.Quiet (h.warn warnings) := by
  unfold Hub.warn
  suffices ∀ h', h.Quiet h' → h.Quiet (warnings.foldl (fun h w => h.note (.warned w)) h') from this h (refl h)
  induction warnings with
  | nil => exact fun _ hq => hq
  | cons w rest ih => exact fun _ hq => ih _ (hq.note rfl)

theorem subscribe (h : Hub M L) (name : String) (listener : Listener L) : h.Quiet (h.subscribe name listener).2 :=
  of_journal_eq rfl rfl rfl rfl

theorem unsubscribe (h : Hub M L) (id : SubscriptionId) : h.Quiet (h.unsubscribe id).2 :=
  of_journal_eq rfl rfl rfl rfl

theorem updateMailbox (h : Hub M L) (id : MailboxId) (f : Mailbox → Mailbox) : h.Quiet (h.updateMailbox id f) := by
  unfold Hub.updateMailbox
  split
  · exact of_journal_eq rfl rfl rfl rfl
  · exact refl h

theorem push (h : Hub M L) (id : MailboxId) (q : QueuedAction) : h.Quiet (h.push id q) := by
  unfold Hub.push
  split
  · exact (updateMailbox h id _).note rfl
  · exact refl h

theorem receive (h : Hub M L) (id : MailboxId) (n : Notification) : h.Quiet (h.receive id n) := by
  unfold Hub.receive
  split
  · split
    · exact (updateMailbox h id _).note rfl
    · exact warn h _
  · exact refl h

theorem pop (h : Hub M L) (id : MailboxId) : h.Quiet (h.pop id).2 := by
  unfold Hub.pop
  split
  · exact of_journal_eq rfl rfl rfl rfl
  · exact refl h

theorem clearLog (h : Hub M L) : h.Quiet h.clearLog := by
  have hbus : h.Quiet { h with bus := h.bus.clearLog } := of_journal_eq rfl rfl rfl rfl
  exact hbus.note rfl

theorem release (h : Hub M L) (id : MailboxId) : h.Quiet (h.release id) := by
  unfold Hub.release dropMailbox
  split
  · split
    · split <;> exact of_journal_eq rfl rfl rfl rfl
    · exact of_journal_eq rfl rfl rfl rfl
  · exact refl h

end Quiet

end Hub

end VetoMachine
