import VetoMachine.Proofs.Moments

/-!
# Calls of the bus

Whatever listeners and machines do to a bus they do by calls of it (`Bus.Act`).  Which calls a program makes, and in
which order, is told by its steps (`Reaction.Makes`).  The calls of a delivery are that of the notification and then
those of the listeners who are called with it, one after the other (`Hub.PublishMakes`), and the calls before a moment
of a run are those of all that has been done until then (`Hub.MomentAfter`).

Deliveries and moments have such calls (`Hub.publishWithin_iff_makes`, `Hub.moment_iff_after`).  The bus is what the
calls make of it, and what the journal tells of the bus is what it tells of the calls (`Hub.Performs`).
-/

namespace VetoMachine

variable {M L : Type}

namespace Bus

/-- A call of a bus.  A notification that is published is recorded; the listeners who are called make calls of their
own. -/
inductive Act (L : Type) where
  | record (n : Notification)
  | clearLog
  | subscribe (name : String) (listener : Listener L)
  | unsubscribe (id : SubscriptionId)

/-- The entry that a call leaves in the journal, if it leaves any. -/
def Act.entry? : Act L → Option Entry
  | .record n => some (.opened n)
  | .clearLog => some .cleared
  | .subscribe _ _ | .unsubscribe _ => none

def perform (b : Bus L) : Act L → Bus L
  | .record n => b.record n
  | .clearLog => b.clearLog
  | .subscribe name listener => (b.subscribe name listener).2
  | .unsubscribe id => (b.unsubscribe id).2

def after (b : Bus L) (acts : List (Act L)) : Bus L := acts.foldl perform b

theorem after_append (b : Bus L) (xs ys : List (Act L)) : b.after (xs ++ ys) = (b.after xs).after ys :=
  List.foldl_append

end Bus

open Bus (Act)

/-! ### Who makes which calls -/

/-- Says which calls come of a notification that is published, and what they leave of the hub. -/
abbrev Calling (M L : Type) := Notification → Hub M L → List (Act L) → Hub M L → Prop

namespace Hub

/-- The calls that giving up a hold of a mailbox makes: a connected one is unsubscribed with the last hold. -/
def releaseActs (h : Hub M L) (id : MailboxId) : List (Act L) :=
  match h.mailboxes[id]? with
  | some b =>
    if b.holders ≤ 1 then
      match b.connection with
      | some c => [.unsubscribe c.onAction, .unsubscribe c.onCancel]
      | none => []
    else []
  | none => []

/-- The calls that a machine with the given cancel flag makes: those of what it publishes. -/
inductive MoveMakes (P : Calling M L) (flag : FlagId) : Hub M L → List (Act L) → Hub M L → Prop where
  | refl (h : Hub M L) : MoveMakes P flag h [] h
  | trans {h k h' : Hub M L} {xs ys : List (Act L)} (hx : MoveMakes P flag h xs k) (hy : MoveMakes P flag k ys h') :
      MoveMakes P flag h (xs ++ ys) h'
  | publish {n : Notification} {h h' : Hub M L} {acts : List (Act L)} (hn : P n h acts h') : MoveMakes P flag h acts h'
  | lower (h : Hub M L) : MoveMakes P flag h [] (h.lower flag)
  | raise (h : Hub M L) : MoveMakes P flag h [] (h.raise flag)
  | warn (h : Hub M L) (warnings : List Warning) : MoveMakes P flag h [] (h.warn warnings)
  | pop (h : Hub M L) (mailbox : MailboxId) : MoveMakes P flag h [] (h.pop mailbox).2

/-- The calls that come of driving the machine of the given name, none if there is none to be driven. -/
inductive DriveMakes (P : Calling M L) (name : String) : Hub M L → List (Act L) → Hub M L → Prop where
  | absent {h : Hub M L} (hseat : h.machines[name]? = none) : DriveMakes P name h [] h
  | busy {h : Hub M L} {flag : FlagId} (hseat : h.machines[name]? = some (.inUse flag)) : DriveMakes P name h [] h
  | idle {h k : Hub M L} {m : Machine} {acts : List (Act L)} (hseat : h.machines[name]? = some (.idle m))
      (hmoves : MoveMakes P m.flag (h.occupy name m) acts k) (m' : Machine) : DriveMakes P name h acts (k.seat name m')

end Hub

/-- The calls that a program of a listener makes, in order. -/
inductive Reaction.Makes (publish : Publisher M L) (P : Calling M L) :
    Reaction M L → Hub M L → List (Act L) → Hub M L → Prop where
  | done (h : Hub M L) : Makes publish P .done h [] h
  | read {next : M → Reaction M L} {h h' : Hub M L} {acts : List (Act L)}
      (hnext : Makes publish P (next h.memory) h acts h') : Makes publish P (.read next) h acts h'
  | remember {memory : M} {next : Reaction M L} {h h' : Hub M L} {acts : List (Act L)}
      (hnext : Makes publish P next { h with memory } acts h') : Makes publish P (.remember memory next) h acts h'
  | seek {machine : String} {next : Option FlagId → Reaction M L} {h h' : Hub M L} {acts : List (Act L)}
      (hnext : Makes publish P (next (h.flagOf machine)) h acts h') : Makes publish P (.seek machine next) h acts h'
  | cancel {flag : FlagId} {next : Reaction M L} {h h' : Hub M L} {acts : List (Act L)}
      (hnext : Makes publish P next (h.raise flag) acts h') : Makes publish P (.cancel flag next) h acts h'
  | check {flag : FlagId} {next : Bool → Reaction M L} {h h' : Hub M L} {acts : List (Act L)}
      (hnext : Makes publish P (next (h.isRaised flag)) h acts h') : Makes publish P (.check flag next) h acts h'
  | publish {n : Notification} {next : Reaction M L} {h k h' : Hub M L} {xs ys : List (Act L)} (hn : P n h xs k)
      (hnext : Makes publish P next k ys h') : Makes publish P (.publish n next) h (xs ++ ys) h'
  | subscribe {name : String} {code : L} {next : SubscriptionId → Reaction M L} {h h' : Hub M L} {acts : List (Act L)}
      (hnext : Makes publish P (next (h.subscribe name (.custom code)).1) (h.subscribe name (.custom code)).2 acts h') :
      Makes publish P (.subscribe name code next) h (.subscribe name (.custom code) :: acts) h'
  | unsubscribe {id : SubscriptionId} {next : Bool → Reaction M L} {h h' : Hub M L} {acts : List (Act L)}
      (hnext : Makes publish P (next (h.unsubscribe id).1) (h.unsubscribe id).2 acts h') :
      Makes publish P (.unsubscribe id next) h (.unsubscribe id :: acts) h'
  | push {mailbox : MailboxId} {q : QueuedAction} {next : Reaction M L} {h h' : Hub M L} {acts : List (Act L)}
      (hnext : Makes publish P next (h.push mailbox q) acts h') : Makes publish P (.push mailbox q next) h acts h'
  | clearLog {next : Reaction M L} {h h' : Hub M L} {acts : List (Act L)}
      (hnext : Makes publish P next h.clearLog acts h') : Makes publish P (.clearLog next) h (.clearLog :: acts) h'
  | release {mailbox : MailboxId} {next : Reaction M L} {h h' : Hub M L} {acts : List (Act L)}
      (hnext : Makes publish P next (h.release mailbox) acts h') :
      Makes publish P (.release mailbox next) h (h.releaseActs mailbox ++ acts) h'
  | act {machine action : String} {payload : Json} {next : Usage Outcome → Reaction M L} {h k h' : Hub M L}
      {usage : Usage Outcome} {xs ys : List (Act L)}
      (hdrive : h.drive machine (fun m h => m.handleAction publish action payload h) = some (usage, k))
      (hmakes : h.DriveMakes P machine xs k) (hnext : Makes publish P (next usage) k ys h') :
      Makes publish P (.act machine action payload next) h (xs ++ ys) h'

/-- The calls that a listener makes who is called with a notification: none but those of its program. -/
inductive Listener.Makes (respond : Response M L) (publish : Publisher M L) (P : Calling M L) (n : Notification) :
    Listener L → Hub M L → List (Act L) → Hub M L → Prop where
  | inbox (mailbox : MailboxId) (h : Hub M L) : Makes respond publish P n (.inbox mailbox) h [] (h.receive mailbox n)
  | canceller (flag : FlagId) (h : Hub M L) : Makes respond publish P n (.canceller flag) h [] (h.raise flag)
  | custom {code : L} {h h' : Hub M L} {acts : List (Act L)} (hprogram : (respond code n).Makes publish P h acts h') :
      Makes respond publish P n (.custom code) h acts h'

namespace Hub

/-- The calls that listeners make who are called one after the other. -/
inductive CallsMake (respond : Response M L) (publish : Publisher M L) (P : Calling M L) (n : Notification) :
    List (Subscription L) → Hub M L → List (Act L) → Hub M L → Prop where
  | nil (h : Hub M L) : CallsMake respond publish P n [] h [] h
  | cons {s : Subscription L} {rest : List (Subscription L)} {h k h' : Hub M L} {xs ys : List (Act L)}
      (hfirst : s.listener.Makes respond publish P n (h.note (.called s.id n)) xs k)
      (hrest : CallsMake respond publish P n rest (k.note (.returned s.id)) ys h') :
      CallsMake respond publish P n (s :: rest) h (xs ++ ys) h'

/-- The calls of a delivery, with room for `depth` deliveries inside one another. -/
def PublishMakes (respond : Response M L) : Nat → Calling M L
  | 0, _, _, _, _ => False
  | depth + 1, n, h, acts, h' => ∃ inner k,
      CallsMake respond (publishWithin respond depth) (PublishMakes respond depth) n (h.bus.subscribed n.name)
        (h.record n) inner k ∧
      acts = .record n :: inner ∧ h' = k.note (.closed n)

end Hub

/-- The calls that serving a request makes. -/
def Request.Makes (respond : Response M L) (depth : Nat) (h : Hub M L) (r : Request M L) (acts : List (Act L))
    (k : Hub M L) : Prop :=
  match r with
  | .publish n => Hub.PublishMakes respond depth n h acts k
  | .operate name _ => h.DriveMakes (Hub.PublishMakes respond depth) name acts k
  | .subscribe name code => acts = [.subscribe name (.custom code)]
  | .unsubscribe id => acts = [.unsubscribe id]
  | .clearLog => acts = [.clearLog]
  | .connect flag => acts =
      [.subscribe Notification.actionName (.inbox h.nextMailbox), .subscribe Notification.cancelName (.canceller flag)]
  | .release mailbox => acts = h.releaseActs mailbox
  | .remember _ | .newFlag | .cancel _ | .newMailbox | .push _ _ | .pop _ | .hold _ | .seat _ _ => acts = []

/-- Some moment of a run that begins on an empty hub, after all the calls that have been made by then. -/
inductive Hub.MomentAfter (respond : Response M L) (capacity : Nat) : Hub M L → List (Act L) → Prop where
  | start (memory : M) : MomentAfter respond capacity (empty capacity memory) []
  | serve {h k : Hub M L} {acts xs : List (Act L)} (depth fuel : Nat) (r : Request M L)
      (hh : MomentAfter respond capacity h acts) (hserve : h.serve respond depth fuel r = some k)
      (hmakes : r.Makes respond depth h xs k) : MomentAfter respond capacity k (acts ++ xs)
  | aside {h k : Hub M L} {acts : List (Act L)} {warnings : List Warning} (hh : MomentAfter respond capacity h acts)
      (hbus : k.bus = h.bus) (hjournal : k.journal = (warnings.map .warned).reverse ++ h.journal) :
      MomentAfter respond capacity k acts
  | call {h k : Hub M L} {acts xs : List (Act L)} (depth : Nat) {n : Notification} {done rest : List (Subscription L)}
      {s : Subscription L} (hh : MomentAfter respond capacity h acts)
      (hsubscribed : h.bus.subscribed n.name = done ++ s :: rest)
      (hdone : CallsMake respond (publishWithin respond depth) (PublishMakes respond depth) n done (h.record n) xs k) :
      MomentAfter respond capacity (k.note (.called s.id n)) (acts ++ .record n :: xs)

/-! ### Every run makes calls -/

section

variable {publish : Publisher M L} {P : Calling M L} {h h' : Hub M L}
  (hpub : ∀ {n : Notification} {h h' : Hub M L}, publish n h = some h' → ∃ acts, P n h acts h')
include hpub

private theorem moveLaw_makes (flag : FlagId) :
    MoveLaw publish flag fun h h' => ∃ acts, Hub.MoveMakes P flag h acts h' where
  refl h := ⟨_, .refl h⟩
  trans := fun ⟨_, hx⟩ ⟨_, hy⟩ => ⟨_, hx.trans hy⟩
  publish hn := (hpub hn).imp fun _ => .publish
  lower h := ⟨_, .lower h⟩

private theorem callLaw_makes (flag : FlagId) :
    CallLaw publish flag fun h h' => ∃ acts, Hub.MoveMakes P flag h acts h' where
  refl h := ⟨_, .refl h⟩
  trans := fun ⟨_, hx⟩ ⟨_, hy⟩ => ⟨_, hx.trans hy⟩
  publish hn := (hpub hn).imp fun _ => .publish
  lower h := ⟨_, .lower h⟩
  raise h := ⟨_, .raise h⟩
  warn h warnings := ⟨_, .warn h warnings⟩
  pop h mailbox := ⟨_, .pop h mailbox⟩

omit hpub in
private theorem exists_driveMakes {α : Type} {name : String} {f : Machine → Hub M L → Option (α × Machine × Hub M L)}
    (hf : ∀ {m m' k k' a}, f m k = some (a, m', k') → ∃ acts, Hub.MoveMakes P m.flag k acts k') {u : Usage α}
    (hdrive : h.drive name f = some (u, h')) : ∃ acts, h.DriveMakes P name acts h' := by
  obtain ⟨hseat, -, rfl⟩ | ⟨_, hseat, -, rfl⟩ | ⟨m, a, m', k, hseat, hcall, -, rfl⟩ := Hub.drive_cases hdrive
  · exact ⟨_, .absent hseat⟩
  · exact ⟨_, .busy hseat⟩
  · obtain ⟨acts, hmoves⟩ := hf hcall
    exact ⟨acts, .idle hseat hmoves m'⟩

theorem Reaction.exists_makes {r : Reaction M L} (hrun : r.run publish h = some h') :
    ∃ acts, r.Makes publish P h acts h' := by
  induction r generalizing h with
  | done => cases hrun; exact ⟨_, .done _⟩
  | read next ih => exact (ih _ hrun).imp fun _ => .read
  | remember memory next ih => exact (ih hrun).imp fun _ => .remember
  | seek machine next ih => exact (ih _ hrun).imp fun _ => .seek
  | cancel flag next ih => exact (ih hrun).imp fun _ => .cancel
  | check flag next ih => exact (ih _ hrun).imp fun _ => .check
  | publish n next ih =>
    obtain ⟨k, hn, hrun⟩ := Option.bind_eq_some_iff.1 hrun
    obtain ⟨xs, hx⟩ := hpub hn
    obtain ⟨ys, hy⟩ := ih hrun
    exact ⟨_, .publish hx hy⟩
  | subscribe name code next ih => obtain ⟨acts, hnext⟩ := ih _ hrun; exact ⟨_, .subscribe hnext⟩
  | unsubscribe id next ih => obtain ⟨acts, hnext⟩ := ih _ hrun; exact ⟨_, .unsubscribe hnext⟩
  | push mailbox q next ih => exact (ih hrun).imp fun _ => .push
  | clearLog next ih => obtain ⟨acts, hnext⟩ := ih hrun; exact ⟨_, .clearLog hnext⟩
  | release mailbox next ih => obtain ⟨acts, hnext⟩ := ih hrun; exact ⟨_, .release hnext⟩
  | act machine action payload next ih =>
    obtain ⟨⟨usage, k⟩, hdrive, hrun⟩ := Option.bind_eq_some_iff.1 hrun
    obtain ⟨xs, hx⟩ := exists_driveMakes
      (fun hcall => (moveLaw_makes hpub _).handleAction (fun h warnings => ⟨_, .warn h warnings⟩) hcall) hdrive
    obtain ⟨ys, hy⟩ := ih _ hrun
    exact ⟨_, .act hdrive hx hy⟩

theorem Listener.exists_makes {respond : Response M L} {n : Notification} {listener : Listener L}
    (hreact : Hub.react respond publish n listener h = some h') :
    ∃ acts, listener.Makes respond publish P n h acts h' := by
  cases listener with
  | inbox mailbox => cases hreact; exact ⟨_, .inbox mailbox h⟩
  | canceller flag => cases hreact; exact ⟨_, .canceller flag h⟩
  | custom code => exact (Reaction.exists_makes hpub hreact).imp fun _ => .custom

theorem Hub.exists_callsMake {respond : Response M L} {n : Notification} {subscriptions : List (Subscription L)}
    (hcall : callAll respond publish n subscriptions h = some h') :
    ∃ acts, CallsMake respond publish P n subscriptions h acts h' := by
  induction subscriptions generalizing h with
  | nil => cases hcall; exact ⟨_, .nil _⟩
  | cons s rest ih =>
    obtain ⟨k, hreact, hrest⟩ := Option.bind_eq_some_iff.1 hcall
    obtain ⟨xs, hx⟩ := Listener.exists_makes hpub hreact
    obtain ⟨ys, hy⟩ := ih hrest
    exact ⟨_, .cons hx hy⟩

end

/-! ### Whoever makes calls has run -/

section

variable {publish : Publisher M L} {P : Calling M L} {h h' : Hub M L} {acts : List (Act L)}
  (hP : ∀ {n : Notification} {h h' : Hub M L} {acts : List (Act L)}, P n h acts h' → publish n h = some h')
include hP

theorem Reaction.Makes.run_eq {r : Reaction M L} (hr : r.Makes publish P h acts h') : r.run publish h = some h' := by
  induction hr with
  | done h => rfl
  | read _ ih | remember _ ih | seek _ ih | cancel _ ih | check _ ih | subscribe _ ih | unsubscribe _ ih | push _ ih
  | clearLog _ ih | release _ ih => exact ih
  | publish hn _ ih =>
    rw [Reaction.run, hP hn]
    exact ih
  | act hdrive _ _ ih =>
    rw [Reaction.run, hdrive]
    exact ih

theorem Hub.CallsMake.callAll_eq {respond : Response M L} {n : Notification} {subscriptions : List (Subscription L)}
    (hcalls : CallsMake respond publish P n subscriptions h acts h') :
    callAll respond publish n subscriptions h = some h' := by
  induction hcalls with
  | nil h => rfl
  | @cons s rest h k h' xs ys hfirst _ ih =>
    have hreact : react respond publish n s.listener (h.note (.called s.id n)) = some k := by
      generalize s.listener = listener at hfirst
      cases hfirst with
      | inbox mailbox => rfl
      | canceller flag => rfl
      | custom hprogram => exact hprogram.run_eq @hP
    rw [callAll, hreact]
    exact ih

end

namespace Hub

/-- A delivery makes calls, and whatever makes the calls of a delivery is one. -/
theorem publishWithin_iff_makes {respond : Response M L} {depth : Nat} {n : Notification} {h h' : Hub M L} :
    publishWithin respond depth n h = some h' ↔ ∃ acts, PublishMakes respond depth n h acts h' := by
  induction depth generalizing n h h' with
  | zero => exact ⟨nofun, nofun⟩
  | succ depth ih =>
    constructor
    · intro hpub
      obtain ⟨k, hcall, hclose⟩ := Option.bind_eq_some_iff.1 hpub
      obtain ⟨inner, hinner⟩ := exists_callsMake ih.1 hcall
      exact ⟨_, inner, k, hinner, rfl, (Option.some.inj hclose).symm⟩
    · rintro ⟨_, inner, k, hinner, rfl, rfl⟩
      rw [publishWithin, hinner.callAll_eq fun hn => ih.2 ⟨_, hn⟩]
      rfl

/-- The first call of a delivery is that of the notification. -/
theorem PublishMakes.exists_cons {respond : Response M L} {depth : Nat} {n : Notification} {h h' : Hub M L}
    {acts : List (Act L)} (hmakes : PublishMakes respond depth n h acts h') : ∃ calls, acts = .record n :: calls := by
  cases depth with
  | zero => exact hmakes.elim
  | succ depth =>
    obtain ⟨inner, k, -, rfl, -⟩ := hmakes
    exact ⟨inner, rfl⟩

theorem exists_makes_serve {respond : Response M L} {depth fuel : Nat} {h k : Hub M L} {r : Request M L}
    (hserve : h.serve respond depth fuel r = some k) : ∃ acts, r.Makes respond depth h acts k := by
  cases r with
  | publish n => exact publishWithin_iff_makes.1 hserve
  | operate name op =>
    obtain ⟨⟨u, h'⟩, hdrive, hk⟩ := Option.bind_eq_some_iff.1 hserve
    cases hk
    exact exists_driveMakes (callLaw_makes publishWithin_iff_makes.1 _).perform hdrive
  | subscribe _ _ | unsubscribe _ | clearLog | connect _ | release _ | remember _ | newFlag | cancel _ | newMailbox
  | push _ _ | pop _ | hold _ | seat _ _ => exact ⟨_, rfl⟩

/-- A run comes to the moments that calls lead to, and to no others. -/
theorem moment_iff_after {respond : Response M L} {capacity : Nat} {h : Hub M L} :
    h.Moment respond capacity ↔ ∃ acts, h.MomentAfter respond capacity acts := by
  constructor
  · intro hh
    induction hh with
    | start memory => exact ⟨_, .start memory⟩
    | serve depth fuel r _ hserve ih =>
      obtain ⟨acts, hacts⟩ := ih
      obtain ⟨xs, hxs⟩ := exists_makes_serve hserve
      exact ⟨_, hacts.serve depth fuel r hserve hxs⟩
    | aside _ hbus hjournal ih => exact ih.imp fun _ hacts => hacts.aside hbus hjournal
    | call depth _ hsubscribed hdone ih =>
      obtain ⟨acts, hacts⟩ := ih
      obtain ⟨xs, hxs⟩ := exists_callsMake publishWithin_iff_makes.1 hdone
      exact ⟨_, hacts.call depth hsubscribed hxs⟩
  · rintro ⟨acts, hacts⟩
    induction hacts with
    | start memory => exact .start memory
    | serve depth fuel r _ hserve _ ih => exact ih.serve depth fuel r hserve
    | aside _ hbus hjournal ih => exact ih.aside hbus hjournal
    | call depth _ hsubscribed hdone ih =>
      exact ih.call depth hsubscribed (hdone.callAll_eq fun hn => publishWithin_iff_makes.2 ⟨_, hn⟩)

/-! ### What calls make of a bus -/

/-- Calls lead from the bus of a hub to that of another, and what the journal tells of the bus is what it tells of the
calls. -/
structure Performs (h : Hub M L) (acts : List (Act L)) (h' : Hub M L) : Prop where
  bus : h'.bus = h.bus.after acts
  journal : ∃ es : List Entry, h'.journal = es.reverse ++ h.journal ∧
    es.filter (fun e => !e.isAside) = acts.filterMap Act.entry?

namespace Performs

variable {h k h' : Hub M L} {xs ys acts : List (Act L)}

theorem of_aside (haside : h.Aside h') : h.Performs [] h' := by
  obtain ⟨hbus, es, hjournal, hes⟩ := haside
  refine ⟨hbus, es, hjournal, List.filter_eq_nil_iff.2 fun e he => ?_⟩
  rw [hes e he]
  exact Bool.false_ne_true

theorem trans (hx : h.Performs xs k) (hy : k.Performs ys h') : h.Performs (xs ++ ys) h' where
  bus := by rw [hy.bus, hx.bus, Bus.after_append]
  journal := by
    obtain ⟨es, hej, hes⟩ := hx.journal
    obtain ⟨fs, hfj, hfs⟩ := hy.journal
    refine ⟨es ++ fs, ?_, ?_⟩
    · rw [hfj, hej, List.reverse_append, List.append_assoc]
    · rw [List.filter_append, List.filterMap_append, hes, hfs]

theorem record (h : Hub M L) (n : Notification) : h.Performs [.record n] (h.record n) := ⟨rfl, [.opened n], rfl, rfl⟩

theorem clearLog (h : Hub M L) : h.Performs [.clearLog] h.clearLog := ⟨rfl, [.cleared], rfl, rfl⟩

theorem subscribe (h : Hub M L) (name : String) (listener : Listener L) :
    h.Performs [.subscribe name listener] (h.subscribe name listener).2 :=
  ⟨rfl, [], rfl, rfl⟩

theorem unsubscribe (h : Hub M L) (id : SubscriptionId) : h.Performs [.unsubscribe id] (h.unsubscribe id).2 :=
  ⟨rfl, [], rfl, rfl⟩

theorem connect (h : Hub M L) (flag : FlagId) :
    h.Performs [.subscribe Notification.actionName (.inbox h.nextMailbox),
      .subscribe Notification.cancelName (.canceller flag)] (h.connect flag).2 :=
  ⟨rfl, [], rfl, rfl⟩

theorem release (h : Hub M L) (id : MailboxId) : h.Performs (h.releaseActs id) (h.release id) := by
  unfold Hub.release releaseActs
  cases h.mailboxes[id]? with
  | none => exact .of_aside (.refl h)
  | some b =>
    by_cases hlast : b.holders ≤ 1
    · simp only [hlast, if_true]
      unfold dropMailbox
      cases b.connection with
      | none => exact .of_aside (.untold rfl rfl)
      | some c => exact ⟨rfl, [], rfl, rfl⟩
    · simp only [hlast, if_false]
      exact .of_aside (.untold rfl rfl)

end Performs

end Hub

section

variable {publish : Publisher M L} {P : Calling M L} {h h' : Hub M L} {acts : List (Act L)}
  (hP : ∀ {n : Notification} {h h' : Hub M L} {acts : List (Act L)}, P n h acts h' → h.Performs acts h')
include hP

private theorem Hub.MoveMakes.performs {flag : FlagId} (hmoves : h.MoveMakes P flag acts h') : h.Performs acts h' := by
  induction hmoves with
  | refl h => exact .of_aside (.refl h)
  | trans _ _ ihx ihy => exact ihx.trans ihy
  | publish hn => exact hP hn
  | lower h => exact .of_aside (.untold rfl rfl)
  | raise h => exact .of_aside (.raise h flag)
  | warn h warnings => exact .of_aside (.warn h warnings)
  | pop h mailbox => exact .of_aside (.pop h mailbox)

private theorem Hub.DriveMakes.performs {name : String} (hmakes : h.DriveMakes P name acts h') :
    h.Performs acts h' := by
  cases hmakes with
  | absent _ => exact .of_aside (.refl h)
  | busy _ => exact .of_aside (.refl h)
  | @idle k m _ hseat hmoves m' =>
    have hcall : (h.occupy name m).Performs acts k := hmoves.performs @hP
    exact ⟨hcall.bus, hcall.journal⟩

private theorem Reaction.Makes.performs {r : Reaction M L} (hr : r.Makes publish P h acts h') : h.Performs acts h' := by
  induction hr with
  | done h => exact .of_aside (.refl h)
  | read _ ih | seek _ ih | check _ ih => exact ih
  | remember _ ih => exact ⟨ih.bus, ih.journal⟩
  | @cancel flag _ h _ _ _ ih => exact (Hub.Performs.of_aside (.raise h flag)).trans ih
  | publish hn _ ih => exact (hP hn).trans ih
  | @subscribe name code _ h _ _ _ ih => exact (Hub.Performs.subscribe h name (.custom code)).trans ih
  | @unsubscribe id _ h _ _ _ ih => exact (Hub.Performs.unsubscribe h id).trans ih
  | @push mailbox q _ h _ _ _ ih => exact (Hub.Performs.of_aside (.push h mailbox q)).trans ih
  | @clearLog _ h _ _ _ ih => exact (Hub.Performs.clearLog h).trans ih
  | @release mailbox _ h _ _ _ ih => exact (Hub.Performs.release h mailbox).trans ih
  | act _ hmakes _ ih => exact (hmakes.performs @hP).trans ih

private theorem Listener.Makes.performs {respond : Response M L} {n : Notification} {listener : Listener L}
    (hlistener : listener.Makes respond publish P n h acts h') : h.Performs acts h' := by
  cases hlistener with
  | inbox mailbox => exact .of_aside (.receive h mailbox n)
  | canceller flag => exact .of_aside (.raise h flag)
  | custom hprogram => exact hprogram.performs @hP

private theorem Hub.CallsMake.performs {respond : Response M L} {n : Notification}
    {subscriptions : List (Subscription L)} (hcalls : CallsMake respond publish P n subscriptions h acts h') :
    h.Performs acts h' := by
  induction hcalls with
  | nil h => exact .of_aside (.refl h)
  | @cons s _ h k _ _ _ hfirst _ ih =>
    have hcalled : h.Performs [] (h.note (.called s.id n)) := .of_aside (.note h rfl)
    have hreturned : k.Performs [] (k.note (.returned s.id)) := .of_aside (.note k rfl)
    exact (hcalled.trans (hfirst.performs @hP)).trans (hreturned.trans ih)

end

namespace Hub

/-- A delivery comes of its calls. -/
theorem PublishMakes.performs {respond : Response M L} {depth : Nat} {n : Notification} {h h' : Hub M L}
    {acts : List (Act L)} (hmakes : PublishMakes respond depth n h acts h') : h.Performs acts h' := by
  induction depth generalizing n h acts h' with
  | zero => exact hmakes.elim
  | succ depth ih =>
    obtain ⟨inner, k, hinner, rfl, rfl⟩ := hmakes
    have hclosed : k.Performs [] (k.note (.closed n)) := .of_aside (.note k rfl)
    have hall := (Performs.record h n).trans ((hinner.performs ih).trans hclosed)
    rwa [List.append_nil] at hall

private theorem performs_serve {respond : Response M L} {depth fuel : Nat} {h k : Hub M L} {r : Request M L}
    {acts : List (Act L)} (hserve : h.serve respond depth fuel r = some k) (hmakes : r.Makes respond depth h acts k) :
    h.Performs acts k := by
  cases r with
  | publish n => exact PublishMakes.performs hmakes
  | operate name op => exact DriveMakes.performs PublishMakes.performs hmakes
  | subscribe name code => cases hserve; cases hmakes; exact .subscribe h name (.custom code)
  | unsubscribe id => cases hserve; cases hmakes; exact .unsubscribe h id
  | clearLog => cases hserve; cases hmakes; exact .clearLog h
  | connect flag => cases hserve; cases hmakes; exact .connect h flag
  | release mailbox => cases hserve; cases hmakes; exact .release h mailbox
  | cancel flag => cases hserve; cases hmakes; exact .of_aside (.raise h flag)
  | push mailbox q => cases hserve; cases hmakes; exact .of_aside (.push h mailbox q)
  | pop mailbox => cases hserve; cases hmakes; exact .of_aside (.pop h mailbox)
  | hold mailbox => cases hserve; cases hmakes; exact .of_aside (.updateMailbox h mailbox _)
  | remember _ | newFlag | newMailbox | seat _ _ => cases hserve; cases hmakes; exact .of_aside (.untold rfl rfl)

/-- Every moment comes of the calls that have been made by then. -/
theorem MomentAfter.performs {respond : Response M L} {capacity : Nat} {h : Hub M L} {acts : List (Act L)}
    (hh : h.MomentAfter respond capacity acts) : ∃ memory, (empty capacity memory).Performs acts h := by
  induction hh with
  | start memory => exact ⟨memory, .of_aside (.refl _)⟩
  | serve _ _ _ _ hserve hmakes ih => exact ih.imp fun _ hbefore => hbefore.trans (performs_serve hserve hmakes)
  | @aside h k _ warnings _ hbus hjournal ih =>
    have haside : h.Performs [] k := .of_aside ⟨hbus, warnings.map .warned, hjournal, by simp [Entry.isAside]⟩
    refine ih.imp fun _ hbefore => ?_
    simpa using hbefore.trans haside
  | @call h k _ _ _ n _ _ s _ _ hdone ih =>
    have hcalled : k.Performs [] (k.note (.called s.id n)) := .of_aside (.note k rfl)
    have hcalls := (Performs.record h n).trans ((hdone.performs PublishMakes.performs).trans hcalled)
    rw [List.append_nil] at hcalls
    exact ih.imp fun _ hbefore => hbefore.trans hcalls

end Hub

end VetoMachine
