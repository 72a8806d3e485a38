import VetoMachine.Proofs.Connections

/-!
# Moments of a run

What happens to a bus in a run comes down to four operations, of which the journal tells two.  A relation between hubs
that these obey (`Hub.BusLaw`) leads from the beginning of a run to each of its moments (`Hub.BusLaw.moment`).  The
moments of a run (`Hub.Moment`) are not only those between two requests: they include those at which listeners are under
way, however deep they nest, and also if a delivery comes to no end.
-/

namespace VetoMachine

variable {M L : Type}

/-- Whether an entry tells neither of a notification that is published nor of the log. -/
def Entry.isAside : Entry → Bool
  | .opened _ | .cleared => false
  | _ => true

namespace Hub

/-- A relation that all runs obey once it is obeyed by what they do to the bus. -/
structure BusLaw (P : Hub M L → Hub M L → Prop) : Prop where
  trans : ∀ {h₁ h₂ h₃}, P h₁ h₂ → P h₂ h₃ → P h₁ h₃
  /-- What leaves the bus alone may write whatever does not concern it. -/
  aside : ∀ {h h' : Hub M L} (es : List Entry), h'.bus = h.bus → h'.journal = es.reverse ++ h.journal →
    (∀ e ∈ es, e.isAside = true) → P h h'
  record : ∀ h n, P h (h.record n)
  clearLog : ∀ h, P h h.clearLog
  subscribe : ∀ h name listener, P h (h.subscribe name listener).2
  unsubscribe : ∀ h id, P h (h.unsubscribe id).2

/-- What happens at some moment of a run that begins on an empty hub. -/
inductive Moment (respond : Response M L) (capacity : Nat) : Hub M L → Prop where
  | start (memory : M) : Moment respond capacity (empty capacity memory)
  /-- Something has been done, be it by a listener that is under way. -/
  | serve {h k : Hub M L} (depth fuel : Nat) (r : Request M L) (hh : Moment respond capacity h)
      (hserve : h.serve respond depth fuel r = some k) : Moment respond capacity k
  /-- A machine on the move has gone a step that does not concern the bus. -/
  | aside {h k : Hub M L} {warnings : List Warning} (hh : Moment respond capacity h) (hbus : k.bus = h.bus)
      (hjournal : k.journal = (warnings.map .warned).reverse ++ h.journal) : Moment respond capacity k
  /-- A delivery has come to a listener, who is called now. -/
  | call {h k : Hub M L} (depth : Nat) {n : Notification} {done rest : List (Subscription L)} {s : Subscription L}
      (hh : Moment respond capacity h) (hsubscribed : h.bus.subscribed n.name = done ++ s :: rest)
      (hdone : callAll respond (publishWithin respond depth) n done (h.record n) = some k) :
      Moment respond capacity (k.note (.called s.id n))

/-- The bus stays as it is, and the journal gains only entries that do not concern it. -/
def Aside (h h' : Hub M L) : Prop :=
  h'.bus = h.bus ∧ ∃ es : List Entry, h'.journal = es.reverse ++ h.journal ∧ ∀ e ∈ es, e.isAside = true

namespace Aside

variable {h h' h'' : Hub M L}

theorem untold (hbus : h'.bus = h.bus) (hjournal : h'.journal = h.journal) : h.Aside h' := ⟨hbus, [], hjournal, nofun⟩

theorem refl (h : Hub M L) : h.Aside h := untold rfl rfl

theorem trans (h12 : h.Aside h') (h23 : h'.Aside h'') : h.Aside h'' := by
  obtain ⟨hbus, xs, hxj, hxs⟩ := h12
  obtain ⟨hbus', ys, hyj, hys⟩ := h23
  refine ⟨hbus'.trans hbus, xs ++ ys, ?_, List.forall_mem_append.2 ⟨hxs, hys⟩⟩
  rw [hyj, hxj, List.reverse_append, List.append_assoc]

theorem note (h : Hub M L) {e : Entry} (he : e.isAside = true) : h.Aside (h.note e) :=
  ⟨rfl, [e], rfl, by simpa using he⟩

theorem raise (h : Hub M L) (flag : FlagId) : h.Aside (h.raise flag) :=
  ⟨rfl, [.raised flag], rfl, by simp [Entry.isAside]⟩

theorem warn (h : Hub M L) (warnings : List Warning) : h.Aside (h.warn warnings) :=
  ⟨by rw [warn_eq], warnings.map .warned, journal_warn h warnings, by simp [Entry.isAside]⟩

theorem updateMailbox (h : Hub M L) (id : MailboxId) (f : Mailbox → Mailbox) : h.Aside (h.updateMailbox id f) :=
  untold (by rw [updateMailbox_eq]) (journal_updateMailbox h id f)

theorem push (h : Hub M L) (id : MailboxId) (q : QueuedAction) : h.Aside (h.push id q) := by
  unfold Hub.push
  split
  · exact (updateMailbox h id _).trans (note _ rfl)
  · exact refl h

theorem receive (h : Hub M L) (id : MailboxId) (n : Notification) : h.Aside (h.receive id n) := by
  unfold Hub.receive
  split
  · split
    · exact (updateMailbox h id _).trans (note _ rfl)
    · exact warn h _
  · exact refl h

theorem pop (h : Hub M L) (id : MailboxId) : h.Aside (h.pop id).2 := untold (by rw [pop_eq]) (journal_pop h id)

end Aside

namespace BusLaw

variable {P : Hub M L → Hub M L → Prop} {h h' : Hub M L}

private theorem of_aside (hP : BusLaw P) (haside : h.Aside h') : P h h' := by
  obtain ⟨hbus, es, hjournal, hes⟩ := haside
  exact hP.aside es hbus hjournal hes

private theorem untold (hP : BusLaw P) (hbus : h'.bus = h.bus) (hjournal : h'.journal = h.journal) : P h h' :=
  hP.of_aside (.untold hbus hjournal)

private theorem release (hP : BusLaw P) (h : Hub M L) (id : MailboxId) : P h (h.release id) := by
  unfold Hub.release dropMailbox
  split
  · split
    · split
      · rename_i c hc
        have herase : P h { h with mailboxes := h.mailboxes.erase id } := hP.untold rfl rfl
        exact hP.trans herase (hP.trans (hP.unsubscribe _ c.onAction) (hP.unsubscribe _ c.onCancel))
      · exact hP.untold rfl rfl
    · exact hP.untold rfl rfl
  · exact hP.of_aside (.refl h)

private theorem connect (hP : BusLaw P) (h : Hub M L) (flag : FlagId) : P h (h.connect flag).2 := by
  have haction := hP.subscribe h Notification.actionName (.inbox h.nextMailbox)
  have hcancel := hP.subscribe (h.subscribe Notification.actionName (.inbox h.nextMailbox)).2
    Notification.cancelName (.canceller flag)
  exact hP.trans haction (hP.trans hcancel (hP.untold rfl rfl))

/-- Every delivery obeys the law. -/
theorem deliveryLaw (hP : BusLaw P) : DeliveryLaw P where
  refl h := hP.of_aside (.refl h)
  trans := hP.trans
  called h _ _ := hP.of_aside (.note h rfl)
  returned h _ := hP.of_aside (.note h rfl)
  receive h mailbox n := hP.of_aside (.receive h mailbox n)
  raise h flag := hP.of_aside (.raise h flag)
  remember _ _ := hP.untold rfl rfl
  subscribe h name _ := hP.subscribe h name _
  unsubscribe := hP.unsubscribe
  push h mailbox q := hP.of_aside (.push h mailbox q)
  clearLog := hP.clearLog
  release := hP.release
  deliver {h _ n} hp := hP.trans (hP.record h n) (hP.trans hp (hP.of_aside (.note _ rfl)))
  act {publish} hpub {name action payload m m' h h' o} _ hcall := by
    have hlaw : MoveLaw publish m.flag P :=
      { refl := fun h => hP.of_aside (.refl h)
        trans := hP.trans
        publish := hpub
        lower := fun _ => hP.untold rfl rfl }
    have hout : P h (h.occupy name m) := hP.untold rfl rfl
    have hback : P h' (h'.seat name m') := hP.untold rfl rfl
    have hwarn : ∀ h warnings, P h (h.warn warnings) := fun h warnings => hP.of_aside (.warn h warnings)
    exact hP.trans hout (hP.trans (hlaw.handleAction hwarn hcall) hback)

/-- Every request obeys the law. -/
private theorem requestLaw (hP : BusLaw P) (respond : Response M L) :
    RequestLaw respond (fun _ => True) (fun _ => True) P where
  refl h := hP.of_aside (.refl h)
  trans := hP.trans
  publish depth := hP.deliveryLaw.publishWithin respond depth
  subscribe h name _ := hP.subscribe h name _
  unsubscribe h id _ := hP.unsubscribe h id
  clearLog := hP.clearLog
  remember _ _ _ := hP.untold rfl rfl
  newFlag _ := hP.untold rfl rfl
  raise h flag := hP.of_aside (.raise h flag)
  lower _ _ := hP.untold rfl rfl
  warn h warnings := hP.of_aside (.warn h warnings)
  newMailbox _ := hP.untold rfl rfl
  connect := hP.connect
  push h mailbox q := hP.of_aside (.push h mailbox q)
  pop h mailbox := hP.of_aside (.pop h mailbox)
  hold h mailbox := hP.of_aside (.updateMailbox h mailbox _)
  release := hP.release
  machines _ _ := hP.untold rfl rfl

theorem serve (hP : BusLaw P) {respond : Response M L} {depth fuel : Nat} {r : Request M L}
    (hserve : h.serve respond depth fuel r = some h') : P h h' := by
  have hr : r.Respects (fun _ => True) (fun _ => True) := by
    cases r <;> trivial
  exact (hP.requestLaw respond).serve hr hserve

/-- From the beginning of a run to any moment of it, the law is obeyed. -/
theorem moment (hP : BusLaw P) {respond : Response M L} {capacity : Nat} (hh : h.Moment respond capacity) :
    ∃ memory, P (empty capacity memory) h := by
  induction hh with
  | start memory => exact ⟨memory, hP.of_aside (.refl _)⟩
  | serve _ _ _ _ hserve ih => exact ih.imp fun _ hbefore => hP.trans hbefore (hP.serve hserve)
  | aside _ hbus hjournal ih =>
    have haside := hP.aside _ hbus hjournal (by simp [Entry.isAside])
    exact ih.imp fun _ hbefore => hP.trans hbefore haside
  | @call h k depth n _ _ s _ _ hdone ih =>
    have hcalls : P (h.record n) k := hP.deliveryLaw.callAll (hP.deliveryLaw.publishWithin respond depth) hdone
    have hcalled : P h (k.note (.called s.id n)) :=
      hP.trans (hP.record h n) (hP.trans hcalls (hP.of_aside (.note k rfl)))
    exact ih.imp fun _ hbefore => hP.trans hbefore hcalled

end BusLaw

namespace Moment

variable {respond : Response M L} {capacity : Nat} {h k : Hub M L}

private theorem act (hh : h.Moment respond capacity) {depth : Nat} {name action : String} {payload : Json}
    {u : Usage Outcome}
    (hdrive : h.drive name (fun m h => m.handleAction (publishWithin respond depth) action payload h) = some (u, k)) :
    k.Moment respond capacity := by
  refine .serve depth 0 (.operate name (.handleAction action payload)) hh ?_
  obtain ⟨hseat, -, rfl⟩ | ⟨_, hseat, -, rfl⟩ | ⟨m, o, m', k, hseat, haction, -, rfl⟩ := drive_cases hdrive
  · simp [Hub.serve, drive, hseat]
  · simp [Hub.serve, drive, hseat]
  · simp [Hub.serve, drive, hseat, Machine.perform, haction]

/-- Whatever a listener under way has done so far, there is a moment at which it has. -/
theorem run (hh : h.Moment respond capacity) (depth : Nat) {r : Reaction M L}
    (hrun : r.run (publishWithin respond depth) h = some k) : k.Moment respond capacity := by
  induction r generalizing h with
  | done => exact Option.some.inj hrun ▸ hh
  | read next ih => exact ih _ hh hrun
  | remember memory next ih => exact ih (hh.serve 0 0 (.remember memory) rfl) hrun
  | seek machine next ih => exact ih _ hh hrun
  | cancel flag next ih => exact ih (hh.serve 0 0 (.cancel flag) rfl) hrun
  | check flag next ih => exact ih _ hh hrun
  | publish n next ih =>
    obtain ⟨h₁, hn, hrun⟩ := Option.bind_eq_some_iff.1 hrun
    exact ih (hh.serve depth 0 (.publish n) hn) hrun
  | subscribe name code next ih =>
    exact ih _ (hh.serve 0 0 (.subscribe name code) rfl) hrun
  | unsubscribe id next ih => exact ih _ (hh.serve 0 0 (.unsubscribe id) rfl) hrun
  | push mailbox q next ih => exact ih (hh.serve 0 0 (.push mailbox q) rfl) hrun
  | clearLog next ih => exact ih (hh.serve 0 0 (.clearLog) rfl) hrun
  | release mailbox next ih => exact ih (hh.serve 0 0 (.release mailbox) rfl) hrun
  | act machine action payload next ih =>
    obtain ⟨⟨u, h₁⟩, hdrive, hrun⟩ := Option.bind_eq_some_iff.1 hrun
    exact ih _ (hh.act hdrive) hrun

end Moment

end Hub

end VetoMachine
