import VetoMachine.Proofs.Bystanders
import VetoMachine.Proofs.Connections

/-!
# Mailboxes that listeners leave alone

A listener spares a mailbox if it neither puts actions into it nor gives up a hold of it, and publishes no actions,
which the mailbox might queue (`Reaction.SparesMailbox`).  Where all listeners do, and no machine has an event with the
name of actions (`Hub.Sheltered`), the mailbox stays as it is, whatever is published and whichever machine handles an
action (`Machine.shelters_handleAction`).

Deliveries come to an end if listeners publish only notifications of lower and lower rank
(`Hub.exists_publishWithin`), and so do the calls of a machine (`Machine.exists_handleAction`).
-/

namespace VetoMachine

variable {M L : Type}

/-- What a listener may do that spares the mailbox. -/
def Reaction.SparesMailbox (mb : MailboxId) : Reaction M L → Prop
  | .done => True
  | .read next => ∀ memory, (next memory).SparesMailbox mb
  | .seek _ next => ∀ flag, (next flag).SparesMailbox mb
  | .check _ next => ∀ raised, (next raised).SparesMailbox mb
  | .subscribe _ _ next => ∀ id, (next id).SparesMailbox mb
  | .unsubscribe _ next => ∀ removed, (next removed).SparesMailbox mb
  | .act _ _ _ next => ∀ usage, (next usage).SparesMailbox mb
  | .publish n next => n.name ≠ Notification.actionName ∧ next.SparesMailbox mb
  | .push mailbox _ next | .release mailbox next => mailbox ≠ mb ∧ next.SparesMailbox mb
  | .remember _ next | .cancel _ next | .clearLog next => next.SparesMailbox mb

namespace Hub

/-- The mailbox is subscribed to nothing but actions, and no machine on the hub publishes any. -/
structure Sheltered (mb : MailboxId) (h : Hub M L) : Prop where
  inbox : ∀ {name s}, s ∈ h.bus.subscribed name → s.listener = .inbox mb → name = Notification.actionName
  machines : ∀ {name : String} {m : Machine}, h.machines[name]? = some (.idle m) → m.Unreserved

theorem Sheltered.pop {mb : MailboxId} {h : Hub M L} (hh : h.Sheltered mb) (mailbox : MailboxId) :
    (h.pop mailbox).2.Sheltered mb := by
  rw [pop_eq]
  exact ⟨hh.inbox, hh.machines⟩

/-- A sheltered mailbox stays sheltered, and as it is. -/
def Shelters (mb : MailboxId) (h h' : Hub M L) : Prop :=
  h.Sheltered mb → h'.Sheltered mb ∧ h'.mailboxes[mb]? = h.mailboxes[mb]?

namespace Shelters

variable {mb : MailboxId} {h h' h'' : Hub M L}

theorem trans (h12 : h.Shelters mb h') (h23 : h'.Shelters mb h'') : h.Shelters mb h'' := by
  intro hh
  obtain ⟨hh', hsame⟩ := h12 hh
  obtain ⟨hh'', hsame'⟩ := h23 hh'
  exact ⟨hh'', hsame'.trans hsame⟩

/-- A step that leaves the machines alone. -/
theorem of_inherits (hi : h.Inherits h') (hmachines : h'.machines = h.machines)
    (hmailbox : h'.mailboxes[mb]? = h.mailboxes[mb]?) : h.Shelters mb h' := by
  refine fun hh => ⟨⟨fun hs hl => hh.inbox (hi.inbox hs hl) hl, fun {name m} hm => ?_⟩, hmailbox⟩
  rw [hmachines] at hm
  exact hh.machines hm

/-- A step that concerns neither the bus nor mailboxes nor machines. -/
theorem of_eq (hb : h'.bus = h.bus) (hm : h'.mailboxes = h.mailboxes) (hs : h'.machines = h.machines)
    (hn : h'.nextMailbox = h.nextMailbox) : h.Shelters mb h' :=
  of_inherits (.of_eq hb hm hn) hs (by rw [hm])

theorem refl (h : Hub M L) : h.Shelters mb h := of_eq rfl rfl rfl rfl

theorem warn (h : Hub M L) (warnings : List Warning) : h.Shelters mb (h.warn warnings) := by
  rw [warn_eq]
  exact of_eq rfl rfl rfl rfl

theorem push (h : Hub M L) {mailbox : MailboxId} (hne : mailbox ≠ mb) (q : QueuedAction) :
    h.Shelters mb (h.push mailbox q) := by
  refine of_inherits (.push h mailbox q) (Quiet.push h mailbox q).machines ?_
  unfold Hub.push
  split
  · exact (getElem?_updateMailbox h mailbox _ mb).trans (if_neg hne)
  · rfl

theorem receive (h : Hub M L) {mailbox : MailboxId} (hne : mailbox ≠ mb) (n : Notification) :
    h.Shelters mb (h.receive mailbox n) := by
  refine of_inherits (.receive h mailbox n) (Quiet.receive h mailbox n).machines ?_
  unfold Hub.receive
  split
  · split
    · exact (getElem?_updateMailbox h mailbox _ mb).trans (if_neg hne)
    · rw [warn_eq]
  · rfl

theorem release (h : Hub M L) {mailbox : MailboxId} (hne : mailbox ≠ mb) : h.Shelters mb (h.release mailbox) := by
  refine of_inherits (.release h mailbox) (Quiet.release h mailbox).machines ?_
  have hcmp : compare mailbox mb ≠ .eq := fun hc => hne (Std.LawfulEqOrd.eq_of_compare hc)
  unfold Hub.release dropMailbox
  cases h.mailboxes[mailbox]? with
  | none => rfl
  | some b =>
    by_cases hlast : b.holders ≤ 1
    · simp only [hlast, if_true]
      have herased : (h.mailboxes.erase mailbox)[mb]? = h.mailboxes[mb]? := by
        rw [Std.ExtTreeMap.getElem?_erase, if_neg hcmp]
      cases b.connection <;> exact herased
    · simp only [hlast, if_false]
      rw [Std.ExtTreeMap.getElem?_insert, if_neg hcmp]

/-- Of the machines on a hub only the one that is driven changes. -/
theorem drive {name : String} {m m' : Machine} (hseat : h.machines[name]? = some (.idle m))
    (hcall : m.Unreserved → (h.occupy name m).Shelters mb h') (hm' : m.Unreserved → m'.Unreserved) :
    h.Shelters mb (h'.seat name m') := by
  intro hh
  have hm : m.Unreserved := hh.machines hseat
  have hout : (h.occupy name m).Sheltered mb := by
    refine ⟨hh.inbox, fun {other k} hk => ?_⟩
    rw [occupy, Std.ExtTreeMap.getElem?_insert] at hk
    split at hk
    · cases hk
    · exact hh.machines hk
  obtain ⟨hh', hsame⟩ := hcall hm hout
  refine ⟨⟨hh'.inbox, fun {other k} hk => ?_⟩, hsame⟩
  rw [seat, Std.ExtTreeMap.getElem?_insert] at hk
  split at hk
  · cases hk
    exact hm' hm
  · exact hh'.machines hk

end Shelters

end Hub

/-! ### What such listeners and machines do -/

/-- A passage makes no difference between publishers that agree on what it publishes. -/
theorem Passage.run_congr {publish publish' : Publisher M L} {p : Passage} {payload : Json}
    (hexit : ∀ n ∈ p.exitNote payload, publish n = publish' n)
    (henter : ∀ n ∈ p.enterNote payload, publish n = publish' n)
    (hchanged : ∀ n ∈ p.changedNote payload, publish n = publish' n)
    (hchange : publish p.changeNote = publish' p.changeNote) (flag : FlagId) (h : Hub M L) :
    p.run publish flag payload h = p.run publish' flag payload h := by
  have hany : ∀ {note : Option Notification}, (∀ n ∈ note, publish n = publish' n) →
      ∀ h : Hub M L, h.publishIfAny publish note = h.publishIfAny publish' note := by
    intro note hnote h
    cases note with
    | none => rfl
    | some n => exact congrFun (hnote n rfl) h
  simp only [Passage.run, hany hexit, hany henter, hany hchanged, hchange]

namespace Machine

variable {m m' : Machine} {h h' : Hub M L} {o : Outcome} {action : String} {payload : Json}

theorem Unreserved.handleAction {publish : Publisher M L} (hm : m.Unreserved)
    (hcall : m.handleAction publish action payload h = some (o, m', h')) : m'.Unreserved := by
  obtain ⟨-, -, rfl, -⟩ | ⟨target, next, -, -, hcall⟩ := handleAction_cases hcall
  · exact hm
  · obtain ⟨-, -, rfl, -⟩ | ⟨next, -, -, rfl⟩ := transition_cases hcall
    · exact hm
    · split
      · exact hm.commit next.name
      · exact hm

/-- A machine without such events publishes no actions. -/
theorem Unreserved.handleAction_congr {publish publish' : Publisher M L} (hm : m.Unreserved)
    (hpub : ∀ n, n.name ≠ Notification.actionName → publish n = publish' n) (action : String) (payload : Json)
    (h : Hub M L) : m.handleAction publish action payload h = m.handleAction publish' action payload h := by
  have hevent : ∀ {n : Notification}, ¬ IsReserved n.name → publish n = publish' n :=
    fun hn => hpub _ fun haction => hn (.inl haction)
  have htransition : ∀ target, m.transition publish target payload h = m.transition publish' target payload h := by
    intro target
    unfold transition passage?
    cases hnext : m.state? target with
    | none => rfl
    | some next =>
      obtain ⟨hexit, henter, hchanged⟩ := hm.passageTo hnext payload
      have hrun := Passage.run_congr (fun n hn => hevent (hexit n hn)) (fun n hn => hevent (henter n hn))
        (fun n hn => hevent (hchanged n hn)) (hevent not_isReserved_changedName) m.flag h
      simp only [Option.map_some, hrun]
  unfold Machine.handleAction
  simp only [htransition]

/-- A machine without such events shelters a mailbox as whoever is called by it does. -/
theorem shelters_handleAction {publish : Publisher M L} {mb : MailboxId}
    (hpub : ∀ {n : Notification} {h h' : Hub M L}, n.name ≠ Notification.actionName → publish n h = some h' →
      h.Shelters mb h')
    (hm : m.Unreserved) (hcall : m.handleAction publish action payload h = some (o, m', h')) : h.Shelters mb h' := by
  -- as far as this machine is concerned actions might as well not be delivered
  let publish' : Publisher M L := fun n h => if n.name = Notification.actionName then none else publish n h
  have hsame : m.handleAction publish action payload h = m.handleAction publish' action payload h := by
    refine hm.handleAction_congr (fun n hn => ?_) action payload h
    funext k
    exact (if_neg hn).symm
  have hlaw : MoveLaw publish' m.flag (Hub.Shelters mb) :=
    { refl := .refl
      trans := .trans
      publish := by
        intro n k k' hn
        simp only [publish'] at hn
        split at hn
        · cases hn
        · exact hpub ‹_› hn
      lower := fun _ => .of_eq rfl rfl rfl rfl }
  rw [hsame] at hcall
  exact hlaw.handleAction .warn hcall

end Machine

namespace Hub

variable {mb : MailboxId} {h h' : Hub M L}

section

variable {publish : Publisher M L}
  (hpub : ∀ {n : Notification} {h h' : Hub M L}, n.name ≠ Notification.actionName → publish n h = some h' →
    h.Shelters mb h')
include hpub

private theorem shelters_run {r : Reaction M L} (hr : r.SparesMailbox mb) (hrun : r.run publish h = some h') :
    h.Shelters mb h' := by
  induction r generalizing h with
  | done => cases hrun; exact .refl _
  | read next ih => exact ih _ (hr _) hrun
  | remember memory next ih =>
    have hnoted : h.Shelters mb { h with memory } := .of_eq rfl rfl rfl rfl
    exact hnoted.trans (ih hr hrun)
  | seek machine next ih => exact ih _ (hr _) hrun
  | cancel flag next ih =>
    have hraised : h.Shelters mb (h.raise flag) := .of_eq rfl rfl rfl rfl
    exact hraised.trans (ih hr hrun)
  | check flag next ih => exact ih _ (hr _) hrun
  | publish n next ih =>
    obtain ⟨k, hn, hrun⟩ := Option.bind_eq_some_iff.1 hrun
    exact (hpub hr.1 hn).trans (ih hr.2 hrun)
  | subscribe name code next ih =>
    exact (Shelters.of_inherits (.subscribe h name code) rfl rfl).trans (ih _ (hr _) hrun)
  | unsubscribe id next ih => exact (Shelters.of_inherits (.unsubscribe h id) rfl rfl).trans (ih _ (hr _) hrun)
  | push mailbox q next ih => exact (Shelters.push h hr.1 q).trans (ih hr.2 hrun)
  | clearLog next ih => exact (Shelters.of_inherits (.clearLog h) rfl rfl).trans (ih hr hrun)
  | release mailbox next ih => exact (Shelters.release h hr.1).trans (ih hr.2 hrun)
  | act machine action payload next ih =>
    obtain ⟨⟨u, k⟩, hdrive, hrun⟩ := Option.bind_eq_some_iff.1 hrun
    refine Shelters.trans ?_ (ih _ (hr _) hrun)
    obtain ⟨-, -, rfl⟩ | ⟨_, -, -, rfl⟩ | ⟨m, o, m', k', hseat, hcall, -, rfl⟩ := drive_cases hdrive
    · exact .refl k
    · exact .refl k
    · exact .drive hseat (fun hm => Machine.shelters_handleAction hpub hm hcall) fun hm => hm.handleAction hcall

private theorem shelters_react {respond : Response M L} {n : Notification}
    (hspares : ∀ code, (respond code n).SparesMailbox mb) {listener : Listener L} (hother : listener ≠ .inbox mb)
    (hreact : react respond publish n listener h = some h') : h.Shelters mb h' := by
  cases listener with
  | inbox mailbox =>
    cases hreact
    exact .receive h (fun hsame => hother (by rw [hsame])) n
  | canceller flag => cases hreact; exact .of_eq rfl rfl rfl rfl
  | custom code => exact shelters_run hpub (hspares code) hreact

private theorem shelters_callAll {respond : Response M L} {n : Notification}
    (hspares : ∀ code, (respond code n).SparesMailbox mb) {subscriptions : List (Subscription L)}
    (hothers : ∀ s ∈ subscriptions, s.listener ≠ .inbox mb)
    (hcall : callAll respond publish n subscriptions h = some h') : h.Shelters mb h' := by
  induction subscriptions generalizing h with
  | nil => cases hcall; exact .refl _
  | cons s rest ih =>
    obtain ⟨k, hreact, hrest⟩ := Option.bind_eq_some_iff.1 hcall
    have hcalled : h.Shelters mb (h.note (.called s.id n)) := .of_eq rfl rfl rfl rfl
    have hreturned : k.Shelters mb (k.note (.returned s.id)) := .of_eq rfl rfl rfl rfl
    have hreacted : (h.note (.called s.id n)).Shelters mb k := shelters_react hpub hspares (hothers s (by simp)) hreact
    exact hcalled.trans (hreacted.trans (hreturned.trans (ih (fun t ht => hothers t (by simp [ht])) hrest)))

end

/-- What is delivered leaves a mailbox as it is that all listeners spare, unless it is an action. -/
theorem shelters_publishWithin {respond : Response M L} (hspares : ∀ code n, (respond code n).SparesMailbox mb)
    {depth : Nat} {n : Notification} (hn : n.name ≠ Notification.actionName)
    (hpub : publishWithin respond depth n h = some h') : h.Shelters mb h' := by
  induction depth generalizing n h h' with
  | zero => cases hpub
  | succ depth ih =>
    obtain ⟨k, hcall, hclose⟩ := Option.bind_eq_some_iff.1 hpub
    cases hclose
    intro hh
    have hothers : ∀ s ∈ h.bus.subscribed n.name, s.listener ≠ .inbox mb := fun s hs hl => hn (hh.inbox hs hl)
    have hopened : h.Shelters mb (h.record n) := .of_inherits (.record h n) rfl rfl
    have hclosed : k.Shelters mb (k.note (.closed n)) := .of_eq rfl rfl rfl rfl
    have hcalls : (h.record n).Shelters mb k := shelters_callAll ih (fun code => hspares code n) hothers hcall
    exact hopened.trans (hcalls.trans hclosed) hh

end Hub

/-! ### Deliveries that come to an end -/

/-- A listener that publishes only what is `lower`, and has no machine do anything. -/
def Reaction.Descends (lower : String → Prop) : Reaction M L → Prop
  | .done => True
  | .read next => ∀ memory, (next memory).Descends lower
  | .seek _ next => ∀ flag, (next flag).Descends lower
  | .check _ next => ∀ raised, (next raised).Descends lower
  | .subscribe _ _ next => ∀ id, (next id).Descends lower
  | .unsubscribe _ next => ∀ removed, (next removed).Descends lower
  | .act _ _ _ _ => False
  | .publish n next => lower n.name ∧ next.Descends lower
  | .remember _ next | .cancel _ next | .push _ _ next | .clearLog next | .release _ next => next.Descends lower

theorem Reaction.exists_run {publish : Publisher M L} {lower : String → Prop}
    (hpub : ∀ n h, lower n.name → ∃ h', publish n h = some h') {r : Reaction M L} (hr : r.Descends lower)
    (h : Hub M L) : ∃ h', r.run publish h = some h' := by
  induction r generalizing h with
  | done => exact ⟨h, rfl⟩
  | read next ih | seek machine next ih | check flag next ih | subscribe name code next ih | unsubscribe id next ih =>
    exact ih _ (hr _) _
  | remember memory next ih | cancel flag next ih | push mailbox q next ih | clearLog next ih
  | release mailbox next ih => exact ih hr _
  | publish n next ih =>
    obtain ⟨k, hn⟩ := hpub n h hr.1
    rw [Reaction.run, hn]
    exact ih hr.2 k
  | act machine action payload next ih => cases hr

/-- A delivery comes to an end if listeners publish only notifications of lower rank than the one they hear of. -/
theorem Hub.exists_publishWithin {respond : Response M L} {rank : String → Nat}
    (hdescends : ∀ code n, (respond code n).Descends fun name => rank name < rank n.name) {depth : Nat}
    {n : Notification} (hn : rank n.name < depth) (h : Hub M L) : ∃ h', publishWithin respond depth n h = some h' := by
  induction depth generalizing n h with
  | zero => cases hn
  | succ depth ih =>
    have hcalls : ∀ (subscriptions : List (Subscription L)) (h : Hub M L),
        ∃ h', callAll respond (publishWithin respond depth) n subscriptions h = some h' := by
      intro subscriptions
      induction subscriptions with
      | nil => exact fun h => ⟨h, rfl⟩
      | cons s rest ihs =>
        intro h
        obtain ⟨k, hreact⟩ : ∃ k, react respond (publishWithin respond depth) n s.listener
            (h.note (.called s.id n)) = some k := by
          cases s.listener with
          | inbox mailbox => exact ⟨_, rfl⟩
          | canceller flag => exact ⟨_, rfl⟩
          | custom code => exact Reaction.exists_run (fun n' h' hlower => ih (by omega) h') (hdescends code n) _
        rw [callAll, hreact]
        exact ihs _
    obtain ⟨k, hk⟩ := hcalls (h.bus.subscribed n.name) (h.record n)
    rw [publishWithin, hk]
    exact ⟨_, rfl⟩

/-- If whatever is published is delivered, every passage comes to an end. -/
theorem Passage.exists_run {publish : Publisher M L} (hpub : ∀ n h, ∃ h', publish n h = some h') (p : Passage)
    (flag : FlagId) (payload : Json) (h : Hub M L) : ∃ o h', p.run publish flag payload h = some (o, h') := by
  have hany : ∀ (note : Option Notification) (h : Hub M L), ∃ h', h.publishIfAny publish note = some h' := by
    intro note h
    cases note with
    | none => exact ⟨h, rfl⟩
    | some n => exact hpub n h
  obtain ⟨h₁, hexit⟩ := hany (p.exitNote payload) (h.lower flag)
  obtain ⟨h₂, henter⟩ := hany (p.enterNote payload) (h₁.take flag).2
  obtain ⟨h₃, hchanged⟩ := hany (p.changedNote payload) (h₂.take flag).2
  obtain ⟨h₄, hchange⟩ := hpub p.changeNote h₃
  rw [Passage.run, hexit]
  cases hvetoed : (h₁.take flag).1 with
  | true => simp [hvetoed]
  | false =>
    cases hvetoed' : (h₂.take flag).1 with
    | true => simp [hvetoed, hvetoed', henter]
    | false => simp [hvetoed, hvetoed', henter, hchanged, hchange]

theorem Machine.exists_handleAction {publish : Publisher M L} (hpub : ∀ n h, ∃ h', publish n h = some h') (m : Machine)
    (action : String) (payload : Json) (h : Hub M L) :
    ∃ o m' h', m.handleAction publish action payload h = some (o, m', h') := by
  have htransition : ∀ target, ∃ o m' h', m.transition publish target payload h = some (o, m', h') := by
    intro target
    unfold transition
    cases m.passage? target with
    | none => exact ⟨_, _, _, rfl⟩
    | some p =>
      obtain ⟨o, h', hrun⟩ := p.exists_run hpub m.flag payload h
      simp only [hrun]
      exact ⟨_, _, _, rfl⟩
  unfold handleAction
  cases m.boundTarget? action with
  | none => exact ⟨_, _, _, rfl⟩
  | some target =>
    simp only
    split
    · exact htransition target
    · exact ⟨_, _, _, rfl⟩

end VetoMachine
