import VetoMachine.Proofs.Delivery

/-!
# Requests to a hub

What can be asked of a hub from outside, while no listener runs: publishing and subscribing, making, filling, emptying
and dropping mailboxes, and having machines do something.  A run is a list of requests (`Hub.serveAll`).  A relation
that deliveries and the single steps of requests obey is obeyed by runs (`RequestLaw.serveAll`).
-/

namespace VetoMachine

variable {M L : Type}

/-- Something that is asked of a hub from outside. -/
inductive Request (M L : Type) where
  | publish (n : Notification)
  | subscribe (name : String) (code : L)
  | unsubscribe (id : SubscriptionId)
  | clearLog
  | remember (memory : M)
  | newFlag
  | cancel (flag : FlagId)
  | newMailbox
  | connect (flag : FlagId)
  | push (mailbox : MailboxId) (q : QueuedAction)
  | pop (mailbox : MailboxId)
  | hold (mailbox : MailboxId)
  | release (mailbox : MailboxId)
  | seat (name : String) (m : Machine)
  /-- Has a machine do something, unless it is in use. -/
  | operate (name : String) (op : Operation)

/-- Like a listener, who asks unsubscribes only what is `free` and leaves the memory `tidy`. -/
def Request.Respects (free : SubscriptionId → Prop) (tidy : M → Prop) : Request M L → Prop
  | .unsubscribe id => free id
  | .remember memory => tidy memory
  | _ => True

namespace Hub

def serve (respond : Response M L) (depth fuel : Nat) (h : Hub M L) : Request M L → Option (Hub M L)
  | .publish n => publishWithin respond depth n h
  | .subscribe name code => some (h.subscribe name (.custom code)).2
  | .unsubscribe id => some (h.unsubscribe id).2
  | .clearLog => some h.clearLog
  | .remember memory => some { h with memory }
  | .newFlag => some h.newFlag.2
  | .cancel flag => some (h.raise flag)
  | .newMailbox => some h.newMailbox.2
  | .connect flag => some (h.connect flag).2
  | .push mailbox q => some (h.push mailbox q)
  | .pop mailbox => some (h.pop mailbox).2
  | .hold mailbox => some (h.hold mailbox)
  | .release mailbox => some (h.release mailbox)
  | .seat name m => some (h.seat name m)
  | .operate name op => do
    let (_, h) ← h.drive name fun m h => m.perform (publishWithin respond depth) fuel h op
    return h

/-- Serves requests one after the other. -/
def serveAll (respond : Response M L) (depth fuel : Nat) : List (Request M L) → Hub M L → Option (Hub M L)
  | [], h => some h
  | r :: rest, h => do
    let h ← h.serve respond depth fuel r
    serveAll respond depth fuel rest h

end Hub

/-- A relation that all runs obey which respect `free` and `tidy`, once deliveries and single steps do. -/
structure RequestLaw (respond : Response M L) (free : SubscriptionId → Prop) (tidy : M → Prop)
    (P : Hub M L → Hub M L → Prop) : Prop where
  refl : ∀ h, P h h
  trans : ∀ {h₁ h₂ h₃}, P h₁ h₂ → P h₂ h₃ → P h₁ h₃
  publish : ∀ depth, Publisher.Obeys (Hub.publishWithin respond depth) P
  subscribe : ∀ h name code, P h (h.subscribe name (.custom code)).2
  unsubscribe : ∀ h id, free id → P h (h.unsubscribe id).2
  clearLog : ∀ h, P h h.clearLog
  remember : ∀ h memory, tidy memory → P h { h with memory }
  newFlag : ∀ h, P h h.newFlag.2
  raise : ∀ h flag, P h (h.raise flag)
  lower : ∀ h flag, P h (h.lower flag)
  warn : ∀ h warnings, P h (h.warn warnings)
  newMailbox : ∀ h, P h h.newMailbox.2
  connect : ∀ h flag, P h (h.connect flag).2
  push : ∀ h mailbox q, P h (h.push mailbox q)
  pop : ∀ h mailbox, P h (h.pop mailbox).2
  hold : ∀ h mailbox, P h (h.hold mailbox)
  release : ∀ h mailbox, P h (h.release mailbox)
  machines : ∀ h machines, P h { h with machines }

namespace RequestLaw

variable {respond : Response M L} {free : SubscriptionId → Prop} {tidy : M → Prop} {P : Hub M L → Hub M L → Prop}
  {depth fuel : Nat} {h h' : Hub M L}

private theorem operate (hP : RequestLaw respond free tidy P) {name : String} {op : Operation} {u : Usage Answer}
    (hcall : h.drive name (fun m h => m.perform (Hub.publishWithin respond depth) fuel h op) = some (u, h')) :
    P h h' := by
  obtain ⟨-, -, rfl⟩ | ⟨_, -, -, rfl⟩ | ⟨m, a, m', k, -, hperform, -, rfl⟩ := Hub.drive_cases hcall
  · exact hP.refl h'
  · exact hP.refl h'
  · have hlaw : CallLaw (Hub.publishWithin respond depth) m.flag P :=
      { refl := hP.refl
        trans := hP.trans
        publish := hP.publish depth
        lower := fun h => hP.lower h m.flag
        raise := fun h => hP.raise h m.flag
        warn := hP.warn
        pop := hP.pop }
    have hout : P h (h.occupy name m) := hP.machines h _
    have hback : P k (k.seat name m') := hP.machines k _
    exact hP.trans hout (hP.trans (hlaw.perform hperform) hback)

theorem serve (hP : RequestLaw respond free tidy P) {r : Request M L} (hr : r.Respects free tidy)
    (hserve : h.serve respond depth fuel r = some h') : P h h' := by
  cases r with
  | publish n => exact hP.publish depth hserve
  | operate name op =>
    obtain ⟨⟨u, k⟩, hdrive, hk⟩ := Option.bind_eq_some_iff.1 hserve
    cases hk
    exact hP.operate hdrive
  | subscribe name code => cases hserve; exact hP.subscribe h name code
  | unsubscribe id => cases hserve; exact hP.unsubscribe h id hr
  | clearLog => cases hserve; exact hP.clearLog h
  | remember memory => cases hserve; exact hP.remember h memory hr
  | newFlag => cases hserve; exact hP.newFlag h
  | cancel flag => cases hserve; exact hP.raise h flag
  | newMailbox => cases hserve; exact hP.newMailbox h
  | connect flag => cases hserve; exact hP.connect h flag
  | push mailbox q => cases hserve; exact hP.push h mailbox q
  | pop mailbox => cases hserve; exact hP.pop h mailbox
  | hold mailbox => cases hserve; exact hP.hold h mailbox
  | release mailbox => cases hserve; exact hP.release h mailbox
  | seat name m => cases hserve; exact hP.machines h _

/-- A run obeys the law. -/
theorem serveAll (hP : RequestLaw respond free tidy P) {requests : List (Request M L)}
    (hrequests : ∀ r ∈ requests, r.Respects free tidy)
    (hserve : Hub.serveAll respond depth fuel requests h = some h') : P h h' := by
  induction requests generalizing h with
  | nil => cases hserve; exact hP.refl _
  | cons r rest ih =>
    obtain ⟨h₁, hfirst, hrest⟩ := Option.bind_eq_some_iff.1 hserve
    have hr : r.Respects free tidy := hrequests r (by simp)
    exact hP.trans (hP.serve hr hfirst) (ih (fun x hx => hrequests x (by simp [hx])) hrest)

end RequestLaw

end VetoMachine
