import VetoMachine.Reaction

/-!
# Delivery

Publishing a notification logs it and calls the listeners subscribed to its name at that moment, one after the
other in the order of subscription.  A listener may publish in turn, and its notification is delivered completely
before it goes on; what listeners subscribe or unsubscribe counts from the next notification on.  Notifications
may be nested only so deep (`Hub.publishWithin`); one nested deeper comes to no end.
-/

namespace VetoMachine

/-- What the custom listeners of a hub do with a notification, by their code. -/
abbrev Response (M L : Type) := L → Notification → Reaction M L

namespace Hub

variable {M L : Type}

/-- What a listener does with a notification. -/
def react (respond : Response M L) (publish : Publisher M L) (n : Notification) (listener : Listener L)
    (h : Hub M L) : Option (Hub M L) :=
  match listener with
  | .inbox mailbox => some (h.receive mailbox n)
  | .canceller flag => some (h.raise flag)
  | .custom code => (respond code n).run publish h

/-- Calls listeners with a notification one after the other. -/
def callAll (respond : Response M L) (publish : Publisher M L) (n : Notification) :
    List (Subscription L) → Hub M L → Option (Hub M L)
  | [], h => some h
  | s :: rest, h => do
    let h ← react respond publish n s.listener (h.note (.called s.id n))
    callAll respond publish n rest (h.note (.returned s.id))

/-- Writes a notification into the log and the journal. -/
def record (h : Hub M L) (n : Notification) : Hub M L := { h with bus := h.bus.record n }.note (.opened n)

/-- Publishes a notification, with room for `depth` notifications inside one another. -/
def publishWithin (respond : Response M L) : Nat → Publisher M L
  | 0, _, _ => none
  | depth + 1, n, h => do
    let h ← callAll respond (publishWithin respond depth) n (h.bus.subscribed n.name) (h.record n)
    return h.note (.closed n)

/-- How deep notifications may be nested, and how many actions may be drained at once. -/
def maxDepth : Nat := 1000000

/-- Publishes a notification. -/
def publish (respond : Response M L) : Publisher M L := publishWithin respond maxDepth

end Hub

end VetoMachine
