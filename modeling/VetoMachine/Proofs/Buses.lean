import Mathlib.Logic.Relation
import VetoMachine.Proofs.Delivery

/-!
# Subscriptions on a bus

How the operations of a bus change who is subscribed to a name (`Bus.subscribed_subscribe`,
`Bus.subscribed_unsubscribe`).  On a bus that can come about, the subscriptions of a name stand in the order of their
identifiers, none of which is used twice (`Bus.Reachable.ascending`), and whatever is subscribed later has a later
identifier (`Bus.Leads.subscribed`).  What listeners do on a hub leads from bus to bus (`Hub.BusLeads`).
-/

namespace VetoMachine

variable {M L : Type}

namespace Bus

variable {b b' : Bus L}

@[simp] theorem subscribed_record (b : Bus L) (n : Notification) (name : String) :
    (b.record n).subscribed name = b.subscribed name := by
  unfold record
  split <;> rfl

@[simp] theorem nextId_record (b : Bus L) (n : Notification) : (b.record n).nextId = b.nextId := by
  unfold record
  split <;> rfl

/-- A subscription goes behind all others of its name. -/
theorem subscribed_subscribe (b : Bus L) (name : String) (listener : Listener L) (other : String) :
    (b.subscribe name listener).2.subscribed other =
      if other = name then b.subscribed name ++ [⟨b.nextId, listener⟩] else b.subscribed other := by
  rw [subscribed, subscribe, Std.ExtTreeMap.getElem?_insert]
  by_cases hother : other = name
  · subst hother
    simp
  · have hne : compare name other ≠ .eq := fun hc => hother (Std.LawfulEqOrd.eq_of_compare hc).symm
    rw [if_neg hne, if_neg hother]
    rfl

/-- Unsubscribing takes a subscription away and leaves the others as they are. -/
theorem subscribed_unsubscribe (b : Bus L) (id : SubscriptionId) (name : String) :
    (b.unsubscribe id).2.subscribed name = (b.subscribed name).filter (·.id != id) := by
  rw [subscribed, unsubscribe, Std.ExtTreeMap.getElem?_filterMap', subscribed]
  cases b.table[name]? with
  | none => rfl
  | some subscriptions =>
    rw [Option.bind_some, without?, Option.getD_some]
    cases subscriptions.filter (·.id != id) <;> rfl

/-- A subscription is live as long as it is among those of some name. -/
theorem isLive_iff {id : SubscriptionId} : b.isLive id = true ↔ ∃ name, ∃ s ∈ b.subscribed name, s.id = id := by
  simp only [isLive, List.any_eq_true, Prod.exists, Std.ExtTreeMap.mem_toList_iff_getElem?_eq_some, beq_iff_eq]
  refine exists_congr fun name => ⟨?_, ?_⟩
  · rintro ⟨subscriptions, hname, hlive⟩
    rwa [subscribed, hname]
  · rintro ⟨s, hs, hid⟩
    cases hname : b.table[name]? with
    | none => simp [subscribed, hname] at hs
    | some subscriptions =>
      rw [subscribed, hname] at hs
      exact ⟨subscriptions, rfl, s, hs, hid⟩

/-! ### What a bus can become -/

/-- One operation leads from a bus to another. -/
inductive Step : Bus L → Bus L → Prop where
  | record (b : Bus L) (n : Notification) : Step b (b.record n)
  | clearLog (b : Bus L) : Step b b.clearLog
  | subscribe (b : Bus L) (name : String) (listener : Listener L) : Step b (b.subscribe name listener).2
  | unsubscribe (b : Bus L) (id : SubscriptionId) : Step b (b.unsubscribe id).2

/-- Operations lead from a bus to another. -/
def Leads : Bus L → Bus L → Prop := Relation.ReflTransGen Step

/-- A bus that operations can lead to. -/
def Reachable (b : Bus L) : Prop := ∃ capacity, (empty capacity).Leads b

theorem Reachable.leads (hb : b.Reachable) (h : b.Leads b') : b'.Reachable := by
  obtain ⟨capacity, hempty⟩ := hb
  exact ⟨capacity, hempty.trans h⟩

/-- The subscriptions of a name stand in the order of their identifiers, all of which have been issued. -/
structure Ascending (b : Bus L) : Prop where
  order : ∀ name, ((b.subscribed name).map (·.id)).Pairwise (· < ·)
  issued : ∀ {name s}, s ∈ b.subscribed name → s.id < b.nextId

private theorem Ascending.step (hb : b.Ascending) (h : b.Step b') : b'.Ascending := by
  cases h with
  | record n =>
    refine ⟨?_, ?_⟩
    · intro name
      rw [subscribed_record]
      exact hb.order name
    · intro name s hs
      rw [subscribed_record] at hs
      rw [nextId_record]
      exact hb.issued hs
  | clearLog => exact ⟨hb.order, hb.issued⟩
  | subscribe name listener =>
    have hnext : (b.subscribe name listener).2.nextId = b.nextId + 1 := rfl
    refine ⟨?_, ?_⟩
    · intro other
      rw [subscribed_subscribe]
      split
      · rw [List.map_append, List.pairwise_append]
        refine ⟨hb.order name, List.pairwise_singleton _ _, ?_⟩
        intro i hi j hj
        obtain ⟨s, hs, rfl⟩ := List.mem_map.1 hi
        rw [List.map_singleton, List.mem_singleton] at hj
        rw [hj]
        exact hb.issued hs
      · exact hb.order other
    · intro other s hs
      rw [subscribed_subscribe] at hs
      rw [hnext]
      split at hs
      · rcases List.mem_append.1 hs with hs | hs
        · exact Nat.lt_succ_of_lt (hb.issued hs)
        · rw [List.mem_singleton.1 hs]
          exact Nat.lt_succ_self _
      · exact Nat.lt_succ_of_lt (hb.issued hs)
  | unsubscribe id =>
    refine ⟨?_, ?_⟩
    · intro name
      rw [subscribed_unsubscribe]
      exact (hb.order name).sublist (List.filter_sublist.map _)
    · intro name s hs
      rw [subscribed_unsubscribe] at hs
      exact hb.issued (List.mem_filter.1 hs).1

theorem Reachable.ascending (hb : b.Reachable) : b.Ascending := by
  obtain ⟨capacity, h⟩ := hb
  induction h with
  | refl => exact ⟨by simp [subscribed, empty], by simp [subscribed, empty]⟩
  | tail _ hstep ih => exact ih.step hstep

/-- Whatever is subscribed was subscribed before or has a new identifier. -/
theorem Leads.subscribed (h : b.Leads b') : b.nextId ≤ b'.nextId ∧
    ∀ {name s}, s ∈ b'.subscribed name → s ∈ b.subscribed name ∨ b.nextId ≤ s.id := by
  induction h with
  | refl => exact ⟨Nat.le_refl _, .inl⟩
  | @tail k k' _ hstep ih =>
    obtain ⟨hle, hold⟩ := ih
    cases hstep with
    | record n =>
      rw [nextId_record]
      refine ⟨hle, ?_⟩
      intro name s hs
      rw [subscribed_record] at hs
      exact hold hs
    | clearLog => exact ⟨hle, hold⟩
    | subscribe added listener =>
      refine ⟨Nat.le_succ_of_le hle, ?_⟩
      intro name s hs
      rw [subscribed_subscribe] at hs
      split at hs
      · rename_i hname
        rcases List.mem_append.1 hs with hs | hs
        · rw [hname]
          exact hold hs
        · rw [List.mem_singleton.1 hs]
          exact .inr hle
      · exact hold hs
    | unsubscribe id =>
      refine ⟨hle, ?_⟩
      intro name s hs
      rw [subscribed_unsubscribe] at hs
      exact hold (List.mem_filter.1 hs).1

end Bus

/-! ### What listeners make of a bus -/

namespace Hub

/-- Operations lead from the bus of a hub to that of another. -/
def BusLeads (h h' : Hub M L) : Prop := h.bus.Leads h'.bus

namespace BusLeads

variable {h h' : Hub M L}

theorem of_bus_eq (hb : h'.bus = h.bus) : h.BusLeads h' := by
  rw [BusLeads, hb]
  exact .refl

theorem subscribe (h : Hub M L) (name : String) (listener : Listener L) : h.BusLeads (h.subscribe name listener).2 :=
  .single (.subscribe h.bus name listener)

theorem unsubscribe (h : Hub M L) (id : SubscriptionId) : h.BusLeads (h.unsubscribe id).2 :=
  .single (.unsubscribe h.bus id)

theorem updateMailbox (h : Hub M L) (id : MailboxId) (f : Mailbox → Mailbox) : h.BusLeads (h.updateMailbox id f) := by
  unfold Hub.updateMailbox
  split <;> exact of_bus_eq rfl

theorem warn (h : Hub M L) (warnings : List Warning) : h.BusLeads (h.warn warnings) := by
  rw [warn_eq]
  exact of_bus_eq rfl

theorem push (h : Hub M L) (id : MailboxId) (q : QueuedAction) : h.BusLeads (h.push id q) := by
  unfold Hub.push
  split
  · exact updateMailbox h id _
  · exact of_bus_eq rfl

theorem release (h : Hub M L) (id : MailboxId) : h.BusLeads (h.release id) := by
  unfold Hub.release dropMailbox
  split
  · split
    · split
      · rename_i c hc
        exact (unsubscribe _ c.onAction).trans (unsubscribe _ c.onCancel)
      · exact of_bus_eq rfl
    · exact of_bus_eq rfl
  · exact of_bus_eq rfl

theorem record (h : Hub M L) (n : Notification) : h.BusLeads (h.record n) := .single (.record h.bus n)

end BusLeads

end Hub

end VetoMachine
