import VetoMachine.Proofs.Moments

/-!
# The log is the recent past

At every moment of a run, listeners under way or not, the log of the bus holds the last notifications of those that
have been published since it was cleared, as many as it has room for (`Hub.Moment.log_recent`).  The journal tells which
these are, as it gains an entry with every call to publish, before any listener is called (`Hub.publishedSinceClear`).
-/

namespace VetoMachine

variable {M L : Type}

def Entry.isCleared : Entry → Bool
  | .cleared => true
  | _ => false

theorem Bus.capacity_record (b : Bus L) (n : Notification) : (b.record n).capacity = b.capacity := by
  unfold record
  split <;> rfl

namespace Hub

/-- The notifications published since the log was cleared, if it ever was, in the order in which that was called for. -/
def publishedSinceClear (h : Hub M L) : List Notification :=
  publishedIn (h.journal.takeWhile fun e => !e.isCleared).reverse

/-- The log consists of the last notifications published, and is as long as it can be. -/
structure LogsRecent (h : Hub M L) : Prop where
  suffix : h.bus.log <:+ h.publishedSinceClear
  length : h.bus.log.length = min h.bus.capacity h.publishedSinceClear.length

/-- As long as the log is not cleared, whatever is published comes to it. -/
theorem publishedSinceClear_append {h h' : Hub M L} {es : List Entry} (hjournal : h'.journal = es.reverse ++ h.journal)
    (hkept : ∀ e ∈ es, e.isCleared = false) : h'.publishedSinceClear = h.publishedSinceClear ++ publishedIn es := by
  have hall : ∀ e ∈ es.reverse, (!e.isCleared) = true := by
    intro e he
    rw [hkept e (List.mem_reverse.1 he)]
    rfl
  rw [publishedSinceClear, hjournal, List.takeWhile_append_of_pos hall, List.reverse_append, List.reverse_reverse,
    publishedIn_append]
  rfl

theorem publishedSinceClear_record (h : Hub M L) (n : Notification) :
    (h.record n).publishedSinceClear = h.publishedSinceClear ++ [n] := by
  have hjournal : (h.record n).journal = [Entry.opened n].reverse ++ h.journal := rfl
  exact publishedSinceClear_append hjournal (by simp [Entry.isCleared])

theorem publishedSinceClear_clearLog (h : Hub M L) : h.clearLog.publishedSinceClear = [] := rfl

theorem publishedSinceClear_aside {h h' : Hub M L} (es : List Entry) (hjournal : h'.journal = es.reverse ++ h.journal)
    (haside : ∀ e ∈ es, e.isAside = true) : h'.publishedSinceClear = h.publishedSinceClear := by
  have hkept : ∀ e ∈ es, e.isCleared = false := by
    intro e he
    have := haside e he
    cases e <;> first | rfl | cases this
  have hnone : publishedIn es = [] := by
    refine List.filterMap_eq_nil_iff.2 fun e he => ?_
    have := haside e he
    cases e <;> first | rfl | cases this
  rw [publishedSinceClear_append hjournal hkept, hnone, List.append_nil]

namespace LogsRecent

variable {h : Hub M L}

/-- A full log forgets its oldest notification; `length` tells that it is never more than full. -/
private theorem record (hh : h.LogsRecent) (n : Notification) : (h.record n).LogsRecent := by
  have hbus : (h.record n).bus = h.bus.record n := rfl
  have hlength := hh.length
  by_cases hzero : h.bus.capacity = 0
  · have hsame : (h.record n).bus = h.bus := by rw [hbus, Bus.record, if_pos hzero]
    have hnil : h.bus.log = [] := List.length_eq_zero_iff.1 (by rw [hlength, hzero, Nat.zero_min])
    exact ⟨by simp [hsame, hnil], by simp [hsame, hnil, hzero]⟩
  · have hlog : (h.record n).bus.log =
        (if h.bus.log.length = h.bus.capacity then h.bus.log.drop 1 else h.bus.log) ++ [n] := by
      rw [hbus, Bus.record, if_neg hzero]
    have hkept : (if h.bus.log.length = h.bus.capacity then h.bus.log.drop 1 else h.bus.log) <:+
        h.publishedSinceClear := by
      split
      · exact (List.drop_suffix 1 _).trans hh.suffix
      · exact hh.suffix
    refine ⟨?_, ?_⟩
    · obtain ⟨forgotten, heq⟩ := hkept
      rw [hlog, publishedSinceClear_record, ← heq, List.append_assoc]
      exact List.suffix_append _ _
    · rw [hlog, hbus, Bus.capacity_record, publishedSinceClear_record, List.length_append, List.length_append]
      split
      · rw [List.length_drop, List.length_singleton]
        omega
      · rw [List.length_singleton]
        omega

private theorem clearLog (h : Hub M L) : h.clearLog.LogsRecent := by
  refine ⟨?_, ?_⟩
  · rw [publishedSinceClear_clearLog]
    exact List.suffix_refl []
  · rw [publishedSinceClear_clearLog]
    exact (Nat.min_zero _).symm

private theorem of_eq {h' : Hub M L} (hh : h.LogsRecent) (hlog : h'.bus.log = h.bus.log)
    (hcapacity : h'.bus.capacity = h.bus.capacity) (hpublished : h'.publishedSinceClear = h.publishedSinceClear) :
    h'.LogsRecent :=
  ⟨by rw [hlog, hpublished]; exact hh.suffix, by rw [hlog, hcapacity, hpublished]; exact hh.length⟩

end LogsRecent

/-- The capacity of the bus stays, and the log goes on to consist of what was published last. -/
private theorem busLaw_logsRecent : BusLaw fun h h' : Hub M L =>
    h'.bus.capacity = h.bus.capacity ∧ (h.LogsRecent → h'.LogsRecent) where
  trans h12 h23 := ⟨h23.1.trans h12.1, fun hh => h23.2 (h12.2 hh)⟩
  aside es hbus hjournal haside :=
    ⟨by rw [hbus], fun hh => hh.of_eq (by rw [hbus]) (by rw [hbus]) (publishedSinceClear_aside es hjournal haside)⟩
  record h n := ⟨h.bus.capacity_record n, fun hh => hh.record n⟩
  clearLog h := ⟨rfl, fun _ => .clearLog h⟩
  subscribe _ _ _ := ⟨rfl, fun hh => hh.of_eq rfl rfl rfl⟩
  unsubscribe _ _ := ⟨rfl, fun hh => hh.of_eq rfl rfl rfl⟩

/-- What listeners do in the course of a delivery comes after the entry that opens it. -/
private theorem Flows.journal_record {mb : MailboxId} {n : Notification} {h k : Hub M L}
    (hflows : (h.record n).Flows mb [] k) :
    ∃ inner, Balanced inner ∧ k.journal = (.opened n :: inner).reverse ++ h.journal := by
  obtain ⟨inner, hjournal, hbalanced, -⟩ := hflows
  refine ⟨inner, hbalanced, ?_⟩
  rw [hjournal, List.reverse_cons, List.append_assoc]
  rfl

private theorem entriesSince_callAll {respond : Response M L} {depth : Nat} {n : Notification}
    {done : List (Subscription L)} {h k : Hub M L}
    (hdone : callAll respond (publishWithin respond depth) n done (h.record n) = some k) :
    ∃ inner, Balanced inner ∧ h.entriesSince k = .opened n :: inner := by
  -- it does not matter which mailbox is looked at
  have hlaw : DeliveryLaw (Flows (M := M) (L := L) 0 []) := deliveryLaw_flows 0
  obtain ⟨inner, hbalanced, hjournal⟩ := (hlaw.callAll (hlaw.publishWithin respond depth) hdone).journal_record
  exact ⟨inner, hbalanced, entriesSince_eq hjournal⟩

/-- A delivery is opened by its notification, and what its listeners publish comes after it. -/
private theorem entriesSince_publishWithin {respond : Response M L} {depth : Nat} {n : Notification} {h k : Hub M L}
    (hpub : publishWithin respond depth n h = some k) :
    ∃ inner, Balanced inner ∧ h.entriesSince k = .opened n :: inner ++ [.closed n] ∧
      ((∀ e ∈ inner, e.isCleared = false) →
        k.publishedSinceClear = h.publishedSinceClear ++ n :: publishedIn inner) := by
  obtain ⟨k, hflows, rfl⟩ := (deliveryLaw_flows 0).between_brackets hpub
  obtain ⟨inner, hbalanced, hjournal⟩ := hflows.journal_record
  have hall : (k.note (.closed n)).journal = (Entry.opened n :: inner ++ [Entry.closed n]).reverse ++ h.journal := by
    rw [List.reverse_append, List.append_assoc, ← hjournal]
    rfl
  refine ⟨inner, hbalanced, entriesSince_eq hall, fun hkept => ?_⟩
  have hpublished : publishedIn (.opened n :: inner ++ [.closed n]) = n :: publishedIn inner := by
    rw [publishedIn_append]
    exact List.append_nil _
  rw [publishedSinceClear_append hall (by simpa [or_imp, forall_and, Entry.isCleared] using hkept), hpublished]

/-- At every moment the log holds the last notifications of those published since it was cleared, as many as there are
or as it has room for.  What is published at that moment precedes all that the listeners publish who are called with
it, however many these are and whatever they do; so it does after the call, if nobody clears the log.  Clearing it
forgets everything. -/
theorem Moment.log_recent {respond : Response M L} {capacity : Nat} {h : Hub M L} (hh : h.Moment respond capacity) :
    h.bus.log <:+ h.publishedSinceClear ∧ h.bus.log.length = min capacity h.publishedSinceClear.length ∧
      h.bus.log.length ≤ capacity ∧ (capacity = 0 → h.bus.log = []) ∧
      (∀ {depth n done k}, callAll respond (publishWithin respond depth) n done (h.record n) = some k →
        ∃ inner, Balanced inner ∧ h.entriesSince k = .opened n :: inner ∧
          publishedIn (h.entriesSince k) = n :: publishedIn inner) ∧
      (∀ {depth n k}, publishWithin respond depth n h = some k →
        k.Moment respond capacity ∧ ∃ inner, Balanced inner ∧ h.entriesSince k = .opened n :: inner ++ [.closed n] ∧
          publishedIn (h.entriesSince k) = n :: publishedIn inner ∧
          ((∀ e ∈ inner, e.isCleared = false) →
            k.publishedSinceClear = h.publishedSinceClear ++ n :: publishedIn inner)) ∧
      h.clearLog.Moment respond capacity ∧ h.clearLog.publishedSinceClear = [] ∧ h.clearLog.bus.log = [] := by
  obtain ⟨memory, hcapacity, hrecent⟩ := busLaw_logsRecent.moment hh
  have hempty : (empty capacity memory : Hub M L).LogsRecent := ⟨List.suffix_refl [], (Nat.min_zero _).symm⟩
  have hlength : h.bus.log.length = min capacity h.publishedSinceClear.length := by
    rw [(hrecent hempty).length, hcapacity]
    rfl
  refine ⟨(hrecent hempty).suffix, hlength, by omega, ?_, ?_, ?_, hh.serve 0 0 .clearLog rfl, rfl, rfl⟩
  · intro hzero
    exact List.length_eq_zero_iff.1 (by omega)
  · intro depth n done k hdone
    obtain ⟨inner, hbalanced, hentries⟩ := entriesSince_callAll hdone
    exact ⟨inner, hbalanced, hentries, by rw [hentries]; rfl⟩
  · intro depth n k hpub
    obtain ⟨inner, hbalanced, hentries, hpublished⟩ := entriesSince_publishWithin hpub
    refine ⟨hh.serve depth 0 (.publish n) hpub, inner, hbalanced, hentries, ?_, hpublished⟩
    rw [hentries, publishedIn_append]
    exact List.append_nil _

/-! ### A moment amid two deliveries -/

/-- Listeners that pass on a notification of their own. -/
def relay : Response Unit Notification := fun reply _ => .publish reply .done

def bell (name : String) : Notification := ⟨name, .null, none⟩

/-- A hub with room for two notifications and a listener for each of two names. -/
def relayHub : Hub Unit Notification :=
  (((empty 2 ()).subscribe "ring" (.custom (bell "echo"))).2.subscribe "echo" (.custom (bell "silence"))).2

/-- When the inner of two listeners is called, the log has forgotten what was published before the outer delivery. -/
theorem Moment.log_recent_relay : ∃ h : Hub Unit Notification, h.Moment relay 2 ∧
    h.publishedSinceClear.map (·.name) = ["dawn", "ring", "echo"] ∧ h.bus.log.map (·.name) = ["ring", "echo"] ∧
    h.bus.log <:+ h.publishedSinceClear := by
  let morning := (relayHub.clearLog.record (bell "dawn")).note (.closed (bell "dawn"))
  let ringing := (morning.record (bell "ring")).note (.called 0 (bell "ring"))
  let echoing := (ringing.record (bell "echo")).note (.called 1 (bell "echo"))
  have hempty : (empty 2 ()).Moment relay 2 := .start ()
  have hhub : relayHub.Moment relay 2 :=
    (hempty.serve 0 0 (.subscribe "ring" (bell "echo")) rfl).serve 0 0 (.subscribe "echo" (bell "silence")) rfl
  have hmorning : morning.Moment relay 2 :=
    (hhub.serve 0 0 .clearLog rfl).serve 1 0 (.publish (bell "dawn")) rfl
  have houter : morning.bus.subscribed (bell "ring").name = [] ++ ⟨0, .custom (bell "echo")⟩ :: [] := by rfl
  have hinner : ringing.bus.subscribed (bell "echo").name = [] ++ ⟨1, .custom (bell "silence")⟩ :: [] := by rfl
  have hringing : ringing.Moment relay 2 := (hmorning.call 1 houter rfl :)
  have hechoing : echoing.Moment relay 2 := (hringing.call 0 hinner rfl :)
  exact ⟨echoing, hechoing, rfl, rfl, hechoing.log_recent.1⟩

end Hub

end VetoMachine
