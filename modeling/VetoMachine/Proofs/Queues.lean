import VetoMachine.Proofs.Delivery

/-!
# What waits in a mailbox

The journal tells of every action that comes into a mailbox, through its own subscription or pushed by somebody.  As
long as the mailbox exists, what waits in it is what waited before and what the journal tells, in that order, without
what has been taken from the front (`Hub.Flows`).  Deliveries and the moves of machines take nothing.
-/

namespace VetoMachine

variable {M L : Type}

/-- The action that an entry tells to have come into a mailbox, in whatever way. -/
def Entry.queuedIn? (mb : MailboxId) : Entry → Option QueuedAction
  | .received mailbox q | .pushed mailbox q => if mailbox = mb then some q else none
  | _ => none

/-- The actions that came into a mailbox, oldest first. -/
def queuedIn (mb : MailboxId) (es : List Entry) : List QueuedAction := es.filterMap (Entry.queuedIn? mb)

@[simp] theorem queuedIn_nil (mb : MailboxId) : queuedIn mb [] = [] := rfl

@[simp] theorem queuedIn_append (mb : MailboxId) (xs ys : List Entry) :
    queuedIn mb (xs ++ ys) = queuedIn mb xs ++ queuedIn mb ys := List.filterMap_append

theorem queuedIn_eq_nil {mb : MailboxId} {es : List Entry} (h : ∀ e ∈ es, e.queuedIn? mb = none) :
    queuedIn mb es = [] := List.filterMap_eq_nil_iff.2 h

theorem queuedIn_single (mb : MailboxId) (e : Entry) : queuedIn mb [e] = (e.queuedIn? mb).toList := by
  unfold queuedIn
  cases h : e.queuedIn? mb <;> simp [h]

namespace Hub

/-- What waits in a mailbox, oldest first; nothing if there is no such mailbox. -/
def queue (h : Hub M L) (mb : MailboxId) : List QueuedAction := (h.mailboxes[mb]?.map (·.queue)).getD []

theorem queue_of_getElem? {h : Hub M L} {mb : MailboxId} {b : Mailbox} (hb : h.mailboxes[mb]? = some b) :
    h.queue mb = b.queue := by
  rw [queue, hb]
  rfl

theorem getElem?_updateMailbox (h : Hub M L) (id : MailboxId) (f : Mailbox → Mailbox) (mb : MailboxId) :
    (h.updateMailbox id f).mailboxes[mb]? = if id = mb then h.mailboxes[mb]?.map f else h.mailboxes[mb]? := by
  unfold updateMailbox
  by_cases hid : id = mb
  · subst hid
    cases hb : h.mailboxes[id]? <;> simp [hb]
  · have hne : compare id mb ≠ .eq := fun hc => hid (Std.LawfulEqOrd.eq_of_compare hc)
    cases hb : h.mailboxes[id]? with
    | none => simp [hid]
    | some b => simp [hid, hne, Std.ExtTreeMap.getElem?_insert]

theorem mem_updateMailbox (h : Hub M L) (id : MailboxId) (f : Mailbox → Mailbox) {mb : MailboxId} :
    mb ∈ (h.updateMailbox id f).mailboxes ↔ mb ∈ h.mailboxes := by
  rw [Std.ExtTreeMap.mem_iff_isSome_getElem?, getElem?_updateMailbox, Std.ExtTreeMap.mem_iff_isSome_getElem?]
  split <;> simp

theorem mem_receive (h : Hub M L) (id : MailboxId) (n : Notification) {mb : MailboxId} :
    mb ∈ (h.receive id n).mailboxes ↔ mb ∈ h.mailboxes := by
  unfold receive
  split
  · cases n.kind with
    | some action => exact mem_updateMailbox h id _
    | none => rfl
  · rfl

/-! What is done to mailboxes changes nothing else. -/

theorem updateMailbox_eq (h : Hub M L) (id : MailboxId) (f : Mailbox → Mailbox) :
    h.updateMailbox id f = { h with mailboxes := (h.updateMailbox id f).mailboxes } := by
  unfold updateMailbox
  split <;> rfl

theorem push_eq (h : Hub M L) (id : MailboxId) (q : QueuedAction) :
    h.push id q = { h with mailboxes := (h.push id q).mailboxes, journal := (h.push id q).journal } := by
  unfold push
  split
  · rw [updateMailbox_eq]
    rfl
  · rfl

theorem receive_eq (h : Hub M L) (id : MailboxId) (n : Notification) :
    h.receive id n = { h with mailboxes := (h.receive id n).mailboxes, journal := (h.receive id n).journal } := by
  unfold receive
  split
  · cases n.kind with
    | some action =>
      simp only
      rw [updateMailbox_eq]
      rfl
    | none => rfl
  · rfl

theorem pop_eq (h : Hub M L) (id : MailboxId) : (h.pop id).2 = { h with mailboxes := (h.pop id).2.mailboxes } := by
  unfold pop
  split <;> rfl

section Memory

variable (h : Hub M L) (id : MailboxId)

@[simp] theorem memory_warn (warnings : List Warning) : (h.warn warnings).memory = h.memory := by
  unfold warn
  induction warnings generalizing h with
  | nil => rfl
  | cons w rest ih => exact ih (h.note (.warned w))

@[simp] theorem memory_updateMailbox (f : Mailbox → Mailbox) : (h.updateMailbox id f).memory = h.memory := by
  unfold updateMailbox
  split <;> rfl

@[simp] theorem memory_push (q : QueuedAction) : (h.push id q).memory = h.memory := by
  unfold push
  split
  · exact memory_updateMailbox h id _
  · rfl

@[simp] theorem memory_receive (n : Notification) : (h.receive id n).memory = h.memory := by
  unfold receive
  split
  · cases n.kind with
    | some action => exact memory_updateMailbox h id _
    | none => rfl
  · rfl

@[simp] theorem memory_pop : (h.pop id).2.memory = h.memory := by
  unfold pop
  split <;> rfl

@[simp] theorem memory_release : (h.release id).memory = h.memory := by
  unfold release
  split
  · split
    · unfold dropMailbox
      split <;> rfl
    · rfl
  · rfl

end Memory

/-- Giving up a hold takes nothing from a mailbox that is not dropped. -/
theorem getElem?_release {h : Hub M L} {id mb : MailboxId} {b' : Mailbox}
    (hb' : (h.release id).mailboxes[mb]? = some b') :
    ∃ b, h.mailboxes[mb]? = some b ∧ b'.queue = b.queue ∧ b'.connection = b.connection := by
  have hdrop : ∀ b, (h.dropMailbox id b).mailboxes = h.mailboxes.erase id := by
    intro b
    unfold dropMailbox
    split <;> rfl
  unfold release at hb'
  cases hid : h.mailboxes[id]? with
  | none =>
    rw [hid] at hb'
    exact ⟨b', hb', rfl, rfl⟩
  | some b =>
    simp only [hid] at hb'
    by_cases hlast : b.holders ≤ 1
    · rw [if_pos hlast, hdrop, Std.ExtTreeMap.getElem?_erase] at hb'
      split at hb'
      · cases hb'
      · exact ⟨b', hb', rfl, rfl⟩
    · rw [if_neg hlast, Std.ExtTreeMap.getElem?_insert] at hb'
      split at hb'
      · rename_i heq
        have hmb : id = mb := Std.LawfulEqOrd.eq_of_compare heq
        refine ⟨b, hmb ▸ hid, ?_⟩
        rw [← Option.some.inj hb']
        exact ⟨rfl, rfl⟩
      · exact ⟨b', hb', rfl, rfl⟩

/-- The mailbox was there before if it is there now, and apart from what was `taken` it holds what it held and what
has come into it since. -/
def Flows (mb : MailboxId) (taken : List QueuedAction) (h h' : Hub M L) : Prop :=
  ∃ es : List Entry, h'.journal = es.reverse ++ h.journal ∧ Balanced es ∧
    ∀ {b' : Mailbox}, h'.mailboxes[mb]? = some b' →
      ∃ b, h.mailboxes[mb]? = some b ∧ b.queue ++ queuedIn mb es = taken ++ b'.queue

namespace Flows

variable {mb : MailboxId} {h h' h'' : Hub M L} {taken taken' : List QueuedAction}

theorem journal (hf : h.Flows mb taken h') : h'.journal = (h.entriesSince h').reverse ++ h.journal := by
  obtain ⟨es, hj, -, -⟩ := hf
  rw [entriesSince_eq hj, hj]

theorem balanced (hf : h.Flows mb taken h') : Balanced (h.entriesSince h') := by
  obtain ⟨es, hj, hes, -⟩ := hf
  rw [entriesSince_eq hj]
  exact hes

theorem mem (hf : h.Flows mb taken h') (hmb : mb ∈ h'.mailboxes) : mb ∈ h.mailboxes := by
  obtain ⟨es, -, -, hqueue⟩ := hf
  obtain ⟨b, hb, -⟩ := hqueue (Std.ExtTreeMap.getElem?_eq_some_getElem hmb)
  rw [Std.ExtTreeMap.mem_iff_isSome_getElem?, hb]
  rfl

theorem queue_eq (hf : h.Flows mb taken h') (hmb : mb ∈ h'.mailboxes) :
    h.queue mb ++ queuedIn mb (h.entriesSince h') = taken ++ h'.queue mb := by
  obtain ⟨es, hj, -, hqueue⟩ := hf
  have hb' := Std.ExtTreeMap.getElem?_eq_some_getElem hmb
  obtain ⟨b, hb, heq⟩ := hqueue hb'
  rw [entriesSince_eq hj, queue_of_getElem? hb, queue_of_getElem? hb']
  exact heq

theorem trans (h12 : h.Flows mb taken h') (h23 : h'.Flows mb taken' h'') : h.Flows mb (taken ++ taken') h'' := by
  obtain ⟨xs, hxj, hxs, hx⟩ := h12
  obtain ⟨ys, hyj, hys, hy⟩ := h23
  refine ⟨xs ++ ys, ?_, hxs.append hys, ?_⟩
  · rw [hyj, hxj, List.reverse_append, List.append_assoc]
  · intro b'' hb''
    obtain ⟨b', hb', hyq⟩ := hy hb''
    obtain ⟨b, hb, hxq⟩ := hx hb'
    refine ⟨b, hb, ?_⟩
    calc b.queue ++ queuedIn mb (xs ++ ys) = (b.queue ++ queuedIn mb xs) ++ queuedIn mb ys := by
          rw [queuedIn_append, List.append_assoc]
      _ = taken ++ (b'.queue ++ queuedIn mb ys) := by rw [hxq, List.append_assoc]
      _ = (taken ++ taken') ++ b''.queue := by rw [hyq, List.append_assoc]

/-- A step that leaves the mailboxes as they are writes of no action. -/
theorem of_mailboxes_eq (hm : h'.mailboxes = h.mailboxes) (es : List Entry) (hj : h'.journal = es.reverse ++ h.journal)
    (hplain : ∀ e ∈ es, e.isPlain = true) (hnone : ∀ e ∈ es, e.queuedIn? mb = none) : h.Flows mb [] h' := by
  refine ⟨es, hj, .of_plain hplain, ?_⟩
  intro b' hb'
  rw [hm] at hb'
  refine ⟨b', hb', ?_⟩
  rw [queuedIn_eq_nil hnone, List.append_nil, List.nil_append]

theorem refl (h : Hub M L) : h.Flows mb [] h := of_mailboxes_eq rfl [] rfl nofun nofun

theorem note (h : Hub M L) {e : Entry} (hplain : e.isPlain = true) (hnone : e.queuedIn? mb = none) :
    h.Flows mb [] (h.note e) :=
  of_mailboxes_eq rfl [e] rfl (by simpa using hplain) (by simpa using hnone)

theorem warn (h : Hub M L) (warnings : List Warning) : h.Flows mb [] (h.warn warnings) := by
  have hm : (h.warn warnings).mailboxes = h.mailboxes := by rw [warn_eq]
  refine of_mailboxes_eq hm _ (journal_warn h warnings) ?_ ?_ <;> simp [Entry.isPlain, Entry.queuedIn?]

/-- An action comes into a mailbox, and the journal says so. -/
theorem put (h : Hub M L) (id : MailboxId) (q : QueuedAction) {e : Entry} (hplain : e.isPlain = true)
    (he : e.queuedIn? mb = if id = mb then some q else none) :
    h.Flows mb [] ((h.updateMailbox id (·.push q)).note e) := by
  refine ⟨[e], ?_, .of_plain (by simpa using hplain), ?_⟩
  · rw [Hub.note, journal_updateMailbox]
    rfl
  · intro b' hb'
    have hlookup : (h.updateMailbox id (·.push q)).mailboxes[mb]? = some b' := hb'
    rw [getElem?_updateMailbox] at hlookup
    rw [queuedIn_single, he]
    by_cases hid : id = mb
    · rw [if_pos hid] at hlookup
      obtain ⟨b, hb, rfl⟩ := Option.map_eq_some_iff.1 hlookup
      exact ⟨b, hb, by simp [hid, Mailbox.push]⟩
    · rw [if_neg hid] at hlookup
      exact ⟨b', hlookup, by simp [hid]⟩

theorem raise (h : Hub M L) (flag : FlagId) : h.Flows mb [] (h.raise flag) :=
  of_mailboxes_eq rfl [.raised flag] rfl (by simp [Entry.isPlain]) (by simp [Entry.queuedIn?])

theorem clearLog (h : Hub M L) : h.Flows mb [] h.clearLog :=
  of_mailboxes_eq rfl [.cleared] rfl (by simp [Entry.isPlain]) (by simp [Entry.queuedIn?])

theorem push (h : Hub M L) (id : MailboxId) (q : QueuedAction) : h.Flows mb [] (h.push id q) := by
  unfold Hub.push
  split
  · exact put h id q rfl rfl
  · exact refl h

theorem receive (h : Hub M L) (id : MailboxId) (n : Notification) : h.Flows mb [] (h.receive id n) := by
  unfold Hub.receive
  split
  · split
    · exact put h id _ rfl rfl
    · exact warn h _
  · exact refl h

theorem release (h : Hub M L) (id : MailboxId) : h.Flows mb [] (h.release id) := by
  refine ⟨[], journal_release h id, .nil, ?_⟩
  intro b' hb'
  obtain ⟨b, hb, hqueue, -⟩ := getElem?_release hb'
  exact ⟨b, hb, by rw [hqueue, queuedIn_nil, List.append_nil, List.nil_append]⟩

theorem updateHolders (h : Hub M L) (id : MailboxId) (f : Nat → Nat) :
    h.Flows mb [] (h.updateMailbox id fun b => { b with holders := f b.holders }) := by
  refine ⟨[], journal_updateMailbox h id _, .nil, ?_⟩
  intro b' hb'
  rw [getElem?_updateMailbox] at hb'
  split at hb'
  · obtain ⟨b, hb, rfl⟩ := Option.map_eq_some_iff.1 hb'
    exact ⟨b, hb, by simp⟩
  · exact ⟨b', hb', by simp⟩

/-- The oldest action is taken from a mailbox. -/
theorem pop (h : Hub M L) (id : MailboxId) :
    h.Flows mb (if id = mb then (h.pop id).1.toList else []) (h.pop id).2 := by
  refine ⟨[], journal_pop h id, .nil, ?_⟩
  intro b' hb'
  cases hid : h.mailboxes[id]? with
  | none =>
    have hpop : h.pop id = (none, h) := by rw [Hub.pop, hid]
    rw [hpop] at hb' ⊢
    exact ⟨b', hb', by simp⟩
  | some b =>
    have hpop : h.pop id = (b.pop.1, { h with mailboxes := h.mailboxes.insert id b.pop.2 }) := by rw [Hub.pop, hid]
    rw [hpop] at hb' ⊢
    rw [Std.ExtTreeMap.getElem?_insert] at hb'
    by_cases heq : id = mb
    · subst heq
      simp only [Std.ReflCmp.compare_self, if_true, Option.some.injEq] at hb'
      refine ⟨b, hid, ?_⟩
      rw [← hb']
      cases hqueue : b.queue <;> simp [Mailbox.pop, hqueue]
    · have hne : compare id mb ≠ .eq := fun hc => heq (Std.LawfulEqOrd.eq_of_compare hc)
      rw [if_neg hne] at hb'
      exact ⟨b', hb', by simp [heq]⟩

theorem pop_self (h : Hub M L) (mb : MailboxId) : h.Flows mb (h.pop mb).1.toList (h.pop mb).2 := by
  have hflows : h.Flows mb (if mb = mb then (h.pop mb).1.toList else []) (h.pop mb).2 := pop h mb
  rwa [if_pos rfl] at hflows

/-- A stretch inside the brackets of a delivery gives the delivery. -/
theorem deliver {n : Notification} (hf : (h.record n).Flows mb [] h') : h.Flows mb [] (h'.note (.closed n)) := by
  obtain ⟨es, hj, hes, hqueue⟩ := hf
  refine ⟨(Delivery.mk n es).entries, ?_, Delivery.balanced_entries hes, ?_⟩
  · rw [Hub.note, hj]
    simp [Delivery.entries, Hub.record, Hub.note]
  · intro b' hb'
    obtain ⟨b, hb, heq⟩ := hqueue hb'
    refine ⟨b, hb, ?_⟩
    have hbrackets : queuedIn mb (Delivery.mk n es).entries = queuedIn mb es := by
      simp [queuedIn, Delivery.entries, Entry.queuedIn?, List.filterMap_cons]
    rw [hbrackets, heq]

theorem moveLaw {publish : Publisher M L} (hpub : publish.Obeys (Flows mb [])) (flag : FlagId) :
    MoveLaw publish flag (Flows mb []) where
  refl := refl
  trans := trans
  publish := hpub
  lower _ := of_mailboxes_eq rfl [] rfl nofun nofun

theorem handleAction {publish : Publisher M L} (hpub : publish.Obeys (Flows mb [])) {m m' : Machine} {action : String}
    {payload : Json} {o : Outcome} (hcall : m.handleAction publish action payload h = some (o, m', h')) :
    h.Flows mb [] h' :=
  (moveLaw hpub m.flag).handleAction warn hcall

end Flows

theorem deliveryLaw_flows (mb : MailboxId) : DeliveryLaw (Flows (M := M) (L := L) mb []) where
  refl := Flows.refl
  trans := Flows.trans
  called h _ _ := .note h rfl rfl
  returned h _ := .note h rfl rfl
  receive := Flows.receive
  raise := Flows.raise
  remember _ _ := .of_mailboxes_eq rfl [] rfl nofun nofun
  subscribe _ _ _ := .of_mailboxes_eq rfl [] rfl nofun nofun
  unsubscribe _ _ := .of_mailboxes_eq rfl [] rfl nofun nofun
  push := Flows.push
  clearLog := Flows.clearLog
  release := Flows.release
  deliver := Flows.deliver
  act {publish} hpub {name action payload m m' h h' o} _ hcall := by
    have hflows : (h.occupy name m).Flows mb [] h' := Flows.handleAction @hpub hcall
    exact hflows

end Hub

end VetoMachine
