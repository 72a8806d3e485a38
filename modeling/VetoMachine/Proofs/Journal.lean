import VetoMachine.Hub

/-!
# Deliveries in a journal

The journal of a hub brackets every delivery between an entry that opens and one that closes it, and what
listeners do in between stands between the two.  A list of entries, oldest first, is balanced (`Balanced`) if its
brackets match.  `deliveries` reads off the deliveries on the outermost level, each with all that happened during
it; on a balanced list they are what the brackets say (`deliveries_flatMap_entries`).
-/

namespace VetoMachine

/-- Whether an entry neither opens nor closes a delivery. -/
def Entry.isPlain : Entry → Bool
  | .opened _ | .closed _ => false
  | _ => true

/-- Every delivery that is opened is closed, and what is opened last is closed first. -/
inductive Balanced : List Entry → Prop where
  | nil : Balanced []
  | plain {e : Entry} {rest : List Entry} (he : e.isPlain = true) (h : Balanced rest) : Balanced (e :: rest)
  | delivery {n : Notification} {during rest : List Entry} (hd : Balanced during) (h : Balanced rest) :
      Balanced (.opened n :: (during ++ .closed n :: rest))

theorem Balanced.append {xs ys : List Entry} (hx : Balanced xs) (hy : Balanced ys) : Balanced (xs ++ ys) := by
  induction hx with
  | nil => exact hy
  | plain he _ ih => exact .plain he ih
  | delivery hd _ _ ih =>
    rw [List.cons_append, List.append_assoc, List.cons_append]
    exact .delivery hd ih

theorem Balanced.of_plain {xs : List Entry} (h : ∀ e ∈ xs, e.isPlain = true) : Balanced xs := by
  induction xs with
  | nil => exact .nil
  | cons e xs ih => exact .plain (h e (by simp)) (ih fun x hx => h x (by simp [hx]))

/-- A notification that was delivered, with all that happened in the meantime, oldest first. -/
structure Delivery where
  note : Notification
  during : List Entry

namespace Delivery

/-- The entries of a delivery, brackets included. -/
def entries (d : Delivery) : List Entry := .opened d.note :: (d.during ++ [.closed d.note])

/-- Whether a cancel flag was raised during a delivery, by whatever listener on whatever level. -/
def Raises (d : Delivery) (flag : FlagId) : Prop := .raised flag ∈ d.during

theorem raised_mem_entries {d : Delivery} {flag : FlagId} : .raised flag ∈ d.entries ↔ d.Raises flag := by
  simp [entries, Raises]

theorem balanced_entries {d : Delivery} (hd : Balanced d.during) : Balanced d.entries :=
  .delivery hd .nil

end Delivery

mutual

/-- The deliveries on the outermost level of a list of entries. -/
def deliveries : List Entry → List Delivery
  | [] => []
  | .opened n :: rest => deliveriesWithin n [] 0 rest
  | _ :: rest => deliveries rest

/-- The same within a delivery of `n`, after the entries `seen`, newest first, and with `depth` deliveries under
way inside it. -/
def deliveriesWithin (n : Notification) (seen : List Entry) : Nat → List Entry → List Delivery
  | _, [] => [⟨n, seen.reverse⟩]
  | 0, .closed _ :: rest => ⟨n, seen.reverse⟩ :: deliveries rest
  | depth + 1, .closed k :: rest => deliveriesWithin n (.closed k :: seen) depth rest
  | depth, .opened k :: rest => deliveriesWithin n (.opened k :: seen) (depth + 1) rest
  | depth, e :: rest => deliveriesWithin n (e :: seen) depth rest

end

theorem deliveries_plain {e : Entry} (he : e.isPlain = true) (rest : List Entry) :
    deliveries (e :: rest) = deliveries rest := by
  cases e <;> first | rfl | cases he

theorem deliveries_eq_nil {xs : List Entry} (h : ∀ e ∈ xs, e.isPlain = true) : deliveries xs = [] := by
  induction xs with
  | nil => rfl
  | cons e xs ih =>
    rw [deliveries_plain (h e (by simp))]
    exact ih fun x hx => h x (by simp [hx])

private theorem deliveriesWithin_plain {e : Entry} (he : e.isPlain = true) (n : Notification)
    (seen rest : List Entry) (depth : Nat) :
    deliveriesWithin n seen depth (e :: rest) = deliveriesWithin n (e :: seen) depth rest := by
  cases e <;> first | (cases depth <;> rfl) | cases he

/-- A balanced stretch within a delivery is passed over. -/
private theorem deliveriesWithin_balanced {xs : List Entry} (h : Balanced xs) (n : Notification)
    (seen rest : List Entry) (depth : Nat) :
    deliveriesWithin n seen depth (xs ++ rest) = deliveriesWithin n (xs.reverse ++ seen) depth rest := by
  induction h generalizing seen rest depth with
  | nil => rfl
  | plain he _ ih =>
    rw [List.cons_append, deliveriesWithin_plain he, ih, List.reverse_cons, List.append_assoc]
    rfl
  | @delivery k during tail _ _ ihd ih =>
    calc deliveriesWithin n seen depth ((.opened k :: (during ++ .closed k :: tail)) ++ rest)
        = deliveriesWithin n (.opened k :: seen) (depth + 1) (during ++ (.closed k :: (tail ++ rest))) := by
          cases depth <;> simp [deliveriesWithin]
      _ = deliveriesWithin n (.closed k :: (during.reverse ++ .opened k :: seen)) depth (tail ++ rest) := by
          rw [ihd, deliveriesWithin]
      _ = deliveriesWithin n ((.opened k :: (during ++ .closed k :: tail)).reverse ++ seen) depth rest := by
          rw [ih]; simp

theorem deliveries_entries {d : Delivery} (hd : Balanced d.during) (rest : List Entry) :
    deliveries (d.entries ++ rest) = d :: deliveries rest := by
  rw [Delivery.entries, List.cons_append, List.append_assoc, deliveries, deliveriesWithin_balanced hd]
  simp [deliveriesWithin]

/-- The deliveries of a balanced list and of what follows are read off one after the other. -/
theorem deliveries_append {xs : List Entry} (hx : Balanced xs) (ys : List Entry) :
    deliveries (xs ++ ys) = deliveries xs ++ deliveries ys := by
  induction hx with
  | nil => rfl
  | plain he _ ih => rw [List.cons_append, deliveries_plain he, deliveries_plain he, ih]
  | @delivery n during rest hd _ _ ih =>
    have hentries : .opened n :: (during ++ .closed n :: rest) = (Delivery.mk n during).entries ++ rest := by
      simp [Delivery.entries]
    rw [hentries, List.append_assoc, deliveries_entries hd, deliveries_entries hd, ih, List.cons_append]

theorem deliveries_flatMap_entries {ds : List Delivery} (h : ∀ d ∈ ds, Balanced d.during) :
    deliveries (ds.flatMap Delivery.entries) = ds := by
  induction ds with
  | nil => rfl
  | cons d ds ih =>
    rw [List.flatMap_cons, deliveries_entries (h d (by simp)), ih fun x hx => h x (by simp [hx])]

theorem raised_mem_flatMap_entries {ds : List Delivery} {flag : FlagId} :
    .raised flag ∈ ds.flatMap Delivery.entries ↔ ∃ d ∈ ds, d.Raises flag := by
  simp only [List.mem_flatMap, Delivery.raised_mem_entries]

def Entry.opened? : Entry → Option Notification
  | .opened n => some n
  | _ => none

/-- The notifications published in the course of what a list of entries tells, on whatever level. -/
def publishedIn (es : List Entry) : List Notification := es.filterMap Entry.opened?

theorem publishedIn_append (xs ys : List Entry) : publishedIn (xs ++ ys) = publishedIn xs ++ publishedIn ys :=
  List.filterMap_append

theorem Delivery.publishedIn_entries (d : Delivery) (rest : List Entry) :
    publishedIn (d.entries ++ rest) = d.note :: (publishedIn d.during ++ publishedIn rest) := by
  simp [publishedIn, Delivery.entries, Entry.opened?, List.filterMap_cons]

namespace Hub

variable {M L : Type}

/-- The entries that the journal of a hub has gained, oldest first. -/
def entriesSince (old new : Hub M L) : List Entry :=
  (new.journal.take (new.journal.length - old.journal.length)).reverse

theorem entriesSince_eq {old new : Hub M L} {entries : List Entry}
    (h : new.journal = entries.reverse ++ old.journal) : old.entriesSince new = entries := by
  rw [entriesSince, h]
  simp

theorem entriesSince_append {old mid new : Hub M L} {xs ys : List Entry}
    (hmid : mid.journal = xs.reverse ++ old.journal) (hnew : new.journal = ys.reverse ++ mid.journal) :
    old.entriesSince new = xs ++ ys :=
  entriesSince_eq (by rw [hnew, hmid, List.reverse_append, List.append_assoc])

/-- The deliveries made on a hub in the meantime, those inside them apart. -/
def deliveriesSince (old new : Hub M L) : List Delivery := deliveries (old.entriesSince new)

/-! ### What single steps write -/

@[simp] theorem journal_updateMailbox (h : Hub M L) (id : MailboxId) (f : Mailbox → Mailbox) :
    (h.updateMailbox id f).journal = h.journal := by
  unfold updateMailbox
  split <;> rfl

theorem journal_push (h : Hub M L) (id : MailboxId) (q : QueuedAction) :
    (h.push id q).journal = (if h.mailboxes.contains id then [.pushed id q] else []) ++ h.journal := by
  unfold push
  split
  · rw [note, journal_updateMailbox]
    rfl
  · rfl

/-- Warnings go into the journal and nowhere else. -/
theorem warn_eq (h : Hub M L) (warnings : List Warning) :
    h.warn warnings = { h with journal := (warnings.map .warned).reverse ++ h.journal } := by
  unfold warn
  induction warnings generalizing h with
  | nil => rfl
  | cons w rest ih =>
    rw [List.foldl_cons, ih, List.map_cons, List.reverse_cons, List.append_assoc]
    rfl

/-- What a mailbox that is subscribed to a notification writes of it. -/
def receipt (id : MailboxId) (n : Notification) : Entry :=
  match n.kind with
  | some action => .received id ⟨action, n.body⟩
  | none => .warned .namelessActionDropped

theorem journal_receive (h : Hub M L) (id : MailboxId) (n : Notification) :
    (h.receive id n).journal = (if h.mailboxes.contains id then [receipt id n] else []) ++ h.journal := by
  unfold receive receipt
  split
  · cases n.kind with
    | some action => simp [note]
    | none => rfl
  · rfl

theorem journal_warn (h : Hub M L) (warnings : List Warning) :
    (h.warn warnings).journal = (warnings.map .warned).reverse ++ h.journal := by rw [warn_eq]

@[simp] theorem journal_pop (h : Hub M L) (id : MailboxId) : (h.pop id).2.journal = h.journal := by
  unfold pop
  split <;> rfl

@[simp] theorem journal_release (h : Hub M L) (id : MailboxId) : (h.release id).journal = h.journal := by
  unfold release dropMailbox
  split
  · split
    · split <;> rfl
    · rfl
  · rfl

end Hub

end VetoMachine
