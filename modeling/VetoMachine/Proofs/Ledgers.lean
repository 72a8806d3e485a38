import VetoMachine.Proofs.Buses

/-!
# Subscriptions of two runs

Of two runs one, the fuller, makes all the subscriptions of the other, the plain one, and some more, all of them of
observers.  A ledger tells which of the subscriptions of the fuller run are shared, and with that which identifiers of
the two runs belong together (`Ledger.pairs`).  The buses of the two runs match if their tables are the same but for
the identifiers and the extra subscriptions (`Bus.Matches`).
-/

namespace VetoMachine

variable {M L : Type}

/-- The subscriptions that have been made in a fuller run, told from the last one back. -/
inductive Ledger where
  | empty
  /-- One more that the plain run makes as well. -/
  | shared (before : Ledger)
  | extra (before : Ledger)

namespace Ledger

variable {ρ ρ' ρ'' : Ledger} {i i' j j' : SubscriptionId}

/-- How many subscriptions the plain run has made. -/
def plain : Ledger → Nat
  | empty => 0
  | shared ρ => ρ.plain + 1
  | extra ρ => ρ.plain

/-- How many subscriptions the fuller run has made. -/
def fuller : Ledger → Nat
  | empty => 0
  | shared ρ | extra ρ => ρ.fuller + 1

/-- The identifiers of every shared subscription in the plain and in the fuller run. -/
def pairs : Ledger → List (SubscriptionId × SubscriptionId)
  | empty => []
  | shared ρ => (ρ.plain, ρ.fuller) :: ρ.pairs
  | extra ρ => ρ.pairs

/-- The identifiers of the extra subscriptions. -/
def extras : Ledger → List SubscriptionId
  | empty => []
  | shared ρ => ρ.extras
  | extra ρ => ρ.fuller :: ρ.extras

theorem lt_of_mem_pairs (h : (i, j) ∈ ρ.pairs) : i < ρ.plain ∧ j < ρ.fuller := by
  induction ρ with
  | empty => cases h
  | shared ρ ih =>
    rcases List.mem_cons.1 h with heq | h
    · cases heq
      exact ⟨Nat.lt_succ_self _, Nat.lt_succ_self _⟩
    · exact ⟨Nat.lt_succ_of_lt (ih h).1, Nat.lt_succ_of_lt (ih h).2⟩
  | extra ρ ih => exact ⟨(ih h).1, Nat.lt_succ_of_lt (ih h).2⟩

theorem lt_of_mem_extras (h : j ∈ ρ.extras) : j < ρ.fuller := by
  induction ρ with
  | empty => cases h
  | shared ρ ih => exact Nat.lt_succ_of_lt (ih h)
  | extra ρ ih =>
    rcases List.mem_cons.1 h with rfl | h
    · exact Nat.lt_succ_self _
    · exact Nat.lt_succ_of_lt (ih h)

/-- The identifiers belong together one to one. -/
theorem pairs_inj (h : (i, j) ∈ ρ.pairs) (h' : (i', j') ∈ ρ.pairs) : i = i' ↔ j = j' := by
  induction ρ with
  | empty => cases h
  | shared ρ ih =>
    rcases List.mem_cons.1 h with heq | h <;> rcases List.mem_cons.1 h' with heq' | h'
    · cases heq
      cases heq'
      exact ⟨fun _ => rfl, fun _ => rfl⟩
    · cases heq
      exact iff_of_false (Nat.ne_of_gt (lt_of_mem_pairs h').1) (Nat.ne_of_gt (lt_of_mem_pairs h').2)
    · cases heq'
      exact iff_of_false (Nat.ne_of_lt (lt_of_mem_pairs h).1) (Nat.ne_of_lt (lt_of_mem_pairs h).2)
    · exact ih h h'
  | extra ρ ih => exact ih h h'

theorem notMem_extras (h : (i, j) ∈ ρ.pairs) : j ∉ ρ.extras := by
  induction ρ with
  | empty => cases h
  | shared ρ ih =>
    rcases List.mem_cons.1 h with heq | h
    · cases heq
      exact fun hmem => Nat.lt_irrefl _ (lt_of_mem_extras hmem)
    · exact ih h
  | extra ρ ih =>
    have hearlier : (i, j) ∈ ρ.pairs := h
    intro hmem
    rcases List.mem_cons.1 hmem with heq | hmem
    · exact Nat.ne_of_lt (lt_of_mem_pairs hearlier).2 heq
    · exact ih hearlier hmem

/-- One ledger goes on from another. -/
inductive Grows (ρ : Ledger) : Ledger → Prop where
  | refl : ρ.Grows ρ
  | shared {ρ' : Ledger} (h : ρ.Grows ρ') : ρ.Grows ρ'.shared
  | extra {ρ' : Ledger} (h : ρ.Grows ρ') : ρ.Grows ρ'.extra

theorem Grows.trans (h : ρ.Grows ρ') (h' : ρ'.Grows ρ'') : ρ.Grows ρ'' := by
  induction h' with
  | refl => exact h
  | shared _ ih => exact .shared ih
  | extra _ ih => exact .extra ih

theorem Grows.pairs (h : ρ.Grows ρ') (hij : (i, j) ∈ ρ.pairs) : (i, j) ∈ ρ'.pairs := by
  induction h with
  | refl => exact hij
  | shared _ ih => exact List.mem_cons_of_mem _ ih
  | extra _ ih => exact ih

theorem Grows.extras (h : ρ.Grows ρ') (hj : j ∈ ρ.extras) : j ∈ ρ'.extras := by
  induction h with
  | refl => exact hj
  | shared _ ih => exact ih
  | extra _ ih => exact List.mem_cons_of_mem _ ih

end Ledger

/-- What the memory and the code of listeners in two runs have to do with each other, as far as a ledger goes. -/
structure Correspondence (M L : Type) where
  memory : Ledger → M → M → Prop
  code : Ledger → L → L → Prop
  /-- Whether a listener with this code only observes. -/
  observer : L → Prop
  memory_grows : ∀ {ρ ρ' m m'}, ρ.Grows ρ' → memory ρ m m' → memory ρ' m m'
  code_grows : ∀ {ρ ρ' c c'}, ρ.Grows ρ' → code ρ c c' → code ρ' c c'

/-! ### Tables of subscriptions -/

/-- The same listener in both runs, or listeners with corresponding code. -/
inductive Listener.Matches (k : Correspondence M L) (ρ : Ledger) : Listener L → Listener L → Prop where
  | inbox (mailbox : MailboxId) : Matches k ρ (.inbox mailbox) (.inbox mailbox)
  | canceller (flag : FlagId) : Matches k ρ (.canceller flag) (.canceller flag)
  | custom {c c' : L} (hc : k.code ρ c c') : Matches k ρ (.custom c) (.custom c')

/-- Among the subscriptions of the fuller run those of the plain run stand in their order, and all others are of
observers. -/
inductive Aligned (k : Correspondence M L) (ρ : Ledger) : List (Subscription L) → List (Subscription L) → Prop where
  | nil : Aligned k ρ [] []
  | shared {s t : Subscription L} {ss ts : List (Subscription L)} (hid : (s.id, t.id) ∈ ρ.pairs)
      (hlistener : Listener.Matches k ρ s.listener t.listener) (h : Aligned k ρ ss ts) : Aligned k ρ (s :: ss) (t :: ts)
  | extra {j : SubscriptionId} {c : L} {ss ts : List (Subscription L)} (hid : j ∈ ρ.extras) (hc : k.observer c)
      (h : Aligned k ρ ss ts) : Aligned k ρ ss (⟨j, .custom c⟩ :: ts)

variable {k : Correspondence M L} {ρ ρ' : Ledger} {i j : SubscriptionId} {ss ts : List (Subscription L)}

theorem Listener.Matches.grows {l l' : Listener L} (h : Listener.Matches k ρ l l') (hρ : ρ.Grows ρ') :
    Listener.Matches k ρ' l l' := by
  cases h with
  | inbox mailbox => exact .inbox mailbox
  | canceller flag => exact .canceller flag
  | custom hc => exact .custom (k.code_grows hρ hc)

namespace Aligned

theorem grows (h : Aligned k ρ ss ts) (hρ : ρ.Grows ρ') : Aligned k ρ' ss ts := by
  induction h with
  | nil => exact .nil
  | shared hid hlistener _ ih => exact .shared (hρ.pairs hid) (hlistener.grows hρ) ih
  | extra hid hc _ ih => exact .extra (hρ.extras hid) hc ih

theorem append {ss' ts' : List (Subscription L)} (h : Aligned k ρ ss ts) (h' : Aligned k ρ ss' ts') :
    Aligned k ρ (ss ++ ss') (ts ++ ts') := by
  induction h with
  | nil => exact h'
  | shared hid hlistener _ ih => exact .shared hid hlistener ih
  | extra hid hc _ ih => exact .extra hid hc ih

/-- A shared subscription is removed from both tables. -/
theorem remove (h : Aligned k ρ ss ts) (hij : (i, j) ∈ ρ.pairs) :
    Aligned k ρ (ss.filter (·.id != i)) (ts.filter (·.id != j)) := by
  induction h with
  | nil => exact .nil
  | @shared s t ss ts hid hlistener _ ih =>
    have hsame : s.id = i ↔ t.id = j := Ledger.pairs_inj hid hij
    by_cases hs : s.id = i
    · simpa [hs, hsame.1 hs] using ih
    · have ht : t.id ≠ j := fun ht => hs (hsame.2 ht)
      simpa [hs, ht] using Aligned.shared hid hlistener ih
  | @extra j' c ss ts hid hc _ ih =>
    have hother : j' ≠ j := fun heq => Ledger.notMem_extras hij (heq ▸ hid)
    simpa [hother] using Aligned.extra hid hc ih

/-- An extra subscription is removed from the table of the fuller run. -/
theorem removeExtra (h : Aligned k ρ ss ts) (hj : j ∈ ρ.extras) : Aligned k ρ ss (ts.filter (·.id != j)) := by
  induction h with
  | nil => exact .nil
  | @shared s t ss ts hid hlistener _ ih =>
    have hother : t.id ≠ j := fun heq => Ledger.notMem_extras hid (heq ▸ hj)
    simpa [hother] using Aligned.shared hid hlistener ih
  | @extra j' c ss ts hid hc _ ih =>
    by_cases hsame : j' = j
    · simpa [hsame] using ih
    · simpa [hsame] using Aligned.extra hid hc ih

theorem exists_iff (h : Aligned k ρ ss ts) (hij : (i, j) ∈ ρ.pairs) :
    (∃ s ∈ ss, s.id = i) ↔ ∃ t ∈ ts, t.id = j := by
  induction h with
  | nil => simp
  | @shared s t ss ts hid _ _ ih => simp [ih, Ledger.pairs_inj hid hij]
  | @extra j' c ss ts hid _ _ ih =>
    have hother : j' ≠ j := fun heq => Ledger.notMem_extras hij (heq ▸ hid)
    simp [ih, hother]

end Aligned

/-! ### Buses -/

/-- The buses of two runs, with all subscriptions that a ledger tells. -/
structure Bus.Matches (k : Correspondence M L) (ρ : Ledger) (b b' : Bus L) : Prop where
  tables : ∀ name, Aligned k ρ (b.subscribed name) (b'.subscribed name)
  plain : b.nextId = ρ.plain
  fuller : b'.nextId = ρ.fuller

namespace Bus.Matches

variable {b b' : Bus L} {name : String}

theorem empty (k : Correspondence M L) (capacity capacity' : Nat) :
    Bus.Matches k .empty (Bus.empty capacity) (Bus.empty capacity') where
  tables name := by
    simp only [Bus.subscribed, Bus.empty, Std.ExtTreeMap.getElem?_empty, Option.getD_none]
    exact .nil
  plain := rfl
  fuller := rfl

/-- What is logged, and how much of it, does not matter. -/
theorem record (h : Bus.Matches k ρ b b') (n : Notification) : Bus.Matches k ρ (b.record n) (b'.record n) where
  tables name := by
    rw [subscribed_record, subscribed_record]
    exact h.tables name
  plain := by rw [nextId_record, h.plain]
  fuller := by rw [nextId_record, h.fuller]

theorem subscribe (h : Bus.Matches k ρ b b') (name : String) {l l' : Listener L}
    (hl : Listener.Matches k ρ.shared l l') :
    Bus.Matches k ρ.shared (b.subscribe name l).2 (b'.subscribe name l').2 where
  tables other := by
    have hold := fun other => (h.tables other).grows (.shared .refl)
    rw [subscribed_subscribe, subscribed_subscribe]
    split
    · refine (hold name).append (.shared ?_ hl .nil)
      rw [h.plain, h.fuller]
      exact List.mem_cons_self
    · exact hold other
  plain := congrArg (· + 1) h.plain
  fuller := congrArg (· + 1) h.fuller

theorem subscribeExtra (h : Bus.Matches k ρ b b') (name : String) {c : L} (hc : k.observer c) :
    Bus.Matches k ρ.extra b (b'.subscribe name (.custom c)).2 where
  tables other := by
    have hold := fun other => (h.tables other).grows (.extra .refl)
    rw [subscribed_subscribe]
    split
    · rename_i hname
      rw [hname, ← List.append_nil (b.subscribed name)]
      refine (hold name).append (.extra ?_ hc .nil)
      rw [h.fuller]
      exact List.mem_cons_self
    · exact hold other
  plain := h.plain
  fuller := congrArg (· + 1) h.fuller

theorem unsubscribe (h : Bus.Matches k ρ b b') (hij : (i, j) ∈ ρ.pairs) :
    (b.unsubscribe i).1 = (b'.unsubscribe j).1 ∧ Bus.Matches k ρ (b.unsubscribe i).2 (b'.unsubscribe j).2 := by
  have hlive : b.isLive i = b'.isLive j := by
    rw [Bool.eq_iff_iff, isLive_iff, isLive_iff]
    exact exists_congr fun name => (h.tables name).exists_iff hij
  refine ⟨hlive, fun name => ?_, h.plain, h.fuller⟩
  rw [subscribed_unsubscribe, subscribed_unsubscribe]
  exact (h.tables name).remove hij

theorem unsubscribeExtra (h : Bus.Matches k ρ b b') (hj : j ∈ ρ.extras) :
    Bus.Matches k ρ b (b'.unsubscribe j).2 where
  tables name := by
    rw [subscribed_unsubscribe]
    exact (h.tables name).removeExtra hj
  plain := h.plain
  fuller := h.fuller

end Bus.Matches

end VetoMachine
