import Mathlib.Data.List.Induction
import Mathlib.Data.List.Nodup
import VetoMachine.Proofs.BusCalls

/-!
# The table of subscriptions

What a sequence of calls makes of the subscriptions of a bus is told by its answers: the subscriptions that it made
(`Bus.made`) and the identifiers that it removed (`Bus.removed`).  Whoever has been made and not been removed is
subscribed, in the order of making (`Bus.Tallies`).  From this follows what the calls promise each other, those that
listeners make included (`Bus.subscription_table`).
-/

namespace VetoMachine

variable {M L : Type}

namespace Bus

namespace Act

def isSubscribe : Act L → Bool
  | .subscribe _ _ => true
  | _ => false

def subscribesTo (name : String) : Act L → Bool
  | .subscribe other _ => other = name
  | _ => false

end Act

/-- The subscription that a call makes, with the name it is for. -/
def madeBy (b : Bus L) : Act L → List (String × Subscription L)
  | .subscribe name listener => [(name, ⟨(b.subscribe name listener).1, listener⟩)]
  | _ => []

/-- The identifier that a call removes, as its answer tells. -/
def removedBy (b : Bus L) : Act L → List SubscriptionId
  | .unsubscribe id => if (b.unsubscribe id).1 then [id] else []
  | _ => []

/-- All subscriptions that a sequence of calls makes, with the names they are for. -/
def made : Bus L → List (Act L) → List (String × Subscription L)
  | _, [] => []
  | b, act :: rest => b.madeBy act ++ made (b.perform act) rest

/-- All identifiers that a sequence of calls removes. -/
def removed : Bus L → List (Act L) → List SubscriptionId
  | _, [] => []
  | b, act :: rest => b.removedBy act ++ removed (b.perform act) rest

variable {b b' : Bus L} {acts : List (Act L)}

private theorem after_snoc (b : Bus L) (acts : List (Act L)) (act : Act L) :
    b.after (acts ++ [act]) = (b.after acts).perform act := after_append b acts [act]

private theorem made_snoc (b : Bus L) (acts : List (Act L)) (act : Act L) :
    b.made (acts ++ [act]) = b.made acts ++ (b.after acts).madeBy act := by
  induction acts generalizing b with
  | nil => exact List.append_nil _
  | cons first rest ih =>
    rw [List.cons_append, made, ih, made, List.append_assoc]
    rfl

private theorem removed_snoc (b : Bus L) (acts : List (Act L)) (act : Act L) :
    b.removed (acts ++ [act]) = b.removed acts ++ (b.after acts).removedBy act := by
  induction acts generalizing b with
  | nil => exact List.append_nil _
  | cons first rest ih =>
    rw [List.cons_append, removed, ih, removed, List.append_assoc]
    rfl

/-- Whatever operations lead to comes of a sequence of calls. -/
theorem Leads.exists_acts (h : b.Leads b') : ∃ acts, b' = b.after acts := by
  induction h with
  | refl => exact ⟨[], rfl⟩
  | @tail k k' _ hstep ih =>
    obtain ⟨acts, rfl⟩ := ih
    have hsnoc : ∀ act, (b.after acts).perform act = b.after (acts ++ [act]) := fun act => (after_snoc b acts act).symm
    cases hstep with
    | record n => exact ⟨_, hsnoc (.record n)⟩
    | clearLog => exact ⟨_, hsnoc .clearLog⟩
    | subscribe name listener => exact ⟨_, hsnoc (.subscribe name listener)⟩
    | unsubscribe id => exact ⟨_, hsnoc (.unsubscribe id)⟩

/-! ### Who is subscribed -/

/-- The subscriptions on a bus are those made without those removed. -/
structure Tallies (b : Bus L) (added : List (String × Subscription L)) (gone : List SubscriptionId) : Prop where
  ids : added.map (·.2.id) = List.range b.nextId
  issued : ∀ id ∈ gone, id < b.nextId
  once : gone.Nodup
  subscribed : ∀ name, b.subscribed name = ((added.filter (·.1 = name)).map (·.2)).filter (·.id ∉ gone)
  /-- No name keeps an empty list. -/
  occupied : ∀ name : String, b.table[name]? ≠ some []

private theorem occupied_subscribe (hb : ∀ name : String, b.table[name]? ≠ some []) (name : String)
    (listener : Listener L) (other : String) : (b.subscribe name listener).2.table[other]? ≠ some [] := by
  rw [subscribe, Std.ExtTreeMap.getElem?_insert]
  split
  · simp
  · exact hb other

private theorem occupied_unsubscribe (b : Bus L) (id : SubscriptionId) (name : String) :
    (b.unsubscribe id).2.table[name]? ≠ some [] := by
  rw [unsubscribe, Std.ExtTreeMap.getElem?_filterMap']
  cases b.table[name]? with
  | none => simp
  | some subscriptions =>
    rw [Option.bind_some, without?]
    cases subscriptions.filter (·.id != id) <;> simp

namespace Tallies

variable {added : List (String × Subscription L)} {gone : List SubscriptionId}

theorem mem_subscribed (hb : b.Tallies added gone) {name : String} {s : Subscription L} :
    s ∈ b.subscribed name ↔ (name, s) ∈ added ∧ s.id ∉ gone := by
  rw [hb.subscribed, List.mem_filter, decide_eq_true_eq, List.mem_map]
  refine and_congr_left fun _ => ⟨?_, ?_⟩
  · rintro ⟨⟨other, s⟩, hp, rfl⟩
    obtain ⟨hmade, hname⟩ := List.mem_filter.1 hp
    rwa [← of_decide_eq_true hname]
  · intro hmade
    exact ⟨(name, s), List.mem_filter.2 ⟨hmade, decide_eq_true rfl⟩, rfl⟩

theorem isLive_iff (hb : b.Tallies added gone) {id : SubscriptionId} :
    b.isLive id = true ↔ id ∈ added.map (·.2.id) ∧ id ∉ gone := by
  rw [Bus.isLive_iff]
  constructor
  · rintro ⟨name, s, hs, rfl⟩
    obtain ⟨hmade, hkept⟩ := hb.mem_subscribed.1 hs
    exact ⟨List.mem_map.2 ⟨(name, s), hmade, rfl⟩, hkept⟩
  · rintro ⟨hid, hkept⟩
    obtain ⟨⟨name, s⟩, hmade, rfl⟩ := List.mem_map.1 hid
    exact ⟨name, s, hb.mem_subscribed.2 ⟨hmade, hkept⟩, rfl⟩

/-- No two subscriptions have the same identifier, whatever names they are for. -/
theorem apart (hb : b.Tallies added gone) {name name' : String} {s s' : Subscription L} (hs : s ∈ b.subscribed name)
    (hs' : s' ∈ b.subscribed name') (hid : s.id = s'.id) : name = name' ∧ s = s' := by
  have hnodup : (added.map (·.2.id)).Nodup := hb.ids ▸ List.nodup_range
  have heq := List.inj_on_of_nodup_map hnodup (hb.mem_subscribed.1 hs).1 (hb.mem_subscribed.1 hs').1 hid
  exact ⟨congrArg Prod.fst heq, congrArg Prod.snd heq⟩

theorem nodup_subscribed (hb : b.Tallies added gone) (name : String) : ((b.subscribed name).map (·.id)).Nodup := by
  have hnodup : (added.map (·.2.id)).Nodup := hb.ids ▸ List.nodup_range
  have hmade : (((added.filter (·.1 = name)).map (·.2)).map (·.id)).Sublist (added.map (·.2.id)) := by
    rw [List.map_map]
    exact List.filter_sublist.map _
  rw [hb.subscribed]
  exact hnodup.sublist ((List.filter_sublist.map _).trans hmade)

/-- Unsubscribing takes one subscription out of its place and leaves all others in theirs. -/
theorem subscribed_unsubscribe_of_eq (hb : b.Tallies added gone) {name : String} {s : Subscription L}
    {xs ys : List (Subscription L)} (hname : b.subscribed name = xs ++ s :: ys) (other : String) :
    (b.unsubscribe s.id).2.subscribed other = if other = name then xs ++ ys else b.subscribed other := by
  have hs : s ∈ b.subscribed name := by simp [hname]
  rw [subscribed_unsubscribe]
  split
  · rename_i hother
    have hnodup := hb.nodup_subscribed name
    rw [hname, List.map_append, List.map_cons, List.nodup_middle, List.nodup_cons, ← List.map_append] at hnodup
    have hrest : ∀ s' ∈ xs ++ ys, (s'.id != s.id) = true := by
      intro s' hs'
      have hne : s'.id ≠ s.id := fun hid => hnodup.1 (hid ▸ List.mem_map_of_mem hs')
      simpa using hne
    rw [hother, hname, List.filter_append, List.filter_cons_of_neg (by simp), ← List.filter_append]
    exact List.filter_eq_self.2 hrest
  · rename_i hother
    refine List.filter_eq_self.2 fun s' hs' => ?_
    have hne : s'.id ≠ s.id := fun hid => hother (hb.apart hs' hs hid).1
    simpa using hne

private theorem subscribe (hb : b.Tallies added gone) (name : String) (listener : Listener L) :
    (b.subscribe name listener).2.Tallies (added ++ [(name, ⟨b.nextId, listener⟩)]) gone where
  ids := by
    have hnext : (b.subscribe name listener).2.nextId = b.nextId + 1 := rfl
    rw [List.map_append, hb.ids, hnext, List.range_succ]
    rfl
  issued id hid := Nat.lt_succ_of_lt (hb.issued id hid)
  once := hb.once
  subscribed other := by
    have hnew : b.nextId ∉ gone := fun hid => Nat.lt_irrefl _ (hb.issued _ hid)
    rw [subscribed_subscribe, List.filter_append, List.map_append, List.filter_append, ← hb.subscribed]
    by_cases hname : other = name
    · subst hname
      simp [hnew]
    · simp [hname, Ne.symm hname]
  occupied := occupied_subscribe hb.occupied name listener

private theorem unsubscribe (hb : b.Tallies added gone) (id : SubscriptionId) :
    (b.unsubscribe id).2.Tallies added (gone ++ b.removedBy (.unsubscribe id)) := by
  have hanswer : b.removedBy (.unsubscribe id) = if b.isLive id then [id] else [] := rfl
  rw [hanswer]
  by_cases hlive : b.isLive id = true
  · obtain ⟨hmade, hkept⟩ := hb.isLive_iff.1 hlive
    have hissued : id < b.nextId := by rwa [hb.ids, List.mem_range] at hmade
    rw [if_pos hlive]
    refine ⟨hb.ids, ?_, ?_, ?_, occupied_unsubscribe b id⟩
    · simpa [or_imp, forall_and] using ⟨hb.issued, hissued⟩
    · have hapart : ∀ other ∈ gone, other ≠ id := fun other hother heq => hkept (heq ▸ hother)
      simpa [List.nodup_append, hb.once] using hapart
    · intro name
      rw [subscribed_unsubscribe, hb.subscribed, List.filter_filter]
      refine List.filter_congr fun s _ => ?_
      by_cases hs : s.id = id <;> simp [hs]
  · rw [if_neg hlive, List.append_nil]
    refine ⟨hb.ids, hb.issued, hb.once, ?_, occupied_unsubscribe b id⟩
    intro name
    rw [subscribed_unsubscribe, ← hb.subscribed, List.filter_eq_self]
    intro s hs
    have hne : s.id ≠ id := fun hid => hlive (Bus.isLive_iff.2 ⟨name, s, hs, hid⟩)
    simpa using hne

private theorem perform (hb : b.Tallies added gone) (act : Act L) :
    (b.perform act).Tallies (added ++ b.madeBy act) (gone ++ b.removedBy act) := by
  cases act with
  | record n =>
    have htable : (b.record n).table = b.table := by
      unfold Bus.record
      split <;> rfl
    have hmade : added ++ b.madeBy (.record n) = added := List.append_nil added
    have hremoved : gone ++ b.removedBy (.record n) = gone := List.append_nil gone
    rw [hmade, hremoved]
    refine ⟨?_, ?_, hb.once, ?_, ?_⟩
    · rw [Bus.perform, nextId_record, hb.ids]
    · rw [Bus.perform, nextId_record]
      exact hb.issued
    · intro name
      rw [Bus.perform, subscribed_record, hb.subscribed]
    · rw [Bus.perform, htable]
      exact hb.occupied
  | clearLog =>
    have hmade : added ++ b.madeBy .clearLog = added := List.append_nil added
    have hremoved : gone ++ b.removedBy .clearLog = gone := List.append_nil gone
    rw [hmade, hremoved]
    exact ⟨hb.ids, hb.issued, hb.once, hb.subscribed, hb.occupied⟩
  | subscribe name listener =>
    have hremoved : gone ++ b.removedBy (.subscribe name listener) = gone := List.append_nil gone
    rw [hremoved]
    exact hb.subscribe name listener
  | unsubscribe id =>
    have hmade : added ++ b.madeBy (.unsubscribe id) = added := List.append_nil added
    rw [hmade]
    exact hb.unsubscribe id

end Tallies

/-- What a sequence of calls makes of an empty bus. -/
theorem tallies_after (capacity : Nat) (acts : List (Act L)) :
    ((empty capacity).after acts).Tallies ((empty capacity).made acts) ((empty capacity).removed acts) := by
  induction acts using List.reverseRecOn with
  | nil => exact ⟨rfl, nofun, List.nodup_nil, by simp [subscribed, empty, after, made], by simp [empty, after]⟩
  | append_singleton acts act ih =>
    rw [after_snoc, made_snoc, removed_snoc]
    exact ih.perform act

theorem Reachable.exists_tallies (hb : b.Reachable) :
    ∃ (added : List (String × Subscription L)) (gone : List SubscriptionId), b.Tallies added gone := by
  obtain ⟨capacity, hleads⟩ := hb
  obtain ⟨acts, rfl⟩ := hleads.exists_acts
  exact ⟨_, _, tallies_after capacity acts⟩

/-! ### What the calls promise -/

theorem length_made (b : Bus L) (acts : List (Act L)) : (b.made acts).length = acts.countP Act.isSubscribe := by
  induction acts generalizing b with
  | nil => rfl
  | cons act rest ih =>
    rw [made, List.length_append, ih, List.countP_cons, Nat.add_comm]
    cases act <;> rfl

theorem length_filter_made (b : Bus L) (acts : List (Act L)) (name : String) :
    ((b.made acts).filter (·.1 = name)).length = acts.countP (Act.subscribesTo name) := by
  induction acts generalizing b with
  | nil => rfl
  | cons act rest ih =>
    rw [made, List.filter_append, List.length_append, ih, List.countP_cons, Nat.add_comm]
    cases act with
    | subscribe other listener =>
      by_cases hother : other = name <;> simp [madeBy, Act.subscribesTo, hother]
    | record _ | clearLog | unsubscribe _ => rfl

/-- The identifiers handed out for a name. -/
def idsFor (added : List (String × Subscription L)) (name : String) : List SubscriptionId :=
  (added.filter (·.1 = name)).map (·.2.id)

/-- Who is asked to remove what is not there does nothing. -/
theorem unsubscribe_of_not_isLive (hoccupied : ∀ name : String, b.table[name]? ≠ some []) {id : SubscriptionId}
    (hid : b.isLive id = false) : b.unsubscribe id = (false, b) := by
  have htable : (b.table.filterMap fun _ subscriptions => without? id subscriptions) = b.table := by
    refine Std.ExtTreeMap.ext_getElem? fun name => ?_
    rw [Std.ExtTreeMap.getElem?_filterMap']
    cases hname : b.table[name]? with
    | none => rfl
    | some subscriptions =>
      have hkept : subscriptions.filter (·.id != id) = subscriptions := by
        refine List.filter_eq_self.2 fun s hs => ?_
        have hlive : s ∈ b.subscribed name := by rwa [Bus.subscribed, hname]
        have hne : s.id ≠ id := fun heq => Bool.eq_false_iff.1 hid (isLive_iff.2 ⟨name, s, hlive, heq⟩)
        simpa using hne
      rw [Option.bind_some, without?, hkept]
      cases subscriptions with
      | nil => exact absurd hname (hoccupied name)
      | cons s rest => rfl
  rw [Bus.unsubscribe, hid, htable]

theorem not_isLive_unsubscribe (b : Bus L) (id : SubscriptionId) : (b.unsubscribe id).2.isLive id = false := by
  refine Bool.eq_false_iff.2 fun hlive => ?_
  obtain ⟨name, s, hs, hid⟩ := isLive_iff.1 hlive
  rw [subscribed_unsubscribe, List.mem_filter] at hs
  simp [hid] at hs

/-- Of the identifiers handed out for a name, some have been removed, and the others are subscribed. -/
theorem Tallies.subscriberCount_add {added : List (String × Subscription L)} {gone : List SubscriptionId}
    (hb : b.Tallies added gone) (name : String) :
    b.subscriberCount name + gone.countP (· ∈ idsFor added name) = (added.filter (·.1 = name)).length := by
  let ids := idsFor added name
  have hids : ids.Nodup := by
    have hall : (added.map (·.2.id)).Nodup := hb.ids ▸ List.nodup_range
    exact hall.sublist (List.filter_sublist.map _)
  have hgone : gone.countP (· ∈ ids) = ids.countP (· ∈ gone) := by
    rw [List.countP_eq_length_filter, List.countP_eq_length_filter]
    refine List.Perm.length_eq ((List.perm_ext_iff_of_nodup (hb.once.filter _) (hids.filter _)).2 fun id => ?_)
    simp [and_comm]
  have hkept : b.subscriberCount name = ids.countP (· ∉ gone) := by
    simp only [subscriberCount, hb.subscribed, ← List.countP_eq_length_filter, ids, idsFor, List.countP_map]
    rfl
  have hlength : (added.filter (·.1 = name)).length = ids.length := (List.length_map _).symm
  rw [hkept, hgone, hlength, List.length_eq_countP_add_countP (· ∈ gone), Nat.add_comm]
  simp

/-- As long as they fit into 64 bits, identifiers are distinct as numbers of that size, too. -/
theorem Tallies.nodup_words {added : List (String × Subscription L)} {gone : List SubscriptionId}
    (hb : b.Tallies added gone) (hfew : b.nextId < UInt64.size) :
    (added.map fun p => UInt64.ofNat p.2.id).Nodup := by
  have hids : added.map (fun p => UInt64.ofNat p.2.id) = (List.range b.nextId).map UInt64.ofNat := by
    rw [← hb.ids, List.map_map]
    rfl
  have hword : ∀ {id}, id ∈ List.range b.nextId → (UInt64.ofNat id).toNat = id := fun hid =>
    UInt64.toNat_ofNat_of_lt' (Nat.lt_trans (List.mem_range.1 hid) hfew)
  rw [hids]
  refine List.nodup_range.map_on fun i hi j hj hij => ?_
  rw [← hword hi, ← hword hj, hij]

/-- What the calls of a bus promise: `added` and `gone` are what was made and removed by `acts`, which led to `b`. -/
structure Orderly (acts : List (Act L)) (b : Bus L) (added : List (String × Subscription L))
    (gone : List SubscriptionId) : Prop where
  /-- Every call to subscribe hands out an identifier, and all of them are distinct, as 64-bit numbers, too. -/
  issues : added.length = acts.countP Act.isSubscribe ∧ (added.map fun p => UInt64.ofNat p.2.id).Nodup
  /-- Subscribed to a name are those made for it and not removed, in the order in which they were made. -/
  subscribed : ∀ name, b.subscribed name = ((added.filter (·.1 = name)).map (·.2)).filter (·.id ∉ gone)
  /-- What can be removed is what has been handed out and has not been removed. -/
  answers : ∀ id, (b.unsubscribe id).1 = true ↔ id ∈ added.map (·.2.id) ∧ id ∉ gone
  /-- The answer tells whether the subscription was live. -/
  live : ∀ id, (b.unsubscribe id).1 = true ↔ ∃ name, ∃ s ∈ b.subscribed name, s.id = id
  /-- Only the subscription itself goes, and all others keep their places. -/
  removes : ∀ {name s xs ys}, b.subscribed name = xs ++ s :: ys → ∀ other,
    (b.unsubscribe s.id).2.subscribed other = if other = name then xs ++ ys else b.subscribed other
  refuses : ∀ id, (b.unsubscribe id).1 = false → (b.unsubscribe id).2 = b
  again : ∀ id, (b.unsubscribe id).2.unsubscribe id = (false, (b.unsubscribe id).2)
  occupied : ∀ name : String, b.table[name]? ≠ some []
  counts : ∀ name, b.subscriberCount name + gone.countP (· ∈ idsFor added name) = acts.countP (Act.subscribesTo name)

/-- As long as identifiers do not run out, every sequence of calls leaves the table in order.  At every moment of a run,
also while listeners are under way, the bus is what the calls that have been made by then make of an empty one, and a
delivery continues these calls with the notification and whatever its listeners call.  The journal tells the same of
them. -/
theorem subscription_table (respond : Response M L) (capacity : Nat) :
    (∀ acts : List (Act L), acts.countP Act.isSubscribe < UInt64.size →
      Orderly acts ((empty capacity).after acts) ((empty capacity).made acts) ((empty capacity).removed acts)) ∧
    (∀ h : Hub M L, h.Moment respond capacity →
      ∃ acts, h.MomentAfter respond capacity acts ∧ h.bus = (empty capacity).after acts ∧
        h.bus.nextId = acts.countP Act.isSubscribe ∧
        h.journal.reverse.filter (fun e => !e.isAside) = acts.filterMap Act.entry?) ∧
    ∀ {acts depth n} {h h' : Hub M L}, h.bus = (empty capacity).after acts →
      Hub.publishWithin respond depth n h = some h' →
        ∃ calls, Hub.PublishMakes respond depth n h (.record n :: calls) h' ∧
          h'.bus = (empty capacity).after (acts ++ .record n :: calls) ∧
          (h.entriesSince h').filter (fun e => !e.isAside) = .opened n :: calls.filterMap Act.entry? := by
  have hnext : ∀ acts : List (Act L), ((empty capacity).after acts).nextId = acts.countP Act.isSubscribe := by
    intro acts
    have hlength := congrArg List.length (tallies_after capacity acts).ids
    rw [List.length_map, List.length_range, length_made] at hlength
    exact hlength.symm
  refine ⟨?_, ?_, ?_⟩
  · intro acts hfew
    have hb := tallies_after capacity acts
    refine
      { issues := ⟨length_made _ acts, hb.nodup_words (hnext acts ▸ hfew)⟩
        subscribed := hb.subscribed
        answers := fun _ => hb.isLive_iff
        live := fun _ => isLive_iff
        removes := hb.subscribed_unsubscribe_of_eq
        refuses := ?_
        again := ?_
        occupied := hb.occupied
        counts := ?_ }
    · intro id hid
      rw [unsubscribe_of_not_isLive hb.occupied hid]
    · intro id
      exact unsubscribe_of_not_isLive (occupied_unsubscribe _ id) (not_isLive_unsubscribe _ id)
    · intro name
      rw [hb.subscriberCount_add, length_filter_made]
  · intro h hh
    obtain ⟨acts, hafter⟩ := Hub.moment_iff_after.1 hh
    obtain ⟨memory, hbus, es, hjournal, hes⟩ := hafter.performs
    have hbus : h.bus = (empty capacity).after acts := hbus
    have hjournal : h.journal = es.reverse := by
      rw [hjournal]
      exact List.append_nil _
    refine ⟨acts, hafter, hbus, by rw [hbus, hnext], ?_⟩
    rw [hjournal, List.reverse_reverse, hes]
  · intro acts depth n h h' hbus hpub
    obtain ⟨made, hmakes⟩ := Hub.publishWithin_iff_makes.1 hpub
    obtain ⟨hafter, es, hjournal, hes⟩ := hmakes.performs
    obtain ⟨calls, rfl⟩ := hmakes.exists_cons
    refine ⟨calls, hmakes, ?_, ?_⟩
    · rw [hafter, hbus, after_append]
    · rw [Hub.entriesSince_eq hjournal, hes]
      rfl

/-- Listeners that unsubscribe the first of all. -/
def ousting : Response Unit Unit := fun _ _ => .unsubscribe 0 fun _ => .done

def oustingHub : Hub Unit Unit := ((Hub.empty 8 ()).subscribe "tick" (.custom ())).2

/-- Two listeners of one name and one of another; the first is unsubscribed, and then once more in vain. -/
def oustingActs : List (Act Unit) :=
  [.subscribe "tick" (.custom ()), .subscribe "tock" (.custom ()), .subscribe "tick" (.custom ()), .unsubscribe 0,
    .unsubscribe 0]

/-- A listener of this kind makes one call. -/
private theorem acts_eq_of_ousting {n : Notification} {publish : Publisher Unit Unit} {P : Calling Unit Unit}
    {h h' : Hub Unit Unit} {s : Subscription Unit} {acts : List (Act Unit)} (hs : s.listener = .custom ())
    (hcalls : Hub.CallsMake ousting publish P n [s] h acts h') : acts = [.unsubscribe 0] := by
  cases hcalls with
  | cons hfirst hrest =>
    rw [hs] at hfirst
    cases hrest
    obtain _ | _ | hprogram := hfirst
    cases hprogram with
    | unsubscribe hnext =>
      cases hnext
      rfl

/-- The second listener of the name is left.  A listener may be what unsubscribes the first, and then its call comes
after that of the notification. -/
theorem subscription_table_ousting :
    Orderly oustingActs ((empty 8).after oustingActs) ((empty 8).made oustingActs) ((empty 8).removed oustingActs) ∧
    (((empty 8).after oustingActs).subscribed "tick").map (·.id) = [2] ∧ (empty 8).removed oustingActs = [0] ∧
    (∃ (h : Hub Unit Unit) (acts : List (Act Unit)), h.Moment ousting 8 ∧ publishedIn h.journal ≠ [] ∧
      h.bus.subscriberCount "tick" = 0 ∧ h.MomentAfter ousting 8 acts ∧ h.bus = (empty 8).after acts ∧
      h.bus.nextId = acts.countP Act.isSubscribe) ∧
    let n : Notification := ⟨"tick", .null, none⟩
    ∃ h', Hub.publishWithin ousting 1 n oustingHub = some h' ∧
      Hub.PublishMakes ousting 1 n oustingHub [.record n, .unsubscribe 0] h' ∧
      h'.bus = (empty 8).after [.subscribe "tick" (.custom ()), .record n, .unsubscribe 0] := by
  obtain ⟨hcalls, hmoments, hdeliveries⟩ := subscription_table ousting 8
  refine ⟨hcalls oustingActs (by decide), by decide +kernel, by decide +kernel, ?_, ?_⟩
  · have hmoment : oustingHub.Moment ousting 8 := (Hub.Moment.start ()).serve 0 0 (.subscribe "tick" ()) rfl
    have hlistener : oustingHub.bus.subscribed "tick" = [] ++ ⟨0, .custom ()⟩ :: [] := by rfl
    let n : Notification := ⟨"tick", .null, none⟩
    have hcalled := (hmoment.call (n := n) 0 hlistener rfl).run 0 (r := ousting () n) rfl
    obtain ⟨acts, hafter, hacts, hnext, -⟩ := hmoments _ hcalled
    exact ⟨_, acts, hcalled, nofun, by decide +kernel, hafter, hacts, hnext⟩
  · intro n
    have hname : n.name = "tick" := rfl
    have hlistener : oustingHub.bus.subscribed "tick" = [⟨0, .custom ()⟩] := by rfl
    have hbus : oustingHub.bus = (empty 8).after [.subscribe "tick" (.custom ())] := rfl
    obtain ⟨h', hpub⟩ : ∃ h', Hub.publishWithin ousting 1 n oustingHub = some h' := by
      rw [Hub.publishWithin, hname, hlistener]
      exact ⟨_, rfl⟩
    obtain ⟨calls, hmakes, hafter, -⟩ := hdeliveries hbus hpub
    have hcalls : calls = [.unsubscribe 0] := by
      obtain ⟨inner, k, hinner, heq, -⟩ := hmakes
      obtain rfl := (List.cons.inj heq).2
      rw [hname, hlistener] at hinner
      exact acts_eq_of_ousting rfl hinner
    rw [hcalls] at hmakes hafter
    exact ⟨h', hpub, hmakes, hafter⟩

end Bus

end VetoMachine
