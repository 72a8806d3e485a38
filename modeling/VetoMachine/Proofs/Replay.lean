import Mathlib.Data.List.Forall2
import VetoMachine.Proofs.Attempts
import VetoMachine.Proofs.StateText

/-!
# Changes replay a machine

The place of a machine can be read off its events, the cold starts and the attempts to move (`Life.place_eq`).  The
changes that its attempts publish correspond to the committed ones in order, each with the state that the machine is in
as its body, and tell where the machine is as long as it is not put elsewhere by a cold start (`Life.replays`).
-/

namespace VetoMachine

variable {M L : Type} {respond : Response M L} {es : List (Episode M L)} {e : Episode M L} {m : Machine}

/-- Something that tells where a machine is: it is put into a state without a move, or an attempt to move is made. -/
inductive Event (M L : Type) where
  | coldStart (name : String)
  | attempt (a : Attempt M L)

namespace Event

def isColdStart : Event M L → Bool
  | coldStart _ => true
  | attempt _ => false

/-- The name of the state that the machine is put into, or that a committed move leads to. -/
def place? : Event M L → Option String
  | coldStart name => some name
  | attempt a => a.outcome.arrival?

def changes : Event M L → List Notification
  | coldStart _ => []
  | attempt a => a.changes

/-- Where a machine is after events. -/
def replay (place : Option String) (events : List (Event M L)) : Option String :=
  events.foldl (fun place x => x.place?.or place) place

theorem replay_append (place : Option String) (xs ys : List (Event M L)) :
    replay place (xs ++ ys) = replay (replay place xs) ys :=
  List.foldl_append

theorem replay_of_forall_none {xs : List (Event M L)} (hxs : ∀ x ∈ xs, x.place? = none) (place : Option String) :
    replay place xs = place := by
  induction xs with
  | nil => rfl
  | cons x rest ih =>
    have hx : x.place? = none := hxs x (by simp)
    have hrest := ih fun y hy => hxs y (by simp [hy])
    rw [replay, List.foldl_cons, hx]
    exact hrest

/-- The last event that tells a place tells where the machine is. -/
theorem replay_eq (place : Option String) (xs : List (Event M L)) :
    replay place xs = (xs.filterMap place?).getLast?.or place := by
  induction xs generalizing place with
  | nil => rfl
  | cons x rest ih =>
    have hrest : replay place (x :: rest) = replay (x.place?.or place) rest := rfl
    rw [hrest, ih]
    cases hx : x.place? with
    | none => simp [hx]
    | some name => cases hlast : (rest.filterMap place?).getLast? <;> simp [hx, hlast, List.getLast?_cons]

/-- The changes tell the places that committed moves lead to. -/
theorem map_kind_changes {xs : List (Event M L)} (hattempts : ∀ x ∈ xs, x.isColdStart = false)
    (hfaithful : ∀ a, .attempt a ∈ xs → a.Faithful) :
    (xs.flatMap changes).map (·.kind) = (xs.filterMap place?).map some := by
  induction xs with
  | nil => rfl
  | cons x rest ih =>
    have hrest := ih (fun y hy => hattempts y (by simp [hy])) fun a ha => hfaithful a (by simp [ha])
    cases x with
    | coldStart name => exact absurd (hattempts _ List.mem_cons_self) nofun
    | attempt a =>
      have ha : a.Faithful := hfaithful a (by simp)
      cases ho : a.outcome with
      | committed source target =>
        obtain ⟨-, s, -, -, hchanges⟩ := ha.committed ho
        simp [changes, place?, hchanges, ho, Outcome.arrival?, hrest]
      | vetoedOnExit source target | vetoedOnEnter source target | ignored =>
        have hchanges : a.changes = [] := ha.uncommitted (by rw [ho]; rfl)
        simp [changes, place?, hchanges, ho, Outcome.arrival?, hrest]

/-- Every attempt begins where the events before it have led. -/
def Traced : Option String → List (Event M L) → Prop
  | _, [] => True
  | _, coldStart name :: rest => Traced (some name) rest
  | place, attempt a :: rest => a.before.place = place ∧ Traced (a.outcome.arrival?.or place) rest

theorem traced_append {place : Option String} {xs ys : List (Event M L)} :
    Traced place (xs ++ ys) ↔ Traced place xs ∧ Traced (replay place xs) ys := by
  induction xs generalizing place with
  | nil => simp [Traced, replay]
  | cons x rest ih =>
    cases x with
    | coldStart name => exact ih
    | attempt a =>
      rw [List.cons_append, Traced, Traced, ih, and_assoc]
      rfl

end Event

/-! ### The events of an episode -/

/-- The attempts of a chain begin where the ones before them have led, and so does what comes afterwards. -/
private theorem Attempt.Chain.traced {m' : Machine} {h h' : Hub M L} {as : List (Attempt M L)}
    (hc : Attempt.Chain m h as m' h') :
    Event.Traced m.place (as.map .attempt) ∧ m'.place = Event.replay m.place (as.map .attempt) := by
  induction hc with
  | nil => exact ⟨trivial, rfl⟩
  | cons _ ha _ ih =>
    rw [ha.place_after] at ih
    exact ⟨⟨rfl, ih.1⟩, ih.2⟩

namespace Episode

/-- The attempts to move that the machine makes. -/
def attempts (respond : Response M L) (e : Episode M L) : List (Attempt M L) :=
  match e.deed with
  | .operate op => e.before.attempts (Hub.publishWithin respond e.depth) e.fuel e.outset op
  | .populate _ => []

/-- The name of the state that the machine is put into without a move. -/
def coldStart? (e : Episode M L) : Option String := e.founder?.or e.start?

def events (respond : Response M L) (e : Episode M L) : List (Event M L) :=
  e.coldStart?.toList.map .coldStart ++ (e.attempts respond).map .attempt

end Episode

private theorem Machine.quiet_of_perform {publish : Publisher M L} {fuel : Nat} {m' : Machine} {h h' : Hub M L}
    {op : Operation} {b : Answer} (hop : op.isDriving = false)
    (hcall : m.perform publish fuel h op = some (b, m', h')) :
    m.attempts publish fuel h op = [] ∧ b.allOutcomes = [] ∧ h.Quiet h' := by
  cases op with
  | register s asInitial => cases hcall; exact ⟨rfl, rfl, .warn h _⟩
  | remove name => cases hcall; exact ⟨rfl, rfl, .refl h⟩
  | startAt name => cases hcall; exact ⟨rfl, rfl, .warn h _⟩
  | edit name change => cases hcall; exact ⟨rfl, rfl, .refl h⟩
  | editCurrent change => cases hcall; exact ⟨rfl, rfl, .refl h⟩
  | cancel | moveTo _ _ | handleAction _ _ | handleNotification _ | drain _ => cases hop

private theorem Episode.coldStart?_of_isDriving {op : Operation} (hdeed : e.deed = .operate op)
    (hop : op.isDriving = true) : e.coldStart? = none := by
  unfold coldStart? founder? registrations start?
  rw [hdeed]
  cases op <;> first | rfl | cases hop

namespace Episode.Occurs

/-- An episode makes attempts one after the other, one for every outcome, or it makes none and no deliveries. -/
private theorem attempts_cases (he : e.Occurs respond) (hs : e.before.Sound) :
    (Attempt.Chain e.before e.outset (e.attempts respond) e.after e.ending ∧
        (e.attempts respond).map (·.outcome) = e.outcomes ∧ e.coldStart? = none) ∨
      e.attempts respond = [] ∧ e.outcomes = [] ∧ e.outset.Quiet e.ending := by
  obtain ⟨op, b, hdeed, hanswer, hcall⟩ | ⟨l, hdeed, hanswer, -, hending⟩ | ⟨l, r, hdeed, hanswer, -, -, hending⟩ :=
    Machine.undergo_cases he.undergone
  · have hattempts : e.attempts respond =
        e.before.attempts (Hub.publishWithin respond e.depth) e.fuel e.outset op := by
      simp only [attempts, hdeed]
    have houtcomes : e.outcomes = b.allOutcomes := by simp only [outcomes, hanswer]
    rw [hattempts, houtcomes]
    cases hop : op.isDriving with
    | true =>
      obtain ⟨h, name, hh, hseat, houtset⟩ := he.seated
      have ha : e.outset.Apart e.before.flag := by
        rw [houtset]
        exact hh.apart hseat
      obtain ⟨hchain, hmap⟩ := Machine.chain_of_perform hs ha hop hcall
      exact .inl ⟨hchain, hmap, coldStart?_of_isDriving hdeed hop⟩
    | false => exact .inr (Machine.quiet_of_perform hop hcall)
  · right
    simp only [attempts, outcomes, hdeed, hanswer, Answer.allOutcomes, true_and]
    rw [hending]
    exact .warn _ _
  · right
    simp only [attempts, outcomes, hdeed, hanswer, true_and]
    rw [hending]
    exact .warn _ _

/-- The attempts have the outcomes and make the deliveries of the episode. -/
private theorem attempts_eq (he : e.Occurs respond) (hs : e.before.Sound) :
    (e.attempts respond).map (·.outcome) = e.outcomes ∧
      (e.attempts respond).flatMap Attempt.deliveries = e.outset.deliveriesSince e.ending ∧
      ∀ a ∈ e.attempts respond, a.Faithful := by
  obtain ⟨hchain, hmap, -⟩ | ⟨hnone, houtcomes, hquiet⟩ := he.attempts_cases hs
  · exact ⟨hmap, hchain.deliveriesSince_eq.symm, hchain.faithful⟩
  · rw [hnone, houtcomes, hquiet.deliveriesSince_eq]
    exact ⟨rfl, rfl, by simp⟩

private theorem traced (he : e.Occurs respond) (hs : e.before.Sound) :
    Event.Traced e.before.place (e.events respond) ∧
      e.after.place = Event.replay e.before.place (e.events respond) := by
  unfold events
  obtain ⟨hchain, -, hcold⟩ | ⟨hnone, houtcomes, -⟩ := he.attempts_cases hs
  · rw [hcold]
    exact hchain.traced
  · have hafter : e.after.Sound := Machine.isInvariant_sound.undergo hs he.undergone
    have hplace : e.after.place = e.coldStart?.or e.before.place := by
      rw [hafter.place_eq, hs.place_eq, he.goes.current_eq, arrival?, houtcomes]
      rfl
    rw [hnone, hplace]
    cases e.coldStart? with
    | none => exact ⟨trivial, rfl⟩
    | some name => exact ⟨trivial, rfl⟩

end Episode.Occurs

/-! ### The whole life -/

namespace Life

/-- All attempts of a life, in order. -/
def attempts (respond : Response M L) (es : List (Episode M L)) : List (Attempt M L) :=
  es.flatMap (Episode.attempts respond)

/-- All events of a life, in order. -/
def events (respond : Response M L) (es : List (Episode M L)) : List (Event M L) :=
  es.flatMap (Episode.events respond)

/-- What the machine publishes in a life beyond the events that its states declare. -/
def changes (respond : Response M L) (es : List (Episode M L)) : List Notification :=
  (attempts respond es).flatMap Attempt.changes

theorem mem_attempts_iff {a : Attempt M L} : a ∈ attempts respond es ↔ .attempt a ∈ events respond es := by
  simp [attempts, events, Episode.events]

theorem flatMap_changes_events : (events respond es).flatMap Event.changes = changes respond es := by
  have hepisode : ∀ e : Episode M L,
      (e.events respond).flatMap Event.changes = (e.attempts respond).flatMap Attempt.changes := by
    intro e
    have hcold : (e.coldStart?.toList.map Event.coldStart).flatMap (Event.changes (M := M) (L := L)) = [] := by
      cases e.coldStart? <;> rfl
    rw [Episode.events, List.flatMap_append, hcold, List.nil_append, List.flatMap_map]
    rfl
  rw [events, changes, attempts, List.flatMap_assoc, List.flatMap_assoc]
  simp only [hepisode]

private theorem attempts_eq (hlife : Life respond es m) :
    (attempts respond es).map (·.outcome) = es.flatMap Episode.outcomes ∧
      (∀ e ∈ es, (e.attempts respond).flatMap Attempt.deliveries = e.outset.deliveriesSince e.ending) ∧
      ∀ a ∈ attempts respond es, a.Faithful := by
  have hepisode : ∀ e ∈ es, (e.attempts respond).map (·.outcome) = e.outcomes ∧
      (e.attempts respond).flatMap Attempt.deliveries = e.outset.deliveriesSince e.ending ∧
      ∀ a ∈ e.attempts respond, a.Faithful := by
    intro e he
    obtain ⟨hbefore, -, hoccurs⟩ := hlife.sound_of_mem he
    exact hoccurs.attempts_eq hbefore
  refine ⟨?_, fun e he => (hepisode e he).2.1, ?_⟩
  · rw [attempts, List.map_flatMap]
    exact List.flatMap_congr fun e he => (hepisode e he).1
  · intro a ha
    obtain ⟨e, he, ha⟩ := List.mem_flatMap.1 ha
    exact (hepisode e he).2.2 a ha

private theorem traced (hlife : Life respond es m) :
    Event.Traced none (events respond es) ∧ m.place = Event.replay none (events respond es) := by
  induction hlife with
  | new flag => exact ⟨trivial, rfl⟩
  | @next es e hlife he ih =>
    obtain ⟨htraced, hplace⟩ := he.traced hlife.reachable.sound
    have hevents : events respond (es ++ [e]) = events respond es ++ e.events respond := by simp [events]
    rw [hevents, Event.traced_append, Event.replay_append, ← ih.2]
    exact ⟨⟨ih.1, htraced⟩, hplace⟩

end Life

/-- A notification tells where a committed attempt has led: its kind is the target, and its body reads as the state
that the machine is in from the commit, before the notification goes out, to the end of the attempt. -/
structure Attempt.ToldBy (a : Attempt M L) (n : Notification) : Prop where
  name : n.name = Notification.changedName
  kind : n.kind = a.outcome.arrival?
  body : ∃ s, a.after.currentState = some s ∧ State.ofText n.body.render = .ok s

private theorem Attempt.forall₂_toldBy {as : List (Attempt M L)} (has : ∀ a ∈ as, a.Faithful) :
    List.Forall₂ Attempt.ToldBy (as.filter (·.outcome.isCommitted)) (as.flatMap Attempt.changes) := by
  induction as with
  | nil => exact .nil
  | cons a rest ih =>
    have ha : a.Faithful := has a (by simp)
    have hrest := ih fun x hx => has x (by simp [hx])
    cases ho : a.outcome with
    | committed source target =>
      obtain ⟨-, s, hcurrent, -, hchanges⟩ := ha.committed ho
      rw [List.filter_cons, ho, Outcome.isCommitted, if_pos rfl, List.flatMap_cons, hchanges]
      exact .cons ⟨rfl, by rw [ho]; rfl, s, hcurrent, s.ofText_render⟩ hrest
    | vetoedOnExit source target | vetoedOnEnter source target | ignored =>
      have hchanges : a.changes = [] := ha.uncommitted (by rw [ho]; rfl)
      have hno : ¬ a.outcome.isCommitted = true := by
        rw [ho]
        exact Bool.false_ne_true
      rw [List.filter_cons, if_neg hno, List.flatMap_cons, hchanges]
      exact hrest

/-- The attempts of a life have its outcomes and make its deliveries.  The changes that the machine publishes correspond
to the committed attempts in order, each telling its target and the state that the machine is then in.  If one committed
attempt follows another with no commit and no cold start in between, it leaves the state that the other has led to.
After a commit, as long as there is no cold start, the last change tells where the machine is. -/
theorem Life.replays (hlife : Life respond es m) :
    (attempts respond es).map (·.outcome) = es.flatMap Episode.outcomes ∧
    (∀ e ∈ es, (e.attempts respond).flatMap Attempt.deliveries = e.outset.deliveriesSince e.ending) ∧
    List.Forall₂ Attempt.ToldBy ((attempts respond es).filter (·.outcome.isCommitted)) (changes respond es) ∧
    (∀ {before between later a b source target source' target'},
      events respond es = before ++ .attempt a :: (between ++ .attempt b :: later) →
      (∀ x ∈ between, x.place? = none) → a.outcome = .committed source target →
      b.outcome = .committed source' target' → source' = some target) ∧
    ∀ {before later a}, events respond es = before ++ .attempt a :: later → a.outcome.isCommitted = true →
      (∀ x ∈ later, x.isColdStart = false) →
      ∃ change, (changes respond es).getLast? = some change ∧ m.place = change.kind := by
  obtain ⟨houtcomes, hdeliveries, hfaithful⟩ := hlife.attempts_eq
  obtain ⟨htraced, hplace⟩ := hlife.traced
  refine ⟨houtcomes, hdeliveries, Attempt.forall₂_toldBy hfaithful, ?_, ?_⟩
  · intro before between later a b source target source' target' hevents hbetween ha hb
    have hbmem : .attempt b ∈ events respond es := by simp [hevents]
    obtain ⟨rfl, -⟩ := (hfaithful b (mem_attempts_iff.2 hbmem)).committed hb
    rw [hevents, Event.traced_append] at htraced
    obtain ⟨-, -, hrest⟩ := htraced
    rw [Event.traced_append, Event.replay_of_forall_none hbetween, ha] at hrest
    exact hrest.2.1
  · intro before later a hevents ha hlater
    obtain ⟨source, target, ho⟩ : ∃ source target, a.outcome = .committed source target := by
      cases ho : a.outcome <;> simp [ho, Outcome.isCommitted] at ha
      exact ⟨_, _, rfl⟩
    -- the events from the commit on
    let xs : List (Event M L) := .attempt a :: later
    have hkinds : (xs.flatMap Event.changes).map (·.kind) = (xs.filterMap Event.place?).map some := by
      refine Event.map_kind_changes (List.forall_mem_cons.2 ⟨rfl, hlater⟩) fun b hb => ?_
      have hbmem : .attempt b ∈ events respond es := by
        rw [hevents]
        exact List.mem_append_right before hb
      exact hfaithful b (mem_attempts_iff.2 hbmem)
    have hsome : xs.filterMap Event.place? ≠ [] := by simp [xs, Event.place?, ho, Outcome.arrival?]
    obtain ⟨last, hlast⟩ := Option.ne_none_iff_exists'.1 (mt List.getLast?_eq_none_iff.1 hsome)
    have hlastChange : (xs.flatMap Event.changes).getLast?.map (·.kind) = some (some last) := by
      rw [← List.getLast?_map, hkinds, List.getLast?_map, hlast]
      rfl
    obtain ⟨change, hchange, hkind⟩ := Option.map_eq_some_iff.1 hlastChange
    refine ⟨change, ?_, ?_⟩
    · rw [← flatMap_changes_events, hevents, List.flatMap_append, List.getLast?_append, hchange]
      rfl
    · rw [hplace, hevents, Event.replay_append, Event.replay_eq, hlast, hkind]
      rfl

/-- The changes of a door that is opened and closed tell so, although its state `open` is removed in the meantime. -/
theorem Life.replays_door : ∃ (es : List (Episode Unit FlagId)) (m : Machine) (a b : Attempt Unit FlagId),
    Life silence es m ∧ events silence es = [.coldStart "closed", .attempt a, .attempt b] ∧
    (changes silence es).map (·.kind) = [some "open", some "closed"] ∧ b.outcome = .committed (some "open") "closed" ∧
    m.place = some "closed" := by
  obtain ⟨e₁, e₂, e₃, e₄, e₅, m, hlife, houtcomes, hfounders, hstarts⟩ := Life.exists_door
  let es := [e₁, e₂, e₃, e₄, e₅]
  simp only [List.map_cons, List.map_nil, List.cons.injEq, and_true] at houtcomes hfounders
  obtain ⟨ho₁, ho₂, ho₃, ho₄, ho₅⟩ := houtcomes
  obtain ⟨hf₁, hf₂, hf₃, hf₄, hf₅⟩ := hfounders
  -- every outcome is that of an attempt of its episode
  have hepisode : ∀ e ∈ es, (e.attempts silence).map (·.outcome) = e.outcomes := by
    intro e he
    obtain ⟨hbefore, -, hoccurs⟩ := hlife.sound_of_mem he
    exact (hoccurs.attempts_eq hbefore).1
  have ha₁ : e₁.attempts silence = [] := List.map_eq_nil_iff.1 ((hepisode e₁ (by simp [es])).trans ho₁)
  have ha₂ : e₂.attempts silence = [] := List.map_eq_nil_iff.1 ((hepisode e₂ (by simp [es])).trans ho₂)
  obtain ⟨a, ha₃, ha⟩ := List.map_eq_singleton_iff.1 ((hepisode e₃ (by simp [es])).trans ho₃)
  have ha₄ : e₄.attempts silence = [] := List.map_eq_nil_iff.1 ((hepisode e₄ (by simp [es])).trans ho₄)
  obtain ⟨b, ha₅, hb⟩ := List.map_eq_singleton_iff.1 ((hepisode e₅ (by simp [es])).trans ho₅)
  have hevents : events silence es = [.coldStart "closed", .attempt a, .attempt b] := by
    simp [es, events, Episode.events, Episode.coldStart?, hf₁, hf₂, hf₃, hf₄, hf₅, ha₁, ha₂, ha₃, ha₄, ha₅,
      hstarts e₂, hstarts e₃, hstarts e₄, hstarts e₅]
  have hattempts : attempts silence es = [a, b] := by simp [es, attempts, ha₁, ha₂, ha₃, ha₄, ha₅]
  obtain ⟨-, -, htold, -, hlast⟩ := hlife.replays
  have hkinds : (changes silence es).map (·.kind) = [some "open", some "closed"] := by
    rw [hattempts] at htold
    simp only [List.filter_cons, ha, hb, Outcome.isCommitted, if_true, List.filter_nil] at htold
    obtain ⟨n, ns, hn, htold, hns⟩ := List.forall₂_cons_left_iff.1 htold
    obtain ⟨k, ks, hk, hnil, hks⟩ := List.forall₂_cons_left_iff.1 htold
    rw [List.forall₂_nil_left_iff] at hnil
    rw [hns, hks, hnil, List.map_cons, List.map_cons, hn.kind, hk.kind, ha, hb]
    rfl
  have hsplit : events silence es = [.coldStart "closed", .attempt a] ++ .attempt b :: [] := hevents
  obtain ⟨change, hchange, hplace⟩ := hlast hsplit (by rw [hb]; rfl) (by simp)
  have hclosed : change.kind = some "closed" := by
    have hmap : (changes silence es).getLast?.map (·.kind) = some change.kind := by rw [hchange]; rfl
    rw [← List.getLast?_map, hkinds] at hmap
    exact (Option.some.inj hmap).symm
  exact ⟨es, m, a, b, hlife, hevents, hkinds, hb, hplace.trans hclosed⟩

end VetoMachine
