import VetoMachine.Proofs.Seats
import VetoMachine.Proofs.SparedMailboxes

/-!
# Draining a mailbox

A drain takes turns: each handles the oldest action that waits in the mailbox, on the machine as the turn before left
it (`Machine.Turns`).  In all it handles what waited at the call and what comes into the mailbox under way, each
action once and in that order, and what a turn publishes is delivered before the next turn begins
(`Machine.Drained`).  If nothing comes in under way it ends after as many turns as actions waited
(`Machine.drain_in_turns`).  So it does if the listeners spare the mailbox (`Machine.DrainsUnfed.of_spares`).
-/

namespace VetoMachine

variable {M L : Type}

/-- One action of a drain, with the machine and the hub before and after it is handled. -/
structure Turn (M L : Type) where
  request : QueuedAction
  before : Machine
  outset : Hub M L
  outcome : Outcome
  after : Machine
  ending : Hub M L

/-- What happens while the action is handled. -/
def Turn.entries (t : Turn M L) : List Entry := t.outset.entriesSince t.ending

namespace Hub

variable {h k : Hub M L} {mb : MailboxId}

theorem queue_of_pop_none (hpop : h.pop mb = (none, k)) : h.queue mb = [] ∧ k.queue mb = [] := by
  unfold pop at hpop
  split at hpop
  · rename_i b hb
    have hqueue : b.queue = [] := List.head?_eq_none_iff.1 (congrArg Prod.fst hpop)
    have hk : k = { h with mailboxes := h.mailboxes.insert mb b.pop.2 } := (congrArg Prod.snd hpop).symm
    subst hk
    simp [queue, hb, Mailbox.pop, hqueue]
  · rename_i hb
    have hk : k = h := (congrArg Prod.snd hpop).symm
    subst hk
    simp [queue, hb]

theorem mem_of_pop_some {q : QueuedAction} (hpop : h.pop mb = (some q, k)) : mb ∈ k.mailboxes := by
  unfold pop at hpop
  split at hpop
  · have hk : k = { h with mailboxes := h.mailboxes.insert mb _ } := (congrArg Prod.snd hpop).symm
    rw [hk]
    exact Std.ExtTreeMap.mem_insert_self
  · cases hpop

theorem queue_of_pop_some {q : QueuedAction} (hpop : h.pop mb = (some q, k)) : h.queue mb = q :: k.queue mb := by
  unfold pop at hpop
  split at hpop
  · rename_i b hb
    have hhead : b.queue.head? = some q := congrArg Prod.fst hpop
    obtain ⟨rest, hqueue⟩ := List.head?_eq_some_iff.1 hhead
    have hk : k = { h with mailboxes := h.mailboxes.insert mb b.pop.2 } := (congrArg Prod.snd hpop).symm
    subst hk
    simp [queue, hb, Mailbox.pop, hqueue]
  · cases hpop

end Hub

namespace Machine

/-- A drain makes turns one after the other. -/
inductive Turns (publish : Publisher M L) (mb : MailboxId) :
    Machine → Hub M L → List (Turn M L) → Machine → Hub M L → Prop where
  | nil (m : Machine) (h : Hub M L) : Turns publish mb m h [] m h
  | cons {t : Turn M L} {turns : List (Turn M L)} {m m' : Machine} {h h' : Hub M L} (hbefore : t.before = m)
      (hpop : h.pop mb = (some t.request, t.outset))
      (haction : m.handleAction publish t.request.action t.request.payload t.outset =
        some (t.outcome, t.after, t.ending))
      (hrest : Turns publish mb t.after t.ending turns m' h') : Turns publish mb m h (t :: turns) m' h'

variable {publish : Publisher M L} {mb : MailboxId} {m m' : Machine} {h h' : Hub M L} {turns : List (Turn M L)}

/-- A drain that returns has made turns until nothing waited any more. -/
theorem exists_turns {fuel : Nat} {os : List Outcome} (hcall : m.drain publish mb fuel h = some (os, m', h')) :
    ∃ (turns : List (Turn M L)) (k : Hub M L),
      Turns publish mb m h turns m' k ∧ k.pop mb = (none, h') ∧ os = turns.map (·.outcome) := by
  induction fuel generalizing m h os with
  | zero => cases hcall
  | succ fuel ih =>
    obtain ⟨hpop, rfl, rfl⟩ | ⟨q, h₁, o, m₁, h₂, rest, hpop, haction, hrest, rfl⟩ := drain_cases hcall
    · exact ⟨[], h, .nil _ h, hpop, rfl⟩
    · obtain ⟨turns, k, hturns, hempty, rfl⟩ := ih hrest
      exact ⟨⟨q, m, h₁, o, m₁, h₂⟩ :: turns, k, .cons rfl hpop haction hturns, hempty, rfl⟩

namespace Turns

/-- Before a turn there are the turns that precede it. -/
theorem split {xs ys : List (Turn M L)} {t : Turn M L} (hturns : Turns publish mb m h (xs ++ t :: ys) m' h') :
    ∃ k, Turns publish mb m h xs t.before k ∧ k.pop mb = (some t.request, t.outset) ∧
      Turns publish mb t.before k (t :: ys) m' h' := by
  induction xs generalizing m h with
  | nil =>
    cases hturns with
    | cons hbefore hpop haction hrest =>
      subst hbefore
      exact ⟨h, .nil _ h, hpop, .cons rfl hpop haction hrest⟩
  | cons x xs ih =>
    cases hturns with
    | cons hbefore hpop haction hrest =>
      obtain ⟨k, hxs, hk, hys⟩ := ih hrest
      exact ⟨k, .cons hbefore hpop haction hxs, hk, hys⟩

/-- Turns take their requests from the mailbox. -/
theorem flows (hpub : publish.Obeys (Hub.Flows mb [])) (hturns : Turns publish mb m h turns m' h') :
    h.Flows mb (turns.map (·.request)) h' ∧ h.entriesSince h' = turns.flatMap Turn.entries ∧
      ∀ t ∈ turns, Balanced t.entries := by
  induction hturns with
  | nil m h => exact ⟨.refl h, Hub.entriesSince_eq rfl, by simp⟩
  | @cons t turns m m' h h' _ hpop haction _ ih =>
    obtain ⟨hrest, hentries, hbalanced⟩ := ih
    have htake : h.Flows mb [t.request] t.outset := by
      have hflows := Hub.Flows.pop_self h mb
      rwa [hpop] at hflows
    have hhandle : t.outset.Flows mb [] t.ending := Hub.Flows.handleAction hpub haction
    have hj : t.outset.journal = h.journal := by
      have hpopped := Hub.journal_pop h mb
      rwa [hpop] at hpopped
    refine ⟨?_, ?_, ?_⟩
    · exact htake.trans (hhandle.trans hrest)
    · apply Hub.entriesSince_eq
      rw [hrest.journal, hhandle.journal, hj, hentries, List.flatMap_cons, List.reverse_append, List.append_assoc]
      rfl
    · exact List.forall_mem_cons.2 ⟨hhandle.balanced, hbalanced⟩

end Turns

/-- What a drain of a mailbox does, turn by turn. -/
structure Drained (publish : Publisher M L) (mb : MailboxId) (m : Machine) (h : Hub M L) (os : List Outcome)
    (m' : Machine) (h' : Hub M L) (turns : List (Turn M L)) : Prop where
  /-- Each turn handles the oldest action on the machine as the turn before left it, until none waits. -/
  chained : ∃ k, Turns publish mb m h turns m' k ∧ k.pop mb = (none, h')
  outcomes : os = turns.map (·.outcome)
  requests : turns.map (·.request) = h.queue mb ++ queuedIn mb (h.entriesSince h')
  /-- What was there for a turn waited at the call or came in during the turns before. -/
  waiting : ∀ {xs ys t}, turns = xs ++ t :: ys →
    ∃ rest, h.queue mb ++ queuedIn mb (xs.flatMap Turn.entries) = xs.map (·.request) ++ t.request :: rest
  /-- What is published in a turn is delivered in it. -/
  serial : h.entriesSince h' = turns.flatMap Turn.entries ∧ ∀ t ∈ turns, Balanced t.entries
  emptied : h'.queue mb = []

private theorem drained (hpub : publish.Obeys (Hub.Flows mb [])) {fuel : Nat} {os : List Outcome}
    (hcall : m.drain publish mb fuel h = some (os, m', h')) (hheld : mb ∈ h'.mailboxes) :
    ∃ turns, Drained publish mb m h os m' h' turns := by
  obtain ⟨turns, k, hturns, hempty, hos⟩ := exists_turns hcall
  obtain ⟨hflows, hentries, hbalanced⟩ := hturns.flows hpub
  obtain ⟨hk, hh'⟩ := Hub.queue_of_pop_none hempty
  have hlast := Hub.Flows.pop_self k mb
  rw [hempty] at hlast
  have hkmb : mb ∈ k.mailboxes := hlast.mem hheld
  have hkj : h'.journal = k.journal := by
    have hpopped := Hub.journal_pop k mb
    rwa [hempty] at hpopped
  have hsince : h.entriesSince h' = turns.flatMap Turn.entries := by
    apply Hub.entriesSince_eq
    rw [hkj, ← hentries]
    exact hflows.journal
  refine ⟨turns, ⟨k, hturns, hempty⟩, hos, ?_, ?_, ⟨hsince, hbalanced⟩, hh'⟩
  · have heq := hflows.queue_eq hkmb
    rw [hk, List.append_nil, hentries] at heq
    rw [hsince, heq]
  · intro xs ys t hsplit
    subst hsplit
    obtain ⟨k₁, hxs, hpop, hys⟩ := hturns.split
    obtain ⟨hflows₁, hentries₁, -⟩ := hxs.flows hpub
    have hmb₁ : mb ∈ k₁.mailboxes := (hys.flows hpub).1.mem hkmb
    have heq := hflows₁.queue_eq hmb₁
    rw [hentries₁, Hub.queue_of_pop_some hpop] at heq
    exact ⟨_, heq⟩

/-- Every action that a drain can come to is handled, with the mailbox held and without another action coming in. -/
def DrainsUnfed (publish : Publisher M L) (mb : MailboxId) (m : Machine) (h : Hub M L) : Prop :=
  ∀ {turns : List (Turn M L)} {m₁ : Machine} {h₁ k : Hub M L} {q : QueuedAction},
    Turns publish mb m h turns m₁ h₁ → h₁.pop mb = (some q, k) →
      ∃ o m₂ h₂, m₁.handleAction publish q.action q.payload k = some (o, m₂, h₂) ∧ mb ∈ h₂.mailboxes ∧
        queuedIn mb (k.entriesSince h₂) = []

private theorem DrainsUnfed.returns (hpub : publish.Obeys (Hub.Flows mb [])) (hunfed : DrainsUnfed publish mb m h)
    {fuel : Nat} (hfuel : (h.queue mb).length < fuel) :
    ∃ os m' h', m.drain publish mb fuel h = some (os, m', h') ∧ os.length = (h.queue mb).length := by
  induction fuel generalizing m h with
  | zero => cases hfuel
  | succ fuel ih =>
    rcases hpop : h.pop mb with ⟨_ | q, k⟩
    · have hempty : h.queue mb = [] := (Hub.queue_of_pop_none hpop).1
      refine ⟨[], m, k, ?_, by rw [hempty]; rfl⟩
      rw [drain, hpop]
    · have hqueue : h.queue mb = q :: k.queue mb := Hub.queue_of_pop_some hpop
      obtain ⟨o, m₂, h₂, haction, hmb, hnone⟩ := hunfed (.nil m h) hpop
      have hkept : k.queue mb = h₂.queue mb := by
        have heq := (Hub.Flows.handleAction hpub haction).queue_eq hmb
        rwa [hnone, List.append_nil, List.nil_append] at heq
      have hfuel₂ : (h₂.queue mb).length < fuel := by
        rw [hqueue, List.length_cons, hkept] at hfuel
        omega
      -- what can be come to after this turn can be come to before it
      have hunfed₂ : DrainsUnfed publish mb m₂ h₂ := by
        intro turns m₁ h₁ k₁ q₁ hturns hpop₁
        have hmore : Turns publish mb m h (⟨q, m, k, o, m₂, h₂⟩ :: turns) m₁ h₁ := .cons rfl hpop haction hturns
        exact hunfed hmore hpop₁
      obtain ⟨os, m', h', hrest, hlength⟩ := ih hunfed₂ hfuel₂
      refine ⟨o :: os, m', h', ?_, ?_⟩
      · rw [drain, hpop]
        simp only [haction, Option.bind_eq_bind, Option.bind_some, hrest]
        rfl
      · rw [hqueue, List.length_cons, List.length_cons, hlength, hkept]

/-- Listeners that spare the mailbox leave it sheltered from turn to turn. -/
private theorem Turns.sheltered {respond : Response M L} {depth : Nat}
    (hspares : ∀ code n, (respond code n).SparesMailbox mb)
    (hturns : Turns (Hub.publishWithin respond depth) mb m h turns m' h') (hm : m.Unreserved) (hh : h.Sheltered mb) :
    m'.Unreserved ∧ h'.Sheltered mb := by
  induction hturns with
  | nil m h => exact ⟨hm, hh⟩
  | @cons t _ m _ h _ hbefore hpop haction _ ih =>
    have hout : t.outset.Sheltered mb := by
      have hpopped := hh.pop mb
      rwa [hpop] at hpopped
    have hended := (shelters_handleAction (Hub.shelters_publishWithin hspares) hm haction hout).1
    exact ih (hm.handleAction haction) hended

/-- A drain comes to no action that it does not handle, and nobody feeds it, where all listeners spare the mailbox,
neither the machine nor another has an event with the name of actions, and whatever is published is delivered, as it is
where listeners publish only what is of lower rank (`Hub.exists_publishWithin`). -/
theorem DrainsUnfed.of_spares {respond : Response M L} {depth : Nat}
    (hspares : ∀ code n, (respond code n).SparesMailbox mb)
    (hreturns : ∀ n h, ∃ h', Hub.publishWithin respond depth n h = some h') (hm : m.Unreserved) (hh : h.Sheltered mb) :
    DrainsUnfed (Hub.publishWithin respond depth) mb m h := by
  intro turns m₁ h₁ k q hturns hpop
  obtain ⟨hm₁, hh₁⟩ := hturns.sheltered hspares hm hh
  have hk : k.Sheltered mb := by
    have hpopped := hh₁.pop mb
    rwa [hpop] at hpopped
  obtain ⟨o, m₂, h₂, haction⟩ := exists_handleAction hreturns m₁ q.action q.payload k
  obtain ⟨-, hsame⟩ := shelters_handleAction (Hub.shelters_publishWithin hspares) hm₁ haction hk
  have hmb : mb ∈ h₂.mailboxes := by
    have hmb := Hub.mem_of_pop_some hpop
    rwa [Std.ExtTreeMap.mem_iff_isSome_getElem?, ← hsame, ← Std.ExtTreeMap.mem_iff_isSome_getElem?] at hmb
  refine ⟨o, m₂, h₂, haction, hmb, ?_⟩
  have hflows : k.Flows mb [] h₂ := .handleAction ((Hub.deliveryLaw_flows mb).publishWithin respond depth) haction
  have hqueue : k.queue mb = h₂.queue mb := by rw [Hub.queue, Hub.queue, hsame]
  have heq := hflows.queue_eq hmb
  rwa [hqueue, List.nil_append, List.append_right_eq_self] at heq

/-- A drain that returns, of a mailbox that is held meanwhile, handles what waits at the call and then what comes in
under way, each action once and one after the other.  If nothing comes in under way, it returns after as many turns as
actions waited. -/
theorem drain_in_turns (respond : Response M L) (depth : Nat) (mb : MailboxId) (m : Machine) (h : Hub M L) :
    (∀ {fuel os m' h'}, m.drain (Hub.publishWithin respond depth) mb fuel h = some (os, m', h') →
      mb ∈ h'.mailboxes → ∃ turns, Drained (Hub.publishWithin respond depth) mb m h os m' h' turns) ∧
    (DrainsUnfed (Hub.publishWithin respond depth) mb m h → ∀ {fuel}, (h.queue mb).length < fuel →
      ∃ os m' h', m.drain (Hub.publishWithin respond depth) mb fuel h = some (os, m', h') ∧
        os.length = (h.queue mb).length) := by
  have hpub : Publisher.Obeys (Hub.publishWithin respond depth) (Hub.Flows mb []) :=
    (Hub.deliveryLaw_flows mb).publishWithin respond depth
  exact ⟨drained hpub, fun hunfed => hunfed.returns hpub⟩

/-! ### A listener that asks for another push -/

/-- Whenever it is called it puts a push into the first mailbox. -/
def echo : Response Unit Unit := fun _ _ => .push 0 ⟨"push", .null⟩ .done

/-- A hub with a mailbox in which a push waits. -/
def pushedDoor : Hub Unit Unit := (Hub.empty 1 ()).newMailbox.2.push 0 ⟨"push", .null⟩

/-- Whenever it hears `unlock` it publishes `creak`. -/
def creaking : Response Unit Unit := fun _ n =>
  if n.name = "unlock" then .publish ⟨"creak", n.body, none⟩ .done else .done

theorem unreserved_door : door.Unreserved := by
  refine Unreserved.register (Unreserved.register (Unreserved.empty 0) ?_ true) ?_ false
  · have hunlock : ¬ IsReserved "unlock" := by
      unfold IsReserved
      decide
    rintro event (hexiting | hentering | hchanged)
    · exact Option.some.inj hexiting ▸ hunlock
    · cases hentering
    · cases hchanged
  · rintro event (hexiting | hentering | hchanged)
    · cases hexiting
    · cases hentering
    · cases hchanged

theorem sheltered_pushedDoor : (pushedDoor.subscribe "unlock" (.custom ())).2.Sheltered 0 where
  inbox {name s} hs hl := by
    have hold : s ∈ pushedDoor.bus.subscribed name := (Hub.Inherits.subscribe pushedDoor "unlock" ()).inbox hs hl
    have hbus : pushedDoor.bus = .empty 1 := by
      rw [pushedDoor, Hub.push_eq]
      rfl
    simp [hbus, Bus.subscribed, Bus.empty] at hold
  machines {name m} hm := by
    have hnone : pushedDoor.machines = ∅ := (Hub.Quiet.push _ 0 ⟨"push", .null⟩).machines
    have hseat : pushedDoor.machines[name]? = some (.idle m) := hm
    simp [hnone] at hseat

/-- Nobody hears of the door, so the push that waits is all there is to handle. -/
private theorem drainsUnfed_pushedDoor : DrainsUnfed (Hub.publishWithin echo 1) 0 door pushedDoor := by
  have hopens : (door.handleAction (Hub.publishWithin echo 1) "push" .null (pushedDoor.pop 0).2).map
      (fun r => (decide (0 ∈ r.2.2.mailboxes), (queuedIn 0 ((pushedDoor.pop 0).2.entriesSince r.2.2)).length,
        (r.2.2.queue 0).length)) = some (true, 0, 0) := by decide +kernel
  obtain ⟨⟨o, m₂, h₂⟩, haction, hresult⟩ := Option.map_eq_some_iff.1 hopens
  simp only [Prod.mk.injEq, decide_eq_true_eq, List.length_eq_zero_iff] at hresult
  obtain ⟨hmb, hnone, hempty⟩ := hresult
  intro turns m₁ h₁ k q hturns hpop
  have hq : (pushedDoor.pop 0).1 = some ⟨"push", .null⟩ := rfl
  cases hturns with
  | nil =>
    cases hpop
    exact ⟨o, m₂, h₂, haction, hmb, hnone⟩
  | @cons t rest _ _ _ _ hbefore hfirst hhandle hrest =>
    -- a second turn would find nothing to handle
    rw [hfirst] at hq haction
    rw [Option.some.inj hq, haction] at hhandle
    obtain ⟨-, -, hending⟩ : o = t.outcome ∧ m₂ = t.after ∧ h₂ = t.ending := by simpa using hhandle
    rw [hending] at hempty
    cases hrest with
    | nil => simp [Hub.queue_of_pop_some hpop] at hempty
    | cons _ hsecond _ _ => simp [Hub.queue_of_pop_some hsecond] at hempty

private theorem spares_creaking (n : Notification) : (creaking () n).SparesMailbox 0 := by
  have hname : "creak" ≠ Notification.actionName := by decide
  unfold creaking
  split
  · exact ⟨hname, trivial⟩
  · trivial

/-- Nobody publishes anything at a `creak`. -/
private theorem exists_publishWithin_creaking (n : Notification) (h : Hub Unit Unit) :
    ∃ h', Hub.publishWithin creaking 2 n h = some h' := by
  let rank : String → Nat := fun name => if name = "unlock" then 1 else 0
  have hdescends : ∀ code n, (creaking code n).Descends fun name => rank name < rank n.name := by
    intro code n
    unfold creaking
    split
    · rename_i hname
      exact ⟨by simp [rank, hname], trivial⟩
    · trivial
  have hrank : rank n.name < 2 := by
    unfold rank
    split <;> decide
  exact Hub.exists_publishWithin hdescends hrank h

/-- The push that comes in while the door opens is handled when it is open; if none comes in, as nobody listens or those
who do spare the mailbox, one action is handled. -/
theorem drain_in_turns_door :
    (∃ os m' h' turns, door.drain (Hub.publishWithin echo 1) 0 3 (pushedDoor.subscribe "unlock" (.custom ())).2 =
        some (os, m', h') ∧ 0 ∈ h'.mailboxes ∧ os = [.committed (some "closed") "open", .ignored] ∧
        Drained (Hub.publishWithin echo 1) 0 door (pushedDoor.subscribe "unlock" (.custom ())).2 os m' h' turns) ∧
      (DrainsUnfed (Hub.publishWithin echo 1) 0 door pushedDoor ∧
        ∃ os m' h', door.drain (Hub.publishWithin echo 1) 0 2 pushedDoor = some (os, m', h') ∧ os.length = 1) ∧
      DrainsUnfed (Hub.publishWithin creaking 2) 0 door (pushedDoor.subscribe "unlock" (.custom ())).2 ∧
      ∃ os m' h', door.drain (Hub.publishWithin creaking 2) 0 2 (pushedDoor.subscribe "unlock" (.custom ())).2 =
        some (os, m', h') ∧ os.length = 1 := by
  refine ⟨?_, ?_, ?_⟩
  · have hends : (door.drain (Hub.publishWithin echo 1) 0 3 (pushedDoor.subscribe "unlock" (.custom ())).2).map
        (fun r => (r.1, decide (0 ∈ r.2.2.mailboxes))) =
          some ([.committed (some "closed") "open", .ignored], true) := by decide +kernel
    obtain ⟨⟨os, m', h'⟩, hcall, hresult⟩ := Option.map_eq_some_iff.1 hends
    simp only [Prod.mk.injEq, decide_eq_true_eq] at hresult
    obtain ⟨turns, hturns⟩ := (drain_in_turns echo 1 0 door _).1 hcall hresult.2
    exact ⟨os, m', h', turns, hcall, hresult.2, hresult.1, hturns⟩
  · have hunfed : DrainsUnfed (Hub.publishWithin echo 1) 0 door pushedDoor := drainsUnfed_pushedDoor
    exact ⟨hunfed, (drain_in_turns echo 1 0 door pushedDoor).2 hunfed (by decide +kernel)⟩
  · have hunfed : DrainsUnfed (Hub.publishWithin creaking 2) 0 door (pushedDoor.subscribe "unlock" (.custom ())).2 :=
      DrainsUnfed.of_spares (fun _ => spares_creaking) exists_publishWithin_creaking unreserved_door
        sheltered_pushedDoor
    exact ⟨hunfed, (drain_in_turns creaking 2 0 door _).2 hunfed (by decide +kernel)⟩

end Machine

end VetoMachine
