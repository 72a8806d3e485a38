import VetoMachine.Proofs.Consistency
import VetoMachine.Proofs.Loaders
import VetoMachine.Proofs.Seats

/-!
# Machines of descriptions without violations

A machine made of a description without violations is started at the initial state, and as long as it is only driven
it does what the description says (`Loader.Reachable.runs_as`): it is in a state that is defined, every action listed
there leads to a registered state, and no other action does anything.
-/

namespace VetoMachine

variable {M L : Type} {d : Description} {m : Machine}

/-! ### What the absence of violations means -/

namespace Description

theorem defines_iff {name : String} : d.defines name = true ↔ ∃ s ∈ d.states, s.name = name := by
  simp [defines]

theorem repeats_eq_nil_iff {seen names : List String} :
    repeats seen names = [] ↔ names.Nodup ∧ ∀ name ∈ names, name ∉ seen := by
  induction names generalizing seen with
  | nil => simp [repeats]
  | cons name rest ih =>
    unfold repeats
    split
    · rename_i hseen
      simp [hseen]
    · rename_i hseen
      rw [ih, List.nodup_cons]
      constructor
      · rintro ⟨hrest, hnew⟩
        refine ⟨⟨fun hmem => hnew name hmem (by simp), hrest⟩, ?_⟩
        exact List.forall_mem_cons.2 ⟨hseen, fun other hother hmem => hnew other hother (by simp [hmem])⟩
      · rintro ⟨⟨hname, hrest⟩, hnew⟩
        refine ⟨hrest, fun other hother hmem => ?_⟩
        rcases List.mem_cons.1 hmem with rfl | hmem
        · exact hname hother
        · exact hnew other (by simp [hother]) hmem

/-- A description has no violations exactly if it defines its initial state and every target, and no name twice. -/
theorem violations_eq_nil_iff :
    d.violations = [] ↔ (∃ s ∈ d.states, s.name = d.initial) ∧ (d.states.map (·.name)).Nodup ∧
      ∀ s ∈ d.states, ∀ b ∈ s.bindings, ∃ t ∈ d.states, t.name = b.target := by
  have hinitial : d.initialViolations = [] ↔ ∃ s ∈ d.states, s.name = d.initial := by
    rw [initialViolations, ← defines_iff]
    split <;> simp [*]
  have hduplicates : d.duplicateViolations = [] ↔ (d.states.map (·.name)).Nodup := by
    simp [duplicateViolations, repeats_eq_nil_iff]
  have htargets : d.targetViolations = [] ↔ ∀ s ∈ d.states, ∀ b ∈ s.bindings, ∃ t ∈ d.states, t.name = b.target := by
    simp [targetViolations, ← defines_iff]
  rw [violations, List.append_eq_nil_iff, List.append_eq_nil_iff, hinitial, hduplicates, htargets, and_assoc]

theorem find?_eq_some {s : Definition} (hs : s ∈ d.states) (hnames : (d.states.map (·.name)).Nodup) :
    d.states.find? (·.name = s.name) = some s := by
  obtain ⟨before, later, hsplit⟩ := List.append_of_mem hs
  -- no definition before this one has its name
  rw [hsplit, List.map_append, List.nodup_append] at hnames
  have hfirst : before.find? (·.name = s.name) = none := by
    rw [List.find?_eq_none]
    intro t ht hname
    exact hnames.2.2 t.name (List.mem_map_of_mem ht) s.name (by simp) (by simpa using hname)
  rw [hsplit, List.find?_append, hfirst]
  simp

end Description

/-! ### What stays while a machine is driven -/

namespace Machine

/-- What driving makes of a machine, on whatever hub and whatever the listeners do. -/
def Drives (m m' : Machine) : Prop :=
  ∃ (M L : Type) (publish : Publisher M L) (fuel : Nat) (h h' : Hub M L) (op : Operation) (b : Answer),
    op.isDriving = true ∧ m.perform publish fuel h op = some (b, m', h')

/-- A machine in one of its registered states, which are the first definitions of every name. -/
structure Realizes (m : Machine) (d : Description) : Prop where
  registry : ∀ name, m.state? name = (d.states.find? (·.name = name)).map Definition.state
  attached : m.detached = none
  sound : m.Sound
  started : m.current ≠ none

theorem Realizes.perform {publish : Publisher M L} {fuel : Nat} {m' : Machine} {h h' : Hub M L} {op : Operation}
    {b : Answer} (hm : m.Realizes d) (hop : op.isDriving = true)
    (hcall : m.perform publish fuel h op = some (b, m', h')) : m'.Realizes d := by
  have hmoved : m' = m.moved b.allOutcomes := moved_of_perform hop hcall
  refine ⟨?_, ?_, isInvariant_sound.perform hm.sound hcall, isInvariant_started.perform hm.started hcall⟩
  · rw [hmoved, moved_state?]
    exact hm.registry
  · rw [hmoved, moved]
    split
    · rfl
    · exact hm.attached

theorem Realizes.driven (hm : m.Realizes d) {m' : Machine} (hlater : Relation.ReflTransGen Drives m m') :
    m'.Realizes d := by
  induction hlater with
  | refl => exact hm
  | tail _ hstep ih =>
    obtain ⟨M, L, publish, fuel, h, h', op, b, hop, hcall⟩ := hstep
    exact ih.perform hop hcall

theorem Realizes.exists_current (hm : m.Realizes d) :
    ∃ s ∈ d.states, m.current = some s.name ∧ m.currentState = some s.state := by
  obtain ⟨name, hcurrent⟩ := Option.ne_none_iff_exists'.1 hm.started
  obtain ⟨t, ht⟩ := hm.sound.occupied hm.attached hcurrent
  have hregistered := ht
  rw [hm.registry, Option.map_eq_some_iff] at ht
  obtain ⟨s, hs, rfl⟩ := ht
  have hname : s.name = name := by simpa using List.find?_some hs
  refine ⟨s, List.mem_of_find?_eq_some hs, by rw [hname, hcurrent], ?_⟩
  rw [currentState, hm.attached, hcurrent]
  exact hregistered

theorem Realizes.isRegistered_of_mem (hm : m.Realizes d) (hd : d.violations = []) {s : Definition} (hs : s ∈ d.states)
    {b : Binding} (hb : b ∈ s.bindings) : m.isRegistered b.target = true := by
  obtain ⟨-, -, htargets⟩ := Description.violations_eq_nil_iff.1 hd
  obtain ⟨t, ht, htarget⟩ := htargets s hs b hb
  rw [isRegistered, hm.registry, Option.isSome_map, List.find?_isSome]
  exact ⟨t, ht, by simpa using htarget⟩

/-- The current state follows the transitions that are listed first, to states that are registered. -/
theorem Realizes.handleAction_eq (hm : m.Realizes d) (hd : d.violations = []) {s : Definition} (hs : s ∈ d.states)
    (hcurrent : m.currentState = some s.state) (publish : Publisher M L) (action : String) (payload : Json)
    (h : Hub M L) :
    m.handleAction publish action payload h =
      match s.bindings.find? (·.action = action) with
      | none => some (.ignored, m, h)
      | some b => m.transition publish b.target payload h := by
  have hbound : m.boundTarget? action = (s.bindings.find? (·.action = action)).map (·.target) := by
    rw [boundTarget?, hcurrent, Option.bind_some, s.target?_state]
  unfold handleAction
  rw [hbound]
  cases hfound : s.bindings.find? (·.action = action) with
  | none => rfl
  | some b =>
    have hregistered : m.isRegistered b.target = true :=
      hm.isRegistered_of_mem hd hs (List.mem_of_find?_eq_some hfound)
    simp only [Option.map_some, hregistered, if_true]

/-- Every target in a registered table is registered. -/
theorem Realizes.isRegistered_target (hm : m.Realizes d) (hd : d.violations = []) {name action target : String}
    {t : State} (ht : m.state? name = some t) (htarget : t.target? action = some target) :
    m.isRegistered target = true := by
  rw [hm.registry, Option.map_eq_some_iff] at ht
  obtain ⟨s, hs, rfl⟩ := ht
  rw [s.target?_state, Option.map_eq_some_iff] at htarget
  obtain ⟨b, hb, rfl⟩ := htarget
  exact hm.isRegistered_of_mem hd (List.mem_of_find?_eq_some hs) (List.mem_of_find?_eq_some hb)

end Machine

/-! ### What a machine logs itself -/

namespace Hub

/-- The journal gains nothing but deliveries if nobody else uses a cancel flag. -/
def OnlyDelivers (flag : FlagId) (h h' : Hub M L) : Prop :=
  h.Apart flag → h'.Apart flag ∧ ∃ ds : List Delivery, (∀ x ∈ ds, Balanced x.during) ∧
    h'.journal = (ds.flatMap Delivery.entries).reverse ++ h.journal

theorem OnlyDelivers.of_journal_eq {flag : FlagId} {h h' : Hub M L} (hm : h'.machines = h.machines)
    (hj : h'.journal = h.journal) : h.OnlyDelivers flag h' :=
  fun ha => ⟨ha.of_machines_eq hm, [], by simp, hj⟩

theorem OnlyDelivers.trans {flag : FlagId} {h h' h'' : Hub M L} (h12 : h.OnlyDelivers flag h')
    (h23 : h'.OnlyDelivers flag h'') : h.OnlyDelivers flag h'' := by
  intro ha
  obtain ⟨ha', xs, hxs, hx⟩ := h12 ha
  obtain ⟨ha'', ys, hys, hy⟩ := h23 ha'
  refine ⟨ha'', xs ++ ys, List.forall_mem_append.2 ⟨hxs, hys⟩, ?_⟩
  rw [hy, hx, List.flatMap_append, List.reverse_append, List.append_assoc]

theorem moveLaw_onlyDelivers (respond : Response M L) (depth : Nat) (flag : FlagId) :
    MoveLaw (publishWithin respond depth) flag (OnlyDelivers flag) where
  refl _ := .of_journal_eq rfl rfl
  trans := OnlyDelivers.trans
  publish hpub ha := by
    obtain ⟨x, -, hbalanced, haccount⟩ := account_of_publishWithin ha hpub
    exact ⟨haccount.apart, [x], by simpa using hbalanced, by simpa using haccount.journal⟩
  lower _ := .of_journal_eq rfl rfl

end Hub

namespace Machine

variable {respond : Response M L} {depth fuel : Nat} {m' : Machine} {h h' : Hub M L}

private theorem Realizes.onlyDelivers_handleAction (hm : m.Realizes d) (hd : d.violations = []) {action : String}
    {payload : Json} {o : Outcome}
    (hcall : m.handleAction (Hub.publishWithin respond depth) action payload h = some (o, m', h')) :
    h.OnlyDelivers m.flag h' := by
  obtain ⟨s, hs, -, hcurrent⟩ := hm.exists_current
  rw [hm.handleAction_eq hd hs hcurrent] at hcall
  cases hfound : s.bindings.find? (·.action = action) with
  | none =>
    rw [hfound] at hcall
    cases hcall
    exact .of_journal_eq rfl rfl
  | some b =>
    rw [hfound] at hcall
    exact (Hub.moveLaw_onlyDelivers respond depth m.flag).transition hcall

private theorem Realizes.onlyDelivers_drain (hm : m.Realizes d) (hd : d.violations = []) {mailbox : MailboxId}
    {os : List Outcome} (hcall : m.drain (Hub.publishWithin respond depth) mailbox fuel h = some (os, m', h')) :
    h.OnlyDelivers m.flag h' := by
  induction fuel generalizing m h os with
  | zero => cases hcall
  | succ fuel ih =>
    have hpopped : h.OnlyDelivers m.flag (h.pop mailbox).2 := by
      unfold Hub.pop
      split <;> exact .of_journal_eq rfl rfl
    obtain ⟨hpop, -, -⟩ | ⟨q, h₁, o, m₁, h₂, rest, hpop, haction, hrest, -⟩ := drain_cases hcall
    · rw [hpop] at hpopped
      exact hpopped
    · rw [hpop] at hpopped
      have hperform : m.perform (Hub.publishWithin respond depth) 0 h₁ (.handleAction q.action q.payload) =
          some (.outcome o, m₁, h₂) := by
        rw [Machine.perform, haction]
        rfl
      -- the rest is drained by what the first action made of the machine, with the same cancel flag
      have hflag : m₁.flag = m.flag := (isInvariant_flag m.flag).handleAction rfl haction
      have hlater := ih (hm.perform rfl hperform) hrest
      rw [hflag] at hlater
      exact hpopped.trans ((hm.onlyDelivers_handleAction hd haction).trans hlater)

/-- What a call writes into the journal: deliveries, and no warning but one about an action without a name. -/
def LogsFrom (h h' : Hub M L) : Prop :=
  ∃ (ds : List Delivery) (own : List Entry), (∀ x ∈ ds, Balanced x.during) ∧
    h.entriesSince h' = ds.flatMap Delivery.entries ++ own ∧ ∀ w, .warned w ∈ own → w = .namelessAction

private theorem LogsFrom.of_onlyDelivers {flag : FlagId} (ha : h.Apart flag) (honly : h.OnlyDelivers flag h') :
    LogsFrom h h' := by
  obtain ⟨-, ds, hds, hj⟩ := honly ha
  exact ⟨ds, [], hds, by rw [Hub.entriesSince_eq hj, List.append_nil], by simp⟩

private theorem logsFrom_raise (h : Hub M L) (flag : FlagId) : LogsFrom h (h.raise flag) := by
  have hj : (h.raise flag).journal = [Entry.raised flag].reverse ++ h.journal := rfl
  exact ⟨[], [.raised flag], by simp, Hub.entriesSince_eq hj, by simp⟩

private theorem Realizes.logsFrom_perform (hm : m.Realizes d) (hd : d.violations = []) {op : Operation} {b : Answer}
    (hop : op.isDriving = true) (ha : h.Apart m.flag)
    (hcall : m.perform (Hub.publishWithin respond depth) fuel h op = some (b, m', h')) : LogsFrom h h' := by
  cases op with
  | cancel =>
    cases hcall
    exact logsFrom_raise h m.flag
  | moveTo target payload =>
    obtain ⟨o, hmove, -⟩ := call_of_answer hcall
    exact .of_onlyDelivers ha ((Hub.moveLaw_onlyDelivers respond depth m.flag).transition hmove)
  | handleAction action payload =>
    obtain ⟨o, hmove, -⟩ := call_of_answer hcall
    exact .of_onlyDelivers ha (hm.onlyDelivers_handleAction hd hmove)
  | handleNotification n =>
    obtain ⟨o, hmove, -⟩ := call_of_answer hcall
    unfold handleNotification at hmove
    split at hmove
    · cases hkind : n.kind with
      | some action =>
        rw [hkind] at hmove
        exact .of_onlyDelivers ha (hm.onlyDelivers_handleAction hd hmove)
      | none =>
        rw [hkind] at hmove
        cases hmove
        have hj : (h.warn [.namelessAction]).journal = [Entry.warned .namelessAction].reverse ++ h.journal := rfl
        exact ⟨[], [.warned .namelessAction], by simp, Hub.entriesSince_eq hj, by simp⟩
    · split at hmove
      · cases hmove
        exact logsFrom_raise h m.flag
      · cases hmove
        exact .of_onlyDelivers ha (.of_journal_eq rfl rfl)
  | drain mailbox =>
    obtain ⟨os, hmove, -⟩ := call_of_answer hcall
    exact .of_onlyDelivers ha (hm.onlyDelivers_drain hd hmove)
  | register _ _ | remove _ | startAt _ | edit _ _ | editCurrent _ => cases hop

end Machine

/-! ### Machines of descriptions -/

/-- A machine does what a description says. -/
structure Machine.RunsAs (m : Machine) (d : Description) : Prop where
  /-- The current state is defined. -/
  occupies : ∃ s ∈ d.states, m.current = some s.name ∧ m.currentState = some s.state
  /-- Whatever is bound in a registered state is bound to a registered one. -/
  closed : ∀ {name action target : String} {t : State},
    m.state? name = some t → t.target? action = some target → m.isRegistered target = true
  /-- An action for which the definition of the current state lists no transition does nothing. -/
  ignores : ∀ {s : Definition}, s ∈ d.states → m.current = some s.name →
    ∀ {action : String}, (∀ b ∈ s.bindings, b.action ≠ action) →
    ∀ {M L : Type} (publish : Publisher M L) (payload : Json) (h : Hub M L),
      m.handleAction publish action payload h = some (.ignored, m, h)
  /-- Any other action is an attempt to move to the target of the first transition listed for it. -/
  follows : ∀ {s : Definition}, s ∈ d.states → m.current = some s.name →
    ∀ {action : String} {b : Binding}, s.bindings.find? (·.action = action) = some b →
    ∀ {M L : Type} (publish : Publisher M L) (payload : Json) (h : Hub M L),
      m.handleAction publish action payload h = m.transition publish b.target payload h
  ignored_iff : ∀ {s : Definition}, s ∈ d.states → m.current = some s.name →
    ∀ {M L : Type} {publish : Publisher M L} {action : String} {payload : Json} {h h' : Hub M L} {o : Outcome}
      {m' : Machine}, m.handleAction publish action payload h = some (o, m', h') →
      (o = .ignored ↔ ∀ b ∈ s.bindings, b.action ≠ action)
  /-- No action gives cause to warn. -/
  unwarned : ∀ action, m.actionWarnings action = []
  /-- A machine that is driven on a hub logs no warning but one about an action without a name. -/
  logs : ∀ {M L : Type} {respond : Response M L} {depth fuel : Nat} {h h' : Hub M L} {name : String} {op : Operation}
    {b : Answer} {m' : Machine}, h.Reachable → h.machines[name]? = some (.idle m) → op.isDriving = true →
    m.perform (Hub.publishWithin respond depth) fuel (h.occupy name m) op = some (b, m', h') →
    Machine.LogsFrom (h.occupy name m) h'

namespace Machine

private theorem Realizes.state?_eq (hm : m.Realizes d) (hd : d.violations = []) {s : Definition}
    (hs : s ∈ d.states) : m.state? s.name = some s.state := by
  obtain ⟨-, hnames, -⟩ := Description.violations_eq_nil_iff.1 hd
  rw [hm.registry, Description.find?_eq_some hs hnames, Option.map_some]

private theorem Realizes.currentState_eq (hm : m.Realizes d) (hd : d.violations = []) {s : Definition}
    (hs : s ∈ d.states) (hcurrent : m.current = some s.name) : m.currentState = some s.state := by
  rw [currentState, hm.attached, hcurrent]
  exact hm.state?_eq hd hs

private theorem Realizes.ne_ignored (hm : m.Realizes d) (hd : d.violations = []) {s : Definition} (hs : s ∈ d.states)
    {b : Binding} (hb : b ∈ s.bindings) {publish : Publisher M L} {payload : Json} {o : Outcome}
    (hcall : m.transition publish b.target payload h = some (o, m', h')) : o ≠ .ignored := by
  obtain ⟨next, hnext⟩ := isRegistered_iff.1 (hm.isRegistered_of_mem hd hs hb)
  obtain ⟨hnone, -⟩ | ⟨_, -, hrun, -⟩ := transition_cases hcall
  · rw [hnext] at hnone
    cases hnone
  · exact Passage.ne_ignored_of_run hrun

private theorem Realizes.runsAs (hm : m.Realizes d) (hd : d.violations = []) : m.RunsAs d where
  occupies := hm.exists_current
  closed := hm.isRegistered_target hd
  ignores {s} hs hcurrent {action} hnone {M L} publish payload h := by
    have hfound : s.bindings.find? (·.action = action) = none := by simpa using hnone
    rw [hm.handleAction_eq hd hs (hm.currentState_eq hd hs hcurrent), hfound]
  follows {s} hs hcurrent {action b} hfound {M L} publish payload h := by
    rw [hm.handleAction_eq hd hs (hm.currentState_eq hd hs hcurrent), hfound]
  ignored_iff {s} hs hcurrent {M L publish action payload h h' o m'} hcall := by
    rw [hm.handleAction_eq hd hs (hm.currentState_eq hd hs hcurrent)] at hcall
    cases hfound : s.bindings.find? (·.action = action) with
    | none =>
      rw [hfound] at hcall
      cases hcall
      simpa using hfound
    | some b =>
      rw [hfound] at hcall
      have hlisted : b.action = action := by simpa using List.find?_some hfound
      have hb : b ∈ s.bindings := List.mem_of_find?_eq_some hfound
      exact ⟨fun hignored => absurd hignored (hm.ne_ignored hd hs hb hcall), fun hnone => absurd hlisted (hnone b hb)⟩
  unwarned action := by
    obtain ⟨s, hs, -, hcurrent⟩ := hm.exists_current
    rw [actionWarnings, hcurrent]
    cases htarget : s.state.target? action with
    | none => simp only [htarget]
    | some target =>
      have hregistered : m.isRegistered target = true := hm.isRegistered_target hd (hm.state?_eq hd hs) htarget
      simp only [htarget, hregistered, if_true]
  logs hh hseat hop hcall := hm.logsFrom_perform hd hop (hh.apart hseat) hcall

/-- A description without violations is realized by a machine its states are registered with. -/
private theorem realizes_registerAll (hd : d.violations = []) (flag : FlagId) :
    let m := registerAll (fun s => decide (d.initial = s.name)) (d.states.map Definition.state) (.empty flag)
    m.Realizes d ∧ m.initial = some d.initial ∧ m.current = some d.initial := by
  obtain ⟨⟨s, hs, hname⟩, -, -⟩ := Description.violations_eq_nil_iff.1 hd
  have hdefined : ∃ t ∈ d.states.map Definition.state, t.name = d.initial :=
    ⟨s.state, List.mem_map_of_mem hs, by rw [Definition.state_name, hname]⟩
  obtain ⟨hinitial, hcurrent, hattached⟩ := registerAll_founds (m := .empty flag) rfl (state?_empty flag _) hdefined
  refine ⟨⟨fun name => ?_, hattached, ?_, ?_⟩, hinitial, hcurrent⟩
  · rw [state?_registerAll, state?_empty, Option.none_or, List.find?_map]
    simp only [Function.comp_def, Definition.state_name]
  · exact isInvariant_sound.registerAll (sound_empty flag) _ _
  · rw [hcurrent]
    exact Option.some_ne_none _

end Machine

namespace Loader.Reachable

/-- A machine made by a loader of a description without violations is started at the initial state, and does what the
description says as long as it is only driven, on whatever hubs and whatever the listeners do. -/
theorem runs_as {l : Loader} (hl : l.Reachable d) (hd : d.violations = []) (flag : FlagId) :
    ∃ m, (l.inject flag).1 = .ok m ∧ m.initial = some d.initial ∧ m.current = some d.initial ∧ m.isStarted = true ∧
      ∀ m', Relation.ReflTransGen Machine.Drives m m' → m'.RunsAs d := by
  obtain ⟨hrealizes, hinitial, hcurrent⟩ := Machine.realizes_registerAll hd flag
  refine ⟨_, hl.inject_eq hd flag, hinitial, hcurrent, ?_, fun m' hlater => (hrealizes.driven hlater).runsAs hd⟩
  rw [Machine.isStarted, hcurrent, Option.isSome_some]

/-- The machine of a door that is `closed` first follows `push`, to the first of its targets, and ignores `pull`.  Where
nobody listens a push leaves it `open`, and from then on it ignores `push` too. -/
theorem runs_as_door :
    let door : Description := ⟨"closed",
      [⟨"closed", none, some "unlock", none, some [⟨"push", "open"⟩, ⟨"push", "closed"⟩]⟩,
        ⟨"open", none, none, none, none⟩]⟩
    door.violations = [] ∧ (Loader.new door).Reachable door ∧
    ∃ m, ((Loader.new door).inject 0).1 = .ok m ∧ m.current = some "closed" ∧
      (∀ (publish : Publisher Unit Unit) (payload : Json) (h : Hub Unit Unit),
        m.handleAction publish "push" payload h = m.transition publish "open" payload h ∧
        m.handleAction publish "pull" payload h = some (.ignored, m, h)) ∧
      ∃ m' h', m.handleAction (Hub.publishWithin (fun _ _ => .done) 1) "push" .null (Hub.empty 1 () : Hub Unit Unit) =
          some (.committed (some "closed") "open", m', h') ∧
        m'.current = some "open" ∧ m'.currentState = some (State.new "open") ∧
        ∀ (publish : Publisher Unit Unit) (payload : Json) (h : Hub Unit Unit),
          m'.handleAction publish "push" payload h = some (.ignored, m', h) := by
  intro door
  have hd : door.violations = [] := by decide
  refine ⟨hd, .new, ?_⟩
  obtain ⟨m, hm, -, hcurrent, -, hruns⟩ := runs_as .new hd 0
  have hnow : m.RunsAs door := hruns m .refl
  have hclosed : door.states.head (by decide) ∈ door.states := List.head_mem _
  have hopen : door.states.getLast (by decide) ∈ door.states := List.getLast_mem _
  refine ⟨m, hm, hcurrent, fun publish payload h => ⟨?_, ?_⟩, ?_⟩
  · exact hnow.follows hclosed hcurrent (b := ⟨"push", "open"⟩) (by decide) publish payload h
  · exact hnow.ignores hclosed hcurrent (by decide) publish payload h
  let publish : Publisher Unit Unit := Hub.publishWithin (fun _ _ => .done) 1
  have hpush : ((Loader.new door).inject 0).1.toOption.bind (fun m =>
      (m.handleAction publish "push" .null (Hub.empty 1 ())).map fun x => (x.1, x.2.1.current, x.2.1.currentState)) =
        some (.committed (some "closed") "open", some "open", some (State.new "open")) := by decide
  rw [hm] at hpush
  obtain ⟨⟨o, m', h'⟩, hcall, heq⟩ := Option.map_eq_some_iff.1 hpush
  obtain ⟨rfl, hcurrent', hplace⟩ : o = .committed (some "closed") "open" ∧ m'.current = some "open" ∧
      m'.currentState = some (State.new "open") := by simpa using heq
  have hperform : m.perform publish 0 (Hub.empty 1 ()) (.handleAction "push" .null) =
      some (.outcome (.committed (some "closed") "open"), m', h') := by
    rw [Machine.perform, hcall]
    rfl
  have hlater : m'.RunsAs door := hruns m' (.single ⟨_, _, publish, 0, _, h', _, _, rfl, hperform⟩)
  exact ⟨m', h', hcall, hcurrent', hplace, hlater.ignores hopen hcurrent' (by decide)⟩

end Loader.Reachable

end VetoMachine
