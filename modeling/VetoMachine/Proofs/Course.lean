import VetoMachine.Proofs.Seats

/-!
# The course of a passage

A passage makes deliveries in two windows, that of the exit event and that of the enter event, and after both.
`Passage.Takes` says which deliveries a passage makes and what becomes of it: it ends in the first window during
which its cancel flag is raised, and is committed if there is none.  Every passage takes such a course, whatever
the listeners do (`Passage.run_course`), and so does every call to move to a registered state, in terms of the
state that the machine is in and of its target (`Machine.transition_course`).
-/

namespace VetoMachine

variable {M L : Type}

/-- A flag is raised during the delivery of an event, if the event is there. -/
def Vetoes (flag : FlagId) (event : Option Delivery) : Prop := ∃ d, event = some d ∧ d.Raises flag

/-! ### Consecutive deliveries -/

namespace Hub

/-- The hub makes these deliveries, and the journal accounts for a flag. -/
structure Delivers (flag : FlagId) (h : Hub M L) (ds : List Delivery) (h' : Hub M L) : Prop where
  balanced : ∀ d ∈ ds, Balanced d.during
  account : h.Account flag (ds.flatMap Delivery.entries) h'

namespace Delivers

variable {flag : FlagId} {h h' h'' : Hub M L} {xs ys : List Delivery}

theorem trans (hx : h.Delivers flag xs h') (hy : h'.Delivers flag ys h'') : h.Delivers flag (xs ++ ys) h'' where
  balanced := by
    intro d hd
    rcases List.mem_append.1 hd with hd | hd
    · exact hx.balanced d hd
    · exact hy.balanced d hd
  account := by
    rw [List.flatMap_append]
    exact hx.account.trans hy.account

/-- A flag that was down is up after an event if and only if the event was vetoed. -/
theorem raised {event : Option Delivery} (hx : h.Delivers flag event.toList h') (hdown : h.isRaised flag = false) :
    h'.isRaised flag = true ↔ Vetoes flag event := by
  rw [hx.account.raised, raised_mem_flatMap_entries, hdown]
  simp [Vetoes]

/-- Lowering flags before and after leaves no trace. -/
theorem deliveriesSince_eq {start stop : Hub M L} (hx : h.Delivers flag xs h')
    (hstart : start.journal = h.journal) (hstop : stop.journal = h'.journal) :
    start.deliveriesSince stop = xs := by
  have hj : stop.journal = (xs.flatMap Delivery.entries).reverse ++ start.journal := by
    rw [hstop, hx.account.journal, hstart]
  rw [deliveriesSince, entriesSince_eq hj, deliveries_flatMap_entries hx.balanced]

variable {respond : Response M L} {depth : Nat}

theorem of_publishWithin (ha : h.Apart flag) {n : Notification} (hpub : publishWithin respond depth n h = some h') :
    ∃ d : Delivery, d.note = n ∧ h.Delivers flag [d] h' := by
  obtain ⟨d, hn, hbal, hacc⟩ := account_of_publishWithin ha hpub
  refine ⟨d, hn, ?_, ?_⟩
  · intro x hx
    rw [List.mem_singleton.1 hx]
    exact hbal
  · rw [List.flatMap_singleton]
    exact hacc

theorem of_publishIfAny (ha : h.Apart flag) {n : Option Notification}
    (hpub : h.publishIfAny (publishWithin respond depth) n = some h') :
    ∃ w : Option Delivery, w.map (·.note) = n ∧ h.Delivers flag w.toList h' := by
  cases n with
  | none =>
    cases hpub
    exact ⟨none, rfl, nofun, .refl ha⟩
  | some n =>
    obtain ⟨d, hn, hd⟩ := of_publishWithin ha hpub
    refine ⟨some d, ?_, hd⟩
    rw [Option.map_some, hn]

end Delivers

end Hub

/-! ### Courses -/

/-- The deliveries of a passage: those of the exit event and of the enter event, if there are any, and the rest. -/
structure Course where
  exit : Option Delivery
  enter : Option Delivery
  rest : List Delivery

def Course.deliveries (c : Course) : List Delivery := c.exit.toList ++ c.enter.toList ++ c.rest

/-- The courses of a passage with the given cancel flag, and their outcomes. -/
inductive Passage.Takes (p : Passage) (flag : FlagId) (payload : Json) : Course → Outcome → Prop where
  | vetoedOnExit {exit : Option Delivery} (hexit : exit.map (·.note) = p.exitNote payload)
      (hveto : Vetoes flag exit) :
      Takes p flag payload ⟨exit, none, []⟩ (.vetoedOnExit (p.source.getD "") p.target.name)
  | vetoedOnEnter {exit enter : Option Delivery} (hexit : exit.map (·.note) = p.exitNote payload)
      (hpass : ¬ Vetoes flag exit) (henter : enter.map (·.note) = p.enterNote payload)
      (hveto : Vetoes flag enter) :
      Takes p flag payload ⟨exit, enter, []⟩ (.vetoedOnEnter p.source p.target.name)
  | committed {exit enter changed : Option Delivery} {change : Delivery}
      (hexit : exit.map (·.note) = p.exitNote payload) (hpass : ¬ Vetoes flag exit)
      (henter : enter.map (·.note) = p.enterNote payload) (hpass' : ¬ Vetoes flag enter)
      (hchanged : changed.map (·.note) = p.changedNote payload) (hchange : change.note = p.changeNote) :
      Takes p flag payload ⟨exit, enter, changed.toList ++ [change]⟩ (.committed p.source p.target.name)

/-- A passage takes one of its courses: its deliveries are those in the journal. -/
theorem Passage.run_course {p : Passage} {flag : FlagId} {payload : Json} {respond : Response M L} {depth : Nat}
    {h h' : Hub M L} {o : Outcome} (ha : h.Apart flag)
    (hrun : p.run (Hub.publishWithin respond depth) flag payload h = some (o, h')) :
    ∃ c : Course, h.deliveriesSince h' = c.deliveries ∧ p.Takes flag payload c o := by
  obtain ⟨h₁, hpub₁, hrun⟩ := run_cases hrun
  have ha₀ : (h.lower flag).Apart flag := ha.of_machines_eq rfl
  have hdown₀ : (h.lower flag).isRaised flag = false := Hub.isRaised_lower_self h flag
  obtain ⟨exit, hexit, hd₁⟩ := Hub.Delivers.of_publishIfAny ha₀ hpub₁
  have hraised₁ : h₁.isRaised flag = true ↔ Vetoes flag exit := hd₁.raised hdown₀
  obtain ⟨hup₁, rfl, rfl⟩ | ⟨hdown₁, h₂, hpub₂, hrun⟩ := hrun
  · -- the flag is up after the exit event
    have hsince : h.deliveriesSince (h₁.lower flag) = exit.toList := hd₁.deliveriesSince_eq rfl rfl
    refine ⟨⟨exit, none, []⟩, ?_, .vetoedOnExit hexit (hraised₁.1 hup₁)⟩
    simp [hsince, Course.deliveries]
  have hpass₁ : ¬ Vetoes flag exit := by
    rw [← hraised₁, hdown₁]
    exact Bool.false_ne_true
  obtain ⟨enter, henter, hd₂⟩ := Hub.Delivers.of_publishIfAny hd₁.account.apart hpub₂
  have hraised₂ : h₂.isRaised flag = true ↔ Vetoes flag enter := hd₂.raised hdown₁
  have hd₁₂ := hd₁.trans hd₂
  obtain ⟨hup₂, rfl, rfl⟩ | ⟨hdown₂, h₃, h₄, hpub₃, hpub₄, rfl, rfl⟩ := hrun
  · -- the flag is up after the enter event
    have hsince : h.deliveriesSince (h₂.lower flag) = exit.toList ++ enter.toList :=
      hd₁₂.deliveriesSince_eq rfl rfl
    refine ⟨⟨exit, enter, []⟩, ?_, .vetoedOnEnter hexit hpass₁ henter (hraised₂.1 hup₂)⟩
    simp [hsince, Course.deliveries]
  have hpass₂ : ¬ Vetoes flag enter := by
    rw [← hraised₂, hdown₂]
    exact Bool.false_ne_true
  obtain ⟨changed, hchanged, hd₃⟩ := Hub.Delivers.of_publishIfAny hd₂.account.apart hpub₃
  obtain ⟨change, hchange, hd₄⟩ := Hub.Delivers.of_publishWithin hd₃.account.apart hpub₄
  have hsince : h.deliveriesSince (h₄.lower flag) = exit.toList ++ enter.toList ++ (changed.toList ++ [change]) :=
    (hd₁₂.trans (hd₃.trans hd₄)).deliveriesSince_eq rfl rfl
  exact ⟨⟨exit, enter, changed.toList ++ [change]⟩, hsince,
    .committed hexit hpass₁ henter hpass₂ hchanged hchange⟩

/-! ### Calls to move -/

def State.enterNote (s : State) (payload : Json) : Option Notification :=
  s.entering.map fun event => ⟨event, payload, none⟩

def State.changedNote (s : State) (payload : Json) : Option Notification :=
  s.changed.map fun event => ⟨event, payload, none⟩

namespace Machine

/-- The notification that the current state is left for another. -/
def exitNote (m : Machine) (target : String) (payload : Json) : Option Notification :=
  (m.currentState.bind (·.exiting)).map fun event => ⟨event, payload, some target⟩

theorem report_commit {m : Machine} {next : State} (hs : m.state? next.name = some next) :
    (m.commit next.name).report = next.toJson := by
  have hcurrent : (m.commit next.name).currentState = some next := hs
  rw [report, hcurrent]

variable {respond : Response M L} {depth : Nat} {h h' : Hub M L} {name : String} {m m' : Machine} {target : String}
  {payload : Json} {o : Outcome}

/-- A call to move is ignored and makes no deliveries, or the passage to its target takes a course. -/
theorem transition_course (hh : h.Reachable) (hseat : h.machines[name]? = some (.idle m))
    (hcall : m.transition (Hub.publishWithin respond depth) target payload (h.occupy name m) = some (o, m', h')) :
    (m.state? target = none ∧ o = .ignored ∧ h.deliveriesSince h' = []) ∨
      ∃ next c, m.state? target = some next ∧ next.name = target ∧ h.deliveriesSince h' = c.deliveries ∧
        (m.passageTo next).Takes m.flag payload c o := by
  obtain ⟨hs, ho, -, rfl⟩ | ⟨next, hs, hrun, -⟩ := transition_cases hcall
  · left
    have hsince : h.entriesSince (h.occupy name m) = [] := Hub.entriesSince_eq rfl
    exact ⟨hs, ho, by rw [Hub.deliveriesSince, hsince]; rfl⟩
  · right
    have hname : next.name = target := (hh.orderly.idle hseat).sound.named hs
    obtain ⟨c, hsince, htakes⟩ := Passage.run_course (hh.apart hseat) hrun
    exact ⟨next, c, hs, hname, hsince, htakes⟩

end Machine

end VetoMachine
