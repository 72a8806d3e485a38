import VetoMachine.Proofs.Seats
import VetoMachine.Session

/-!
# The hubs of a session

A session starts with a hub that can come about, and every instruction leads from such a hub to such a hub
(`Session.reachable_start`, `Session.reachable_perform`).  So what holds of these hubs holds throughout every session
(`Session.reachable_session`).
-/

namespace VetoMachine.Session

variable {s s' : Session} {name : String} {reply : Reply}

theorem reachable_newMachine (hs : s.hub.Reachable) (name : String) : (s.newMachine name).hub.Reachable :=
  hs.create (.new s.hub.nextFlag) rfl name

theorem reachable_start (capacity : Nat) : (start capacity).hub.Reachable :=
  reachable_newMachine (.empty capacity Memory.empty) defaultMachine

private theorem reachable_withMemory (hs : s.hub.Reachable) (f : Memory → Memory) : (s.withMemory f).hub.Reachable :=
  hs.elsewhere rfl (Nat.le_refl _)

private theorem reachable_warn (hs : s.hub.Reachable) (warnings : List Warning) : (s.warn warnings).hub.Reachable :=
  hs.of_quiet (Hub.Quiet.warn s.hub warnings)

private theorem reachable_release (hs : s.hub.Reachable) (id : MailboxId) : (s.hub.release id).Reachable :=
  hs.of_quiet (Hub.Quiet.release s.hub id)

private theorem reachable_hold (hs : s.hub.Reachable) (id : MailboxId) : (s.hub.hold id).Reachable :=
  hs.of_quiet (Hub.Quiet.updateMailbox s.hub id _)

private theorem reachable_connect {h : ScriptHub} (hh : h.Reachable) (flag : FlagId) : (h.connect flag).2.Reachable :=
  hh.elsewhere rfl (Nat.le_refl _)

private theorem reachable_nameMailbox (hs : s.hub.Reachable) (name : String) (id : MailboxId) :
    (s.nameMailbox name id).hub.Reachable := by
  have hnamed : (s.withMemory (·.setMailbox name id)).hub.Reachable := reachable_withMemory hs _
  unfold nameMailbox
  cases s.hub.memory.mailboxes[name]? with
  | none => exact hnamed
  | some old => exact reachable_release hnamed old

/-! ### Driving a machine -/

private theorem reachable_drive (hs : s.hub.Reachable) {f : Machine → ScriptHub → Option (Reply × Machine × ScriptHub)}
    (hf : ∀ {m m' k k' a}, f m k = some (a, m', k') →
      k.Persists k' ∧ (m.Reachable → m'.Reachable) ∧ m'.flag = m.flag)
    (hdrive : s.drive name f = some (reply, s')) : s'.hub.Reachable := by
  simp only [drive, Option.bind_eq_bind, Option.bind_eq_some_iff, Option.pure_def, Option.some.injEq,
    Prod.mk.injEq] at hdrive
  obtain ⟨⟨u, hub⟩, hcall, -, rfl⟩ := hdrive
  exact hs.drive hf hcall

private theorem reachable_look (hs : s.hub.Reachable) {f : Machine → Reply} (hlook : s.look name f = some (reply, s')) :
    s'.hub.Reachable := by
  refine reachable_drive hs ?_ hlook
  rintro m m' k k' a ⟨⟩
  exact ⟨.of_machines_eq rfl (Nat.le_refl _), id, rfl⟩

private theorem reachable_operate (hs : s.hub.Reachable) {op : Operation}
    (hoperate : s.operate name op = some (reply, s')) : s'.hub.Reachable := by
  refine reachable_drive hs ?_ hoperate
  intro m m' k k' a hcall
  rw [Option.map_eq_some_iff] at hcall
  obtain ⟨⟨b, _, _⟩, hcall, hb⟩ := hcall
  cases hb
  exact Hub.persists_perform hcall

private theorem reachable_drain (hs : s.hub.Reachable) {mailbox : MailboxId}
    (hdrain : s.drain name mailbox = some (reply, s')) : s'.hub.Reachable := by
  simp only [drain, Option.bind_eq_bind, Option.bind_eq_some_iff, Option.pure_def, Option.some.injEq,
    Prod.mk.injEq] at hdrain
  obtain ⟨⟨_, s₁⟩, hoperate, -, rfl⟩ := hdrain
  have hs₁ : s₁.hub.Reachable := by
    refine reachable_operate ?_ hoperate
    exact reachable_hold hs mailbox
  exact reachable_release hs₁ mailbox

private theorem reachable_populate (hs : s.hub.Reachable) {loader : String} {l : Loader}
    (hpopulate : s.populate name loader l = some (reply, s')) : s'.hub.Reachable := by
  have hset : (s.setLoader loader l.load.2).hub.Reachable := hs
  refine reachable_drive hset ?_ hpopulate
  intro m m' k k' a hcall
  have hwarn : k.Persists (k.warn (l.populateWarnings m)) := (Hub.Quiet.warn k _).persists
  cases hpopulated : (l.populate m).1 with
  | error r =>
    simp only [hpopulated, Option.some.injEq, Prod.mk.injEq] at hcall
    obtain ⟨-, rfl, rfl⟩ := hcall
    exact ⟨hwarn, id, rfl⟩
  | ok populated =>
    simp only [hpopulated, Option.some.injEq, Prod.mk.injEq] at hcall
    obtain ⟨-, rfl, rfl⟩ := hcall
    exact ⟨hwarn, fun hm => hm.populated hpopulated, (Machine.isInvariant_flag m.flag).populate rfl hpopulated⟩

/-! ### Making machines -/

private theorem reachable_build (hs : s.hub.Reachable) (name : String) (parts : List Part) :
    (s.build name parts).2.hub.Reachable := by
  unfold build
  cases assemble parts .empty with
  | error fault => exact hs
  | ok assembly =>
    cases hbuild : assembly.build s.hub.nextFlag with
    | error e =>
      simp only [Hub.newFlag, hbuild]
      exact hs
    | ok m =>
      have hflag : m.flag = s.hub.nextFlag := (Machine.isInvariant_flag s.hub.nextFlag).build rfl hbuild
      simp only [Hub.newFlag, hbuild]
      exact hs.create (.assembled hbuild) hflag name

private theorem reachable_inject (hs : s.hub.Reachable) (name loader : String) (l : Loader) :
    (s.inject name loader l).2.hub.Reachable := by
  have hissued : s.hub.newFlag.2.Reachable := hs.elsewhere rfl (Nat.le_succ _)
  unfold inject
  cases hinject : (l.inject s.hub.nextFlag).1 with
  | error r =>
    simp only [Hub.newFlag, hinject]
    exact hissued.of_quiet (Hub.Quiet.warn s.hub.newFlag.2 _)
  | ok m =>
    have hflag : m.flag = s.hub.nextFlag := (Machine.isInvariant_flag s.hub.nextFlag).populate rfl hinject
    have hmade : (s.hub.newFlag.2.seat name m).Reachable := hs.create (.injected hinject) hflag name
    have hquiet := Hub.Quiet.warn s.hub.newFlag.2 (l.injectWarnings s.hub.nextFlag)
    simp only [Hub.newFlag, hinject]
    -- the warnings are written before the machine takes its seat
    refine hmade.elsewhere ?_ (Nat.le_of_eq hquiet.nextFlag.symm)
    exact congrArg (·.insert name (.idle m)) hquiet.machines

/-! ### Steps -/

private theorem reachable_publishTimes {h h' : ScriptHub} (hh : h.Reachable) {n : Notification} {times : Nat}
    (hpub : publishTimes n times h = some h') : h'.Reachable := by
  induction times generalizing h with
  | zero => cases hpub; exact hh
  | succ times ih =>
    obtain ⟨h₁, hn, hrest⟩ := Option.bind_eq_some_iff.1 hpub
    exact ih (hh.publishWithin hn) hrest

private theorem reachable_withMailbox (hs : s.hub.Reachable) {mailbox : String} {f : MailboxId → Result}
    (hf : ∀ id, f id = some (reply, s') → s'.hub.Reachable) (hstep : s.withMailbox mailbox f = some (reply, s')) :
    s'.hub.Reachable := by
  unfold withMailbox at hstep
  split at hstep
  · exact hf _ hstep
  · cases hstep; exact hs

private theorem reachable_withLoader (hs : s.hub.Reachable) {loader : String} {f : Loader → Result}
    (hf : ∀ l, f l = some (reply, s') → s'.hub.Reachable) (hstep : s.withLoader loader f = some (reply, s')) :
    s'.hub.Reachable := by
  unfold withLoader at hstep
  split at hstep
  · exact hf _ hstep
  · cases hstep; exact hs

/-- A step leads to a hub that can come about. -/
theorem reachable_step (hs : s.hub.Reachable) {st : Step} (hstep : s.step name st = some (reply, s')) :
    s'.hub.Reachable := by
  cases st with
  | machine => cases hstep; exact reachable_newMachine hs name
  | build parts =>
    have hbuilt : (s.build name parts).2 = s' := congrArg Prod.snd (Option.some.inj hstep)
    rw [← hbuilt]
    exact reachable_build hs name parts
  | loader loader source strategy =>
    simp only [step] at hstep
    split at hstep <;> cases hstep <;> exact hs
  | onViolation loader strategy =>
    refine reachable_withLoader hs ?_ hstep
    rintro l ⟨⟩
    exact hs
  | load loader =>
    refine reachable_withLoader hs ?_ hstep
    rintro l ⟨⟩
    have hset : (s.setLoader loader l.load.2).hub.Reachable := hs
    exact reachable_warn hset l.loadWarnings
  | isInitial loader state =>
    refine reachable_withLoader hs ?_ hstep
    rintro l ⟨⟩
    exact hs
  | populate loader =>
    refine reachable_withLoader hs ?_ hstep
    intro l hl
    split at hl
    · exact reachable_populate hs hl
    · cases hl; exact hs
  | inject loader =>
    refine reachable_withLoader hs ?_ hstep
    intro l hl
    have hmade : (s.inject name loader l).2 = s' := congrArg Prod.snd (Option.some.inj hl)
    rw [← hmade]
    exact reachable_inject hs name loader l
  | publish n times =>
    obtain ⟨h', hpub, hstep⟩ := Option.bind_eq_some_iff.1 hstep
    cases hstep
    exact reachable_publishTimes hs hpub
  | subscribe event label effects => cases hstep; exact hs.elsewhere rfl (Nat.le_refl _)
  | unsubscribe label =>
    simp only [step] at hstep
    split at hstep
    · cases hstep; exact hs.of_quiet (Hub.Quiet.unsubscribe s.hub _)
    · cases hstep; exact hs
  | clearLog => cases hstep; exact hs.of_quiet (Hub.Quiet.clearLog s.hub)
  | mailbox mailbox =>
    cases hstep
    have hadded : s.hub.newMailbox.2.Reachable := hs.elsewhere rfl (Nat.le_refl _)
    exact reachable_nameMailbox hadded mailbox _
  | connect mailbox own =>
    simp only [step] at hstep
    cases hflag : (if own then none else s.hub.flagOf name) with
    | some flag =>
      rw [hflag] at hstep
      cases hstep
      exact reachable_nameMailbox (reachable_connect hs flag) mailbox _
    | none =>
      rw [hflag] at hstep
      cases hstep
      have hissued : s.hub.newFlag.2.Reachable := hs.elsewhere rfl (Nat.le_succ _)
      exact reachable_nameMailbox (reachable_connect hissued _) mailbox _
  | push mailbox action payload =>
    refine reachable_withMailbox hs ?_ hstep
    rintro id ⟨⟩
    exact hs.of_quiet (Hub.Quiet.push s.hub id _)
  | pop mailbox =>
    refine reachable_withMailbox hs ?_ hstep
    rintro id ⟨⟩
    exact hs.of_quiet (Hub.Quiet.pop s.hub id)
  | mailboxInfo mailbox =>
    refine reachable_withMailbox hs ?_ hstep
    rintro id ⟨⟩
    exact hs
  | mailboxClone mailbox copy =>
    refine reachable_withMailbox hs ?_ hstep
    rintro id ⟨⟩
    exact reachable_nameMailbox (reachable_hold hs id) copy id
  | mailboxDrop mailbox =>
    refine reachable_withMailbox hs ?_ hstep
    rintro id ⟨⟩
    exact reachable_release (reachable_withMemory hs _) id
  | register source asInitial =>
    simp only [step] at hstep
    split at hstep
    · split at hstep
      · cases hstep; exact hs
      · exact reachable_operate hs hstep
    · cases hstep; exact hs
  | operate op => exact reachable_operate hs hstep
  | drain mailbox =>
    simp only [step] at hstep
    split at hstep
    · refine reachable_withMailbox hs ?_ hstep
      intro id hdrain
      exact reachable_drain hs hdrain
    · cases hstep; exact hs
  | current | initial | started | state | states | isRegistered => exact reachable_look hs hstep
  | subscribers | published | publishedNames | publishedEnds | unknown => cases hstep; exact hs

/-- An instruction leads to a hub that can come about, also if it comes to no end. -/
theorem reachable_perform (hs : s.hub.Reachable) (i : Instruction) : (s.perform i).2.hub.Reachable := by
  unfold perform
  extract_lets _ _ clean
  have hclean : clean.hub.Reachable := hs.elsewhere rfl (Nat.le_refl _)
  cases hstep : clean.step i.machine i.step with
  | none => exact hclean
  | some r => exact reachable_step hclean hstep

/-- Whatever the instructions of a session are, its hub can come about after each of them. -/
theorem reachable_session (capacity : Nat) (instructions : List Instruction) :
    (instructions.foldl (fun s i => (s.perform i).2) (start capacity)).hub.Reachable := by
  suffices ∀ s : Session, s.hub.Reachable →
      (instructions.foldl (fun s i => (s.perform i).2) s).hub.Reachable from this _ (reachable_start capacity)
  induction instructions with
  | nil => exact fun _ hs => hs
  | cons i rest ih =>
    intro s hs
    exact ih _ (reachable_perform hs i)

end VetoMachine.Session
