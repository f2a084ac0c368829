import RadioStream.Proofs.Module.Run

/-!
The life of a module. One inversion lemma says all that a step can do to the phase, to
the halt of the session and to the arming of the link; from it follow what these have to
do with each other in every state, and how the phase and the count of armings move.
-/
namespace RadioStream

theorem LinkEvent.apply_armed (l : Link) (e : LinkEvent) :
    (LinkEvent.apply l e).armed = l.armed ∧ (LinkEvent.apply l e).armCount = l.armCount := by
  cases e <;> exact ⟨rfl, rfl⟩

theorem LiveStream.Works.armed_eq {s t : LiveStream} (works : Works s t) :
    t.link.armed = s.link.armed ∧ t.link.armCount = s.link.armCount := by
  have armed := congrArg Link.armed works.wiring_eq
  have armCount := congrArg Link.armCount works.wiring_eq
  exact ⟨armed, armCount⟩

/-- The moves that a stream can make, one at a time. -/
inductive Phase.Moves : Phase → Phase → Prop
  | configure : Moves idle configured
  | reconfigure : Moves stopped configured
  | start : Moves configured running
  | abandon : Moves configured stopped
  | finish : Moves running stopped

namespace Session
variable {α : Type} [HostSample α]

theorem receive_halted (s : Session) (channel : UInt8) (buffer : List α) (info : TransferMeta)
    (wait : Wait) : (s.receive channel buffer info wait).2.halted = s.halted := by
  rw [receive_frame]

theorem transmit_halted (s : Session) (channel : UInt8) (samples : List α) (info : TransferMeta)
    (reading : Except Fault Tick) (wait : Wait) :
    (s.transmit channel samples info reading wait).2.halted = s.halted := by
  rw [transmit_frame]

theorem keep_halted (s : Session) (reason : Option Fault) :
    (s.keep reason).halted = s.halted := by
  rw [keep]
  split <;> rfl

end Session

namespace Stage

@[simp] theorem phase_mapSession (f : Session → Session) (stage : Stage) :
    (stage.mapSession f).phase = stage.phase := by
  cases stage <;> rfl

@[simp] theorem session?_mapSession (f : Session → Session) (stage : Stage) :
    (stage.mapSession f).session? = stage.session?.map f := by
  cases stage <;> rfl

end Stage

namespace RfModule

theorem armLink_ok {l link : Link} {config : LinkConfig} (armed : armLink l config = .ok link) :
    link.isArmed = true ∧ link.armCount = l.armCount + 1 := by
  unfold armLink at armed
  split at armed
  · contradiction
  · unfold Link.arm at armed
    split at armed
    · contradiction
    · rw [← Except.ok.inj armed]
      exact ⟨rfl, rfl⟩

/-- Whether the session is halted, if there is one. -/
def halted? (m : RfModule) : Option Bool := m.stage.session?.map (·.halted)

/-- The monitor of the session, if there is a session. -/
def monitor? (m : RfModule) : Option (Option Monitor) := m.stage.session?.map (·.monitor)

/-- What one step makes of the phase, of the halt and the monitor of the session, and of the
link. -/
inductive Advance (e : ModuleEvent) (m n : RfModule) : Prop
  | stays (phase_eq : n.phase = m.phase)
    (halted_eq : m.phase ≠ .running ∨ e.mayHalt = false → n.halted? = m.halted?)
    (armed_eq : n.link.armed = m.link.armed) (armCount_eq : n.link.armCount = m.link.armCount)
    (quiet : m.phase ≠ .running →
      n.link = e.linkEvent?.elim m.link (LinkEvent.apply m.link) ∧ n.monitor? = m.monitor?)
  | configures (config : StreamConfig) (monitor : Option Monitor)
    (event_eq : e = .setup config monitor) (before : m.phase = .idle ∨ m.phase = .stopped)
    (stage_eq : n.stage = .configured (.create config monitor)) (link_eq : n.link = m.link)
  | starts (s t : Session) (event_eq : e = .start) (before : m.stage = .configured s)
    (stage_eq : n.stage = .running t) (halted_eq : t.halted = s.halted)
    (armed : n.link.isArmed = true) (armCount_eq : n.link.armCount = m.link.armCount + 1)
  | abandons (s t : Session) (event_eq : e = .start ∨ e = .stop) (before : m.stage = .configured s)
    (stage_eq : n.stage = .stopped t) (halted : t.halted = true)
    (monitor_eq : t.monitor = s.monitor) (link_eq : n.link = m.link)
  | ends (s : Session) (before : m.phase = .running) (stage_eq : n.stage = .stopped s)
    (halted : s.halted = true) (disarmed : n.link.armed = none)
    (armCount_eq : n.link.armCount = m.link.armCount)

namespace Advance
variable {e : ModuleEvent} {m n : RfModule}

theorem refl (silent : e.linkEvent? = none) (m : RfModule) : Advance e m m := by
  refine .stays rfl (fun _ => rfl) rfl rfl fun _ => ⟨?_, rfl⟩
  rw [silent]
  rfl

/-- To clear a failure changes nothing that counts here. -/
theorem clearFailure (silent : e.linkEvent? = none) (m : RfModule) :
    Advance e m m.clearFailure := by
  refine .stays (Stage.phase_mapSession _ m.stage) (fun _ => ?_) rfl rfl fun _ => ⟨?_, ?_⟩
  · rw [halted?, RfModule.clearFailure, Stage.session?_mapSession, Option.map_map]
    rfl
  · rw [silent]
    rfl
  · rw [monitor?, RfModule.clearFailure, Stage.session?_mapSession, Option.map_map]
    rfl

theorem surfacing {α : Type} (silent : e.linkEvent? = none)
    {body : RfModule → Except Fault α × RfModule} (advance : Advance e m (body m).2) :
    Advance e m (m.surfacing body).2 := by
  rw [RfModule.surfacing]
  split
  · exact clearFailure silent m
  · exact advance

/-- What the workers do to a running stream. -/
theorem onStream {f : LiveStream → LiveStream} (halts : e.mayHalt = true)
    (silent : e.linkEvent? = none)
    (keeps : ∀ s, (f s).link.armed = s.link.armed ∧ (f s).link.armCount = s.link.armCount) :
    Advance e m (m.onStream f) := by
  rw [RfModule.onStream]
  cases stage : m.stage with
  | running s =>
    have running : m.phase = .running := congrArg Stage.phase stage
    have link := keeps ⟨s, m.link⟩
    refine .stays running.symm ?_ link.1 link.2 fun other => absurd running other
    rintro (other | steady)
    · exact absurd running other
    · exact absurd halts (Bool.eq_false_iff.mp steady)
  | _ => exact refl silent m

theorem windDown {s : LiveStream} (running : m.phase = .running) (halted : s.session.halted = true)
    (armCount : s.link.armCount = m.link.armCount) (standing : TxStanding) :
    Advance e m (m.windDown s standing) := by
  obtain ⟨t, works, ended⟩ := LiveStream.Works.windDown s standing
  rw [RfModule.windDown, ended]
  exact .ends t.session running rfl (works.staysHalted halted).1 rfl
    (works.armed_eq.2.trans armCount)

theorem conclude (m : RfModule) (standing : TxStanding) :
    Advance (.conclude standing) m (m.conclude standing) := by
  rw [RfModule.conclude]
  cases stage : m.stage with
  | running s =>
    dsimp only
    split
    · next halted => exact windDown (congrArg Stage.phase stage) halted rfl standing
    · exact refl rfl m
  | _ => exact refl rfl m

theorem setupNow (m : RfModule) (config : StreamConfig) (monitor : Option Monitor) :
    Advance (.setup config monitor) m (m.setupNow config monitor).2 := by
  rw [RfModule.setupNow]
  cases stage : m.stage with
  | configured s | running s => exact refl rfl m
  | idle | stopped s =>
    have before : m.phase = .idle ∨ m.phase = .stopped := by simp [phase, stage, Stage.phase]
    dsimp only
    split
    · exact refl rfl m
    · exact .configures config monitor rfl before rfl rfl

theorem startNow (m : RfModule) : Advance .start m m.startNow.2 := by
  rw [RfModule.startNow]
  apply surfacing rfl
  cases stage : m.stage with
  | configured s =>
    have abandons (timeline : Timeline) : Advance .start m
        { m with stage := .stopped ({ s with timeline := timeline }.halt none) } :=
      .abandons s _ (.inl rfl) stage rfl (Session.halt_halted _ none) (Session.halt_monitor _ none)
        rfl
    dsimp only
    split
    · exact abandons s.timeline
    · split
      · exact abandons _
      · next link armed =>
        obtain ⟨isArmed, armCount⟩ := armLink_ok armed
        exact .starts s _ rfl stage rfl rfl isArmed armCount
  | _ => exact refl rfl m

theorem stopNow (m : RfModule) : Advance .stop m m.stopNow.2 := by
  rw [RfModule.stopNow]
  cases stage : m.stage with
  | configured s =>
    rw [RfModule.clearFailure, stage]
    exact .abandons s _ (.inr rfl) stage rfl (Session.halt_halted _ none)
      (Session.halt_monitor _ none) rfl
  | running s =>
    have running : m.phase = .running := congrArg Stage.phase stage
    rw [RfModule.clearFailure, stage]
    exact windDown running (Session.halt_halted _ none) rfl _
  | _ =>
    have cleared := clearFailure (e := .stop) rfl m
    rw [RfModule.clearFailure, stage] at cleared ⊢
    exact cleared

/-- A running stream whose session alone is changed and not halted. -/
theorem transfers {s t : Session} (stage : m.stage = .running s) (same : t.halted = s.halted) :
    Advance e m { m with stage := .running t } := by
  have running : m.phase = .running := congrArg Stage.phase stage
  refine .stays running.symm (fun _ => ?_) rfl rfl fun other => absurd running other
  rw [halted?, halted?, stage]
  exact congrArg some same

theorem keep (m : RfModule) (reason : Option Fault) :
    Advance (.keep reason) m (m.step (.keep reason)) := by
  rw [step, RfModule.onStream]
  cases stage : m.stage with
  | running s => exact transfers stage (s.keep_halted reason)
  | _ => exact refl rfl m

theorem receiveNow {α : Type} [HostSample α] (m : RfModule) (channel : UInt8) (buffer : List α)
    (info : TransferMeta) (wait : Session → Wait) :
    Advance (.receive channel buffer info wait) m (m.receiveNow channel buffer info wait).2 := by
  rw [RfModule.receiveNow]
  split
  · exact clearFailure rfl m
  · cases stage : m.stage with
    | running s => exact transfers stage (s.receive_halted channel buffer info (wait s))
    | _ => exact refl rfl m

theorem transmitNow {α : Type} [HostSample α] (m : RfModule) (channel : UInt8)
    (samples : List α) (info : TransferMeta) (wait : Session → Wait) :
    Advance (.transmit channel samples info wait) m
      (m.transmitNow channel samples info wait).2 := by
  rw [RfModule.transmitNow]
  apply surfacing rfl
  cases stage : m.stage with
  | running s => exact transfers stage (s.transmit_halted channel samples info _ (wait s))
  | _ => exact refl rfl m

theorem status (m : RfModule) (channel : UInt8) (direction : Direction) :
    Advance (.status channel direction) m (m.status channel direction).2 := by
  rw [RfModule.status]
  apply surfacing rfl
  cases m.stage.session? <;> exact refl rfl m

/-- A stream that still runs behind the work was not halted before it. -/
theorem settle (m : RfModule) : Advance .settle m m.settle := by
  rw [RfModule.settle]
  cases stage : m.stage with
  | running s =>
    have running : m.phase = .running := congrArg Stage.phase stage
    have works := LiveStream.Works.work ⟨s, m.link⟩
    obtain ⟨armed, armCount⟩ := works.armed_eq
    dsimp only
    split
    · next halted => exact windDown running halted armCount _
    · next live =>
      have before : ¬s.halted = true := fun halted => live (works.staysHalted halted).1
      refine .stays running.symm (fun _ => ?_) armed armCount fun other => absurd running other
      rw [halted?, halted?, stage]
      exact congrArg some ((Bool.eq_false_iff.mpr live).trans (Bool.eq_false_iff.mpr before).symm)
  | _ => exact refl rfl m

end Advance

theorem step_advance (m : RfModule) (e : ModuleEvent) : Advance e m (m.step e) := by
  cases e with
  | setup config monitor => exact .setupNow m config monitor
  | start => exact .startNow m
  | stop => exact .stopNow m
  | receive channel buffer info wait => exact .receiveNow m channel buffer info wait
  | transmit channel samples info wait => exact .transmitNow m channel samples info wait
  | status channel direction => exact .status m channel direction
  | link e =>
    obtain ⟨armed, armCount⟩ := e.apply_armed m.link
    exact .stays rfl (fun _ => rfl) armed armCount fun _ => ⟨rfl, rfl⟩
  | read => exact .onStream rfl rfl fun s => (LiveStream.Works.read s).armed_eq
  | send draining => exact .onStream rfl rfl fun s => (LiveStream.Works.pass s draining).armed_eq
  | halt reason =>
    exact .onStream (f := fun s => { s with session := s.session.halt reason }) rfl rfl
      fun _ => ⟨rfl, rfl⟩
  | keep reason => exact .keep m reason
  | shut =>
    exact .onStream (f := fun s => { s with session := s.session.shut }) rfl rfl
      fun _ => ⟨rfl, rfl⟩
  | conclude standing => exact .conclude m standing
  | settle => exact .settle m

/-- What phase, session and link have to do with each other, also while the halt of a running
stream is pending. -/
structure Coherent (m : RfModule) : Prop where
  armed_iff : m.link.isArmed = true ↔ m.phase = .running
  halted_iff : m.phase ≠ .running → (m.halted? = some true ↔ m.phase = .stopped)

theorem create_coherent (index channelCount : UInt8) (loopback : Bool) :
    Coherent (create index (.simulated channelCount loopback)) := by
  constructor
  · simp [create, Link.simulated, Link.isArmed, phase, Stage.phase]
  · simp [create, halted?, Stage.session?, phase, Stage.phase]

theorem Coherent.advance {e : ModuleEvent} {m n : RfModule} (coherent : Coherent m)
    (advance : Advance e m n) : Coherent n := by
  have armed := coherent.armed_iff
  unfold Link.isArmed at armed
  cases advance with
  | stays phase_eq halted_eq armed_eq armCount_eq =>
    constructor
    · rw [Link.isArmed, armed_eq, phase_eq]
      exact armed
    · intro other
      rw [phase_eq] at other ⊢
      rw [halted_eq (.inl other)]
      exact coherent.halted_iff other
  | configures config monitor _ before stage_eq link_eq =>
    have phase : n.phase = .configured := congrArg Stage.phase stage_eq
    constructor
    · rw [Link.isArmed, link_eq, armed, phase]
      rcases before with before | before <;> simp [before]
    · intro _
      simp [halted?, stage_eq, phase, Stage.session?, Session.create]
  | starts s t _ before stage_eq same isArmed armCount_eq =>
    have phase : n.phase = .running := congrArg Stage.phase stage_eq
    constructor
    · exact iff_of_true isArmed phase
    · intro other
      contradiction
  | abandons s t _ before stage_eq halted monitor_eq link_eq =>
    have configured : m.phase = .configured := congrArg Stage.phase before
    have phase : n.phase = .stopped := congrArg Stage.phase stage_eq
    constructor
    · rw [Link.isArmed, link_eq, armed, phase, configured]
      simp
    · intro _
      simp [halted?, stage_eq, phase, Stage.session?, halted]
  | ends s before stage_eq halted disarmed armCount_eq =>
    have phase : n.phase = .stopped := congrArg Stage.phase stage_eq
    constructor
    · simp [Link.isArmed, disarmed, phase]
    · intro _
      simp [halted?, stage_eq, phase, Stage.session?, halted]

theorem Coherent.run {m : RfModule} (coherent : Coherent m) (events : List ModuleEvent) :
    Coherent (m.run events) :=
  List.foldlRecOn events step coherent fun n coherent e _ => coherent.advance (n.step_advance e)

theorem Advance.moves {e : ModuleEvent} {m n : RfModule} (advance : Advance e m n) :
    (n.phase = m.phase ∨ Phase.Moves m.phase n.phase) ∧
      n.link.armCount = m.link.armCount +
        if m.phase = .configured ∧ n.phase = .running then 1 else 0 := by
  cases advance with
  | stays phase_eq halted_eq armed_eq armCount_eq =>
    refine ⟨.inl phase_eq, ?_⟩
    rw [phase_eq, armCount_eq, if_neg]
    · rfl
    · rintro ⟨configured, running⟩
      rw [configured] at running
      contradiction
  | configures config monitor _ before stage_eq link_eq =>
    have phase : n.phase = .configured := congrArg Stage.phase stage_eq
    rw [phase, link_eq]
    refine ⟨.inr ?_, by simp⟩
    rcases before with before | before <;> rw [before]
    · exact .configure
    · exact .reconfigure
  | starts s t _ before stage_eq same isArmed armCount_eq =>
    have configured : m.phase = .configured := congrArg Stage.phase before
    have phase : n.phase = .running := congrArg Stage.phase stage_eq
    rw [phase, configured, armCount_eq]
    exact ⟨.inr .start, rfl⟩
  | abandons s t _ before stage_eq halted monitor_eq link_eq =>
    have configured : m.phase = .configured := congrArg Stage.phase before
    have phase : n.phase = .stopped := congrArg Stage.phase stage_eq
    rw [phase, configured, link_eq]
    exact ⟨.inr .abandon, by simp⟩
  | ends s before stage_eq halted disarmed armCount_eq =>
    have phase : n.phase = .stopped := congrArg Stage.phase stage_eq
    rw [phase, before, armCount_eq]
    exact ⟨.inr .finish, by simp⟩

/-- Where no stream runs only a start and what happens to the link itself reach the link, and
no monitor is shown anything. -/
theorem Advance.quiet_of_resting {e : ModuleEvent} {m n : RfModule} (advance : Advance e m n)
    (rests : m.phase ≠ .running) (other : e.isStart = false) :
    n.link = e.linkEvent?.elim m.link (LinkEvent.apply m.link) ∧ n.phase ≠ .running ∧
      (n.monitor? = m.monitor? ∨
        ∃ config monitor, e = .setup config monitor ∧ n.monitor? = some monitor) := by
  cases advance with
  | stays phase_eq halted_eq armed_eq armCount_eq quiet =>
    obtain ⟨link_eq, monitor_eq⟩ := quiet rests
    exact ⟨link_eq, phase_eq ▸ rests, .inl monitor_eq⟩
  | configures config monitor event_eq before stage_eq link_eq =>
    have phase : n.phase = .configured := congrArg Stage.phase stage_eq
    subst event_eq
    refine ⟨link_eq, by rw [phase]; exact Phase.noConfusion, .inr ⟨config, monitor, rfl, ?_⟩⟩
    rw [monitor?, stage_eq]
    rfl
  | starts s t event_eq =>
    subst event_eq
    contradiction
  | abandons s t event_eq before stage_eq halted monitor_eq link_eq =>
    have phase : n.phase = .stopped := congrArg Stage.phase stage_eq
    obtain rfl : e = .stop := by
      rcases event_eq with rfl | stop
      · contradiction
      · exact stop
    refine ⟨link_eq, by rw [phase]; exact Phase.noConfusion, .inl ?_⟩
    rw [monitor?, monitor?, stage_eq, before]
    exact congrArg some monitor_eq
  | ends s before => exact absurd before rests

/-- No halt of a running stream is pending. -/
def AtRest (m : RfModule) : Prop := ∀ s, m.stage = .running s → s.halted = false

theorem conclude_atRest (m : RfModule) (standing : TxStanding) : (m.conclude standing).AtRest := by
  intro s stage
  rw [conclude] at stage
  split at stage
  · next t running =>
    split at stage
    · contradiction
    · next live =>
      obtain rfl := Stage.running.inj (running.symm.trans stage)
      exact Bool.eq_false_iff.mpr live
  · next other => exact absurd stage (other s)

theorem settle_atRest (m : RfModule) : m.settle.AtRest := by
  intro s stage
  rw [settle] at stage
  split at stage
  · next t running =>
    dsimp only at stage
    split at stage
    · contradiction
    · next live =>
      obtain rfl := Stage.running.inj stage
      exact Bool.eq_false_iff.mpr live
  · next other => exact absurd stage (other s)

theorem atRest_iff {m : RfModule} :
    m.AtRest ↔ (m.phase = .running → m.halted? = some false) := by
  rw [AtRest, phase, halted?]
  cases m.stage <;> simp [Stage.phase, Stage.session?]

/-- Only the workers and the monitor can bring about a pending halt. -/
theorem AtRest.advance {e : ModuleEvent} {m n : RfModule} (rest : m.AtRest)
    (coherent : Coherent m) (advance : Advance e m n) (steady : e.mayHalt = false) : n.AtRest := by
  rw [atRest_iff] at rest ⊢
  intro running
  cases advance with
  | stays phase_eq halted_eq =>
    rw [halted_eq (.inr steady)]
    exact rest (phase_eq ▸ running)
  | starts s t _ before stage_eq same =>
    have configured : m.phase = .configured := congrArg Stage.phase before
    have halted := coherent.halted_iff (by rw [configured]; exact Phase.noConfusion)
    rw [halted?, stage_eq]
    simpa [configured, halted?, before, Stage.session?, same] using halted
  | configures config monitor _ _ stage_eq =>
    exact Phase.noConfusion ((congrArg Stage.phase stage_eq).symm.trans running)
  | abandons s t _ _ stage_eq =>
    exact Phase.noConfusion ((congrArg Stage.phase stage_eq).symm.trans running)
  | ends s _ stage_eq =>
    exact Phase.noConfusion ((congrArg Stage.phase stage_eq).symm.trans running)

/-- A conclusion brings no stream to run. -/
theorem running_of_concluded {m : RfModule} (running : m.concluded.phase = .running) :
    m.phase = .running := by
  by_contra other
  rw [m.concluded_eq other] at running
  exact other running

section transfer
variable {m : RfModule} {α : Type} [HostSample α] {channel : UInt8} {info : TransferMeta}
  {wait : Session → Wait} {count : Nat}

theorem running_of_received {buffer : List α}
    (received : (m.receiveWith channel buffer info wait).1.outcome = .ok count) :
    m.phase = .running := by
  apply running_of_concluded
  rw [receiveWith, receiveNow] at received
  split at received
  · contradiction
  · split at received
    · next s stage => exact congrArg Stage.phase stage
    · contradiction

theorem running_of_transmitted {samples : List α}
    (transmitted : (m.transmitWith channel samples info wait).1 = .ok count) :
    m.phase = .running := by
  apply running_of_concluded
  rw [transmitWith, transmitNow, surfacing] at transmitted
  split at transmitted
  · contradiction
  · split at transmitted
    · next s stage => exact congrArg Stage.phase stage
    · contradiction

end transfer

/-- The history of a module that was never started: the link has seen nothing but what happened
to it from outside, and the monitor is as it was handed over. -/
structure Unstarted (initial : Link) (events : List ModuleEvent) (m : RfModule) : Prop where
  link_eq : m.link = (events.filterMap ModuleEvent.linkEvent?).foldl LinkEvent.apply initial
  rests : m.phase ≠ .running
  monitor : ∀ monitor, m.monitor? = some monitor → ∃ config, .setup config monitor ∈ events

theorem unstarted_create (index channelCount : UInt8) (loopback : Bool) :
    Unstarted (.simulated channelCount loopback) []
      (create index (.simulated channelCount loopback)) :=
  ⟨rfl, Phase.noConfusion, fun monitor held => absurd held (Option.some_ne_none monitor).symm⟩

theorem Unstarted.step {initial : Link} {events : List ModuleEvent} {m : RfModule}
    (before : Unstarted initial events m) {e : ModuleEvent} (other : e.isStart = false) :
    Unstarted initial (events ++ [e]) (m.step e) := by
  obtain ⟨link_eq, rests, shown⟩ := (m.step_advance e).quiet_of_resting before.rests other
  constructor
  · rw [link_eq, List.filterMap_append, List.foldl_append, ← before.link_eq]
    cases e <;> rfl
  · exact rests
  · intro monitor held
    rcases shown with same | ⟨config, given, rfl, new⟩
    · obtain ⟨config, earlier⟩ := before.monitor monitor (same ▸ held)
      exact ⟨config, List.mem_append_left _ earlier⟩
    · obtain rfl := Option.some.inj (new.symm.trans held)
      exact ⟨config, List.mem_append_right _ (List.mem_singleton_self _)⟩

theorem Coherent.halted_at_rest {m : RfModule} (coherent : Coherent m) (rest : m.AtRest) :
    (∃ s, m.stage.session? = some s ∧ s.halted = true) ↔ m.phase = .stopped := by
  rw [← Option.map_eq_some_iff]
  change m.halted? = some true ↔ _
  by_cases running : m.phase = .running
  · rw [atRest_iff.mp rest running, running]
    exact iff_of_false (by simp) Phase.noConfusion
  · exact coherent.halted_iff running

/-- Over all runs of a module: what holds of phase, session and link wherever no halt is pending,
how phase and count of armings move, where samples are transferred, which steps end at rest, and
that nothing is seen of a module that was never started. -/
theorem lifecycle_coherent (index channelCount : UInt8) (loopback : Bool)
    (events : List ModuleEvent) :
    let initial := create index (.simulated channelCount loopback)
    let m := initial.run events
    (m.AtRest →
      (m.stage.session?.isSome = true ↔ m.phase ≠ .idle) ∧
      ((∃ s, m.stage.session? = some s ∧ s.halted = true) ↔ m.phase = .stopped) ∧
      (m.link.isArmed = true ↔ m.phase = .running)) ∧
    (∀ e, (e.mayHalt = false ∧ m.AtRest → (m.step e).AtRest) ∧
      ((m.step e).phase = m.phase ∨ Phase.Moves m.phase (m.step e).phase) ∧
      (m.step e).link.armCount = m.link.armCount +
        if m.phase = .configured ∧ (m.step e).phase = .running then 1 else 0) ∧
    (∀ standing, (m.conclude standing).AtRest) ∧ m.settle.AtRest ∧
    (∀ (α : Type) [HostSample α] channel (values : List α) info wait count,
      (m.receiveWith channel values info wait).1.outcome = .ok count ∨
        (m.transmitWith channel values info wait).1 = .ok count → m.phase = .running) ∧
    ((∀ e ∈ events, e.isStart = false) →
      m.link = (events.filterMap ModuleEvent.linkEvent?).foldl LinkEvent.apply initial.link ∧
        ∀ s, m.stage.session? = some s → ∃ config, .setup config s.monitor ∈ events) := by
  intro initial m
  have coherent : Coherent m := run_history (P := fun _ m => Coherent m)
    (create_coherent index channelCount loopback)
    (fun _ e coherent => coherent.advance (step_advance _ e)) events
  refine ⟨?_, ?_, m.conclude_atRest, m.settle_atRest, ?_, ?_⟩
  · intro rest
    refine ⟨?_, ?_, coherent.armed_iff⟩
    · rw [phase]
      cases m.stage <;> simp [Stage.session?, Stage.phase]
    · exact coherent.halted_at_rest rest
  · intro e
    have advance := step_advance m e
    exact ⟨fun ⟨steady, rest⟩ => rest.advance coherent advance steady, advance.moves⟩
  · rintro α _ channel values info wait count (received | transmitted)
    · exact running_of_received received
    · exact running_of_transmitted transmitted
  · intro unstarted
    have history : Unstarted initial.link events m := run_history (m := initial)
      (P := fun done m => (∀ e ∈ done, e.isStart = false) → Unstarted initial.link done m)
      (fun _ => unstarted_create index channelCount loopback)
      (fun done e before none => (before fun e member => none e (List.mem_append_left _ member)).step
        (none e (List.mem_append_right done (List.mem_singleton_self e)))) events unstarted
    refine ⟨history.link_eq, ?_⟩
    intro s session
    apply history.monitor
    rw [monitor?, session]
    rfl

/-- One receive channel. -/
def receiving : StreamConfig := { StreamConfig.default with rxChannels := [0] }

/-- A stream whose monitor ends it with the first packet. -/
def vetoed : List ModuleEvent :=
  [.setup receiving (some (.upTo 1)), .start,
    .link (.inject [⟨0, .zero, (List.range 40).map UInt8.ofNat⟩])]

theorem lifecycle_coherent_vetoed :
    let initial := create 0 (.simulated 2 false)
    let ended := initial.run (vetoed ++ [.settle])
    (initial.run vetoed).phase = .running ∧ ended.AtRest ∧ ended.phase = .stopped ∧
      (∃ s, ended.stage.session? = some s ∧ s.halted = true) ∧ ended.link.isArmed = false ∧
      ended.link.armCount = 1 := by
  intro initial ended
  have rest : ended.AtRest := by
    dsimp only [ended]
    rw [run_concat]
    exact (lifecycle_coherent 0 2 false vetoed).2.2.2.1
  have stopped : ended.phase = .stopped := by decide +kernel
  have facts := (lifecycle_coherent 0 2 false (vetoed ++ [.settle])).1
  have atRest := facts rest
  have halted_iff := atRest.2.1
  have armed_iff := atRest.2.2
  have disarmed : ended.link.isArmed = false := by
    apply Bool.eq_false_iff.mpr
    intro armed
    exact Phase.noConfusion (stopped.symm.trans (armed_iff.mp armed))
  exact ⟨by decide +kernel, rest, stopped, halted_iff.mpr stopped, disarmed, by decide +kernel⟩

end RfModule
end RadioStream
