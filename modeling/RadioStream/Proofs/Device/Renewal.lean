import RadioStream.Proofs.Device.Separation
import RadioStream.Proofs.Module.Phases

/-!
A setup starts afresh. What a module keeps of its earlier streams, once it is set up again, is
the count of its setups and, on its link, the places where echoes would go on. The count shows
in nothing but stream numbers, and the places are forgotten when a start arms the link. So from
the setup on, the module answers and does the same as one that is newly created on a link in the
same state.
-/
namespace RadioStream
universe u

namespace Link

/-- A link whose echoes go on in other places. -/
def reroute (l : Link) (cursors : Table UInt8 Tick) : Link := { l with cursors := cursors }

/-- Links in the same state: all that is different are the places where echoes go on, and as long
as a link is not armed it does not echo. -/
def Alike (l l' : Link) : Prop := l' = l ∨ l.armed = none ∧ ∃ cursors, l' = l.reroute cursors

theorem write_unarmed {l : Link} (unarmed : l.armed = none) (packets : List TxPacket) :
    l.write packets = l.fault?.elim (.ok { l with submissions := l.submissions ++ [packets] })
      .error := by
  rw [write, unarmed]
  cases l.fault? with
  | some fault => rfl
  | none => cases l.loopback <;> rfl

theorem read_reroute (l : Link) (cursors : Table UInt8 Tick) :
    (l.reroute cursors).read = l.read.map (·.map fun x => (x.1, x.2.reroute cursors)) := by
  have same : (l.reroute cursors).fault? = l.fault? := rfl
  have incoming : (l.reroute cursors).incoming = l.incoming := rfl
  rw [read, read, same, incoming]
  cases l.fault? with
  | some fault => rfl
  | none => cases l.incoming <;> rfl

end Link

namespace RfModule

/-- Modules that go on alike. What differs in their links is forgotten before a stream runs. -/
structure Alike (m n : RfModule) : Prop where
  stage_eq : n.stage = m.stage
  link : m.link.Alike n.link
  link_eq : m.phase = .running → n.link = m.link

/-- The same call on two modules: it answers the same and leaves them alike. -/
structure AlikeAfter {β : Type u} (a b : β × RfModule) : Prop where
  answer_eq : b.1 = a.1
  alike : Alike a.2 b.2

end RfModule

namespace Link.Alike
variable {l l' : Link}

theorem hardwareTime_eq (alike : l.Alike l') : l'.hardwareTime = l.hardwareTime := by
  rcases alike with rfl | ⟨_, cursors, rfl⟩ <;> rfl

theorem channelCount_eq (alike : l.Alike l') : l'.channelCount = l.channelCount := by
  rcases alike with rfl | ⟨_, cursors, rfl⟩ <;> rfl

/-- Arming makes links that are alike the same. -/
theorem armLink_eq (alike : l.Alike l') (config : LinkConfig) :
    RfModule.armLink l' config = RfModule.armLink l config := by
  rcases alike with rfl | ⟨_, cursors, rfl⟩ <;> rfl

theorem event (alike : l.Alike l') (e : LinkEvent) :
    (LinkEvent.apply l e).Alike (LinkEvent.apply l' e) := by
  rcases alike with rfl | ⟨unarmed, cursors, rfl⟩
  · exact .inl rfl
  · refine .inr ⟨(e.apply_armed l).1.trans unarmed, cursors, ?_⟩
    cases e <;> rfl

/-- A call past the stream answers the same on links that are alike. -/
theorem call (alike : l.Alike l') (call : LinkCall) :
    (call.apply l').1 = (call.apply l).1 ∧ (call.apply l).2.Alike (call.apply l').2 := by
  rcases alike with rfl | ⟨unarmed, cursors, rfl⟩
  · exact ⟨rfl, .inl rfl⟩
  have stays : l.Alike (l.reroute cursors) := .inr ⟨unarmed, cursors, rfl⟩
  cases call with
  | move e => exact ⟨rfl, stays.event e⟩
  | time | submissions => exact ⟨rfl, stays⟩
  | disarm => exact ⟨rfl, .inr ⟨rfl, cursors, rfl⟩⟩
  | arm config =>
    have same : (l.reroute cursors).arm config = l.arm config := rfl
    rw [LinkCall.apply, LinkCall.apply, same]
    cases l.arm config with
    | error fault => exact ⟨rfl, stays⟩
    | ok armed => exact ⟨rfl, .inl rfl⟩
  | write packets =>
    have still : (l.reroute cursors).armed = none := unarmed
    have same : (l.reroute cursors).fault? = l.fault? := rfl
    rw [LinkCall.apply, LinkCall.apply, Link.write_unarmed unarmed, Link.write_unarmed still, same]
    cases l.fault? with
    | some fault => exact ⟨rfl, stays⟩
    | none => exact ⟨rfl, .inr ⟨unarmed, cursors, rfl⟩⟩
  | read =>
    rw [LinkCall.apply, LinkCall.apply, Link.read_reroute]
    cases arrived : l.read with
    | error fault => exact ⟨rfl, stays⟩
    | ok found =>
      cases found with
      | none => exact ⟨rfl, stays⟩
      | some next =>
        have armed := congrArg Link.armed (Link.wiring_read arrived)
        exact ⟨rfl, .inr ⟨armed.trans unarmed, cursors, rfl⟩⟩

end Link.Alike

namespace RfModule
variable {m n : RfModule} {α : Type} [HostSample α]

namespace Alike

theorem failure?_eq (alike : Alike m n) : n.failure? = m.failure? := by
  rw [RfModule.failure?, RfModule.failure?, alike.stage_eq]

/-- Where a stream runs, the links are one and the same. -/
theorem running (alike : Alike m n) {s : Session} (stage : m.stage = .running s) :
    n.link = m.link :=
  alike.link_eq (congrArg Stage.phase stage)

/-- Modules stay alike in another stage that runs only if they did. -/
theorem restage (alike : Alike m n) (stage : Stage)
    (onward : stage.phase = .running → m.phase = .running) :
    Alike { m with stage := stage } { n with stage := stage } :=
  ⟨rfl, alike.link, fun running => alike.link_eq (onward running)⟩

theorem clearFailure (alike : Alike m n) : Alike m.clearFailure n.clearFailure := by
  rw [RfModule.clearFailure, RfModule.clearFailure, alike.stage_eq]
  refine alike.restage _ fun running => ?_
  rw [Stage.phase_mapSession] at running
  exact running

theorem clearSnapshots (alike : Alike m n) : Alike m.clearSnapshots n.clearSnapshots := by
  rw [RfModule.clearSnapshots, RfModule.clearSnapshots, alike.stage_eq]
  refine alike.restage _ fun running => ?_
  rw [Stage.phase_mapSession] at running
  exact running

theorem surfacing {β : Type} {body : RfModule → Except Fault β × RfModule} (alike : Alike m n)
    (goesOn : AlikeAfter (body m) (body n)) : AlikeAfter (m.surfacing body) (n.surfacing body) := by
  rw [RfModule.surfacing, RfModule.surfacing, alike.failure?_eq]
  split
  · exact ⟨rfl, alike.clearFailure⟩
  · exact goesOn

theorem setupNow (alike : Alike m n) (config : StreamConfig) (monitor : Option Monitor) :
    AlikeAfter (m.setupNow config monitor) (n.setupNow config monitor) := by
  have phase : n.phase = m.phase := congrArg Stage.phase alike.stage_eq
  rw [RfModule.setupNow, RfModule.setupNow, alike.stage_eq, phase, alike.link.channelCount_eq]
  cases stage : m.stage with
  | configured s | running s => exact ⟨rfl, alike⟩
  | idle | stopped s =>
    dsimp only
    split
    · exact ⟨rfl, alike⟩
    · exact ⟨rfl, rfl, alike.link, fun running => Phase.noConfusion running⟩

theorem startNow (alike : Alike m n) : AlikeAfter m.startNow n.startNow := by
  apply alike.surfacing
  rw [alike.stage_eq, alike.link.hardwareTime_eq]
  cases stage : m.stage with
  | idle | stopped s | running s => exact ⟨rfl, alike⟩
  | configured s =>
    have fails (t : Session) :
        Alike { m with stage := .stopped t } { n with stage := .stopped t } :=
      alike.restage _ fun running => Phase.noConfusion running
    dsimp only
    split
    · exact ⟨rfl, fails _⟩
    · rw [alike.link.armLink_eq]
      split
      · exact ⟨rfl, fails _⟩
      · exact ⟨rfl, rfl, .inl rfl, fun _ => rfl⟩

/-- A stream that winds down does so on one link. -/
theorem windDown (s : LiveStream) (standing : TxStanding) :
    Alike (m.windDown s standing) (n.windDown s standing) :=
  ⟨rfl, .inl rfl, fun _ => rfl⟩

theorem stopNow (alike : Alike m n) : AlikeAfter m.stopNow n.stopNow := by
  have cleared := alike.clearFailure
  rw [RfModule.stopNow, RfModule.stopNow, alike.failure?_eq, cleared.stage_eq]
  cases stage : m.clearFailure.stage with
  | idle | stopped s => exact ⟨rfl, cleared⟩
  | configured s => exact ⟨rfl, cleared.restage _ fun running => Phase.noConfusion running⟩
  | running s =>
    rw [cleared.running stage]
    exact ⟨rfl, windDown _ _⟩

theorem receiveNow (alike : Alike m n) (channel : UInt8) (buffer : List α) (info : TransferMeta)
    (wait : Session → Wait) : AlikeAfter (m.receiveNow channel buffer info wait)
      (n.receiveNow channel buffer info wait) := by
  rw [RfModule.receiveNow, RfModule.receiveNow, alike.failure?_eq, alike.stage_eq]
  split
  · exact ⟨rfl, alike.clearFailure⟩
  · cases stage : m.stage with
    | running s => exact ⟨rfl, alike.restage _ fun _ => congrArg Stage.phase stage⟩
    | _ => exact ⟨rfl, alike⟩

theorem transmitNow (alike : Alike m n) (channel : UInt8) (samples : List α)
    (info : TransferMeta) (wait : Session → Wait) :
    AlikeAfter (m.transmitNow channel samples info wait)
      (n.transmitNow channel samples info wait) := by
  apply alike.surfacing
  rw [alike.stage_eq, alike.link.hardwareTime_eq]
  cases stage : m.stage with
  | running s => exact ⟨rfl, alike.restage _ fun _ => congrArg Stage.phase stage⟩
  | _ => exact ⟨rfl, alike⟩

theorem status (alike : Alike m n) (channel : UInt8) (direction : Direction) :
    AlikeAfter (m.status channel direction) (n.status channel direction) := by
  apply alike.surfacing
  rw [alike.stage_eq]
  cases m.stage.session? <;> exact ⟨rfl, alike⟩

theorem snapshots_eq (alike : Alike m n) : n.snapshots = m.snapshots := by
  rw [RfModule.snapshots, RfModule.snapshots, alike.stage_eq]

theorem onStream (alike : Alike m n) (f : LiveStream → LiveStream) :
    Alike (m.onStream f) (n.onStream f) := by
  rw [RfModule.onStream, RfModule.onStream, alike.stage_eq]
  cases stage : m.stage with
  | running s =>
    rw [alike.running stage]
    exact ⟨rfl, .inl rfl, fun _ => rfl⟩
  | _ => exact alike

theorem conclude (alike : Alike m n) (standing : TxStanding) :
    Alike (m.conclude standing) (n.conclude standing) := by
  rw [RfModule.conclude, RfModule.conclude, alike.stage_eq]
  cases stage : m.stage with
  | running s =>
    rw [alike.running stage]
    dsimp only
    split
    · exact windDown _ standing
    · exact alike
  | _ => exact alike

theorem concluded (alike : Alike m n) : Alike m.concluded n.concluded := by
  rw [RfModule.concluded, RfModule.concluded, alike.stage_eq]
  exact alike.conclude _

theorem settle (alike : Alike m n) : Alike m.settle n.settle := by
  rw [RfModule.settle, RfModule.settle, alike.stage_eq]
  cases stage : m.stage with
  | running s =>
    rw [alike.running stage]
    dsimp only
    split
    · exact windDown _ _
    · exact ⟨rfl, .inl rfl, fun _ => rfl⟩
  | _ => exact alike

theorem receiveIncoming (alike : Alike m n) : Alike m.receiveIncoming n.receiveIncoming := by
  rw [RfModule.receiveIncoming, RfModule.receiveIncoming, alike.stage_eq]
  cases stage : m.stage with
  | running s =>
    rw [alike.running stage]
    dsimp only
    split
    · exact windDown _ _
    · exact ⟨rfl, .inl rfl, fun _ => rfl⟩
  | _ => exact alike

theorem linkEvent (alike : Alike m n) (e : LinkEvent) :
    Alike (m.onLink (LinkEvent.apply · e)) (n.onLink (LinkEvent.apply · e)) :=
  ⟨alike.stage_eq, alike.link.event e, fun running => congrArg (LinkEvent.apply · e)
    (alike.link_eq running)⟩

theorem meanwhile (alike : Alike m n) (event : Meanwhile) :
    AlikeAfter (event.apply m) (event.apply n) := by
  cases event with
  | stop => exact alike.concluded.stopNow
  | deliver packets => exact ⟨rfl, (alike.linkEvent (.inject packets)).receiveIncoming⟩

theorem receiveDuring (alike : Alike m n) (channel : UInt8) (buffer : List α) (info : TransferMeta)
    (event : Meanwhile) :
    let a := m.receiveDuring channel buffer info event.apply
    let b := n.receiveDuring channel buffer info event.apply
    b.1 = a.1 ∧ b.2.1 = a.2.1 ∧ Alike a.2.2 b.2.2 := by
  have first := alike.concluded.receiveNow channel buffer info waitOf
  have during := first.alike.meanwhile event
  have second := during.alike.concluded.receiveNow channel buffer info waitOf
  dsimp only [RfModule.receiveDuring, RfModule.receive, RfModule.receiveWith]
  rw [first.answer_eq, during.answer_eq, during.alike.stage_eq]
  split
  · exact ⟨second.answer_eq, rfl, second.alike⟩
  · exact ⟨rfl, rfl, during.alike⟩
  · exact ⟨rfl, rfl, during.alike⟩

theorem transmitUntilStop (alike : Alike m n) (channel : UInt8) (samples : List α)
    (info : TransferMeta) :
    let a := m.transmitUntilStop channel samples info
    let b := n.transmitUntilStop channel samples info
    b.1 = a.1 ∧ b.2.1 = a.2.1 ∧ Alike a.2.2 b.2.2 := by
  have first := alike.concluded.transmitNow channel samples info fun s =>
    if s.config.tuning.poll then .poll else .interrupted
  have stopped := first.alike.concluded.stopNow
  exact ⟨first.answer_eq, stopped.answer_eq, stopped.alike⟩

theorem step (alike : Alike m n) (e : ModuleEvent) : Alike (m.step e) (n.step e) := by
  cases e with
  | setup config monitor => exact (alike.setupNow config monitor).alike
  | start => exact alike.startNow.alike
  | stop => exact alike.stopNow.alike
  | receive channel buffer info wait => exact (alike.receiveNow channel buffer info wait).alike
  | transmit channel samples info wait => exact (alike.transmitNow channel samples info wait).alike
  | status channel direction => exact (alike.status channel direction).alike
  | link e => exact alike.linkEvent e
  | read => exact alike.onStream .readOnce
  | send draining => exact alike.onStream fun s => (s.pass draining).1
  | halt reason => exact alike.onStream fun s => { s with session := s.session.halt reason }
  | keep reason => exact alike.onStream fun s => { s with session := s.session.keep reason }
  | shut => exact alike.onStream fun s => { s with session := s.session.shut }
  | conclude standing => exact alike.conclude standing
  | settle => exact alike.settle

/-- Every step for a module answers the same on modules that are alike and leaves them alike. -/
theorem serve (alike : Alike m n) (e : DeviceEvent) : AlikeAfter (e.serve m) (e.serve n) := by
  cases e with
  | setup _ config monitor =>
    have after := alike.concluded.setupNow config monitor
    exact ⟨congrArg Answer.done after.answer_eq, after.alike⟩
  | start _ =>
    have after := alike.concluded.startNow
    exact ⟨congrArg Answer.done after.answer_eq, after.alike⟩
  | stop _ =>
    have after := alike.concluded.stopNow
    exact ⟨congrArg Answer.done after.answer_eq, after.alike⟩
  | receive _ channel buffer info =>
    have after := alike.concluded.receiveNow channel buffer info waitOf
    exact ⟨congrArg Answer.delivery after.answer_eq, after.alike⟩
  | receiveDuring _ channel buffer info event =>
    obtain ⟨delivery, told, after⟩ := alike.receiveDuring channel buffer info event
    exact ⟨congrArg₂ (fun a b => Answer.both (.delivery a) (.done b)) delivery told, after⟩
  | transmit _ channel samples info =>
    have after := alike.concluded.transmitNow channel samples info waitOf
    exact ⟨congrArg Answer.count after.answer_eq, after.alike⟩
  | transmitUntilStop _ channel samples info =>
    obtain ⟨count, told, after⟩ := alike.transmitUntilStop channel samples info
    exact ⟨congrArg₂ (fun a b => Answer.both (.count a) (.done b)) count told, after⟩
  | status _ channel direction =>
    have after := alike.status channel direction
    exact ⟨congrArg Answer.snapshot after.answer_eq, after.alike⟩
  | phase _ =>
    have phase : n.concluded.phase = m.concluded.phase :=
      congrArg Stage.phase alike.concluded.stage_eq
    exact ⟨congrArg (fun p => Answer.phase (.ok p)) phase, alike.concluded⟩
  | takeSnapshots _ =>
    exact ⟨congrArg (fun shown => Answer.snapshots (.ok shown)) alike.snapshots_eq,
      alike.clearSnapshots⟩
  | settle _ => exact ⟨rfl, alike.settle⟩
  | single _ e => exact ⟨rfl, alike.step e⟩
  | link _ call =>
    obtain ⟨answer, after⟩ := alike.link.call call
    refine ⟨answer, alike.stage_eq, after, fun running => ?_⟩
    exact congrArg (fun l => (call.apply l).2) (alike.link_eq running)
  | board call => exact ⟨rfl, alike⟩

end Alike

/-- A setup that a stopped module accepts leaves it alike to one that is created for it. -/
theorem setup_alike {s : Session} (stopped : m.stage = .stopped s) {config : StreamConfig}
    {monitor : Option Monitor} (accepted : (m.setup config monitor).1 = .ok ()) {link : Link}
    (alike : m.link.Alike link) (index : UInt8) :
    AlikeAfter (m.setup config monitor) ((create index link).setup config monitor) := by
  have rests : m.phase ≠ .running := by
    rw [phase, stopped]
    exact Phase.noConfusion
  rw [RfModule.setup, m.concluded_eq rests, RfModule.setupNow, stopped] at accepted ⊢
  rw [RfModule.setup, concluded_eq _ Phase.noConfusion, RfModule.setupNow, create,
    alike.channelCount_eq]
  dsimp only at accepted ⊢
  split at accepted
  · contradiction
  · exact ⟨rfl, rfl, alike, fun running => Phase.noConfusion running⟩

end RfModule

namespace Device
variable {d d' : Device} {index : UInt8} {m n : RfModule}

theorem step_alike {e : DeviceEvent} (own : e.module? = some index)
    (there : d.module? index = .ok m) (there' : d'.module? index = .ok n) (alike : m.Alike n) :
    (d'.step e).1 = (d.step e).1 ∧ ∃ m' n', (d.step e).2.module? index = .ok m' ∧
      (d'.step e).2.module? index = .ok n' ∧ m'.Alike n' := by
  have after := alike.serve e
  rw [step_eq_onModule? own, step_eq_onModule? own, onModule?, onModule?, there, there']
  exact ⟨after.answer_eq, _, _, module?_putModule_self there _, module?_putModule_self there' _,
    after.alike⟩

/-- Devices whose modules are alike answer the steps for them alike, whatever else they do. -/
theorem run_alike (events : List DeviceEvent) (there : d.module? index = .ok m)
    (there' : d'.module? index = .ok n) (alike : m.Alike n) :
    answersTo index d' events = answersTo index d events ∧
      ∃ m' n', (d.run events).module? index = .ok m' ∧ (d'.run events).module? index = .ok n' ∧
        m'.Alike n' := by
  induction events generalizing d d' m n with
  | nil => exact ⟨rfl, m, n, there, there', alike⟩
  | cons e rest ih =>
    by_cases own : e.module? = some index
    · obtain ⟨answer, m', n', next, next', alike⟩ := step_alike own there there' alike
      obtain ⟨answers, last⟩ := ih next next' alike
      rw [answersTo, answersTo, if_pos own, if_pos own, answer, answers]
      exact ⟨rfl, last⟩
    · rw [answersTo, answersTo, if_neg own, if_neg own]
      exact ih ((step_other own).trans there) ((step_other own).trans there') alike

/-- Whatever history has left a module stopped: from the next setup on that it accepts, it answers
and does the same as a module that is newly created on a link in the same state. -/
theorem setup_starts_afresh (d fresh : Device) (history : List DeviceEvent)
    (there : (d.run history).module? index = .ok m) (stopped : m.phase = .stopped) {link : Link}
    (alike : m.link.Alike link) (new : fresh.module? index = .ok (.create index link))
    {config : StreamConfig} {monitor : Option Monitor}
    (accepted : ((d.run history).setup index config monitor).1 = .ok ())
    (events : List DeviceEvent) :
    let later := .setup index config monitor :: events
    answersTo index fresh later = answersTo index (d.run history) later ∧
      ∃ m' n', ((d.run history).run later).module? index = .ok m' ∧
        (fresh.run later).module? index = .ok n' ∧ n'.stage = m'.stage ∧
        m'.link.Alike n'.link ∧ (m'.phase = .running → n'.link = m'.link) := by
  intro later
  obtain ⟨s, stage⟩ : ∃ s, m.stage = .stopped s := by
    unfold RfModule.phase at stopped
    cases stage : m.stage with
    | stopped s => exact ⟨s, rfl⟩
    | _ => rw [stage] at stopped; contradiction
  have served : (m.setup config monitor).1 = .ok () := by
    rw [setup, onModule, there] at accepted
    exact accepted
  have first := RfModule.setup_alike stage served alike index
  have own : (DeviceEvent.setup index config monitor).module? = some index := rfl
  have answers : ∀ {d : Device} {m : RfModule}, d.module? index = .ok m →
      (d.step (.setup index config monitor)).1 = .done (m.setup config monitor).1 ∧
        (d.step (.setup index config monitor)).2.module? index =
          .ok (m.setup config monitor).2 := by
    intro d m there
    rw [step_eq_onModule? own, onModule?, there]
    exact ⟨rfl, module?_putModule_self there _⟩
  obtain ⟨answer, next⟩ := answers there
  obtain ⟨answer', next'⟩ := answers new
  obtain ⟨rest, m', n', last, last', alike⟩ := run_alike events next next' first.alike
  refine ⟨?_, m', n', last, last', alike.stage_eq, alike.link, alike.link_eq⟩
  rw [answersTo, answersTo, if_pos own, if_pos own, answer, answer', first.answer_eq, rest]

/-- A channel in each direction. -/
def duplex : StreamConfig := { StreamConfig.default with rxChannels := [0], txChannels := [0] }

/-- A stream that hears what it sends, has another transmission refused as late, and is stopped
with received samples still queued. -/
def echoed : List DeviceEvent :=
  [.setup 0 duplex none, .start 0,
    .transmit 0 0 [(⟨1, -1⟩ : IntSample), ⟨2, -2⟩] TransferMeta.plain.flushed,
    .settle 0, .link 0 (.move (.setTime (Tick.clamp 90))),
    .transmit 0 0 [(⟨3, -3⟩ : IntSample)] (.anchored .zero), .stop 0]

/-- A second stream on the same module. -/
def echoedAgain : List DeviceEvent :=
  [.start 0, .transmit 0 0 [(⟨4, -4⟩ : IntSample)] TransferMeta.plain.flushed, .settle 0,
    .receive 0 0 (List.replicate 5 (⟨0, 0⟩ : IntSample)) .plain, .status 0 0 .tx,
    .link 0 .submissions]

theorem setup_starts_afresh_echoed :
    let before := (⟨.simulated [2] false, [.create 0 (.simulated 2 true)]⟩ : Device).run echoed
    let later := .setup 0 duplex none :: echoedAgain
    ∃ m, before.module? 0 = .ok m ∧ m.phase = .stopped ∧ m.link.cursors ≠ .empty ∧
      (before.setup 0 duplex none).1 = .ok () ∧
      let fresh := before.putModule 0 (.create 0 (m.link.reroute .empty))
      answersTo 0 fresh later = answersTo 0 before later := by
  intro before later
  obtain ⟨m, there⟩ : ∃ m, before.module? 0 = .ok m := by
    rcases before.module?_cases 0 with found | missing
    · exact found
    · have found : (before.module? 0).isOk = true := by decide +kernel
      rw [missing] at found
      contradiction
  have facts : ∀ m ∈ (before.module? 0).toOption,
      m.phase = .stopped ∧ m.link.armed = none ∧ m.link.cursors ≠ .empty := by decide +kernel
  obtain ⟨stopped, unarmed, echoes⟩ := facts m (by rw [there]; rfl)
  have accepted : (before.setup 0 duplex none).1 = .ok () := by decide +kernel
  have alike : m.link.Alike (m.link.reroute .empty) := .inr ⟨unarmed, _, rfl⟩
  have new := module?_putModule_self there (.create 0 (m.link.reroute .empty))
  exact ⟨m, there, stopped, echoes, accepted,
    (setup_starts_afresh _ _ echoed there stopped alike new accepted echoedAgain).1⟩

end Device
end RadioStream
