import RadioStream.Module.LiveStream

/-!
One RF module and the life of its streams: idle, configured, running, stopped, and
configured again by another setup. A call other than for the status first carries a
stream that halted on its own to its end, and then acts on the module as it stands.
Between calls `settle` lets the workers do all they can. A stream is identified by the
number of setups up to its own, in place of a random number.
-/
namespace RadioStream

/-- A phase together with the session it has. -/
inductive Stage where
  | idle
  | configured (session : Session)
  | running (session : Session)
  | stopped (session : Session)

namespace Stage

def phase : Stage → Phase
  | idle => .idle
  | configured _ => .configured
  | running _ => .running
  | stopped _ => .stopped

def session? : Stage → Option Session
  | idle => none
  | configured s | running s | stopped s => some s

def mapSession (f : Session → Session) : Stage → Stage
  | idle => idle
  | configured s => configured (f s)
  | running s => running (f s)
  | stopped s => stopped (f s)

end Stage

structure RfModule where
  index : UInt8
  link : Link
  stage : Stage
  /-- Setups so far; the number of a setup identifies its stream. -/
  setups : Nat

namespace RfModule

def create (index : UInt8) (link : Link) : RfModule := ⟨index, link, .idle, 0⟩

def phase (m : RfModule) : Phase := m.stage.phase

def streamId? (m : RfModule) : Option Nat := m.stage.session?.map fun _ => m.setups

def failure? (m : RfModule) : Option Fault := m.stage.session?.bind (·.failure)

def clearFailure (m : RfModule) : RfModule :=
  { m with stage := m.stage.mapSession fun s => { s with failure := none } }

/-- Runs `body` unless there is a failure to tell about first, which is then told. -/
def surfacing {α : Type} (m : RfModule) (body : RfModule → Except Fault α × RfModule) :
    Except Fault α × RfModule :=
  match m.failure? with
  | some failure => (.error failure, m.clearFailure)
  | none => body m

def windDown (m : RfModule) (s : LiveStream) (standing : TxStanding) : RfModule :=
  let s := s.windDown standing
  { m with stage := .stopped s.session, link := s.link }

/-- Carries a stream that halted on its own to its end. -/
def conclude (m : RfModule) (standing : TxStanding) : RfModule :=
  match m.stage with
  | .running s => if s.halted then m.windDown ⟨s, m.link⟩ standing else m
  | _ => m

/-- The module as a call leaves it before anything else: with no stream that runs halted. -/
def concluded (m : RfModule) : RfModule :=
  m.conclude (m.stage.session?.elim .waiting (·.standing))

/-- Allocates a stream. A failure of the previous one is forgotten. -/
def setupNow (m : RfModule) (config : StreamConfig) (monitor : Option Monitor) :
    Except Fault Unit × RfModule :=
  match m.stage with
  | .configured _ | .running _ => (.error (.alreadyConfigured m.phase), m)
  | .idle | .stopped _ =>
    match config.validate m.link.channelCount with
    | .error fault => (.error fault, m)
    | .ok () =>
      (.ok (), { m with
        stage := .configured (.create config monitor)
        setups := m.setups + 1 })

def setup (m : RfModule) (config : StreamConfig) (monitor : Option Monitor) :
    Except Fault Unit × RfModule :=
  m.concluded.setupNow config monitor

def linkConfig (s : Session) : LinkConfig where
  linkFormat := s.config.linkFormat
  rxChannels := s.config.rxChannels
  txChannels := s.config.txChannels
  rxPacket := s.config.rxPacket
  startTimestamp := s.timeline.alignedStart

/-- Arms the link for a stream, unless the link is told to refuse it. -/
def armLink (l : Link) (config : LinkConfig) : Except Fault Link :=
  if l.refusesArming then .error (.transportFailure "arm refused") else l.arm config

/-- Observes the clock, arms the link and lets the stream run. A start that fails ends the
stream. -/
def startNow (m : RfModule) : Except Fault Unit × RfModule :=
  m.surfacing fun m =>
    match m.stage with
    | .running _ => (.ok (), m)
    | .idle | .stopped _ => (.error .notConfigured, m)
    | .configured s =>
      match m.link.hardwareTime with
      | .error fault => (.error fault, { m with stage := .stopped (s.halt none) })
      | .ok now =>
        let s := { s with timeline := s.timeline.start s.config now }
        match armLink m.link (linkConfig s) with
        | .error fault => (.error fault, { m with stage := .stopped (s.halt none) })
        | .ok link => (.ok (), { m with stage := .running s, link := link })

def start (m : RfModule) : Except Fault Unit × RfModule := m.concluded.startNow

/-- Ends a stream after sending what is queued. -/
def stopNow (m : RfModule) : Except Fault Unit × RfModule :=
  let told : Except Fault Unit := match m.failure? with
    | some failure => .error failure
    | none => .ok ()
  let m := m.clearFailure
  match m.stage with
  | .idle => (.error .notConfigured, m)
  | .stopped _ => (told, m)
  | .configured s => (told, { m with stage := .stopped (s.halt none) })
  | .running s => (told, m.windDown ⟨s.halt none, m.link⟩ s.standing)

def stop (m : RfModule) : Except Fault Unit × RfModule := m.concluded.stopNow

/-- The workers do all they can do, to the end of the stream if it halts. -/
def settle (m : RfModule) : RfModule :=
  match m.stage with
  | .running s =>
    let (live, standing) := LiveStream.work ⟨s, m.link⟩
    if live.session.halted then m.windDown live standing
    else { m with stage := .running live.session, link := live.link }
  | _ => m

def close (m : RfModule) : RfModule :=
  match m.stage with
  | .running s => m.windDown ⟨s.halt none, m.link⟩ s.standing
  | _ => m

/-- The refusal of a transfer in a stage that moves no samples. -/
def transferFault : Stage → Fault
  | .configured _ => .notRunning
  | .stopped _ => .stopped
  | _ => .notConfigured

/-- How transfers of a session wait when the workers stand still. -/
def waitOf (s : Session) : Wait := if s.config.tuning.poll then .poll else .expires

def receiveNow {α : Type} [HostSample α] (m : RfModule) (channel : UInt8) (buffer : List α)
    (info : TransferMeta) (wait : Session → Wait) : Delivery α × RfModule :=
  match m.failure? with
  | some failure => (⟨.error failure, buffer, info⟩, m.clearFailure)
  | none =>
    match m.stage with
    | .running s =>
      let (delivery, s) := s.receive channel buffer info (wait s)
      (delivery, { m with stage := .running s })
    | stage => (⟨.error (transferFault stage), buffer, info⟩, m)

def transmitNow {α : Type} [HostSample α] (m : RfModule) (channel : UInt8) (samples : List α)
    (info : TransferMeta) (wait : Session → Wait) : Except Fault Nat × RfModule :=
  m.surfacing fun m =>
    match m.stage with
    | .running s =>
      let (outcome, s) := s.transmit channel samples info m.link.hardwareTime (wait s)
      (outcome, { m with stage := .running s })
    | stage => (.error (transferFault stage), m)

/-- A receive call whose wait ends as given. -/
def receiveWith {α : Type} [HostSample α] (m : RfModule) (channel : UInt8) (buffer : List α)
    (info : TransferMeta) (wait : Session → Wait) : Delivery α × RfModule :=
  m.concluded.receiveNow channel buffer info wait

/-- A transmit call whose wait ends as given. -/
def transmitWith {α : Type} [HostSample α] (m : RfModule) (channel : UInt8) (samples : List α)
    (info : TransferMeta) (wait : Session → Wait) : Except Fault Nat × RfModule :=
  m.concluded.transmitNow channel samples info wait

def receive {α : Type} [HostSample α] (m : RfModule) (channel : UInt8) (buffer : List α)
    (info : TransferMeta) : Delivery α × RfModule :=
  m.receiveWith channel buffer info waitOf

def transmit {α : Type} [HostSample α] (m : RfModule) (channel : UInt8) (samples : List α)
    (info : TransferMeta) : Except Fault Nat × RfModule :=
  m.transmitWith channel samples info waitOf

/-- The counters of a channel, in any stage that has a session. Nothing is concluded first. -/
def status (m : RfModule) (channel : UInt8) (direction : Direction) :
    Except Fault Snapshot × RfModule :=
  m.surfacing fun m =>
    match m.stage.session? with
    | none => (.error .notConfigured, m)
    | some s => (s.status channel direction, m)

def onLink (m : RfModule) (f : Link → Link) : RfModule := { m with link := f m.link }

def snapshots (m : RfModule) : List Snapshot :=
  match m.stage.session?.bind (·.monitor) with
  | some monitor => monitor.snapshots.reverse
  | none => []

def clearSnapshots (m : RfModule) : RfModule :=
  { m with stage := m.stage.mapSession fun s => { s with monitor := s.monitor.map (·.clear) } }

end RfModule
end RadioStream
