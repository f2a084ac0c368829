import RadioStream.Device
import RadioStream.Proofs.Module.Run

/-!
Runs of a device: calls on its modules, on their simulated links and on the board itself,
and steps of the workers, in any order. Every step has an answer, and all but those of the
board name the module that they are for.
-/
namespace RadioStream

/-- A call on the simulated link of a module, past its stream. -/
inductive LinkCall where
  | move (e : LinkEvent)
  | time
  | arm (config : LinkConfig)
  | disarm
  | write (packets : List TxPacket)
  | read
  | submissions

/-- A call of the board, which serves all modules. -/
inductive BoardCall where
  | configure (index : UInt8) (config : RadioConfig)
  | setClock (index : UInt8) (clock : Clock) (frequency : Double) (channel : UInt8)
  | clock (index : UInt8) (clock : Clock) (channel : UInt8)
  | reset
  | enableCache (enabled : Bool)
  | writeParameters (parameters : List BoardParameter)
  | readParameters (ids : List UInt8)

/-- What a step answers. -/
inductive Answer : Type 1 where
  | silent
  | done (outcome : Except Fault Unit)
  | count (outcome : Except Fault Nat)
  | delivery {α : Type} (d : Delivery α)
  | snapshot (outcome : Except Fault Snapshot)
  | snapshots (shown : Except Fault (List Snapshot))
  | phase (outcome : Except Fault Phase)
  | time (outcome : Except Fault Tick)
  | packet (outcome : Except Fault (Option RxPacket))
  | submissions (written : List (List TxPacket))
  | frequency (outcome : Except Fault Double)
  | parameters (outcome : Except Fault (List BoardParameter))
  /-- A call that waited, and what happened meanwhile. -/
  | both (call meanwhile : Answer)
  /-- There is no such link. -/
  | noLink

/-- What a receive call meets while it waits. -/
inductive Meanwhile where
  | stop
  | deliver (packets : List RxPacket)

def Meanwhile.apply : Meanwhile → RfModule → Except Fault Unit × RfModule
  | stop, m => m.stop
  | deliver packets, m => (.ok (), m.deliver packets)

/-- A step of a device. -/
inductive DeviceEvent : Type 1 where
  | setup (index : UInt8) (config : StreamConfig) (monitor : Option Monitor)
  | start (index : UInt8)
  | stop (index : UInt8)
  | receive {α : Type} [HostSample α] (index channel : UInt8) (buffer : List α)
    (info : TransferMeta)
  | receiveDuring {α : Type} [HostSample α] (index channel : UInt8) (buffer : List α)
    (info : TransferMeta) (meanwhile : Meanwhile)
  | transmit {α : Type} [HostSample α] (index channel : UInt8) (samples : List α)
    (info : TransferMeta)
  | transmitUntilStop {α : Type} [HostSample α] (index channel : UInt8) (samples : List α)
    (info : TransferMeta)
  | status (index channel : UInt8) (direction : Direction)
  | phase (index : UInt8)
  /-- The snapshots that the monitor of a module holds are taken. -/
  | takeSnapshots (index : UInt8)
  | settle (index : UInt8)
  /-- A single step of a module, such as one of its workers makes. -/
  | single (index : UInt8) (e : ModuleEvent)
  | link (index : UInt8) (call : LinkCall)
  | board (call : BoardCall)

/-- The module that a step is for; calls of the board are for none, also those that name one. -/
def DeviceEvent.module? : DeviceEvent → Option UInt8
  | setup index .. | start index | stop index | receive index .. | receiveDuring index ..
  | transmit index .. | transmitUntilStop index .. | status index .. | phase index
  | takeSnapshots index | settle index | single index _ | link index _ => some index
  | board _ => none

namespace LinkCall

def linkResult (l : Link) : Except Fault Link → Answer × Link
  | .ok next => (.done (.ok ()), next)
  | .error fault => (.done (.error fault), l)

def apply (l : Link) : LinkCall → Answer × Link
  | move e => (.silent, LinkEvent.apply l e)
  | time => (.time l.hardwareTime, l)
  | arm config => linkResult l (l.arm config)
  | disarm => (.done l.disarm.1, l.disarm.2)
  | write packets => linkResult l (l.write packets)
  | read =>
    match l.read with
    | .error fault => (.packet (.error fault), l)
    | .ok none => (.packet (.ok none), l)
    | .ok (some (packet, next)) => (.packet (.ok (some packet)), next)
  | submissions => (.submissions l.submissions, l)

end LinkCall

namespace Device

/-- The result of a call as a step, with what it answers told in one way. -/
def told {α : Type} (tell : α → Answer) (result : α × Device) : Answer × Device :=
  (tell result.1, result.2)

def boardStep (d : Device) : BoardCall → Answer × Device
  | .configure index config => told .done (d.configure index config)
  | .setClock index clock frequency channel =>
    told .done (d.setClockFrequency index clock frequency channel)
  | .clock index clock channel => (.frequency (d.clockFrequency index clock channel), d)
  | .reset => told .done (d.onBoard fun b => .ok b.reset)
  | .enableCache enabled => told .done (d.onBoard fun b => .ok (b.enableCache enabled))
  | .writeParameters parameters => told .done (d.onBoard (·.writeParameters parameters))
  | .readParameters ids => (.parameters (d.board.readParameters ids), d)

/-- A step on a module that may be absent. -/
def onModule? (d : Device) (index : UInt8) (absent : Answer)
    (call : RfModule → Answer × RfModule) : Answer × Device :=
  match d.module? index with
  | .error _ => (absent, d)
  | .ok m => ((call m).1, d.putModule index (call m).2)

def step (d : Device) : DeviceEvent → Answer × Device
  | .setup index config monitor => told .done (d.setup index config monitor)
  | .start index => told .done (d.start index)
  | .stop index => told .done (d.stop index)
  | @DeviceEvent.receive _ _ index channel buffer info =>
    told .delivery (d.receive index channel buffer info)
  | @DeviceEvent.receiveDuring _ _ index channel buffer info meanwhile =>
    d.onModule? index (.delivery ⟨.error (.invalidModule index), buffer, info⟩) fun m =>
      let waited := m.receiveDuring channel buffer info meanwhile.apply
      (.both (.delivery waited.1) (.done waited.2.1), waited.2.2)
  | @DeviceEvent.transmit _ _ index channel samples info =>
    told .count (d.transmit index channel samples info)
  | @DeviceEvent.transmitUntilStop _ _ index channel samples info =>
    d.onModule? index (.count (.error (.invalidModule index))) fun m =>
      let waited := m.transmitUntilStop channel samples info
      (.both (.count waited.1) (.done waited.2.1), waited.2.2)
  | .status index channel direction => told .snapshot (d.status index channel direction)
  | .phase index => told .phase (d.onModule index fun m => (.ok m.concluded.phase, m.concluded))
  | .takeSnapshots index =>
    told .snapshots (d.onModule index fun m => (.ok m.snapshots, m.clearSnapshots))
  | .settle index => (.silent, d.settle index)
  | .single index e => d.onModule? index .silent fun m => (.silent, m.step e)
  | .link index call =>
    d.onModule? index .noLink fun m =>
      ((call.apply m.link).1, { m with link := (call.apply m.link).2 })
  | .board call => d.boardStep call

def run (d : Device) (events : List DeviceEvent) : Device :=
  events.foldl (fun d e => (d.step e).2) d

/-- What the steps for one module answer in a run. -/
def answersTo (index : UInt8) (d : Device) : List DeviceEvent → List Answer
  | [] => []
  | e :: rest =>
    if e.module? = some index then (d.step e).1 :: answersTo index (d.step e).2 rest
    else answersTo index (d.step e).2 rest

end Device
end RadioStream
