import RadioStream.ChannelQueue
import RadioStream.Counter
import RadioStream.Session.Timeline

/-!
A session: what one setup of a stream allocates. It holds a lane per channel with
its queue and counters, the time observed so far, and an optional monitor that sees a
snapshot after every transfer and can end the stream. Everything here is a plain
value; clocks, packets and the outcome of writes come in from outside.
-/
namespace RadioStream

structure Traffic where
  /-- Link bytes moved between queue and link. -/
  bytes : Nat
  packets : Nat
  /-- Blocks that met a full receive queue. -/
  overrun : Counter
  /-- Times the hardware ran out of samples to send. -/
  underrun : Counter
  /-- Ticks missing from the received sequence. -/
  loss : Counter
  /-- Timed transfers refused or dropped as late. -/
  late : Counter
deriving DecidableEq

namespace Traffic

def zero : Traffic := ⟨0, 0, .zero, .zero, .zero, .zero⟩

def transfer (t : Traffic) (bytes packets : Nat) : Traffic :=
  { t with bytes := t.bytes + bytes, packets := t.packets + packets }

def countOverrun (t : Traffic) : Traffic := { t with overrun := t.overrun.increment }
def countUnderrun (t : Traffic) : Traffic := { t with underrun := t.underrun.increment }
def countLate (t : Traffic) : Traffic := { t with late := t.late.increment }
def countLoss (t : Traffic) (ticks : Nat) : Traffic := { t with loss := t.loss.add ticks }

end Traffic

structure Snapshot where
  timestamp : Tick
  traffic : Traffic
  fill : Single
  direction : Direction
deriving DecidableEq

structure RxLane where
  channel : UInt8
  queue : ChannelQueue
  traffic : Traffic
  /-- The tick that the next packet should begin at. -/
  expected : Option Tick
deriving DecidableEq

structure TxLane where
  channel : UInt8
  queue : ChannelQueue
  traffic : Traffic
  /-- The batch taken from the queue that waits to go out. -/
  held : Option Block
  /-- Where the last batch ended, if the hardware expects more behind it. -/
  tail : Option Tick
deriving DecidableEq

def RxLane.create (channel : UInt8) (capacity : Nat) : RxLane :=
  ⟨channel, .empty capacity, .zero, none⟩

def TxLane.create (channel : UInt8) (capacity : Nat) : TxLane :=
  ⟨channel, .empty capacity, .zero, none, none⟩

def RxLane.snapshot (l : RxLane) (time : Tick) : Snapshot := ⟨time, l.traffic, l.queue.fill, .rx⟩
def TxLane.snapshot (l : TxLane) (time : Tick) : Snapshot := ⟨time, l.traffic, l.queue.fill, .tx⟩

/-- A receiver of snapshots. Its verdict on going on depends on those it holds. -/
structure Monitor where
  /-- Newest first. -/
  snapshots : List Snapshot
  accepts : List Snapshot → Bool

namespace Monitor

def recording : Monitor := ⟨[], fun _ => true⟩

/-- A monitor that ends the stream once it holds `limit` snapshots. -/
def upTo (limit : Nat) : Monitor := ⟨[], fun held => held.length < limit⟩

def clear (m : Monitor) : Monitor := { m with snapshots := [] }

end Monitor

structure Session where
  config : StreamConfig
  timeline : Timeline
  rx : List RxLane
  tx : List TxLane
  monitor : Option Monitor
  halted : Bool
  /-- A failure that no caller has been told about. -/
  failure : Option Fault
  /-- Whether the transmit worker has left because a write of its was refused. -/
  senderGone : Bool

namespace Session

def create (c : StreamConfig) (monitor : Option Monitor) : Session where
  config := c
  timeline := .ofConfig c
  rx := c.rxChannels.map fun channel => .create channel c.capacity
  tx := c.txChannels.map fun channel => .create channel c.capacity
  monitor := monitor
  halted := false
  failure := none
  senderGone := false

/-- Keeps the reason of a worker that fails, unless one is kept or the session is halted. -/
def keep (s : Session) (reason : Option Fault) : Session :=
  if s.halted then s else { s with failure := s.failure <|> reason }

/-- Marks the session as halted and stops all queues. -/
def shut (s : Session) : Session :=
  if s.halted then s
  else
    { s with
      halted := true
      rx := s.rx.map fun l => { l with queue := l.queue.stop }
      tx := s.tx.map fun l => { l with queue := l.queue.stop } }

/-- Ends the stream: the reason is kept first, and then the session is marked. The two are not
one step of the worker, so runs may have others between them. -/
def halt (s : Session) (reason : Option Fault) : Session := (s.keep reason).shut

/-- Where nothing falls between, a halt is one change of the session. -/
theorem halt_eq (s : Session) (reason : Option Fault) :
    s.halt reason =
      if s.halted then s
      else
        { s with
          halted := true
          failure := s.failure <|> reason
          rx := s.rx.map fun l => { l with queue := l.queue.stop }
          tx := s.tx.map fun l => { l with queue := l.queue.stop } } := by
  cases halted : s.halted <;> simp [halt, keep, shut, halted]

/-- Shows a snapshot to the monitor and halts if it asks for that. -/
def report (s : Session) (shown : Snapshot) : Session :=
  match s.monitor with
  | none => s
  | some m =>
    let held := shown :: m.snapshots
    let s := { s with monitor := some { m with snapshots := held } }
    if m.accepts held then s else s.halt none

def rxLane? (s : Session) (channel : UInt8) : Except Fault RxLane :=
  match s.rx.find? (·.channel == channel) with
  | some l => .ok l
  | none => .error (.invalidChannel channel)

def txLane? (s : Session) (channel : UInt8) : Except Fault TxLane :=
  match s.tx.find? (·.channel == channel) with
  | some l => .ok l
  | none => .error (.invalidChannel channel)

def putRx (s : Session) (lane : RxLane) : Session :=
  { s with rx := s.rx.map fun l => if l.channel = lane.channel then lane else l }

def putTx (s : Session) (lane : TxLane) : Session :=
  { s with tx := s.tx.map fun l => if l.channel = lane.channel then lane else l }

def status (s : Session) (channel : UInt8) : Direction → Except Fault Snapshot
  | .rx => do return (← s.rxLane? channel).snapshot s.timeline.current
  | .tx => do return (← s.txLane? channel).snapshot s.timeline.current

end Session
end RadioStream
