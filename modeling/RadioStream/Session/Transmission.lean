import RadioStream.Iq.Transfer
import RadioStream.Link.Packet
import RadioStream.Session.Basic

/-!
The transmit path. Callers queue samples; a pass of the transmit worker takes ready
batches into empty hands and lets some of them go, all in one write. Untimed batches
go at once. Of the timed ones those with the earliest tick go together once it is
due, or are dropped together when it is late. While draining everything counts as
ready and due. A pass is cut at its write, so that the outcome can come from outside.
-/
namespace RadioStream

structure Shipment where
  timed : Bool
  packets : List TxPacket
deriving DecidableEq

namespace Shipment

def bytes (s : Shipment) : Nat := (s.packets.flatMap (·.payload)).length

end Shipment

namespace Block

/-- Cuts a payload into pieces of at most `size` bytes. -/
def pieces (size : Nat) (bytes : List UInt8) : List (List UInt8) :=
  if _more : 0 < size ∧ bytes ≠ [] then bytes.take size :: pieces size (bytes.drop size) else []
termination_by bytes.length
decreasing_by
  have := List.length_pos_iff.mpr _more.2
  simp only [List.length_drop]
  omega

/-- Cuts a batch into packets of at most `packetSamples` samples. A timed packet carries the
tick of its own first sample, and only the last packet of a flushed batch is marked. -/
def packetize (b : Block) (channel : UInt8) (packetSamples : Nat) : List TxPacket :=
  let size := max packetSamples 1
  let parts := pieces (size * b.sampleSize) b.payload
  parts.mapIdx fun position part =>
    { channel := channel
      timestamp := if b.timed then some (b.start.later (position * size)) else none
      flush := b.flush && position + 1 = parts.length
      payload := part }

end Block

namespace TxLane

def pickUp (l : TxLane) (batch : Nat) (draining : Bool) (due : Tick → Bool) : TxLane :=
  match l.held with
  | some _ => l
  | none =>
    match l.queue.takeReady? batch draining due with
    | some (run, queue) => { l with held := some run, queue := queue }
    | none => l

def waitsFor? (l : TxLane) : Option Tick :=
  l.held.bind fun b => if b.timed then some b.start else none

/-- Whether the held batch leaves the hand: untimed ones do, timed ones at the open `gate`. -/
def leaves (l : TxLane) (gate : Option Tick) : Bool :=
  match l.held with
  | some b => !b.timed || some b.start == gate
  | none => false

/-- Lets the held batch go if it may, as a shipment or, when it is late, by dropping it. -/
def depart (l : TxLane) (gate : Option Tick) (late : Tick → Bool) (packetSamples : Nat) :
    TxLane × Option Shipment :=
  match l.held with
  | none => (l, none)
  | some b =>
    if !l.leaves gate then (l, none)
    else if b.timed && late b.start then
      ({ l with held := none, traffic := l.traffic.countLate }, none)
    else
      ({ l with held := none, tail := if b.timed && !b.flush then some b.finish else none },
        some ⟨b.timed, b.packetize l.channel packetSamples⟩)

def shipped (l : TxLane) (s : Shipment) : TxLane :=
  { l with traffic := l.traffic.transfer s.bytes s.packets.length }

/-- Counts an underrun, once per tail, when hardware time has passed the tail and there is
nothing more to send. -/
def settleTail (l : TxLane) (now : Tick) : TxLane :=
  match l.tail with
  | some finish =>
    if finish < now ∧ l.held = none ∧ l.queue.isEmpty then
      { l with tail := none, traffic := l.traffic.countUnderrun }
    else l
  | none => l

def isClear (l : TxLane) : Bool := l.held.isNone && l.queue.isEmpty

end TxLane

/-- A pass up to its write: the lanes after departures, each with what it ships. -/
structure TxPass where
  session : Session
  now : Tick
  lanes : List (TxLane × Option Shipment)

namespace TxPass

/-- Lanes with a shipment, in the order of the write: untimed ones before timed ones. -/
def shipments (p : TxPass) : List (TxLane × Shipment) :=
  let all := p.lanes.filterMap fun (lane, shipment) => shipment.map fun s => (lane, s)
  all.filter (!·.2.timed) ++ all.filter (·.2.timed)

def packets (p : TxPass) : List TxPacket := p.shipments.flatMap (·.2.packets)

def kept (p : TxPass) : List TxLane := p.lanes.map Prod.fst

def counted (p : TxPass) : List TxLane :=
  p.lanes.map fun (lane, shipment) => match shipment with
    | some s => lane.shipped s
    | none => lane

/-- The rest of a pass. A refused write halts the session, loses its batches and is the last of
the worker; after an accepted one they are counted and reported. `none` stands for a pass without
a write. -/
def finish (p : TxPass) (outcome : Option (Except Fault Unit)) : Session :=
  match outcome with
  | some (.error reason) =>
    { p.session with tx := p.kept, senderGone := true }.halt (some reason)
  | some (.ok ()) =>
    let s := p.shipments.foldl (fun s (lane, shipment) =>
      s.report ((lane.shipped shipment).snapshot s.timeline.current))
      { p.session with tx := p.counted }
    { s with tx := s.tx.map fun lane => lane.settleTail p.now }
  | none => { p.session with tx := p.kept.map fun lane => lane.settleTail p.now }

end TxPass

namespace Session

/-- The tick at which timed batches may leave: the earliest one held, once it is due. -/
def gate (now : Tick) (timeline : Timeline) (draining : Bool) (lanes : List TxLane) :
    Option Tick :=
  (lanes.filterMap (·.waitsFor?)).min?.filter fun t => draining || timeline.isDue t now

/-- The part of a pass before its write. `draining` tells whether it has seen the halt. -/
def beginPass (s : Session) (reading : Except Fault Tick) (draining : Bool) : TxPass :=
  let (now, timeline) := s.timeline.now reading
  let lanes := s.tx.map (·.pickUp s.config.txBatch draining (timeline.isDue · now))
  let open? := gate now timeline draining lanes
  { session := { s with timeline := timeline }
    now := now
    lanes := lanes.map (·.depart open? (timeline.isLate · now) s.config.txPacket) }

/-- Queues samples for transmission. Returns how many were accepted. A timed transfer is
refused when its tick has passed; an empty one at most marks the end of a burst. -/
def transmit {α : Type} [HostSample α] (s : Session) (channel : UInt8) (samples : List α)
    (info : TransferMeta) (reading : Except Fault Tick) (wait : Wait) :
    Except Fault Nat × Session :=
  if !HostSample.carries α s.config.hostFormat then
    (.error (.formatMismatch s.config.hostFormat), s)
  else match s.txLane? channel with
    | .error fault => (.error fault, s)
    | .ok lane =>
      let (now, timeline) :=
        if info.useTimestamp then s.timeline.now reading else (s.timeline.observed, s.timeline)
      let s := { s with timeline := timeline }
      if info.useTimestamp && timeline.isLate info.timestamp now then
        (.error (.late info.timestamp now),
          s.putTx { lane with traffic := lane.traffic.countLate })
      else if samples.isEmpty then
        (.ok 0, if info.flush then s.putTx { lane with queue := lane.queue.markFlush } else s)
      else
        let payload := HostSample.toLink s.config.hostFormat s.config.linkFormat samples
        let block := Block.outgoing info.anchor? info.flush payload
          s.config.linkFormat.sampleSize
        let (outcome, queue) := lane.queue.offer block wait
        (outcome.mapError QueueFault.toFault, s.putTx { lane with queue := queue })

def isClear (s : Session) : Bool := s.tx.all (·.isClear)

end Session
end RadioStream
