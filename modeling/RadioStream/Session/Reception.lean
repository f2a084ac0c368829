import RadioStream.Iq.Transfer
import RadioStream.Link.Packet
import RadioStream.Session.Basic

/-!
The receive path. A packet is trimmed to the aligned start and to what its channel
has not seen yet, a gap before it is counted as loss, and what remains overwrites the
channel's queue. Callers take runs from the queue, at any tick or at one they ask for.
-/
namespace RadioStream

namespace RxLane

/-- Trims what the channel has already received. -/
def trim (l : RxLane) (b : Block) : Block :=
  match l.expected with
  | some next => b.advance (b.start.gap next)
  | none => b

/-- Ticks that are missing between the channel's last sample and a block. -/
def missing (l : RxLane) (b : Block) : Nat :=
  match l.expected with
  | some next => next.gap b.start
  | none => 0

/-- Takes in an aligned block. Returns the lane and whether any sample was accepted. A gap is
counted even before a block that has no samples. -/
def accept (l : RxLane) (b : Block) : RxLane × Bool :=
  let l := { l with traffic := l.traffic.countLoss (l.missing b) }
  let b := l.trim b
  if b.isEmpty then (l, false)
  else
    let (queue, dropped) := l.queue.pushNewest b
    let traffic := if 0 < dropped then l.traffic.countOverrun else l.traffic
    ({ l with
        queue := queue
        traffic := traffic.transfer b.payload.length 1
        expected := some b.finish },
      true)

/-- Takes a run out of the queue, at `anchor` if one is given. A request that is late is
counted. -/
def take (l : RxLane) (anchor : Option Tick) (limit : Nat) (wait : Wait) (tolerance : Nat) :
    Except QueueFault Block × RxLane :=
  let (result, queue) := match anchor with
    | some t => l.queue.popAt t limit wait tolerance
    | none => l.queue.pop limit wait
  let traffic := match result with
    | .error (.late _ _) => l.traffic.countLate
    | _ => l.traffic
  (result, { l with queue := queue, traffic := traffic })

end RxLane

/-- What a receive call leaves its caller with: its result, the buffer and the metadata. -/
structure Delivery (α : Type) where
  outcome : Except Fault Nat
  buffer : List α
  info : TransferMeta

namespace Session

/-- Processes one packet from the link. Packets for other channels leave no trace. -/
def accept (s : Session) (p : RxPacket) : Session :=
  match s.rxLane? p.channel with
  | .error _ => s
  | .ok lane =>
    let block := Block.received p.timestamp p.payload s.config.linkFormat.sampleSize
    let s := { s with timeline := s.timeline.observe block.finish }
    let (lane, accepted) := lane.accept (s.timeline.align block)
    let s := s.putRx lane
    if accepted then s.report (lane.snapshot s.timeline.current) else s

/-- Fills a buffer with received samples of a channel and stamps the metadata with the tick of
the first one. Without a requested tick an empty queue is no failure. -/
def receive {α : Type} [HostSample α] (s : Session) (channel : UInt8) (buffer : List α)
    (info : TransferMeta) (wait : Wait) : Delivery α × Session :=
  if !HostSample.carries α s.config.hostFormat then
    (⟨.error (.formatMismatch s.config.hostFormat), buffer, info⟩, s)
  else match s.rxLane? channel with
    | .error fault => (⟨.error fault, buffer, info⟩, s)
    | .ok lane =>
      let (taken, lane) := lane.take info.anchor? buffer.length wait s.timeline.tolerance
      let s := s.putRx lane
      match taken with
      | .ok run =>
        let (count, filled) :=
          HostSample.fillFromLink s.config.hostFormat s.config.linkFormat run.payload buffer
        (⟨.ok count, filled, { info with timestamp := run.start }⟩, s)
      | .error fault =>
        if fault = .empty ∧ !info.useTimestamp then (⟨.ok 0, buffer, info⟩, s)
        else (⟨.error fault.toFault, buffer, info⟩, s)

end Session
end RadioStream
