import RadioStream.Proofs.Loopback.Echo
import RadioStream.Proofs.Module.Run
import RadioStream.Proofs.Module.WindDown
import RadioStream.Proofs.Reception.Conservation

/-!
A running stream and its link as one machine, seen from one channel. Calls on the channel
have one sample type; calls on other channels, the workers and what happens to the link
come in between, in any order. A transmit call that waits for room keeps the samples that
it has left to place.
-/
namespace RadioStream
open ChannelQueue (granted)

structure Circuit (α : Type) where
  stream : LiveStream
  /-- Calls that wait for room, with the samples that those on the channel have left. -/
  waiting : List (WaitingCall × List α)

inductive CircuitEvent (α : Type) : Type 1 where
  | transmit (samples : List α) (info : TransferMeta) (wait : Wait)
  | receive (buffer : List α) (info : TransferMeta) (wait : Wait)
  | transmitOn {β : Type} [HostSample β] (on : UInt8) (samples : List β) (info : TransferMeta)
    (wait : Wait)
  | receiveOn {β : Type} [HostSample β] (on : UInt8) (buffer : List β) (info : TransferMeta)
    (wait : Wait)
  /-- A waiting call wakes up and offers what it has left. -/
  | resume (place : Nat)
  /-- The receive worker takes a packet. -/
  | read
  /-- The transmit worker makes a pass. -/
  | send (draining : Bool)
  | link (e : LinkEvent)
  | halt (reason : Option Fault)

/-- Untimed transfers on the channel, other calls elsewhere, and a link that does not fail and is
brought no packets for the channel from outside. -/
def CircuitEvent.Fits {α : Type} (channel : UInt8) : CircuitEvent α → Prop
  | transmit _ info _ | receive _ info _ => info.useTimestamp = false
  | transmitOn on .. | receiveOn on .. => on ≠ channel
  | link (.inject packets) => ∀ p ∈ packets, p.channel ≠ channel
  | link (.fail _) => False
  | _ => True

namespace Session
variable (s : Session) (channel : UInt8)

/-- The encoded samples in the receive queue of a channel. -/
def heldOn : List (List UInt8) :=
  (s.rxOn channel).elim [] fun lane => lane.queue.content.map Stamped.bytes

end Session

namespace Circuit
variable {α : Type} [HostSample α]

def world (x : Circuit α) : World := ⟨x.stream.session, x.waiting.map Prod.fst⟩

def withSession (x : Circuit α) (s : Session) : Circuit α :=
  { x with stream := { x.stream with session := s } }

def step (channel : UInt8) (x : Circuit α) : CircuitEvent α → Circuit α
  | .transmit samples info wait =>
    let result := x.stream.session.transmit channel samples info x.stream.link.hardwareTime wait
    { stream := { x.stream with session := result.2 }
      waiting := x.waiting ++ ((WaitingCall.ofTransmit? x.stream.session.config channel samples
        info wait result.1).map fun call => (call, samples.drop (granted result.1))).toList }
  | .receive buffer info wait =>
    x.withSession (x.stream.session.receive channel buffer info wait).2
  | @CircuitEvent.transmitOn _ _ _ on samples info wait =>
    let result := x.stream.session.transmit on samples info x.stream.link.hardwareTime wait
    { stream := { x.stream with session := result.2 }
      waiting := x.waiting ++ ((WaitingCall.ofTransmit? x.stream.session.config on samples
        info wait result.1).map fun call => (call, [])).toList }
  | @CircuitEvent.receiveOn _ _ _ on buffer info wait =>
    x.withSession (x.stream.session.receive on buffer info wait).2
  | .resume place =>
    match x.waiting[place]? with
    | none => x
    | some (call, left) =>
      let result := x.stream.session.resume call
      { stream := { x.stream with session := result.2 }
        waiting := x.waiting.set place
          (call.after (granted result.1), left.drop (granted result.1)) }
  | .read => { x with stream := x.stream.readOnce }
  | .send draining => { x with stream := (x.stream.pass draining).1 }
  | .link e => { x with stream := { x.stream with link := LinkEvent.apply x.stream.link e } }
  | .halt reason => x.withSession (x.stream.session.halt reason)

def run (channel : UInt8) (x : Circuit α) (events : List (CircuitEvent α)) : Circuit α :=
  events.foldl (step channel) x

/-- The samples that a step places on the channel for transmission. -/
def accepted (channel : UInt8) (x : Circuit α) : CircuitEvent α → List α
  | .transmit samples info wait => samples.take
      (granted (x.stream.session.transmit channel samples info x.stream.link.hardwareTime wait).1)
  | .resume place =>
    match x.waiting[place]? with
    | some (call, left) =>
      if call.channel = channel then left.take (granted (x.stream.session.resume call).1) else []
    | none => []
  | _ => []

/-- The samples that a receive call on the channel hands out. -/
def received (channel : UInt8) (x : Circuit α) : CircuitEvent α → List α
  | .receive buffer info wait =>
    let delivery := (x.stream.session.receive channel buffer info wait).1
    delivery.buffer.take (granted delivery.outcome)
  | _ => []

/-- What `f` sees of every step of a run, in order. -/
def observe {β : Type} (channel : UInt8) (f : Circuit α → CircuitEvent α → List β)
    (x : Circuit α) : List (CircuitEvent α) → List β
  | [] => []
  | e :: rest => f x e ++ observe channel f (x.step channel e) rest

/-- The encoded samples of the channel that are between its two ends: in the receive queue, on
the link, and waiting for transmission. -/
def inside (size : Nat) (channel : UInt8) (x : Circuit α) : List (List UInt8) :=
  x.stream.session.heldOn channel ++ x.stream.link.carried size channel ++
    (x.stream.session.unsent channel).map Stamped.bytes

end Circuit
end RadioStream
