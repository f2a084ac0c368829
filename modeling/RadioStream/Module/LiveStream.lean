import RadioStream.Link.Simulated
import RadioStream.Session.Reception
import RadioStream.Session.Transmission

/-!
A session at work on its link. Between calls the receive worker processes packets
until none is left and the transmit worker makes passes until one changes nothing;
echoed packets start another round. A halted stream finishes the pass it is in, sends
what is queued in draining passes, and is disarmed. Rounds and passes are bounded by
what is left to send.
-/
namespace RadioStream

structure LiveStream where
  session : Session
  link : Link

inductive PassOutcome where
  | noWrite
  | written
  | refused
deriving DecidableEq

/-- Where the transmit worker is when the stream halts. -/
inductive TxStanding where
  /-- At the start of a pass that has not looked for a halt. -/
  | waiting
  /-- Behind a pass; the next one sees the halt. -/
  | betweenPasses
  /-- A write of its own was refused. -/
  | gone
deriving DecidableEq

namespace Session

/-- Samples that are queued or held for transmission. -/
def outstanding (s : Session) : Nat :=
  s.tx.foldl (fun n l => n + l.queue.queued + l.held.elim 0 (·.length + 1)) 0

/-- Whether two states of a session differ in what a caller can see of its transmit lanes. -/
def txDiffers (s t : Session) : Bool :=
  (s.tx.map fun l => (l.queue.queued, l.traffic.late, l.traffic.underrun)) !=
    (t.tx.map fun l => (l.queue.queued, l.traffic.late, l.traffic.underrun))

/-- Where a call finds the transmit worker. If the session is halted, the passes before it saw the
halt have been made. -/
def standing (s : Session) : TxStanding :=
  if s.senderGone then .gone else if s.halted then .betweenPasses else .waiting

end Session

namespace LiveStream

/-- Processes packets until the link has none or the session halts, at most `steps` of them. -/
def processPackets : Nat → LiveStream → LiveStream
  | 0, s => s
  | steps + 1, s =>
    if s.session.halted then s
    else match s.link.read with
      | .error reason => { s with session := s.session.halt (some reason) }
      | .ok none => s
      | .ok (some (packet, link)) =>
        processPackets steps { session := s.session.accept packet, link := link }

def receiveAll (s : LiveStream) : LiveStream :=
  if s.session.rx.isEmpty then s else s.processPackets (s.link.incoming.length + 1)

def pass (s : LiveStream) (draining : Bool) : LiveStream × PassOutcome :=
  let p := s.session.beginPass s.link.hardwareTime draining
  if p.packets.isEmpty then ({ s with session := p.finish none }, .noWrite)
  else match s.link.write p.packets with
    | .ok link => ({ session := p.finish (some (.ok ())), link := link }, .written)
    | .error reason => ({ s with session := p.finish (some (.error reason)) }, .refused)

/-- Passes until one changes nothing, a write is refused or the session halts. `wrote` tells
whether there was a write before. -/
def sendReady (wrote : Bool) : Nat → LiveStream → LiveStream × TxStanding × Bool
  | 0, s => (s, .waiting, wrote)
  | steps + 1, s =>
    match s.pass false with
    | (next, .refused) => (next, .gone, wrote)
    | (next, outcome) =>
      let wrote := wrote || outcome == .written
      if next.session.halted then (next, .betweenPasses, wrote)
      else if outcome == .written || s.session.txDiffers next.session then
        sendReady wrote steps next
      else (next, .waiting, wrote)

/-- Passes that change something are fewer than this. -/
def passBound (s : LiveStream) : Nat := 3 * s.session.outstanding + s.session.tx.length + 1

def rounds : Nat → LiveStream → LiveStream × TxStanding
  | 0, s => (s, .waiting)
  | steps + 1, s =>
    let s := s.receiveAll
    if s.session.halted || s.session.tx.isEmpty then (s, .waiting)
    else
      let (s, standing, wrote) := s.sendReady false s.passBound
      if s.session.halted || !wrote || s.session.rx.isEmpty then (s, standing)
      else rounds steps s

def work (s : LiveStream) : LiveStream × TxStanding := s.rounds (s.session.outstanding + 1)

/-- Draining passes until nothing is left to send or a write is refused. -/
def drain : Nat → LiveStream → LiveStream
  | 0, s => s
  | steps + 1, s =>
    match s.pass true with
    | (next, .refused) => next
    | (next, _) => if next.session.isClear then next else drain steps next

/-- What the workers of a halted stream still do before the link is disarmed. -/
def windDown (s : LiveStream) (standing : TxStanding) : LiveStream :=
  let s := if s.session.tx.isEmpty then s
    else match standing with
      | .gone => s
      | .betweenPasses => s.drain (s.session.outstanding + 1)
      | .waiting =>
        match s.pass false with
        | (next, .refused) => next
        | (next, _) => next.drain (next.session.outstanding + 1)
  { s with link := s.link.disarm.2 }

end LiveStream
end RadioStream
