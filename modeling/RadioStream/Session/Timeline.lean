import RadioStream.Iq.Block
import RadioStream.StreamConfig.Basic

/-!
A session's idea of hardware time: the latest tick that a clock reading or a
received packet has shown. It never goes back, also when the clock does, and it
decides which timed samples are due, late or before an aligned start.
-/
namespace RadioStream

structure Timeline where
  /-- The latest tick seen; the least tick before the first one. -/
  observed : Tick
  /-- Ticks that a timed transfer may lag behind. -/
  tolerance : Nat
  /-- Ticks before its first one at which a timed batch may be submitted. -/
  lead : Nat
  /-- The common first tick of all receive channels. -/
  alignedStart : Option Tick
deriving DecidableEq

namespace Timeline

def ofConfig (c : StreamConfig) : Timeline where
  observed := .least
  tolerance := c.tuning.lateTolerance.toNat
  lead := c.txBatch
  alignedStart := none

/-- The observed time as shown to callers, who never see a negative one. -/
def current (l : Timeline) : Tick := max l.observed .zero

def observe (l : Timeline) (t : Tick) : Timeline := { l with observed := max l.observed t }

/-- The latest hardware time by a clock reading; without one, what was observed before. -/
def now (l : Timeline) (reading : Except Fault Tick) : Tick × Timeline :=
  match reading with
  | .ok t => ((l.observe t).observed, l.observe t)
  | .error _ => (l.current, l)

/-- Observes the clock at the start of a stream. Aligned channels begin one packet later. -/
def start (l : Timeline) (c : StreamConfig) (t : Tick) : Timeline :=
  { l.observe t with alignedStart := if c.alignPhase then some (t.later c.rxPacket) else none }

def isLate (l : Timeline) (timestamp now : Tick) : Bool := timestamp.later l.tolerance < now

def isDue (l : Timeline) (timestamp now : Tick) : Bool := timestamp ≤ now.later l.lead

/-- Trims what a received block holds before the aligned start. The distance is a difference of
two ticks in their register, cast to a count without a sign. A block more than half the range of
the clock before the start overflows it; the cast then still shows the distance, but where
arithmetic is checked the receive worker ends there, which is not modelled. -/
def align (l : Timeline) (b : Block) : Block :=
  match l.alignedStart with
  | some start =>
    if start ≤ b.start then b else b.advance (min (start.minus b.start).unsigned b.length)
  | none => b

end Timeline
end RadioStream
