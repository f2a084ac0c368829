import RadioStream.Fault
import RadioStream.Iq.Block

/-!
The bounded queue of one channel. A receive queue is written by overwriting, which
drops the oldest samples when it is full; a transmit queue takes what fits. Both are
read in runs: samples that follow each other without a gap, up to a flush mark. The
capacity is counted in samples. Time spent waiting is not modelled, only how a wait
ends.
-/
namespace RadioStream

/-- How a call that finds nothing to do goes on. -/
inductive Wait where
  /-- It returns at once. -/
  | poll
  /-- It waits, and the deadline passes without a change. -/
  | expires
  /-- It waits, and the stream is stopped meanwhile. -/
  | interrupted
deriving DecidableEq

/-- Why a queue operation moved nothing. -/
inductive QueueFault where
  | stopped
  | timedOut
  | empty
  /-- The requested tick is gone; `head` is the oldest one that is left. -/
  | late (requested head : Tick)
deriving DecidableEq

def QueueFault.toFault : QueueFault → Fault
  | stopped => .stopped
  | timedOut => .timeout
  | empty => .notYetAvailable
  | late requested head => .late requested head

/-- The end of a wait for samples that did not come. -/
def Wait.unserved : Wait → QueueFault
  | poll => .empty
  | expires => .timedOut
  | interrupted => .stopped

def Wait.afterOffer (accepted : Nat) : Wait → Except QueueFault Nat
  | poll => .ok accepted
  | expires => if accepted = 0 then .error .timedOut else .ok accepted
  | interrupted => if accepted = 0 then .error .stopped else .ok accepted

structure ChannelQueue where
  capacity : Nat
  /-- Oldest first. -/
  blocks : List Block
  queued : Nat
  stopped : Bool
deriving DecidableEq

namespace ChannelQueue

def empty (capacity : Nat) : ChannelQueue := ⟨capacity, [], 0, false⟩

def isEmpty (q : ChannelQueue) : Bool := q.queued = 0

/-- The filled part of the capacity, as a number from 0 to 1. -/
def fill (q : ChannelQueue) : Single :=
  ((Binary.ofNat q.queued).div (Binary.ofNat q.capacity)).restrict .zero (.ofNat 1)

/-- Ends waits; callers are refused from now on, what is queued can still be taken out. -/
def stop (q : ChannelQueue) : ChannelQueue := { q with stopped := true }

def append (q : ChannelQueue) (b : Block) : ChannelQueue :=
  if b.isEmpty then q
  else { q with blocks := q.blocks ++ [b], queued := q.queued + b.length }

/-- Gathers blocks onto `run` up to `limit` samples, as long as they continue it and no flush
mark is passed. Returns the run and what is left. -/
def gatherRun (limit : Nat) (run : Block) : List Block → Block × List Block
  | [] => (run, [])
  | front :: rest =>
    if limit ≤ run.length then (run, front :: rest)
    else if !run.isEmpty && !run.continuedBy front then (run, front :: rest)
    else
      let (longer, left) := run.gather front (limit - run.length)
      if !left.isEmpty then (longer, left :: rest)
      else if longer.flush then (longer, rest)
      else gatherRun limit longer rest

/-- Takes the run at the front, up to `limit` samples; none only when nothing is queued. -/
def takeRun? (q : ChannelQueue) (limit : Nat) : Option (Block × ChannelQueue) :=
  match q.blocks with
  | [] => none
  | front :: rest =>
    let (run, left) := gatherRun limit front.emptyLike (front :: rest)
    some (run, { q with blocks := left, queued := q.queued - run.length })

/-- Whether blocks behind `length` samples that end with `previous` reach a batch, a flush mark
or a gap. -/
def runEnds (batch length : Nat) (previous : Option Block) : List Block → Bool
  | [] => false
  | b :: rest =>
    if previous.any fun p => !p.continuedBy b then true
    else if batch ≤ length + b.length || b.flush then true
    else runEnds batch (length + b.length) (some b) rest

/-- Whether the run at the front can go out as a batch. -/
def runReady (q : ChannelQueue) (batch : Nat) : Bool := runEnds batch 0 none q.blocks

/-- Drops all samples before `t`. Returns what is left and how many were dropped. -/
def skipBlocks (t : Tick) : List Block → List Block × Nat
  | [] => ([], 0)
  | b :: rest =>
    if b.finish ≤ t then
      let (left, skipped) := skipBlocks t rest
      (left, b.length + skipped)
    else if b.start < t then (b.advance (b.start.gap t) :: rest, b.start.gap t)
    else (b :: rest, 0)

def skipBefore (q : ChannelQueue) (t : Tick) : ChannelQueue :=
  let (left, skipped) := skipBlocks t q.blocks
  { q with blocks := left, queued := q.queued - skipped }

/-- Drops the `n` oldest samples. Returns what is left and how many there were to drop. -/
def dropOldest (n : Nat) : List Block → List Block × Nat
  | [] => ([], 0)
  | b :: rest =>
    if n = 0 then (b :: rest, 0)
    else
      let skip := min n b.length
      let left := b.advance skip
      if left.isEmpty then
        let (others, dropped) := dropOldest (n - skip) rest
        (others, skip + dropped)
      else (left :: rest, skip)

/-- Appends a block and drops the oldest samples that no longer fit, be they queued or the
block's own. Returns how many were dropped. -/
def pushNewest (q : ChannelQueue) (b : Block) : ChannelQueue × Nat :=
  let excess := b.length - q.capacity
  let b := b.advance excess
  let (left, dropped) := dropOldest (q.queued + b.length - q.capacity) q.blocks
  ({ q with blocks := left, queued := q.queued - dropped }.append b, excess + dropped)

/-- Appends as much of a block as fits. Returns how many samples were accepted. -/
def offer (q : ChannelQueue) (b : Block) (wait : Wait) : Except QueueFault Nat × ChannelQueue :=
  if q.stopped then (.error .stopped, q)
  else
    let room := q.capacity - q.queued
    let (part, left) := b.emptyLike.gather b room
    let accepted := min room b.length
    (if 0 < room ∧ left.isEmpty then .ok accepted else wait.afterOffer accepted, q.append part)

def markLast : List Block → List Block
  | [] => []
  | [b] => [{ b with flush := true }]
  | b :: rest => b :: markLast rest

/-- Marks the newest block as the end of a burst, if there is one. -/
def markFlush (q : ChannelQueue) : ChannelQueue := { q with blocks := markLast q.blocks }

def pop (q : ChannelQueue) (limit : Nat) (wait : Wait) :
    Except QueueFault Block × ChannelQueue :=
  if q.stopped then (.error .stopped, q)
  else match q.takeRun? limit with
    | some (run, q) => (.ok run, q)
    | none => (.error wait.unserved, q)

/-- Takes the run that starts at `t`, or at most `tolerance` later, after dropping all samples
before `t`. -/
def popAt (q : ChannelQueue) (t : Tick) (limit : Nat) (wait : Wait) (tolerance : Nat) :
    Except QueueFault Block × ChannelQueue :=
  if q.stopped then (.error .stopped, q)
  else
    let q := q.skipBefore t
    match q.blocks.head? with
    | none => (.error wait.unserved, q)
    | some head =>
      if t.later tolerance < head.start then (.error (.late t head.start), q)
      else q.pop limit wait

/-- Takes the next batch if the run at the front is ready, its first tick is due, or `force`
asks for whatever is there. -/
def takeReady? (q : ChannelQueue) (batch : Nat) (force : Bool) (due : Tick → Bool) :
    Option (Block × ChannelQueue) :=
  let frontDue := q.blocks.head?.any fun front => front.timed && due front.start
  if force || frontDue || q.runReady batch then q.takeRun? batch else none

end ChannelQueue
end RadioStream
