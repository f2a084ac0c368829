import RadioStream.Iq.Codec
import RadioStream.Tick

/-!
Blocks: runs of link samples with the tick of the first one. Received blocks always
carry a tick; outgoing ones only when the caller asked for timed transmission.
Cutting a block moves its tick along with its bytes.
-/
namespace RadioStream

structure Block where
  start : Tick
  /-- Whether `start` gates transmission. -/
  timed : Bool
  /-- Whether the last sample ends a burst. -/
  flush : Bool
  payload : List UInt8
  sampleSize : Nat
deriving DecidableEq

namespace Block

/-- A block from the hardware; bytes that do not complete a sample are discarded. -/
def received (start : Tick) (payload : List UInt8) (sampleSize : Nat) : Block where
  start := start
  timed := true
  flush := false
  payload := payload.take (payload.length - payload.length % sampleSize)
  sampleSize := sampleSize

/-- A block queued by the host, timed exactly when a tick is given. -/
def outgoing (start : Option Tick) (flush : Bool) (payload : List UInt8) (sampleSize : Nat) :
    Block where
  start := start.getD .zero
  timed := start.isSome
  flush := flush
  payload := payload
  sampleSize := sampleSize

/-- A block without samples that others can be gathered into. -/
def emptyLike (b : Block) : Block := { b with flush := false, payload := [] }

def length (b : Block) : Nat := b.payload.length / b.sampleSize

def isEmpty (b : Block) : Bool := b.payload.isEmpty

/-- The tick just past the last sample, or the last tick there is. -/
def finish (b : Block) : Tick := b.start.later b.length

def samples (b : Block) : List (List UInt8) := wholeSamples b.sampleSize b.payload

/-- Whether `next` goes on without a gap: untimed after untimed, or timed from the tick
where this block ends. -/
def continuedBy (b next : Block) : Bool :=
  match b.timed, next.timed with
  | false, false => true
  | true, true => next.start = b.finish
  | _, _ => false

/-- Drops up to `count` leading samples. -/
def advance (b : Block) (count : Nat) : Block :=
  let count := min count b.length
  { b with
    start := b.start.later count
    payload := b.payload.drop (count * b.sampleSize) }

/-- Moves up to `count` leading samples of `source` behind those of `b`, and returns both. The
flush mark follows the last sample of `source`. -/
def gather (b source : Block) (count : Nat) : Block × Block :=
  let count := min count source.length
  let rest := source.advance count
  let head := if b.isEmpty then { b with start := source.start, timed := source.timed } else b
  ({ head with
      payload := b.payload ++ source.payload.take (count * b.sampleSize)
      flush := b.flush || (rest.isEmpty && source.flush) },
    rest)

end Block
end RadioStream
