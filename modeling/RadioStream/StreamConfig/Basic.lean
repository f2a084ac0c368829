import RadioStream.Fault

/-!
What a stream is set up with: its channels, formats and sizes. Sizes left at zero
take defaults that depend on the link format. A configuration is accepted when every
batch fits into a channel queue and every listed channel exists once.
-/
namespace RadioStream

/-- Tuning of batches and waits; zero stands for a default. -/
structure StreamTuning where
  /-- Return at once instead of waiting for data or room. -/
  poll : Bool
  rxPacketSamples : UInt16
  rxBatchPackets : UInt32
  txBatchPackets : UInt32
  txPacketSamples : UInt16
  /-- Ticks that a timed transfer may lag behind hardware time. -/
  lateTolerance : UInt32
  waitMilliseconds : UInt32
deriving DecidableEq

def StreamTuning.default : StreamTuning where
  poll := true
  rxPacketSamples := 0
  rxBatchPackets := 0
  txBatchPackets := 0
  txPacketSamples := 0
  lateTolerance := 0
  waitMilliseconds := 0

structure StreamConfig where
  rxChannels : List UInt8
  txChannels : List UInt8
  hostFormat : SampleFormat
  linkFormat : SampleFormat
  bufferBytes : UInt32
  /-- Expected samples per second. -/
  rateHint : Single
  /-- Start all receive channels at one tick. -/
  alignPhase : Bool
  tuning : StreamTuning
deriving DecidableEq

namespace StreamConfig

def default : StreamConfig where
  rxChannels := []
  txChannels := []
  hostFormat := .i16
  linkFormat := .i16
  bufferBytes := 0
  rateHint := Binary.zero
  alignPhase := false
  tuning := .default

/-- A setting, or its default when it is left at zero. -/
def orDefault (setting fallback : Nat) : Nat := if setting = 0 then fallback else setting

def packetSamples (c : StreamConfig) (setting : UInt16) : Nat :=
  orDefault setting.toNat
    (if c.linkFormat = .i12 then Limits.packetSamplesPacked else Limits.packetSamples)

def rxPacket (c : StreamConfig) : Nat := c.packetSamples c.tuning.rxPacketSamples
def txPacket (c : StreamConfig) : Nat := c.packetSamples c.tuning.txPacketSamples

def rxBatch (c : StreamConfig) : Nat :=
  c.rxPacket * orDefault c.tuning.rxBatchPackets.toNat Limits.batchPackets

def txBatch (c : StreamConfig) : Nat :=
  c.txPacket * orDefault c.tuning.txBatchPackets.toNat Limits.batchPackets

def capacity (c : StreamConfig) : Nat :=
  max (orDefault c.bufferBytes.toNat Limits.bufferBytes / c.linkFormat.sampleSize) 1

def waitMilliseconds (c : StreamConfig) : Nat :=
  orDefault c.tuning.waitMilliseconds.toNat Limits.waitMilliseconds

def channels (c : StreamConfig) : Direction → List UInt8
  | .rx => c.rxChannels
  | .tx => c.txChannels

def batch (c : StreamConfig) : Direction → Nat
  | .rx => c.rxBatch
  | .tx => c.txBatch

/-- The first channel that is out of range or listed before; `seen` are the earlier ones. -/
def firstBadChannel? (direction : Direction) (available : UInt8) :
    List UInt8 → List UInt8 → Option ConfigFault
  | _, [] => none
  | seen, channel :: rest =>
    if available ≤ channel then some (.channelOutOfRange direction channel available)
    else if seen.contains channel then some (.channelRepeated direction channel)
    else firstBadChannel? direction available (channel :: seen) rest

def channelFault? (c : StreamConfig) (available : UInt8) (direction : Direction) :
    Option ConfigFault :=
  let channels := c.channels direction
  if Limits.channels < channels.length then some (.tooManyChannels direction channels.length)
  else firstBadChannel? direction available [] channels

def rateFault? (c : StreamConfig) : Option ConfigFault :=
  if !c.rateHint.isFinite || c.rateHint.below .zero then some (.invalidRate c.rateHint) else none

def batchFault? (c : StreamConfig) (direction : Direction) : Option ConfigFault :=
  if c.channels direction ≠ [] ∧ c.capacity < c.batch direction then
    some (.batchTooLarge direction (c.batch direction) c.capacity)
  else none

/-- The first reason against a configuration on a module with `available` channels. -/
def fault? (c : StreamConfig) (available : UInt8) : Option ConfigFault :=
  (if c.rxChannels = [] ∧ c.txChannels = [] then some .noChannels else none)
    <|> c.channelFault? available .rx
    <|> c.channelFault? available .tx
    <|> c.rateFault?
    <|> c.batchFault? .rx
    <|> c.batchFault? .tx

def validate (c : StreamConfig) (available : UInt8) : Except Fault Unit :=
  match c.fault? available with
  | some cause => .error (.invalidConfig cause)
  | none => .ok ()

/-- Numeric equality: zeros of the rate agree, and a rate that is not a number agrees with none. -/
def same (c d : StreamConfig) : Bool :=
  { c with rateHint := .zero } == { d with rateHint := .zero } && c.rateHint.same d.rateHint

end StreamConfig
end RadioStream
