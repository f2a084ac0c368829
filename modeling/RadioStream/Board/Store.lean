import RadioStream.Board.Description
import RadioStream.Board.RadioConfig
import RadioStream.Table

/-!
The simulated board. Settings are stored and not applied: a clock reads as the last
value written to it since the last reset, a configuration is checked as a whole
before any of it is stored, and control values outlive resets.
-/
namespace RadioStream

/-- A clock of a module. Oscillators are kept per channel, shared clocks under channel 0. -/
structure ClockAddress where
  module : UInt8
  clock : Clock
  channel : UInt8
deriving DecidableEq

namespace ClockAddress

def of (module : UInt8) (clock : Clock) (channel : UInt8) : ClockAddress :=
  match clock with
  | .reference | .cgen => ⟨module, clock, 0⟩
  | _ => ⟨module, clock, channel⟩

end ClockAddress

structure Board where
  description : BoardDescription
  configs : Table UInt8 RadioConfig
  clocks : Table ClockAddress Double
  parameters : Table UInt8 BoardParameter
  cacheEnabled : Bool
  hasParameters : Bool

namespace Board

def describe (channelCounts : List UInt8) : BoardDescription :=
  { BoardDescription.blank with
    name := "Simulated SDR"
    firmwareVersion := "0.1.0"
    gatewareVersion := "sim"
    hardwareVersion := "sim"
    protocolVersion := "1"
    chipSelects := [("FPGA", 0), ("RFIC", 1)]
    modules := channelCounts.mapIdx fun index count =>
      { name := s!"SimSoC{index}"
        channelCount := count
        rxPaths := ["NONE", "LNAH", "LNAL", "LNAW"]
        txPaths := ["NONE", "BAND1", "BAND2"] } }

def simulated (channelCounts : List UInt8) (hasParameters : Bool) : Board where
  description := describe channelCounts
  configs := .empty
  clocks := .empty
  parameters := .empty
  cacheEnabled := false
  hasParameters := hasParameters

def module? (b : Board) (index : UInt8) : Except Fault ModuleDescription :=
  match b.description.modules[index.toNat]? with
  | some m => .ok m
  | none => .error (.invalidModule index)

def reset (b : Board) : Board := { b with configs := .empty, clocks := .empty }

def enableCache (b : Board) (enabled : Bool) : Board := { b with cacheEnabled := enabled }

/-- Channels in use, with their positions. -/
def activeChannels (config : RadioConfig) : List (Nat × ChannelConfig) :=
  (config.channels.mapIdx fun index c => (index, c)).filter fun (_, c) => c.isActive

/-- The clock writes of a configuration: both oscillators of every channel in use, and the
reference clock when it is positive. -/
def clockWrites (module : UInt8) (config : RadioConfig) : List (ClockAddress × Double) :=
  (activeChannels config).flatMap (fun (index, c) =>
    [(.of module .sxr (.ofNat index), c.rx.centerFrequency),
      (.of module .sxt (.ofNat index), c.tx.centerFrequency)]) ++
  if (Binary.zero : Double).below config.referenceClock then
    [(.of module .reference 0, config.referenceClock)]
  else []

def configure (b : Board) (module : UInt8) (config : RadioConfig) : Except Fault Board := do
  let description ← b.module? module
  let available := description.channelCount.toNat
  match (activeChannels config).find? fun (index, _) => available ≤ index with
  | some (index, _) => .error (.invalidConfig (.channelNotOnModule index module available))
  | none => return { b with
      clocks := (clockWrites module config).foldl (fun t (k, v) => t.put k v) b.clocks
      configs := b.configs.put module config }

def applied? (b : Board) (module : UInt8) : Option RadioConfig := b.configs.get? module

def storedClock (b : Board) (module : UInt8) (clock : Clock) (channel : UInt8)
    (unset : Double) : Double :=
  (b.clocks.get? (.of module clock channel)).getD unset

def clockFrequency (b : Board) (module : UInt8) (clock : Clock) (channel : UInt8) :
    Except Fault Double := do
  let _ ← b.module? module
  return match clock with
    | .reference => b.storedClock module .reference 0 Limits.referenceClock
    | .rxTsp | .txTsp => (b.storedClock module .cgen 0 .zero).div (.ofNat 4)
    | _ => b.storedClock module clock channel .zero

def setClockFrequency (b : Board) (module : UInt8) (clock : Clock) (frequency : Double)
    (channel : UInt8) : Except Fault Board := do
  let _ ← b.module? module
  if clock.isReadOnly then .error (.invalidConfig (.readOnlyClock clock))
  else return { b with clocks := b.clocks.put (.of module clock channel) frequency }

def writeParameters (b : Board) (parameters : List BoardParameter) : Except Fault Board :=
  if b.hasParameters then
    .ok { b with parameters := parameters.foldl (fun t p => t.put p.id p) b.parameters }
  else .error (.unsupported .parameterWrite)

/-- The values of the given ids in their order; fails at the first one never written. -/
def readParameters (b : Board) (ids : List UInt8) : Except Fault (List BoardParameter) :=
  if b.hasParameters then
    ids.mapM fun id =>
      match b.parameters.get? id with
      | some p => .ok p
      | none => .error (.parameterNeverWritten id)
  else .error (.unsupported .parameterRead)

end Board
end RadioStream
