import RadioStream.Fault
import RadioStream.Json.Document
import RadioStream.Json.Record

/-!
RF settings of a module as a front end stores them, and their JSON records. Every
field has a default; a whole configuration defaults to one default entry per channel.
-/
namespace RadioStream
open Json

structure FilterConfig where
  bandwidth : Double
  enabled : Bool
deriving DecidableEq

namespace FilterConfig

def default : FilterConfig := ⟨Binary.zero, false⟩

def fields : List (RecordField FilterConfig) := [
  ⟨"bandwidth", .defaulted, fun j c => do return { c with bandwidth := ← j.binary? }⟩,
  ⟨"enabled", .defaulted, fun j c => do return { c with enabled := ← j.flag? }⟩]

def read? : Json → Option FilterConfig := record? fields .default

def document (c : FilterConfig) : Document := .record [
  ("bandwidth", .double c.bandwidth),
  ("enabled", .flag c.enabled)]

end FilterConfig

/-- RF settings of one direction of a channel. -/
structure PathConfig where
  /-- Local oscillator frequency in Hz. -/
  centerFrequency : Double
  ncoOffset : Double
  sampleRate : Double
  gain : Double
  path : UInt8
  /-- Analog low-pass bandwidth in Hz. -/
  lowPass : Double
  oversample : UInt8
  filter : FilterConfig
  enabled : Bool
  calibrate : Bool
  testSignal : Bool
deriving DecidableEq

def PathConfig.default : PathConfig where
  centerFrequency := Binary.zero
  ncoOffset := Binary.zero
  sampleRate := Binary.zero
  gain := Binary.zero
  path := 0
  lowPass := Binary.zero
  oversample := 0
  filter := .default
  enabled := false
  calibrate := false
  testSignal := false

structure ChannelConfig where
  rx : PathConfig
  tx : PathConfig
deriving DecidableEq

namespace ChannelConfig

def default : ChannelConfig := ⟨.default, .default⟩

def isActive (c : ChannelConfig) : Bool := c.rx.enabled || c.tx.enabled

/-- The fields of a pair of paths alternate between receiving and transmitting. -/
def pathFields (name : String) (store : Json → PathConfig → Option PathConfig) :
    List (RecordField ChannelConfig) := [
  ⟨"rx_" ++ name, .defaulted, fun j c => do return { c with rx := ← store j c.rx }⟩,
  ⟨"tx_" ++ name, .defaulted, fun j c => do return { c with tx := ← store j c.tx }⟩]

def fields : List (RecordField ChannelConfig) :=
  pathFields "center_frequency" (fun j p => do return { p with centerFrequency := ← j.binary? }) ++
  pathFields "nco_offset" (fun j p => do return { p with ncoOffset := ← j.binary? }) ++
  pathFields "sample_rate" (fun j p => do return { p with sampleRate := ← j.binary? }) ++
  pathFields "gain" (fun j p => do return { p with gain := ← j.binary? }) ++
  pathFields "path" (fun j p => do return { p with path := ← j.byte? }) ++
  pathFields "lpf" (fun j p => do return { p with lowPass := ← j.binary? }) ++
  pathFields "oversample" (fun j p => do return { p with oversample := ← j.byte? }) ++
  pathFields "gfir" (fun j p => do return { p with filter := ← FilterConfig.read? j }) ++
  pathFields "enabled" (fun j p => do return { p with enabled := ← j.flag? }) ++
  pathFields "calibrate" (fun j p => do return { p with calibrate := ← j.flag? }) ++
  pathFields "test_signal" (fun j p => do return { p with testSignal := ← j.flag? })

def read? : Json → Option ChannelConfig := record? fields .default

def pathMembers (c : ChannelConfig) (name : String) (value : PathConfig → Document) :
    List (String × Document) :=
  [("rx_" ++ name, value c.rx), ("tx_" ++ name, value c.tx)]

def members (c : ChannelConfig) : List (String × Document) :=
  c.pathMembers "center_frequency" (.double ·.centerFrequency) ++
  c.pathMembers "nco_offset" (.double ·.ncoOffset) ++
  c.pathMembers "sample_rate" (.double ·.sampleRate) ++
  c.pathMembers "gain" (.double ·.gain) ++
  c.pathMembers "path" (fun p => .integer p.path.toNat) ++
  c.pathMembers "lpf" (.double ·.lowPass) ++
  c.pathMembers "oversample" (fun p => .integer p.oversample.toNat) ++
  c.pathMembers "gfir" (·.filter.document) ++
  c.pathMembers "enabled" (.flag ·.enabled) ++
  c.pathMembers "calibrate" (.flag ·.calibrate) ++
  c.pathMembers "test_signal" (.flag ·.testSignal)

def document (c : ChannelConfig) : Document := .record c.members

/-- The members that are written differently from those of the default. -/
def changedMembers (c : ChannelConfig) : List (String × Document) :=
  (c.members.zip default.members).filterMap fun (m, d) => if m == d then none else some m

end ChannelConfig

structure RadioConfig where
  /-- Reference clock in Hz; not positive leaves the board's own. -/
  referenceClock : Double
  channels : List ChannelConfig
  skipDefaults : Bool
deriving DecidableEq

namespace RadioConfig

def default : RadioConfig where
  referenceClock := Binary.zero
  channels := List.replicate Limits.channels .default
  skipDefaults := false

def fields : List (RecordField RadioConfig) := [
  ⟨"reference_clock_freq", .defaulted,
    fun j c => do return { c with referenceClock := ← j.binary? }⟩,
  ⟨"channel", .defaulted,
    fun j c => do return { c with channels := ← j.list? ChannelConfig.read? }⟩,
  ⟨"skip_defaults", .defaulted, fun j c => do return { c with skipDefaults := ← j.flag? }⟩]

def read? : Json → Option RadioConfig := record? fields .default

/-- The configuration of a JSON text, which names no more channels than a stream can have. -/
def parse (source : String) : Except Fault RadioConfig :=
  match (Json.parse? source).bind read? with
  | none => .error (.invalidConfig .unreadable)
  | some c =>
    if Limits.channels < c.channels.length then
      .error (.invalidConfig (.tooManyChannelConfigs c.channels.length))
    else .ok c

end RadioConfig
end RadioStream
