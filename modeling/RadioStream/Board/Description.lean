import RadioStream.Fault
import RadioStream.Json.Document
import RadioStream.Json.Record

/-!
What a board tells about itself, and its control values, as records.
-/
namespace RadioStream
open Json

structure ModuleDescription where
  name : String
  channelCount : UInt8
  rxPaths : List String
  txPaths : List String
deriving DecidableEq

namespace ModuleDescription

def blank : ModuleDescription := ⟨"", 0, [], []⟩

def fields : List (RecordField ModuleDescription) := [
  ⟨"name", .defaulted, fun j d => do return { d with name := ← j.text? }⟩,
  ⟨"channel_count", .defaulted, fun j d => do return { d with channelCount := ← j.byte? }⟩,
  ⟨"rx_path_names", .defaulted, fun j d => do return { d with rxPaths := ← j.list? text? }⟩,
  ⟨"tx_path_names", .defaulted, fun j d => do return { d with txPaths := ← j.list? text? }⟩]

def read? : Json → Option ModuleDescription := record? fields blank

def textList (texts : List String) : Document := .list (texts.map .text)

def document (d : ModuleDescription) : Document := .record [
  ("name", .text d.name),
  ("channel_count", .integer d.channelCount.toNat),
  ("rx_path_names", textList d.rxPaths),
  ("tx_path_names", textList d.txPaths)]

end ModuleDescription

/-- Names and versions of a board, with one entry per module. -/
structure BoardDescription where
  name : String
  expansionName : String
  firmwareVersion : String
  gatewareVersion : String
  gatewareRevision : String
  gatewareTargetBoard : String
  hardwareVersion : String
  protocolVersion : String
  serialNumber : UInt64
  /-- Chip-select ids by chip name. -/
  chipSelects : List (String × UInt32)
  modules : List ModuleDescription
deriving DecidableEq

namespace BoardDescription

def blank : BoardDescription := ⟨"", "", "", "", "", "", "", "", 0, [], []⟩

def fields : List (RecordField BoardDescription) := [
  ⟨"name", .defaulted, fun j d => do return { d with name := ← j.text? }⟩,
  ⟨"expansion_name", .defaulted, fun j d => do return { d with expansionName := ← j.text? }⟩,
  ⟨"firmware_version", .defaulted, fun j d => do return { d with firmwareVersion := ← j.text? }⟩,
  ⟨"gateware_version", .defaulted, fun j d => do return { d with gatewareVersion := ← j.text? }⟩,
  ⟨"gateware_revision", .defaulted,
    fun j d => do return { d with gatewareRevision := ← j.text? }⟩,
  ⟨"gateware_target_board", .defaulted,
    fun j d => do return { d with gatewareTargetBoard := ← j.text? }⟩,
  ⟨"hardware_version", .defaulted, fun j d => do return { d with hardwareVersion := ← j.text? }⟩,
  ⟨"protocol_version", .defaulted, fun j d => do return { d with protocolVersion := ← j.text? }⟩,
  ⟨"serial_number", .defaulted, fun j d => do return { d with serialNumber := ← j.word64? }⟩,
  ⟨"spi_slave_ids", .defaulted,
    fun j d => do return { d with chipSelects := ← j.entries? word32? }⟩,
  ⟨"rf_soc", .defaulted,
    fun j d => do return { d with modules := ← j.list? ModuleDescription.read? }⟩]

def read? : Json → Option BoardDescription := record? fields blank

def document (d : BoardDescription) : Document := .record [
  ("name", .text d.name),
  ("expansion_name", .text d.expansionName),
  ("firmware_version", .text d.firmwareVersion),
  ("gateware_version", .text d.gatewareVersion),
  ("gateware_revision", .text d.gatewareRevision),
  ("gateware_target_board", .text d.gatewareTargetBoard),
  ("hardware_version", .text d.hardwareVersion),
  ("protocol_version", .text d.protocolVersion),
  ("serial_number", .integer d.serialNumber.toNat),
  ("spi_slave_ids", .record (d.chipSelects.map fun (chip, id) => (chip, .integer id.toNat))),
  ("rf_soc", .list (d.modules.map ModuleDescription.document))]

end BoardDescription

/-- A named control value of a board, such as a trim or a temperature. -/
structure BoardParameter where
  id : UInt8
  value : Double
  units : String
deriving DecidableEq

namespace BoardParameter

def fields : List (RecordField BoardParameter) := [
  ⟨"id", .required, fun j p => do return { p with id := ← j.byte? }⟩,
  ⟨"value", .required, fun j p => do return { p with value := ← j.binary? }⟩,
  ⟨"units", .required, fun j p => do return { p with units := ← j.text? }⟩]

def read? : Json → Option BoardParameter := record? fields ⟨0, Binary.zero, ""⟩

def document (p : BoardParameter) : Document := .record [
  ("id", .integer p.id.toNat),
  ("value", .double p.value),
  ("units", .text p.units)]

end BoardParameter

namespace Clock

def read? : Json → Option Clock := choice? (all.map fun c => (c.name, c))

end Clock
end RadioStream
