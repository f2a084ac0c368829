import RadioStream.Iq.Format
import RadioStream.StreamConfig.Record

/-!
What crosses the link between host and hardware: packets of link samples and the
parameters that hardware is armed with.
-/
namespace RadioStream
open Json

/-- Samples from the hardware. -/
structure RxPacket where
  channel : UInt8
  timestamp : Tick
  payload : List UInt8
deriving DecidableEq

/-- Samples for the hardware. -/
structure TxPacket where
  channel : UInt8
  /-- Tick at which the first sample is sent, if it is gated. -/
  timestamp : Option Tick
  /-- End of a burst: no continuation is to be expected. -/
  flush : Bool
  payload : List UInt8
deriving DecidableEq

structure LinkConfig where
  linkFormat : SampleFormat
  rxChannels : List UInt8
  txChannels : List UInt8
  rxPacket : Nat
  /-- First tick to produce, when channels start aligned. -/
  startTimestamp : Option Tick
deriving DecidableEq

namespace LinkConfig

def fields : List (RecordField LinkConfig) := [
  ⟨"link_format", .required, fun j c => do return { c with linkFormat := ← SampleFormat.read? j }⟩,
  ⟨"rx_channels", .required, fun j c => do return { c with rxChannels := ← j.list? byte? }⟩,
  ⟨"tx_channels", .required, fun j c => do return { c with txChannels := ← j.list? byte? }⟩,
  ⟨"rx_samples_in_packet", .required,
    fun j c => do return { c with rxPacket := ← j.natural? 0x10000000000000000 }⟩,
  ⟨"start_timestamp", .optional,
    fun j c => do return { c with startTimestamp := ← j.nullable? Tick.read? }⟩]

def read? : Json → Option LinkConfig := record? fields ⟨.i16, [], [], 0, none⟩

def document (c : LinkConfig) : Document := .record [
  ("link_format", .text c.linkFormat.name),
  ("rx_channels", StreamConfig.byteList c.rxChannels),
  ("tx_channels", StreamConfig.byteList c.txChannels),
  ("rx_samples_in_packet", .integer c.rxPacket),
  ("start_timestamp", c.startTimestamp.elim .null fun t => .integer t.toInt)]

end LinkConfig
end RadioStream
