import RadioStream.Iq.Transfer
import RadioStream.Json.Document
import RadioStream.Json.Record
import RadioStream.StreamConfig.Basic

/-!
Stream configurations and transfer data as JSON records.
-/
namespace RadioStream
open Json

def SampleFormat.read? : Json → Option SampleFormat :=
  choice? (SampleFormat.all.map fun f => (f.name, f))

def Tick.read? (j : Json) : Option Tick := j.integer?.bind Tick.ofInt?

namespace StreamTuning

def fields : List (RecordField StreamTuning) := [
  ⟨"use_poll", .defaulted, fun j t => do return { t with poll := ← j.flag? }⟩,
  ⟨"rx_samples_in_packet", .defaulted,
    fun j t => do return { t with rxPacketSamples := ← j.word16? }⟩,
  ⟨"rx_packets_in_batch", .defaulted,
    fun j t => do return { t with rxBatchPackets := ← j.word32? }⟩,
  ⟨"tx_max_packets_in_batch", .defaulted,
    fun j t => do return { t with txBatchPackets := ← j.word32? }⟩,
  ⟨"tx_samples_in_packet", .defaulted,
    fun j t => do return { t with txPacketSamples := ← j.word16? }⟩,
  ⟨"late_tolerance", .defaulted, fun j t => do return { t with lateTolerance := ← j.word32? }⟩,
  ⟨"wait_timeout_ms", .defaulted,
    fun j t => do return { t with waitMilliseconds := ← j.word32? }⟩]

def read? : Json → Option StreamTuning := record? fields .default

def document (t : StreamTuning) : Document := .record [
  ("use_poll", .flag t.poll),
  ("rx_samples_in_packet", .integer t.rxPacketSamples.toNat),
  ("rx_packets_in_batch", .integer t.rxBatchPackets.toNat),
  ("tx_max_packets_in_batch", .integer t.txBatchPackets.toNat),
  ("tx_samples_in_packet", .integer t.txPacketSamples.toNat),
  ("late_tolerance", .integer t.lateTolerance.toNat),
  ("wait_timeout_ms", .integer t.waitMilliseconds.toNat)]

end StreamTuning

namespace StreamConfig

def fields : List (RecordField StreamConfig) := [
  ⟨"rx_channels", .defaulted, fun j c => do return { c with rxChannels := ← j.list? byte? }⟩,
  ⟨"tx_channels", .defaulted, fun j c => do return { c with txChannels := ← j.list? byte? }⟩,
  ⟨"format", .defaulted, fun j c => do return { c with hostFormat := ← SampleFormat.read? j }⟩,
  ⟨"link_format", .defaulted,
    fun j c => do return { c with linkFormat := ← SampleFormat.read? j }⟩,
  ⟨"buffer_size", .defaulted, fun j c => do return { c with bufferBytes := ← j.word32? }⟩,
  ⟨"hint_sample_rate", .defaulted, fun j c => do return { c with rateHint := ← j.binary? }⟩,
  ⟨"align_phase", .defaulted, fun j c => do return { c with alignPhase := ← j.flag? }⟩,
  ⟨"extras", .defaulted, fun j c => do return { c with tuning := ← StreamTuning.read? j }⟩]

def read? : Json → Option StreamConfig := record? fields .default

def byteList (bytes : List UInt8) : Document := .list (bytes.map fun b => .integer b.toNat)

def document (c : StreamConfig) : Document := .record [
  ("rx_channels", byteList c.rxChannels),
  ("tx_channels", byteList c.txChannels),
  ("format", .text c.hostFormat.name),
  ("link_format", .text c.linkFormat.name),
  ("buffer_size", .integer c.bufferBytes.toNat),
  ("hint_sample_rate", .single c.rateHint),
  ("align_phase", .flag c.alignPhase),
  ("extras", c.tuning.document)]

def parse (source : String) : Except Fault StreamConfig :=
  match (Json.parse? source).bind read? with
  | some c => .ok c
  | none => .error (.invalidConfig .unreadable)

/-- Whether writing the configuration and reading it again gives an equal one. -/
def readsBack (c : StreamConfig) : Bool :=
  match parse c.document.render with
  | .ok d => d.same c
  | .error _ => false

end StreamConfig

namespace TransferMeta

def fields : List (RecordField TransferMeta) := [
  ⟨"timestamp", .required, fun j m => do return { m with timestamp := ← Tick.read? j }⟩,
  ⟨"use_timestamp", .required, fun j m => do return { m with useTimestamp := ← j.flag? }⟩,
  ⟨"flush", .required, fun j m => do return { m with flush := ← j.flag? }⟩]

def read? : Json → Option TransferMeta := record? fields .plain

def document (m : TransferMeta) : Document := .record [
  ("timestamp", .integer m.timestamp.toInt),
  ("use_timestamp", .flag m.useTimestamp),
  ("flush", .flag m.flush)]

end TransferMeta
end RadioStream
