import RadioStream.Json.Document
import RadioStream.Json.Record
import RadioStream.Session.Basic
import RadioStream.StreamConfig.Record

/-!
Channel statistics as they are exchanged: a snapshot together with measured rates,
and the names of phases and directions. How rates are measured over time is left out.
-/
namespace RadioStream
open Json

/-- Counters of a channel with its measured rates in bytes per second. -/
structure ChannelStats where
  timestamp : Tick
  bytes : Int64
  packets : Int64
  fill : Single
  rxRate : Single
  txRate : Single
  overrun : UInt32
  underrun : UInt32
  loss : UInt32
  late : UInt32
  isTx : Bool
deriving DecidableEq

namespace ChannelStats

/-- The statistics of a snapshot, given the rate measured in its direction. -/
def ofSnapshot (s : Snapshot) (rate : Single) : ChannelStats where
  timestamp := s.timestamp
  bytes := .ofInt s.traffic.bytes
  packets := .ofInt s.traffic.packets
  fill := s.fill
  rxRate := if s.direction = .rx then rate else .zero
  txRate := if s.direction = .tx then rate else .zero
  overrun := .ofNat s.traffic.overrun.count
  underrun := .ofNat s.traffic.underrun.count
  loss := .ofNat s.traffic.loss.count
  late := .ofNat s.traffic.late.count
  isTx := s.direction = .tx

def zero : ChannelStats := ⟨.zero, 0, 0, .zero, .zero, .zero, 0, 0, 0, 0, false⟩

def fields : List (RecordField ChannelStats) := [
  ⟨"timestamp", .required, fun j s => do return { s with timestamp := ← Tick.read? j }⟩,
  ⟨"bytes_transferred", .required, fun j s => do return { s with bytes := ← j.signed64? }⟩,
  ⟨"packets", .required, fun j s => do return { s with packets := ← j.signed64? }⟩,
  ⟨"fifo_filled", .required, fun j s => do return { s with fill := ← j.binary? }⟩,
  ⟨"data_rate_bps", .required, fun j s => do return { s with rxRate := ← j.binary? }⟩,
  ⟨"tx_data_rate_bps", .required, fun j s => do return { s with txRate := ← j.binary? }⟩,
  ⟨"overrun", .required, fun j s => do return { s with overrun := ← j.word32? }⟩,
  ⟨"underrun", .required, fun j s => do return { s with underrun := ← j.word32? }⟩,
  ⟨"loss", .required, fun j s => do return { s with loss := ← j.word32? }⟩,
  ⟨"late", .required, fun j s => do return { s with late := ← j.word32? }⟩,
  ⟨"is_tx", .required, fun j s => do return { s with isTx := ← j.flag? }⟩]

def read? : Json → Option ChannelStats := record? fields zero

def document (s : ChannelStats) : Document := .record [
  ("timestamp", .integer s.timestamp.toInt),
  ("bytes_transferred", .integer s.bytes.toInt),
  ("packets", .integer s.packets.toInt),
  ("fifo_filled", .single s.fill),
  ("data_rate_bps", .single s.rxRate),
  ("tx_data_rate_bps", .single s.txRate),
  ("overrun", .integer s.overrun.toNat),
  ("underrun", .integer s.underrun.toNat),
  ("loss", .integer s.loss.toNat),
  ("late", .integer s.late.toNat),
  ("is_tx", .flag s.isTx)]

end ChannelStats

namespace Phase

def all : List Phase := [idle, configured, running, stopped]

def read? : Json → Option Phase := choice? (all.map fun p => (p.name, p))

end Phase

namespace Direction

/-- The name in records, which differs from the one in messages. -/
def recordName : Direction → String
  | rx => "Rx"
  | tx => "Tx"

def read? : Json → Option Direction := choice? ([rx, tx].map fun d => (d.recordName, d))

end Direction
end RadioStream
