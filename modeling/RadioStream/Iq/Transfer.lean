import RadioStream.Tick

/-!
What a caller says about a single receive or transmit call.
-/
namespace RadioStream

/-- Tick and submission control of a transfer. A receive starts at `timestamp` when it is
used, a transmission waits for it; `flush` asks to send a part of a batch at once. -/
structure TransferMeta where
  timestamp : Tick
  useTimestamp : Bool
  flush : Bool
deriving DecidableEq

namespace TransferMeta

def plain : TransferMeta := ⟨.zero, false, false⟩

def anchored (t : Tick) : TransferMeta := ⟨t, true, false⟩

def flushed (m : TransferMeta) : TransferMeta := { m with flush := true }

/-- The tick that the transfer is bound to. -/
def anchor? (m : TransferMeta) : Option Tick := if m.useTimestamp then some m.timestamp else none

end TransferMeta
end RadioStream
