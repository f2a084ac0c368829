import RadioStream.Binary.Basic

/-!
Limits and defaults that streams and boards share.
-/
namespace RadioStream.Limits

def channels : Nat := 16

def modules : Nat := 16

def bufferBytes : Nat := 1048576

/-- Link samples per packet. -/
def packetSamples : Nat := 1020

/-- Link samples per packet on a packed 12-bit link. -/
def packetSamplesPacked : Nat := 1360

def batchPackets : Nat := 4

def waitMilliseconds : Nat := 500

def rateWindowMilliseconds : Nat := 500

/-- Reference clock in Hz of a board that was never told another one. -/
def referenceClock : Double := .ofNat 30720000

end RadioStream.Limits
