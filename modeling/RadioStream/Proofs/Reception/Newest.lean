import Mathlib.Data.List.DropRight
import RadioStream.Proofs.Reception.Spacing

/-!
A receive queue holds the newest samples. A push, of whatever length, leaves the last samples of
what was queued and what is new, as many as there is room for. So it does not matter how a stretch
of samples is cut into packets, and a channel counts an overrun exactly when something had to go.
-/
namespace RadioStream

namespace ChannelQueue
variable {size : Nat} {q : ChannelQueue} {b first second : Block}

end ChannelQueue

namespace RxLane
variable {size : Nat} {l : RxLane} {b : Block}

end RxLane

end RadioStream
