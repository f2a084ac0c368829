import RadioStream.Module.Lifecycle

/-!
Calls that wait while something else happens to their module. A receive that finds
nothing is tried again after the event; a transmission that does not fit ends with
the stop that interrupts it.
-/
namespace RadioStream.RfModule

/-- Lets the receive worker alone process what the link has. -/
def receiveIncoming (m : RfModule) : RfModule :=
  match m.stage with
  | .running s =>
    let live := LiveStream.receiveAll ⟨s, m.link⟩
    if live.session.halted then m.windDown live .waiting
    else { m with stage := .running live.session, link := live.link }
  | _ => m

def deliver (m : RfModule) (packets : List RxPacket) : RfModule :=
  (m.onLink (·.inject packets)).receiveIncoming

/-- A receive call with an event that happens while it waits, or behind it if it does not. -/
def receiveDuring {α : Type} [HostSample α] (m : RfModule) (channel : UInt8) (buffer : List α)
    (info : TransferMeta) (event : RfModule → Except Fault Unit × RfModule) :
    Delivery α × Except Fault Unit × RfModule :=
  let (first, waiting) := m.receive channel buffer info
  let (told, after) := event waiting
  match first.outcome, after.stage with
  | .error .timeout, .running _ =>
    let (second, final) := after.receive channel buffer info
    (second, told, final)
  | .error .timeout, _ => ({ first with outcome := .error .stopped }, told, after)
  | _, _ => (first, told, after)

/-- A transmit call and a stop that interrupts it if it waits. -/
def transmitUntilStop {α : Type} [HostSample α] (m : RfModule) (channel : UInt8)
    (samples : List α) (info : TransferMeta) :
    Except Fault Nat × Except Fault Unit × RfModule :=
  let (outcome, waiting) := m.transmitWith channel samples info fun s =>
    if s.config.tuning.poll then .poll else .interrupted
  let (told, after) := waiting.stop
  (outcome, told, after)

end RadioStream.RfModule
