import RadioStream.Link.Packet
import RadioStream.Table

/-!
A simulated link to one module. Received packets are injected or, in loopback,
echoed from transmitted ones; transmissions are recorded write by write; the clock
moves only when it is told to; one that follows real time is left out. A failed link
refuses every call from then on.
-/
namespace RadioStream

structure Link where
  channelCount : UInt8
  time : Tick
  /-- Packets for the host, oldest first. -/
  incoming : List RxPacket
  submissions : List (List TxPacket)
  /-- Parameters between arming and disarming. -/
  armed : Option LinkConfig
  armCount : Nat
  loopback : Bool
  /-- Where the next untimed packet of a channel is echoed. -/
  cursors : Table UInt8 Tick
  failure : Option String
  refusesArming : Bool

namespace Link

def simulated (channelCount : UInt8) (loopback : Bool) : Link where
  channelCount := channelCount
  time := .zero
  incoming := []
  submissions := []
  armed := none
  armCount := 0
  loopback := loopback
  cursors := .empty
  failure := none
  refusesArming := false

def setTime (l : Link) (t : Tick) : Link := { l with time := t }

def advanceTime (l : Link) (ticks : Tick) : Link :=
  { l with time := .wrap (l.time.toInt + ticks.toInt) }

def inject (l : Link) (packets : List RxPacket) : Link :=
  { l with incoming := l.incoming ++ packets }

def fail (l : Link) (reason : String) : Link := { l with failure := some reason }

def refuseArming (l : Link) (refuse : Bool) : Link := { l with refusesArming := refuse }

def clearSubmissions (l : Link) : Link := { l with submissions := [] }

def isArmed (l : Link) : Bool := l.armed.isSome

/-- The answer of a link that has failed. -/
def fault? (l : Link) : Option Fault := l.failure.map .transportFailure

def hardwareTime (l : Link) : Except Fault Tick :=
  match l.fault? with
  | some fault => .error fault
  | none => .ok l.time

def arm (l : Link) (config : LinkConfig) : Except Fault Link :=
  match l.fault? with
  | some fault => .error fault
  | none => .ok { l with armed := some config, cursors := .empty, armCount := l.armCount + 1 }

/-- Disarms also a failed link, which reports its failure all the same. -/
def disarm (l : Link) : Except Fault Unit × Link :=
  ((match l.fault? with
    | some fault => .error fault
    | none => .ok ()),
    { l with armed := none })

def read (l : Link) : Except Fault (Option (RxPacket × Link)) :=
  match l.fault? with
  | some fault => .error fault
  | none =>
    match l.incoming with
    | [] => .ok none
    | packet :: rest => .ok (some (packet, { l with incoming := rest }))

/-- Echoes one packet: at its own tick, or behind the previous one but not in the past. -/
def echo (sampleSize : Nat) (l : Link) (p : TxPacket) : Link :=
  let behind := match l.cursors.get? p.channel with
    | some cursor => max cursor l.time
    | none => l.time
  let timestamp := p.timestamp.getD behind
  { l with
    cursors := l.cursors.put p.channel (timestamp.later (p.payload.length / sampleSize))
    incoming := l.incoming ++ [⟨p.channel, timestamp, p.payload⟩] }

/-- Hands packets to the hardware as one unit. -/
def write (l : Link) (packets : List TxPacket) : Except Fault Link :=
  match l.fault? with
  | some fault => .error fault
  | none =>
    let l := { l with submissions := l.submissions ++ [packets] }
    match l.loopback, l.armed with
    | true, some config => .ok (packets.foldl (echo config.linkFormat.sampleSize) l)
    | _, _ => .ok l

end Link
end RadioStream
