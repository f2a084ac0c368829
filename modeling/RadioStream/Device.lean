import RadioStream.Board.Store
import RadioStream.Module.Blocking

/-!
A board with one streaming module per RF chip. Every call goes to the module or the
part of the board that it names and leaves all others alone.
-/
namespace RadioStream

structure Device where
  board : Board
  modules : List RfModule

namespace Device

/-- Opens a board through its links, one per module. -/
def create (board : Board) (links : List Link) : Except Fault Device :=
  let count := board.description.modules.length
  if Limits.modules < count then .error (.invalidConfig (.tooManyModules count))
  else .ok ⟨board, links.mapIdx fun index link => .create (.ofNat index) link⟩

def simulated (links : List Link) (hasParameters : Bool) : Except Fault Device :=
  create (.simulated (links.map (·.channelCount)) hasParameters) links

def module? (d : Device) (index : UInt8) : Except Fault RfModule :=
  match d.modules[index.toNat]? with
  | some m => .ok m
  | none => .error (.invalidModule index)

def putModule (d : Device) (index : UInt8) (m : RfModule) : Device :=
  { d with modules := d.modules.set index.toNat m }

def onModule {α : Type} (d : Device) (index : UInt8)
    (call : RfModule → Except Fault α × RfModule) : Except Fault α × Device :=
  match d.module? index with
  | .error fault => (.error fault, d)
  | .ok m =>
    let (result, m) := call m
    (result, d.putModule index m)

/-- A call that changes the board if it succeeds. -/
def onBoard (d : Device) (call : Board → Except Fault Board) : Except Fault Unit × Device :=
  match call d.board with
  | .ok board => (.ok (), { d with board := board })
  | .error fault => (.error fault, d)

def configure (d : Device) (index : UInt8) (config : RadioConfig) : Except Fault Unit × Device :=
  d.onBoard fun b => do
    let _ ← d.module? index
    b.configure index config

def clockFrequency (d : Device) (index : UInt8) (clock : Clock) (channel : UInt8) :
    Except Fault Double := do
  let _ ← d.module? index
  d.board.clockFrequency index clock channel

def setClockFrequency (d : Device) (index : UInt8) (clock : Clock) (frequency : Double)
    (channel : UInt8) : Except Fault Unit × Device :=
  d.onBoard fun b => do
    let _ ← d.module? index
    b.setClockFrequency index clock frequency channel

def setup (d : Device) (index : UInt8) (config : StreamConfig) (monitor : Option Monitor) :
    Except Fault Unit × Device :=
  d.onModule index (·.setup config monitor)

def start (d : Device) (index : UInt8) : Except Fault Unit × Device := d.onModule index (·.start)

def stop (d : Device) (index : UInt8) : Except Fault Unit × Device := d.onModule index (·.stop)

/-- Receives into a buffer. On a module that does not exist the buffer stays as it is. -/
def receive {α : Type} [HostSample α] (d : Device) (index channel : UInt8) (buffer : List α)
    (info : TransferMeta) : Delivery α × Device :=
  match d.module? index with
  | .error fault => (⟨.error fault, buffer, info⟩, d)
  | .ok m =>
    let (delivery, m) := m.receive channel buffer info
    (delivery, d.putModule index m)

def transmit {α : Type} [HostSample α] (d : Device) (index channel : UInt8) (samples : List α)
    (info : TransferMeta) : Except Fault Nat × Device :=
  d.onModule index (·.transmit channel samples info)

def status (d : Device) (index channel : UInt8) (direction : Direction) :
    Except Fault Snapshot × Device :=
  d.onModule index (·.status channel direction)

/-- Lets the workers of one module do all they can do now. -/
def settle (d : Device) (index : UInt8) : Device :=
  match d.module? index with
  | .ok m => d.putModule index m.settle
  | .error _ => d

def close (d : Device) : Device := { d with modules := d.modules.map (·.close) }

end Device
end RadioStream
