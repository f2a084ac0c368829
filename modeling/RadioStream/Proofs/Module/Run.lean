import Mathlib.Data.List.Induction
import RadioStream.Module.Lifecycle
import RadioStream.Proofs.Module.Works

/-!
Runs of a module: calls, steps of its workers and what happens to its link, in any order.
Runs are finer than calls. A call is two steps, the conclusion of a stream that halted on
its own and the call on the module as it stands, and a halt is two steps as well. So there
are runs in which others come between the two, as they may.
-/
namespace RadioStream

/-- What happens to a simulated link from outside. -/
inductive LinkEvent where
  | setTime (t : Tick)
  | advance (ticks : Tick)
  | inject (packets : List RxPacket)
  | fail (reason : String)
  | refuseArming (refuse : Bool)
  | clearSubmissions

def LinkEvent.apply (l : Link) : LinkEvent → Link
  | setTime t => l.setTime t
  | advance ticks => l.advanceTime ticks
  | inject packets => l.inject packets
  | fail reason => l.fail reason
  | refuseArming refuse => l.refuseArming refuse
  | clearSubmissions => l.clearSubmissions

/-- A step of a module. Worker steps do nothing where no stream runs. -/
inductive ModuleEvent : Type 1 where
  | setup (config : StreamConfig) (monitor : Option Monitor)
  | start
  | stop
  | receive {α : Type} [HostSample α] (channel : UInt8) (buffer : List α) (info : TransferMeta)
    (wait : Session → Wait)
  | transmit {α : Type} [HostSample α] (channel : UInt8) (samples : List α) (info : TransferMeta)
    (wait : Session → Wait)
  | status (channel : UInt8) (direction : Direction)
  | link (e : LinkEvent)
  /-- The receive worker takes a packet. -/
  | read
  /-- The transmit worker makes a pass. -/
  | send (draining : Bool)
  /-- A worker or the monitor ends the stream. -/
  | halt (reason : Option Fault)
  /-- The first half of a halt: a worker that fails keeps its reason. -/
  | keep (reason : Option Fault)
  /-- The second half: the stream is marked as halted. -/
  | shut
  /-- A halted stream winds down, with its transmit worker standing as given. -/
  | conclude (standing : TxStanding)
  /-- The workers do all they can do. -/
  | settle

namespace ModuleEvent

def isStart : ModuleEvent → Bool
  | start => true
  | _ => false

/-- Steps with which a running stream may come to be halted. -/
def mayHalt : ModuleEvent → Bool
  | read | send _ | halt _ | shut => true
  | _ => false

/-- The half of a halt that leaves the stream running. -/
def isKeep : ModuleEvent → Bool
  | keep _ => true
  | _ => false

def linkEvent? : ModuleEvent → Option LinkEvent
  | link e => some e
  | _ => none

end ModuleEvent

namespace RfModule

/-- What is done to the stream and its link while the module runs. -/
def onStream (m : RfModule) (f : LiveStream → LiveStream) : RfModule :=
  match m.stage with
  | .running s => { m with stage := .running (f ⟨s, m.link⟩).session, link := (f ⟨s, m.link⟩).link }
  | _ => m

/-- Only a stream that runs has anything to conclude. -/
theorem concluded_eq (m : RfModule) (other : m.phase ≠ .running) : m.concluded = m := by
  unfold concluded conclude
  split
  · next s stage => exact absurd (congrArg Stage.phase stage) other
  · rfl

theorem start_eq {m : RfModule} (configured : m.phase = .configured) : m.start = m.startNow := by
  rw [start, m.concluded_eq (by rw [configured]; exact Phase.noConfusion)]

def step (m : RfModule) : ModuleEvent → RfModule
  | .setup config monitor => (m.setupNow config monitor).2
  | .start => m.startNow.2
  | .stop => m.stopNow.2
  | @ModuleEvent.receive _ _ channel buffer info wait =>
    (m.receiveNow channel buffer info wait).2
  | @ModuleEvent.transmit _ _ channel samples info wait =>
    (m.transmitNow channel samples info wait).2
  | .status channel direction => (m.status channel direction).2
  | .link e => m.onLink (LinkEvent.apply · e)
  | .read => m.onStream .readOnce
  | .send draining => m.onStream fun s => (s.pass draining).1
  | .halt reason => m.onStream fun s => { s with session := s.session.halt reason }
  | .keep reason => m.onStream fun s => { s with session := s.session.keep reason }
  | .shut => m.onStream fun s => { s with session := s.session.shut }
  | .conclude standing => m.conclude standing
  | .settle => m.settle

def run (m : RfModule) (events : List ModuleEvent) : RfModule := events.foldl step m

/-- A call is a conclusion, with the transmit worker standing where it is found, and behind it the
call on the module as it is then, with its answer. -/
theorem calls_steps (m : RfModule) : ∃ standing,
    let concluded := m.step (.conclude standing)
    (∀ config monitor, m.setup config monitor = concluded.setupNow config monitor) ∧
    m.start = concluded.startNow ∧ m.stop = concluded.stopNow ∧
    ∀ (α : Type) [HostSample α] channel (values : List α) info wait,
      m.receiveWith channel values info wait = concluded.receiveNow channel values info wait ∧
      m.transmitWith channel values info wait = concluded.transmitNow channel values info wait :=
  ⟨_, fun _ _ => rfl, rfl, rfl, fun _ _ _ _ _ _ => ⟨rfl, rfl⟩⟩

/-- A halt is its two halves, where nothing comes between them. -/
theorem halt_steps (m : RfModule) (reason : Option Fault) :
    m.step (.halt reason) = m.run [.keep reason, .shut] := by
  simp only [run, List.foldl_cons, List.foldl_nil, step, onStream]
  cases stage : m.stage <;> simp [Session.halt, stage]

theorem run_concat (m : RfModule) (events : List ModuleEvent) (e : ModuleEvent) :
    m.run (events ++ [e]) = (m.run events).step e := by
  rw [run, List.foldl_append]
  rfl

/-- What holds at first, and stays so with every step, of the module and the events behind it. -/
theorem run_history {m : RfModule} {P : List ModuleEvent → RfModule → Prop} (initial : P [] m)
    (next : ∀ done e, P done (m.run done) → P (done ++ [e]) ((m.run done).step e))
    (events : List ModuleEvent) : P events (m.run events) := by
  induction events using List.reverseRecOn with
  | nil => exact initial
  | append_singleton done e ih =>
    rw [run_concat]
    exact next done e ih

end RfModule
end RadioStream
