import RadioStream.Proofs.Queue.Content
import RadioStream.Session.Reception
import RadioStream.Session.Transmission

/-!
Runs of a session: callers and workers take steps in any order, and the answers of clock
and link come with the steps. A transmit call that waits for room stays in the world
until its next offer. What a run moved is read off its steps by observations, which are
functions of a step and the state before it.
-/
namespace RadioStream
universe u

/-- A transmission that has not placed all its samples. -/
structure WaitingCall where
  channel : UInt8
  /-- What it offers next. -/
  rest : Block
  /-- The samples it was called with and has not placed. -/
  samples : List Stamped
  /-- How many it has placed so far. -/
  placed : Nat

/-- The samples of a transfer as the link encodes them, with the ticks they are sent at. -/
def StreamConfig.encoded {α : Type} [HostSample α] (c : StreamConfig) (samples : List α)
    (info : TransferMeta) : List Stamped :=
  stamp info.anchor? (samples.map (HostSample.pack c.hostFormat c.linkFormat))

namespace WaitingCall

/-- What is left of a call that waits for room after its first offer, unless it was refused. -/
def ofTransmit? {α : Type} [HostSample α] (c : StreamConfig) (channel : UInt8) (samples : List α)
    (info : TransferMeta) (wait : Wait) (outcome : Except Fault Nat) : Option WaitingCall :=
  let block := Block.outgoing info.anchor? info.flush
    (HostSample.toLink c.hostFormat c.linkFormat samples) c.linkFormat.sampleSize
  match wait, outcome with
  | .poll, _ => none
  | _, .ok accepted =>
    some ⟨channel, block.advance accepted, (c.encoded samples info).drop accepted, accepted⟩
  | _, .error .timeout => some ⟨channel, block, c.encoded samples info, 0⟩
  | _, .error _ => none

def after (call : WaitingCall) (accepted : Nat) : WaitingCall :=
  { call with
    rest := call.rest.advance accepted
    samples := call.samples.drop accepted
    placed := call.placed + accepted }

/-- What the call answers if its wait ends with an offer of this outcome: all that it has placed,
and how the offer was refused only if that is nothing. -/
def answer (call : WaitingCall) (outcome : Except QueueFault Nat) : Except QueueFault Nat :=
  let total := call.placed + ChannelQueue.granted outcome
  if total = 0 then outcome else .ok total

end WaitingCall

namespace Session

/-- A waiting call wakes up and offers what it has left. Returns the outcome of this offer, of which
`WaitingCall.answer` makes that of the call. -/
def resume (s : Session) (call : WaitingCall) : Except QueueFault Nat × Session :=
  match s.txLane? call.channel with
  | .error _ => (.error .stopped, s)
  | .ok lane =>
    let (outcome, queue) := lane.queue.offer call.rest .expires
    (outcome, s.putTx { lane with queue := queue })

/-- A transmit pass, given the link's answer to its write, if it makes one. -/
def pass (s : Session) (reading : Except Fault Tick) (draining : Bool)
    (answer : Except Fault Unit) : Session :=
  let p := s.beginPass reading draining
  p.finish (if p.packets.isEmpty then none else some answer)

/-- The transmit lanes of a pass once every empty hand has taken a batch that is ready. -/
def loaded (s : Session) (reading : Except Fault Tick) (draining : Bool) : List TxLane :=
  let (now, timeline) := s.timeline.now reading
  s.tx.map (·.pickUp s.config.txBatch draining (timeline.isDue · now))

end Session

/-- A step of a caller or a worker, with the answers it gets from outside. -/
inductive Event : Type 1 where
  | transmit {α : Type} [HostSample α] (channel : UInt8) (samples : List α) (info : TransferMeta)
    (reading : Except Fault Tick) (wait : Wait)
  | resume (place : Nat)
  | receive {α : Type} [HostSample α] (channel : UInt8) (buffer : List α) (info : TransferMeta)
    (wait : Wait)
  | arrive (packet : RxPacket)
  | pass (reading : Except Fault Tick) (draining : Bool) (answer : Except Fault Unit)
  | halt (reason : Option Fault)

/-- A step in which no packet of `size` bytes per sample passes the last tick. -/
def Event.InRange (size : Nat) : Event → Prop
  | .arrive p => p.timestamp.toInt + (p.payload.length / size : Nat) ≤ 0x7fffffffffffffff
  | _ => True

/-- A step without a refused write. -/
def Event.Unfailing : Event → Prop
  | .pass _ _ answer => answer = .ok ()
  | _ => True

structure World where
  session : Session
  waiting : List WaitingCall

namespace World

def opened (c : StreamConfig) (monitor : Option Monitor) (clock : Tick) : World where
  session :=
    let s := Session.create c monitor
    { s with timeline := s.timeline.start c clock }
  waiting := []

def step (w : World) : Event → World
  | @Event.transmit _ _ channel samples info reading wait =>
    let (outcome, s) := w.session.transmit channel samples info reading wait
    { session := s
      waiting := w.waiting ++ (WaitingCall.ofTransmit? w.session.config channel samples info wait
        outcome).toList }
  | .resume place =>
    match w.waiting[place]? with
    | none => w
    | some call =>
      let (outcome, s) := w.session.resume call
      { session := s, waiting := w.waiting.set place (call.after (ChannelQueue.granted outcome)) }
  | @Event.receive _ _ channel buffer info wait =>
    { w with session := (w.session.receive channel buffer info wait).2 }
  | .arrive packet => { w with session := w.session.accept packet }
  | .pass reading draining answer =>
    { w with session := w.session.pass reading draining answer }
  | .halt reason => { w with session := w.session.halt reason }

def run (w : World) (events : List Event) : World := events.foldl step w

/-- What `f` sees of every step of a run, in order. -/
def observe {β : Type u} (f : World → Event → List β) (w : World) : List Event → List β
  | [] => []
  | e :: rest => f w e ++ observe f (w.step e) rest

variable {P : World → Prop} {Q : Event → Prop} {β γ : Type u} {w : World}

theorem run_invariant (preserved : ∀ w e, P w → P (w.step e)) (initial : P w)
    (events : List Event) : P (w.run events) := by
  induction events generalizing w with
  | nil => exact initial
  | cons e rest ih => exact ih (preserved w e initial)

/-- What goes in and out at every step goes in and out over the run, in order. -/
theorem observe_balance (content : World → List β) (preserved : ∀ w e, P w → P (w.step e))
    {entering leaving : World → Event → List β}
    (balance : ∀ w e, P w → content w ++ entering w e = leaving w e ++ content (w.step e))
    (initial : P w) (events : List Event) :
    content w ++ observe entering w events =
      observe leaving w events ++ content (w.run events) := by
  induction events generalizing w with
  | nil => exact List.append_nil _
  | cons e rest ih =>
    have later := ih (preserved w e initial)
    rw [observe, observe, ← List.append_assoc, balance w e initial, List.append_assoc, later,
      List.append_assoc]
    rfl

/-- A saturating counter that counts what every step shows counts what the run shows. -/
theorem observe_count (count : World → Nat) (preserved : ∀ w e, P w → P (w.step e))
    {f : World → Event → List β} {g : World → Event → List γ} {p : γ → Bool} {limit : Nat}
    (counts : ∀ w e, P w →
      count (w.step e) = min (count w + ((f w e).length + (g w e).countP p)) limit)
    (initial : P w) (bounded : count w ≤ limit) (events : List Event) :
    count (w.run events) =
      min (count w + ((observe f w events).length + (observe g w events).countP p)) limit := by
  induction events generalizing w with
  | nil => exact (Nat.min_eq_left bounded).symm
  | cons e rest ih =>
    have next := counts w e initial
    have later := ih (preserved w e initial) (next ▸ Nat.min_le_right _ _)
    rw [observe, observe, List.length_append, List.countP_append]
    change count ((w.step e).run rest) = _
    rw [later, next]
    omega

theorem mem_observe {f : World → Event → List β} {R : β → Prop}
    (preserved : ∀ w e, P w → P (w.step e)) (holds : ∀ w e, P w → ∀ b ∈ f w e, R b)
    (initial : P w) (events : List Event) : ∀ b ∈ observe f w events, R b := by
  induction events generalizing w with
  | nil => exact List.forall_mem_nil _
  | cons e rest ih =>
    intro b member
    rcases List.mem_append.mp member with now | later
    · exact holds w e initial b now
    · exact ih (preserved w e initial) b later

theorem observe_congr {f g : World → Event → List β} (preserved : ∀ w e, P w → P (w.step e))
    (agree : ∀ w e, P w → Q e → f w e = g w e) (initial : P w) {events : List Event}
    (fine : ∀ e ∈ events, Q e) : observe f w events = observe g w events := by
  induction events generalizing w with
  | nil => rfl
  | cons e rest ih =>
    obtain ⟨first, others⟩ := List.forall_mem_cons.mp fine
    rw [observe, observe, agree w e initial first, ih (preserved w e initial) others]

theorem run_append (w : World) (done rest : List Event) :
    w.run (done ++ rest) = (w.run done).run rest := List.foldl_append

theorem observe_append (f : World → Event → List β) (w : World) (done rest : List Event) :
    observe f w (done ++ rest) = observe f w done ++ observe f (w.run done) rest := by
  induction done generalizing w with
  | nil => rfl
  | cons e done ih =>
    rw [List.cons_append, observe, observe, ih, List.append_assoc]
    rfl

/-- What relates the steps of a run to the world behind them, and stays so with every step,
holds of all runs. -/
theorem run_history {P : List Event → World → Prop} (initial : P [] w)
    (next : ∀ done e, Q e → P done (w.run done) → P (done ++ [e]) ((w.run done).step e))
    {events : List Event} (fine : ∀ e ∈ events, Q e) : P events (w.run events) := by
  suffices onward : ∀ rest done, (∀ e ∈ rest, Q e) → P done (w.run done) →
      P (done ++ rest) (w.run (done ++ rest)) from onward events [] fine initial
  intro rest
  induction rest with
  | nil =>
    intro done _ reached
    rwa [List.append_nil]
  | cons e rest ih =>
    intro done fine reached
    obtain ⟨first, others⟩ := List.forall_mem_cons.mp fine
    have now := next done e first reached
    rw [List.append_cons]
    apply ih (done ++ [e]) others
    rwa [run_append]

theorem observe_flatMap (f : World → Event → List β) (h : β → List γ) (w : World)
    (events : List Event) :
    (observe f w events).flatMap h = observe (fun w e => (f w e).flatMap h) w events := by
  induction events generalizing w with
  | nil => rfl
  | cons e rest ih => rw [observe, observe, List.flatMap_append, ih]

theorem observe_filter (f : World → Event → List β) (p : β → Bool) (w : World)
    (events : List Event) :
    (observe f w events).filter p = observe (fun w e => (f w e).filter p) w events := by
  induction events generalizing w with
  | nil => rfl
  | cons e rest ih => rw [observe, observe, List.filter_append, ih]

end World
end RadioStream
