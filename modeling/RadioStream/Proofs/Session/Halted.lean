import RadioStream.Proofs.Transmission.Conservation

/-!
A halted session. It stays halted, keeps the failure that it was halted with, and its
transmit queues take in nothing: from the halt on samples only leave.
-/
namespace RadioStream

namespace ChannelQueue
variable {q rest : ChannelQueue} {b run : Block} {limit : Nat}

@[simp] theorem append_stopped (q : ChannelQueue) (b : Block) :
    (q.append b).stopped = q.stopped := by
  rw [append]
  split <;> rfl

theorem offer_keeps_stopped (q : ChannelQueue) (b : Block) (wait : Wait) :
    (q.offer b wait).2.stopped = q.stopped := by
  rw [offer]
  split
  · rfl
  · exact append_stopped _ _

theorem takeRun?_stopped (taken : q.takeRun? limit = some (run, rest)) :
    rest.stopped = q.stopped := by
  rw [takeRun?_frame taken]

end ChannelQueue

namespace TxLane

theorem pickUp_stopped (l : TxLane) (batch : Nat) (draining : Bool) (due : Tick → Bool) :
    (l.pickUp batch draining due).queue.stopped = l.queue.stopped := by
  rw [pickUp]
  split
  · rfl
  · split
    · next ready => exact ChannelQueue.takeRun?_stopped (ChannelQueue.takeRun?_of_takeReady? ready)
    · rfl

theorem depart_queue (l : TxLane) (gate : Option Tick) (late : Tick → Bool)
    (packetSamples : Nat) : (l.depart gate late packetSamples).1.queue = l.queue := by
  rcases l.depart_cases gate late packetSamples with
    ⟨_, departs⟩ | ⟨_, _, _, _, _, departs⟩ | ⟨_, _, _, _, departs⟩ <;> rw [departs]

end TxLane

namespace Session
variable {s t : Session} {channel : UInt8}

theorem Closed.putTx {lane : TxLane} (closed : s.Closed)
    (stopped : s.halted = true → lane.queue.stopped = true) : (s.putTx lane).Closed := by
  intro halted l member
  obtain ⟨old, there, rfl⟩ := List.mem_map.mp member
  split
  · exact stopped halted
  · exact closed halted old there

theorem Closed.on (closed : s.Closed) (halted : s.halted = true) {lane : TxLane}
    (found : s.txOn channel = some lane) : lane.queue.stopped = true :=
  closed halted lane (List.mem_of_find?_eq_some found)

section transmit
variable {α : Type} [HostSample α]

theorem Closed.transmit (closed : s.Closed) (channel : UInt8) (samples : List α)
    (info : TransferMeta) (reading : Except Fault Tick) (wait : Wait) :
    (s.transmit channel samples info reading wait).2.Closed ∧
      StaysHalted s (s.transmit channel samples info reading wait).2 := by
  obtain ⟨timeline, _, _, effect⟩ := s.transmit_cases channel samples info reading wait
  have timed : Closed { s with timeline := timeline } := closed
  dsimp only at effect
  rcases effect with ⟨after, _⟩ | ⟨lane, found, effect⟩
  · rw [after]
    exact ⟨timed, fun halted => ⟨halted, rfl⟩⟩
  · have stopped : s.halted = true → lane.queue.stopped = true :=
      fun halted => closed.on halted found
    rcases effect with ⟨_, _, after⟩ | ⟨_, after⟩ | ⟨_, after⟩ <;> rw [after] <;>
      refine ⟨timed.putTx ?_, fun halted => ⟨halted, rfl⟩⟩
    · exact stopped
    · exact stopped
    · dsimp only
      rw [ChannelQueue.offer_keeps_stopped]
      exact stopped

/-- A transmission to a halted session places nothing. -/
theorem Closed.transmit_refused (closed : s.Closed) (halted : s.halted = true)
    (channel : UInt8) (samples : List α) (info : TransferMeta) (reading : Except Fault Tick)
    (wait : Wait) :
    ChannelQueue.granted (s.transmit channel samples info reading wait).1 = 0 := by
  obtain ⟨timeline, _, _, effect⟩ := s.transmit_cases channel samples info reading wait
  dsimp only at effect
  rcases effect with ⟨_, _, none⟩ | ⟨lane, found, ⟨_, outcome, _⟩ | ⟨outcome, _⟩ | ⟨outcome, _⟩⟩
  · cases accepted : (s.transmit channel samples info reading wait).1 with
    | ok count => exact none count accepted
    | error fault => rfl
  · rw [outcome]
    rfl
  · rw [outcome]
    rfl
  · rw [outcome, ChannelQueue.offer_stopped (closed.on halted found)]
    rfl

end transmit

theorem Closed.resume (closed : s.Closed) (call : WaitingCall) :
    (s.resume call).2.Closed ∧ StaysHalted s (s.resume call).2 := by
  rw [Session.resume]
  split
  · exact ⟨closed, fun halted => ⟨halted, rfl⟩⟩
  · next lane found =>
    refine ⟨closed.putTx ?_, fun halted => ⟨halted, rfl⟩⟩
    intro halted
    dsimp only
    rw [ChannelQueue.offer_keeps_stopped]
    exact closed.on halted (txLane?_eq_ok.mp found)

theorem Closed.resume_refused (closed : s.Closed) (halted : s.halted = true)
    (call : WaitingCall) : ChannelQueue.granted (s.resume call).1 = 0 := by
  rw [Session.resume]
  split
  · rfl
  · next lane found =>
    rw [ChannelQueue.offer_stopped (closed.on halted (txLane?_eq_ok.mp found))]
    rfl

theorem Closed.receive {α : Type} [HostSample α] (closed : s.Closed) (channel : UInt8)
    (buffer : List α) (info : TransferMeta) (wait : Wait) :
    (s.receive channel buffer info wait).2.Closed ∧
      StaysHalted s (s.receive channel buffer info wait).2 := by
  rcases s.receive_cases channel buffer info wait with ⟨after, _⟩ | ⟨lane, _, after, _⟩ <;>
    rw [after] <;> exact ⟨closed, fun halted => ⟨halted, rfl⟩⟩

theorem Closed.accept (closed : s.Closed) (p : RxPacket) :
    (s.accept p).Closed ∧ StaysHalted s (s.accept p) := by
  rcases s.accept_cases p with ⟨after, _⟩ | ⟨lane, timeline, _, _, _, kept⟩
  · rw [after]
    exact ⟨closed, fun halted => ⟨halted, rfl⟩⟩
  · exact ⟨kept.closed closed, kept.halted⟩

theorem Closed.pass (closed : s.Closed) (reading : Except Fault Tick) (draining : Bool)
    (answer : Except Fault Unit) : (s.pass reading draining answer).Closed ∧
      StaysHalted s (s.pass reading draining answer) := by
  let p := s.beginPass reading draining
  have began : Closed { p.session with tx := p.kept } := by
    intro halted l member
    dsimp only [p] at member
    rw [TxPass.kept, beginPass_lanes, loaded, List.map_map, List.map_map] at member
    obtain ⟨old, there, rfl⟩ := List.mem_map.mp member
    simp only [Function.comp, TxLane.depart_queue, TxLane.pickUp_stopped]
    exact closed halted old there
  have kept := TxPass.finish_kept p (if p.packets.isEmpty then none else some answer)
  exact ⟨kept.closed began, kept.halted⟩

end Session

namespace World
variable {w : World}

theorem step_closed (closed : w.session.Closed) (e : Event) :
    (w.step e).session.Closed ∧ w.session.StaysHalted (w.step e).session := by
  cases e with
  | transmit channel samples info reading wait =>
    exact closed.transmit channel samples info reading wait
  | resume place =>
    cases waiting : w.waiting[place]? with
    | none =>
      simp only [step, waiting]
      exact ⟨closed, fun halted => ⟨halted, rfl⟩⟩
    | some call =>
      simp only [step, waiting]
      exact closed.resume call
  | receive channel buffer info wait => exact closed.receive channel buffer info wait
  | arrive packet => exact closed.accept packet
  | pass reading draining answer => exact closed.pass reading draining answer
  | halt reason =>
    have kept := w.session.halt_kept reason
    exact ⟨kept.closed closed, kept.halted⟩

theorem accepted_halted (closed : w.session.Closed) (halted : w.session.halted = true)
    (channel : UInt8) (e : Event) : accepted channel w e = [] := by
  cases e with
  | transmit on samples info reading wait =>
    rw [accepted, closed.transmit_refused halted, List.take_zero, ite_self]
  | resume place =>
    rw [accepted]
    split
    · rfl
    · rw [closed.resume_refused halted, List.take_zero, ite_self]
  | _ => rfl

end World
end RadioStream
