import RadioStream.Proofs.Session.Frame

/-!
The samples of a channel that are accepted and have not left, and what every operation
of a session adds to them and takes from them. The counter of late transfers is kept
beside them: it counts refused transmissions and dropped batches.
-/
namespace RadioStream

/-- What a call that waits for room has left to offer is what it has left of its samples. -/
structure WaitingCall.Sound (size : Nat) (call : WaitingCall) : Prop where
  whole : call.rest.Whole size
  content_eq : call.rest.content = call.samples

namespace ChannelQueue

theorem afterOffer_not_late (wait : Wait) (count : Nat) (requested head : Tick) :
    wait.afterOffer count ≠ .error (.late requested head) := by
  cases wait <;> simp only [Wait.afterOffer]
  · simp
  · split <;> simp
  · split <;> simp

theorem offer_not_late (q : ChannelQueue) (b : Block) (wait : Wait) (requested head : Tick) :
    (q.offer b wait).1 ≠ .error (.late requested head) := by
  rw [offer]
  split
  · simp
  · dsimp only
    split
    · simp
    · exact afterOffer_not_late wait _ requested head

/-- A caller is told apart what a queue tells apart. -/
theorem eq_of_mapError {x y : Except QueueFault Nat}
    (same : x.mapError QueueFault.toFault = y.mapError QueueFault.toFault) : x = y := by
  have injective (f g : QueueFault) (told : f.toFault = g.toFault) : f = g := by
    cases f <;> cases g <;> simp_all [QueueFault.toFault]
  cases x <;> cases y
  · next f g => rw [injective f g (Except.error.inj same)]
  · contradiction
  · contradiction
  · exact congrArg Except.ok (Except.ok.inj same)

theorem late_of_mapError {outcome : Except QueueFault Nat} {requested head : Tick}
    (late : outcome.mapError QueueFault.toFault = .error (.late requested head)) :
    outcome = .error (.late requested head) :=
  eq_of_mapError (y := .error (.late requested head)) late

@[simp] theorem granted_mapError {ε ε' : Type} (f : ε → ε') (outcome : Except ε Nat) :
    granted (outcome.mapError f) = granted outcome := by
  cases outcome <;> rfl

end ChannelQueue

/-- An offer to the queue of a lane puts samples behind those that wait. -/
theorem TxLane.Sound.offer {size : Nat} {l : TxLane} {b : Block} (sound : l.Sound size)
    (whole : b.Whole size) (wait : Wait) :
    TxLane.Sound size { l with queue := (l.queue.offer b wait).2 } ∧
      TxLane.content { l with queue := (l.queue.offer b wait).2 } =
        l.content ++ b.content.take (ChannelQueue.granted (l.queue.offer b wait).1) := by
  obtain ⟨queueSound, queueContent⟩ := sound.queue.offer whole wait
  refine ⟨⟨queueSound, sound.held⟩, ?_⟩
  simp only [content, queueContent, List.append_assoc]

namespace Session
open ChannelQueue (granted)
variable {s t : Session} {channel other : UInt8}

/-- The samples of a channel that wait in the hand and in the queue, oldest first. -/
def unsent (s : Session) (channel : UInt8) : List Stamped :=
  (s.txOn channel).elim [] TxLane.content

def inHand (s : Session) (channel : UInt8) : List Stamped :=
  (s.txOn channel).elim [] fun l => l.held.elim [] Block.content

def inQueue (s : Session) (channel : UInt8) : List Stamped :=
  (s.txOn channel).elim [] (·.queue.content)

def lateOn (s : Session) (channel : UInt8) : Nat :=
  (s.txOn channel).elim 0 (·.traffic.late.count)

structure TxSound (s : Session) : Prop where
  distinct : (s.tx.map (·.channel)).Nodup
  lanes : ∀ channel l, s.txOn channel = some l → l.Sound s.config.linkFormat.sampleSize

/-- What a step means for a channel: samples enter behind those that wait, transmissions are
refused, and batches leave at the front. -/
structure Moved (s t : Session) (channel : UInt8) (entering : List Stamped) (refused : Nat)
    (leaving : List Departure) : Prop where
  content_eq : s.unsent channel ++ entering =
    leaving.flatMap (·.batch.content) ++ t.unsent channel
  late_eq : t.lateOn channel =
    min (s.lateOn channel + (refused + leaving.countP Departure.isDropped)) 0xffffffff

theorem unsent_eq (s : Session) (channel : UInt8) :
    s.unsent channel = s.inHand channel ++ s.inQueue channel := by
  unfold unsent inHand inQueue
  cases s.txOn channel <;> rfl

theorem lateOn_le (s : Session) (channel : UInt8) : s.lateOn channel ≤ 0xffffffff := by
  rw [lateOn]
  cases s.txOn channel with
  | none => exact Nat.zero_le _
  | some l => exact l.traffic.late.le_limit

theorem moved_nothing (unsent : t.unsent channel = s.unsent channel)
    (late : t.lateOn channel = s.lateOn channel) : Moved s t channel [] 0 [] :=
  ⟨by rw [List.append_nil, unsent, List.flatMap_nil, List.nil_append],
    late.trans (Nat.min_eq_left (s.lateOn_le channel)).symm⟩

theorem unsent_of_core
    (same : (t.txOn channel).map TxLane.core = (s.txOn channel).map TxLane.core) :
    t.unsent channel = s.unsent channel := by
  have content (u : Session) :
      u.unsent channel = ((u.txOn channel).map TxLane.core).elim [] TxLane.content := by
    rw [unsent]
    cases u.txOn channel <;> rfl
  rw [content, content, same]

theorem lateOn_of_core
    (same : (t.txOn channel).map TxLane.core = (s.txOn channel).map TxLane.core) :
    t.lateOn channel = s.lateOn channel := by
  have counted (u : Session) :
      u.lateOn channel = ((u.txOn channel).map TxLane.core).elim 0 (·.traffic.late.count) := by
    rw [lateOn]
    cases u.txOn channel <;> rfl
  rw [counted, counted, same]

theorem TxSound.of_core (sound : s.TxSound) (goesOn : Continues s t)
    (same : t.tx.map TxLane.core = s.tx.map TxLane.core) : t.TxSound := by
  refine ⟨goesOn.txChannels_eq ▸ sound.distinct, ?_⟩
  intro channel l found
  have core := txOn_core same channel
  rw [found, Option.map_some, eq_comm, Option.map_eq_some_iff] at core
  obtain ⟨old, on, same⟩ := core
  rw [goesOn.config_eq, ← TxLane.sound_core, ← same, TxLane.sound_core]
  exact sound.lanes channel old on

theorem moved_of_core (same : t.tx.map TxLane.core = s.tx.map TxLane.core) (channel : UInt8) :
    Moved s t channel [] 0 [] :=
  moved_nothing (unsent_of_core (txOn_core same channel)) (lateOn_of_core (txOn_core same channel))

section putTx
variable {old lane : TxLane}

theorem TxSound.putTx (sound : s.TxSound) (found : s.txOn channel = some old)
    (laneSound : lane.Sound s.config.linkFormat.sampleSize) (on : lane.channel = old.channel) :
    (s.putTx lane).TxSound := by
  refine ⟨(s.putTx_continues lane).txChannels_eq ▸ sound.distinct, ?_⟩
  intro other l there
  rw [← channel_of_txOn found, ← on] at found
  rw [txOn_putTx found] at there
  split at there
  · rw [← Option.some.inj there]
    exact laneSound
  · exact sound.lanes other l there

theorem moved_putTx (same : t.tx = s.tx) (found : s.txOn channel = some old)
    {entering : List Stamped} (content : lane.content = old.content ++ entering) {refused : Nat}
    (late : lane.traffic.late.count = min (old.traffic.late.count + refused) 0xffffffff)
    (on : lane.channel = old.channel) (other : UInt8) :
    Moved s (t.putTx lane) other (if channel = other then entering else [])
      (if channel = other then refused else 0) [] := by
  obtain rfl := on.trans (channel_of_txOn found)
  have there : (t.putTx lane).txOn other =
      if lane.channel = other then some lane else s.txOn other := by
    have stands : t.txOn lane.channel = some old := by rw [txOn, same]; exact found
    rw [txOn_putTx stands, txOn, same]
    rfl
  by_cases here : lane.channel = other
  · subst other
    rw [if_pos rfl] at there ⊢
    rw [if_pos rfl]
    constructor
    · rw [unsent, unsent, there, found]
      exact content.symm
    · rw [lateOn, lateOn, there, found]
      exact late
  · rw [if_neg here] at there ⊢
    rw [if_neg here]
    exact moved_nothing (by rw [unsent, unsent, there]) (by rw [lateOn, lateOn, there])

end putTx

section transmit
variable {α : Type} [HostSample α]

/-- The refusals of a transmission as late, as they are reported. -/
def refusals (outcome : Except Fault Nat) : List Fault :=
  match outcome with
  | .error (.late requested now) => [.late requested now]
  | _ => []

theorem refusals_eq_nil {outcome : Except Fault Nat}
    (inTime : ∀ requested now, outcome ≠ .error (.late requested now)) :
    refusals outcome = [] := by
  unfold refusals
  split
  · next requested now => exact absurd rfl (inTime requested now)
  · rfl

theorem encoded_sound (c : StreamConfig) (samples : List α) (info : TransferMeta) :
    (Block.outgoing info.anchor? info.flush
      (HostSample.toLink c.hostFormat c.linkFormat samples)
      c.linkFormat.sampleSize).Whole c.linkFormat.sampleSize ∧
    (Block.outgoing info.anchor? info.flush
      (HostSample.toLink c.hostFormat c.linkFormat samples)
      c.linkFormat.sampleSize).content = c.encoded samples info := by
  refine ⟨Block.outgoing_whole c.linkFormat.sampleSize_pos ?_ _ _, Block.outgoing_content ..⟩
  rw [HostSample.length_toLink]
  exact Nat.dvd_mul_left _ _

theorem length_encoded (c : StreamConfig) (samples : List α) (info : TransferMeta) :
    (c.encoded samples info).length = samples.length := by
  rw [StreamConfig.encoded, length_stamp, List.length_map]

/-- A transmission puts as many of its first samples behind its channel as it reports. -/
theorem TxSound.transmit (sound : s.TxSound) (channel : UInt8) (samples : List α)
    (info : TransferMeta) (reading : Except Fault Tick) (wait : Wait) :
    let result := s.transmit channel samples info reading wait
    result.2.TxSound ∧ ∀ other, Moved s result.2 other
      (if channel = other then (s.config.encoded samples info).take (granted result.1) else [])
      (if channel = other then (refusals result.1).length else 0) [] := by
  obtain ⟨timeline, tolerance, aligned, effect⟩ :=
    s.transmit_cases channel samples info reading wait
  have moved := continues_timeline tolerance aligned
  have timed : TxSound { s with timeline := timeline } := sound.of_core moved rfl
  dsimp only at effect ⊢
  rcases effect with ⟨after, inTime, none⟩ | ⟨lane, found, effect⟩
  · refine ⟨after ▸ timed, ?_⟩
    intro other
    have nothing : granted (s.transmit channel samples info reading wait).1 = 0 := by
      cases accepted : (s.transmit channel samples info reading wait).1 with
      | ok count => exact none count accepted
      | error fault => rfl
    rw [after, nothing, refusals_eq_nil inTime, List.take_zero, List.length_nil, ite_self, ite_self]
    exact moved_nothing rfl rfl
  · have laneSound := sound.lanes channel lane found
    have same : ({ s with timeline := timeline } : Session).tx = s.tx := rfl
    rcases effect with ⟨now, outcome, after⟩ | ⟨outcome, after⟩ | ⟨outcome, after⟩ <;>
      rw [after, outcome]
    · refine ⟨timed.putTx found ⟨laneSound.queue, laneSound.held⟩ rfl, ?_⟩
      intro other
      have content : TxLane.content { lane with traffic := lane.traffic.countLate } =
          lane.content ++ [] := (List.append_nil _).symm
      exact moved_putTx same found content rfl rfl other
    · refine ⟨timed.putTx found ⟨laneSound.queue.markFlush, laneSound.held⟩ rfl, ?_⟩
      intro other
      have content : TxLane.content { lane with queue := lane.queue.markFlush } =
          lane.content ++ [] := by simp [TxLane.content]
      exact moved_putTx same found content
        (Nat.min_eq_left lane.traffic.late.le_limit).symm rfl other
    · obtain ⟨whole, content⟩ := encoded_sound s.config samples info
      obtain ⟨offered, grown⟩ := laneSound.offer whole wait
      refine ⟨timed.putTx found offered rfl, ?_⟩
      intro other
      rw [refusals_eq_nil fun requested head => mt ChannelQueue.late_of_mapError
        (lane.queue.offer_not_late _ wait requested head), ChannelQueue.granted_mapError, ← content]
      exact moved_putTx same found grown
        (Nat.min_eq_left lane.traffic.late.le_limit).symm rfl other

end transmit

theorem TxSound.resume (sound : s.TxSound) {call : WaitingCall}
    (callSound : call.Sound s.config.linkFormat.sampleSize) :
    (s.resume call).2.TxSound ∧
      (call.after (granted (s.resume call).1)).Sound s.config.linkFormat.sampleSize ∧
      ∀ other, Moved s (s.resume call).2 other
        (if call.channel = other then call.samples.take (granted (s.resume call).1) else [])
        0 [] := by
  have cut (accepted : Nat) : (call.after accepted).Sound s.config.linkFormat.sampleSize :=
    ⟨callSound.whole.advance accepted,
      by rw [WaitingCall.after, callSound.whole.content_advance, callSound.content_eq]⟩
  refine ⟨?_, cut _, ?_⟩ <;> unfold Session.resume <;> split
  · exact sound
  · next lane found =>
    have there := txLane?_eq_ok.mp found
    have offered := (sound.lanes _ lane there).offer callSound.whole .expires
    exact sound.putTx there offered.1 rfl
  · intro other
    rw [granted, List.take_zero, ite_self]
    exact moved_nothing rfl rfl
  · next lane found =>
    intro other
    have there := txLane?_eq_ok.mp found
    obtain ⟨_, grown⟩ := (sound.lanes _ lane there).offer callSound.whole .expires
    rw [callSound.content_eq] at grown
    have counted : lane.traffic.late.count = min (lane.traffic.late.count + 0) 0xffffffff :=
      (Nat.min_eq_left lane.traffic.late.le_limit).symm
    have moved := moved_putTx rfl there grown counted rfl other
    rwa [ite_self] at moved

theorem TxSound.pass (sound : s.TxSound) (reading : Except Fault Tick) (draining : Bool)
    (answer : Except Fault Unit) :
    (s.pass reading draining answer).TxSound ∧ ∀ channel,
      Moved s (s.pass reading draining answer) channel [] 0
        (s.departed reading draining channel) ∧
      (s.beginPass reading draining).packets.filter (·.channel == channel) =
        (s.departed reading draining channel).flatMap Departure.sent ∧
      ∀ d ∈ s.departed reading draining channel,
        d.now = (s.timeline.now reading).1 ∧ d.batch.Stored s.config.linkFormat.sampleSize ∧
        d.Faithful s.config.linkFormat.sampleSize s.timeline.tolerance channel := by
  have goesOn := s.pass_continues reading draining answer
  refine ⟨⟨goesOn.txChannels_eq ▸ sound.distinct, ?_⟩, ?_⟩
  · intro channel l on
    cases found : s.txOn channel with
    | none =>
      rw [(pass_absent found reading draining answer).1] at on
      contradiction
    | some old =>
      obtain ⟨after, _, _, there, _, _, _, departs⟩ :=
        pass_departs found (sound.lanes channel old found) reading draining answer
      rw [on] at there
      rw [goesOn.config_eq, Option.some.inj there]
      exact departs.sound
  · intro channel
    rw [packets_on sound.distinct]
    cases found : s.txOn channel with
    | none =>
      obtain ⟨absent, nothing, missing⟩ := pass_absent found reading draining answer
      rw [nothing, missing]
      refine ⟨moved_nothing ?_ ?_, rfl, List.forall_mem_nil _⟩
      · rw [unsent, unsent, absent, found]
      · rw [lateOn, lateOn, absent, found]
    | some old =>
      obtain ⟨after, departure, shipment, there, left, time, ships, departs⟩ :=
        pass_departs found (sound.lanes channel old found) reading draining answer
      rw [left, ships]
      refine ⟨⟨?_, ?_⟩, departs.sent_eq.symm, ?_⟩
      · rw [List.append_nil, unsent, unsent, there, found]
        exact departs.content_eq
      · rw [lateOn, lateOn, there, found, Nat.zero_add]
        exact departs.late_eq
      · intro d member
        rw [Option.mem_toList] at member
        have faithful := departs.faithful member (time d member)
        rw [Timeline.now_tolerance, channel_of_txOn found] at faithful
        exact ⟨time d member, departs.stored d member, faithful⟩

end Session
end RadioStream
