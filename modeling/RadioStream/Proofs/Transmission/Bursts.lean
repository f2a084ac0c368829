import RadioStream.Proofs.Queue.Bursts
import RadioStream.Proofs.Transmission.Gate

/-!
Where bursts end on their way from callers to packets. The blocks of a lane, the one in hand
before those in the queue, mark the ends; callers add them behind everything accepted so far,
the worker takes them off at the front, and between the two none moves. So a packet carries
the flag exactly where a caller ended a burst with its last sample.
-/
namespace RadioStream
open Block (burstEnds)
open ChannelQueue (granted)

namespace Block
variable {size : Nat} {b : Block} {channel : UInt8} {packetSamples : Nat}

@[simp] theorem outgoing_flush (anchor : Option Tick) (flush : Bool) (payload : List UInt8)
    (size : Nat) : (outgoing anchor flush payload size).flush = flush := rfl

/-- Of the packets of a flushed batch the last one is marked. -/
theorem packetize_flush {front back : List TxPacket} {p : TxPacket}
    (cut : b.packetize channel packetSamples = front ++ p :: back) :
    p.flush = (b.flush && back.isEmpty) := by
  have count := congrArg List.length cut
  have here := congrArg (·[front.length]?) cut
  simp only [packetize, List.length_mapIdx, List.length_append, List.length_cons,
    List.getElem?_mapIdx, List.getElem?_append_right (Nat.le_refl _), Nat.sub_self,
    List.getElem?_cons_zero, Option.map_eq_some_iff] at count here
  obtain ⟨part, _, rfl⟩ := here
  rw [count]
  cases back <;> simp

/-- A batch cut into packets, read at one of them: it is marked if and only if the burst ends
with its last sample. -/
theorem Stored.packetize_flush_iff (stored : b.Stored size) {front back : List TxPacket}
    {p : TxPacket} (cut : b.packetize channel packetSamples = front ++ p :: back) :
    let upTo := ((front ++ [p]).flatMap (TxPacket.content size)).length
    0 < upTo ∧ upTo ≤ b.content.length ∧
      (p.flush = true ↔ b.flush = true ∧ upTo = b.content.length) := by
  have filled : ∀ q ∈ front ++ p :: back, 0 < (q.content size).length := by
    intro q member
    obtain ⟨first, head, _⟩ := (stored.packetize_carries (cut ▸ member)).timestamp_eq
    exact List.length_pos_of_mem (List.mem_of_head? head)
  have whole := congrArg List.length (stored.content_packetize channel packetSamples)
  have here := filled p (by simp)
  simp only [cut, List.flatMap_append, List.flatMap_cons, List.flatMap_nil, List.append_nil,
    List.length_append] at whole ⊢
  rw [packetize_flush cut]
  refine ⟨by omega, by omega, ?_⟩
  cases back with
  | nil =>
    simp only [List.flatMap_nil, List.length_nil, Nat.add_zero] at whole
    simp [← whole]
  | cons next others =>
    have after := filled next (by simp)
    simp only [List.flatMap_cons, List.length_append] at whole
    constructor
    · simp
    · rintro ⟨_, same⟩
      omega

end Block

namespace TxLane
variable {size : Nat} {l : TxLane}

/-- The blocks of a lane that have not left, the one in hand first. -/
def line (l : TxLane) : List Block := l.held.toList ++ l.queue.blocks

@[simp] theorem line_core (l : TxLane) : l.core.line = l.line := rfl

theorem content_eq_line (l : TxLane) : l.content = l.line.flatMap Block.content := by
  rw [content, line, List.flatMap_append]
  cases l.held <;> simp [ChannelQueue.content]

theorem Sound.line_stored (sound : l.Sound size) : ∀ b ∈ l.line, b.Stored size := by
  intro b member
  rcases List.mem_append.mp member with held | queued
  · exact sound.held b (Option.mem_toList.mp held)
  · exact sound.queue.stored b queued

/-- Taking a batch into the hand leaves the ends of bursts where they are. -/
theorem Sound.burstEnds_pickUp (sound : l.Sound size) (batch : Nat) (draining : Bool)
    (due : Tick → Bool) (before : Nat) :
    burstEnds before (l.pickUp batch draining due).line = burstEnds before l.line := by
  rw [TxLane.pickUp]
  split
  · rfl
  · next empty =>
    split
    · next run queue ready =>
      have taken :=
        sound.queue.burstEnds_takeRun? (ChannelQueue.takeRun?_of_takeReady? ready) before
      simpa [line, empty] using taken
    · rfl

/-- A batch that leaves is the front of the line. -/
theorem line_depart (l : TxLane) (gate : Option Tick) (late : Tick → Bool) (packetSamples : Nat)
    (now : Tick) : l.line =
      (l.departure? now (l.depart gate late packetSamples)).toList.map (·.batch) ++
        (l.depart gate late packetSamples).1.line := by
  rw [departure?_depart]
  rcases l.depart_cases gate late packetSamples with
    ⟨stays, departs⟩ | ⟨b, held, leaves, _, _, departs⟩ | ⟨b, held, leaves, _, departs⟩
  · simp [departs, stays]
  · simp [departs, leaves, held, line]
  · simp [departs, leaves, held, line]

theorem mem_burstEnds_mark {n : Nat} (l : TxLane) (before : Nat) :
    n ∈ burstEnds before (line { l with queue := l.queue.markFlush }) ↔
      n ∈ burstEnds before l.line ∨
        l.queue.blocks ≠ [] ∧ n = before + l.content.length := by
  have marked := ChannelQueue.mem_burstEnds_markLast (n := n)
    (before + (l.held.toList.flatMap Block.content).length) l.queue.blocks
  simp only [line, ChannelQueue.markFlush, Block.burstEnds_append, List.mem_append, marked,
    content_eq_line, List.flatMap_append, List.length_append, Nat.add_assoc, or_assoc]

theorem mem_burstEnds_offer {n : Nat} {b : Block} (l : TxLane) (whole : b.Whole size) (wait : Wait)
    (before : Nat) :
    n ∈ burstEnds before (line { l with queue := (l.queue.offer b wait).2 }) ↔
      n ∈ burstEnds before l.line ∨ (b.flush = true ∧ b.content ≠ [] ∧
        granted (l.queue.offer b wait).1 = b.content.length) ∧
          n = before + l.content.length + b.content.length := by
  simp only [line, Block.burstEnds_append, ChannelQueue.burstEnds_offer whole, List.mem_append,
    content_eq_line, List.flatMap_append, List.length_append, ChannelQueue.content, or_assoc]
  split
  · next ends => simp [ends, Nat.add_assoc]
  · next ends => simp [ends]

end TxLane

namespace Session
variable {s t : Session} {channel other : UInt8} {reading : Except Fault Tick} {draining : Bool}

/-- The blocks of a channel that have not left, the one in hand first. -/
def line (s : Session) (channel : UInt8) : List Block := (s.txOn channel).elim [] TxLane.line

theorem unsent_eq_line (s : Session) (channel : UInt8) :
    s.unsent channel = (s.line channel).flatMap Block.content := by
  rw [unsent, line]
  cases s.txOn channel with
  | none => rfl
  | some l => exact l.content_eq_line

theorem TxSound.line_stored (sound : s.TxSound) (channel : UInt8) :
    ∀ b ∈ s.line channel, b.Stored s.config.linkFormat.sampleSize := by
  rw [line]
  cases found : s.txOn channel with
  | none => exact List.forall_mem_nil _
  | some l => exact (sound.lanes channel l found).line_stored

theorem line_of_core (same : (t.txOn channel).map TxLane.core = (s.txOn channel).map TxLane.core) :
    t.line channel = s.line channel := by
  have lines (u : Session) :
      u.line channel = ((u.txOn channel).map TxLane.core).elim [] TxLane.line := by
    rw [line]
    cases u.txOn channel <;> rfl
  rw [lines, lines, same]

theorem line_putTx {old lane : TxLane} (same : t.tx = s.tx) (found : s.txOn channel = some old)
    (on : lane.channel = old.channel) (other : UInt8) :
    (t.putTx lane).line other = if channel = other then lane.line else s.line other := by
  obtain rfl := on.trans (channel_of_txOn found)
  have stands : t.txOn lane.channel = some old := by rw [txOn, same]; exact found
  have beside : t.txOn other = s.txOn other := by rw [txOn, same]; rfl
  rw [line, line, txOn_putTx stands, beside]
  split <;> rfl

/-- At most one batch of a channel leaves in a pass, and what is written of it is its cut. -/
theorem departed_cases (s : Session) (reading : Except Fault Tick) (draining : Bool)
    (channel : UInt8) :
    s.departed reading draining channel = [] ∨
      ∃ d, s.departed reading draining channel = [d] ∧ ∀ packets ∈ d.packets,
        packets = d.batch.packetize channel s.config.txPacket := by
  cases found : s.txOn channel with
  | none => exact .inl (pass_absent found reading draining (.ok ())).2.1
  | some l =>
    rw [departed_on found]
    generalize hand : l.pickUp s.config.txBatch draining _ = picked
    split
    · cases picked.held with
      | none => exact .inl rfl
      | some b =>
        refine .inr ⟨_, rfl, ?_⟩
        rw [channel_of_txOn found]
        dsimp only
        split
        · simp
        · rintro packets ⟨rfl⟩
          rfl
    · exact .inl rfl

/-- A pass takes its batches off the front of the lines, and no burst ends elsewhere for it. -/
theorem TxSound.burstEnds_pass (sound : s.TxSound) (reading : Except Fault Tick) (draining : Bool)
    (answer : Except Fault Unit) (channel : UInt8) (before : Nat) :
    burstEnds before ((s.departed reading draining channel).map (·.batch) ++
        (s.pass reading draining answer).line channel) = burstEnds before (s.line channel) := by
  cases found : s.txOn channel with
  | none =>
    obtain ⟨absent, nothing, _⟩ := pass_absent found reading draining answer
    simp [line, absent, nothing, found]
  | some l =>
    have loaded := s.loaded_on reading draining channel
    have lanes := s.lanes_on reading draining channel
    have core := s.pass_core reading draining answer channel
    rw [found, Option.map_some] at loaded
    rw [loaded, Option.map_some] at lanes
    rw [lanes, Option.map_some, Option.map_eq_some_iff] at core
    obtain ⟨after, on, same⟩ := core
    have lineAfter := congrArg TxLane.line same
    rw [TxLane.line_core, TxLane.line_core] at lineAfter
    simp only [departed, loaded, lanes, line, on, found, Option.elim, lineAfter]
    rw [← (sound.lanes channel l found).burstEnds_pickUp s.config.txBatch draining
      ((s.timeline.now reading).2.isDue · (s.timeline.now reading).1) before]
    exact congrArg (burstEnds before) (TxLane.line_depart ..).symm

section transmit
variable {α : Type} [HostSample α]

/-- What a transmission does to the line of its channel and what it answers: an empty one marks
the queue or does nothing, others are offered to the queue or refused. -/
theorem transmit_line (s : Session) (channel : UInt8) (samples : List α) (info : TransferMeta)
    (reading : Except Fault Tick) (wait : Wait) :
    let result := s.transmit channel samples info reading wait
    let block := Block.outgoing info.anchor? info.flush
      (HostSample.toLink s.config.hostFormat s.config.linkFormat samples)
      s.config.linkFormat.sampleSize
    ((∀ other, result.2.line other = s.line other) ∧
      ((∃ fault, result.1 = .error fault) ∨
        result.1 = .ok 0 ∧ samples = [] ∧ info.flush = false)) ∨
    ∃ lane, s.txOn channel = some lane ∧
      ((samples = [] ∧ info.flush = true ∧ result.1 = .ok 0 ∧ ∀ other, result.2.line other =
          if channel = other then TxLane.line { lane with queue := lane.queue.markFlush }
          else s.line other) ∨
        (samples ≠ [] ∧
          result.1 = (lane.queue.offer block wait).1.mapError QueueFault.toFault ∧
          ∀ other, result.2.line other = if channel = other then
            TxLane.line { lane with queue := (lane.queue.offer block wait).2 }
            else s.line other)) := by
  unfold transmit
  dsimp only
  split
  · exact .inl ⟨fun _ => rfl, .inl ⟨_, rfl⟩⟩
  · split
    · exact .inl ⟨fun _ => rfl, .inl ⟨_, rfl⟩⟩
    · next lane there =>
      have found := txLane?_eq_ok.mp there
      generalize (if info.useTimestamp then s.timeline.now reading
        else (s.timeline.observed, s.timeline)) = read
      have same : ({ s with timeline := read.2 } : Session).tx = s.tx := rfl
      split
      · refine .inl ⟨fun other => ?_, .inl ⟨_, rfl⟩⟩
        let refused : TxLane := { lane with traffic := lane.traffic.countLate }
        have on : refused.channel = lane.channel := rfl
        rw [line_putTx same found on]
        split
        · next here =>
          subst here
          rw [line, found]
          rfl
        · rfl
      · split
        · next empty =>
          have none := List.isEmpty_iff.mp empty
          cases flush : info.flush with
          | false => exact .inl ⟨fun _ => rfl, .inr ⟨rfl, none, rfl⟩⟩
          | true =>
            exact .inr ⟨lane, found, .inl ⟨none, rfl, rfl, line_putTx same found rfl⟩⟩
        · next some =>
          exact .inr ⟨lane, found, .inr ⟨mt List.isEmpty_iff.mpr some, rfl,
            line_putTx same found rfl⟩⟩

end transmit

theorem resume_line (s : Session) (call : WaitingCall) :
    ((∀ other, (s.resume call).2.line other = s.line other) ∧ granted (s.resume call).1 = 0) ∨
    ∃ lane, s.txOn call.channel = some lane ∧
      (s.resume call).1 = (lane.queue.offer call.rest .expires).1 ∧
      ∀ other, (s.resume call).2.line other = if call.channel = other then
        TxLane.line { lane with queue := (lane.queue.offer call.rest .expires).2 }
        else s.line other := by
  unfold resume
  split
  · exact .inl ⟨fun _ => rfl, rfl⟩
  · next lane there =>
    have found := txLane?_eq_ok.mp there
    exact .inr ⟨lane, found, rfl, line_putTx rfl found rfl⟩

section offered
variable {on : UInt8} {before n : Nat} {lane : TxLane} {b : Block} {wait : Wait}

/-- Behind an offer bursts end where they did before, and at the last sample of a flushed block
that is placed to its end. -/
theorem mem_burstEnds_offered {size : Nat} (found : s.txOn on = some lane) (whole : b.Whole size)
    (lines : ∀ other, t.line other = if on = other then
      TxLane.line { lane with queue := (lane.queue.offer b wait).2 } else s.line other) :
    n ∈ burstEnds before (t.line channel) ↔ n ∈ burstEnds before (s.line channel) ∨
      (on = channel ∧ b.flush = true ∧ b.content ≠ [] ∧
        granted (lane.queue.offer b wait).1 = b.content.length) ∧
          n = before + (s.unsent channel).length + b.content.length := by
  rw [lines]
  by_cases here : on = channel
  · subst here
    rw [if_pos rfl, lane.mem_burstEnds_offer whole, line, unsent, found]
    simp
  · simp [here]

end offered

end Session

namespace World
variable {c : StreamConfig} {w : World} {channel : UInt8}

/-- Whether a step ends a burst on a channel: a flushed transmission places its last sample, or
one without samples finds some in the queue. -/
def endsBurst (channel : UInt8) (w : World) : Event → Bool
  | @Event.transmit _ _ on samples info reading wait =>
    match (w.session.transmit on samples info reading wait).1 with
    | .ok count => on = channel && info.flush &&
      if samples.isEmpty then !(w.session.inQueue channel).isEmpty else count = samples.length
    | .error _ => false
  | .resume place => match w.waiting[place]? with
    | some call => call.channel = channel && call.rest.flush && !call.samples.isEmpty &&
      granted (w.session.resume call).1 = call.samples.length
    | none => false
  | _ => false

/-- The numbers of samples accepted on a channel whenever a burst ended on it, after `count` that
were accepted before. -/
def burstEnds (channel : UInt8) (count : Nat) (w : World) : List Event → List Nat
  | [] => []
  | e :: rest =>
    let count := count + (accepted channel w e).length
    (if endsBurst channel w e then [count] else []) ++ burstEnds channel count (w.step e) rest

theorem TxSound.inQueue_isEmpty (sound : TxSound c w) {lane : TxLane}
    (found : w.session.txOn channel = some lane) :
    (w.session.inQueue channel).isEmpty = true ↔ lane.queue.blocks = [] := by
  rw [(sound.session.lanes channel lane found).queue.blocks_eq_nil, List.isEmpty_iff,
    Session.inQueue, found]
  rfl

/-- What a transmission places and where a burst ends with it. -/
theorem TxSound.transmit_burstEnds {α : Type} [HostSample α] (sound : TxSound c w) (on : UInt8)
    (samples : List α) (info : TransferMeta) (reading : Except Fault Tick) (wait : Wait)
    (channel : UInt8) (before n : Nat) :
    let e := Event.transmit on samples info reading wait
    n ∈ Block.burstEnds before ((w.step e).session.line channel) ↔
      n ∈ Block.burstEnds before (w.session.line channel) ∨ endsBurst channel w e = true ∧
        n = before + (w.session.unsent channel).length + (accepted channel w e).length := by
  rcases w.session.transmit_line on samples info reading wait with
    ⟨lines, ⟨fault, outcome⟩ | ⟨outcome, _, unflushed⟩⟩ |
    ⟨lane, found, ⟨rfl, flush, outcome, lines⟩ | ⟨given, outcome, lines⟩⟩
  · simp [World.step, lines, endsBurst, outcome]
  · simp [World.step, lines, endsBurst, outcome, unflushed]
  · have waits := sound.inQueue_isEmpty found
    simp only [World.step, lines, endsBurst, outcome]
    by_cases here : on = channel
    · subst here
      have nothing : w.session.config.encoded ([] : List α) info = [] := rfl
      rw [if_pos rfl, lane.mem_burstEnds_mark, accepted, if_pos rfl, nothing, ne_eq, ← waits]
      simp [flush, Session.line, Session.unsent, found]
    · simp [here]
  · obtain ⟨whole, content⟩ := Session.encoded_sound w.session.config samples info
    have length := Session.length_encoded w.session.config samples info
    have filled : w.session.config.encoded samples info ≠ [] := by
      rwa [ne_eq, ← List.length_eq_zero_iff, length, List.length_eq_zero_iff]
    have some : 0 ≠ samples.length := Nat.ne_of_lt (List.length_pos_iff.mpr given)
    simp only [World.step]
    rw [Session.mem_burstEnds_offered found whole lines, content]
    simp only [endsBurst, accepted, outcome]
    cases (lane.queue.offer _ wait).1 with
    | error fault =>
      have refused : (Except.error fault : Except QueueFault Nat).mapError QueueFault.toFault =
          .error fault.toFault := rfl
      simp [granted, refused, length, some]
    | ok count =>
      have answered (n : Nat) : (Except.ok n : Except QueueFault Nat).mapError
          QueueFault.toFault = .ok n := rfl
      by_cases all : count = samples.length <;> by_cases here : on = channel <;>
        simp [granted, answered, length, filled, given, all, here]

/-- A step ends a burst behind all samples accepted so far, or none. -/
theorem TxSound.step_burstEnds (sound : TxSound c w) (e : Event) (channel : UInt8)
    (before n : Nat) :
    n ∈ Block.burstEnds before ((departed channel w e).map (·.batch) ++
        (w.step e).session.line channel) ↔
      n ∈ Block.burstEnds before (w.session.line channel) ∨ endsBurst channel w e = true ∧
        n = before + (w.session.unsent channel).length + (accepted channel w e).length := by
  cases e with
  | transmit on samples info reading wait =>
    exact sound.transmit_burstEnds on samples info reading wait channel before n
  | resume place =>
    simp only [departed, List.map_nil, List.nil_append, World.step, endsBurst, accepted]
    cases waiting : w.waiting[place]? with
    | none => simp
    | some call =>
      have callSound := sound.calls call (List.mem_of_getElem? waiting)
      rcases w.session.resume_line call with ⟨lines, nothing⟩ | ⟨lane, found, outcome, lines⟩
      · simp only [lines, nothing]
        cases call.samples <;> simp
      · dsimp only
        rw [Session.mem_burstEnds_offered found callSound.whole lines, callSound.content_eq,
          outcome]
        generalize granted (lane.queue.offer call.rest .expires).1 = count
        by_cases all : count = call.samples.length <;>
          by_cases here : call.channel = channel <;> simp [all, here, and_assoc]
  | receive on buffer info wait =>
    have same := congrArg (List.map TxLane.core) (w.session.receive_tx on buffer info wait)
    have lines := Session.line_of_core (Session.txOn_core same channel)
    simp [departed, World.step, lines, endsBurst]
  | arrive packet =>
    have lines := Session.line_of_core (Session.txOn_core (w.session.accept_tx packet) channel)
    simp [departed, World.step, lines, endsBurst]
  | pass reading draining answer =>
    have same := sound.session.burstEnds_pass reading draining answer channel before
    simp [departed, World.step, same, endsBurst]
  | halt reason =>
    have kept := w.session.halt_kept reason
    have lines := Session.line_of_core (Session.txOn_core kept.tx_eq channel)
    simp [departed, World.step, lines, endsBurst]

/-- Over a run the batches that left and the line behind them mark what callers marked. -/
theorem TxSound.run_burstEnds (sound : TxSound c w) (events : List Event) (channel : UInt8)
    (gone n : Nat) :
    n ∈ Block.burstEnds gone ((observe (departed channel) w events).map (·.batch) ++
        (w.run events).session.line channel) ↔
      n ∈ Block.burstEnds gone (w.session.line channel) ∨
        n ∈ burstEnds channel (gone + (w.session.unsent channel).length) w events := by
  induction events generalizing w gone with
  | nil => simp [observe, run, burstEnds]
  | cons e rest ih =>
    obtain ⟨next, moved⟩ := sound.step e
    have content := congrArg List.length (moved channel).content_eq
    have here := sound.step_burstEnds e channel gone n
    rw [List.length_append, List.length_append] at content
    rw [Block.burstEnds_append, List.mem_append, List.flatMap_map] at here
    have later := ih next (gone + ((departed channel w e).flatMap (·.batch.content)).length)
    rw [Nat.add_assoc, ← content, ← Nat.add_assoc] at later
    rw [observe, List.map_append, List.append_assoc, Block.burstEnds_append, List.mem_append,
      List.flatMap_map, burstEnds, List.mem_append]
    change _ ∨ n ∈ Block.burstEnds _ (_ ++ ((w.step e).run rest).session.line channel) ↔ _
    rw [later, ← or_assoc, here, or_assoc]
    by_cases ends : endsBurst channel w e = true <;> simp [ends, Nat.add_assoc]

theorem TxSound.run_burstEnds_fresh (sound : TxSound c w)
    (fresh : w.session.unsent channel = []) (events : List Event) (n : Nat) :
    n ∈ Block.burstEnds 0 ((observe (departed channel) w events).map (·.batch) ++
        (w.run events).session.line channel) ↔ n ∈ burstEnds channel 0 w events := by
  have nowhere : n ∉ Block.burstEnds 0 (w.session.line channel) := by
    intro ends
    have bounds := Block.mem_burstEnds_bounds (sound.session.line_stored channel) ends
    rw [← Session.unsent_eq_line, fresh, List.length_nil] at bounds
    omega
  rw [sound.run_burstEnds, or_iff_right nowhere, fresh, List.length_nil]

/-- A burst ends with a number of samples if and only if some step ends it when so many are
accepted. -/
theorem mem_burstEnds {count n : Nat} {events : List Event} :
    n ∈ burstEnds channel count w events ↔ ∃ done e rest, events = done ++ e :: rest ∧
      endsBurst channel (w.run done) e = true ∧
        n = count + (observe (accepted channel) w (done ++ [e])).length := by
  induction events generalizing w count with
  | nil => simp [burstEnds]
  | cons first others ih =>
    rw [burstEnds, List.mem_append, ih]
    constructor
    · rintro (now | ⟨done, e, rest, rfl, ends, rfl⟩)
      · split at now
        · next ends =>
          exact ⟨[], first, others, rfl, ends, by simpa [observe] using now⟩
        · exact absurd now List.not_mem_nil
      · exact ⟨first :: done, e, rest, rfl, ends, by simp [observe, Nat.add_assoc]⟩
    · rintro ⟨done, e, rest, split, ends, rfl⟩
      cases done with
      | nil =>
        obtain ⟨rfl, rfl⟩ := List.cons.inj split
        have now : endsBurst channel w first = true := ends
        exact .inl (by simp [now, observe])
      | cons _ done =>
        obtain ⟨rfl, rfl⟩ := List.cons.inj split
        exact .inr ⟨done, e, rest, rfl, ends, by simp [observe, Nat.add_assoc]⟩

theorem departed_stored (sound : TxSound c w) (e : Event) (channel : UInt8) :
    ∀ d ∈ departed channel w e, d.batch.Stored c.linkFormat.sampleSize := by
  cases e with
  | pass reading draining answer =>
    intro d member
    rw [← sound.config_eq]
    exact (((sound.session.pass reading draining answer).2 channel).2.2 d member).2.1
  | _ => exact List.forall_mem_nil _

theorem departed_single (w : World) (e : Event) (channel : UInt8) :
    departed channel w e = [] ∨ ∃ d, departed channel w e = [d] ∧ ∀ packets ∈ d.packets,
      packets = d.batch.packetize channel w.session.config.txPacket := by
  cases e with
  | pass reading draining answer => exact w.session.departed_cases reading draining channel
  | _ => exact .inl rfl

/-- A packet that is written is one of the cut of the batch that leaves with it. -/
theorem TxSound.written_cut (sound : TxSound c w) {e : Event} {front back : List TxPacket}
    {p : TxPacket} (sent : (written w e).filter (·.channel == channel) = front ++ p :: back) :
    ∃ d, departed channel w e = [d] ∧
      d.batch.packetize channel c.txPacket = front ++ p :: back := by
  have whole : (offered w e).filter (·.channel == channel) = front ++ p :: back := by
    cases e with
    | pass reading draining answer =>
      cases answer with
      | ok _ => exact sent
      | error fault => simp [written] at sent
    | _ => simp [written] at sent
  rw [offered_departed sound] at whole
  rcases departed_single w e channel with none | ⟨d, left, cut⟩
  · simp [none] at whole
  · refine ⟨d, left, ?_⟩
    rw [left, List.flatMap_singleton, Departure.sent] at whole
    cases packets : d.packets with
    | none => simp [packets] at whole
    | some sent =>
      rw [packets, Option.getD_some] at whole
      rw [← whole, cut sent packets, sound.config_eq]

section batch
variable {past later : List Event} {e : Event} {d : Departure}

theorem departures_split (left : departed channel (w.run past) e = [d]) (later : List Event) :
    observe (departed channel) w (past ++ e :: later) = observe (departed channel) w past ++
      d :: observe (departed channel) ((w.run past).step e) later := by
  rw [observe_append, observe, left, List.singleton_append]

/-- A batch that leaves in a run carries the next accepted samples. -/
theorem TxSound.accepted_eq (sound : TxSound c w) (fresh : w.session.unsent channel = [])
    (left : departed channel (w.run past) e = [d]) (later : List Event) :
    ∃ more, observe (accepted channel) w (past ++ e :: later) =
      (observe (departed channel) w past).flatMap (·.batch.content) ++ d.batch.content ++ more := by
  have balance := observe_balance (fun w => w.session.unsent channel)
    (fun w e sound => (sound.step e).1) (fun w e sound => ((sound.step e).2 channel).content_eq)
    sound (past ++ e :: later)
  rw [← observe_flatMap, departures_split left later, fresh, List.nil_append] at balance
  exact ⟨_, by rw [balance, List.flatMap_append, List.flatMap_cons, List.append_assoc,
    List.append_assoc, List.append_assoc]⟩

/-- Among the samples of a batch that leaves, a burst ends at most with the last one, and does so
if and only if the batch is marked. -/
theorem TxSound.mem_burstEnds_batch (sound : TxSound c w) (fresh : w.session.unsent channel = [])
    (left : departed channel (w.run past) e = [d]) (later : List Event) {n : Nat} :
    let gone := ((observe (departed channel) w past).flatMap (·.batch.content)).length
    gone < n → n ≤ gone + d.batch.content.length →
      (n ∈ burstEnds channel 0 w (past ++ e :: later) ↔
        d.batch.flush = true ∧ n = gone + d.batch.content.length) := by
  intro gone behind upTo
  have kept (w : World) (e : Event) (sound : TxSound c w) : TxSound c (w.step e) := (sound.step e).1
  have final : TxSound c (w.run (past ++ e :: later)) := run_invariant kept sound _
  have marks := sound.run_burstEnds_fresh fresh (past ++ e :: later) n
  have stored := mem_observe kept (fun w e sound => departed_stored sound e channel) sound
    (past ++ e :: later)
  rw [departures_split left later, List.map_append, List.map_cons, List.append_assoc,
    List.cons_append] at marks
  rw [departures_split left later, List.forall_mem_append, List.forall_mem_cons] at stored
  have counted : gone = 0 + (((observe (departed channel) w past).map (·.batch)).flatMap
      Block.content).length := by
    rw [Nat.zero_add, List.flatMap_map]
  rw [← marks, counted]
  rw [counted] at behind upTo
  have whole : ∀ b ∈ (observe (departed channel) w past).map (·.batch) ++ d.batch ::
      ((observe (departed channel) ((w.run past).step e) later).map (·.batch) ++
        (w.run (past ++ e :: later)).session.line channel), b.Stored c.linkFormat.sampleSize := by
    simp only [List.forall_mem_append, List.forall_mem_cons, List.forall_mem_map]
    exact ⟨stored.1, stored.2.1, stored.2.2, final.config_eq ▸ final.session.line_stored channel⟩
  exact Block.mem_burstEnds_within whole behind upTo

end batch

/-- Over all runs from the opening of a session, a packet is marked if and only if a caller ended
a burst with its last sample, and no batch goes on behind the end of a burst. -/
theorem flushes_exact {available : UInt8} (valid : c.validate available = .ok ())
    (monitor : Option Monitor) (clock : Tick) (past : List Event) (e : Event) (later : List Event)
    (channel : UInt8) :
    let start := opened c monitor clock
    let size := c.linkFormat.sampleSize
    let events := past ++ e :: later
    let gone := ((observe (departed channel) start past).flatMap (·.batch.content)).length
    let ends := burstEnds channel 0 start events
    (∀ front p back,
      (written (start.run past) e).filter (·.channel == channel) = front ++ p :: back →
      let last := gone + ((front ++ [p]).flatMap (TxPacket.content size)).length
      p.content size <:+ (observe (accepted channel) start events).take last ∧
        (p.flush = true ↔ last ∈ ends)) ∧
    ∀ d ∈ departed channel (start.run past) e, ∀ n ∈ ends,
      gone < n → n ≤ gone + d.batch.content.length → n = gone + d.batch.content.length := by
  intro start size events gone ends
  have sound : TxSound c start := opened_txSound valid monitor clock
  have fresh := (opened_unsent c monitor clock channel).1
  have reached : TxSound c (start.run past) := run_txSound valid monitor clock past
  constructor
  · intro front p back sent last
    obtain ⟨d, left, cut⟩ := reached.written_cut sent
    have stored := departed_stored reached e channel d (by simp [left])
    obtain ⟨pos, upTo, marked⟩ := stored.packetize_flush_iff cut
    obtain ⟨more, accepted⟩ := sound.accepted_eq fresh left later
    have content := stored.content_packetize channel c.txPacket
    rw [cut, List.append_cons, List.flatMap_append] at content
    constructor
    · have taken : (observe (World.accepted channel) start events).take last =
          (observe (departed channel) start past).flatMap (·.batch.content) ++
            (front ++ [p]).flatMap (TxPacket.content size) := by
        rw [accepted, ← content, ← List.append_assoc, List.append_assoc _ _ more]
        exact List.take_left' List.length_append
      rw [taken, List.flatMap_append, List.flatMap_singleton, ← List.append_assoc]
      exact List.suffix_append _ _
    · have behind : gone < last := Nat.lt_add_of_pos_right pos
      have inside : last ≤ gone + d.batch.content.length := Nat.add_le_add_left upTo gone
      rw [marked, sound.mem_burstEnds_batch fresh left later behind inside, Nat.add_left_cancel_iff]
  · intro d left n ended behind upTo
    rcases departed_single (start.run past) e channel with none | ⟨only, all, _⟩
    · simp [none] at left
    · obtain rfl := List.mem_singleton.mp (all ▸ left)
      exact ((sound.mem_burstEnds_batch fresh all later behind upTo).mp ended).2

/-- A flushed transmission, and an open one whose end is marked while it waits in the queue. -/
def markedBehind : List Event :=
  [.transmit 0 [(⟨1, -1⟩ : IntSample), ⟨2, -2⟩, ⟨3, -3⟩] TransferMeta.plain.flushed (.ok .zero)
      .poll,
    .transmit 0 [(⟨4, -4⟩ : IntSample), ⟨5, -5⟩] TransferMeta.plain (.ok .zero) .poll,
    .transmit 0 ([] : List IntSample) TransferMeta.plain.flushed (.ok .zero) .poll]

theorem flushes_exact_marked :
    let start := opened smallBatches none .zero
    let e := Event.pass (.ok .zero) false (.ok ())
    let first : TxPacket := ⟨0, none, false, [1, 0, 255, 255, 2, 0, 254, 255]⟩
    let second : TxPacket := ⟨0, none, true, [3, 0, 253, 255]⟩
    let ends := burstEnds 0 0 start (markedBehind ++ [e])
    smallBatches.validate 2 = .ok () ∧ ends = [3, 5] ∧
      (written (start.run markedBehind) e).filter (·.channel == 0) = [first, second] ∧
      (first.flush = true ↔ 2 ∈ ends) ∧ (second.flush = true ↔ 3 ∈ ends) := by
  intro start e first second ends
  have valid : smallBatches.validate 2 = .ok () := rfl
  have sent : (written (start.run markedBehind) e).filter (·.channel == 0) = [first, second] := by
    decide +kernel
  have two : ((observe (departed 0) start markedBehind).flatMap (·.batch.content)).length +
      (([] ++ [first]).flatMap (TxPacket.content smallBatches.linkFormat.sampleSize)).length = 2 := by
    decide +kernel
  have three : ((observe (departed 0) start markedBehind).flatMap (·.batch.content)).length +
      (([first] ++ [second]).flatMap (TxPacket.content smallBatches.linkFormat.sampleSize)).length =
        3 := by
    decide +kernel
  obtain ⟨marked, _⟩ := flushes_exact valid none .zero markedBehind e [] 0
  have before := (marked [] first [second] sent).2
  have last := (marked [first] second [] sent).2
  rw [two] at before
  rw [three] at last
  exact ⟨valid, by decide +kernel, sent, before, last⟩

end World
end RadioStream
