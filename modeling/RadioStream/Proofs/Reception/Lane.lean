import RadioStream.Proofs.Reception.Trimmed
import RadioStream.Proofs.Session.Frame

/-!
A receive lane under packets and calls. The samples that the lane has ever taken in are
in order of time, each from the first packet that carries one for its tick, and every
tick of a packet from the aligned start on is one that the lane has passed.
-/
namespace RadioStream

namespace RxLane
variable {size : Nat} {l : RxLane} {b : Block}

/-- What taking in an aligned block does to a lane. -/
structure Accepts (size : Nat) (l after : RxLane) (b : Block) : Prop where
  queue : after.queue.Sound size
  content_suffix : after.queue.content <:+ l.queue.content ++ (l.trim b).content
  expected_eq : after.expected =
    if (l.trim b).isEmpty then l.expected else some (l.trim b).finish
  loss_eq : after.traffic.loss.count =
    min (l.traffic.loss.count + l.missing b) 0xffffffff

/-- What a lane becomes by taking in a block. -/
theorem accept_eq (l : RxLane) (b : Block) : (l.accept b).1 =
    let counted := l.traffic.countLoss (l.missing b)
    if (l.trim b).isEmpty then { l with traffic := counted }
    else
      let (queue, dropped) := l.queue.pushNewest (l.trim b)
      { l with
        queue := queue
        traffic := (if 0 < dropped then counted.countOverrun else counted).transfer
          (l.trim b).payload.length 1
        expected := some (l.trim b).finish } := by
  have trimmed : ({ l with traffic := l.traffic.countLoss (l.missing b) } : RxLane).trim b =
      l.trim b := rfl
  rw [accept]
  dsimp only
  rw [trimmed]
  split <;> rfl

theorem accept_channel (l : RxLane) (b : Block) : (l.accept b).1.channel = l.channel := by
  rw [accept_eq]
  dsimp only
  split <;> rfl

theorem accept_spec (sound : l.queue.Sound size) (whole : (l.trim b).Whole size) :
    Accepts size l (l.accept b).1 b := by
  rw [accept_eq]
  dsimp only
  split
  · next none =>
    rw [← whole.content_eq_nil] at none
    exact ⟨sound, by simp only [none, List.append_nil, List.suffix_refl],
      by rw [if_pos (whole.content_eq_nil.mp none)], rfl⟩
  · next filled =>
    obtain ⟨pushed, content⟩ := sound.pushNewest whole
    refine ⟨pushed, ?_, by rw [if_neg filled], ?_⟩
    · dsimp only
      rw [content]
      exact List.drop_suffix _ _
    · dsimp only
      split <;> rfl

/-- What a call for a run does to a lane. -/
structure Takes (size : Nat) (l after : RxLane) (result : Except QueueFault Block) : Prop where
  popped : ChannelQueue.Popped size l.queue result after.queue
  expected_eq : after.expected = l.expected
  loss_eq : after.traffic.loss = l.traffic.loss

theorem take_channel (l : RxLane) (anchor : Option Tick) (limit : Nat) (wait : Wait)
    (tolerance : Nat) : (l.take anchor limit wait tolerance).2.channel = l.channel := rfl

theorem take_spec (sound : l.queue.Sound size) (anchor : Option Tick) (limit : Nat) (wait : Wait)
    (tolerance : Nat) :
    Takes size l (l.take anchor limit wait tolerance).2 (l.take anchor limit wait tolerance).1 := by
  unfold take
  dsimp only
  refine ⟨?_, rfl, ?_⟩
  · cases anchor with
    | none => exact sound.pop limit wait
    | some t => exact sound.popAt t limit wait tolerance
  · dsimp only
    split <;> rfl

end RxLane

/-- What a lane that expects `expected` next has taken in of the packets of its channel. -/
structure Heard (size : Nat) (aligned : Option Tick) (packets : List RxPacket)
    (heard : List Stamped) (expected : Option Tick) : Prop where
  ordered : heard.Pairwise Stamped.Before
  carried : ∀ x ∈ heard, ∃ t next, x.tick = some t ∧ expected = some next ∧ t < next ∧
    packets.findSome? (·.sampleAt? size t.toInt) = some x.bytes
  passed : ∀ p ∈ packets, ∀ time bytes, p.sampleAt? size time = some bytes →
    (∀ a ∈ aligned, a.toInt ≤ time) → ∃ next ∈ expected, time < next.toInt

namespace Heard
variable {size : Nat} {aligned expected : Option Tick} {packets : List RxPacket}
  {heard : List Stamped} {p : RxPacket} {b : Block}

theorem nothing (size : Nat) (aligned expected : Option Tick) :
    Heard size aligned [] [] expected :=
  ⟨.nil, List.forall_mem_nil _, List.forall_mem_nil _⟩

/-- A tick that the lane has not passed is in no packet that it has seen. -/
theorem unseen (h : Heard size aligned packets heard expected) (time : Int)
    (begun : ∀ a ∈ aligned, a.toInt ≤ time) (ahead : ∀ next ∈ expected, next.toInt ≤ time) :
    packets.findSome? (·.sampleAt? size time) = none := by
  rw [List.findSome?_eq_none_iff]
  intro p member
  cases carries : p.sampleAt? size time with
  | none => rfl
  | some bytes =>
    obtain ⟨next, given, passed⟩ := h.passed p member time bytes carries begun
    have := ahead next given
    omega

/-- A packet without fresh samples carries none for a tick that is still to come. -/
theorem stale (h : Heard size aligned packets heard expected)
    (fresh : RxPacket.Fresh size aligned expected p b) (none : b.length = 0) :
    Heard size aligned (packets ++ [p]) heard expected := by
  refine ⟨h.ordered, ?_, ?_⟩
  · intro x member
    obtain ⟨t, next, tick, reached, before, found⟩ := h.carried x member
    exact ⟨t, next, tick, reached, before, by rw [List.findSome?_append, found]; rfl⟩
  · intro p' member
    rcases List.mem_append.mp member with old | new
    · exact h.passed p' old
    · rw [List.mem_singleton.mp new]
      exact fresh.behind none

theorem extend (h : Heard size aligned packets heard expected)
    (fresh : RxPacket.Fresh size aligned expected p b) (filled : b.length ≠ 0) :
    Heard size aligned (packets ++ [p]) (heard ++ b.content) (some b.finish) := by
  have finish := fresh.dated.toInt_finish
  have onward : ∀ next ∈ expected, next.toInt < b.finish.toInt := by
    intro next given
    have := fresh.expected_le filled next given
    rw [Tick.le_def] at this
    omega
  refine ⟨?_, ?_, ?_⟩
  · refine List.pairwise_append.mpr ⟨h.ordered, fresh.dated.content_ordered, ?_⟩
    intro x old y new
    obtain ⟨s, next, tickOld, reached, before, _⟩ := h.carried x old
    obtain ⟨t, tickNew, begun, _⟩ := fresh.carried y new
    have after := fresh.expected_le filled next reached
    refine ⟨s, t, tickOld, tickNew, ?_⟩
    rw [Tick.lt_def, Tick.le_def] at *
    omega
  · intro x member
    rcases List.mem_append.mp member with old | new
    · obtain ⟨t, next, tick, reached, before, found⟩ := h.carried x old
      refine ⟨t, b.finish, tick, rfl, ?_, by rw [List.findSome?_append, found]; rfl⟩
      have := onward next reached
      rw [Tick.lt_def] at *
      omega
    · obtain ⟨t, tick, begun, inside, carried⟩ := fresh.carried x new
      -- No earlier packet carries this tick, so the new one is the first that does.
      have unseen : packets.findSome? (·.sampleAt? size t.toInt) = none := by
        apply h.unseen
        · intro a given
          exact Int.le_trans (fresh.aligned_le filled a given) begun
        · intro next given
          exact Int.le_trans (fresh.expected_le filled next given) begun
      refine ⟨t, b.finish, tick, rfl, inside, ?_⟩
      rw [List.findSome?_append, unseen, Option.none_or, List.findSome?_singleton, carried]
  · intro p' member time bytes carries begun
    refine ⟨b.finish, rfl, ?_⟩
    rcases List.mem_append.mp member with old | new
    · obtain ⟨next, given, passed⟩ := h.passed p' old time bytes carries begun
      have := onward next given
      omega
    · rw [List.mem_singleton.mp new] at carries
      exact fresh.span time bytes carries

/-- A packet puts what is fresh in it behind what the lane has heard. -/
theorem next (h : Heard size aligned packets heard expected)
    (fresh : RxPacket.Fresh size aligned expected p b) :
    Heard size aligned (packets ++ [p]) (heard ++ b.content)
      (if b.isEmpty then expected else some b.finish) := by
  have whole := fresh.dated.toWhole
  by_cases empty : b.isEmpty = true
  · rw [if_pos empty, whole.content_eq_nil.mpr empty, List.append_nil]
    exact h.stale fresh (whole.isEmpty_iff.mp empty)
  · rw [if_neg empty]
    exact h.extend fresh (mt whole.isEmpty_iff.mpr empty)

end Heard

namespace Session
variable {s t : Session} {channel : UInt8} {lane : RxLane}

theorem rxOn_of_core (same : t.rx.map RxLane.core = s.rx.map RxLane.core)
    (found : s.rxOn channel = some lane) :
    ∃ after, t.rxOn channel = some after ∧ after.core = lane.core := by
  have core := rxOn_core same channel
  rwa [found, Option.map_some, Option.map_eq_some_iff] at core

theorem accept_on (found : s.rxOn channel = some lane) (p : RxPacket) :
    ∃ after, (s.accept p).rxOn channel = some after ∧ after.core =
      (if p.channel = channel then (lane.accept (s.timeline.align (Block.received p.timestamp
        p.payload s.config.linkFormat.sampleSize))).1 else lane).core := by
  rcases s.accept_cases p with ⟨after, missing⟩ | ⟨there, timeline, on, _, _, kept⟩
  · have elsewhere : p.channel ≠ channel := by
      rintro rfl
      rw [found] at missing
      contradiction
    rw [after, if_neg elsewhere]
    exact ⟨lane, found, rfl⟩
  · apply rxOn_of_core kept.rx_eq
    have place := channel_of_rxOn on
    have stands : Session.rxOn { s with timeline := timeline } (there.accept (s.timeline.align
        (Block.received p.timestamp p.payload s.config.linkFormat.sampleSize))).1.channel =
        some there := by
      rw [RxLane.accept_channel, place]
      exact on
    rw [rxOn_putRx stands, RxLane.accept_channel, place]
    by_cases here : p.channel = channel
    · rw [here, found] at on
      obtain rfl := Option.some.inj on
      rw [if_pos here, if_pos here]
    · rw [if_neg here, if_neg here]
      exact found

/-- A call puts back the lane that it takes from. -/
theorem rxOn_putRx_take (found : s.rxOn channel = some lane) (anchor : Option Tick) (limit : Nat)
    (wait : Wait) (tolerance : Nat) (other : UInt8) :
    (s.putRx (lane.take anchor limit wait tolerance).2).rxOn other =
      if channel = other then some (lane.take anchor limit wait tolerance).2
      else s.rxOn other := by
  have place := channel_of_rxOn found
  have stands : s.rxOn (lane.take anchor limit wait tolerance).2.channel = some lane := by
    rw [RxLane.take_channel, place]
    exact found
  rw [rxOn_putRx stands, RxLane.take_channel, place]

theorem receive_elsewhere {α : Type} [HostSample α] {on : UInt8} (elsewhere : on ≠ channel)
    (s : Session) (buffer : List α) (info : TransferMeta) (wait : Wait) :
    (s.receive on buffer info wait).2.rxOn channel = s.rxOn channel := by
  rcases s.receive_cases on buffer info wait with ⟨after, _⟩ | ⟨there, found, after, _⟩ <;>
    rw [after]
  rw [rxOn_putRx_take found, if_neg elsewhere]

/-- What a receive call on its own channel does to the lane, and what it leaves its caller
with. -/
theorem receive_on {α : Type} [HostSample α] (found : s.rxOn channel = some lane)
    (buffer : List α) (info : TransferMeta) (wait : Wait) :
    let taken := lane.take info.anchor? buffer.length wait s.timeline.tolerance
    let result := s.receive channel buffer info wait
    (result.2.rxOn channel = some lane ∧ ∀ count, result.1.outcome ≠ .ok count) ∨
    (result.2.rxOn channel = some taken.2 ∧
      ((∃ run, taken.1 = .ok run ∧
          let filled := HostSample.fillFromLink s.config.hostFormat s.config.linkFormat
            run.payload buffer
          result.1 = ⟨.ok filled.1, filled.2, { info with timestamp := run.start }⟩) ∨
        (∃ fault, taken.1 = .error fault ∧ (result.1 = ⟨.ok 0, buffer, info⟩ ∨
          result.1 = ⟨.error fault.toFault, buffer, info⟩)))) := by
  dsimp only
  rcases s.receive_cases channel buffer info wait with ⟨after, failed⟩ | ⟨there, on, after, result⟩
  · rw [after]
    exact .inl ⟨found, failed⟩
  · rw [found] at on
    obtain rfl := Option.some.inj on
    refine .inr ⟨?_, result⟩
    rw [after, rxOn_putRx_take found, if_pos rfl]

/-- A receive call leaves the expectation and the loss counter of its lane alone. -/
theorem receive_keeps {α : Type} [HostSample α] (found : s.rxOn channel = some lane)
    {size : Nat} (sound : lane.queue.Sound size) (buffer : List α) (info : TransferMeta)
    (wait : Wait) : ∃ after, (s.receive channel buffer info wait).2.rxOn channel = some after ∧
      after.queue.Sound size ∧ after.expected = lane.expected ∧
      after.traffic.loss = lane.traffic.loss := by
  have takes := lane.take_spec sound info.anchor? buffer.length wait s.timeline.tolerance
  rcases s.receive_on found buffer info wait with ⟨on, _⟩ | ⟨on, _⟩
  · exact ⟨lane, on, sound, rfl, rfl⟩
  · exact ⟨_, on, takes.popped.sound, takes.expected_eq, takes.loss_eq⟩

end Session

theorem World.opened_rxOn (c : StreamConfig) (monitor : Option Monitor) (clock : Tick)
    (channel : UInt8) : (opened c monitor clock).session.rxOn channel =
      if channel ∈ c.rxChannels then some (.create channel c.capacity) else none := by
  have lanes : (opened c monitor clock).session.rx =
      c.rxChannels.map fun channel => .create channel c.capacity := rfl
  have place : (fun l : RxLane => l.channel == channel) ∘
      (fun channel => RxLane.create channel c.capacity) = (· == channel) := rfl
  rw [Session.rxOn, lanes, List.find?_map, place]
  split
  · next listed =>
    cases found : c.rxChannels.find? (· == channel) with
    | none =>
      have missing := List.find?_eq_none.mp found channel listed
      simp at missing
    | some on =>
      have same := List.find?_some found
      rw [Option.map_some, eq_of_beq same]
  · next absent =>
    rw [Option.map_eq_none_iff, List.find?_eq_none]
    intro on member same
    exact absent (eq_of_beq same ▸ member)

def Event.isFor (channel : UInt8) : Event → Bool
  | @Event.receive _ _ on _ _ _ => on == channel
  | .arrive p => p.channel == channel
  | _ => false

theorem World.step_elsewhere {w : World} {e : Event} {channel : UInt8} {lane : RxLane}
    (elsewhere : e.isFor channel = false) (found : w.session.rxOn channel = some lane) :
    ∃ after, (w.step e).session.rxOn channel = some after ∧ after.core = lane.core := by
  cases e with
  | transmit on samples info reading wait =>
    exact Session.rxOn_of_core
      (congrArg _ (w.session.transmit_rx on samples info reading wait)) found
  | resume place =>
    cases waiting : w.waiting[place]? with
    | none =>
      simp only [World.step, waiting]
      exact ⟨lane, found, rfl⟩
    | some call =>
      simp only [World.step, waiting]
      exact Session.rxOn_of_core (congrArg _ (w.session.resume_rx call)) found
  | @receive _ _ on buffer info wait =>
    have away : on ≠ channel := beq_eq_false_iff_ne.mp elsewhere
    exact ⟨lane, (w.session.receive_elsewhere away buffer info wait).trans found, rfl⟩
  | arrive p =>
    have away : p.channel ≠ channel := beq_eq_false_iff_ne.mp elsewhere
    have accepted := w.session.accept_on found p
    rwa [if_neg away] at accepted
  | pass reading draining answer =>
    exact Session.rxOn_of_core (w.session.pass_rx reading draining answer) found
  | halt reason => exact Session.rxOn_of_core (w.session.halt_kept reason).rx_eq found

/-- What a lane has to do with the steps of a stream, and keeps with every step, holds of it
behind all runs. -/
theorem World.lane_history {c : StreamConfig} {channel : UInt8} (listed : channel ∈ c.rxChannels)
    (monitor : Option Monitor) (clock : Tick) {P : List Event → RxLane → Prop}
    {Q : Event → Prop} (initial : P [] (.create channel c.capacity))
    (next : ∀ done e lane, Q e →
      ((opened c monitor clock).run done).session.config = c →
      ((opened c monitor clock).run done).session.timeline.alignedStart =
        (opened c monitor clock).session.timeline.alignedStart →
      ((opened c monitor clock).run done).session.rxOn channel = some lane → P done lane →
      ∃ after, (((opened c monitor clock).run done).step e).session.rxOn channel = some after ∧
        P (done ++ [e]) after)
    {events : List Event} (fine : ∀ e ∈ events, Q e) :
    ∃ lane, ((opened c monitor clock).run events).session.rxOn channel = some lane ∧
      P events lane := by
  refine (run_history (w := opened c monitor clock) (Q := Q)
    (P := fun done w => (opened c monitor clock).session.Continues w.session ∧
      ∃ lane, w.session.rxOn channel = some lane ∧ P done lane) ?_ ?_ fine).2
  · have found := opened_rxOn c monitor clock channel
    rw [if_pos listed] at found
    exact ⟨.refl _, _, found, initial⟩
  · intro done e fine ⟨goesOn, lane, on, kept⟩
    exact ⟨goesOn.trans (step_continues _ e),
      next done e lane fine goesOn.config_eq goesOn.alignedStart_eq on kept⟩

end RadioStream
