import RadioStream.Proofs.Session.Accounts

/-!
What still happens behind a halt. The receive worker looks for a halt before each of its reads,
and a read may wait for a packet, so a halt can come between the two: the worker then takes one
packet more and no other. The transmit worker goes on. What was not sent leaves in batches that
are written or dropped as late, in passes that are part of the run as any other, and each pass of
a worker that knows of the halt lets some go.
-/
namespace RadioStream

namespace Session
variable {s t u : Session} {channel : UInt8}

theorem Moved.trans {m n : Nat} {first second : List Stamped} {left gone : List Departure}
    (before : s.Moved t channel first m left) (behind : t.Moved u channel second n gone) :
    s.Moved u channel (first ++ second) (m + n) (left ++ gone) := by
  constructor
  · rw [← List.append_assoc, before.content_eq, List.append_assoc, behind.content_eq,
      List.flatMap_append, List.append_assoc]
  · rw [behind.late_eq, before.late_eq, List.countP_append]
    omega

/-- Where nothing enters, what is unsent grows on no channel. -/
theorem unsentCount_le_of_moved (channels : t.tx.map (·.channel) = s.tx.map (·.channel))
    (leaving : ∀ channel, ∃ n left, s.Moved t channel [] n left) :
    t.unsentCount ≤ s.unsentCount := by
  rw [unsentCount, unsentCount, channels]
  refine length_flatMap_le fun channel _ => ?_
  obtain ⟨n, left, moved⟩ := leaving channel
  have balance := congrArg List.length moved.content_eq
  rw [List.append_nil, List.length_append] at balance
  omega

end Session

theorem World.flatten_submitted (w : World) (e : Event) :
    (w.submitted e).flatten = w.written e := by
  unfold submitted written
  cases e with
  | pass reading draining answer =>
    cases answer with
    | error reason => rfl
    | ok _ =>
      dsimp only
      split
      · next none => rw [List.isEmpty_iff.mp none]; rfl
      · exact List.flatten_singleton
  | _ => rfl

/-- A packet is one block at most. -/
theorem World.length_admitted_le (channel : UInt8) (w : World) (e : Event) :
    (w.admitted channel e).length ≤ 1 := by
  unfold admitted
  split
  · split
    · cases w.session.rxOn channel with
      | none => exact Nat.zero_le _
      | some lane => exact List.length_filter_le ..
    · exact Nat.zero_le _
  · exact Nat.zero_le _

namespace Link

theorem incoming_echo (size : Nat) (l : Link) (packets : List TxPacket) :
    l.incoming <+: (packets.foldl (echo size) l).incoming := by
  induction packets generalizing l with
  | nil => exact List.prefix_rfl
  | cons p rest ih => exact (List.prefix_append ..).trans (ih (l.echo size p))

theorem incoming_write {l after : Link} {packets : List TxPacket}
    (written : l.write packets = .ok after) : l.incoming <+: after.incoming := by
  unfold write at written
  dsimp only at written
  split at written
  · contradiction
  · split at written
    · obtain rfl := Except.ok.inj written
      exact incoming_echo _ { l with submissions := l.submissions ++ [packets] } packets
    · obtain rfl := Except.ok.inj written
      exact List.prefix_rfl

theorem incoming_read {l after : Link} {packet : RxPacket}
    (found : l.read = .ok (some (packet, after))) : after.incoming = l.incoming.drop 1 := by
  unfold read at found
  split at found
  · contradiction
  · split at found
    · simp at found
    · next waiting =>
      obtain ⟨_, rfl⟩ := Prod.mk.inj (Option.some.inj (Except.ok.inj found))
      rw [waiting]
      rfl

end Link

namespace LinkedEvent

/-- A read of the link by the receive worker. -/
def isRead : LinkedEvent → Bool
  | read => true
  | _ => false

/-- A pass of a transmit worker that knows of a halt. -/
def isDrain : LinkedEvent → Bool
  | send draining => draining
  | _ => false

end LinkedEvent

namespace LinkedSession
variable {c : StreamConfig} {x : LinkedSession} {channel : UInt8} {reading after : Bool}
  {e : LinkedEvent} {events done rest : List LinkedEvent}

/-- Runs in which the receive worker keeps to its loop, from one place in it to another: at its
look for a halt, or in a read that it has begun. Everyone else moves as they like. -/
inductive Looped : Bool → LinkedSession → List LinkedEvent → Bool → Prop
  | nil (reading : Bool) (x : LinkedSession) : Looped reading x [] reading
  | look {x : LinkedSession} {rest : List LinkedEvent} {after : Bool}
    (running : x.stream.session.halted = false) (later : Looped true x rest after) :
    Looped false x rest after
  | read {x : LinkedSession} {rest : List LinkedEvent} {after : Bool}
    (later : Looped false (x.step .read) rest after) : Looped true x (.read :: rest) after
  | other {reading : Bool} {x : LinkedSession} {e : LinkedEvent} {rest : List LinkedEvent}
    {after : Bool} (elsewhere : e.isRead = false) (later : Looped reading (x.step e) rest after) :
    Looped reading x (e :: rest) after

namespace Looped

theorem split (looped : Looped reading x (done ++ rest) after) :
    ∃ between, Looped reading x done between ∧ Looped between (x.run done) rest after := by
  generalize parts : done ++ rest = events at looped
  induction looped generalizing done with
  | nil reading x =>
    obtain ⟨rfl, rfl⟩ := List.append_eq_nil_iff.mp parts
    exact ⟨reading, .nil reading x, .nil reading x⟩
  | look running _ ih =>
    obtain ⟨between, first, second⟩ := ih parts
    exact ⟨between, .look running first, second⟩
  | read later ih =>
    cases done with
    | nil =>
      obtain rfl : rest = _ := parts
      exact ⟨true, .nil true _, .read later⟩
    | cons e done =>
      rw [List.cons_append, List.cons.injEq] at parts
      obtain ⟨rfl, parts⟩ := parts
      obtain ⟨between, first, second⟩ := ih parts
      exact ⟨between, .read first, second⟩
  | @other reading x e _ _ elsewhere later ih =>
    cases done with
    | nil =>
      obtain rfl : rest = _ := parts
      exact ⟨reading, .nil reading x, .other elsewhere later⟩
    | cons e done =>
      rw [List.cons_append, List.cons.injEq] at parts
      obtain ⟨rfl, parts⟩ := parts
      obtain ⟨between, first, second⟩ := ih parts
      exact ⟨between, .other elsewhere first, second⟩

/-- From a halt on no read begins, so there is at most the one that had begun. -/
theorem reads_le (looped : Looped reading x events after) (reached : x.world.Reached c)
    (halted : x.stream.session.halted = true) :
    events.countP LinkedEvent.isRead ≤ reading.toNat := by
  induction looped with
  | nil => exact Nat.zero_le _
  | look running => exact absurd halted (Bool.eq_false_iff.mp running)
  | read _ ih =>
    obtain ⟨next, still⟩ := step_reached reached .read
    have others := ih next (still halted).1
    rw [List.countP_cons_of_pos rfl]
    exact Nat.succ_le_succ others
  | other elsewhere _ ih =>
    obtain ⟨next, still⟩ := step_reached reached _
    rw [List.countP_cons_of_neg (Bool.eq_false_iff.mp elsewhere)]
    exact ih next (still halted).1

end Looped

theorem send_incoming (x : LinkedSession) (draining : Bool) :
    x.stream.link.incoming <+: (x.step (.send draining)).stream.link.incoming := by
  change _ <+: (x.stream.pass draining).1.link.incoming
  rw [LiveStream.pass]
  split
  · exact List.prefix_rfl
  · split
    · next written => exact Link.incoming_write written
    · exact List.prefix_rfl

/-- Of the packets that wait in the link a read takes the first, or none. -/
theorem read_incoming (x : LinkedSession) :
    ∃ n ≤ 1, x.stream.link.incoming.drop n <+: (x.step .read).stream.link.incoming := by
  change ∃ n ≤ 1, _ <+: x.stream.readOnce.link.incoming
  cases arrival : x.stream.link.read with
  | error reason =>
    refine ⟨0, Nat.zero_le _, ?_⟩
    rw [LiveStream.readOnce, arrival]
    exact List.prefix_rfl
  | ok arrived =>
    cases arrived with
    | none =>
      refine ⟨0, Nat.zero_le _, ?_⟩
      rw [LiveStream.readOnce, arrival]
      exact List.prefix_rfl
    | some arrived =>
      have after : x.stream.readOnce.link.incoming = arrived.2.incoming := by
        rw [LiveStream.readOnce, arrival]
      exact ⟨1, Nat.le_refl _, after.trans (Link.incoming_read arrival) ▸ List.prefix_rfl⟩

/-- A step that is no read takes no packet from the link. -/
theorem other_incoming (x : LinkedSession) (elsewhere : e.isRead = false) :
    x.stream.link.incoming <+: (x.step e).stream.link.incoming := by
  cases e with
  | read => contradiction
  | start =>
    change _ <+: x.stream.start.link.incoming
    exact x.start_link.2 ▸ List.prefix_rfl
  | send draining => exact x.send_incoming draining
  | link e =>
    cases e with
    | inject packets => exact List.prefix_append ..
    | _ => exact List.prefix_rfl
  | _ => exact List.prefix_rfl

theorem step_incoming (x : LinkedSession) (e : LinkedEvent) :
    ∃ n ≤ [e].countP LinkedEvent.isRead,
      x.stream.link.incoming.drop n <+: (x.step e).stream.link.incoming := by
  cases kind : e.isRead with
  | false => exact ⟨0, Nat.zero_le _, x.other_incoming kind⟩
  | true =>
    cases e with
    | read => exact x.read_incoming
    | _ => contradiction

/-- Of the packets that wait in the link, a run takes no more than it has reads. -/
theorem run_incoming (x : LinkedSession) (events : List LinkedEvent) :
    ∃ n ≤ events.countP LinkedEvent.isRead,
      x.stream.link.incoming.drop n <+: (x.run events).stream.link.incoming := by
  induction events generalizing x with
  | nil => exact ⟨0, Nat.le_refl _, List.prefix_rfl⟩
  | cons e rest ih =>
    obtain ⟨m, one, more, now⟩ := x.step_incoming e
    obtain ⟨n, bound, later⟩ := ih (x.step e)
    refine ⟨m + n, ?_, ?_⟩
    · rw [List.countP_cons, ← List.countP_singleton]
      omega
    · refine .trans ?_ later
      rw [← now, List.drop_append, List.drop_drop]
      exact List.prefix_append ..

/-- A read brings a block to a lane, or none, and nothing else does. -/
theorem step_accepted_le (x : LinkedSession) (e : LinkedEvent) (channel : UInt8) :
    (x.accepted channel e).length ≤ [e].countP LinkedEvent.isRead := by
  cases e with
  | read =>
    rw [accepted, event?]
    cases x.stream.link.read with
    | error reason => exact Nat.zero_le _
    | ok arrived =>
      cases arrived with
      | none => exact Nat.zero_le _
      | some arrived => exact World.length_admitted_le channel x.world (.arrive arrived.1)
  | _ => exact Nat.le_refl _

theorem run_accepted_le (x : LinkedSession) (events : List LinkedEvent) (channel : UInt8) :
    (observe (accepted channel) x events).length ≤ events.countP LinkedEvent.isRead := by
  induction events generalizing x with
  | nil => exact Nat.le_refl _
  | cons e rest ih =>
    have later := ih (x.step e)
    have now := x.step_accepted_le e channel
    rw [observe, List.length_append, ← List.singleton_append, List.countP_append]
    exact Nat.add_le_add now later

/-- The batches of a channel that leave the hand of the transmit worker. -/
def departed (channel : UInt8) (x : LinkedSession) (e : LinkedEvent) : List Departure :=
  (x.event? e).elim [] (x.world.departed channel)

/-- The transmissions on a channel that are refused as late. -/
def refused (channel : UInt8) (x : LinkedSession) (e : LinkedEvent) : List Fault :=
  (x.event? e).elim [] (x.world.refused channel)

theorem step_moved (reached : x.world.Reached c) (halted : x.stream.session.halted = true)
    (e : LinkedEvent) (channel : UInt8) :
    x.stream.session.Moved (x.step e).stream.session channel [] (x.refused channel e).length
      (x.departed channel e) := by
  by_cases running : e = .start
  · subst running
    obtain ⟨timeline, _, kept⟩ := x.start_kept
    have same := Session.moved_of_core kept.tx_eq channel
    exact ⟨same.content_eq, same.late_eq⟩
  · rw [step_session running, refused, departed]
    cases x.event? e with
    | none => exact Session.moved_nothing rfl rfl
    | some event =>
      have moved := (reached.sound.step event).2 channel
      rwa [World.accepted_halted reached.closed halted] at moved

/-- Behind a halt nothing enters, and what leaves a channel was there at the halt. -/
theorem run_moved (reached : x.world.Reached c) (halted : x.stream.session.halted = true)
    (events : List LinkedEvent) (channel : UInt8) :
    x.stream.session.Moved (x.run events).stream.session channel []
      (observe (refused channel) x events).length (observe (departed channel) x events) := by
  induction events generalizing x with
  | nil => exact Session.moved_nothing rfl rfl
  | cons e rest ih =>
    obtain ⟨next, still⟩ := step_reached reached e
    have later := ih next (still halted).1
    rw [observe, observe, List.length_append]
    exact (step_moved reached halted e channel).trans later

theorem departed_faithful (reached : x.world.Reached c) (e : LinkedEvent) (channel : UInt8) :
    ∀ d ∈ x.departed channel e,
      d.Faithful c.linkFormat.sampleSize c.tuning.lateTolerance.toNat channel := by
  rw [departed]
  cases x.event? e with
  | none => exact List.forall_mem_nil _
  | some event => exact World.departed_faithful reached.sound event channel

/-- On a working link the packets of a channel that a step writes are those of the batches that
leave in it. -/
theorem submitted_departed (reached : x.world.Reached c) (working : x.stream.link.failure = none)
    (e : LinkedEvent) (channel : UInt8) :
    (x.submitted e).flatten.filter (·.channel == channel) =
      (x.departed channel e).flatMap Departure.sent := by
  rw [submitted, departed]
  cases e with
  | send draining =>
    have fine : (x.stream.passEvent draining).Unfailing :=
      (LiveStream.pass_working working draining).1
    have written := World.written_departed reached.sound fine channel
    rw [event?, Option.elim_some, Option.elim_some, ← written, World.flatten_submitted]
  | read =>
    rw [event?]
    cases x.stream.link.read with
    | error reason => rfl
    | ok arrived => cases arrived <;> rfl
  | _ => rfl

/-- On a link that works to the end, the packets of a channel that a run writes behind a halt are
those of the batches that left. -/
theorem run_submitted (reached : x.world.Reached c) (events : List LinkedEvent)
    (working : (x.run events).stream.link.failure = none) (channel : UInt8) :
    (observe submitted x events).flatten.filter (·.channel == channel) =
      (observe (departed channel) x events).flatMap Departure.sent := by
  induction events generalizing x with
  | nil => rfl
  | cons e rest ih =>
    have later := ih (step_reached reached e).1 working
    have now := submitted_departed reached (working_of_run (e :: rest) working) e channel
    rw [observe, observe, List.flatten_append, List.filter_append, List.flatMap_append, now, later]

theorem unsentCount_step (reached : x.world.Reached c) (halted : x.stream.session.halted = true)
    (e : LinkedEvent) : (x.step e).stream.session.unsentCount ≤
      x.stream.session.unsentCount - [e].countP LinkedEvent.isDrain := by
  have sound := reached.sound.session
  have channels := (step_reached reached e).1.txChannels_eq.trans reached.txChannels_eq.symm
  have fewer : (x.step e).stream.session.unsentCount ≤ x.stream.session.unsentCount :=
    Session.unsentCount_le_of_moved channels fun channel =>
      ⟨_, _, step_moved reached halted e channel⟩
  cases drains : e.isDrain with
  | false =>
    rw [List.countP_cons_of_neg (Bool.eq_false_iff.mp drains)]
    exact fewer
  | true =>
    rw [List.countP_cons_of_pos drains]
    cases left : x.stream.session.isClear with
    | true =>
      have none : x.stream.session.unsentCount = 0 := sound.unsentCount_eq_zero left
      omega
    | false =>
      cases e with
      | send draining =>
        obtain rfl : draining = true := drains
        have shrinks := sound.pass_shrinks left x.stream.link.hardwareTime (x.stream.answer true)
        have session := x.stream.pass_session true
        change (x.stream.pass true).1.session.unsentCount ≤ _
        rw [session]
        exact Nat.le_sub_one_of_lt shrinks
      | _ => contradiction

theorem unsentCount_run (reached : x.world.Reached c) (halted : x.stream.session.halted = true)
    (events : List LinkedEvent) : (x.run events).stream.session.unsentCount ≤
      x.stream.session.unsentCount - events.countP LinkedEvent.isDrain := by
  induction events generalizing x with
  | nil => exact Nat.le_refl _
  | cons e rest ih =>
    obtain ⟨next, still⟩ := step_reached reached e
    have now := unsentCount_step reached halted e
    have later := ih next (still halted).1
    change ((x.step e).run rest).stream.session.unsentCount ≤ _
    rw [List.countP_cons, ← List.countP_singleton]
    omega

/-- A transmit worker that knows of the halt is through after as many passes as samples are left. -/
theorem run_clear (reached : x.world.Reached c) (halted : x.stream.session.halted = true)
    {events : List LinkedEvent}
    (passes : x.stream.session.unsentCount ≤ events.countP LinkedEvent.isDrain) :
    (x.run events).stream.session.isClear = true := by
  have left := unsentCount_run reached halted events
  refine Bool.of_not_eq_false fun unclear => ?_
  have more : 0 < (x.run events).stream.session.unsentCount :=
    (run_reached reached events).1.sound.session.unsentCount_pos unclear
  omega

/-- What the receive worker still does behind a halt, which finds it at its look or in a read: it
takes one packet from the link if it was in a read, and none otherwise. -/
structure EndsReading (reading : Bool) (x : LinkedSession) (rest : List LinkedEvent) : Prop where
  reads_le : rest.countP LinkedEvent.isRead ≤ reading.toNat
  incoming : ∃ n ≤ reading.toNat,
    x.stream.link.incoming.drop n <+: (x.run rest).stream.link.incoming
  accepted_le : ∀ channel, (observe (accepted channel) x rest).length ≤ reading.toNat

theorem Looped.endsReading (looped : Looped reading x rest after) (reached : x.world.Reached c)
    (halted : x.stream.session.halted = true) : EndsReading reading x rest := by
  have reads := looped.reads_le reached halted
  obtain ⟨n, taken, left⟩ := x.run_incoming rest
  exact ⟨reads, ⟨n, Nat.le_trans taken reads, left⟩,
    fun channel => Nat.le_trans (x.run_accepted_le rest channel) reads⟩

/-- What leaves behind a halt. Of a channel it is what was unsent at the halt, from the front; each
batch is written or, if it is late, dropped and counted; and nothing stays once the transmit worker
has made as many passes as there were samples. -/
structure Drains (c : StreamConfig) (x : LinkedSession) (rest : List LinkedEvent) : Prop where
  moved : ∀ channel, x.stream.session.Moved (x.run rest).stream.session channel []
    (observe (refused channel) x rest).length (observe (departed channel) x rest)
  faithful : ∀ channel, ∀ d ∈ observe (departed channel) x rest,
    d.Faithful c.linkFormat.sampleSize c.tuning.lateTolerance.toNat channel
  written : (x.run rest).stream.link.failure = none → ∀ channel,
    (observe submitted x rest).flatten.filter (·.channel == channel) =
      (observe (departed channel) x rest).flatMap Departure.sent
  clear : x.stream.session.unsentCount ≤ rest.countP LinkedEvent.isDrain →
    (x.run rest).stream.session.isClear = true

theorem drains (reached : x.world.Reached c) (halted : x.stream.session.halted = true)
    (rest : List LinkedEvent) : x.Drains c rest where
  moved := run_moved reached halted rest
  faithful channel := mem_observe (P := fun y => y.world.Reached c)
    (fun _ e reached => (step_reached reached e).1)
    (fun _ e reached => departed_faithful reached e channel) reached rest
  written working := run_submitted reached rest working
  clear := run_clear reached halted

end LinkedSession
end RadioStream
