import RadioStream.Proofs.Session.Ending

/-!
The loops of the two workers as turns of a run, one whole turn at a time: the receive worker finds
no halt and reads at once. So from a halt on it makes no turn, while the worker that sends makes
those it needs, and these are in the books as all others. Where others may come between its look
and its read, the receive worker may have one read to end.
-/
namespace RadioStream

namespace LinkedSession
variable {x : LinkedSession} {done rest events : List LinkedEvent}

/-- Turns of the two workers. The receive worker makes one only if it finds no halt before it. -/
inductive Turns : LinkedSession → List LinkedEvent → Prop
  | nil (x : LinkedSession) : Turns x []
  | read {x : LinkedSession} {rest : List LinkedEvent} (running : x.stream.session.halted = false)
    (later : Turns (x.step .read) rest) : Turns x (.read :: rest)
  | send {x : LinkedSession} {rest : List LinkedEvent} (draining : Bool)
    (later : Turns (x.step (.send draining)) rest) : Turns x (.send draining :: rest)

namespace Turns

theorem append (first : Turns x done) (later : Turns (x.run done) rest) :
    Turns x (done ++ rest) := by
  induction first with
  | nil x => exact later
  | read running _ ih => exact .read running (ih later)
  | send draining _ ih => exact .send draining (ih later)

theorem behind (turns : Turns x (done ++ rest)) : Turns (x.run done) rest := by
  induction done generalizing x with
  | nil => exact turns
  | cons e done ih =>
    cases turns with
    | read _ later => exact ih later
    | send _ later => exact ih later

/-- Whole turns are a run in which the receive worker keeps to its loop. -/
theorem looped (turns : Turns x events) : Looped false x events false := by
  induction turns with
  | nil x => exact .nil false x
  | read running _ ih => exact .look running (.read ih)
  | send draining _ ih => exact .other rfl ih

/-- From a halt on the only turns are passes. -/
theorem sends_of_halted (turns : Turns x events) (halted : x.stream.session.halted = true) :
    ∀ e ∈ events, ∃ draining, e = .send draining := by
  induction turns with
  | nil x => exact List.forall_mem_nil _
  | read running _ => exact absurd halted (Bool.eq_false_iff.mp running)
  | @send x rest draining _ ih =>
    have still := (LiveStream.Step.pass x.stream draining).staysHalted halted
    exact List.forall_mem_cons.mpr ⟨⟨draining, rfl⟩, ih still.1⟩

end Turns

/-- Some turns of the workers lead from a state to a stream. -/
def Turned (x : LinkedSession) (s : LiveStream) : Prop :=
  ∃ events, Turns x events ∧ (x.run events).stream = s

theorem Turned.refl (x : LinkedSession) : x.Turned x.stream := ⟨[], .nil x, rfl⟩

theorem Turned.read {s : LiveStream} (running : x.stream.session.halted = false)
    (later : (x.step .read).Turned s) : x.Turned s := by
  obtain ⟨events, turns, reached⟩ := later
  exact ⟨.read :: events, .read running turns, reached⟩

theorem Turned.send {s : LiveStream} (draining : Bool)
    (later : (x.step (.send draining)).Turned s) : x.Turned s := by
  obtain ⟨events, turns, reached⟩ := later
  exact ⟨.send draining :: events, .send draining turns, reached⟩

/-- What turns make of the stream that turns have led to. -/
theorem Turned.trans {s t : LiveStream} (first : x.Turned s)
    (later : ∀ y : LinkedSession, y.stream = s → y.Turned t) : x.Turned t := by
  obtain ⟨done, turns, rfl⟩ := first
  obtain ⟨rest, others, reached⟩ := later (x.run done) rfl
  exact ⟨done ++ rest, turns.append others, by rw [run_append, reached]⟩

theorem turned_processPackets (steps : Nat) (x : LinkedSession) :
    x.Turned (x.stream.processPackets steps) := by
  induction steps generalizing x with
  | zero => exact .refl x
  | succ steps ih =>
    rw [LiveStream.processPackets]
    split
    · exact .refl x
    · next running =>
      rw [Bool.not_eq_true] at running
      have taken := ih (x.step .read)
      cases arrival : x.stream.link.read with
      | error reason =>
        have after : (x.step .read).stream =
            { x.stream with session := x.stream.session.halt (some reason) } := by
          simp [step, LiveStream.readOnce, arrival]
        dsimp only
        rw [← after]
        exact .read running (.refl (x.step .read))
      | ok arrived =>
        cases arrived with
        | none => exact .refl x
        | some arrived =>
          have after : (x.step .read).stream =
              { session := x.stream.session.accept arrived.1, link := arrived.2 } := by
            simp [step, LiveStream.readOnce, arrival]
          dsimp only
          rw [← after]
          exact .read running taken

theorem turned_receiveAll (x : LinkedSession) : x.Turned x.stream.receiveAll := by
  rw [LiveStream.receiveAll]
  split
  · exact .refl x
  · exact turned_processPackets _ x

theorem turned_sendReady (wrote : Bool) (steps : Nat) (x : LinkedSession) :
    x.Turned (x.stream.sendReady wrote steps).1 := by
  induction steps generalizing x wrote with
  | zero => exact .refl x
  | succ steps ih =>
    have one : (x.step (.send false)).Turned (x.stream.pass false).1 := .refl (x.step (.send false))
    have more (wrote : Bool) : (x.step (.send false)).Turned _ := ih wrote (x.step (.send false))
    change ∀ wrote, (x.step (.send false)).Turned
      ((x.stream.pass false).1.sendReady wrote steps).1 at more
    rw [LiveStream.sendReady]
    refine .send false ?_
    generalize x.step (.send false) = y at one more ⊢
    generalize x.stream.pass false = passed at one more ⊢
    rcases passed with ⟨next, outcome⟩
    cases outcome with
    | refused => exact one
    | noWrite | written =>
      dsimp only
      split
      · exact one
      · split
        · exact more _
        · exact one

theorem turned_rounds (steps : Nat) (x : LinkedSession) : x.Turned (x.stream.rounds steps).1 := by
  induction steps generalizing x with
  | zero => exact .refl x
  | succ steps ih =>
    have received := turned_receiveAll x
    rw [LiveStream.rounds]
    split
    · exact received
    · refine received.trans fun y after => ?_
      have sent := turned_sendReady false y.stream.passBound y
      rw [after] at sent
      dsimp only
      split
      · exact sent
      · refine sent.trans fun z after => ?_
        rw [← after]
        exact ih z

theorem turned_drain (steps : Nat) (x : LinkedSession) : x.Turned (x.stream.drain steps) := by
  induction steps generalizing x with
  | zero => exact .refl x
  | succ steps ih =>
    have more := ih (x.step (.send true))
    rw [LiveStream.drain_succ]
    refine .send true ?_
    split
    · exact .refl (x.step (.send true))
    · exact more

/-- A stream winds down by turns, and then the link is disarmed. -/
theorem turned_windDown (x : LinkedSession) (standing : TxStanding) : ∃ s, x.Turned s ∧
    x.stream.windDown standing = { s with link := s.link.disarm.2 } := by
  unfold LiveStream.windDown
  refine ⟨_, ?_, rfl⟩
  split
  · exact .refl x
  · cases standing with
    | gone => exact .refl x
    | betweenPasses => exact turned_drain _ x
    | waiting =>
      have one := Turned.refl (x.step (.send false))
      have more := turned_drain ((x.stream.pass false).1.session.outstanding + 1)
        (x.step (.send false))
      refine .send false ?_
      change (x.step (.send false)).Turned (x.stream.pass false).1 at one
      change (x.step (.send false)).Turned ((x.stream.pass false).1.drain _) at more
      generalize x.step (.send false) = y at one more ⊢
      generalize x.stream.pass false = passed at one more ⊢
      rcases passed with ⟨next, outcome⟩
      cases outcome with
      | refused => exact one
      | noWrite | written => exact more

end LinkedSession

namespace LiveStream
variable {s : LiveStream}

/-- What the workers make of a stream between calls, to its end if it halts. -/
def settle (s : LiveStream) : LiveStream :=
  if s.work.1.session.halted then s.work.1.windDown s.work.2 else s.work.1

/-- On a working link the transmit worker does not go. -/
theorem sendReady_alive (wrote : Bool) (steps : Nat) (working : s.link.failure = none) :
    (s.sendReady wrote steps).2.1 ≠ .gone := by
  induction steps generalizing s wrote with
  | zero => exact TxStanding.noConfusion
  | succ steps ih =>
    obtain ⟨_, accepted, still⟩ := pass_working working false
    rw [sendReady]
    generalize s.pass false = passed at accepted still ⊢
    rcases passed with ⟨next, outcome⟩
    cases outcome with
    | refused => contradiction
    | noWrite | written =>
      dsimp only
      split
      · exact TxStanding.noConfusion
      · split
        · exact ih _ still
        · exact TxStanding.noConfusion

theorem Works.working {t : LiveStream} (works : Works s t) (working : s.link.failure = none) :
    t.link.failure = none := by
  have same := congrArg Link.failure works.wiring_eq
  exact same.trans working

theorem rounds_alive (steps : Nat) (working : s.link.failure = none) :
    (s.rounds steps).2 ≠ .gone := by
  induction steps generalizing s with
  | zero => exact TxStanding.noConfusion
  | succ steps ih =>
    have received := (Works.receiveAll s).working working
    have alive := sendReady_alive false s.receiveAll.passBound received
    have sent := (Works.sendReady false s.receiveAll.passBound s.receiveAll).working received
    rw [rounds]
    split
    · exact TxStanding.noConfusion
    · dsimp only
      split
      · exact alive
      · exact ih sent

end LiveStream

/-- The workers of a module settle its stream. -/
theorem RfModule.settle_stream {m : RfModule} {s : Session} (running : m.stage = .running s) :
    m.settle.stage.session? = some (LiveStream.settle ⟨s, m.link⟩).session ∧
      m.settle.link = (LiveStream.settle ⟨s, m.link⟩).link := by
  rw [settle, running, LiveStream.settle]
  dsimp only
  split <;> exact ⟨rfl, rfl⟩

namespace LinkedSession
variable {x : LinkedSession} {events : List LinkedEvent}

theorem turned_settle (x : LinkedSession) : ∃ s, x.Turned s ∧
    x.stream.settle.session = s.session ∧
    x.stream.settle.link.disarm.2 = s.link.disarm.2 := by
  have worked := turned_rounds (x.stream.session.outstanding + 1) x
  change x.Turned x.stream.work.1 at worked
  rw [LiveStream.settle]
  split
  · obtain ⟨done, turns, reached⟩ := worked
    obtain ⟨s, ⟨rest, others, left⟩, after⟩ := turned_windDown (x.run done) x.stream.work.2
    rw [reached] at after
    refine ⟨s, ⟨done ++ rest, turns.append others, ?_⟩, by rw [after], by rw [after]; rfl⟩
    rw [run_append, left]
  · exact ⟨_, worked, rfl, rfl⟩

theorem send_keeps (x : LinkedSession) (draining : Bool) :
    x.stream.link.incoming <+: (x.step (.send draining)).stream.link.incoming ∧
      (x.step (.send draining)).stream.session.rx.map RxLane.core =
        x.stream.session.rx.map RxLane.core := by
  refine ⟨x.send_incoming draining, ?_⟩
  change (x.stream.pass draining).1.session.rx.map RxLane.core = _
  rw [LiveStream.pass_session]
  exact x.stream.session.pass_rx _ _ _

/-- Passes alone take no packet from the link and none into a receive lane. -/
theorem sends_keep (sends : ∀ e ∈ events, ∃ draining, e = .send draining) :
    x.stream.link.incoming <+: (x.run events).stream.link.incoming ∧
      (x.run events).stream.session.rx.map RxLane.core =
        x.stream.session.rx.map RxLane.core := by
  induction events generalizing x with
  | nil => exact ⟨List.prefix_rfl, rfl⟩
  | cons e rest ih =>
    obtain ⟨⟨draining, rfl⟩, others⟩ := List.forall_mem_cons.mp sends
    obtain ⟨before, same⟩ := x.send_keeps draining
    obtain ⟨later, still⟩ := ih (x := x.step (.send draining)) others
    exact ⟨before.trans later, still.trans same⟩

/-- The turns behind a halt take no packet from the link and none into a receive lane. -/
theorem Turns.behind_halt {done rest : List LinkedEvent} (turns : Turns x (done ++ rest))
    (halted : (x.run done).stream.session.halted = true) :
    (∀ e ∈ rest, ∃ draining, e = .send draining) ∧
      (x.run done).stream.link.incoming <+: (x.run (done ++ rest)).stream.link.incoming ∧
      (x.run (done ++ rest)).stream.session.rx.map RxLane.core =
        (x.run done).stream.session.rx.map RxLane.core := by
  have sends := turns.behind.sends_of_halted halted
  obtain ⟨queued, lanes⟩ := sends_keep sends
  rw [← run_append] at queued lanes
  exact ⟨sends, queued, lanes⟩

/-- A stream that halts while its link works leaves nothing unsent. -/
theorem settle_clear {c : StreamConfig} (reached : x.world.Reached c)
    (halted : x.stream.settle.session.halted = true) (working : x.stream.link.failure = none) :
    x.stream.settle.session.isClear = true := by
  obtain ⟨done, _, worked⟩ := turned_rounds (x.stream.session.outstanding + 1) x
  change _ = x.stream.work.1 at worked
  have alive : x.stream.work.2 ≠ .gone := LiveStream.rounds_alive _ working
  have still := (LiveStream.Works.work x.stream).working working
  rw [LiveStream.settle] at halted ⊢
  split at halted
  · next ended =>
    have behind := (run_reached reached done).1
    have session := congrArg LiveStream.session worked
    have closing : World.Halted c (x.run done).world :=
      ⟨behind.sound, behind.closed, (congrArg Session.halted session).trans ended⟩
    rw [if_pos ended]
    exact LiveStream.windDown_clear closing session still alive
  · next goesOn => exact absurd halted goesOn

/-- Over every run of a session, whatever its link goes through: the link has taken exactly the
writes that succeeded. What they hold of a channel is what its counters say, and a monitor was
shown one snapshot for each that holds any, with what was moved up to it. A receive channel counts
the blocks that its lane has accepted, and is shown once for each. A monitor that asks for the end
gets it. From a halt on all that is unsent drains, and the receive worker ends its read if it is in
one and begins no other. Where the workers settle the stream by whole turns, they only send behind
a halt: what the link holds for the host stays there, no receive lane changes, and on a working
link nothing stays unsent. -/
theorem transfers_in_books {c : StreamConfig} {available : UInt8}
    (valid : c.validate available = .ok ()) (monitor : Option Monitor) (link : Link)
    (events : List LinkedEvent) :
    let start := setUp c monitor link
    let x := start.run events
    let writes := observe submitted start events
    let reports := observe reported start events
    let shown (channel : UInt8) (direction : Direction) : List Snapshot :=
      (reports.filter fun y => y.1 = channel ∧ y.2.direction = direction).map Prod.snd
    link.submissions ++ writes = observe cleared start events ++ x.stream.link.submissions ∧
    x.stream.session.monitor = monitor.map (·.seeing (reports.map Prod.snd)) ∧
    (∀ channel ∈ c.txChannels,
      let moved := (writes.map (TxPacket.payloadsOn channel)).filter (!·.isEmpty)
      (∃ now, x.stream.session.status channel .tx = .ok now ∧
        now.traffic.bytes = moved.flatten.flatten.length ∧
        now.traffic.packets = moved.flatten.length) ∧
      (monitor.isSome = true → Tally moved (shown channel .tx))) ∧
    (∀ channel ∈ c.rxChannels,
      let blocks := observe (accepted channel) start events
      (∃ now, x.stream.session.status channel .rx = .ok now ∧
        now.traffic.packets = blocks.length) ∧
      (monitor.isSome = true →
        (shown channel .rx).map (·.traffic.packets) = List.range' 1 blocks.length)) ∧
    (∀ m, monitor = some m → m.vetoes (reports.map Prod.snd) = true →
      x.stream.session.halted = true) ∧
    (∀ done rest, events = done ++ rest → (start.run done).stream.session.halted = true →
      (start.run done).Drains c rest ∧
      ∀ after, Looped false start events after → ∃ reading, Looped false start done reading ∧
        EndsReading reading (start.run done) rest) ∧
    (∃ turns, Turns x turns ∧ Looped false x turns false ∧
      x.stream.settle.session = (x.run turns).stream.session ∧
      x.stream.settle.link.disarm.2 = (x.run turns).stream.link.disarm.2 ∧
      ∀ done rest, turns = done ++ rest → (x.run done).stream.session.halted = true →
        (∀ e ∈ rest, ∃ draining, e = .send draining) ∧
        (x.run done).stream.link.incoming <+: x.stream.settle.link.incoming ∧
        x.stream.settle.session.rx.map RxLane.core =
          (x.run done).stream.session.rx.map RxLane.core) ∧
    (x.stream.settle.session.halted = true → x.stream.link.failure = none →
      x.stream.settle.session.isClear = true) := by
  intro start x writes reports shown
  have reached := (run_reached (setUp_reached valid monitor link) events).1
  refine ⟨run_submissions start events, run_monitor start events, ?_, ?_, ?_, ?_, ?_,
    settle_clear reached⟩
  · intro channel listed moved
    obtain ⟨carried, tally⟩ := run_books valid monitor link events channel .tx
    obtain ⟨now, answered, counted⟩ := status_counted .tx reached listed
    rw [observe_transfers_tx] at carried tally
    rw [observe_reportedOf] at tally
    refine ⟨⟨now, answered, ?_, ?_⟩, tally⟩
    · rw [counted, carried.bytes_eq]
      exact Nat.zero_add _
    · rw [counted, carried.packets_eq]
      exact Nat.zero_add _
  · intro channel listed blocks
    obtain ⟨carried, tally⟩ := run_books valid monitor link events channel .rx
    obtain ⟨now, answered, counted⟩ := status_counted .rx reached listed
    rw [observe_transfers_rx] at carried tally
    rw [observe_reportedOf] at tally
    refine ⟨⟨now, answered, ?_⟩, fun watched => ?_⟩
    · rw [counted, carried.packets_eq, ← List.flatMap_def, List.flatMap_singleton',
        List.length_map]
      exact Nat.zero_add _
    · have counts := (tally watched).map_packets
      rwa [List.length_map] at counts
  · intro m monitored vetoed
    exact run_vetoed (setUp_reached valid monitor link) monitored vetoed
  · rintro done rest rfl halted
    have reached := (run_reached (setUp_reached valid monitor link) done).1
    refine ⟨drains reached halted rest, fun after looped => ?_⟩
    obtain ⟨reading, before, behind⟩ := looped.split
    exact ⟨reading, before, behind.endsReading reached halted⟩
  · obtain ⟨s, ⟨turns, made, rfl⟩, session, links⟩ := turned_settle x
    refine ⟨turns, made, made.looped, session, links, ?_⟩
    rintro done rest rfl halted
    have incoming : x.stream.settle.link.incoming =
        (x.run (done ++ rest)).stream.link.incoming := by
      have same := congrArg Link.incoming links
      exact same
    rw [session, incoming]
    exact made.behind_halt halted

/-- One sample goes out and one block comes in, and that is as far as the monitor goes: a second
sample is still queued, and a second block waits in the link. -/
def cutShort : List LinkedEvent :=
  [.start, .transmit 0 [(⟨1, -1⟩ : IntSample)] TransferMeta.plain.flushed .poll, .send false,
    .transmit 0 [(⟨2, -2⟩ : IntSample)] .plain .poll,
    .link (.inject [⟨0, Tick.clamp 10, [1, 0, 2, 0]⟩, ⟨0, Tick.clamp 11, [3, 0, 4, 0]⟩]), .read]

theorem transfers_in_books_cutShort :
    let start := setUp duplex (some (.upTo 2)) (.simulated 2 false)
    let x := start.run cutShort
    duplex.validate 2 = .ok () ∧
    observe submitted start cutShort = x.stream.link.submissions ∧
    (observe reported start cutShort).map (fun y => (y.2.direction, y.2.traffic.packets)) =
      [(.tx, 1), (.rx, 1)] ∧
    x.stream.session.halted = true ∧ x.stream.session.isClear = false ∧
    (x.run [.send true]).stream.session.isClear = true ∧
    x.stream.settle.session.isClear = true ∧
    x.stream.settle.link.submissions.map (·.map (·.payload)) =
      [[[1, 0, 255, 255]], [[2, 0, 254, 255]]] ∧
    x.stream.settle.link.incoming.map (·.payload) = [[3, 0, 4, 0]] := by
  intro start x
  have valid : duplex.validate 2 = .ok () := rfl
  obtain ⟨taken, _, _, _, heard, _, _, clear⟩ :=
    transfers_in_books valid (some (.upTo 2)) (.simulated 2 false) cutShort
  have vetoed : (Monitor.upTo 2).vetoes ((observe reported start cutShort).map Prod.snd) = true := by
    decide +kernel
  have uncleared : observe cleared start cutShort = [] := by decide +kernel
  change [] ++ _ = _ at taken
  rw [uncleared, List.nil_append, List.nil_append] at taken
  have halted : x.stream.session.halted = true := heard _ rfl vetoed
  have behind := transfers_in_books valid (some (.upTo 2)) (.simulated 2 false)
    (cutShort ++ [.send true])
  have drains : x.Drains duplex [.send true] := (behind.2.2.2.2.2.1 cutShort _ rfl halted).1
  have few : x.stream.session.unsentCount ≤ [LinkedEvent.send true].countP LinkedEvent.isDrain := by
    decide +kernel
  exact ⟨valid, taken, by decide +kernel, halted, by decide +kernel, drains.clear few,
    clear (by decide +kernel) (by decide +kernel), by decide +kernel, by decide +kernel⟩

/-- A monitor that ends the stream with the first write, while the receive worker is in a read; the
link hands it a packet behind that. -/
def readBehind : List LinkedEvent :=
  [.link (.inject [⟨0, Tick.clamp 10, [1, 0, 2, 0]⟩]), .read]

/-- A timed sample that waits for its tick when a packet from far behind it ends the stream. -/
def overtaken : List LinkedEvent :=
  [.start, .transmit 0 [(⟨1, -1⟩ : IntSample)] (.anchored (Tick.clamp 10000)) .poll,
    .link (.inject [⟨0, Tick.clamp 1000000, [1, 0, 2, 0]⟩]), .read]

/-- Behind the veto of a monitor one packet is still accepted, by a worker that keeps to its loop;
and what drains behind it need not go out: a batch that is late by then is dropped, and no monitor
is shown it. -/
theorem transfers_behind_veto :
    let start := setUp duplex (some (.upTo 1)) (.simulated 2 false)
    let done := cutShort.take 3
    let late := start.run overtaken
    (start.run done).stream.session.halted = true ∧ Looped false start (done ++ readBehind) false ∧
      (observe (accepted 0) (start.run done) readBehind).map (·.payload) = [[1, 0, 2, 0]] ∧
    late.stream.session.halted = true ∧ late.stream.session.isClear = false ∧
      late.stream.settle.session.isClear = true ∧ late.stream.settle.link.submissions = [] ∧
      late.stream.settle.session.lateOn 0 = 1 := by
  intro start done late
  have looped : Looped false start (done ++ readBehind) false := by
    refine .other rfl (.other rfl (.look (by decide +kernel) ?_))
    exact .other rfl (.other rfl (.read (.nil false _)))
  exact ⟨by decide +kernel, looped, by decide +kernel, by decide +kernel, by decide +kernel,
    by decide +kernel, by decide +kernel, by decide +kernel⟩

end LinkedSession
end RadioStream
