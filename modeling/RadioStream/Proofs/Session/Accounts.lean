import RadioStream.Proofs.Session.Monotone
import RadioStream.Proofs.Session.Tally

/-!
The books of a session over its runs on a link. What the link has taken, what the counters of a
channel say and what the monitor was shown of it are the same transfers, and a monitor that asks
for the end gets it.
-/
namespace RadioStream
open Traffic (Carried)

namespace Monitor

/-- Whether a monitor asks for the end at one of some snapshots. -/
def vetoes (m : Monitor) : List Snapshot → Bool
  | [] => false
  | snapshot :: rest =>
    !m.accepts (snapshot :: m.snapshots) || (m.seeing [snapshot]).vetoes rest

theorem vetoes_append (m : Monitor) (first rest : List Snapshot) :
    m.vetoes (first ++ rest) = (m.vetoes first || (m.seeing first).vetoes rest) := by
  induction first generalizing m with
  | nil => rfl
  | cons snapshot first ih =>
    rw [List.cons_append, vetoes, vetoes, ih, ← seeing_append, Bool.or_assoc]
    rfl

end Monitor

namespace Link
variable {l after : Link} {packets : List TxPacket}

theorem submissions_read {packet : RxPacket} (found : l.read = .ok (some (packet, after))) :
    after.submissions = l.submissions := by
  unfold read at found
  split at found
  · contradiction
  · split at found
    · simp at found
    · obtain ⟨_, rfl⟩ := Prod.mk.inj (Option.some.inj (Except.ok.inj found))
      rfl

theorem submissions_echo (size : Nat) (l : Link) (packets : List TxPacket) :
    (packets.foldl (echo size) l).submissions = l.submissions := by
  induction packets generalizing l with
  | nil => rfl
  | cons p rest ih => exact ih (l.echo size p)

theorem submissions_write (written : l.write packets = .ok after) :
    after.submissions = l.submissions ++ [packets] := by
  unfold write at written
  dsimp only at written
  split at written
  · contradiction
  · split at written
    · rw [← Except.ok.inj written]
      exact submissions_echo _ _ packets
    · rw [← Except.ok.inj written]

end Link

namespace Session

theorem report_vetoed {s : Session} {m : Monitor} (monitored : s.monitor = some m)
    {snapshot : Snapshot} (refuses : m.accepts (snapshot :: m.snapshots) = false) :
    (s.report snapshot).halted = true := by
  rw [report, monitored]
  dsimp only
  rw [refuses, if_neg Bool.false_ne_true]
  exact halt_halted _ none

end Session

theorem TxPass.finish_vetoed {p : TxPass} {m : Monitor} (monitored : p.session.monitor = some m)
    (vetoed : m.vetoes (p.reports.map Prod.snd) = true) :
    (p.finish (some (.ok ()))).halted = true := by
  have reported (shipments : List (TxLane × Shipment)) (s : Session) (m : Monitor)
      (monitored : s.monitor = some m) (vetoed : m.vetoes (shipments.map fun x =>
        (x.1.shipped x.2).snapshot s.timeline.current) = true ∨ s.halted = true) :
      (shipments.foldl (fun s x => s.report ((x.1.shipped x.2).snapshot s.timeline.current))
        s).halted = true := by
    induction shipments generalizing s m with
    | nil => simpa [Monitor.vetoes] using vetoed
    | cons first rest ih =>
      let snapshot := (first.1.shipped first.2).snapshot s.timeline.current
      have kept := s.report_kept snapshot
      refine ih (s.report snapshot) (m.seeing [snapshot]) ?_ ?_
      · rw [Session.report_monitor, monitored]
        rfl
      · rw [kept.timeline_eq]
        rcases vetoed with now | halted
        · rw [List.map_cons, Monitor.vetoes, Bool.or_eq_true, Bool.not_eq_true'] at now
          exact now.symm.imp_right (Session.report_vetoed monitored)
        · exact .inr (kept.halted halted).1
  rw [TxPass.reports, List.map_map] at vetoed
  exact reported p.shipments { p.session with tx := p.counted } m monitored (.inl vetoed)

theorem World.step_vetoed {w : World} {m : Monitor} (monitored : w.session.monitor = some m)
    {e : Event} (vetoed : m.vetoes ((reported w e).map Prod.snd) = true) :
    (w.step e).session.halted = true := by
  cases e with
  | arrive p =>
    rw [reported] at vetoed
    cases found : w.session.rxOn p.channel with
    | none =>
      rw [found] at vetoed
      contradiction
    | some lane =>
      rw [found] at vetoed
      rw [step, Session.accept_eq found]
      dsimp only at vetoed ⊢
      split at vetoed
      · next taken =>
        rw [Bool.and_eq_true] at taken
        rw [if_pos taken.1]
        refine Session.report_vetoed (m := m) ?_ ?_
        · exact monitored
        · simpa [Monitor.vetoes] using vetoed
      · contradiction
  | pass reading draining answer =>
    cases answer with
    | error reason => contradiction
    | ok _ =>
      rw [reported] at vetoed
      split at vetoed
      · next taken =>
        rw [Bool.and_eq_true, Bool.not_eq_true'] at taken
        rw [step, Session.pass, taken.1, if_neg Bool.false_ne_true]
        exact TxPass.finish_vetoed monitored vetoed
      · contradiction
  | _ => contradiction

/-- What holds of all worlds that the runs of a configuration reach. -/
structure World.Reached (c : StreamConfig) (w : World) : Prop where
  sound : World.TxSound c w
  closed : w.session.Closed
  txChannels_eq : w.session.tx.map (·.channel) = c.txChannels
  rxChannels_eq : w.session.rx.map (·.channel) = c.rxChannels

theorem World.Reached.step {c : StreamConfig} {w : World} (reached : w.Reached c) (e : Event) :
    (w.step e).Reached c ∧ w.session.StaysHalted (w.step e).session := by
  have goesOn := w.step_continues e
  obtain ⟨closed, still⟩ := step_closed reached.closed e
  exact ⟨⟨(reached.sound.step e).1, closed, goesOn.txChannels_eq.trans reached.txChannels_eq,
    goesOn.rxChannels_eq.trans reached.rxChannels_eq⟩, still⟩

/-- Whatever the time is, a stream that was just made is reached. -/
theorem World.reached_of_fresh {c : StreamConfig} {available : UInt8}
    (valid : c.validate available = .ok ()) (monitor : Option Monitor) {timeline : Timeline}
    (tolerance : timeline.tolerance = c.tuning.lateTolerance.toNat) :
    (World.mk { Session.create c monitor with timeline := timeline } []).Reached c := by
  have opened := World.opened_txSound valid monitor .zero
  refine ⟨⟨rfl, tolerance, ⟨opened.session.distinct, opened.session.lanes⟩,
    List.forall_mem_nil _⟩, ?_, ?_, ?_⟩
  · intro halted
    contradiction
  · exact (List.map_map ..).trans (List.map_id c.txChannels)
  · exact (List.map_map ..).trans (List.map_id c.rxChannels)

theorem World.opened_reached {c : StreamConfig} {available : UInt8}
    (valid : c.validate available = .ok ()) (monitor : Option Monitor) (clock : Tick) :
    (opened c monitor clock).Reached c := reached_of_fresh valid monitor rfl

namespace LinkedSession
variable {c : StreamConfig} {x : LinkedSession} {e : LinkedEvent}

theorem setUp_reached {available : UInt8} (valid : c.validate available = .ok ())
    (monitor : Option Monitor) (link : Link) : (setUp c monitor link).world.Reached c :=
  World.reached_of_fresh valid monitor rfl

/-- But for the time that it shows, the start of a stream keeps its session. -/
theorem start_kept (x : LinkedSession) : ∃ timeline : Timeline,
    timeline.tolerance = x.stream.session.timeline.tolerance ∧
      ({ x.stream.session with timeline := timeline } : Session).Kept x.stream.start.session := by
  obtain ⟨timeline, _, tolerance, after⟩ := x.stream.start_cases
  refine ⟨timeline, tolerance, ?_⟩
  rcases after with after | after <;> rw [after]
  · exact .refl _
  · exact Session.halt_kept _ none

theorem step_reached (reached : x.world.Reached c) (e : LinkedEvent) :
    (x.step e).world.Reached c ∧ x.stream.session.StaysHalted (x.step e).stream.session := by
  by_cases running : e = .start
  · subst running
    obtain ⟨timeline, tolerance, kept⟩ := x.start_kept
    let observed : Session := { x.stream.session with timeline := timeline }
    have tx : observed.TxSound := ⟨reached.sound.session.distinct, reached.sound.session.lanes⟩
    have goesOn := kept.continues
    refine ⟨⟨⟨?_, ?_, ?_, reached.sound.calls⟩, kept.closed reached.closed, ?_, ?_⟩, kept.halted⟩
    · exact goesOn.config_eq.trans reached.sound.config_eq
    · exact (goesOn.tolerance_eq.trans tolerance).trans reached.sound.tolerance_eq
    · exact tx.of_core goesOn kept.tx_eq
    · exact goesOn.txChannels_eq.trans reached.txChannels_eq
    · exact goesOn.rxChannels_eq.trans reached.rxChannels_eq
  · rw [step_world running, step_session running]
    cases x.event? e with
    | none => exact ⟨reached, fun halted => ⟨halted, rfl⟩⟩
    | some event => exact reached.step event

theorem run_reached (reached : x.world.Reached c) (events : List LinkedEvent) :
    (x.run events).world.Reached c ∧
      x.stream.session.StaysHalted (x.run events).stream.session := by
  induction events generalizing x with
  | nil => exact ⟨reached, fun halted => ⟨halted, rfl⟩⟩
  | cons e rest ih =>
    obtain ⟨next, still⟩ := step_reached reached e
    obtain ⟨last, later⟩ := ih next
    exact ⟨last, still.trans later⟩

theorem setUp_trafficOn (c : StreamConfig) (monitor : Option Monitor) (link : Link)
    (channel : UInt8) (direction : Direction) :
    (setUp c monitor link).stream.session.trafficOn channel direction = .zero := by
  cases direction with
  | rx =>
    rw [Session.trafficOn]
    cases found : (setUp c monitor link).stream.session.rxOn channel with
    | none => rfl
    | some lane =>
      have member := List.mem_of_find?_eq_some found
      change lane ∈ c.rxChannels.map fun channel => RxLane.create channel c.capacity at member
      obtain ⟨_, _, rfl⟩ := List.mem_map.mp member
      rfl
  | tx =>
    rw [Session.trafficOn]
    cases found : (setUp c monitor link).stream.session.txOn channel with
    | none => rfl
    | some lane =>
      have member := List.mem_of_find?_eq_some found
      change lane ∈ c.txChannels.map fun channel => TxLane.create channel c.capacity at member
      obtain ⟨_, _, rfl⟩ := List.mem_map.mp member
      rfl

/-- The write with which a step succeeds. -/
def submitted (x : LinkedSession) (e : LinkedEvent) : List (List TxPacket) :=
  (x.event? e).elim [] x.world.submitted

/-- The blocks that the lane of a channel accepts. -/
def accepted (channel : UInt8) (x : LinkedSession) (e : LinkedEvent) : List Block :=
  (x.event? e).elim [] (x.world.admitted channel)

/-- What a step moves of a channel over the link. -/
def transfers (channel : UInt8) (direction : Direction) (x : LinkedSession) (e : LinkedEvent) :
    List (List (List UInt8)) :=
  (x.event? e).elim [] fun event => x.world.transfers channel event direction

/-- The snapshots of a channel that a step shows to the monitor. -/
def reportedOf (channel : UInt8) (direction : Direction) (x : LinkedSession) (e : LinkedEvent) :
    List Snapshot :=
  (x.event? e).elim [] fun event => x.world.reportedOf channel event direction

/-- The writes that are forgotten in a step. -/
def cleared (x : LinkedSession) : LinkedEvent → List (List TxPacket)
  | .link .clearSubmissions => x.stream.link.submissions
  | _ => []

variable {channel : UInt8} {direction : Direction}

theorem step_booked (reached : x.world.Reached c) (e : LinkedEvent) (channel : UInt8)
    (direction : Direction) :
    World.Booked x.stream.session.monitor.isSome (x.stream.session.trafficOn channel direction)
      ((x.step e).stream.session.trafficOn channel direction)
      (x.transfers channel direction e) (x.reportedOf channel direction e) := by
  by_cases running : e = .start
  · subst running
    obtain ⟨timeline, _, _, after⟩ := x.stream.start_cases
    let observed : Session := { x.stream.session with timeline := timeline }
    have same : observed.trafficOn channel direction =
        x.stream.session.trafficOn channel direction := by cases direction <;> rfl
    have sound : observed.TxSound := ⟨reached.sound.session.distinct, reached.sound.session.lanes⟩
    rcases after with after | after <;> rw [step, after, ← same]
    · exact .nothing (.refl _)
    · have booked := World.step_booked (w := ⟨observed, []⟩) sound (.halt none) channel direction
      cases direction <;> exact booked
  · rw [step_session running, transfers, reportedOf]
    cases x.event? e with
    | none => exact .nothing (.refl _)
    | some event => exact World.step_booked reached.sound.session event channel direction

/-- Over a run the counters of a channel count what was moved, and a monitor sees one snapshot for
each transfer, which counts those up to its own. -/
theorem run_books {available : UInt8} (valid : c.validate available = .ok ())
    (monitor : Option Monitor) (link : Link) (events : List LinkedEvent) (channel : UInt8)
    (direction : Direction) :
    let start := setUp c monitor link
    Traffic.zero.Carried ((start.run events).stream.session.trafficOn channel direction)
        (observe (transfers channel direction) start events).flatten ∧
      (monitor.isSome = true → Tally (observe (transfers channel direction) start events)
        (observe (reportedOf channel direction) start events)) := by
  intro start
  induction events using List.reverseRecOn with
  | nil =>
    change Traffic.zero.Carried (start.stream.session.trafficOn channel direction) [] ∧ _
    rw [setUp_trafficOn]
    exact ⟨.refl _, fun _ => .nil⟩
  | append_singleton done e ih =>
    obtain ⟨carried, tally⟩ := ih
    have reached := (run_reached (setUp_reached valid monitor link) done).1
    have monitored : (start.run done).stream.session.monitor.isSome = monitor.isSome := by
      rw [run_monitor, Option.isSome_map]
      rfl
    have booked := step_booked reached e channel direction
    rw [monitored] at booked
    rw [observe_append, observe_append, run_append]
    simp only [observe, List.append_nil]
    exact booked.extend carried tally

/-- The snapshots of a channel are among all that a monitor is shown. -/
theorem observe_reportedOf (channel : UInt8) (direction : Direction) (x : LinkedSession)
    (events : List LinkedEvent) : observe (reportedOf channel direction) x events =
      ((observe reported x events).filter fun y =>
        y.1 = channel ∧ y.2.direction = direction).map Prod.snd := by
  have each : reportedOf channel direction = fun x e => ((x.reported e).filter fun y =>
      y.1 = channel ∧ y.2.direction = direction).map Prod.snd := by
    funext x e
    rw [reportedOf, reported]
    cases x.event? e <;> rfl
  rw [observe_filter, observe_map, each]

theorem observe_transfers_tx (channel : UInt8) (x : LinkedSession) (events : List LinkedEvent) :
    observe (transfers channel .tx) x events =
      ((observe submitted x events).map (TxPacket.payloadsOn channel)).filter (!·.isEmpty) := by
  have each : transfers channel .tx = fun x e =>
      ((x.submitted e).map (TxPacket.payloadsOn channel)).filter (!·.isEmpty) := by
    funext x e
    rw [transfers, submitted]
    cases x.event? e <;> rfl
  rw [observe_map, observe_filter, each]

theorem observe_transfers_rx (channel : UInt8) (x : LinkedSession) (events : List LinkedEvent) :
    observe (transfers channel .rx) x events =
      ((observe (accepted channel) x events).map (·.payload)).map ([·]) := by
  have each : transfers channel .rx = fun x e =>
      ((x.accepted channel e).map (·.payload)).map ([·]) := by
    funext x e
    rw [transfers, accepted, List.map_map]
    cases x.event? e <;> rfl
  rw [observe_map, observe_map, each]

/-- The start of a stream takes nothing from its link and writes nothing to it. -/
theorem start_link (x : LinkedSession) :
    x.stream.start.link.submissions = x.stream.link.submissions ∧
      x.stream.start.link.incoming = x.stream.link.incoming := by
  rw [LiveStream.start]
  split
  · exact ⟨rfl, rfl⟩
  · dsimp only
    split
    · exact ⟨rfl, rfl⟩
    · next armed =>
      rw [RfModule.armLink] at armed
      split at armed
      · contradiction
      · rw [Link.arm] at armed
        split at armed
        · contradiction
        · rw [← Except.ok.inj armed]
          exact ⟨rfl, rfl⟩

theorem read_submissions (x : LinkedSession) : x.submitted .read = [] ∧
    x.stream.readOnce.link.submissions = x.stream.link.submissions := by
  simp only [submitted, event?, LiveStream.readOnce]
  cases arrival : x.stream.link.read with
  | error reason => exact ⟨rfl, rfl⟩
  | ok arrived =>
    cases arrived with
    | none => exact ⟨rfl, rfl⟩
    | some arrived => exact ⟨rfl, Link.submissions_read arrival⟩

theorem send_submissions (x : LinkedSession) (draining : Bool) :
    (x.stream.pass draining).1.link.submissions =
      x.stream.link.submissions ++ x.submitted (.send draining) := by
  simp only [submitted, event?, Option.elim_some, LiveStream.passEvent, LiveStream.answer]
  change _ = _ ++ World.submitted ⟨x.stream.session, x.waiting⟩ _
  rw [LiveStream.pass]
  split
  · next none =>
    cases x.stream.link.write _ <;> simp [World.submitted, Except.map, none]
  · next some =>
    split
    · next written =>
      rw [written, Link.submissions_write written]
      simp [World.submitted, Except.map, some]
    · next refused =>
      rw [refused]
      exact (List.append_nil _).symm

/-- What a link has taken goes behind what it took before. -/
theorem step_submissions (x : LinkedSession) (e : LinkedEvent) :
    x.stream.link.submissions ++ x.submitted e =
      x.cleared e ++ (x.step e).stream.link.submissions := by
  cases e with
  | start => exact (List.append_nil _).trans x.start_link.1.symm
  | read =>
    rw [x.read_submissions.1, List.append_nil]
    exact x.read_submissions.2.symm
  | send draining => exact (x.send_submissions draining).symm
  | link e => cases e <;> first | exact List.append_nil _ | rfl
  | _ => exact List.append_nil _

theorem run_submissions (x : LinkedSession) (events : List LinkedEvent) :
    x.stream.link.submissions ++ observe submitted x events =
      observe cleared x events ++ (x.run events).stream.link.submissions := by
  induction events generalizing x with
  | nil => exact List.append_nil _
  | cons e rest ih =>
    rw [observe, observe, ← List.append_assoc, step_submissions, List.append_assoc, ih,
      List.append_assoc]
    rfl

/-- The status of a channel that was set up tells its counters. -/
theorem status_counted (direction : Direction) (reached : x.world.Reached c)
    (listed : channel ∈ c.channels direction) :
    ∃ shown, x.stream.session.status channel direction = .ok shown ∧
      shown.traffic = x.stream.session.trafficOn channel direction := by
  cases direction with
  | rx =>
    rw [StreamConfig.channels, ← reached.rxChannels_eq] at listed
    obtain ⟨lane, found⟩ := Session.rxOn_of_mem listed
    change x.stream.session.rxOn channel = some lane at found
    rw [Session.status, Session.trafficOn, Session.rxLane?_eq_ok.mpr found, found]
    exact ⟨_, rfl, rfl⟩
  | tx =>
    rw [StreamConfig.channels, ← reached.txChannels_eq] at listed
    obtain ⟨lane, found⟩ := Session.txOn_of_mem listed
    change x.stream.session.txOn channel = some lane at found
    rw [Session.status, Session.trafficOn, Session.txLane?_eq_ok.mpr found, found]
    exact ⟨_, rfl, rfl⟩

theorem step_vetoed {m : Monitor} (monitored : x.stream.session.monitor = some m)
    (vetoed : m.vetoes ((x.reported e).map Prod.snd) = true) :
    (x.step e).stream.session.halted = true := by
  by_cases running : e = .start
  · subst running
    contradiction
  · rw [step_session running]
    rw [reported] at vetoed
    cases event : x.event? e with
    | none =>
      rw [event] at vetoed
      contradiction
    | some event' =>
      rw [event] at vetoed
      exact World.step_vetoed monitored vetoed

/-- A monitor that asks for the end is heard, and the stream does not come back. -/
theorem run_vetoed (reached : x.world.Reached c) {m : Monitor}
    (monitored : x.stream.session.monitor = some m) {events : List LinkedEvent}
    (vetoed : m.vetoes ((observe reported x events).map Prod.snd) = true) :
    (x.run events).stream.session.halted = true := by
  induction events generalizing x m with
  | nil => contradiction
  | cons e rest ih =>
    obtain ⟨next, _⟩ := step_reached reached e
    rw [observe, List.map_append, Monitor.vetoes_append, Bool.or_eq_true] at vetoed
    rcases vetoed with now | later
    · have halted := step_vetoed monitored now
      exact ((run_reached next rest).2 halted).1
    · refine ih next ?_ later
      rw [step_monitor, monitored]
      rfl

end LinkedSession
end RadioStream
