import RadioStream.Session.Stats
import RadioStream.Proofs.Session.Linked
import RadioStream.Proofs.Session.Observed

/-!
Time and counters over the runs of a session on a simulated link. Whatever its clock does, the
times that calls and workers read, the ticks that snapshots bear and the counters that they hold
never go back.
-/
namespace RadioStream
open Traffic (Within)

theorem pairwise_of_length_le_one {α : Type} {R : α → α → Prop} {list : List α}
    (short : list.length ≤ 1) : list.Pairwise R := by
  match list, short with
  | [], _ => exact .nil
  | [a], _ => exact List.pairwise_singleton R a

namespace ChannelStats

/-- The counters of events, as published and as counted. -/
def eventCounters : List ((ChannelStats → UInt32) × (Traffic → Counter)) :=
  [(overrun, Traffic.overrun), (underrun, Traffic.underrun), (loss, Traffic.loss),
    (late, Traffic.late)]

variable {x : (ChannelStats → UInt32) × (Traffic → Counter)}

/-- A published counter is the counted one, for which its 32 bits are enough. -/
theorem ofSnapshot_counter (counter : x ∈ eventCounters) (s : Snapshot) (rate : Single) :
    (x.1 (ofSnapshot s rate)).toNat = (x.2 s.traffic).count := by
  have fits (c : Counter) : (UInt32.ofNat c.count).toNat = c.count := by
    have := c.le_limit
    rw [UInt32.toNat_ofNat_of_lt']
    exact Nat.lt_of_le_of_lt this (by decide)
  simp only [eventCounters, List.mem_cons, List.not_mem_nil, or_false] at counter
  rcases counter with rfl | rfl | rfl | rfl <;> exact fits _

theorem counter_le {t u : Traffic} (counter : x ∈ eventCounters) (within : t.Within u) :
    (x.2 t).count ≤ (x.2 u).count := by
  simp only [eventCounters, List.mem_cons, List.not_mem_nil, or_false] at counter
  rcases counter with rfl | rfl | rfl | rfl
  · exact within.overrun_le
  · exact within.underrun_le
  · exact within.loss_le
  · exact within.late_le

end ChannelStats

/-- Nothing that the second snapshot counts is behind the first; a published counter that has
reached its limit stays there. -/
structure Snapshot.Onward (first second : Snapshot) : Prop where
  traffic : first.traffic.Within second.traffic
  published : ∀ x ∈ ChannelStats.eventCounters, ∀ rate rate',
    x.1 (.ofSnapshot first rate) ≤ x.1 (.ofSnapshot second rate') ∧
      (x.1 (.ofSnapshot first rate) = 0xffffffff → x.1 (.ofSnapshot second rate') = 0xffffffff)

theorem Snapshot.onward {first second : Snapshot} (within : first.traffic.Within second.traffic) :
    first.Onward second where
  traffic := within
  published := by
    intro x counter rate rate'
    have le : x.1 (.ofSnapshot first rate) ≤ x.1 (.ofSnapshot second rate') := by
      rw [UInt32.le_iff_toNat_le, ChannelStats.ofSnapshot_counter counter,
        ChannelStats.ofSnapshot_counter counter]
      exact ChannelStats.counter_le counter within
    refine ⟨le, fun full => UInt32.le_antisymm ?_ (full ▸ le)⟩
    rw [UInt32.le_iff_toNat_le]
    exact Nat.le_of_lt_succ (UInt32.toNat_lt _)

namespace Session

theorem status_eq {s : Session} {channel : UInt8} {direction : Direction} {shown : Snapshot}
    (answered : s.status channel direction = .ok shown) :
    shown.timestamp = s.timeline.current ∧ shown.traffic = s.trafficOn channel direction ∧
      shown.direction = direction := by
  cases direction with
  | rx =>
    rw [status, trafficOn] at *
    cases found : s.rxOn channel with
    | none =>
      rw [rxOn] at found
      simp [rxLane?, found] at answered
    | some lane =>
      rw [rxLane?_eq_ok.mpr found] at answered
      cases answered
      exact ⟨rfl, rfl, rfl⟩
  | tx =>
    rw [status, trafficOn] at *
    cases found : s.txOn channel with
    | none =>
      rw [txOn] at found
      simp [txLane?, found] at answered
    | some lane =>
      rw [txLane?_eq_ok.mpr found] at answered
      cases answered
      exact ⟨rfl, rfl, rfl⟩

end Session

/-- The start of a stream observes the clock, and may end the stream. -/
theorem LiveStream.start_cases (s : LiveStream) :
    ∃ timeline, timeline.observed.toInt =
        latest s.session.timeline.observed.toInt (readings s.link.hardwareTime) ∧
      timeline.tolerance = s.session.timeline.tolerance ∧
      (s.start.session = { s.session with timeline := timeline } ∨
        s.start.session = ({ s.session with timeline := timeline } : Session).halt none) := by
  rw [start]
  cases s.link.hardwareTime with
  | error fault => exact ⟨s.session.timeline, rfl, rfl, .inr rfl⟩
  | ok now =>
    refine ⟨s.session.timeline.start s.session.config now, Tick.toInt_max _ _, rfl, ?_⟩
    dsimp only
    split
    · exact .inr rfl
    · exact .inl rfl

namespace LinkedSession

/-- The times that a step reads as the present. -/
def timesRead (x : LinkedSession) (e : LinkedEvent) : List Tick :=
  (x.event? e).elim [] x.world.timesRead

/-- The ticks that a step observes. -/
def ticksSeen (x : LinkedSession) : LinkedEvent → List Tick
  | .start => readings x.stream.link.hardwareTime
  | e => (x.event? e).elim [] x.world.ticksSeen

/-- The snapshots that a step shows to the monitor, with their channels. -/
def reported (x : LinkedSession) (e : LinkedEvent) : List (UInt8 × Snapshot) :=
  (x.event? e).elim [] x.world.reported

/-- The snapshots that a step shows to the monitor or to a caller, with their channels. -/
def shown (x : LinkedSession) : LinkedEvent → List (UInt8 × Snapshot)
  | .status channel direction => match x.stream.session.status channel direction with
    | .ok snapshot => [(channel, snapshot)]
    | .error _ => []
  | e => x.reported e

section time

theorem step_latest (x : LinkedSession) (e : LinkedEvent) :
    (x.step e).stream.session.timeline.observed.toInt =
      latest x.stream.session.timeline.observed.toInt (x.ticksSeen e) := by
  by_cases running : e = .start
  · obtain ⟨timeline, observed, _, after | after⟩ := x.stream.start_cases <;>
      rw [running, step, after, ticksSeen, ← observed]
    rw [(Session.halt_kept _ none).timeline_eq]
  · have seen : x.ticksSeen e = (x.event? e).elim [] x.world.ticksSeen := by
      cases e <;> first | rfl | contradiction
    rw [step_session running, seen]
    cases x.event? e with
    | none => rfl
    | some event => exact x.world.step_observed event

theorem run_latest (x : LinkedSession) (events : List LinkedEvent) :
    (x.run events).stream.session.timeline.observed.toInt =
      latest x.stream.session.timeline.observed.toInt (observe ticksSeen x events) := by
  induction events generalizing x with
  | nil => rfl
  | cons e rest ih =>
    change ((x.step e).run rest).stream.session.timeline.observed.toInt = _
    rw [ih, observe, latest_append, step_latest]

theorem step_observed_le (x : LinkedSession) (e : LinkedEvent) :
    x.stream.session.timeline.observed.toInt ≤
      (x.step e).stream.session.timeline.observed.toInt := by
  rw [step_latest]
  exact le_latest _ _

theorem step_current_le (x : LinkedSession) (e : LinkedEvent) :
    x.stream.session.timeline.current.toInt ≤
      (x.step e).stream.session.timeline.current.toInt := by
  have := x.step_observed_le e
  rw [Timeline.current_toInt, Timeline.current_toInt]
  omega

/-- How far the times read have come: with a failed clock they are never negative. -/
def pace (x : LinkedSession) : Int :=
  if x.stream.link.failure = none then x.stream.session.timeline.observed.toInt
  else x.stream.session.timeline.current.toInt

theorem step_pace (x : LinkedSession) (e : LinkedEvent) : x.pace ≤ (x.step e).pace := by
  have := x.step_observed_le e
  have := (x.step e).stream.session.timeline.current_toInt
  unfold pace
  by_cases working : x.stream.link.failure = none
  · rw [if_pos working]
    split <;> omega
  · rw [if_neg working, if_neg (step_failure working e)]
    exact x.step_current_le e

theorem timesRead_cases (x : LinkedSession) (e : LinkedEvent) : x.timesRead e = [] ∨
    x.timesRead e = [(x.stream.session.timeline.now x.stream.link.hardwareTime).1] ∧
      x.ticksSeen e = readings x.stream.link.hardwareTime ∧
      (x.step e).stream.link.failure = x.stream.link.failure := by
  cases e with
  | @transmit α _ channel samples info wait =>
    by_cases asks : x.stream.session.asksClock α channel info
    · exact .inr ⟨if_pos asks, if_pos asks, rfl⟩
    · exact .inl (if_neg asks)
  | read =>
    left
    rw [timesRead, event?]
    rcases x.stream.link.read with reason | _ | _ <;> rfl
  | send draining =>
    have wired := congrArg Link.failure (LiveStream.Step.pass x.stream draining).wiring_eq
    exact .inr ⟨rfl, rfl, wired⟩
  | _ => exact .inl rfl

theorem timesRead_pace (x : LinkedSession) (e : LinkedEvent) :
    ∀ t ∈ x.timesRead e, x.pace ≤ t.toInt ∧ t.toInt ≤ (x.step e).pace := by
  rcases x.timesRead_cases e with none | ⟨read, seen, wired⟩
  · rw [none]
    exact List.forall_mem_nil _
  · rw [read, List.forall_mem_singleton]
    have after := x.step_latest e
    have onward := x.step_observed_le e
    rw [seen, ← Timeline.now_observed] at after
    unfold pace
    rw [wired]
    -- a clock that works reads the observed time, a failed one what callers are shown of it
    cases working : x.stream.link.failure with
    | none =>
      have time : x.stream.link.hardwareTime = .ok x.stream.link.time := by
        simp [Link.hardwareTime, Link.fault?, working]
      have shows : (x.stream.session.timeline.now (.ok x.stream.link.time)).1 =
          (x.stream.session.timeline.now (.ok x.stream.link.time)).2.observed := rfl
      rw [if_pos rfl, if_pos rfl, time, shows, ← time, ← after]
      exact ⟨onward, Int.le_refl _⟩
    | some reason =>
      have time : x.stream.link.hardwareTime = .error (.transportFailure reason) := by
        simp [Link.hardwareTime, Link.fault?, working]
      rw [if_neg (Option.some_ne_none _), if_neg (Option.some_ne_none _), time]
      exact ⟨Int.le_refl _, x.step_current_le e⟩

/-- A step reads the present once at most. -/
theorem timesRead_length (x : LinkedSession) (e : LinkedEvent) : (x.timesRead e).length ≤ 1 := by
  rcases x.timesRead_cases e with none | ⟨read, _⟩
  · rw [none]
    exact Nat.zero_le _
  · rw [read]
    exact Nat.le_refl _

/-- A snapshot bears the time that its step has observed. -/
theorem shown_time (x : LinkedSession) (e : LinkedEvent) :
    ∀ y ∈ x.shown e, y.2.timestamp = (x.step e).stream.session.timeline.current := by
  have ofReport (running : e ≠ .start) :
      ∀ y ∈ x.reported e, y.2.timestamp = (x.step e).stream.session.timeline.current := by
    rw [step_session running, reported]
    cases x.event? e with
    | none => exact List.forall_mem_nil _
    | some event => exact x.world.reported_time event
  cases e with
  | start => exact List.forall_mem_nil _
  | status channel direction =>
    rw [shown]
    split
    · next answered =>
      rw [List.forall_mem_singleton]
      exact (Session.status_eq answered).1
    · exact List.forall_mem_nil _
  | _ => exact ofReport (by simp)

end time

section counters
variable {channel : UInt8} {direction : Direction}

/-- What a step shows of one channel and direction. -/
def shownOf (channel : UInt8) (direction : Direction) (x : LinkedSession) (e : LinkedEvent) :
    List (UInt8 × Snapshot) :=
  (x.shown e).filter fun y => y.1 = channel ∧ y.2.direction = direction

theorem observe_shownOf (channel : UInt8) (direction : Direction) (x : LinkedSession)
    (events : List LinkedEvent) : observe (shownOf channel direction) x events =
      (observe shown x events).filter fun y => y.1 = channel ∧ y.2.direction = direction :=
  (observe_filter shown _ x events).symm

theorem step_within (x : LinkedSession) (e : LinkedEvent) (channel : UInt8)
    (direction : Direction) : (x.stream.session.trafficOn channel direction).Within
      ((x.step e).stream.session.trafficOn channel direction) := by
  by_cases running : e = .start
  · obtain ⟨timeline, _, _, after | after⟩ := x.stream.start_cases <;> rw [running, step, after]
    · cases direction <;> exact .refl _
    · have halted := World.step_within ⟨{ x.stream.session with timeline := timeline }, []⟩
        (.halt none) channel direction
      cases direction <;> exact halted
  · rw [step_session running]
    cases x.event? e with
    | none => exact .refl _
    | some event => exact x.world.step_within event channel direction

theorem step_txChannels (x : LinkedSession) (e : LinkedEvent) :
    (x.step e).stream.session.tx.map (·.channel) = x.stream.session.tx.map (·.channel) := by
  by_cases running : e = .start
  · obtain ⟨timeline, _, _, after | after⟩ := x.stream.start_cases <;> rw [running, step, after]
    exact (Session.halt_kept _ none).continues.txChannels_eq
  · rw [step_session running]
    cases x.event? e with
    | none => rfl
    | some event => exact (x.world.step_continues event).txChannels_eq

/-- Of one channel and direction a step shows one snapshot at most, and its counters are between
those before the step and those behind it. -/
theorem shownOf_between (distinct : (x.stream.session.tx.map (·.channel)).Nodup)
    (e : LinkedEvent) (channel : UInt8) (direction : Direction) :
    (shownOf channel direction x e).length ≤ 1 ∧ ∀ y ∈ shownOf channel direction x e,
      (x.stream.session.trafficOn channel direction).Within y.2.traffic ∧
      y.2.traffic.Within ((x.step e).stream.session.trafficOn channel direction) := by
  have ofReport (running : e ≠ .start) (noStatus : x.shown e = x.reported e) :
      (shownOf channel direction x e).length ≤ 1 ∧ ∀ y ∈ shownOf channel direction x e,
        (x.stream.session.trafficOn channel direction).Within y.2.traffic ∧
        y.2.traffic.Within ((x.step e).stream.session.trafficOn channel direction) := by
    rw [step_session running, shownOf, noStatus, reported]
    cases x.event? e with
    | none => exact ⟨Nat.zero_le _, List.forall_mem_nil _⟩
    | some event => exact x.world.reported_between distinct event channel direction
  cases e with
  | start => exact ⟨Nat.zero_le _, List.forall_mem_nil _⟩
  | status asked side =>
    rw [shownOf, shown]
    split
    · next snapshot answered =>
      obtain ⟨_, counted, on⟩ := Session.status_eq answered
      refine ⟨List.length_filter_le _ _, ?_⟩
      intro y member
      obtain ⟨only, here⟩ := List.mem_filter.mp member
      obtain rfl := List.mem_singleton.mp only
      obtain ⟨rfl, rfl⟩ := of_decide_eq_true here
      rw [counted, on]
      exact ⟨.refl _, .refl _⟩
    · exact ⟨Nat.zero_le _, List.forall_mem_nil _⟩
  | _ => exact ofReport (by simp) rfl

end counters

theorem step_monitor (x : LinkedSession) (e : LinkedEvent) : (x.step e).stream.session.monitor =
    x.stream.session.monitor.map (·.seeing ((x.reported e).map Prod.snd)) := by
  have unseen : x.stream.session.monitor.map (·.seeing []) = x.stream.session.monitor :=
    Monitor.map_seeing_nil _
  by_cases running : e = .start
  · subst running
    refine .trans ?_ unseen.symm
    obtain ⟨timeline, _, _, after | after⟩ := x.stream.start_cases <;> rw [step, after]
    exact Session.halt_monitor _ none
  · rw [step_session running, reported]
    cases x.event? e with
    | none => exact unseen.symm
    | some event => exact x.world.step_monitor event

theorem run_monitor (x : LinkedSession) (events : List LinkedEvent) :
    (x.run events).stream.session.monitor = x.stream.session.monitor.map
      (·.seeing ((observe reported x events).map Prod.snd)) := by
  induction events generalizing x with
  | nil => exact (Monitor.map_seeing_nil _).symm
  | cons e rest ih =>
    change ((x.step e).run rest).stream.session.monitor = _
    rw [ih, step_monitor, Option.map_map, observe, List.map_append]
    congr 1
    funext m
    exact (m.seeing_append _ _).symm

/-- Over every run of a session, whatever its link goes through: the times that are read as the
present never go back; nor do the ticks of the snapshots shown, each of them the largest of zero
and all that was observed so far; nor do the counters of a channel, from any snapshot of it to a
later one. The monitor sees exactly the snapshots reported. -/
theorem time_and_counters_onward {c : StreamConfig} {available : UInt8}
    (valid : c.validate available = .ok ()) (monitor : Option Monitor) (link : Link)
    (events : List LinkedEvent) :
    let start := setUp c monitor link
    (observe timesRead start events).Pairwise (· ≤ ·) ∧
    (observe shown start events).Pairwise (fun a b => a.2.timestamp ≤ b.2.timestamp) ∧
    (∀ done e rest, events = done ++ e :: rest → ∀ y ∈ (start.run done).shown e,
      0 ≤ y.2.timestamp.toInt ∧
      y.2.timestamp.toInt = latest 0 (observe ticksSeen start (done ++ [e]))) ∧
    (∀ channel direction, ((observe shown start events).filter fun y =>
      y.1 = channel ∧ y.2.direction = direction).Pairwise fun a b => a.2.Onward b.2) ∧
    (start.run events).stream.session.monitor =
      monitor.map (·.seeing ((observe reported start events).map Prod.snd)) := by
  intro start
  have everywhere (x : LinkedSession) (e : LinkedEvent) (_ : True) : True := trivial
  refine ⟨?_, ?_, ?_, ?_, run_monitor start events⟩
  · exact (observe_ordered (P := fun _ => True) (R := (· ≤ ·)) pace Tick.toInt Int.le_trans
      everywhere (fun x e _ => x.step_pace e) (fun x e _ => x.timesRead_pace e)
      (fun x e _ => pairwise_of_length_le_one (x.timesRead_length e)) trivial events).2
  · refine (observe_ordered (P := fun _ => True) (R := (· ≤ ·))
      (fun x => x.stream.session.timeline.current.toInt)
      (fun y : UInt8 × Snapshot => y.2.timestamp.toInt)
      Int.le_trans everywhere (fun x e _ => x.step_current_le e) ?_ ?_ trivial events).2
    · intro x e _ y member
      rw [x.shown_time e y member]
      exact ⟨x.step_current_le e, Int.le_refl _⟩
    · intro x e _
      rw [List.pairwise_iff_getElem]
      intro i j hi hj _
      have before := x.shown_time e _ (List.getElem_mem hi)
      have behind := x.shown_time e _ (List.getElem_mem hj)
      exact Int.le_of_eq (congrArg Tick.toInt (before.trans behind.symm))
  · intro done e rest _ y member
    have observed := start.run_latest (done ++ [e])
    rw [run_append] at observed
    change ((start.run done).step e).stream.session.timeline.observed.toInt =
      latest (-0x8000000000000000) _ at observed
    -- a session begins at the least tick, which zero hides
    have floor := max_latest (-0x8000000000000000) 0 (observe ticksSeen start (done ++ [e]))
    rw [shown_time _ e y member, Timeline.current_toInt, observed, floor]
    exact ⟨le_latest 0 _, rfl⟩
  · intro channel direction
    have distinct : (start.stream.session.tx.map (·.channel)).Nodup := by
      change ((c.txChannels.map _).map _).Nodup
      rw [List.map_map]
      exact (List.map_id c.txChannels).symm ▸ c.channels_nodup valid .tx
    rw [← observe_shownOf]
    refine (observe_ordered (P := fun x => (x.stream.session.tx.map (·.channel)).Nodup)
      (R := Within) (fun x => x.stream.session.trafficOn channel direction)
      (fun y : UInt8 × Snapshot => y.2.traffic)
      Within.trans
      (fun x e nodup => x.step_txChannels e ▸ nodup)
      (fun x e _ => x.step_within e channel direction)
      (fun x e nodup => (shownOf_between nodup e channel direction).2)
      (fun x e nodup => pairwise_of_length_le_one (shownOf_between nodup e channel direction).1)
      distinct events).2.imp Snapshot.onward

/-- A channel that sends and receives. -/
def duplex : StreamConfig := { StreamConfig.default with rxChannels := [0], txChannels := [0] }

/-- A sample goes out and two come in while the clock, at first before zero, is set back and then
fails. -/
def adrift : List LinkedEvent :=
  [.link (.setTime (Tick.clamp (-8))), .start, .send false,
    .transmit 0 [(⟨1, -1⟩ : IntSample)] TransferMeta.plain.flushed .poll,
    .link (.setTime (Tick.clamp 6)), .send false, .link (.setTime (Tick.clamp (-20))), .send false,
    .link (.inject [⟨0, Tick.clamp 10, [1, 0, 2, 0, 3, 0, 4, 0]⟩]), .read, .status 0 .rx,
    .link (.fail "unplugged"), .send false, .status 0 .tx]

theorem time_and_counters_onward_adrift :
    let start := setUp duplex (some .recording) (.simulated 2 false)
    duplex.validate 2 = .ok () ∧
    (observe timesRead start adrift).map Tick.toInt = [-8, 6, 6, 12] ∧
    (observe timesRead start adrift).Pairwise (· ≤ ·) ∧
    (observe shown start adrift).map (fun y => (y.2.timestamp.toInt, y.2.traffic.bytes)) =
      [(6, 4), (12, 8), (12, 8), (12, 4)] ∧
    (observe shown start adrift).Pairwise (fun a b => a.2.timestamp ≤ b.2.timestamp) := by
  intro start
  have valid : duplex.validate 2 = .ok () := rfl
  obtain ⟨times, stamps, _⟩ :=
    time_and_counters_onward valid (some .recording) (.simulated 2 false) adrift
  exact ⟨valid, by decide +kernel, times, by decide +kernel, stamps⟩

end LinkedSession
end RadioStream
