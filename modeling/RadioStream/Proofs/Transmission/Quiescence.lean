import Mathlib.Algebra.Order.BigOperators.Group.List
import Mathlib.Algebra.Order.Ring.Nat
import RadioStream.Proofs.Queue.Readiness
import RadioStream.Proofs.Transmission.Deadline
import RadioStream.Proofs.Transmission.Flush

/-!
Passes come to rest. While the clock stands still and callers send nothing, every pass either
leaves the lanes as they are or shrinks the work that is left with them; and a lane at rest holds
back no batch but a timed one that is not due, and behind an empty hand only a run that may grow.
-/
namespace RadioStream

namespace Tick

instance : Std.LawfulOrderInf Tick where
  le_min_iff r s t := by
    simp only [le_def, toInt_min]
    omega

theorem later_lt {s t : Tick} {n : Nat} : s.later n < t ↔ s.toInt + n < t.toInt := by
  have := t.lt_bound
  rw [lt_def, toInt_later]
  omega

theorem not_le {s t : Tick} : ¬s ≤ t ↔ t < s := by
  rw [le_def, lt_def]
  omega

end Tick

namespace Timeline

/-- A reading that was observed is the time from then on. -/
theorem now_now (l : Timeline) (reading : Except Fault Tick) :
    (l.now reading).2.now reading = l.now reading := by
  cases reading with
  | error fault => rfl
  | ok t =>
    have same : max (max l.observed t) t = max l.observed t := by
      apply Tick.ext
      simp only [Tick.toInt_max]
      omega
    simp only [now, observe, same]

theorem isDue_eq_false {l : Timeline} {t now : Tick} :
    l.isDue t now = false ↔ now.toInt + l.lead < t.toInt := by
  rw [isDue, decide_eq_false_iff_not, Tick.not_le, Tick.later_lt]

end Timeline

namespace TxLane
variable {size batch : Nat} {l : TxLane} {now : Tick}

/-- What passes have to do with a lane at most: every sample may be a batch to take, a batch may
leave the hand, and the tail it leaves may run out. -/
def work (l : TxLane) : Nat :=
  3 * l.queue.queued + l.held.elim 0 (fun _ => 2) + l.tail.elim 0 fun _ => 1

theorem Sound.pickUp_work (sound : l.Sound size) (room : 0 < batch) (draining : Bool)
    (due : Tick → Bool) : l.pickUp batch draining due = l ∨
      (l.pickUp batch draining due).work < l.work := by
  rw [TxLane.pickUp]
  split
  · exact .inl rfl
  · next empty =>
    split
    · next run rest ready =>
      obtain ⟨counted, filled⟩ :=
        sound.queue.takeRun?_counted (ChannelQueue.takeRun?_of_takeReady? ready)
      have := filled room
      right
      simp only [work, empty, Option.elim]
      omega
    · exact .inl rfl

theorem depart_work (l : TxLane) (gate : Option Tick) (late : Tick → Bool) (packetSamples : Nat) :
    (l.leaves gate = false ∧ l.depart gate late packetSamples = (l, none)) ∨
      (l.depart gate late packetSamples).1.work < l.work := by
  rcases l.depart_cases gate late packetSamples with stays | ⟨b, held, _, _, _, departs⟩ |
    ⟨b, held, _, _, departs⟩
  · exact .inl stays
  · right
    simp only [departs, work, held, Option.elim]
    omega
  · have one (t : Option Tick) : t.elim 0 (fun _ => 1) ≤ 1 := by cases t <;> simp
    have := one (if b.timed && !b.flush then some b.finish else none)
    right
    simp only [departs, work, held, Option.elim_some, Option.elim_none]
    omega

theorem settleTail_work (l : TxLane) (now : Tick) :
    l.settleTail now = l ∨ (l.settleTail now).work < l.work := by
  rw [settleTail]
  split
  · next finish tail =>
    split
    · right
      simp [work, tail]
    · exact .inl rfl
  · exact .inl rfl

theorem pickUp_eq_self {draining : Bool} {due : Tick → Bool} : l.pickUp batch draining due = l ↔
    (l.held = none → l.queue.takeReady? batch draining due = none) := by
  rw [pickUp]
  split
  · next held => simp [held]
  · next empty =>
    split
    · next run queue ready =>
      refine iff_of_false (fun same => ?_) (by simp [empty, ready])
      have held := congrArg TxLane.held same
      rw [empty] at held
      contradiction
    · next nothing => simp [nothing]

theorem settleTail_eq_self : l.settleTail now = l ↔
    ∀ finish, l.tail = some finish → l.isClear = true → now ≤ finish := by
  rw [settleTail]
  cases tail : l.tail with
  | none => simp
  | some finish =>
    simp only [Option.some.injEq, forall_eq']
    split
    · next past =>
      refine iff_of_false (fun same => ?_) (fun early => ?_)
      · rw [← same] at tail
        contradiction
      · exact Tick.not_le.mpr past.1 (early (by simp [isClear, past.2.1, past.2.2]))
    · next stands =>
      refine iff_of_true rfl (fun clear => ?_)
      rw [isClear, Bool.and_eq_true, Option.isNone_iff_eq_none] at clear
      rw [← Decidable.not_not (p := now ≤ finish), Tick.not_le]
      exact fun past => stands ⟨past, clear.1, clear.2⟩

/-- A lane with nothing that could go: a batch in hand is timed and its lead has not begun; behind
an empty hand there is one run that may grow, not due either; and a tail has not passed while
nothing follows it. -/
structure AtRest (batch : Nat) (now : Tick) (l : TxLane) : Prop where
  held : ∀ b, l.held = some b → b.timed = true ∧ now.toInt + batch < b.start.toInt
  queue : l.held = none → l.queue.Growing batch ∧
    ∀ front ∈ l.queue.blocks.head?, front.timed = true → now.toInt + batch < front.start.toInt
  tail : ∀ finish, l.tail = some finish → l.isClear = true → now ≤ finish

/-- Samples that would make a batch stay in the queue only behind one that is not due. -/
theorem AtRest.held_of_ready (rest : l.AtRest batch now) (ready : ¬l.queue.Growing batch) :
    ∃ b, l.held = some b ∧ b.timed = true ∧ now.toInt + batch < b.start.toInt := by
  cases held : l.held with
  | none => exact absurd (rest.queue held).1 ready
  | some b => exact ⟨b, rfl, rest.held b held⟩

end TxLane

namespace Session
variable {s : Session} {reading : Except Fault Tick} {draining : Bool} {l : TxLane}

def work (s : Session) : Nat := (s.tx.map TxLane.work).sum

/-- A lane that a pass of the session leaves as it is. -/
structure Idle (s : Session) (reading : Except Fault Tick) (draining : Bool) (l : TxLane) :
    Prop where
  pickUp_eq : l.pickUp s.config.txBatch draining
    ((s.timeline.now reading).2.isDue · (s.timeline.now reading).1) = l
  leaves_eq : l.leaves (s.passGate reading draining) = false
  settleTail_eq : l.settleTail (s.timeline.now reading).1 = l

theorem loaded_of_idle (idle : ∀ l ∈ s.tx, s.Idle reading draining l) :
    s.loaded reading draining = s.tx :=
  (List.map_congr_left fun l member => (idle l member).pickUp_eq).trans (List.map_id _)

/-- A write that does not fail leaves nothing more to do with a lane. -/
theorem settled_work (p : TxPass) {outcome : Option (Except Fault Unit)}
    (written : ∀ reason, outcome ≠ some (.error reason)) (x : TxLane × Option Shipment) :
    (p.settled outcome x).work ≤ x.1.work := by
  have settled (l : TxLane) : (l.settleTail p.now).work ≤ l.work := by
    rcases l.settleTail_work p.now with same | less
    · rw [same]
    · exact Nat.le_of_lt less
  rcases outcome with _ | (reason | ⟨⟩)
  · exact settled x.1
  · exact absurd rfl (written reason)
  · cases ships : x.2 with
    | none => simpa [TxPass.settled, ships] using settled x.1
    | some shipment =>
      have same : (x.1.shipped shipment).work = x.1.work := rfl
      simpa [TxPass.settled, ships, same] using settled (x.1.shipped shipment)

/-- In one pass a lane is left as it is, or there is less to do with it. -/
theorem TxSound.turn_work (sound : s.TxSound) (reading : Except Fault Tick) (draining : Bool)
    (member : l ∈ s.tx) {outcome : Option (Except Fault Unit)}
    (written : ∀ reason, outcome ≠ some (.error reason)) :
    let now := (s.timeline.now reading).1
    let timeline := (s.timeline.now reading).2
    let p := s.beginPass reading draining
    let turned := p.settled outcome ((l.pickUp s.config.txBatch draining
      (timeline.isDue · now)).depart (s.passGate reading draining) (timeline.isLate · now)
        s.config.txPacket)
    s.Idle reading draining l ∧ turned = l ∨ turned.work < l.work := by
  intro now timeline p turned
  dsimp only [turned]
  have laneSound := sound.lanes l.channel l (find?_of_mem sound.distinct member)
  generalize picks : l.pickUp s.config.txBatch draining (timeline.isDue · now) = picked
  have picked_le := laneSound.pickUp_work s.config.txBatch_pos draining (timeline.isDue · now)
  rw [picks] at picked_le
  rcases picked.depart_work (s.passGate reading draining) (timeline.isLate · now)
    s.config.txPacket with ⟨stays, departs⟩ | departs
  · rcases picked_le with rfl | less
    · have settled : p.settled outcome (picked, none) = picked.settleTail now := by
        rcases outcome with _ | (reason | ⟨⟩)
        · rfl
        · exact absurd rfl (written reason)
        · rfl
      rw [departs, settled]
      exact (picked.settleTail_work now).imp_left fun same => ⟨⟨picks, stays, same⟩, same⟩
    · right
      rw [departs]
      exact Nat.lt_of_le_of_lt (settled_work p written (picked, none)) less
  · right
    have := settled_work p written (picked.depart (s.passGate reading draining)
      (timeline.isLate · now) s.config.txPacket)
    rcases picked_le with rfl | less <;> omega

/-- A session that has read the clock. -/
def observing (s : Session) (reading : Except Fault Tick) : Session :=
  { s with timeline := (s.timeline.now reading).2 }

theorem pass_observing (s : Session) (reading : Except Fault Tick) (draining : Bool)
    (answer : Except Fault Unit) :
    (s.observing reading).pass reading draining answer = s.pass reading draining answer := by
  have same : (s.observing reading).beginPass reading draining = s.beginPass reading draining := by
    simp only [beginPass, observing, Timeline.now_now]
  rw [pass, pass, same]

/-- A pass that leaves all lanes as they are changes nothing but the time observed. -/
theorem pass_of_idle (idle : ∀ l ∈ s.tx, s.Idle reading draining l) (answer : Except Fault Unit) :
    s.pass reading draining answer = s.observing reading ∧
      (s.beginPass reading draining).packets = [] := by
  have lanes : (s.beginPass reading draining).lanes = s.tx.map (·, none) := by
    rw [beginPass_lanes, loaded_of_idle idle]
    apply List.map_congr_left
    intro l member
    rcases l.depart_cases (s.passGate reading draining)
      ((s.timeline.now reading).2.isLate · (s.timeline.now reading).1) s.config.txPacket with
      ⟨_, departs⟩ | ⟨_, _, leaves, _⟩ | ⟨_, _, leaves, _⟩
    · exact departs
    · exact absurd leaves (Bool.eq_false_iff.mp (idle l member).leaves_eq)
    · exact absurd leaves (Bool.eq_false_iff.mp (idle l member).leaves_eq)
  have packets : (s.beginPass reading draining).packets = [] := by
    simp [TxPass.packets, TxPass.shipments, lanes, List.filterMap_map]
  have kept : (s.beginPass reading draining).kept.map (·.settleTail (s.timeline.now reading).1) =
      s.tx := by
    rw [TxPass.kept, lanes, List.map_map, List.map_map]
    exact (List.map_congr_left fun l member => (idle l member).settleTail_eq).trans (List.map_id _)
  refine ⟨?_, packets⟩
  rw [pass, packets]
  exact congrArg (fun tx => ({ s.observing reading with tx := tx } : Session)) kept

/-- A pass either leaves all lanes as they are or leaves less to do. -/
theorem TxSound.pass_work (sound : s.TxSound) (reading : Except Fault Tick) (draining : Bool) :
    (∀ l ∈ s.tx, s.Idle reading draining l) ∨
      (s.pass reading draining (.ok ())).work < s.work := by
  let p := s.beginPass reading draining
  let outcome : Option (Except Fault Unit) := if p.packets.isEmpty then none else some (.ok ())
  have written (reason : Fault) : outcome ≠ some (.error reason) := by
    dsimp only [outcome]
    split <;> simp
  have turns (l : TxLane) (member : l ∈ s.tx) :=
    sound.turn_work reading draining member written
  have after : (s.pass reading draining (.ok ())).tx.map TxLane.work = s.tx.map fun l =>
      (p.settled outcome ((l.pickUp s.config.txBatch draining
        ((s.timeline.now reading).2.isDue · (s.timeline.now reading).1)).depart
          (s.passGate reading draining)
          ((s.timeline.now reading).2.isLate · (s.timeline.now reading).1)
          s.config.txPacket)).work := by
    have works := congrArg (List.map TxLane.work) (p.finish_unstopped outcome)
    rw [List.map_map, List.map_map, beginPass_lanes, loaded, List.map_map, List.map_map] at works
    exact works
  by_cases idle : ∀ l ∈ s.tx, s.Idle reading draining l
  · exact .inl idle
  · right
    rw [work, after, work]
    refine List.sum_lt_sum _ _ (fun l member => ?_) ?_
    · rcases turns l member with ⟨_, same⟩ | less
      · rw [same]
      · exact Nat.le_of_lt less
    · simp only [not_forall] at idle
      obtain ⟨l, member, moves⟩ := idle
      exact ⟨l, member, (turns l member).resolve_left fun stays => moves stays.1⟩

/-- The gate is shut where no batch in hand is due. -/
theorem gate_eq_none {now : Tick} {timeline : Timeline} {lanes : List TxLane} :
    gate now timeline false lanes = none ↔
      ∀ l ∈ lanes, ∀ t, l.waitsFor? = some t → now.toInt + timeline.lead < t.toInt := by
  simp only [gate, Bool.false_or, Option.filter_eq_none_iff]
  constructor
  · intro shut l member t waits
    have inside : t ∈ lanes.filterMap (·.waitsFor?) := List.mem_filterMap.mpr ⟨l, member, waits⟩
    cases earliest : (lanes.filterMap (·.waitsFor?)).min? with
    | none =>
      rw [List.min?_eq_none_iff] at earliest
      rw [earliest] at inside
      contradiction
    | some first =>
      have before : first ≤ t := (List.le_min?_iff earliest).mp (Int.le_refl _) t inside
      have later := shut first earliest
      rw [Bool.not_eq_true, Timeline.isDue_eq_false] at later
      rw [Tick.le_def] at before
      omega
  · intro later t earliest
    obtain ⟨l, member, waits⟩ := List.mem_filterMap.mp (List.min?_mem earliest)
    rw [Bool.not_eq_true, Timeline.isDue_eq_false]
    exact later l member t waits

/-- A pass that leaves all lanes as they are finds its gate shut. -/
theorem passGate_of_idle (idle : ∀ l ∈ s.tx, s.Idle reading draining l) :
    s.passGate reading draining = none := by
  rw [Option.eq_none_iff_forall_ne_some]
  intro t opened
  have earliest := (gate_eq_some.mp opened).1
  obtain ⟨first, inside, waits⟩ := List.mem_filterMap.mp (List.min?_mem earliest)
  rw [loaded_of_idle idle] at inside
  obtain ⟨b, held, _, rfl⟩ := TxLane.waitsFor?_eq_some.mp waits
  exact (TxLane.leaves_eq_false.mp (idle first inside).leaves_eq b held).2 opened

/-- Passes leave the lanes as they are exactly where none has anything that could go. -/
theorem TxSound.idle_iff (sound : s.TxSound) (lead : s.timeline.lead = s.config.txBatch)
    (reading : Except Fault Tick) : (∀ l ∈ s.tx, s.Idle reading false l) ↔
      ∀ l ∈ s.tx, l.AtRest s.config.txBatch (s.timeline.now reading).1 := by
  have leadNow : (s.timeline.now reading).2.lead = s.config.txBatch :=
    (Timeline.now_lead _ _).trans lead
  have growing (l : TxLane) (member : l ∈ s.tx) :=
    (sound.lanes l.channel l (find?_of_mem sound.distinct member)).queue.runReady_eq_false
      s.config.txBatch_pos
  constructor
  · intro idle l member
    have waits := gate_eq_none.mp (passGate_of_idle idle)
    rw [loaded_of_idle idle, leadNow] at waits
    refine ⟨fun b held => ?_, fun empty => ?_, TxLane.settleTail_eq_self.mp
      (idle l member).settleTail_eq⟩
    · have timed := (TxLane.leaves_eq_false.mp (idle l member).leaves_eq b held).1
      exact ⟨timed, waits l member _ (TxLane.waitsFor?_eq_some.mpr ⟨b, held, timed, rfl⟩)⟩
    · have nothing := TxLane.pickUp_eq_self.mp (idle l member).pickUp_eq empty
      obtain ⟨unready, early⟩ := ChannelQueue.takeReady?_eq_none.mp nothing
      refine ⟨(growing l member).mp unready, fun front first timed => ?_⟩
      have later := Timeline.isDue_eq_false.mp (early front first timed)
      rwa [leadNow] at later
  · intro rest
    have picks (l : TxLane) (member : l ∈ s.tx) : l.pickUp s.config.txBatch false
        ((s.timeline.now reading).2.isDue · (s.timeline.now reading).1) = l := by
      refine TxLane.pickUp_eq_self.mpr fun empty => ?_
      obtain ⟨grows, early⟩ := (rest l member).queue empty
      refine ChannelQueue.takeReady?_eq_none.mpr ⟨(growing l member).mpr grows, ?_⟩
      intro front first timed
      rw [Timeline.isDue_eq_false, leadNow]
      exact early front first timed
    have loaded : s.loaded reading false = s.tx :=
      (List.map_congr_left picks).trans (List.map_id _)
    have shut : s.passGate reading false = none := by
      rw [passGate, loaded, gate_eq_none, leadNow]
      intro l member t waits
      obtain ⟨b, held, _, rfl⟩ := TxLane.waitsFor?_eq_some.mp waits
      exact ((rest l member).held b held).2
    intro l member
    refine ⟨picks l member, ?_, TxLane.settleTail_eq_self.mpr (rest l member).tail⟩
    rw [shut, TxLane.leaves_eq_false]
    exact fun b held => ⟨((rest l member).held b held).1, Option.some_ne_none _ ∘ Eq.symm⟩

end Session

namespace World
variable {c : StreamConfig} {w : World}

/-- A pass of the transmit worker that has seen no halt and whose write succeeds. -/
def calmPass (reading : Except Fault Tick) : Event := .pass reading false (.ok ())

/-- A world in which such a pass changes nothing but the time observed. -/
def Settled (reading : Except Fault Tick) (w : World) : Prop :=
  w.step (calmPass reading) = { w with session := w.session.observing reading }

theorem Settled.pass_eq {reading : Except Fault Tick} (settled : w.Settled reading) :
    w.session.pass reading false (.ok ()) = w.session.observing reading :=
  congrArg World.session settled

theorem Settled.step {reading : Except Fault Tick} (settled : w.Settled reading) :
    (w.step (calmPass reading)).Settled reading := by
  have again : (w.session.observing reading).observing reading = w.session.observing reading := by
    simp only [Session.observing, Timeline.now_now]
  have passed := settled.pass_eq
  rw [settled]
  change ({ w with session := _ } : World) = { w with session := _ }
  rw [again, Session.pass_observing, passed]

/-- Before a world has settled every pass leaves less to do; from then on it changes nothing. -/
theorem TxSound.settled_iff (sound : TxSound c w) (reading : Except Fault Tick) :
    w.Settled reading ↔ ∀ l ∈ w.session.tx, w.session.Idle reading false l := by
  constructor
  · intro settled
    refine (sound.session.pass_work reading false).resolve_right fun less => ?_
    rw [settled.pass_eq] at less
    exact Nat.lt_irrefl _ less
  · intro idle
    exact congrArg (fun s => ({ w with session := s } : World))
      (Session.pass_of_idle idle (.ok ())).1

theorem Settled.run {reading : Except Fault Tick} (settled : w.Settled reading) (k : Nat) :
    (w.run (List.replicate k (calmPass reading))).Settled reading := by
  induction k generalizing w with
  | zero => exact settled
  | succ k ih => exact ih settled.step

theorem TxSound.settles (sound : TxSound c w) (reading : Except Fault Tick) :
    ∃ n ≤ w.session.work, ∀ k ≥ n,
      (w.run (List.replicate k (calmPass reading))).Settled reading := by
  induction work : w.session.work using Nat.strong_induction_on generalizing w with
  | _ bound ih =>
    by_cases settled : w.Settled reading
    · exact ⟨0, Nat.zero_le _, fun k _ => settled.run k⟩
    · have less : (w.step (calmPass reading)).session.work < w.session.work :=
        (sound.session.pass_work reading false).resolve_left
          (mt (sound.settled_iff reading).mpr settled)
      obtain ⟨n, few, later⟩ := ih _ (work ▸ less) (sound.step _).1 rfl
      refine ⟨n + 1, by omega, fun k many => ?_⟩
      obtain ⟨k, rfl⟩ := Nat.exists_eq_add_of_lt (Nat.lt_of_lt_of_le (Nat.succ_pos n) many)
      rw [Nat.zero_add]
      exact later k (by omega)

/-- From every state that callers, workers and clock can bring about: while the clock stands still,
nothing is sent and no write fails, at most as many passes as there is work change anything, and
those behind them change nothing. A pass changes nothing exactly where all transmit lanes are at
rest, and then a gap, the end of a burst or a batch full of samples stays in a queue only behind a
timed batch of the same channel that is not due. -/
theorem passes_settle {available : UInt8} (valid : c.validate available = .ok ())
    (monitor : Option Monitor) (clock : Tick) (past : List Event) (reading : Except Fault Tick) :
    let w := (opened c monitor clock).run past
    let now := (w.session.timeline.now reading).1
    (∃ n ≤ w.session.work, ∀ k ≥ n,
      (w.run (List.replicate k (calmPass reading))).Settled reading ∧
        offered (w.run (List.replicate k (calmPass reading))) (calmPass reading) = []) ∧
    (w.Settled reading ↔ ∀ l ∈ w.session.tx, l.AtRest c.txBatch now) ∧
    (w.Settled reading → ∀ l ∈ w.session.tx, ¬l.queue.Growing c.txBatch →
      ∃ b, l.held = some b ∧ b.timed = true ∧ now.toInt + c.txBatch < b.start.toInt) := by
  intro w now
  have sound : TxSound c w := run_txSound valid monitor clock past
  have lead := run_lead c monitor clock past
  have rest : w.Settled reading ↔ ∀ l ∈ w.session.tx, l.AtRest c.txBatch now := by
    have idle := sound.session.idle_iff (lead.trans (by rw [sound.config_eq])) reading
    rw [sound.config_eq] at idle
    exact (sound.settled_iff reading).trans idle
  refine ⟨?_, rest, fun settled l member => (rest.mp settled l member).held_of_ready⟩
  obtain ⟨n, few, later⟩ := sound.settles reading
  refine ⟨n, few, fun k many => ⟨later k many, ?_⟩⟩
  have behind : TxSound c (w.run (List.replicate k (calmPass reading))) := by
    dsimp only [w]
    rw [← run_append]
    exact run_txSound valid monitor clock _
  exact (Session.pass_of_idle ((behind.settled_iff reading).mp (later k many)) (.ok ())).2

/-- A flushed sample behind a batch that waits for tick 8 in the hand. -/
def behindEarly : List Event :=
  early ++ [.transmit 0 [(⟨3, -3⟩ : IntSample)] TransferMeta.plain.flushed
    (.ok (Tick.clamp 3)) .poll]

theorem passes_settle_early :
    let w := (opened smallBatches none .zero).run behindEarly
    let reading : Except Fault Tick := .ok (Tick.clamp 3)
    smallBatches.validate 2 = .ok () ∧ w.session.work = 5 ∧
      (∃ n ≤ w.session.work, ∀ k ≥ n,
        (w.run (List.replicate k (calmPass (.ok (Tick.clamp 8))))).Settled (.ok (Tick.clamp 8))) ∧
      w.Settled reading ∧ (∀ l ∈ w.session.tx, l.AtRest smallBatches.txBatch (Tick.clamp 3)) ∧
      w.session.tx.map (fun l => (l.held.map (·.start), l.queue.blocks.map (·.flush))) =
        [(none, []), (some (Tick.clamp 8), [true])] := by
  intro w reading
  have valid : smallBatches.validate 2 = .ok () := rfl
  obtain ⟨settles, _⟩ :=
    passes_settle valid none .zero behindEarly (.ok (Tick.clamp 8))
  obtain ⟨_, rest, _⟩ := passes_settle valid none .zero behindEarly reading
  have settled : w.Settled reading := rfl
  obtain ⟨n, few, later⟩ := settles
  exact ⟨valid, by decide +kernel, ⟨n, few, fun k many => (later k many).1⟩, settled,
    rest.mp settled, by decide +kernel⟩

end World
end RadioStream
