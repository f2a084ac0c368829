import RadioStream.Proofs.Transmission.Drain
import RadioStream.Proofs.Transmission.Flush

/-!
When an underrun is counted. The worker remembers the end of the last batch it wrote if the hardware
expects more behind it, and forgets it once it has counted an underrun. What a lane remembers is a
function of the batches written so far, each with the underruns counted before it, so whether a
pass counts one can be told from the history of the channel.
-/
namespace RadioStream

namespace TxLane
variable {l l' : TxLane} {batches : List (Nat × Block)} {b : Block}

/-- What a lane remembers of the batches written on it. Each of them comes with the underruns
counted by then, so none has been counted since the last one if its number is the present one. -/
structure Tracks (l : TxLane) (batches : List (Nat × Block)) : Prop where
  pending : ∀ t ∈ l.tail, ∃ b, batches.getLast? = some (l.traffic.underrun.count, b) ∧
    b.expectsMore = true ∧ b.finish = t
  /-- Only a full counter can show the same number after an underrun. -/
  spent : l.tail = none → ∀ b, batches.getLast? = some (l.traffic.underrun.count, b) →
    b.expectsMore = true → l.traffic.underrun.count = 0xffffffff
  bounded : l.traffic.underrun.count + l.tail.toList.length ≤ batches.countP (·.2.expectsMore)

/-- The lane has nothing more to send when the hardware has passed the end of the last batch, behind
which it expects more, and no underrun has been counted since. -/
def RunsOut (l : TxLane) (batches : List (Nat × Block)) (now : Tick) : Prop :=
  ∃ b, batches.getLast? = some (l.traffic.underrun.count, b) ∧ b.expectsMore = true ∧
    b.finish < now ∧ l.isClear = true

theorem runsOut_iff {now : Tick} : l.RunsOut batches now ↔
    ∃ b, batches.getLast? = some (l.traffic.underrun.count, b) ∧ b.timed = true ∧
      b.flush = false ∧ b.finish < now ∧ l.isClear = true := by
  simp only [RunsOut, Block.expectsMore, Bool.and_eq_true, Bool.not_eq_true', and_assoc]

theorem isClear_settleTail (l : TxLane) (now : Tick) :
    (l.settleTail now).isClear = l.isClear := by
  rw [settleTail]
  split
  · split <;> rfl
  · rfl

namespace Tracks

theorem congr (tracks : l.Tracks batches) (tail : l'.tail = l.tail)
    (count : l'.traffic.underrun = l.traffic.underrun) : l'.Tracks batches := by
  constructor
  · rw [tail, count]
    exact tracks.pending
  · rw [tail, count]
    exact tracks.spent
  · rw [tail, count]
    exact tracks.bounded

/-- A batch that is written takes the place of the one before. -/
theorem write (tracks : l.Tracks batches)
    (tail : l'.tail = if b.expectsMore then some b.finish else none)
    (count : l'.traffic.underrun = l.traffic.underrun) :
    l'.Tracks (batches ++ [(l.traffic.underrun.count, b)]) := by
  have bounded := Nat.le_trans (Nat.le_add_right _ _) tracks.bounded
  cases more : b.expectsMore with
  | true =>
    rw [more, if_pos rfl] at tail
    refine ⟨?_, ?_, ?_⟩
    · rw [tail, count]
      rintro t ⟨rfl⟩
      exact ⟨b, List.getLast?_concat, more, rfl⟩
    · simp [tail]
    · simpa [tail, count, more, List.countP_append] using bounded
  | false =>
    rw [more, if_neg Bool.false_ne_true] at tail
    refine ⟨by simp [tail], ?_, ?_⟩
    · intro _ b' last more'
      rw [List.getLast?_concat] at last
      obtain rfl := (Prod.mk.inj (Option.some.inj last)).2
      exact absurd more' (by simp [more])
    · simpa [tail, count, more, List.countP_append] using bounded

/-- Until the counter is full, the lane remembers the end of the last batch just as long as no
underrun has been counted for it. -/
theorem tail_iff (tracks : l.Tracks batches) (room : l.traffic.underrun.count ≠ 0xffffffff)
    {t : Tick} : l.tail = some t ↔
      ∃ b, batches.getLast? = some (l.traffic.underrun.count, b) ∧ b.expectsMore = true ∧
        b.finish = t := by
  refine ⟨tracks.pending t, ?_⟩
  rintro ⟨b, last, more, rfl⟩
  cases tail : l.tail with
  | none => exact absurd (tracks.spent tail b last more) room
  | some t =>
    obtain ⟨b', last', _, rfl⟩ := tracks.pending t tail
    obtain ⟨_, rfl⟩ := Prod.mk.inj (Option.some.inj (last.symm.trans last'))
    rfl

theorem runsOut_iff_tail (tracks : l.Tracks batches) {finish now : Tick}
    (tail : l.tail = some finish) :
    l.RunsOut batches now ↔ finish < now ∧ l.held = none ∧ l.queue.isEmpty = true := by
  obtain ⟨b, last, more, ends⟩ := tracks.pending finish tail
  rw [← Option.isNone_iff_eq_none, ← Bool.and_eq_true]
  constructor
  · rintro ⟨b', last', _, passed, clear⟩
    obtain ⟨_, rfl⟩ := Prod.mk.inj (Option.some.inj (last.symm.trans last'))
    exact ⟨ends ▸ passed, clear⟩
  · rintro ⟨passed, clear⟩
    exact ⟨b, last, more, ends ▸ passed, clear⟩

/-- The end of a pass counts an underrun if and only if the lane has run out. -/
theorem settle (tracks : l.Tracks batches) (now : Tick) :
    (l.settleTail now).Tracks batches ∧
      (l.RunsOut batches now →
        (l.settleTail now).traffic.underrun.count =
            min (l.traffic.underrun.count + 1) 0xffffffff ∧ (l.settleTail now).tail = none) ∧
      (¬l.RunsOut batches now → l.settleTail now = l) := by
  have limit := l.traffic.underrun.le_limit
  cases tail : l.tail with
  | none =>
    rw [settleTail_of_none tail]
    refine ⟨tracks, ?_, fun _ => rfl⟩
    rintro ⟨b, last, more, _⟩
    exact ⟨by rw [tracks.spent tail b last more]; rfl, tail⟩
  | some finish =>
    have runsOut : l.RunsOut batches now ↔ _ := tracks.runsOut_iff_tail tail
    by_cases out : finish < now ∧ l.held = none ∧ l.queue.isEmpty = true
    · obtain ⟨b, last, _⟩ := tracks.pending finish tail
      have counted : l.settleTail now =
          { l with tail := none, traffic := l.traffic.countUnderrun } := by
        simp [settleTail, tail, out]
      have bounded := tracks.bounded
      rw [tail, Option.toList_some, List.length_singleton] at bounded
      rw [counted]
      refine ⟨⟨by simp, ?_, ?_⟩, fun _ => ⟨rfl, rfl⟩, fun stays => absurd (runsOut.mpr out) stays⟩
      · intro _ b' last' _
        obtain ⟨same, _⟩ := Prod.mk.inj (Option.some.inj (last.symm.trans last'))
        rw [Traffic.countUnderrun, Counter.count_increment] at same ⊢
        omega
      · refine Nat.le_trans ?_ bounded
        exact Nat.min_le_left _ _
    · have stays : l.settleTail now = l := by
        simp [settleTail, tail, out]
      rw [stays]
      exact ⟨tracks, fun run => absurd (runsOut.mp run) out, fun _ => rfl⟩

end Tracks
end TxLane

/-- After an accepted write, and in a pass without one, a lane counts what it ships and settles. -/
theorem TxPass.settled_accepted (p : TxPass) (x : TxLane × Option Shipment) :
    ∃ l : TxLane,
      p.settled (if p.packets.isEmpty then none else some (.ok ())) x = l.settleTail p.now ∧
        l.tail = x.1.tail ∧ l.traffic.underrun = x.1.traffic.underrun := by
  split
  · exact ⟨x.1, rfl, rfl, rfl⟩
  · refine ⟨_, rfl, ?_⟩
    cases x.2 <;> exact ⟨rfl, rfl⟩

namespace Session
variable {s : Session} {channel : UInt8}

/-- The tick behind which the hardware expects more samples of a channel, as long as no underrun is
counted for it. -/
def pendingTail (s : Session) (channel : UInt8) : Option Tick :=
  (s.txOn channel).bind (·.tail)

theorem txOn_eq_none : s.txOn channel = none ↔ channel ∉ s.tx.map (·.channel) := by
  simp only [txOn, List.find?_eq_none, beq_iff_eq, List.mem_map, not_exists, not_and]

end Session

namespace World
variable {done : List Event} {c : StreamConfig} {start w : World} {channel : UInt8}

/-- The batches of a channel in the write of a step, each with the underruns counted before. -/
def batches (channel : UInt8) (w : World) (e : Event) : List (Nat × Block) :=
  ((departed channel w e).filter (!·.isDropped)).map fun d =>
    (w.session.underrunOn channel, d.batch)

/-- In a pass behind a run, whose write is part of the pass, the channel runs out of samples: the
hardware expects more behind the last batch written and has passed its end, no underrun has been
counted since it was written, and the pass leaves nothing in the hand or in the queue. -/
def RunsOut (channel : UInt8) (start : World) (done : List Event) (reading : Except Fault Tick)
    (draining : Bool) : Prop :=
  let w := start.run done
  let e := Event.pass reading draining (.ok ())
  ∃ b, (observe (batches channel) start (done ++ [e])).getLast? =
      some (w.session.underrunOn channel, b) ∧
    b.timed = true ∧ b.flush = false ∧ b.finish < (w.session.timeline.now reading).1 ∧
    (w.step e).session.inHand channel = [] ∧ (w.step e).session.inQueue channel = []

variable {l : TxLane} {past : List (Nat × Block)}

/-- What a pass does to a lane, up to the flag of its queue: some batch is written or none, and then
the lane settles. -/
structure Settles (channel : UInt8) (w : World) (l settling l' : TxLane) (e : Event) (now : Tick) :
    Prop where
  written : batches channel w e = [] ∧ settling.tail = l.tail ∨
    ∃ b, batches channel w e = [(l.traffic.underrun.count, b)] ∧
      settling.tail = if b.expectsMore then some b.finish else none
  count_eq : settling.traffic.underrun = l.traffic.underrun
  settled : l'.unstopped = (settling.settleTail now).unstopped

theorem pass_settles (found : w.session.txOn channel = some l) (reading : Except Fault Tick)
    (draining : Bool) :
    let e := Event.pass reading draining (.ok ())
    ∃ settling l', (w.step e).session.txOn channel = some l' ∧
      Settles channel w l settling l' e (w.session.timeline.now reading).1 := by
  intro e
  obtain ⟨l', x, there, settled, _, effect⟩ :=
    w.session.pass_cases found reading draining (.ok ())
  obtain ⟨settling, accepted, tail, count⟩ :=
    (w.session.beginPass reading draining).settled_accepted x
  have counted := Session.underrunOn_eq found
  refine ⟨settling, l', there, ?_⟩
  rw [accepted] at settled
  rcases effect with ⟨rfl, left⟩ | ⟨b, held, rfl, left⟩ | ⟨b, held, rfl, left⟩
  · refine ⟨.inl ⟨?_, tail.trans (TxLane.pickUp_tail ..)⟩, ?_, settled⟩
    · simp [batches, departed, left, e]
    · rw [count, TxLane.pickUp_traffic]
  · refine ⟨.inl ⟨?_, tail.trans (TxLane.pickUp_tail ..)⟩, ?_, settled⟩
    · simp [batches, departed, left, e, Departure.isDropped]
    · rw [count, TxLane.pickUp_traffic]
      rfl
  · refine ⟨.inr ⟨b, ?_, tail⟩, ?_, settled⟩
    · simp [batches, departed, left, e, Departure.isDropped, counted]
    · rw [count, TxLane.pickUp_traffic]

namespace Settles
variable {settling l' : TxLane} {e : Event} {now : Tick}

theorem settled_eq (settles : Settles channel w l settling l' e now) :
    l'.tail = (settling.settleTail now).tail ∧
      l'.traffic.underrun = (settling.settleTail now).traffic.underrun := by
  have tail := congrArg TxLane.tail settles.settled
  have count := congrArg (·.traffic.underrun) settles.settled
  exact ⟨tail, count⟩

theorem isClear_eq (settles : Settles channel w l settling l' e now) :
    l'.isClear = settling.isClear := by
  have clear := congrArg TxLane.isClear settles.settled
  exact clear.trans (settling.isClear_settleTail now)

theorem tail_eq (settles : Settles channel w l settling l' e now)
    (none : batches channel w e = []) : settling.tail = l.tail := by
  rcases settles.written with ⟨_, tail⟩ | ⟨b, one, _⟩
  · exact tail
  · rw [none] at one
    contradiction

/-- A lane that tracks the batches written on it does so with the ones of a pass, before it settles
and after. -/
theorem tracks (settles : Settles channel w l settling l' e now) (tracks : l.Tracks past) :
    settling.Tracks (past ++ batches channel w e) ∧ l'.Tracks (past ++ batches channel w e) := by
  have settling : settling.Tracks (past ++ batches channel w e) := by
    rcases settles.written with ⟨none, tail⟩ | ⟨b, one, tail⟩
    · rw [none, List.append_nil]
      exact tracks.congr tail settles.count_eq
    · rw [one]
      exact tracks.write tail settles.count_eq
  obtain ⟨tail, count⟩ := settles.settled_eq
  exact ⟨settling, (settling.settle now).1.congr tail count⟩

end Settles

theorem step_tracks (found : w.session.txOn channel = some l) (tracks : l.Tracks past) {e : Event}
    (fine : e.Unfailing) :
    ∃ l', (w.step e).session.txOn channel = some l' ∧ l'.Tracks (past ++ batches channel w e) := by
  have rests (noPass : ∀ reading draining answer, e ≠ .pass reading draining answer) :
      ∃ l', (w.step e).session.txOn channel = some l' ∧ l'.Tracks (past ++ []) := by
    obtain ⟨l', there, rests⟩ := step_rests found noPass
    rw [List.append_nil]
    exact ⟨l', there, tracks.congr rests.tail_eq rests.underrun_eq⟩
  cases e with
  | pass reading draining answer =>
    obtain rfl : answer = .ok () := fine
    obtain ⟨_, l', there, settles⟩ := pass_settles found reading draining
    exact ⟨l', there, (settles.tracks tracks).2⟩
  | _ => exact rests (by simp)

theorem step_absent (absent : w.session.txOn channel = none) (e : Event) :
    (w.step e).session.txOn channel = none ∧ departed channel w e = [] := by
  constructor
  · rw [Session.txOn_eq_none, (w.step_continues e).txChannels_eq, ← Session.txOn_eq_none]
    exact absent
  · rw [List.eq_nil_iff_forall_not_mem]
    intro d left
    obtain ⟨l, found⟩ := found_of_departed left
    exact absurd (found.symm.trans absent) (Option.some_ne_none l)

/-- The lane of a channel tracks what is written on it; nothing is where there is no lane. -/
def Tracks (channel : UInt8) (past : List (Nat × Block)) (w : World) : Prop :=
  (w.session.txOn channel).elim (past = []) (·.Tracks past)

theorem opened_tracks (c : StreamConfig) (monitor : Option Monitor) (clock : Tick)
    (channel : UInt8) : Tracks channel [] (opened c monitor clock) := by
  rw [Tracks]
  cases found : (opened c monitor clock).session.txOn channel with
  | none => rfl
  | some l =>
    have member := List.mem_of_find?_eq_some found
    change l ∈ c.txChannels.map fun channel => TxLane.create channel c.capacity at member
    obtain ⟨_, _, rfl⟩ := List.mem_map.mp member
    exact ⟨by simp [TxLane.create], by simp, Nat.le_refl _⟩

theorem Tracks.step (tracks : Tracks channel past w) {e : Event} (fine : e.Unfailing) :
    Tracks channel (past ++ batches channel w e) (w.step e) := by
  rw [Tracks] at tracks ⊢
  cases found : w.session.txOn channel with
  | none =>
    obtain ⟨absent, nothing⟩ := step_absent found e
    rw [found] at tracks
    obtain rfl : past = [] := tracks
    rw [absent, batches, nothing]
    rfl
  | some l =>
    rw [found] at tracks
    obtain ⟨l', there, tracks⟩ := step_tracks found tracks fine
    rw [there]
    exact tracks

theorem run_tracks (c : StreamConfig) (monitor : Option Monitor) (clock : Tick) (channel : UInt8)
    {done : List Event} (fine : ∀ e ∈ done, e.Unfailing) :
    let start := opened c monitor clock
    Tracks channel (observe (batches channel) start done) (start.run done) := by
  refine run_history (P := fun done w => Tracks channel (observe (batches channel) _ done) w)
    (opened_tracks c monitor clock channel) ?_ fine
  intro done e fine tracks
  rw [observe_append, observe, observe, List.append_nil]
  exact tracks.step fine

/-- A pass without a refused write counts an underrun if and only if the channel has run out. -/
theorem TxSound.pass_counts (sound : TxSound c (start.run done))
    (tracks : Tracks channel (observe (batches channel) start done) (start.run done))
    (reading : Except Fault Tick) (draining : Bool) :
    let w := start.run done
    let after := (w.step (.pass reading draining (.ok ()))).session
    (RunsOut channel start done reading draining →
      after.underrunOn channel = min (w.session.underrunOn channel + 1) 0xffffffff ∧
      after.pendingTail channel = none) ∧
    (¬RunsOut channel start done reading draining →
      after.underrunOn channel = w.session.underrunOn channel ∧
      (batches channel w (.pass reading draining (.ok ())) = [] →
        after.pendingTail channel = w.session.pendingTail channel)) := by
  intro w after
  have history : observe (batches channel) start (done ++ [.pass reading draining (.ok ())]) =
      observe (batches channel) start done ++
        batches channel w (.pass reading draining (.ok ())) := by
    rw [observe_append, observe, observe, List.append_nil]
  rw [RunsOut, history]
  rw [Tracks] at tracks
  cases found : w.session.txOn channel with
  | none =>
    obtain ⟨absent, nothing⟩ := step_absent found (.pass reading draining (.ok ()))
    rw [found] at tracks
    have past : observe (batches channel) start done = [] := tracks
    rw [past, batches, nothing]
    refine ⟨by simp, fun _ => ?_⟩
    simp [Session.underrunOn, Session.pendingTail, found, absent, after]
  | some l =>
    rw [found] at tracks
    obtain ⟨settling, l', there, settles⟩ := pass_settles found reading draining
    have there : after.txOn channel = some l' := there
    have before : w.session.underrunOn channel = settling.traffic.underrun.count := by
      rw [Session.underrunOn_eq found, settles.count_eq]
    have counted := Session.underrunOn_eq there
    have tail : after.pendingTail channel = l'.tail := by
      rw [Session.pendingTail, there]
      rfl
    have clear : settling.isClear = true ↔
        after.inHand channel = [] ∧ after.inQueue channel = [] := by
      rw [← settles.isClear_eq, ← List.append_eq_nil_iff, ← Session.unsent_eq]
      exact (sound.step _).1.session.isClear_on there
    obtain ⟨settledTail, settledCount⟩ := settles.settled_eq
    obtain ⟨_, counts, stays⟩ :=
      (settles.tracks tracks).1.settle (w.session.timeline.now reading).1
    rw [counted, tail, before, settledTail, settledCount, ← clear, ← TxLane.runsOut_iff]
    refine ⟨counts, fun idle => ?_⟩
    rw [stays idle]
    refine ⟨rfl, fun none => ?_⟩
    rw [settles.tail_eq none, Session.pendingTail, found]
    rfl

theorem batches_of_departed {events : List Event} {d : Departure}
    (left : d ∈ observe (departed channel) w events) (sent : d.isDropped = false) :
    ∃ x ∈ observe (batches channel) w events, x.2 = d.batch := by
  induction events generalizing w with
  | nil => contradiction
  | cons e rest ih =>
    simp only [observe, List.mem_append] at left ⊢
    rcases left with now | later
    · refine ⟨(w.session.underrunOn channel, d.batch), .inl ?_, rfl⟩
      exact List.mem_map_of_mem (List.mem_filter.mpr ⟨now, by simp [sent]⟩)
    · obtain ⟨x, inside, same⟩ := ih later
      exact ⟨x, .inr inside, same⟩

/-- From a step that writes a batch on, no underrun is counted while the hardware expects no more
behind any batch that is written. -/
theorem underruns_rest {e : Event} {after : List Event} (writes : batches channel w e ≠ [])
    (last : ∀ x ∈ observe (batches channel) w (e :: after), x.2.expectsMore = false) :
    (w.run (e :: after)).session.underrunOn channel = w.session.underrunOn channel := by
  have out : ∀ d ∈ observe (departed channel) w (e :: after),
      d.isDropped = false → d.batch.expectsMore = false := by
    intro d left sent
    obtain ⟨x, inside, same⟩ := batches_of_departed left sent
    exact same ▸ last x inside
  obtain ⟨now, later⟩ := List.forall_mem_append.mp out
  obtain ⟨x, one⟩ := List.exists_mem_of_ne_nil _ writes
  obtain ⟨d, member, _⟩ := List.mem_map.mp one
  obtain ⟨left, sent⟩ := List.mem_filter.mp member
  obtain ⟨l, found⟩ := found_of_departed left
  obtain ⟨l', there, ended, same⟩ := step_ended found now (.inr ⟨d, left, by simpa using sent⟩)
  rw [Session.underrunOn_eq found, ← same]
  exact run_ended there ended later

theorem Tracks.underrunOn_le (tracks : Tracks channel past w) :
    w.session.underrunOn channel ≤ past.countP (·.2.expectsMore) := by
  rw [Tracks] at tracks
  cases found : w.session.txOn channel with
  | none =>
    rw [Session.underrunOn, found]
    exact Nat.zero_le _
  | some l =>
    rw [found] at tracks
    rw [Session.underrunOn_eq found]
    exact Nat.le_trans (Nat.le_add_right _ _) tracks.bounded

theorem Tracks.pendingTail_iff (tracks : Tracks channel past w)
    (room : w.session.underrunOn channel < 0xffffffff) {t : Tick} :
    w.session.pendingTail channel = some t ↔
      ∃ b, past.getLast? = some (w.session.underrunOn channel, b) ∧ b.expectsMore = true ∧
        b.finish = t := by
  rw [Tracks] at tracks
  rw [Session.pendingTail]
  cases found : w.session.txOn channel with
  | none =>
    rw [found] at tracks
    obtain rfl : past = [] := tracks
    simp
  | some l =>
    rw [found] at tracks
    rw [Session.underrunOn_eq found] at room ⊢
    exact TxLane.Tracks.tail_iff tracks (Nat.ne_of_lt room)

theorem step_underrunOn {e : Event}
    (noPass : ∀ reading draining answer, e ≠ .pass reading draining answer) :
    (w.step e).session.underrunOn channel = w.session.underrunOn channel := by
  cases found : w.session.txOn channel with
  | none => rw [Session.underrunOn, (step_absent found e).1, Session.underrunOn, found]
  | some l =>
    obtain ⟨l', there, rests⟩ := step_rests found noPass
    rw [Session.underrunOn_eq there, Session.underrunOn_eq found, rests.underrun_eq]

/-- Over a run without a refused write, a pass counts one underrun on a channel, as far as its
counter goes, if the channel has run out of samples, and none otherwise; no other step counts any.
So there are no more of them than timed batches written that end no burst, and none from a flushed
or untimed batch on until such a batch is written. The end of the last batch is kept for the next
passes when batches are dropped. -/
theorem underruns_exact {available : UInt8} (valid : c.validate available = .ok ())
    (monitor : Option Monitor) (clock : Tick) (channel : UInt8) {done : List Event}
    (fine : ∀ e ∈ done, e.Unfailing) :
    let start := opened c monitor clock
    let w := start.run done
    let count := w.session.underrunOn channel
    (∀ reading draining,
      let after := (w.step (.pass reading draining (.ok ()))).session
      (RunsOut channel start done reading draining →
        after.underrunOn channel = min (count + 1) 0xffffffff ∧
        after.pendingTail channel = none) ∧
      (¬RunsOut channel start done reading draining →
        after.underrunOn channel = count ∧
        ((∀ d ∈ w.session.departed reading draining channel, d.isDropped = true) →
          after.pendingTail channel = w.session.pendingTail channel))) ∧
    (count < 0xffffffff → ∀ t, w.session.pendingTail channel = some t ↔
      ∃ b, (observe (batches channel) start done).getLast? = some (count, b) ∧
        b.timed = true ∧ b.flush = false ∧ b.finish = t) ∧
    (∀ e : Event, (∀ reading draining answer, e ≠ .pass reading draining answer) →
      (w.step e).session.underrunOn channel = count) ∧
    count ≤ (observe (batches channel) start done).countP (fun x => x.2.timed && !x.2.flush) ∧
    ∀ (e : Event) (after : List Event), batches channel w e ≠ [] →
      (∀ x ∈ observe (batches channel) w (e :: after), (x.2.timed && !x.2.flush) = false) →
        (w.run (e :: after)).session.underrunOn channel = count := by
  intro start w count
  have tracks : Tracks channel (observe (batches channel) start done) w :=
    run_tracks c monitor clock channel fine
  have sound : TxSound c w := run_txSound valid monitor clock done
  refine ⟨fun reading draining => ?_, fun room t => ?_, fun _ => step_underrunOn,
    tracks.underrunOn_le, fun _ _ => underruns_rest⟩
  · obtain ⟨counts, rests⟩ := sound.pass_counts tracks reading draining
    refine ⟨counts, fun idle => ?_⟩
    obtain ⟨same, kept⟩ := rests idle
    refine ⟨same, fun dropped => kept ?_⟩
    simpa [batches, departed] using dropped
  · simp only [tracks.pendingTail_iff room, Block.expectsMore, Bool.and_eq_true,
      Bool.not_eq_true', and_assoc]
    rfl

/-- A batch that is written at tick 8, and two samples for tick 16 that wait in the queue. -/
def trailed : List Event :=
  heldBurst ++ [.pass (.ok (Tick.clamp 8)) false (.ok ()),
    .transmit 0 [(⟨5, -5⟩ : IntSample), ⟨6, -6⟩] (.anchored (Tick.clamp 16))
      (.ok (Tick.clamp 9)) .poll]

/-- At tick 40 the waiting samples are dropped as late, and the underrun behind the batch before
them is counted in the same pass. -/
theorem underruns_exact_dropped :
    let start := opened smallBatches none .zero
    let w := start.run trailed
    let reading : Except Fault Tick := .ok (Tick.clamp 40)
    let after := (w.step (.pass reading false (.ok ()))).session
    smallBatches.validate 2 = .ok () ∧ (∀ e ∈ trailed, e.Unfailing) ∧
      (w.session.departed reading false 0).map (·.isDropped) = [true] ∧
      w.session.pendingTail 0 = some (Tick.clamp 12) ∧
      RunsOut 0 start trailed reading false ∧ w.session.underrunOn 0 = 0 ∧
      after.underrunOn 0 = 1 ∧ after.pendingTail 0 = none := by
  intro start w reading after
  have valid : smallBatches.validate 2 = .ok () := rfl
  have fine : ∀ e ∈ trailed, e.Unfailing := by simp [trailed, heldBurst, Event.Unfailing]
  have out : RunsOut 0 start trailed reading false := by
    let b : Block := ⟨Tick.clamp 8, true, false,
      [1, 0, 255, 255, 2, 0, 254, 255, 3, 0, 253, 255, 4, 0, 252, 255], 4⟩
    refine ⟨b, ?_⟩
    decide +kernel
  have before : w.session.underrunOn 0 = 0 := by decide +kernel
  obtain ⟨passes, _⟩ := underruns_exact valid none .zero 0 fine
  obtain ⟨counted, settled⟩ := (passes reading false).1 out
  have counted : after.underrunOn 0 = min (w.session.underrunOn 0 + 1) 0xffffffff := counted
  rw [before] at counted
  exact ⟨valid, fine, by decide +kernel, by decide +kernel, out, before, counted, settled⟩

end World
end RadioStream
