import RadioStream.Proofs.Transmission.Progress

/-!
Draining after a halt. The loop of the transmit worker ends with the first pass behind
the halt that leaves nothing to send or whose write is refused. Every pass before it
lets some batch go, so there are at most as many as there are samples left.
-/
namespace RadioStream

/-- Where no part grows, the whole does not. -/
theorem length_flatMap_le {α β : Type} {f g : α → List β} {list : List α}
    (le : ∀ a ∈ list, (f a).length ≤ (g a).length) :
    (list.flatMap f).length ≤ (list.flatMap g).length := by
  induction list with
  | nil => exact Nat.le_refl _
  | cons first rest ih =>
    obtain ⟨here, there⟩ := List.forall_mem_cons.mp le
    simp only [List.flatMap_cons, List.length_append]
    exact Nat.add_le_add here (ih there)

/-- Where no part grows and one shrinks, the whole shrinks. -/
theorem length_flatMap_lt {α β : Type} {f g : α → List β} {list : List α}
    (le : ∀ a ∈ list, (f a).length ≤ (g a).length)
    (lt : ∃ a ∈ list, (f a).length < (g a).length) :
    (list.flatMap f).length < (list.flatMap g).length := by
  induction list with
  | nil => simp at lt
  | cons first rest ih =>
    obtain ⟨here, there⟩ := List.forall_mem_cons.mp le
    simp only [List.flatMap_cons, List.length_append]
    by_cases smaller : ∃ a ∈ rest, (f a).length < (g a).length
    · have := ih there smaller
      omega
    · have same : rest.map (List.length ∘ f) = rest.map (List.length ∘ g) :=
        List.map_congr_left fun a member => Nat.le_antisymm (there a member)
          (Nat.le_of_not_lt fun less => smaller ⟨a, member, less⟩)
      have others : (rest.flatMap f).length = (rest.flatMap g).length := by
        rw [List.length_flatMap, List.length_flatMap]
        exact congrArg List.sum same
      obtain ⟨a, member, less⟩ := lt
      rcases List.mem_cons.mp member with rfl | behind
      · omega
      · exact absurd ⟨a, behind, less⟩ smaller

namespace Session
variable {s t : Session}

/-- The number of samples that wait in hands and queues. -/
def unsentCount (s : Session) : Nat := ((s.tx.map (·.channel)).flatMap s.unsent).length

theorem TxSound.isClear_on (sound : s.TxSound) {channel : UInt8} {l : TxLane}
    (found : s.txOn channel = some l) : l.isClear = true ↔ s.unsent channel = [] := by
  rw [(sound.lanes channel l found).isClear_iff, unsent, found]
  rfl

theorem TxSound.isClear_iff (sound : s.TxSound) :
    s.isClear = true ↔ ∀ channel, s.unsent channel = [] := by
  rw [isClear, List.all_eq_true]
  constructor
  · intro clear channel
    cases found : s.txOn channel with
    | none =>
      rw [unsent, found]
      rfl
    | some l => exact (sound.isClear_on found).mp (clear l (List.mem_of_find?_eq_some found))
  · intro none l member
    exact (sound.isClear_on (find?_of_mem sound.distinct member)).mpr (none l.channel)

theorem TxSound.unsentCount_pos (sound : s.TxSound) (left : s.isClear = false) :
    0 < s.unsentCount := by
  obtain ⟨l, member, more⟩ := List.all_eq_false.mp left
  have content : s.unsent l.channel ≠ [] :=
    mt (sound.isClear_on (find?_of_mem sound.distinct member)).mpr more
  refine List.length_pos_iff.mpr fun none => content ?_
  exact List.flatMap_eq_nil_iff.mp none l.channel (List.mem_map_of_mem member)

theorem TxSound.unsentCount_eq_zero (sound : s.TxSound) (clear : s.isClear = true) :
    s.unsentCount = 0 := by
  rw [unsentCount, List.length_eq_zero_iff, List.flatMap_eq_nil_iff]
  exact fun channel _ => sound.isClear_iff.mp clear channel

theorem TxSound.pass_shrinks (sound : s.TxSound) (left : s.isClear = false)
    (reading : Except Fault Tick) (answer : Except Fault Unit) :
    (s.pass reading true answer).unsentCount < s.unsentCount := by
  obtain ⟨_, moved⟩ := sound.pass reading true answer
  have cut (channel : UInt8) : (s.unsent channel).length =
      ((s.departed reading true channel).flatMap (·.batch.content)).length +
        ((s.pass reading true answer).unsent channel).length := by
    have balance := congrArg List.length (moved channel).1.content_eq
    rwa [List.append_nil, List.length_append] at balance
  rw [unsentCount, unsentCount, (s.pass_continues reading true answer).txChannels_eq]
  refine length_flatMap_lt (?_) ?_
  · intro channel _
    have := cut channel
    omega
  · obtain ⟨channel, listed, departs⟩ := sound.pass_progress left reading
    obtain ⟨d, rest, departed⟩ := List.exists_cons_of_ne_nil departs
    have stored := ((moved channel).2.2 d (by rw [departed]; exact List.mem_cons_self)).2.1
    have := stored.length_pos
    have := cut channel
    rw [departed, List.flatMap_cons, List.length_append, stored.toWhole.length_content] at this
    exact ⟨channel, listed, by omega⟩

end Session

namespace Event

def isPass : Event → Bool
  | .pass _ _ _ => true
  | _ => false

/-- A step behind a halt that the transmit worker has seen. -/
def SeesHalt : Event → Prop
  | .pass _ draining _ => draining = true
  | _ => True

end Event

namespace World
variable {c : StreamConfig} {w : World}

/-- Whether the loop of the transmit worker ends with a step: with a pass whose write is
refused, or a draining one that leaves nothing to send. -/
def ends (w : World) : Event → Bool
  | .pass reading draining answer =>
    (!(w.session.beginPass reading draining).packets.isEmpty && !answer.isOk) ||
      (draining && (w.session.pass reading draining answer).isClear)
  | _ => false

/-- The steps up to the end of the loop, if it comes. -/
def drained? (w : World) : List Event → Option (List Event)
  | [] => none
  | e :: rest => if w.ends e then some [e] else ((w.step e).drained? rest).map (e :: ·)

theorem drained?_spec {later steps : List Event} (drained : w.drained? later = some steps) :
    steps <+: later ∧ ∃ done e, steps = done ++ [e] ∧ (w.run done).ends e = true := by
  induction later generalizing w steps with
  | nil => contradiction
  | cons e rest ih =>
    unfold drained? at drained
    split at drained
    · next ended =>
      obtain rfl := Option.some.inj drained
      exact ⟨⟨rest, rfl⟩, [], e, rfl, ended⟩
    · obtain ⟨others, goesOn, rfl⟩ := Option.map_eq_some_iff.mp drained
      obtain ⟨before, done, last, rfl, ended⟩ := ih goesOn
      exact ⟨List.prefix_cons_inj e |>.mpr before, e :: done, last, rfl, ended⟩

structure Halted (c : StreamConfig) (w : World) : Prop where
  sound : TxSound c w
  closed : w.session.Closed
  halted : w.session.halted = true

theorem Halted.step (h : Halted c w) (e : Event) : Halted c (w.step e) :=
  ⟨(h.sound.step e).1, (step_closed h.closed e).1, ((step_closed h.closed e).2 h.halted).1⟩

/-- After the halt samples only leave. -/
theorem Halted.leaving (h : Halted c w) (e : Event) (channel : UInt8) :
    w.session.unsent channel ++ [] =
      (departed channel w e).flatMap (·.batch.content) ++ (w.step e).session.unsent channel := by
  have balance := ((h.sound.step e).2 channel).content_eq
  rwa [accepted_halted h.closed h.halted] at balance

theorem Halted.unsentCount_step (h : Halted c w) {e : Event} (other : e.isPass = false) :
    (w.step e).session.unsentCount = w.session.unsentCount := by
  have same : (w.step e).session.unsent = w.session.unsent := by
    funext channel
    have leaving := h.leaving e channel
    have nothing : departed channel w e = [] := by
      cases e with
      | pass reading draining answer => contradiction
      | _ => rfl
    rw [nothing, List.append_nil] at leaving
    exact leaving.symm
  rw [Session.unsentCount, Session.unsentCount, (w.step_continues e).txChannels_eq, same]

/-- A draining pass that does not end the loop had samples left, and leaves fewer. -/
theorem Halted.pass_shrinks (h : Halted c w) {reading : Except Fault Tick}
    {answer : Except Fault Unit} (goesOn : w.ends (.pass reading true answer) = false) :
    (w.step (.pass reading true answer)).session.unsentCount < w.session.unsentCount ∧
      0 < (w.step (.pass reading true answer)).session.unsentCount := by
  have after := (h.step (.pass reading true answer)).sound.session
  have more : (w.session.pass reading true answer).isClear = false := by
    rw [ends, Bool.or_eq_false_iff, Bool.true_and] at goesOn
    exact goesOn.2
  refine ⟨h.sound.session.pass_shrinks ?_ reading answer, after.unsentCount_pos more⟩
  refine Bool.eq_false_iff.mpr fun clear => Bool.eq_false_iff.mp more (after.isClear_iff.mpr ?_)
  intro channel
  have leaving := h.leaving (.pass reading true answer) channel
  rw [h.sound.session.isClear_iff.mp clear channel, List.append_nil] at leaving
  exact (List.append_eq_nil_iff.mp leaving.symm).2

/-- The loop ends within as many passes as samples are left, or within one. -/
theorem Halted.drained (h : Halted c w) {later : List Event}
    (seeing : ∀ e ∈ later, e.SeesHalt)
    (passes : max 1 w.session.unsentCount ≤ later.countP Event.isPass) :
    ∃ steps, w.drained? later = some steps ∧
      steps.countP Event.isPass ≤ max 1 w.session.unsentCount := by
  induction later generalizing w with
  | nil =>
    rw [List.countP_nil] at passes
    omega
  | cons e rest ih =>
    obtain ⟨sees, others⟩ := List.forall_mem_cons.mp seeing
    rw [drained?]
    split
    · refine ⟨[e], rfl, ?_⟩
      have : [e].countP Event.isPass ≤ 1 := List.countP_le_length
      omega
    · next goesOn =>
      have goesOn := Bool.eq_false_iff.mpr goesOn
      have after : max 1 (w.step e).session.unsentCount + (if e.isPass then 1 else 0) ≤
          max 1 w.session.unsentCount := by
        cases kind : e.isPass with
        | false =>
          rw [h.unsentCount_step kind]
          exact Nat.le_refl _
        | true =>
          cases e with
          | pass reading draining answer =>
            obtain rfl : draining = true := sees
            have := h.pass_shrinks goesOn
            simp only [if_true]
            omega
          | _ => contradiction
      rw [List.countP_cons] at passes
      obtain ⟨steps, drained, bound⟩ := ih (h.step e) others (by omega)
      refine ⟨e :: steps, by rw [drained]; rfl, ?_⟩
      rw [List.countP_cons]
      omega

theorem opened_closed (c : StreamConfig) (monitor : Option Monitor) (clock : Tick) :
    (opened c monitor clock).session.Closed := fun halted => absurd halted Bool.false_ne_true

theorem halted_of_run {available : UInt8} (valid : c.validate available = .ok ())
    (monitor : Option Monitor) (clock : Tick) {past : List Event}
    (halted : ((opened c monitor clock).run past).session.halted = true) :
    Halted c ((opened c monitor clock).run past) where
  sound := run_invariant (P := TxSound c) (fun _ e sound => (sound.step e).1)
    (opened_txSound valid monitor clock) past
  closed := run_invariant (P := (·.session.Closed)) (fun _ e closed => (step_closed closed e).1)
    (opened_closed c monitor clock) past
  halted := halted

theorem Halted.failure_run (h : Halted c w) (events : List Event) :
    (w.run events).session.failure = w.session.failure :=
  (run_invariant (P := fun t => Halted c t ∧ t.session.failure = w.session.failure)
    (fun _ e ⟨stands, same⟩ =>
      ⟨stands.step e, ((step_closed stands.closed e).2 stands.halted).2.trans same⟩)
    ⟨h, rfl⟩ events).2

theorem observe_nothing {β : Type} (w : World) (events : List Event) :
    observe (fun _ _ => ([] : List β)) w events = [] := by
  induction events generalizing w with
  | nil => rfl
  | cons e rest ih => exact ih (w.step e)

/-- A loop whose writes all succeed ends with nothing left. -/
theorem isClear_of_drained? {later steps : List Event} (drained : w.drained? later = some steps)
    (unfailing : ∀ e ∈ steps, e.Unfailing) : (w.run steps).session.isClear = true := by
  obtain ⟨_, done, last, rfl, ended⟩ := drained?_spec drained
  have fine := unfailing last (List.mem_append_right done (List.mem_singleton_self last))
  rw [run_append]
  cases last with
  | pass reading draining answer =>
    obtain rfl : answer = .ok () := fine
    simp only [ends, Except.isOk, Except.toBool, Bool.not_true, Bool.and_false, Bool.false_or,
      Bool.and_eq_true] at ended
    exact ended.2
  | _ => contradiction

/-- Behind a halt the loop ends. Every pass with samples left lets a batch go, and no failure
is recorded. If no write is refused, all that was left has gone out or was dropped as late. -/
theorem drain_completes {available : UInt8} (valid : c.validate available = .ok ())
    (monitor : Option Monitor) (clock : Tick) {past later : List Event}
    (halted : ((opened c monitor clock).run past).session.halted = true)
    (seeing : ∀ e ∈ later, e.SeesHalt)
    (passes : max 1 ((opened c monitor clock).run past).session.unsentCount ≤
      later.countP Event.isPass) :
    let w := (opened c monitor clock).run past
    ∃ steps, w.drained? later = some steps ∧
      steps.countP Event.isPass ≤ max 1 w.session.unsentCount ∧
      (∀ done reading answer, (w.run done).session.isClear = false →
        ∃ channel, departed channel (w.run done) (.pass reading true answer) ≠ []) ∧
      (w.run steps).session.failure = w.session.failure ∧
      ((∀ e ∈ steps, e.Unfailing) → (w.run steps).session.isClear = true ∧ ∀ channel,
        let departures := observe (departed channel) w steps
        w.session.unsent channel = departures.flatMap (·.batch.content) ∧
          (observe written w steps).filter (·.channel == channel) =
            departures.flatMap Departure.sent ∧
          (∀ d ∈ departures,
            d.Faithful c.linkFormat.sampleSize c.tuning.lateTolerance.toNat channel) ∧
          (w.run steps).session.lateOn channel =
            min (w.session.lateOn channel + ((observe (refused channel) w steps).length +
              departures.countP Departure.isDropped)) 0xffffffff) := by
  intro w
  have h : Halted c w := halted_of_run valid monitor clock halted
  have kept (w : World) (e : Event) (h : Halted c w) : Halted c (w.step e) := h.step e
  obtain ⟨steps, drained, bound⟩ := h.drained seeing passes
  refine ⟨steps, drained, bound, ?_, h.failure_run steps, ?_⟩
  · intro done reading answer left
    have stands : Halted c (w.run done) := run_invariant kept h done
    obtain ⟨channel, _, departs⟩ := stands.sound.session.pass_progress left reading
    exact ⟨channel, departs⟩
  intro unfailing
  have clear := isClear_of_drained? drained unfailing
  refine ⟨clear, ?_⟩
  intro channel departures
  have finished : Halted c (w.run steps) := run_invariant kept h steps
  have balance := observe_balance (fun w => w.session.unsent channel) kept
    (fun w e h => h.leaving e channel) h steps
  rw [observe_nothing, List.append_nil, finished.sound.session.isClear_iff.mp clear channel,
    List.append_nil, ← observe_flatMap] at balance
  have counted := observe_count (fun w => w.session.lateOn channel) kept
    (fun w e h => ((h.sound.step e).2 channel).late_eq) h (w.session.lateOn_le channel) steps
  refine ⟨balance, ?_, ?_, counted⟩
  · rw [observe_filter, observe_flatMap]
    exact observe_congr kept (fun w e h fine => written_departed h.sound fine channel) h unfailing
  · exact mem_observe kept (fun w e h => departed_faithful h.sound e channel) h steps

/-- A stop that finds untimed and timed samples on two channels. -/
def stopped : List Event :=
  [.transmit 0 [(⟨1, -1⟩ : IntSample), ⟨2, -2⟩] .plain (.ok .zero) .poll,
    .transmit 1 [(⟨3, -3⟩ : IntSample)] (.anchored .zero) (.ok .zero) .poll,
    .transmit 0 [(⟨4, -4⟩ : IntSample)] (.anchored (Tick.clamp 50000)) (.ok .zero) .poll,
    .halt none]

/-- Draining passes at a time that is too late for channel 1. -/
def latePasses : List Event := List.replicate 4 (.pass (.ok (Tick.clamp 20000)) true (.ok ()))

theorem drain_completes_stopped :
    let w := (opened smallBatches none .zero).run stopped
    smallBatches.validate 2 = .ok () ∧ w.session.halted = true ∧
      (∀ e ∈ latePasses, e.SeesHalt) ∧
      max 1 w.session.unsentCount ≤ latePasses.countP Event.isPass ∧
      (∃ steps, w.drained? latePasses = some steps ∧
        steps.countP Event.isPass ≤ max 1 w.session.unsentCount) ∧
      (w.drained? latePasses).map List.length = some 2 ∧
      (w.run latePasses).session.lateOn 1 = 1 := by
  have valid : smallBatches.validate 2 = .ok () := rfl
  have halted : ((opened smallBatches none .zero).run stopped).session.halted = true := by
    decide +kernel
  have seeing : ∀ e ∈ latePasses, e.SeesHalt := by simp [latePasses, Event.SeesHalt]
  have passes : max 1 ((opened smallBatches none .zero).run stopped).session.unsentCount ≤
      latePasses.countP Event.isPass := by decide +kernel
  obtain ⟨steps, drained, bound, _⟩ := drain_completes valid none .zero halted seeing passes
  exact ⟨valid, halted, seeing, passes, ⟨steps, drained, bound⟩, by decide +kernel,
    by decide +kernel⟩

end World
end RadioStream
