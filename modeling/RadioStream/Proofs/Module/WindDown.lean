import RadioStream.Proofs.Module.Works
import RadioStream.Proofs.Transmission.Drain

/-!
The loop with which a stream winds down. Its passes are steps of a run behind the halt,
answered by the link, and its bound on passes is never what ends it. So a stream that
stops on a working link leaves nothing unsent.
-/
namespace RadioStream

/-- A total that grows by each part at least is no less than the whole. -/
theorem length_flatMap_le_foldl {α β : Type} {f : α → List β} {grow : Nat → α → Nat}
    {list : List α} (le : ∀ a ∈ list, ∀ total, total + (f a).length ≤ grow total a)
    (total : Nat) : total + (list.flatMap f).length ≤ list.foldl grow total := by
  induction list generalizing total with
  | nil => exact Nat.le_refl total
  | cons first rest ih =>
    obtain ⟨here, there⟩ := List.forall_mem_cons.mp le
    have := here total
    have := ih there (grow total first)
    rw [List.flatMap_cons, List.length_append, List.foldl_cons]
    omega

/-- What a session counts as outstanding bounds the samples that are left. -/
theorem Session.TxSound.unsentCount_le {s : Session} (sound : s.TxSound) :
    s.unsentCount ≤ s.outstanding := by
  have each : ∀ l ∈ s.tx, ∀ total, total + (s.unsent l.channel).length ≤
      total + l.queue.queued + l.held.elim 0 (·.length + 1) := by
    intro l member total
    have found := find?_of_mem sound.distinct member
    have lane := sound.lanes l.channel l found
    have queued := lane.queue.queued_eq
    have content : s.unsent l.channel = l.content := by
      rw [unsent, txOn, found]
      rfl
    rw [content, TxLane.content, List.length_append]
    cases held : l.held with
    | none =>
      simp only [Option.elim, List.length_nil]
      omega
    | some b =>
      have length := (lane.held b held).toWhole.length_content
      simp only [Option.elim]
      omega
  have bound := length_flatMap_le_foldl each 0
  rw [unsentCount, List.flatMap_map, outstanding]
  omega

namespace Link
variable {l : Link}

/-- A link that has not failed takes every write and does not fail by it. -/
theorem write_working (working : l.failure = none) (packets : List TxPacket) :
    ∃ after, l.write packets = .ok after ∧ after.failure = none := by
  have none : l.fault? = none := by
    rw [fault?, working]
    rfl
  rw [write, none]
  dsimp only
  split
  · exact ⟨_, rfl, (congrArg Link.failure (wiring_echo _ _ packets)).trans working⟩
  · exact ⟨_, rfl, working⟩

end Link

namespace LiveStream
variable {c : StreamConfig} {s : LiveStream} {w : World}

def answer (s : LiveStream) (draining : Bool) : Except Fault Unit :=
  (s.link.write (s.session.beginPass s.link.hardwareTime draining).packets).map fun _ => ()

/-- A pass of the worker as a step of a run. -/
def passEvent (s : LiveStream) (draining : Bool) : Event :=
  .pass s.link.hardwareTime draining (s.answer draining)

theorem pass_session (s : LiveStream) (draining : Bool) : (s.pass draining).1.session =
    s.session.pass s.link.hardwareTime draining (s.answer draining) := by
  unfold pass Session.pass answer
  dsimp only
  split
  · rfl
  · split <;> next written => rw [written]; rfl

theorem pass_refused (s : LiveStream) (draining : Bool) : (s.pass draining).2 = .refused ↔
    (s.session.beginPass s.link.hardwareTime draining).packets.isEmpty = false ∧
      (s.answer draining).isOk = false := by
  unfold pass answer
  dsimp only
  split
  · next nothing => simp [nothing]
  · next some =>
    rw [Bool.not_eq_true] at some
    split <;> next written => simp [written, some, Except.map, Except.isOk, Except.toBool]

/-- What ends the loop of the worker in a run ends it here. -/
theorem ends_iff (same : w.session = s.session) : w.ends (s.passEvent true) = true ↔
    (s.pass true).2 = .refused ∨ (s.pass true).1.session.isClear = true := by
  rw [passEvent, World.ends, same, ← pass_session, pass_refused, Bool.true_and, Bool.or_eq_true,
    Bool.and_eq_true, Bool.not_eq_true', Bool.not_eq_true']

theorem drain_succ (bound : Nat) (s : LiveStream) : s.drain (bound + 1) =
    if (s.pass true).2 = .refused ∨ (s.pass true).1.session.isClear = true then (s.pass true).1
    else (s.pass true).1.drain bound := by
  rw [drain]
  rcases s.pass true with ⟨next, outcome⟩
  cases outcome <;> simp

/-- The steps of the loop, were it never to end by itself. -/
def drainingPasses : Nat → LiveStream → List Event
  | 0, _ => []
  | bound + 1, s => s.passEvent true :: drainingPasses bound (s.pass true).1

theorem drainingPasses_spec (bound : Nat) (s : LiveStream) :
    (∀ e ∈ s.drainingPasses bound, e.SeesHalt) ∧
      (s.drainingPasses bound).countP Event.isPass = bound := by
  induction bound generalizing s with
  | zero => exact ⟨List.forall_mem_nil _, rfl⟩
  | succ bound ih =>
    obtain ⟨seeing, passes⟩ := ih (s.pass true).1
    refine ⟨List.forall_mem_cons.mpr ⟨rfl, seeing⟩, ?_⟩
    rw [drainingPasses, List.countP_cons, passes]
    rfl

theorem drain_run {bound : Nat} {steps : List Event} (same : w.session = s.session)
    (drained : w.drained? (s.drainingPasses bound) = some steps) :
    (s.drain bound).session = (w.run steps).session := by
  induction bound generalizing s w steps with
  | zero => contradiction
  | succ bound ih =>
    have after : (w.step (s.passEvent true)).session = (s.pass true).1.session := by
      rw [pass_session, ← same]
      rfl
    rw [drainingPasses, World.drained?] at drained
    rw [drain_succ]
    split at drained
    · next ended =>
      obtain rfl := Option.some.inj drained
      rw [if_pos ((ends_iff same).mp ended)]
      exact after.symm
    · next goesOn =>
      obtain ⟨others, later, rfl⟩ := Option.map_eq_some_iff.mp drained
      rw [if_neg (mt (ends_iff same).mpr goesOn)]
      change _ = ((w.step (s.passEvent true)).run others).session
      exact ih after later

/-- The loop of a halted stream is a run up to its end: the bound on passes never cuts it. -/
theorem drain_drained (halted : World.Halted c w) (same : w.session = s.session) :
    ∃ steps, w.drained? (s.drainingPasses (s.session.outstanding + 1)) = some steps ∧
      (s.drain (s.session.outstanding + 1)).session = (w.run steps).session := by
  obtain ⟨seeing, passes⟩ := s.drainingPasses_spec (s.session.outstanding + 1)
  have bounded := halted.sound.session.unsentCount_le
  obtain ⟨steps, drained, _⟩ := halted.drained seeing (by rw [passes, ← same]; omega)
  exact ⟨steps, drained, drain_run same drained⟩

theorem pass_working (working : s.link.failure = none) (draining : Bool) :
    s.answer draining = .ok () ∧ (s.pass draining).2 ≠ .refused ∧
      (s.pass draining).1.link.failure = none := by
  obtain ⟨after, written, still⟩ := Link.write_working working
    (s.session.beginPass s.link.hardwareTime draining).packets
  have answer : s.answer draining = .ok () := by
    rw [LiveStream.answer, written]
    rfl
  refine ⟨answer, ?_, ?_⟩
  · rw [ne_eq, pass_refused, answer]
    intro refused
    exact Bool.noConfusion refused.2
  · unfold pass
    dsimp only
    split
    · exact working
    · rw [written]
      exact still

theorem drainingPasses_unfailing {bound : Nat} (working : s.link.failure = none) :
    ∀ e ∈ s.drainingPasses bound, e.Unfailing := by
  induction bound generalizing s with
  | zero => exact List.forall_mem_nil _
  | succ bound ih =>
    obtain ⟨answer, _, still⟩ := pass_working working true
    exact List.forall_mem_cons.mpr ⟨answer, ih still⟩

theorem drain_clear (halted : World.Halted c w) (same : w.session = s.session)
    (working : s.link.failure = none) :
    (s.drain (s.session.outstanding + 1)).session.isClear = true := by
  obtain ⟨steps, drained, after⟩ := drain_drained halted same
  rw [after]
  obtain ⟨inside, _⟩ := World.drained?_spec drained
  exact World.isClear_of_drained? drained fun e member =>
    drainingPasses_unfailing working e (inside.subset member)

/-- A stream that stops on a working link leaves nothing unsent. -/
theorem windDown_clear (halted : World.Halted c w) (same : w.session = s.session)
    (working : s.link.failure = none) {standing : TxStanding} (alive : standing ≠ .gone) :
    (s.windDown standing).session.isClear = true := by
  unfold windDown
  dsimp only
  split
  · next nothing =>
    rw [Session.isClear, List.isEmpty_iff.mp nothing]
    rfl
  · cases standing with
    | gone => contradiction
    | betweenPasses => exact drain_clear halted same working
    | waiting =>
      obtain ⟨_, accepted, still⟩ := pass_working working false
      have after : (w.step (s.passEvent false)).session = (s.pass false).1.session := by
        rw [pass_session, ← same]
        rfl
      have drained := drain_clear (halted.step (s.passEvent false)) after still
      rcases passed : s.pass false with ⟨next, outcome⟩
      rw [passed] at accepted drained
      cases outcome with
      | refused => contradiction
      | noWrite => exact drained
      | written => exact drained

end LiveStream
end RadioStream
