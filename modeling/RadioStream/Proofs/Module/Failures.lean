import RadioStream.Proofs.Module.Phases

/-!
Failures of a stream and who is told. A read or write that fails while the stream runs is
kept, the first call that asks is told of it, and no other, as long as the call does not
come between the two halves of the halt. One equation says what a step makes of the failure
that is kept; that a failure waits for its call, and that nothing is told behind it or
without one, are inductions over the steps in between.
-/
namespace RadioStream

/-- The fault that a call ends with, if it fails. -/
def faultOf {α : Type} : Except Fault α → Option Fault
  | .ok _ => none
  | .error fault => some fault

namespace ModuleEvent

/-- Calls that tell a failure that is kept. -/
def asks : ModuleEvent → Bool
  | start | stop | receive .. | transmit .. | status .. => true
  | _ => false

/-- Steps of the workers, one at a time. -/
def isWork : ModuleEvent → Bool
  | read | send _ | conclude _ => true
  | _ => false

/-- All steps but the one that stands for many. -/
def isSingle : ModuleEvent → Bool
  | settle => false
  | _ => true

theorem of_isWork {e : ModuleEvent} (work : e.isWork = true) :
    e.isSingle = true ∧ e.isKeep = false ∧ e.asks = false := by
  cases e <;> first | exact ⟨rfl, rfl, rfl⟩ | contradiction

theorem eq_settle {e : ModuleEvent} (many : e.isSingle = false) : e = settle := by
  cases e <;> first | rfl | contradiction

end ModuleEvent

/-- The reason with which the link refuses the read or write of a worker's step. -/
def LiveStream.refusal? (s : LiveStream) : ModuleEvent → Option Fault
  | .read => faultOf s.link.read
  | .send draining =>
    let packets := (s.session.beginPass s.link.hardwareTime draining).packets
    if packets.isEmpty then none else faultOf (s.link.write packets)
  | .halt reason | .keep reason => reason
  | _ => none

namespace RfModule

/-- The reason of a worker that fails in a step, while the stream runs and is not halted. -/
def breaks (m : RfModule) (e : ModuleEvent) : Option Fault :=
  match m.stage with
  | .running s => if s.halted then none else LiveStream.refusal? ⟨s, m.link⟩ e
  | _ => none

/-- Whether a step is a setup that succeeds. -/
def renews (m : RfModule) : ModuleEvent → Bool
  | .setup config monitor => (m.setupNow config monitor).1.isOk
  | _ => false

/-- Steps among which no setup succeeds. -/
def SameStream (m : RfModule) : List ModuleEvent → Prop
  | [] => True
  | e :: rest => m.renews e = false ∧ SameStream (m.step e) rest

end RfModule

namespace Session
variable {α : Type} [HostSample α] {s : Session}

theorem keep_failure (s : Session) (reason : Option Fault) :
    (s.keep reason).failure = if s.halted then s.failure else s.failure <|> reason := by
  rw [keep]
  split <;> rfl

theorem shut_failure (s : Session) : s.shut.failure = s.failure := by
  rw [shut]
  split <;> rfl

theorem halt_failure (s : Session) (reason : Option Fault) :
    (s.halt reason).failure = if s.halted then s.failure else s.failure <|> reason := by
  rw [halt, shut_failure, keep_failure]

@[simp] theorem halt_none_failure (s : Session) : (s.halt none).failure = s.failure := by
  simp [halt_failure]

@[simp] theorem report_failure (s : Session) (shown : Snapshot) :
    (s.report shown).failure = s.failure := by
  rw [report]
  split
  · rfl
  · dsimp only
    split
    · rfl
    · exact halt_none_failure _

theorem accept_failure (s : Session) (p : RxPacket) : (s.accept p).failure = s.failure := by
  rw [accept]
  split
  · rfl
  · dsimp only
    split
    · exact report_failure _ _
    · rfl

theorem receive_failure (s : Session) (channel : UInt8) (buffer : List α) (info : TransferMeta)
    (wait : Wait) : (s.receive channel buffer info wait).2.failure = s.failure := by
  rw [receive_frame]

theorem transmit_failure (s : Session) (channel : UInt8) (samples : List α)
    (info : TransferMeta) (reading : Except Fault Tick) (wait : Wait) :
    (s.transmit channel samples info reading wait).2.failure = s.failure := by
  rw [transmit_frame]

end Session

namespace TxPass

theorem finish_failure (p : TxPass) (outcome : Option (Except Fault Unit)) :
    (p.finish outcome).failure =
      if p.session.halted then p.session.failure
      else p.session.failure <|> outcome.bind faultOf := by
  have reported (shipments : List (TxLane × Shipment)) (s : Session) :
      (shipments.foldl (fun s x =>
        s.report ((x.1.shipped x.2).snapshot s.timeline.current)) s).failure = s.failure := by
    induction shipments generalizing s with
    | nil => rfl
    | cons first rest ih => exact (ih _).trans (s.report_failure _)
  cases outcome with
  | none => simp [finish]
  | some answer =>
    cases answer with
    | error reason => exact Session.halt_failure _ (some reason)
    | ok done => simp [finish, reported, faultOf]

end TxPass

/-- A session before and after a step in which a worker failed for a reason, or none did. -/
structure Session.Marked (s t : Session) (reason : Option Fault) : Prop where
  failure_eq : t.failure = if s.halted then s.failure else s.failure <|> reason
  halted : s.halted = true ∨ reason.isSome = true → t.halted = true

namespace LiveStream
variable {s t : LiveStream}

theorem readOnce_marked (s : LiveStream) :
    s.session.Marked s.readOnce.session (s.refusal? .read) := by
  unfold readOnce refusal?
  cases s.link.read with
  | error reason =>
    constructor
    · exact s.session.halt_failure (some reason)
    · intro _
      exact s.session.halt_halted (some reason)
  | ok arrived =>
    cases arrived with
    | none =>
      constructor
      · simp [faultOf]
      · simp [faultOf]
    | some arrival =>
      constructor
      · simp [faultOf, Session.accept_failure]
      · rintro (halted | refused)
        · exact (s.session.accept_staysHalted _ halted).1
        · contradiction

theorem pass_marked (s : LiveStream) (draining : Bool) :
    s.session.Marked (s.pass draining).1.session (s.refusal? (.send draining)) := by
  let p := s.session.beginPass s.link.hardwareTime draining
  have kept (outcome : Option (Except Fault Unit)) : s.session.halted = true →
      (p.finish outcome).halted = true := fun halted => ((p.finish_kept outcome).halted halted).1
  unfold pass refusal?
  dsimp only
  split
  · constructor
    · exact p.finish_failure none
    · rintro (halted | refused)
      · exact kept none halted
      · contradiction
  · cases s.link.write p.packets with
    | ok link =>
      constructor
      · exact p.finish_failure (some (.ok ()))
      · rintro (halted | refused)
        · exact kept (some (.ok ())) halted
        · contradiction
    | error reason =>
      constructor
      · exact p.finish_failure (some (.error reason))
      · intro _
        exact Session.halt_halted _ (some reason)

theorem Step.failure_of_halted (step : Step s t) (halted : s.session.halted = true) :
    t.session.failure = s.session.failure := by
  cases step with
  | read => rw [s.readOnce_marked.failure_eq, if_pos halted]
  | pass draining => rw [(s.pass_marked draining).failure_eq, if_pos halted]

/-- What fails behind a halt is not kept. -/
theorem Works.failure_of_halted (works : Works s t) (halted : s.session.halted = true) :
    t.session.failure = s.session.failure := by
  have both := works.invariant (P := fun u => u.session.halted = true ∧
    u.session.failure = s.session.failure)
    (fun before step => ⟨(step.staysHalted before.1).1,
      (step.failure_of_halted before.1).trans before.2⟩) ⟨halted, rfl⟩
  exact both.2

end LiveStream

namespace Session
variable {α : Type} [HostSample α]

end Session

namespace RfModule
variable {m : RfModule} {e : ModuleEvent} {reason : Fault}

@[simp] theorem clearFailure_failure? (m : RfModule) : m.clearFailure.failure? = none := by
  rw [failure?, clearFailure, Stage.session?_mapSession]
  cases m.stage.session? <;> rfl

theorem surfacing_failure? {α : Type} {body : RfModule → Except Fault α × RfModule}
    (quiet : m.failure? = none → (body m).2.failure? = none) :
    (m.surfacing body).2.failure? = none := by
  rw [surfacing]
  split
  · exact m.clearFailure_failure?
  · next none => exact quiet none

theorem windDown_failure? {s : LiveStream} (halted : s.session.halted = true)
    (standing : TxStanding) : (m.windDown s standing).failure? = s.session.failure := by
  obtain ⟨t, works, ended⟩ := LiveStream.Works.windDown s standing
  rw [windDown, ended]
  exact works.failure_of_halted halted

theorem startNow_failure? (m : RfModule) : m.startNow.2.failure? = none := by
  apply surfacing_failure?
  intro quiet
  cases stage : m.stage with
  | configured s =>
    have none : s.failure = none := by simpa [failure?, stage, Stage.session?] using quiet
    dsimp only
    split
    · exact (s.halt_none_failure).trans none
    · split
      · exact (Session.halt_none_failure _).trans none
      · exact none
  | _ => exact quiet

theorem stopNow_failure? (m : RfModule) : m.stopNow.2.failure? = none := by
  rw [stopNow]
  cases stage : m.stage with
  | idle | stopped s =>
    have cleared := m.clearFailure_failure?
    rw [clearFailure, stage] at cleared ⊢
    exact cleared
  | configured s =>
    rw [clearFailure, stage]
    exact Session.halt_none_failure _
  | running s =>
    rw [clearFailure, stage]
    exact (windDown_failure? (Session.halt_halted _ none) _).trans (Session.halt_none_failure _)

/-- No failure is kept behind a call that tells it. -/
theorem asks_failure? (m : RfModule) (asks : e.asks = true) : (m.step e).failure? = none := by
  cases e with
  | start => exact m.startNow_failure?
  | stop => exact m.stopNow_failure?
  | receive channel buffer info wait =>
    rw [step, receiveNow]
    split
    · exact m.clearFailure_failure?
    · next quiet =>
      cases stage : m.stage with
      | running s =>
        have none : s.failure = none := by simpa [failure?, stage, Stage.session?] using quiet
        exact (s.receive_failure channel buffer info (wait s)).trans none
      | _ => exact quiet
  | transmit channel samples info wait =>
    apply surfacing_failure?
    intro quiet
    cases stage : m.stage with
    | running s =>
      have none : s.failure = none := by simpa [failure?, stage, Stage.session?] using quiet
      exact (s.transmit_failure channel samples info _ (wait s)).trans none
    | _ => exact quiet
  | status channel direction =>
    apply surfacing_failure?
    intro quiet
    cases stage : m.stage <;> simpa [stage, Stage.session?] using quiet
  | _ => contradiction

/-- A setup allocates a stream, or refuses for a reason of its own and changes nothing. -/
theorem setupNow_cases (m : RfModule) (config : StreamConfig) (monitor : Option Monitor) :
    ((m.setupNow config monitor).1 = .ok () ∧
      (m.setupNow config monitor).2.stage = .configured (.create config monitor)) ∨
    ∃ fault, (m.setupNow config monitor).1 = .error fault ∧ (m.setupNow config monitor).2 = m ∧
      ∀ text, fault ≠ .transportFailure text := by
  unfold setupNow StreamConfig.validate
  cases m.stage with
  | configured s | running s => exact .inr ⟨_, rfl, rfl, fun _ => Fault.noConfusion⟩
  | idle | stopped s =>
    cases config.fault? m.link.channelCount with
    | none => exact .inl ⟨rfl, rfl⟩
    | some cause => exact .inr ⟨_, rfl, rfl, fun _ => Fault.noConfusion⟩

theorem onStream_halted? {f : LiveStream → LiveStream}
    (keeps : ∀ s, s.session.halted = true → (f s).session.halted = true)
    (halted : m.halted? = some true) : (m.onStream f).halted? = some true := by
  rw [onStream]
  cases stage : m.stage with
  | running s =>
    rw [halted?, stage] at halted
    exact congrArg some (keeps ⟨s, m.link⟩ (Option.some.inj halted))
  | _ => exact halted

theorem setup_refused {config : StreamConfig} {monitor : Option Monitor}
    (refused : m.renews (.setup config monitor) = false) : (m.setupNow config monitor).2 = m := by
  rcases m.setupNow_cases config monitor with ⟨done, _⟩ | ⟨fault, _, same, _⟩
  · rw [renews, done] at refused
    contradiction
  · exact same

/-- A setup that succeeds forgets the failure that was kept. -/
theorem renews_failure? (renewed : m.renews e = true) : (m.step e).failure? = none := by
  cases e with
  | setup config monitor =>
    rcases m.setupNow_cases config monitor with ⟨_, stage⟩ | ⟨fault, refused, _, _⟩
    · rw [failure?, step, stage]
      rfl
    · rw [renews, refused] at renewed
      contradiction
  | _ => contradiction

/-- A halt lasts until a setup succeeds. -/
theorem step_halted? (renewed : m.renews e = false) (halted : m.halted? = some true) :
    (m.step e).halted? = some true := by
  have steady (other : e.mayHalt = false) (notSetup : ∀ config monitor, e ≠ .setup config monitor) :
      (m.step e).halted? = some true := by
    cases m.step_advance e with
    | stays phase_eq halted_eq => exact (halted_eq (.inr other)).trans halted
    | configures config monitor event_eq => exact absurd event_eq (notSetup config monitor)
    | starts s t event_eq before stage_eq same =>
      rw [halted?, before] at halted
      rw [halted?, stage_eq]
      exact (congrArg some same).trans halted
    | abandons s t event_eq before stage_eq ended =>
      rw [halted?, stage_eq]
      exact congrArg some ended
    | ends s before stage_eq ended =>
      rw [halted?, stage_eq]
      exact congrArg some ended
  cases e with
  | setup config monitor =>
    rw [step, setup_refused renewed]
    exact halted
  | read =>
    exact onStream_halted? (fun s stopped => s.readOnce_marked.halted (.inl stopped)) halted
  | send draining =>
    exact onStream_halted? (fun s stopped => (s.pass_marked draining).halted (.inl stopped)) halted
  | halt reason => exact onStream_halted? (fun s _ => s.session.halt_halted reason) halted
  | shut => exact onStream_halted? (fun s _ => s.session.shut_halted) halted
  | _ => exact steady rfl fun _ _ => ModuleEvent.noConfusion

theorem onStream_failure? {f : LiveStream → LiveStream}
    (marked : ∀ s : LiveStream, (f s).session.failure =
      if s.session.halted then s.session.failure else s.session.failure <|> s.refusal? e) :
    (m.onStream f).failure? = (m.failure? <|> m.breaks e) := by
  rw [onStream, breaks]
  cases stage : m.stage with
  | running s =>
    have before : m.failure? = s.failure := by rw [failure?, stage]; rfl
    have failure_eq := marked ⟨s, m.link⟩
    rw [before]
    dsimp only at failure_eq ⊢
    split
    · next halted =>
      rw [if_pos halted] at failure_eq
      rw [Option.orElse_eq_orElse, Option.orElse_eq_or, Option.or_none]
      exact failure_eq
    · next live =>
      rw [if_neg live] at failure_eq
      exact failure_eq
  | _ => simp [failure?, stage, Stage.session?]

/-- Where no call asks and no setup succeeds, a failure is kept that is there, or else the one
that comes with the step. -/
theorem step_failure? (single : e.isSingle = true) (silent : e.asks = false)
    (renewed : m.renews e = false) : (m.step e).failure? = (m.failure? <|> m.breaks e) := by
  have calm (other : ∀ s, LiveStream.refusal? s e = none) : m.breaks e = none := by
    unfold breaks
    split
    · split
      · rfl
      · exact other _
    · rfl
  cases e with
  | setup config monitor =>
    rw [step, setup_refused renewed, calm fun _ => rfl]
    simp
  | link moved =>
    rw [calm fun _ => rfl]
    simp [step, onLink, failure?]
  | read => exact onStream_failure? fun s => s.readOnce_marked.failure_eq
  | send draining => exact onStream_failure? fun s => (s.pass_marked draining).failure_eq
  | halt reason => exact onStream_failure? fun s => s.session.halt_failure reason
  | keep reason => exact onStream_failure? fun s => s.session.keep_failure reason
  | shut =>
    refine onStream_failure? fun s => ?_
    rw [Session.shut_failure]
    simp [LiveStream.refusal?]
  | conclude standing =>
    rw [calm fun _ => rfl, step, conclude]
    cases stage : m.stage with
    | running s =>
      dsimp only
      split
      · next halted =>
        rw [windDown_failure? halted]
        simp [failure?, stage, Stage.session?]
      · simp
    | _ => simp
  | _ => contradiction

theorem onStream_running {s : Session} (stage : m.stage = .running s)
    (f : LiveStream → LiveStream) :
    (m.onStream f).halted? = some (f ⟨s, m.link⟩).session.halted := by
  rw [onStream, stage]
  rfl

/-- A worker that fails halts the stream, unless it has only kept its reason yet. -/
theorem step_halts (broken : m.breaks e = some reason) (whole : e.isKeep = false) :
    (m.step e).halted? = some true := by
  unfold breaks at broken
  split at broken
  · next s stage =>
    split at broken
    · contradiction
    · have refused := Option.isSome_of_mem broken
      cases e with
      | read =>
        rw [step, onStream_running stage]
        exact congrArg some ((LiveStream.readOnce_marked _).halted (.inr refused))
      | send draining =>
        rw [step, onStream_running stage]
        exact congrArg some ((LiveStream.pass_marked _ draining).halted (.inr refused))
      | halt _ =>
        rw [step, onStream_running stage]
        exact congrArg some (s.halt_halted _)
      | _ => contradiction
  · contradiction

/-- What the workers do together is single steps of theirs. -/
theorem works_steps {s t : LiveStream} (works : LiveStream.Works s t) :
    ∃ steps, (∀ e ∈ steps, e.isWork = true) ∧ ∀ m : RfModule, m.stage = .running s.session →
      m.link = s.link → m.run steps = { m with stage := .running t.session, link := t.link } := by
  induction works with
  | refl =>
    refine ⟨[], by simp, ?_⟩
    intro m stage link
    rw [← stage, ← link]
    rfl
  | tail _ last ih =>
    obtain ⟨steps, work, reached⟩ := ih
    cases last with
    | read =>
      refine ⟨steps ++ [.read], by simpa [or_imp, forall_and] using ⟨work, rfl⟩, ?_⟩
      intro m stage link
      rw [run_concat, reached m stage link]
      rfl
    | pass draining =>
      refine ⟨steps ++ [.send draining], by simpa [or_imp, forall_and] using ⟨work, rfl⟩, ?_⟩
      intro m stage link
      rw [run_concat, reached m stage link]
      rfl

theorem settle_steps (m : RfModule) :
    ∃ steps, (∀ e ∈ steps, e.isWork = true) ∧ m.settle = m.run steps := by
  rw [settle]
  cases stage : m.stage with
  | running s =>
    obtain ⟨steps, work, reached⟩ := works_steps (LiveStream.Works.work ⟨s, m.link⟩)
    have ran := reached m stage rfl
    dsimp only
    split
    · next halted =>
      refine ⟨steps ++ [.conclude (LiveStream.work ⟨s, m.link⟩).2], ?_, ?_⟩
      · simpa [or_imp, forall_and] using ⟨work, rfl⟩
      · rw [run_concat, ran, step, conclude]
        dsimp only
        rw [if_pos halted]
        rfl
    · exact ⟨steps, work, ran.symm⟩
  | _ => exact ⟨[], by simp, rfl⟩

/-- What every step of the workers keeps, all that they do together keeps. -/
theorem settle_keeps {P : RfModule → Prop}
    (kept : ∀ n x, x.isWork = true → n.renews x = false → P n → P (n.step x)) (holds : P m) :
    P m.settle := by
  obtain ⟨steps, work, settled⟩ := m.settle_steps
  rw [settled]
  refine List.foldlRecOn steps step holds fun n holds x member => ?_
  have own := work x member
  refine kept n x own ?_ holds
  cases x <;> first | rfl | contradiction

/-- A failure is kept only behind a halt. -/
def KeptBehindHalt (m : RfModule) : Prop :=
  ∀ reason, m.failure? = some reason → m.halted? = some true

theorem KeptBehindHalt.single (behind : m.KeptBehindHalt) (single : e.isSingle = true)
    (whole : e.isKeep = false) : (m.step e).KeptBehindHalt := by
  intro reason kept
  cases asks : e.asks with
  | true =>
    rw [m.asks_failure? asks] at kept
    contradiction
  | false =>
    cases renewed : m.renews e with
    | true =>
      rw [renews_failure? renewed] at kept
      contradiction
    | false =>
      rw [step_failure? single asks renewed] at kept
      cases before : m.failure? with
      | some earlier => exact step_halted? renewed (behind earlier before)
      | none =>
        rw [before, Option.orElse_eq_orElse, Option.orElse_eq_or, Option.none_or] at kept
        exact step_halts kept whole

theorem KeptBehindHalt.step (behind : m.KeptBehindHalt) (whole : e.isKeep = false) :
    (m.step e).KeptBehindHalt := by
  cases single : e.isSingle with
  | true => exact behind.single single whole
  | false =>
    obtain rfl := ModuleEvent.eq_settle single
    refine settle_keeps (fun n x work _ behind => ?_) behind
    obtain ⟨one, full, _⟩ := ModuleEvent.of_isWork work
    exact KeptBehindHalt.single behind one full

theorem SameStream.concat {events : List ModuleEvent} (same : m.SameStream events)
    (renewed : (m.run events).renews e = false) : m.SameStream (events ++ [e]) := by
  induction events generalizing m with
  | nil => exact ⟨renewed, trivial⟩
  | cons first rest ih => exact ⟨same.1, ih same.2 renewed⟩

end RfModule

end RadioStream
