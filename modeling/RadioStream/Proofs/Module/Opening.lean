import RadioStream.Proofs.Module.Run
import RadioStream.Proofs.Session.Run

/-!
A stream between its setup and its start. No step in between touches its session, so what a
start opens is what was set up, at the time of the link, on a link that it arms afresh.
-/
namespace RadioStream.RfModule
variable {m n : RfModule}

/-- A stream that waits for its start is as its setup made it. -/
def Fresh (m : RfModule) : Prop :=
  ∀ s, m.stage = .configured s →
    ∃ c monitor, c.validate m.link.channelCount = .ok () ∧ s = .create c monitor

theorem fresh_of_phase (other : m.phase ≠ .configured) : m.Fresh := by
  intro s stage
  exact absurd (congrArg Stage.phase stage) other

theorem Fresh.clearFailure (fresh : m.Fresh) : m.clearFailure.Fresh := by
  rw [RfModule.clearFailure]
  cases stage : m.stage with
  | configured s =>
    obtain ⟨c, monitor, valid, rfl⟩ := fresh s stage
    intro t same
    exact ⟨c, monitor, valid, (Stage.configured.inj same).symm⟩
  | _ => exact fresh_of_phase Phase.noConfusion

theorem Fresh.surfacing {α : Type} {body : RfModule → Except Fault α × RfModule}
    (fresh : m.Fresh) (kept : (body m).2.Fresh) : (m.surfacing body).2.Fresh := by
  unfold RfModule.surfacing
  split
  · exact fresh.clearFailure
  · exact kept

theorem Fresh.setupNow (fresh : m.Fresh) (config : StreamConfig) (monitor : Option Monitor) :
    (m.setupNow config monitor).2.Fresh := by
  unfold RfModule.setupNow
  split
  · exact fresh
  · exact fresh
  all_goals
    split
    · exact fresh
    · next valid =>
      intro s stage
      exact ⟨config, monitor, valid, (Stage.configured.inj stage).symm⟩

theorem Fresh.startNow (fresh : m.Fresh) : m.startNow.2.Fresh := by
  apply fresh.surfacing
  split
  · exact fresh
  · exact fresh
  · exact fresh
  · dsimp only
    split
    · exact fresh_of_phase Phase.noConfusion
    · split <;> exact fresh_of_phase Phase.noConfusion

theorem Fresh.stopNow (fresh : m.Fresh) : m.stopNow.2.Fresh := by
  unfold RfModule.stopNow
  dsimp only
  split
  · exact fresh.clearFailure
  · exact fresh.clearFailure
  · exact fresh_of_phase Phase.noConfusion
  · exact fresh_of_phase Phase.noConfusion

theorem Fresh.onStream (fresh : m.Fresh) (f : LiveStream → LiveStream) : (m.onStream f).Fresh := by
  unfold RfModule.onStream
  split
  · exact fresh_of_phase Phase.noConfusion
  · exact fresh

theorem Fresh.step (fresh : m.Fresh) (e : ModuleEvent) : (m.step e).Fresh := by
  cases e with
  | setup config monitor => exact fresh.setupNow config monitor
  | start => exact fresh.startNow
  | stop => exact fresh.stopNow
  | receive channel buffer info wait =>
    rw [RfModule.step, receiveNow]
    split
    · exact fresh.clearFailure
    · split
      · exact fresh_of_phase Phase.noConfusion
      · exact fresh
  | transmit channel samples info wait =>
    apply fresh.surfacing
    split
    · exact fresh_of_phase Phase.noConfusion
    · exact fresh
  | status channel direction =>
    apply fresh.surfacing
    split <;> exact fresh
  | link e =>
    intro s stage
    obtain ⟨c, monitor, valid, same⟩ := fresh s stage
    refine ⟨c, monitor, ?_, same⟩
    cases e <;> exact valid
  | read | send _ | halt _ | keep _ | shut => exact fresh.onStream _
  | conclude standing =>
    rw [RfModule.step, conclude]
    split
    · split
      · exact fresh_of_phase Phase.noConfusion
      · exact fresh
    · exact fresh
  | settle =>
    rw [RfModule.step, settle]
    split
    · dsimp only
      split <;> exact fresh_of_phase Phase.noConfusion
    · exact fresh

theorem run_fresh (index : UInt8) (link : Link) (events : List ModuleEvent) :
    ((create index link).run events).Fresh :=
  List.foldlRecOn events step (fresh_of_phase Phase.noConfusion) fun _ fresh e _ => fresh.step e

theorem armLink_eq {l link : Link} {config : LinkConfig} (armed : armLink l config = .ok link) :
    link = { l with armed := some config, cursors := .empty, armCount := l.armCount + 1 } := by
  unfold armLink at armed
  split at armed
  · contradiction
  · unfold Link.arm at armed
    split at armed
    · contradiction
    · exact (Except.ok.inj armed).symm

theorem hardwareTime_eq {l : Link} {now : Tick} (read : l.hardwareTime = .ok now) :
    l.failure = none ∧ l.time = now := by
  unfold Link.hardwareTime at read
  split at read
  · contradiction
  · next working => exact ⟨Option.map_eq_none_iff.mp working, Except.ok.inj read⟩

/-- A start that succeeds opens the stream that was set up. -/
theorem Fresh.opened {s : Session} (fresh : m.Fresh) (configured : m.phase = .configured)
    (running : m.start.2.stage = .running s) :
    ∃ c monitor, c.validate m.link.channelCount = .ok () ∧
      s = (World.opened c monitor m.link.time).session ∧ m.link.failure = none ∧
      m.start.2.link = { m.link with
        armed := some (linkConfig s), cursors := .empty, armCount := m.link.armCount + 1 } := by
  cases stage : m.stage with
  | configured t =>
    obtain ⟨c, monitor, valid, rfl⟩ := fresh t stage
    have nothing : m.failure? = none := by
      rw [failure?, stage]
      rfl
    rw [start_eq configured] at running ⊢
    simp only [RfModule.startNow, RfModule.surfacing, nothing, stage] at running ⊢
    cases read : m.link.hardwareTime with
    | error fault => simp [read] at running
    | ok now =>
      obtain ⟨working, rfl⟩ := hardwareTime_eq read
      simp only [read] at running ⊢
      split at running
      · contradiction
      · next link armed =>
        obtain rfl := Stage.running.inj running
        exact ⟨c, monitor, valid, rfl, working, armLink_eq armed⟩
  | _ =>
    rw [phase, stage] at configured
    contradiction

end RadioStream.RfModule
