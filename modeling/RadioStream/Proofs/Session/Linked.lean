import RadioStream.Proofs.Module.Run
import RadioStream.Proofs.Module.WindDown

/-!
A session on a simulated link, from its setup on, in single steps: callers, workers and whoever
holds the link move in any order, and the clock that calls and workers read is the link's. All
steps but the start are steps of the session with the answers that the link gives.
-/
namespace RadioStream
universe u

/-- What the start of a stream does to its session and its link. -/
def LiveStream.start (s : LiveStream) : LiveStream :=
  match s.link.hardwareTime with
  | .error _ => { s with session := s.session.halt none }
  | .ok now =>
    let session := { s.session with timeline := s.session.timeline.start s.session.config now }
    match RfModule.armLink s.link (RfModule.linkConfig session) with
    | .error _ => { s with session := session.halt none }
    | .ok link => ⟨session, link⟩

theorem RfModule.start_stream {m : RfModule} {s : Session} (configured : m.stage = .configured s)
    (untold : s.failure = none) :
    m.start.2.stage.session? = some (LiveStream.start ⟨s, m.link⟩).session ∧
      m.start.2.link = (LiveStream.start ⟨s, m.link⟩).link := by
  have quiet : m.failure? = none := by simp [failure?, configured, Stage.session?, untold]
  rw [start_eq (congrArg Stage.phase configured)]
  simp only [RfModule.startNow, surfacing, quiet, configured, LiveStream.start]
  cases m.link.hardwareTime with
  | error fault => exact ⟨rfl, rfl⟩
  | ok now =>
    dsimp only
    cases armLink m.link (linkConfig { s with timeline := s.timeline.start s.config now }) with
    | error fault => exact ⟨rfl, rfl⟩
    | ok link => exact ⟨rfl, rfl⟩

structure LinkedSession where
  stream : LiveStream
  waiting : List WaitingCall

inductive LinkedEvent : Type 1 where
  | start
  | transmit {α : Type} [HostSample α] (channel : UInt8) (samples : List α) (info : TransferMeta)
    (wait : Wait)
  /-- A waiting call wakes up and offers what it has left. -/
  | resume (place : Nat)
  | receive {α : Type} [HostSample α] (channel : UInt8) (buffer : List α) (info : TransferMeta)
    (wait : Wait)
  | status (channel : UInt8) (direction : Direction)
  /-- The receive worker takes a packet. -/
  | read
  /-- The transmit worker makes a pass. -/
  | send (draining : Bool)
  | halt (reason : Option Fault)
  | link (e : LinkEvent)

namespace LinkedSession

def setUp (c : StreamConfig) (monitor : Option Monitor) (link : Link) : LinkedSession :=
  ⟨⟨.create c monitor, link⟩, []⟩

def world (x : LinkedSession) : World := ⟨x.stream.session, x.waiting⟩

/-- A step of the session alone. -/
def act (x : LinkedSession) (e : Event) : LinkedSession :=
  { stream := { x.stream with session := (x.world.step e).session }
    waiting := (x.world.step e).waiting }

def step (x : LinkedSession) : LinkedEvent → LinkedSession
  | .start => { x with stream := x.stream.start }
  | @LinkedEvent.transmit _ _ channel samples info wait =>
    x.act (.transmit channel samples info x.stream.link.hardwareTime wait)
  | .resume place => x.act (.resume place)
  | @LinkedEvent.receive _ _ channel buffer info wait => x.act (.receive channel buffer info wait)
  | .status _ _ => x
  | .read => { x with stream := x.stream.readOnce }
  | .send draining => { x with stream := (x.stream.pass draining).1 }
  | .halt reason => x.act (.halt reason)
  | .link e => { x with stream := { x.stream with link := LinkEvent.apply x.stream.link e } }

def run (x : LinkedSession) (events : List LinkedEvent) : LinkedSession := events.foldl step x

/-- What `f` sees of every step of a run, in order. -/
def observe {β : Type u} (f : LinkedSession → LinkedEvent → List β) (x : LinkedSession) :
    List LinkedEvent → List β
  | [] => []
  | e :: rest => f x e ++ observe f (x.step e) rest

/-- What a step is for the session, with the answers of the link. -/
def event? (x : LinkedSession) : LinkedEvent → Option Event
  | @LinkedEvent.transmit _ _ channel samples info wait =>
    some (.transmit channel samples info x.stream.link.hardwareTime wait)
  | .resume place => some (.resume place)
  | @LinkedEvent.receive _ _ channel buffer info wait => some (.receive channel buffer info wait)
  | .read => match x.stream.link.read with
    | .error reason => some (.halt (some reason))
    | .ok none => none
    | .ok (some (packet, _)) => some (.arrive packet)
  | .send draining => some (x.stream.passEvent draining)
  | .halt reason => some (.halt reason)
  | .start | .status _ _ | .link _ => none

variable {x : LinkedSession} {e : LinkedEvent} {β : Type u}

theorem step_world (running : e ≠ .start) :
    (x.step e).world = (x.event? e).elim x.world x.world.step := by
  cases e with
  | start => exact absurd rfl running
  | read =>
    simp only [step, event?, LiveStream.readOnce]
    cases x.stream.link.read with
    | error reason => rfl
    | ok arrival =>
      cases arrival with
      | none => rfl
      | some arrival => rfl
  | send draining => exact congrArg (World.mk · x.waiting) (x.stream.pass_session draining)
  | _ => rfl

theorem step_session (running : e ≠ .start) :
    (x.step e).stream.session = ((x.event? e).elim x.world x.world.step).session :=
  congrArg World.session (step_world running)

theorem run_append (x : LinkedSession) (done rest : List LinkedEvent) :
    x.run (done ++ rest) = (x.run done).run rest := List.foldl_append

/-- A link that has failed stays so. -/
theorem step_failure (failed : x.stream.link.failure ≠ none) (e : LinkedEvent) :
    (x.step e).stream.link.failure ≠ none := by
  have wired {s : LiveStream} (step : LiveStream.Step x.stream s) : s.link.failure ≠ none := by
    have same := congrArg Link.failure step.wiring_eq
    exact same ▸ failed
  cases e with
  | start =>
    have refused : ∃ fault, x.stream.link.hardwareTime = .error fault := by
      obtain ⟨reason, broken⟩ := Option.ne_none_iff_exists'.mp failed
      exact ⟨.transportFailure reason, by simp [Link.hardwareTime, Link.fault?, broken]⟩
    obtain ⟨fault, unread⟩ := refused
    simpa [step, LiveStream.start, unread] using failed
  | read => exact wired (.read _)
  | send draining => exact wired (.pass _ draining)
  | link e => cases e <;> first | exact failed | exact Option.some_ne_none _
  | _ => exact failed

/-- A link that works behind a run has worked all along. -/
theorem working_of_run (events : List LinkedEvent)
    (working : (x.run events).stream.link.failure = none) : x.stream.link.failure = none := by
  by_contra failed
  exact List.foldlRecOn (motive := fun y : LinkedSession => y.stream.link.failure ≠ none) events
    step failed (fun _ broken e _ => step_failure broken e) working

section runs
variable {P : LinkedSession → Prop} {γ : Type u}

theorem run_invariant (preserved : ∀ x e, P x → P (x.step e)) (initial : P x)
    (events : List LinkedEvent) : P (x.run events) := by
  induction events generalizing x with
  | nil => exact initial
  | cons e rest ih => exact ih (preserved x e initial)

theorem mem_observe {f : LinkedSession → LinkedEvent → List β} {R : β → Prop}
    (preserved : ∀ x e, P x → P (x.step e)) (holds : ∀ x e, P x → ∀ b ∈ f x e, R b)
    (initial : P x) (events : List LinkedEvent) : ∀ b ∈ observe f x events, R b := by
  induction events generalizing x with
  | nil => exact List.forall_mem_nil _
  | cons e rest ih =>
    intro b member
    rcases List.mem_append.mp member with now | later
    · exact holds x e initial b now
    · exact ih (preserved x e initial) b later

theorem observe_append (f : LinkedSession → LinkedEvent → List β) (x : LinkedSession)
    (done rest : List LinkedEvent) :
    observe f x (done ++ rest) = observe f x done ++ observe f (x.run done) rest := by
  induction done generalizing x with
  | nil => rfl
  | cons e done ih =>
    rw [List.cons_append, observe, observe, ih, List.append_assoc]
    rfl

theorem observe_map (f : LinkedSession → LinkedEvent → List β) (h : β → γ) (x : LinkedSession)
    (events : List LinkedEvent) :
    (observe f x events).map h = observe (fun x e => (f x e).map h) x events := by
  induction events generalizing x with
  | nil => rfl
  | cons e rest ih => rw [observe, observe, List.map_append, ih]

theorem observe_filter (f : LinkedSession → LinkedEvent → List β) (p : β → Bool)
    (x : LinkedSession) (events : List LinkedEvent) :
    (observe f x events).filter p = observe (fun x e => (f x e).filter p) x events := by
  induction events generalizing x with
  | nil => rfl
  | cons e rest ih => rw [observe, observe, List.filter_append, ih]

end runs

section ordered
variable {P : LinkedSession → Prop} {γ : Type} {R : γ → γ → Prop}
  {f : LinkedSession → LinkedEvent → List β} (level : LinkedSession → γ) (value : β → γ)

/-- What every step shows between its two ends, in order, a run shows in order. -/
theorem observe_ordered (trans : ∀ {a b c}, R a b → R b c → R a c)
    (preserved : ∀ x e, P x → P (x.step e))
    (onward : ∀ x e, P x → R (level x) (level (x.step e)))
    (between : ∀ x e, P x → ∀ b ∈ f x e, R (level x) (value b) ∧ R (value b) (level (x.step e)))
    (inOrder : ∀ x e, P x → (f x e).Pairwise fun a b => R (value a) (value b))
    (initial : P x) (events : List LinkedEvent) :
    (∀ b ∈ observe f x events, R (level x) (value b)) ∧
      (observe f x events).Pairwise fun a b => R (value a) (value b) := by
  induction events generalizing x with
  | nil => exact ⟨List.forall_mem_nil _, .nil⟩
  | cons e rest ih =>
    obtain ⟨above, ordered⟩ := ih (preserved x e initial)
    constructor
    · intro b member
      rcases List.mem_append.mp member with now | later
      · exact (between x e initial b now).1
      · exact trans (onward x e initial) (above b later)
    · refine List.pairwise_append.mpr ⟨inOrder x e initial, ordered, ?_⟩
      intro a now b later
      exact trans (between x e initial a now).2 (above b later)

end ordered

end LinkedSession
end RadioStream
