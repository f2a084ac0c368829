import Mathlib.Data.List.Forall2
import RadioStream.Proofs.Reception.Isolation

/-!
Receive channels of a module do not interfere. What happens to a channel is its own packets, the
end of the stream and the calls for it; from these alone follows what the calls are answered. The
one thing that channels share is a failure, which is told once: a call for something else that is
told of it takes it away from the channel's next call.
-/
namespace RadioStream

/-- What a receive channel meets. -/
inductive ChannelEvent : Type 1 where
  | arrives (p : RxPacket)
  /-- The stream is halted, by a failure or without a reason. -/
  | ends (reason : Option Fault)
  /-- A call for something else is told of the failure that was kept. -/
  | toldElsewhere
  | receives {α : Type} [HostSample α] (buffer : List α) (info : TransferMeta) (wait : Wait)
  | asks

/-- What a call for a channel is answered: a delivery, or the counters, the fill and the direction
of a snapshot. -/
inductive ChannelAnswer : Type 1 where
  | delivery {α : Type} (d : Delivery α)
  | counters (outcome : Except Fault (Traffic × Single × Direction))

def ChannelAnswer.fault? : ChannelAnswer → Option Fault
  | delivery d => faultOf d.outcome
  | counters outcome => faultOf outcome

/-- A snapshot without its time. -/
def Snapshot.untimed (s : Snapshot) : Traffic × Single × Direction :=
  (s.traffic, s.fill, s.direction)

namespace ChannelEvent

def isToldElsewhere : ChannelEvent → Bool
  | toldElsewhere => true
  | _ => false

/-- What an event makes of an isolated session. -/
def apply (channel : UInt8) (s : Session) : ChannelEvent → Session
  | arrives p => (s.accept p).isolate channel
  | ends _ => s.halt none
  | @receives _ _ buffer info wait =>
    if s.halted then s else (s.receive channel buffer info wait).2
  | toldElsewhere | asks => s

/-- What an event makes of the failure that is kept. -/
def keep (failure : Option Fault) : ChannelEvent → Option Fault
  | arrives _ => failure
  | ends reason => failure <|> reason
  | toldElsewhere | receives _ _ _ | asks => none

/-- What an isolated session answers when there is no failure to tell. -/
def answer (channel : UInt8) (s : Session) : ChannelEvent → List ChannelAnswer
  | @receives _ _ buffer info wait =>
    if s.halted then [.delivery ⟨.error .stopped, buffer, info⟩]
    else [.delivery (s.receive channel buffer info wait).1]
  | asks => [.counters ((s.status channel .rx).map Snapshot.untimed)]
  | _ => []

/-- The answer with a failure. -/
def told (failure : Fault) : ChannelEvent → List ChannelAnswer
  | receives buffer info _ => [.delivery ⟨.error failure, buffer, info⟩]
  | asks => [.counters (.error failure)]
  | _ => []

/-- The answers to a sequence of events, each with the failure that it tells. -/
def replies (channel : UInt8) (s : Session) (failure : Option Fault) :
    List ChannelEvent → List (Option Fault × ChannelAnswer)
  | [] => []
  | e :: rest =>
    (failure.elim (e.answer channel s) e.told).map (failure, ·) ++
      replies channel (e.apply channel s) (e.keep failure) rest

/-- The answers to a sequence of events were there never a failure to tell. -/
def answers (channel : UInt8) (s : Session) : List ChannelEvent → List ChannelAnswer
  | [] => []
  | e :: rest => e.answer channel s ++ answers channel (e.apply channel s) rest

variable {channel : UInt8} {s : Session} {failure : Option Fault}

theorem replies_append (first second : List ChannelEvent) :
    replies channel s failure (first ++ second) = replies channel s failure first ++
      replies channel (first.foldl (apply channel) s) (first.foldl keep failure) second := by
  induction first generalizing s failure with
  | nil => rfl
  | cons e rest ih => rw [List.cons_append, replies, ih, replies, List.append_assoc]; rfl

/-- What others are told is nothing to the channel. -/
theorem answers_filter (events : List ChannelEvent) :
    answers channel s (events.filter (!·.isToldElsewhere)) = answers channel s events := by
  induction events generalizing s with
  | nil => rfl
  | cons e rest ih =>
    cases e with
    | toldElsewhere => exact ih
    | _ =>
      rw [List.filter_cons_of_pos rfl, answers, answers, ih]

/-- The replies that tell no failure are the answers. -/
theorem replies_answers (channel : UInt8) (s : Session) (failure : Option Fault)
    (events : List ChannelEvent) :
    List.Forall₂ (fun x a => x.1 = none → x.2 = a) (replies channel s failure events)
      (answers channel s events) := by
  induction events generalizing s failure with
  | nil => exact .nil
  | cons e rest ih =>
    have here : List.Forall₂ (fun (x : Option Fault × ChannelAnswer) a => x.1 = none → x.2 = a)
        ((failure.elim (e.answer channel s) e.told).map (failure, ·)) (e.answer channel s) := by
      cases failure with
      | none =>
        rw [List.forall₂_map_left_iff]
        exact List.forall₂_same.mpr fun _ _ _ => rfl
      | some reason =>
        cases e with
        | receives buffer info wait =>
          rw [answer]
          split <;> exact .cons (by simp) .nil
        | asks => exact .cons (by simp) .nil
        | _ => exact .nil
    exact List.rel_append here (ih _ _)

theorem replies_told (channel : UInt8) (s : Session) (failure : Option Fault)
    (events : List ChannelEvent) : ∀ x ∈ replies channel s failure events,
      ∀ reason, x.1 = some reason → x.2.fault? = some reason := by
  induction events generalizing s failure with
  | nil => exact List.forall_mem_nil _
  | cons e rest ih =>
    intro x member
    rcases List.mem_append.mp member with here | later
    · obtain ⟨a, told, rfl⟩ := List.mem_map.mp here
      rintro reason rfl
      cases e with
      | receives buffer info wait =>
        obtain rfl := List.mem_singleton.mp told
        rfl
      | asks =>
        obtain rfl := List.mem_singleton.mp told
        rfl
      | _ => contradiction
    · exact ih _ _ x later

/-- Replies that go back to the same answers agree where neither tells a failure. -/
theorem replies_agree {answered : List ChannelAnswer}
    {first second : List (Option Fault × ChannelAnswer)}
    (left : List.Forall₂ (fun x a => x.1 = none → x.2 = a) first answered)
    (right : List.Forall₂ (fun x a => x.1 = none → x.2 = a) second answered) :
    List.Forall₂ (fun x y => x.1 = none → y.1 = none → x.2 = y.2) first second := by
  induction left generalizing second with
  | nil =>
    cases right
    exact .nil
  | cons same _ ih =>
    cases right with
    | cons same' rest =>
      exact .cons (fun none none' => (same none).trans (same' none').symm) (ih rest)

end ChannelEvent

namespace ModuleEvent

def receivesOn (channel : UInt8) : ModuleEvent → Bool
  | @receive _ _ on _ _ _ => on == channel
  | _ => false

end ModuleEvent

/-- The end of a stream, unless it has ended before. -/
def Session.ending (s : Session) (reason : Option Fault) : List ChannelEvent :=
  if s.halted then [] else [.ends reason]

namespace RfModule

/-- A call that is not for the channel: it is told of a failure, if there is one. -/
def telling (m : RfModule) : List ChannelEvent :=
  if m.failure?.isSome then [.toldElsewhere] else []

/-- What a step is for a receive channel. -/
def channelEvents (channel : UInt8) (m : RfModule) : ModuleEvent → List ChannelEvent
  | .read => match m.stage, m.link.read with
    | .running s, .error reason => s.ending (some reason)
    | .running _, .ok (some (p, _)) => if p.channel = channel then [.arrives p] else []
    | _, _ => []
  | .halt reason => match m.stage with
    | .running s => s.ending reason
    | _ => []
  | .shut => match m.stage with
    | .running s => s.ending none
    | _ => []
  | .stop => match m.failure?, m.stage with
    | some _, _ => [.toldElsewhere]
    | none, .running s => s.ending none
    | none, _ => []
  | @ModuleEvent.receive _ _ on buffer info wait =>
    if on = channel then m.stage.session?.toList.map fun s => .receives buffer info (wait s)
    else m.telling
  | .status on direction => if on = channel ∧ direction = .rx then [.asks] else m.telling
  | .start | @ModuleEvent.transmit _ _ _ _ _ _ => m.telling
  | .setup _ _ | .link _ | .send _ | .keep _ | .conclude _ | .settle => []

/-- What a step answers, if it is a call for a receive channel, with the failure that it tells. -/
def channelAnswers (channel : UInt8) (m : RfModule) :
    ModuleEvent → List (Option Fault × ChannelAnswer)
  | @ModuleEvent.receive _ _ on buffer info wait =>
    if on = channel then [(m.failure?, .delivery (m.receiveNow on buffer info wait).1)] else []
  | .status on direction =>
    if on = channel ∧ direction = .rx then
      [(m.failure?, .counters ((m.status on direction).1.map Snapshot.untimed))]
    else []
  | _ => []

/-- What `f` sees of every step of a run, in order. -/
def observe {β : Type 1} (f : RfModule → ModuleEvent → List β) (m : RfModule) :
    List ModuleEvent → List β
  | [] => []
  | e :: rest => f m e ++ observe f (m.step e) rest

/-- A single step of the same stream, no half of a halt that leaves the stream running, that does
not receive on the channel between the halt of the stream and its end: every call for a transfer
concludes a halted stream first. -/
structure Proper (channel : UInt8) (m : RfModule) (e : ModuleEvent) : Prop where
  single : e.isSingle = true
  whole : e.isKeep = false
  same : m.renews e = false
  concluded : e.receivesOn channel = true → m.phase = .running → m.halted? = some false

instance (channel : UInt8) (m : RfModule) (e : ModuleEvent) : Decidable (m.Proper channel e) :=
  decidable_of_iff (e.isSingle = true ∧ e.isKeep = false ∧ m.renews e = false ∧
      (e.receivesOn channel = true → m.phase = .running → m.halted? = some false))
    ⟨fun h => ⟨h.1, h.2.1, h.2.2.1, h.2.2.2⟩, fun h => ⟨h.single, h.whole, h.same, h.concluded⟩⟩

def Orderly (channel : UInt8) : RfModule → List ModuleEvent → Prop
  | _, [] => True
  | m, e :: rest => m.Proper channel e ∧ Orderly channel (m.step e) rest

instance decidableOrderly (channel : UInt8) : (m : RfModule) → (events : List ModuleEvent) →
    Decidable (m.Orderly channel events)
  | _, [] => inferInstanceAs (Decidable True)
  | m, e :: rest =>
    have := decidableOrderly channel (m.step e) rest
    inferInstanceAs (Decidable (m.Proper channel e ∧ (m.step e).Orderly channel rest))

/-- A module whose stream has begun, only receives and is not watched. -/
structure Receiving (m : RfModule) (s : Session) : Prop where
  stage : m.stage = .running s ∨ m.stage = .stopped s ∧ s.halted = true
  idle : s.tx = []
  unwatched : s.monitor = none
  kept : s.halted = false → s.failure = none

/-- What a step makes of the session: an isolated channel follows its own events. -/
structure Follows (channel : UInt8) (m : RfModule) (s : Session) (e : ModuleEvent) (t : Session) :
    Prop where
  receiving : (m.step e).Receiving t
  isolated : t.isolate channel =
    (m.channelEvents channel e).foldl (ChannelEvent.apply channel) (s.isolate channel)
  failure : t.failure = (m.channelEvents channel e).foldl ChannelEvent.keep s.failure
  answers : m.channelAnswers channel e =
    ChannelEvent.replies channel (s.isolate channel) s.failure (m.channelEvents channel e)

theorem surfacing_clears {α : Type} {m : RfModule} {body : RfModule → Except Fault α × RfModule}
    (kept : m.failure?.isSome) : (m.surfacing body).2 = m.clearFailure := by
  obtain ⟨reason, there⟩ := Option.isSome_iff_exists.mp kept
  rw [surfacing, there]

theorem surfacing_quiet {α : Type} {m : RfModule} {body : RfModule → Except Fault α × RfModule}
    (quiet : m.failure? = none) : m.surfacing body = body m := by
  rw [surfacing, quiet]

namespace Receiving
variable {channel : UInt8} {m n : RfModule} {s : Session} {e : ModuleEvent}

theorem of_stage (r : m.Receiving s) (same : n.stage = m.stage) : n.Receiving s :=
  ⟨same ▸ r.stage, r.idle, r.unwatched, r.kept⟩

theorem failure?_eq (r : m.Receiving s) : m.failure? = s.failure := by
  rcases r.stage with stage | ⟨stage, _⟩ <;> rw [failure?, stage] <;> rfl

theorem session?_eq (r : m.Receiving s) : m.stage.session? = some s := by
  rcases r.stage with stage | ⟨stage, _⟩ <;> rw [stage] <;> rfl

theorem clearFailure (r : m.Receiving s) :
    m.clearFailure.Receiving { s with failure := none } where
  stage := by
    rcases r.stage with stage | ⟨stage, halted⟩
    · exact .inl (by rw [RfModule.clearFailure, stage]; rfl)
    · exact .inr ⟨by rw [RfModule.clearFailure, stage]; rfl, halted⟩
  idle := r.idle
  unwatched := r.unwatched
  kept := fun _ => rfl

theorem of_receive {α : Type} [HostSample α] {on : UInt8} {buffer : List α} {info : TransferMeta}
    {wait : Wait} (r : m.Receiving s)
    (stage : n.stage = .running (s.receive on buffer info wait).2) :
    n.Receiving (s.receive on buffer info wait).2 where
  stage := .inl stage
  idle := (s.receive_tx ..).trans r.idle
  unwatched := by
    rw [s.receive_frame]
    exact r.unwatched
  kept := by
    rw [s.receive_halted, s.receive_failure]
    exact r.kept

theorem halted_of_kept {reason : Fault} (r : m.Receiving s) (kept : s.failure = some reason) :
    s.halted = true := by
  cases halted : s.halted with
  | true => rfl
  | false => simp [r.kept halted] at kept

/-- A step that is nothing to the channel. -/
theorem follows_still {t : Session} (receiving : (m.step e).Receiving t)
    (isolated : t.isolate channel = s.isolate channel) (failure : t.failure = s.failure)
    (nothing : m.channelEvents channel e = []) (silent : m.channelAnswers channel e = []) :
    m.Follows channel s e t := by
  refine ⟨receiving, ?_, ?_, ?_⟩ <;> rw [nothing]
  · exact isolated
  · exact failure
  · exact silent

theorem follows_same (r : m.Receiving s) (same : (m.step e).stage = m.stage)
    (nothing : m.channelEvents channel e = []) (silent : m.channelAnswers channel e = []) :
    m.Follows channel s e s :=
  follows_still (r.of_stage same) rfl rfl nothing silent

/-- A step that is one event for the channel. -/
theorem follows_event {t : Session} {event : ChannelEvent} (receiving : (m.step e).Receiving t)
    (meets : m.channelEvents channel e = [event])
    (isolated : t.isolate channel = event.apply channel (s.isolate channel))
    (failure : t.failure = event.keep s.failure)
    (answers : m.channelAnswers channel e =
      (s.failure.elim (event.answer channel (s.isolate channel)) event.told).map (s.failure, ·)) :
    m.Follows channel s e t := by
  refine ⟨receiving, ?_, ?_, ?_⟩ <;> rw [meets]
  · exact isolated
  · exact failure
  · rw [answers, ChannelEvent.replies, ChannelEvent.replies, List.append_nil]

/-- A call that tells the failure which is kept, and so does nothing else. -/
theorem follows_told {event : ChannelEvent} {reason : Fault} (kept : s.failure = some reason)
    (receiving : (m.step e).Receiving { s with failure := none })
    (meets : m.channelEvents channel e = [event])
    (still : event.apply channel (s.isolate channel) = s.isolate channel)
    (forgets : ∀ failure, event.keep failure = none)
    (answers : m.channelAnswers channel e = (event.told reason).map (some reason, ·)) :
    m.Follows channel s e { s with failure := none } := by
  refine follows_event receiving meets still.symm (forgets _).symm ?_
  rw [answers, kept]
  rfl

/-- A call for something else. -/
theorem follows_elsewhere (r : m.Receiving s) (telling : m.channelEvents channel e = m.telling)
    (silent : m.channelAnswers channel e = [])
    (tells : m.failure?.isSome → m.step e = m.clearFailure)
    (quiet : m.failure? = none → ∃ t, (m.step e).Receiving t ∧
      t.isolate channel = s.isolate channel ∧ t.failure = s.failure) :
    ∃ t, m.Follows channel s e t := by
  cases kept : m.failure? with
  | none =>
    obtain ⟨t, receiving, isolated, failure⟩ := quiet kept
    rw [RfModule.telling, kept, if_neg (by simp)] at telling
    exact ⟨t, follows_still receiving isolated failure telling silent⟩
  | some reason =>
    rw [RfModule.telling, kept, Option.isSome_some, if_pos rfl] at telling
    rw [kept] at tells
    exact ⟨_, follows_told (r.failure?_eq ▸ kept) (tells rfl ▸ r.clearFailure) telling rfl
      (fun _ => rfl) silent⟩

/-- The halt of a running stream. -/
theorem follows_ending (reason : Option Fault)
    (receiving : (m.step e).Receiving (s.halt reason))
    (ends : m.channelEvents channel e = s.ending reason)
    (silent : m.channelAnswers channel e = []) : m.Follows channel s e (s.halt reason) := by
  cases halted : s.halted with
  | true =>
    have same : s.halt reason = s := by rw [Session.halt_eq, if_pos halted]
    rw [Session.ending, if_pos halted] at ends
    exact follows_still receiving (by rw [same]) (by rw [same]) ends silent
  | false =>
    rw [Session.ending, if_neg (by simp [halted])] at ends
    refine follows_event receiving ends (s.isolate_halt channel reason) ?_ ?_
    · rw [Session.halt_failure, if_neg (by simp [halted])]
      rfl
    · rw [silent]
      cases s.failure <;> rfl

theorem halt (r : m.Receiving s) (reason : Option Fault)
    (stage : n.stage = .running (s.halt reason) ∨ n.stage = .stopped (s.halt reason)) :
    n.Receiving (s.halt reason) where
  stage := stage.imp_right fun stopped => ⟨stopped, s.halt_halted reason⟩
  idle := Session.halt_idle r.idle reason
  unwatched := (s.halt_monitor reason).trans r.unwatched
  kept := by
    intro going
    rw [s.halt_halted reason] at going
    contradiction

theorem follows_receive {α : Type} [HostSample α] (r : m.Receiving s) (buffer : List α)
    (info : TransferMeta) (wait : Session → Wait)
    (concluded : m.phase = .running → m.halted? = some false) :
    ∃ t, m.Follows channel s (.receive channel buffer info wait) t := by
  have meets : m.channelEvents channel (.receive channel buffer info wait) =
      [.receives buffer info (wait s)] := by
    rw [channelEvents, if_pos rfl, r.session?_eq]
    rfl
  have answer : m.channelAnswers channel (.receive channel buffer info wait) =
      [(s.failure, .delivery (m.receiveNow channel buffer info wait).1)] := by
    rw [channelAnswers, if_pos rfl, r.failure?_eq]
  have alone : (s.isolate channel).halted = s.halted := rfl
  cases kept : s.failure with
  | some reason =>
    -- a failure is kept only behind a halt, where an isolated session takes nothing either
    have halted := r.halted_of_kept kept
    have told : m.receiveNow channel buffer info wait =
        (⟨.error reason, buffer, info⟩, m.clearFailure) := by
      rw [receiveNow, r.failure?_eq, kept]
    refine ⟨_, follows_told kept ?_ meets (if_pos halted) (fun _ => rfl) ?_⟩
    · rw [step, told]
      exact r.clearFailure
    · rw [answer, told, kept]
      rfl
  | none =>
    have quiet : m.failure? = none := r.failure?_eq.trans kept
    rcases r.stage with stage | ⟨stage, halted⟩
    · have going : s.halted = false := by
        have := concluded (congrArg Stage.phase stage)
        rw [halted?, r.session?_eq] at this
        exact Option.some.inj this
      have taken : m.receiveNow channel buffer info wait =
          ((s.receive channel buffer info (wait s)).1,
            { m with stage := .running (s.receive channel buffer info (wait s)).2 }) := by
        rw [receiveNow, quiet, stage]
      obtain ⟨same, isolated⟩ := s.isolate_receive channel buffer info (wait s)
      refine ⟨(s.receive channel buffer info (wait s)).2, follows_event ?_ meets ?_ ?_ ?_⟩
      · rw [step, taken]
        exact r.of_receive rfl
      · rw [ChannelEvent.apply, alone, if_neg (by simp [going])]
        exact isolated
      · exact (s.receive_failure ..).trans kept
      · rw [answer, taken, kept, same]
        simp [ChannelEvent.answer, alone, going]
    · have refused : m.receiveNow channel buffer info wait =
          (⟨.error .stopped, buffer, info⟩, m) := by
        rw [receiveNow, quiet, stage]
        rfl
      refine ⟨s, follows_event ?_ meets ?_ kept ?_⟩
      · rw [step, refused]
        exact r
      · rw [ChannelEvent.apply, alone, if_pos halted]
      · rw [answer, refused, kept]
        simp [ChannelEvent.answer, alone, halted]

theorem follows_status (r : m.Receiving s) :
    ∃ t, m.Follows channel s (.status channel .rx) t := by
  have meets : m.channelEvents channel (.status channel .rx) = [.asks] := if_pos ⟨rfl, rfl⟩
  have answer : m.channelAnswers channel (.status channel .rx) =
      [(s.failure, .counters ((m.status channel .rx).1.map Snapshot.untimed))] := by
    rw [channelAnswers, if_pos ⟨rfl, rfl⟩, r.failure?_eq]
  cases kept : s.failure with
  | some reason =>
    have told : m.status channel .rx = (.error reason, m.clearFailure) := by
      rw [status, surfacing, r.failure?_eq, kept]
    refine ⟨_, follows_told kept ?_ meets rfl (fun _ => rfl) ?_⟩
    · rw [step, told]
      exact r.clearFailure
    · rw [answer, told, kept]
      rfl
  | none =>
    have asked : m.status channel .rx = (s.status channel .rx, m) := by
      rw [status, surfacing, r.failure?_eq, kept]
      dsimp only
      rw [r.session?_eq]
    have same : (s.status channel .rx).map Snapshot.untimed =
        ((s.isolate channel).status channel .rx).map Snapshot.untimed := by
      rw [Session.status, Session.status, s.isolate_rxLane?]
      cases s.rxLane? channel <;> rfl
    refine ⟨s, follows_event ?_ meets rfl kept ?_⟩
    · rw [step, asked]
      exact r
    · rw [answer, asked, kept, same]
      rfl

theorem follows_read (r : m.Receiving s) : ∃ t, m.Follows channel s .read t := by
  rcases r.stage with stage | ⟨stage, _⟩
  · cases taken : m.link.read with
    | error reason =>
      refine ⟨s.halt (some reason), follows_ending (some reason) (r.halt _ (.inl ?_)) ?_ rfl⟩
      · simp only [step, onStream, stage, LiveStream.readOnce, taken]
      · simp only [channelEvents, stage, taken]
    | ok arrival =>
      rcases arrival with _ | ⟨p, link⟩
      · refine ⟨s, r.follows_same ?_ ?_ rfl⟩
        · simp only [step, onStream, stage, LiveStream.readOnce, taken]
        · simp only [channelEvents, stage, taken]
      · have after : (m.step .read).stage = .running (s.accept p) := by
          simp only [step, onStream, stage, LiveStream.readOnce, taken]
        have receiving : (m.step .read).Receiving (s.accept p) := by
          obtain ⟨tx, monitor, halted⟩ := Session.accept_frame r.unwatched p
          refine ⟨.inl after, tx.trans r.idle, monitor.trans r.unwatched, ?_⟩
          rw [halted, s.accept_failure]
          exact r.kept
        have events : m.channelEvents channel .read =
            if p.channel = channel then [.arrives p] else [] := by
          simp only [channelEvents, stage, taken]
        by_cases own : p.channel = channel
        · rw [if_pos own] at events
          refine ⟨s.accept p, follows_event receiving events
            (Session.isolate_accept r.unwatched own) (s.accept_failure p) ?_⟩
          cases s.failure <;> rfl
        · rw [if_neg own] at events
          exact ⟨s.accept p, follows_still receiving (Session.isolate_accept_other r.unwatched own)
            (s.accept_failure p) events rfl⟩
  · refine ⟨s, r.follows_same ?_ ?_ rfl⟩
    · simp only [step, onStream, stage]
    · simp only [channelEvents, stage]

theorem windDown_stage (idle : s.tx = []) (m : RfModule) (link : Link) (standing : TxStanding) :
    (m.windDown ⟨s, link⟩ standing).stage = .stopped s := by
  rw [windDown, LiveStream.windDown_idle idle]

theorem follows_stop (r : m.Receiving s) : ∃ t, m.Follows channel s .stop t := by
  -- the failure is told before the stream winds down, which changes nothing that it receives
  let quiet : Session := { s with failure := none }
  have cleared := r.clearFailure
  have ended (stage : m.stage = .running s) :
      (m.step .stop).stage = .stopped (quiet.halt none) := by
    rw [step, stopNow, RfModule.clearFailure, stage]
    exact windDown_stage (Session.halt_idle cleared.idle none) _ _ _
  have rested (stage : m.stage = .stopped s) : m.step .stop = m.clearFailure := by
    simp only [step, stopNow, RfModule.clearFailure, stage, Stage.mapSession]
  cases kept : s.failure with
  | some reason =>
    have events : m.channelEvents channel .stop = [.toldElsewhere] := by
      simp only [channelEvents, r.failure?_eq, kept]
    have halted := r.halted_of_kept kept
    have same : quiet.halt none = quiet := by rw [Session.halt_eq, if_pos halted]
    have receiving : (m.step .stop).Receiving quiet := by
      rcases r.stage with stage | ⟨stage, _⟩
      · exact same ▸ cleared.halt none (.inr (ended stage))
      · exact rested stage ▸ cleared
    exact ⟨quiet, follows_told kept receiving events rfl (fun _ => rfl) rfl⟩
  | none =>
    have same : quiet = s := by
      rw [show quiet = { s with failure := none } from rfl, ← kept]
    rw [same] at ended
    rcases r.stage with stage | ⟨stage, _⟩
    · refine ⟨s.halt none, follows_ending none (r.halt none (.inr (ended stage))) ?_ rfl⟩
      simp only [channelEvents, r.failure?_eq, kept, stage]
    · refine ⟨s, follows_still ?_ rfl rfl ?_ rfl⟩
      · rw [rested stage, ← same]
        exact cleared
      · simp only [channelEvents, r.failure?_eq, kept, stage]

theorem follows (r : m.Receiving s) (proper : m.Proper channel e) :
    ∃ t, m.Follows channel s e t := by
  cases e with
  | setup config monitor =>
    have same : (m.setupNow config monitor).2 = m := by
      rcases m.setupNow_cases config monitor with ⟨done, _⟩ | ⟨_, _, same, _⟩
      · have renewed := proper.same
        rw [renews, done] at renewed
        contradiction
      · exact same
    exact ⟨s, follows_still (by rw [step, same]; exact r) rfl rfl rfl rfl⟩
  | start =>
    refine r.follows_elsewhere rfl rfl ?_ ?_
    · exact surfacing_clears
    · intro quiet
      refine ⟨s, r.of_stage ?_, rfl, rfl⟩
      rw [step, startNow, surfacing_quiet quiet]
      rcases r.stage with stage | ⟨stage, _⟩ <;> simp only [stage]
  | stop => exact r.follows_stop
  | receive on buffer info wait =>
    by_cases own : on = channel
    · subst own
      exact r.follows_receive buffer info wait (proper.concluded (beq_self_eq_true on))
    · refine r.follows_elsewhere (if_neg own) (if_neg own) ?_ ?_
      · intro kept
        obtain ⟨reason, there⟩ := Option.isSome_iff_exists.mp kept
        rw [step, receiveNow, there]
      · intro quiet
        rw [step, receiveNow, quiet]
        rcases r.stage with stage | ⟨stage, halted⟩ <;> rw [stage]
        · exact ⟨(s.receive on buffer info (wait s)).2, r.of_receive rfl,
            Session.isolate_receive_other own s buffer info (wait s), s.receive_failure ..⟩
        · exact ⟨s, r, rfl, rfl⟩
  | transmit on samples info wait =>
    refine r.follows_elsewhere rfl rfl ?_ ?_
    · exact surfacing_clears
    · intro quiet
      refine ⟨s, r.of_stage ?_, rfl, rfl⟩
      rw [step, transmitNow, surfacing_quiet quiet]
      rcases r.stage with stage | ⟨stage, _⟩
      · simp only [stage, Session.transmit_idle r.idle]
      · simp only [stage]
  | status on direction =>
    by_cases own : on = channel ∧ direction = .rx
    · obtain ⟨rfl, rfl⟩ := own
      exact r.follows_status
    · refine r.follows_elsewhere (if_neg own) (if_neg own) ?_ ?_
      · exact surfacing_clears
      · intro quiet
        refine ⟨s, r.of_stage ?_, rfl, rfl⟩
        rw [step, RfModule.status, surfacing_quiet quiet, r.session?_eq]
  | link e => exact ⟨s, r.follows_same rfl rfl rfl⟩
  | read => exact r.follows_read
  | send draining =>
    rcases r.stage with stage | ⟨stage, _⟩
    · have after : (m.step (.send draining)).stage = .running
          { s with timeline := (s.timeline.now m.link.hardwareTime).2 } := by
        simp only [step, onStream, stage, LiveStream.pass_session, Session.pass_idle r.idle]
      refine ⟨_, follows_still ⟨.inl after, r.idle, r.unwatched, r.kept⟩ ?_ rfl rfl rfl⟩
      cases m.link.hardwareTime <;> rfl
    · exact ⟨s, r.follows_same (by simp only [step, onStream, stage]) rfl rfl⟩
  | halt reason =>
    rcases r.stage with stage | ⟨stage, _⟩
    · refine ⟨s.halt reason, follows_ending reason (r.halt _ (.inl ?_)) ?_ rfl⟩
      · simp only [step, onStream, stage]
      · simp only [channelEvents, stage]
    · refine ⟨s, r.follows_same ?_ ?_ rfl⟩
      · simp only [step, onStream, stage]
      · simp only [channelEvents, stage]
  | keep reason => exact absurd proper.whole Bool.noConfusion
  | shut =>
    rcases r.stage with stage | ⟨stage, _⟩
    · refine ⟨s.halt none, follows_ending none (r.halt _ (.inl ?_)) ?_ rfl⟩
      · simp only [step, onStream, stage, Session.halt_none]
      · simp only [channelEvents, stage]
    · refine ⟨s, r.follows_same ?_ ?_ rfl⟩
      · simp only [step, onStream, stage]
      · simp only [channelEvents, stage]
  | conclude standing =>
    rcases r.stage with stage | ⟨stage, _⟩
    · cases halted : s.halted with
      | true =>
        refine ⟨s, follows_still ⟨.inr ⟨?_, halted⟩, r.idle, r.unwatched, r.kept⟩ rfl rfl rfl rfl⟩
        simp only [step, RfModule.conclude, stage, halted, if_true]
        exact windDown_stage r.idle m m.link standing
      | false =>
        refine ⟨s, r.follows_same ?_ rfl rfl⟩
        simp [step, RfModule.conclude, stage, halted]
    · exact ⟨s, r.follows_same (by simp only [step, RfModule.conclude, stage]) rfl rfl⟩
  | settle => exact absurd proper.single Bool.false_ne_true

end Receiving

/-- The answers for a channel follow from its own events, over a run. -/
theorem observe_replies {channel : UInt8} {m : RfModule} {s : Session} (r : m.Receiving s)
    {events : List ModuleEvent} (orderly : m.Orderly channel events) :
    observe (channelAnswers channel) m events =
      ChannelEvent.replies channel (s.isolate channel) s.failure
        (observe (channelEvents channel) m events) := by
  induction events generalizing m s with
  | nil => rfl
  | cons e rest ih =>
    obtain ⟨proper, orderly⟩ := orderly
    obtain ⟨t, follows⟩ := r.follows proper
    rw [observe, observe, ChannelEvent.replies_append, follows.answers,
      ih follows.receiving orderly, follows.isolated, follows.failure]

theorem receiving_opened {c : StreamConfig} {clock : Tick} {m : RfModule}
    (receiveOnly : c.txChannels = [])
    (running : m.stage = .running (World.opened c none clock).session) :
    m.Receiving (World.opened c none clock).session where
  stage := .inl running
  idle := by
    change c.txChannels.map _ = []
    rw [receiveOnly, List.map_nil]
  unwatched := rfl
  kept := fun _ => rfl

/-- Two streams with the same setup that only receive and are not watched, over any two runs in
which a channel gets the same packets, the stream ends for the same reason and the calls for the
channel are the same, in the same order among these: the calls are answered the same, but for
those that are told of a failure. Where the failure is told at the same place, all are. What other
channels get, or what is received on them, does not matter. -/
theorem receive_channels_separate {c : StreamConfig} {clock : Tick} {m n : RfModule}
    {events others : List ModuleEvent} (receiveOnly : c.txChannels = []) (channel : UInt8)
    (first : m.stage = .running (World.opened c none clock).session)
    (second : n.stage = .running (World.opened c none clock).session)
    (orderly : m.Orderly channel events) (orderly' : n.Orderly channel others)
    (same : (observe (channelEvents channel) m events).filter (!·.isToldElsewhere) =
      (observe (channelEvents channel) n others).filter (!·.isToldElsewhere)) :
    List.Forall₂ (fun x y => x.1 = none → y.1 = none → x.2 = y.2)
      (observe (channelAnswers channel) m events) (observe (channelAnswers channel) n others) ∧
    (∀ x ∈ observe (channelAnswers channel) m events, ∀ reason,
      x.1 = some reason → x.2.fault? = some reason) ∧
    (observe (channelEvents channel) m events = observe (channelEvents channel) n others →
      observe (channelAnswers channel) m events = observe (channelAnswers channel) n others) := by
  rw [observe_replies (receiving_opened receiveOnly first) orderly,
    observe_replies (receiving_opened receiveOnly second) orderly']
  refine ⟨?_, ChannelEvent.replies_told _ _ _ _, fun equal => by rw [equal]⟩
  refine ChannelEvent.replies_agree (ChannelEvent.replies_answers _ _ _ _) ?_
  rw [← ChannelEvent.answers_filter, same, ChannelEvent.answers_filter]
  exact ChannelEvent.replies_answers _ _ _ _

def twoReceivers : StreamConfig := { StreamConfig.default with rxChannels := [0, 1] }

/-- A module whose stream of two receive channels runs. -/
def listening : RfModule :=
  { create 0 (.simulated 2 false) with
    stage := .running (World.opened twoReceivers none .zero).session }

/-- Two samples for channel 0, which takes one of them. -/
def alone : List ModuleEvent :=
  [.link (.inject [⟨0, .zero, [1, 0, 2, 0, 3, 0, 4, 0]⟩]), .read,
    .receive 0 [(⟨0, 0⟩ : IntSample)] .plain waitOf, .status 0 .rx]

/-- The same among packets for channel 1 and for none, of which some are received, while time goes
on and a pass is made. -/
def among : List ModuleEvent :=
  [.link (.inject [⟨1, Tick.clamp 9, [7, 0, 7, 0]⟩, ⟨0, .zero, [1, 0, 2, 0, 3, 0, 4, 0]⟩,
      ⟨5, .zero, [1, 1, 1, 1]⟩]), .read, .link (.setTime (Tick.clamp 40)), .send false,
    .receive 1 [(⟨0, 0⟩ : IntSample)] .plain waitOf, .read, .read, .status 1 .rx,
    .receive 0 [(⟨0, 0⟩ : IntSample)] .plain waitOf, .status 0 .rx]

theorem receive_channels_separate_among :
    let met : List ChannelEvent := [.arrives ⟨0, .zero, [1, 0, 2, 0, 3, 0, 4, 0]⟩,
      .receives [(⟨0, 0⟩ : IntSample)] .plain .poll, .asks]
    twoReceivers.txChannels = [] ∧
      listening.stage = .running (World.opened twoReceivers none .zero).session ∧
      listening.Orderly 0 alone ∧ listening.Orderly 0 among ∧
      observe (channelEvents 0) listening alone = met ∧
      observe (channelEvents 0) listening among = met ∧
      (observe (channelAnswers 0) listening alone).length = 2 ∧
      observe (channelAnswers 0) listening alone = observe (channelAnswers 0) listening among := by
  intro met
  have orderly : listening.Orderly 0 alone := by decide +kernel
  have orderly' : listening.Orderly 0 among := by decide +kernel
  have events : observe (channelEvents 0) listening alone = met := rfl
  have events' : observe (channelEvents 0) listening among = met := rfl
  have equal := events.trans events'.symm
  exact ⟨rfl, rfl, orderly, orderly', events, events', rfl,
    (receive_channels_separate rfl 0 rfl rfl orderly orderly' (congrArg _ equal)).2.2 equal⟩

/-- The link fails, and channel 1 is told of it. -/
def toldHere : List ModuleEvent :=
  [.link (.fail "unplugged"), .read, .conclude .waiting,
    .receive 1 [(⟨0, 0⟩ : IntSample)] .plain waitOf]

/-- The link fails in the same way, and channel 0 is told of it before channel 1 asks. -/
def toldBeside : List ModuleEvent :=
  [.link (.fail "unplugged"), .read, .conclude .waiting,
    .receive 0 [(⟨0, 0⟩ : IntSample)] .plain waitOf,
    .receive 1 [(⟨0, 0⟩ : IntSample)] .plain waitOf]

/-- A failure is all that channels share: who is told of it first decides what the other one is
answered. -/
theorem receive_told_beside :
    let failure := Fault.transportFailure "unplugged"
    let refusal (fault : Fault) : ChannelAnswer :=
      .delivery ⟨.error fault, [(⟨0, 0⟩ : IntSample)], .plain⟩
    twoReceivers.txChannels = [] ∧
      listening.stage = .running (World.opened twoReceivers none .zero).session ∧
      listening.Orderly 1 toldHere ∧ listening.Orderly 1 toldBeside ∧
      (observe (channelEvents 1) listening toldHere).filter (!·.isToldElsewhere) =
        (observe (channelEvents 1) listening toldBeside).filter (!·.isToldElsewhere) ∧
      observe (channelAnswers 1) listening toldHere = [(some failure, refusal failure)] ∧
      observe (channelAnswers 1) listening toldBeside = [(none, refusal .stopped)] ∧
      refusal failure ≠ refusal .stopped := by
  refine ⟨rfl, rfl, by decide +kernel, by decide +kernel, rfl, rfl, rfl, ?_⟩
  intro same
  have outcome := congrArg ChannelAnswer.fault? same
  simp [ChannelAnswer.fault?, faultOf] at outcome

end RfModule
end RadioStream
