import RadioStream.Proofs.Transmission.Conservation

/-!
Calls that wait for room. Such a call places its samples from the front, in rounds between which
workers and other callers move, and counts them. However its wait ends it answers with this count,
and how its last round ended only if no round placed any.
-/
namespace RadioStream
open ChannelQueue (granted)

theorem ChannelQueue.granted_offer_le (q : ChannelQueue) (b : Block) (wait : Wait) :
    granted (q.offer b wait).1 ≤ b.length := by
  cases stopped : q.stopped with
  | true =>
    rw [offer_stopped stopped]
    exact Nat.zero_le _
  | false =>
    rw [granted_offer stopped]
    exact Nat.min_le_right _ _

/-- A waiting call before and after it has placed some samples. -/
structure WaitingCall.Advanced (call later : WaitingCall) (put : List Stamped) : Prop where
  channel_eq : later.channel = call.channel
  samples_eq : call.samples = put ++ later.samples
  placed_eq : later.placed = call.placed + put.length

namespace WaitingCall.Advanced
variable {call later last : WaitingCall} {first second : List Stamped}

theorem refl (call : WaitingCall) : call.Advanced call [] := ⟨rfl, rfl, rfl⟩

theorem trans (before : call.Advanced later first) (behind : later.Advanced last second) :
    call.Advanced last (first ++ second) where
  channel_eq := behind.channel_eq.trans before.channel_eq
  samples_eq := by rw [before.samples_eq, behind.samples_eq, List.append_assoc]
  placed_eq := by rw [behind.placed_eq, before.placed_eq, List.length_append, Nat.add_assoc]

theorem after (call : WaitingCall) {accepted : Nat} (fits : accepted ≤ call.samples.length) :
    call.Advanced (call.after accepted) (call.samples.take accepted) where
  channel_eq := rfl
  samples_eq := (List.take_append_drop accepted call.samples).symm
  placed_eq := by rw [List.length_take_of_le fits]; rfl

end WaitingCall.Advanced

namespace Session
variable {s : Session} {size : Nat}

theorem granted_resume_le (s : Session) {call : WaitingCall} (sound : call.Sound size) :
    granted (s.resume call).1 ≤ call.samples.length := by
  rw [← sound.content_eq, sound.whole.length_content, resume]
  split
  · exact Nat.zero_le _
  · exact ChannelQueue.granted_offer_le ..

theorem granted_transmit_le {α : Type} [HostSample α] (s : Session) (channel : UInt8)
    (samples : List α) (info : TransferMeta) (reading : Except Fault Tick) (wait : Wait) :
    granted (s.transmit channel samples info reading wait).1 ≤
      (s.config.encoded samples info).length := by
  obtain ⟨whole, content⟩ := encoded_sound s.config samples info
  rw [← content, whole.length_content]
  obtain ⟨_, _, _, ⟨_, _, nothing⟩ | ⟨lane, _, ⟨_, outcome, _⟩ | ⟨outcome, _⟩ | ⟨outcome, _⟩⟩⟩ :=
    s.transmit_cases channel samples info reading wait
  · cases outcome : (s.transmit channel samples info reading wait).1 with
    | error fault => exact Nat.zero_le _
    | ok accepted =>
      obtain rfl := nothing accepted outcome
      exact Nat.zero_le _
  · rw [outcome]
    exact Nat.zero_le _
  · rw [outcome]
    exact Nat.zero_le _
  · rw [outcome, ChannelQueue.granted_mapError]
    exact ChannelQueue.granted_offer_le ..

end Session

/-- A call that waits has placed what its first offer put in. -/
theorem WaitingCall.ofTransmit?_advanced {α : Type} [HostSample α] {c : StreamConfig}
    {channel : UInt8} {samples : List α} {info : TransferMeta} {wait : Wait}
    {outcome : Except Fault Nat} {call : WaitingCall}
    (waits : call ∈ ofTransmit? c channel samples info wait outcome) :
    call.channel = channel ∧ call.samples = (c.encoded samples info).drop (granted outcome) ∧
      call.placed = granted outcome := by
  unfold ofTransmit? at waits
  dsimp only at waits
  split at waits
  · contradiction
  · obtain rfl := Option.some.inj waits
    exact ⟨rfl, rfl, rfl⟩
  · obtain rfl := Option.some.inj waits
    exact ⟨rfl, rfl, rfl⟩
  · contradiction

namespace World
variable {c : StreamConfig} {w : World} {place : Nat} {call : WaitingCall}

/-- What the waiting call at a place puts in with a step. -/
def resumed (place : Nat) (w : World) : Event → List Stamped
  | .resume on =>
    if on = place then (w.waiting[place]?).elim [] fun call =>
      call.samples.take (granted (w.session.resume call).1) else []
  | _ => []

/-- Only a round of its own moves a waiting call on. -/
theorem step_advanced (sound : TxSound c w) (waits : w.waiting[place]? = some call) (e : Event) :
    ∃ later, (w.step e).waiting[place]? = some later ∧ call.Advanced later (resumed place w e) := by
  cases e with
  | transmit channel samples info reading wait =>
    refine ⟨call, ?_, .refl call⟩
    exact (List.getElem?_append_left (List.getElem?_eq_some_iff.mp waits).1).trans waits
  | resume on =>
    by_cases here : on = place
    · subst here
      have fits := w.session.granted_resume_le (sound.calls call (List.mem_of_getElem? waits))
      simp only [step, resumed, if_true, waits, Option.elim_some]
      refine ⟨_, ?_, .after call fits⟩
      rw [List.getElem?_set_self (List.getElem?_eq_some_iff.mp waits).1]
    · rw [resumed, if_neg here]
      refine ⟨call, ?_, .refl call⟩
      rw [step]
      split
      · exact waits
      · exact (List.getElem?_set_ne here).trans waits
  | _ => exact ⟨call, waits, .refl call⟩

theorem run_advanced (sound : TxSound c w) (waits : w.waiting[place]? = some call)
    (events : List Event) : ∃ later, (w.run events).waiting[place]? = some later ∧
      call.Advanced later (observe (resumed place) w events) := by
  induction events generalizing w call with
  | nil => exact ⟨call, waits, .refl call⟩
  | cons e rest ih =>
    obtain ⟨next, stands, now⟩ := step_advanced sound waits e
    obtain ⟨later, there, behind⟩ := ih (sound.step e).1 stands
    exact ⟨later, there, now.trans behind⟩

/-- A transmission that waits for room, over any run behind its first offer: what its rounds have
put in is the front of what it was called with, and whenever its wait ends with an offer it answers
with the number of samples placed by all of them, or with the fault of the last if that is none. -/
theorem waiting_calls_answer {available : UInt8} (valid : c.validate available = .ok ())
    (monitor : Option Monitor) (clock : Tick) (past during : List Event) {α : Type} [HostSample α]
    (channel : UInt8) (samples : List α) (info : TransferMeta) (reading : Except Fault Tick)
    (wait : Wait) :
    let w := (opened c monitor clock).run past
    let called := Event.transmit channel samples info reading wait
    let reached := (w.step called).run during
    call ∈ WaitingCall.ofTransmit? c channel samples info wait
      (w.session.transmit channel samples info reading wait).1 →
    ∃ later, reached.waiting[w.waiting.length]? = some later ∧ later.channel = channel ∧
      let last := (reached.session.resume later).1
      let put := accepted channel w called ++
        observe (resumed w.waiting.length) (w.step called) during ++
        later.samples.take (granted last)
      put <+: c.encoded samples info ∧
      later.answer last = if put = [] then last else .ok put.length := by
  intro w called reached waits
  have sound : TxSound c w := run_invariant (P := TxSound c) (fun _ e sound => (sound.step e).1)
    (opened_txSound valid monitor clock) past
  have next : TxSound c (w.step called) := (sound.step called).1
  have there : (w.step called).waiting[w.waiting.length]? = some call := by
    have behind : (w.step called).waiting = w.waiting ++ (WaitingCall.ofTransmit? c channel samples
        info wait (w.session.transmit channel samples info reading wait).1).toList := by
      rw [← sound.config_eq]
      rfl
    rw [behind, Option.mem_def.mp waits]
    exact List.getElem?_concat_length
  obtain ⟨on, rest, count⟩ := WaitingCall.ofTransmit?_advanced waits
  obtain ⟨later, stands, behind⟩ := run_advanced next there during
  have finished : TxSound c reached := run_invariant (P := TxSound c)
    (fun _ e sound => (sound.step e).1) next during
  refine ⟨later, stands, behind.channel_eq.trans on, ?_⟩
  intro last put
  have first : accepted channel w called = (c.encoded samples info).take call.placed := by
    rw [accepted, if_pos rfl, sound.config_eq, count]
  have begun : (accepted channel w called).length = call.placed := by
    have fits := w.session.granted_transmit_le channel samples info reading wait
    rw [first, List.length_take_of_le (by rwa [count, ← sound.config_eq])]
  have total : put.length = later.placed + granted last := by
    have fits := reached.session.granted_resume_le
      (finished.calls later (List.mem_of_getElem? stands))
    dsimp only [put]
    rw [List.length_append, List.length_append, List.length_take_of_le fits, begun,
      behind.placed_eq]
  constructor
  · have whole : c.encoded samples info = accepted channel w called ++ call.samples := by
      rw [first, rest, ← count, List.take_append_drop]
    rw [whole, behind.samples_eq, ← List.append_assoc]
    exact (List.prefix_append_right_inj _).mpr (List.take_prefix ..)
  · rw [WaitingCall.answer, ← total]
    simp only [List.length_eq_zero_iff]

end World
end RadioStream
