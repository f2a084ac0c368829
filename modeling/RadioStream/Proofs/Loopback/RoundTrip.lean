import RadioStream.Proofs.Loopback.Passage
import RadioStream.Proofs.Module.Opening

/-!
The round trip of untimed samples over a loopback link: from the start of a stream on, what
a channel receives is what it accepted for transmission, as the link carries it.
-/
namespace RadioStream
open Circuit

namespace Circuit
variable {α : Type} [HostSample α] {c : StreamConfig} {channel : UInt8} {x y z : Circuit α}

theorem Passes.trans {sent sent' got got' : List α} (first : Passes c channel x y sent got)
    (second : Passes c channel y z sent' got') :
    Passes c channel x z (sent ++ sent') (got ++ got') := by
  constructor
  · exact second.sound
  · intro intact
    obtain ⟨between, later, enters, leaves⟩ := second.inside_eq intact
    obtain ⟨before, taken, entered, left⟩ := first.inside_eq between
    refine ⟨before, taken ++ later, ?_, ?_⟩
    · rw [List.map_append, ← List.append_assoc, entered, List.append_assoc, enters,
        List.append_assoc]
    · rw [left, leaves, List.map_append]

theorem Sound.run (sound : x.Sound c channel) {events : List (CircuitEvent α)}
    (fit : ∀ e ∈ events, e.Fits channel) :
    Passes c channel x (x.run channel events) (x.observe channel (accepted channel) events)
      (x.observe channel (received channel) events) := by
  induction events generalizing x with
  | nil => exact ⟨sound, fun intact => ⟨intact, [], List.append_nil _, rfl⟩⟩
  | cons e rest ih =>
    obtain ⟨here, there⟩ := List.forall_mem_cons.mp fit
    have stepped := sound.step here
    exact stepped.trans (ih stepped.sound there)

/-- A stream that was just opened on a loopback link with nothing to bring. -/
theorem opened_sound {available : UInt8} (valid : c.validate available = .ok ())
    (listed : channel ∈ c.rxChannels) (unaligned : c.alignPhase = false) {l : Link}
    (loops : l.Loops c.linkFormat) (empty : l.incoming = []) (cursors : l.cursors = .empty)
    (monitor : Option Monitor) (clock : Tick) :
    let x : Circuit α := ⟨⟨(World.opened c monitor clock).session, l⟩, []⟩
    x.Sound c channel ∧ x.inside c.linkFormat.sampleSize channel = [] := by
  intro x
  have lane : x.stream.session.rxOn channel = some (.create channel c.capacity) :=
    (World.opened_rxOn c monitor clock channel).trans (if_pos listed)
  have unsent : x.stream.session.unsent channel = [] :=
    (World.opened_unsent c monitor clock channel).1
  have comes : x.stream.link.coming channel = [] := by
    rw [Link.coming, empty]
    rfl
  constructor
  · constructor
    · exact World.opened_txSound valid monitor clock
    · exact List.forall_mem_nil _
    · rw [unsent]
      exact List.forall_mem_nil _
    · exact loops
    · change (if c.alignPhase then _ else none) = none
      rw [unaligned]
      rfl
    · refine ⟨_, lane, ChannelQueue.sound_empty _, ?_⟩
      rw [Link.Chained, comes, cursors]
      rfl
  · rw [inside, Session.heldOn, lane, Link.carried, comes, unsent]
    rfl

end Circuit

/-- Whatever happens to a stream from its start on a loopback link: as long as its receive queue
does not overrun, a channel receives, in order, what it has accepted for transmission, and all of
it once nothing is left inside. No packet that comes back is trimmed. -/
theorem Circuit.loopback_round_trip {α : Type} [HostSample α] {index channelCount channel : UInt8}
    {loopback : Bool} {before : List ModuleEvent} {m : RfModule} {s : Session}
    {events : List (CircuitEvent α)}
    (reached : (RfModule.create index (.simulated channelCount loopback)).run before = m)
    (configured : m.phase = .configured) (running : m.start.2.stage = .running s)
    (loops : m.link.loopback = true) (empty : m.link.incoming = [])
    (unaligned : s.config.alignPhase = false) (listed : channel ∈ s.config.rxChannels)
    (fit : ∀ e ∈ events, e.Fits channel) :
    let start : Circuit α := ⟨⟨s, m.start.2.link⟩, []⟩
    let last := start.run channel events
    let size := s.config.linkFormat.sampleSize
    let sent := start.observe channel (accepted channel) events
    let got := start.observe channel (received channel) events
    let looped : List α := HostSample.fromLink s.config.hostFormat s.config.linkFormat
      (HostSample.toLink s.config.hostFormat s.config.linkFormat sent)
    (last.stream.session.overrunOn channel = 0 →
      got <+: looped ∧ (last.inside size channel = [] → got = looped)) ∧
    ∀ p rest, last.stream.link.incoming = p :: rest → p.channel = channel →
      ∃ lane, last.stream.session.rxOn channel = some lane ∧
        let b := Block.received p.timestamp p.payload size
        lane.trim (last.stream.session.timeline.align b) = b ∧ b.payload = p.payload := by
  intro start last size sent got looped
  subst reached
  obtain ⟨c, monitor, valid, opened, working, armed⟩ :=
    (RfModule.run_fresh index _ before).opened configured running
  subst opened
  have ready : Link.Loops c.linkFormat start.stream.link := by
    dsimp only [start]
    rw [armed]
    exact ⟨loops, ⟨_, rfl, rfl⟩, working⟩
  obtain ⟨sound, nothing⟩ := opened_sound (α := α) valid listed unaligned ready
    (by dsimp only [start]; rw [armed]; exact empty) (by dsimp only [start]; rw [armed]) monitor _
  have passes := sound.run fit
  have decoded : looped =
      (sent.map (HostSample.pack c.hostFormat c.linkFormat)).map
        (HostSample.unpack c.hostFormat c.linkFormat) :=
    congrArg _ (HostSample.wholeSamples_toLink c.hostFormat c.linkFormat sent)
  constructor
  · intro intact
    obtain ⟨_, taken, enters, leaves⟩ := passes.inside_eq intact
    rw [nothing, List.nil_append] at enters
    rw [decoded, enters, List.map_append, ← leaves]
    constructor
    · exact List.prefix_append _ _
    · intro finished
      change _ = _ ++ List.map _ (last.inside size channel)
      rw [finished, List.map_nil, List.append_nil]
  · intro p rest comes own
    obtain ⟨lane, found, aligned, trimmed, _, _, whole, _⟩ := passes.sound.take_in comes own
    exact ⟨lane, found, (congrArg lane.trim aligned).trans trimmed,
      Block.received_payload whole p.timestamp⟩

/-- One channel for both directions. -/
def bothWays : StreamConfig := { StreamConfig.default with rxChannels := [0], txChannels := [0] }

/-- Three samples on their way out and back, while the clock goes back. -/
def thereAndBack : List (CircuitEvent IntSample) :=
  [.transmit [⟨1, -1⟩, ⟨2, -2⟩, ⟨3, -3⟩] TransferMeta.plain.flushed .poll, .send false,
    .link (.setTime (Tick.clamp (-8))), .read,
    .receive [⟨0, 0⟩, ⟨0, 0⟩, ⟨0, 0⟩, ⟨0, 0⟩] .plain .poll]

theorem Circuit.loopback_round_trip_set_back :
    let m := (RfModule.create 0 (.simulated 2 true)).run [.setup bothWays none]
    let s := (World.opened bothWays none .zero).session
    let start : Circuit IntSample := ⟨⟨s, m.start.2.link⟩, []⟩
    let samples : List IntSample := [⟨1, -1⟩, ⟨2, -2⟩, ⟨3, -3⟩]
    m.phase = .configured ∧ m.start.2.stage = .running s ∧
      m.link.loopback = true ∧ m.link.incoming = [] ∧ s.config.alignPhase = false ∧
      0 ∈ s.config.rxChannels ∧ (∀ e ∈ thereAndBack, e.Fits 0) ∧
      (start.run 0 thereAndBack).stream.session.overrunOn 0 = 0 ∧
      (start.run 0 thereAndBack).inside 4 0 = [] ∧
      start.observe 0 (accepted 0) thereAndBack = samples ∧
      start.observe 0 (received 0) thereAndBack =
        HostSample.fromLink .i16 .i16 (HostSample.toLink .i16 .i16 samples) := by
  intro m s start samples
  have running : m.start.2.stage = .running s := rfl
  have fit : ∀ e ∈ thereAndBack, e.Fits 0 := by
    simp [thereAndBack, CircuitEvent.Fits, TransferMeta.plain, TransferMeta.flushed]
  have intact : (start.run 0 thereAndBack).stream.session.overrunOn 0 = 0 := by decide +kernel
  have finished : (start.run 0 thereAndBack).inside 4 0 = [] := by decide +kernel
  have sent : start.observe 0 (accepted 0) thereAndBack = samples := by decide +kernel
  have trip := loopback_round_trip (m := m) rfl rfl running rfl rfl rfl (by decide) fit
  have got := (trip.1 intact).2 finished
  rw [sent] at got
  exact ⟨rfl, running, rfl, rfl, rfl, by decide, fit, intact, finished, sent, got⟩

end RadioStream
