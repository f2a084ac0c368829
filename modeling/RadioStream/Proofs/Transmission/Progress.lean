import RadioStream.Proofs.Session.Halted

/-!
Progress of draining passes. With everything ready and due, a pass finds a batch for every
lane that has samples left, and the untimed batches and those with the earliest tick
leave: as long as any sample is left, some batch goes.
-/
namespace RadioStream

namespace TxLane
variable {size : Nat} {l : TxLane}

theorem Sound.isClear_iff (sound : l.Sound size) : l.isClear = true ↔ l.content = [] := by
  rw [isClear, Bool.and_eq_true, sound.queue.isEmpty_iff, content, List.append_eq_nil_iff]
  cases held : l.held with
  | none => simp
  | some b =>
    have stored := sound.held b held
    simp [stored.content_ne_nil]

theorem Sound.pickUp_holds (sound : l.Sound size) (left : l.content ≠ []) (batch : Nat)
    (due : Tick → Bool) : (l.pickUp batch true due).held ≠ none := by
  rw [TxLane.pickUp]
  split
  · next held =>
    rw [held]
    exact Option.some_ne_none _
  · next empty =>
    rw [ChannelQueue.takeReady?_force]
    split
    · exact Option.some_ne_none _
    · next nothing =>
      rw [ChannelQueue.takeRun?_eq_none, sound.queue.blocks_eq_nil] at nothing
      rw [content, empty, nothing] at left
      exact absurd rfl left

theorem leaves_eq_false {gate : Option Tick} : l.leaves gate = false ↔
    ∀ b, l.held = some b → b.timed = true ∧ gate ≠ some b.start := by
  rw [leaves]
  cases l.held with
  | none => simp
  | some b =>
    cases b.timed <;> simp [@eq_comm _ gate]

theorem waitsFor?_eq_some {t : Tick} : l.waitsFor? = some t ↔
    ∃ b, l.held = some b ∧ b.timed = true ∧ b.start = t := by
  simp [waitsFor?, Option.bind_eq_some_iff]

theorem departure?_of_leaves {gate : Option Tick} (leaves : l.leaves gate = true)
    (late : Tick → Bool) (packetSamples : Nat) (now : Tick) :
    l.departure? now (l.depart gate late packetSamples) ≠ none := by
  rcases l.depart_cases gate late packetSamples with
    ⟨stays, _⟩ | ⟨b, held, _, _, _, departs⟩ | ⟨b, held, _, _, departs⟩
  · rw [stays] at leaves
    contradiction
  · rw [departs]
    simp [departure?, held]
  · rw [departs]
    simp [departure?, held]

end TxLane

namespace Session
variable {s : Session}

/-- Where anything is held, something leaves at the gate of a draining pass. -/
theorem leaves_of_held {lanes : List TxLane} (held : ∃ l ∈ lanes, l.held ≠ none) (now : Tick)
    (timeline : Timeline) : ∃ l ∈ lanes, l.leaves (gate now timeline true lanes) = true := by
  refine Classical.byContradiction fun nothing => ?_
  have stays : ∀ l ∈ lanes, ∀ b, l.held = some b →
      b.timed = true ∧ gate now timeline true lanes ≠ some b.start := fun l member =>
    TxLane.leaves_eq_false.mp (Bool.eq_false_iff.mpr fun leaves => nothing ⟨l, member, leaves⟩)
  -- So whatever is held is timed, and the gate stands at the earliest of it.
  obtain ⟨l, member, holds⟩ := held
  obtain ⟨b, holds⟩ := Option.ne_none_iff_exists'.mp holds
  have waits : b.start ∈ lanes.filterMap (·.waitsFor?) := List.mem_filterMap.mpr
    ⟨l, member, TxLane.waitsFor?_eq_some.mpr ⟨b, holds, (stays l member b holds).1, rfl⟩⟩
  obtain ⟨t, earliest⟩ := Option.isSome_iff_exists.mp
    (List.isSome_min?_of_mem waits)
  obtain ⟨first, inside, waitsFor⟩ := List.mem_filterMap.mp (List.min?_mem earliest)
  obtain ⟨b, holds, _, rfl⟩ := TxLane.waitsFor?_eq_some.mp waitsFor
  exact (stays first inside b holds).2 (by simp [gate, earliest])

/-- As long as samples are left, a draining pass lets a batch go. -/
theorem TxSound.pass_progress (sound : s.TxSound) (left : s.isClear = false)
    (reading : Except Fault Tick) :
    ∃ channel ∈ s.tx.map (·.channel), s.departed reading true channel ≠ [] := by
  obtain ⟨l, member, more⟩ := List.all_eq_false.mp left
  have laneSound := sound.lanes l.channel l (find?_of_mem sound.distinct member)
  have holds : ∃ l ∈ s.loaded reading true, l.held ≠ none := by
    refine ⟨_, List.mem_map_of_mem member, laneSound.pickUp_holds ?_ _ _⟩
    rw [ne_eq, ← laneSound.isClear_iff]
    exact more
  obtain ⟨first, inside, leaves⟩ := leaves_of_held holds (s.timeline.now reading).1
    (s.timeline.now reading).2
  have channels : (s.loaded reading true).map (·.channel) = s.tx.map (·.channel) := by
    rw [loaded, List.map_map]
    exact List.map_congr_left fun l _ => TxLane.pickUp_channel l _ _ _
  have found := find?_of_mem (channels ▸ sound.distinct) inside
  have after := s.lanes_on reading true first.channel
  rw [found, Option.map_some] at after
  refine ⟨first.channel, channels ▸ List.mem_map_of_mem inside, ?_⟩
  simp only [departed, found, after]
  rw [ne_eq, Option.toList_eq_nil_iff]
  exact TxLane.departure?_of_leaves leaves _ _ _

end Session
end RadioStream
