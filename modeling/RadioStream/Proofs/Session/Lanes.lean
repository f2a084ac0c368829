import RadioStream.Proofs.Session.Run
import RadioStream.Proofs.StreamConfig.Validation

/-!
Finding and replacing lanes by channel, and what halts and reports leave of a session:
they reach lanes only in the stop flag of their queues.
-/
namespace RadioStream

theorem key_of_find? {α : Type} {key : α → UInt8} {k : UInt8} {list : List α} {a : α}
    (found : list.find? (key · == k) = some a) : key a = k := by
  have matched := List.find?_some found
  exact eq_of_beq matched

theorem find?_of_mem_map {α : Type} {key : α → UInt8} {k : UInt8} {list : List α}
    (there : k ∈ list.map key) : ∃ a, list.find? (key · == k) = some a := by
  obtain ⟨a, member, on⟩ := List.mem_map.mp there
  apply Option.isSome_iff_exists.mp
  rw [List.find?_isSome]
  exact ⟨a, member, beq_iff_eq.mpr on⟩

/-- Where keys are distinct, the entries under one key are what a look-up finds. -/
theorem filter_eq_find? {α : Type} {key : α → UInt8} {list : List α}
    (distinct : (list.map key).Nodup) (k : UInt8) :
    list.filter (key · == k) = (list.find? (key · == k)).toList := by
  induction list with
  | nil => rfl
  | cons a rest ih =>
    rw [List.map_cons, List.nodup_cons] at distinct
    by_cases same : key a = k
    · have none : rest.filter (key · == k) = [] := by
        rw [List.filter_eq_nil_iff]
        intro b member there
        exact distinct.1 (same ▸ eq_of_beq there ▸ List.mem_map_of_mem member)
      simp [same, none]
    · simp [same, ih distinct.2]

theorem find?_of_mem {α : Type} {key : α → UInt8} {list : List α}
    (distinct : (list.map key).Nodup) {a : α} (member : a ∈ list) :
    list.find? (key · == key a) = some a := by
  have found : a ∈ list.filter (key · == key a) := List.mem_filter.mpr ⟨member, by simp⟩
  rwa [filter_eq_find? distinct, Option.mem_toList] at found

/-- Filtering what entries contribute, by a test that they decide. -/
theorem filter_flatMap_of_key {α β : Type} {p : β → Bool} {q : α → Bool} {f : α → List β}
    {list : List α} (decides : ∀ a ∈ list, ∀ b ∈ f a, p b = q a) :
    (list.flatMap f).filter p = (list.filter q).flatMap f := by
  induction list with
  | nil => rfl
  | cons a rest ih =>
    obtain ⟨here, there⟩ := List.forall_mem_cons.mp decides
    rw [List.flatMap_cons, List.filter_append, ih there, List.filter_cons]
    cases chosen : q a with
    | true =>
      rw [if_pos rfl, List.flatMap_cons,
        List.filter_eq_self.mpr fun b member => (here b member).trans chosen]
    | false =>
      rw [if_neg Bool.false_ne_true, List.filter_eq_nil_iff.mpr fun b member taken => by
        rw [here b member, chosen] at taken
        contradiction, List.nil_append]

theorem find?_replaced {α : Type} {key : α → UInt8} {list : List α} {new old : α}
    (found : list.find? (key · == key new) = some old) (k : UInt8) :
    (list.map fun a => if key a = key new then new else a).find? (key · == k) =
      if key new = k then some new else list.find? (key · == k) := by
  have keeps : ((key · == k) ∘ fun a => if key a = key new then new else a) = (key · == k) := by
    funext a
    by_cases same : key a = key new <;> simp [same]
  rw [List.find?_map, keeps]
  split
  · next same => rw [← same, found, Option.map_some, if_pos (key_of_find? found)]
  · next differs =>
    cases there : list.find? (key · == k) with
    | none => rfl
    | some a =>
      have on := key_of_find? there
      rw [Option.map_some, if_neg fun same => differs (same.symm.trans on)]

namespace TxLane

/-- A lane without its stop flag, its tail and the counters of what it sent. -/
def core (l : TxLane) : TxLane :=
  { l with
    queue := { l.queue with stopped := false }
    traffic := { Traffic.zero with late := l.traffic.late }
    tail := none }

/-- Samples accepted for a channel that have not left the worker's hand. -/
def content (l : TxLane) : List Stamped := l.held.elim [] Block.content ++ l.queue.content

structure Sound (size : Nat) (l : TxLane) : Prop where
  queue : l.queue.Sound size
  held : ∀ b, l.held = some b → b.Stored size

@[simp] theorem channel_core (l : TxLane) : l.core.channel = l.channel := rfl
@[simp] theorem content_core (l : TxLane) : l.core.content = l.content := rfl
@[simp] theorem late_core (l : TxLane) : l.core.traffic.late = l.traffic.late := rfl

theorem sound_core {size : Nat} {l : TxLane} : l.core.Sound size ↔ l.Sound size :=
  ⟨fun sound => ⟨⟨sound.queue.stored, sound.queue.queued_eq, sound.queue.queued_le⟩, sound.held⟩,
    fun sound => ⟨⟨sound.queue.stored, sound.queue.queued_eq, sound.queue.queued_le⟩, sound.held⟩⟩

end TxLane

/-- A lane without its stop flag. -/
def RxLane.core (l : RxLane) : RxLane := { l with queue := { l.queue with stopped := false } }

namespace RxLane

@[simp] theorem channel_core (l : RxLane) : l.core.channel = l.channel := rfl
@[simp] theorem content_core (l : RxLane) : l.core.queue.content = l.queue.content := rfl
@[simp] theorem expected_core (l : RxLane) : l.core.expected = l.expected := rfl
@[simp] theorem traffic_core (l : RxLane) : l.core.traffic = l.traffic := rfl

theorem sound_core {size : Nat} {l : RxLane} : l.core.queue.Sound size ↔ l.queue.Sound size :=
  ⟨fun sound => ⟨sound.stored, sound.queued_eq, sound.queued_le⟩,
    fun sound => ⟨sound.stored, sound.queued_eq, sound.queued_le⟩⟩

end RxLane

namespace Session
variable {s t u : Session} {channel other : UInt8}

def txOn (s : Session) (channel : UInt8) : Option TxLane := s.tx.find? (·.channel == channel)
def rxOn (s : Session) (channel : UInt8) : Option RxLane := s.rx.find? (·.channel == channel)

theorem txLane?_eq_ok {lane : TxLane} :
    s.txLane? channel = .ok lane ↔ s.txOn channel = some lane := by
  rw [txLane?, txOn]
  cases s.tx.find? (·.channel == channel) <;> simp

theorem txLane?_ne_timeout : s.txLane? channel ≠ .error .timeout := by
  rw [txLane?]
  cases s.tx.find? (·.channel == channel) <;> simp

theorem rxLane?_eq_ok {lane : RxLane} :
    s.rxLane? channel = .ok lane ↔ s.rxOn channel = some lane := by
  rw [rxLane?, rxOn]
  cases s.rx.find? (·.channel == channel) <;> simp

theorem channel_of_txOn {lane : TxLane} (found : s.txOn channel = some lane) :
    lane.channel = channel := key_of_find? found

theorem channel_of_rxOn {lane : RxLane} (found : s.rxOn channel = some lane) :
    lane.channel = channel := key_of_find? found

theorem txOn_of_mem (there : channel ∈ s.tx.map (·.channel)) :
    ∃ lane, s.txOn channel = some lane := find?_of_mem_map there

theorem rxOn_of_mem (there : channel ∈ s.rx.map (·.channel)) :
    ∃ lane, s.rxOn channel = some lane := find?_of_mem_map there

theorem txOn_putTx {lane old : TxLane} (found : s.txOn lane.channel = some old) :
    (s.putTx lane).txOn other = if lane.channel = other then some lane else s.txOn other :=
  find?_replaced found other

theorem rxOn_putRx {lane old : RxLane} (found : s.rxOn lane.channel = some old) :
    (s.putRx lane).rxOn other = if lane.channel = other then some lane else s.rxOn other :=
  find?_replaced found other

/-- A halted session takes no more samples. -/
def Closed (s : Session) : Prop := s.halted = true → ∀ l ∈ s.tx, l.queue.stopped = true

/-- A session that was halted stays so, with the failure it had. -/
def StaysHalted (s t : Session) : Prop :=
  s.halted = true → t.halted = true ∧ t.failure = s.failure

theorem StaysHalted.trans (first : StaysHalted s t) (second : StaysHalted t u) :
    StaysHalted s u := fun halted =>
  have ⟨still, kept⟩ := first halted
  ⟨(second still).1, (second still).2.trans kept⟩

/-- What a step that only reports or halts keeps of a session. -/
structure Kept (s t : Session) : Prop where
  config_eq : t.config = s.config
  timeline_eq : t.timeline = s.timeline
  tx_eq : t.tx.map TxLane.core = s.tx.map TxLane.core
  rx_eq : t.rx.map RxLane.core = s.rx.map RxLane.core
  closed : s.Closed → t.Closed
  halted : StaysHalted s t

theorem Kept.refl (s : Session) : Kept s s :=
  ⟨rfl, rfl, rfl, rfl, id, fun halted => ⟨halted, rfl⟩⟩

theorem Kept.trans (first : Kept s t) (second : Kept t u) : Kept s u :=
  ⟨second.config_eq.trans first.config_eq, second.timeline_eq.trans first.timeline_eq,
    second.tx_eq.trans first.tx_eq, second.rx_eq.trans first.rx_eq,
    second.closed ∘ first.closed, first.halted.trans second.halted⟩

theorem keep_kept (s : Session) (reason : Option Fault) : Kept s (s.keep reason) := by
  rw [keep]
  split
  · exact .refl s
  · next running => exact ⟨rfl, rfl, rfl, rfl, id, fun halted => absurd halted running⟩

theorem shut_kept (s : Session) : Kept s s.shut := by
  rw [shut]
  split
  · exact .refl s
  · next running =>
    refine ⟨rfl, rfl, by simp only [List.map_map]; rfl, by simp only [List.map_map]; rfl,
      fun _ _ l member => ?_, fun halted => absurd halted running⟩
    obtain ⟨old, _, rfl⟩ := List.mem_map.mp member
    rfl

/-- A halt without a reason is its second half. -/
theorem halt_none (s : Session) : s.halt none = s.shut := by
  have same : s.keep none = s := by simp [keep]
  rw [halt, same]

theorem halt_kept (s : Session) (reason : Option Fault) : Kept s (s.halt reason) :=
  (s.keep_kept reason).trans (s.keep reason).shut_kept

theorem report_kept (s : Session) (shown : Snapshot) : Kept s (s.report shown) := by
  rw [report]
  split
  · exact .refl s
  · next m _ =>
    have shows : Kept s { s with monitor := some { m with snapshots := shown :: m.snapshots } } :=
      ⟨rfl, rfl, rfl, rfl, id, fun halted => ⟨halted, rfl⟩⟩
    dsimp only
    split
    · exact shows
    · exact shows.trans (halt_kept _ none)

theorem halt_monitor (s : Session) (reason : Option Fault) :
    (s.halt reason).monitor = s.monitor := by
  rw [halt_eq]
  split <;> rfl

theorem report_monitor (s : Session) (shown : Snapshot) : (s.report shown).monitor =
    s.monitor.map fun m => { m with snapshots := shown :: m.snapshots } := by
  rw [report]
  split
  · next absent => rw [absent, Option.map_none]
  · next m there =>
    dsimp only
    split
    · rw [there, Option.map_some]
    · rw [halt_monitor, there, Option.map_some]

theorem txOn_core (same : t.tx.map TxLane.core = s.tx.map TxLane.core) (channel : UInt8) :
    (t.txOn channel).map TxLane.core = (s.txOn channel).map TxLane.core := by
  have found := congrArg (List.find? (·.channel == channel)) same
  rwa [List.find?_map, List.find?_map] at found

theorem rxOn_core (same : t.rx.map RxLane.core = s.rx.map RxLane.core) (channel : UInt8) :
    (t.rxOn channel).map RxLane.core = (s.rxOn channel).map RxLane.core := by
  have found := congrArg (List.find? (·.channel == channel)) same
  rwa [List.find?_map, List.find?_map] at found

end Session
end RadioStream
