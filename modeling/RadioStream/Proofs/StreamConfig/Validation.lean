import RadioStream.Proofs.Binary.Sign
import RadioStream.StreamConfig.Basic

/-!
Which configurations are accepted, and what a refusal says. The conditions are stated apart from
the code that checks them: the sizes as settings with their defaults, the channel lists as
distinct channels of the module, the rate by what its pattern stands for. The checks stop at
the first condition that fails.
-/
namespace RadioStream

namespace StreamConfig
variable {c : StreamConfig} {available : UInt8} {d : Direction} {cause : ConfigFault}

def packetSetting (c : StreamConfig) : Direction → UInt16
  | .rx => c.tuning.rxPacketSamples
  | .tx => c.tuning.txPacketSamples

def packetsSetting (c : StreamConfig) : Direction → UInt32
  | .rx => c.tuning.rxBatchPackets
  | .tx => c.tuning.txBatchPackets

/-- Samples of a packet: as set, or as many as suit the link format. -/
def packet (c : StreamConfig) (d : Direction) : Nat :=
  if c.packetSetting d = 0 then (if c.linkFormat = .i12 then 1360 else 1020)
  else (c.packetSetting d).toNat

/-- Packets of a batch. -/
def packets (c : StreamConfig) (d : Direction) : Nat :=
  if c.packetsSetting d = 0 then 4 else (c.packetsSetting d).toNat

/-- Whole samples that fit into the bytes of a buffer, at least one. -/
def room (c : StreamConfig) : Nat :=
  max ((if c.bufferBytes = 0 then 1048576 else c.bufferBytes.toNat) / c.linkFormat.sampleSize) 1

theorem packet_pos (c : StreamConfig) (d : Direction) : 0 < c.packet d := by
  rw [packet]
  split
  · split <;> decide
  · next set => exact Nat.pos_of_ne_zero fun zero => set (UInt16.toNat_inj.mp zero)

theorem packets_pos (c : StreamConfig) (d : Direction) : 0 < c.packets d := by
  rw [packets]
  split
  · decide
  · next set => exact Nat.pos_of_ne_zero fun zero => set (UInt32.toNat_inj.mp zero)

theorem packet_lt (c : StreamConfig) (d : Direction) : c.packet d < 0x10000 := by
  rw [packet]
  split
  · split <;> decide
  · exact (c.packetSetting d).toNat_lt

theorem packets_lt (c : StreamConfig) (d : Direction) : c.packets d < 0x100000000 := by
  rw [packets]
  split
  · decide
  · exact (c.packetsSetting d).toNat_lt

theorem packetSamples_eq (c : StreamConfig) (setting : UInt16) : c.packetSamples setting =
    if setting = 0 then (if c.linkFormat = .i12 then 1360 else 1020) else setting.toNat := by
  simp only [packetSamples, orDefault, ← UInt16.toNat_inj]
  rfl

theorem orDefault_eq (setting : UInt32) (fallback : Nat) : orDefault setting.toNat fallback =
    if setting = 0 then fallback else setting.toNat := by
  simp only [orDefault, ← UInt32.toNat_inj]
  rfl

theorem rxPacket_eq (c : StreamConfig) : c.rxPacket = c.packet .rx := c.packetSamples_eq _
theorem txPacket_eq (c : StreamConfig) : c.txPacket = c.packet .tx := c.packetSamples_eq _

theorem batch_eq (c : StreamConfig) : ∀ d, c.batch d = c.packet d * c.packets d
  | .rx => by rw [← rxPacket_eq, packets, ← orDefault_eq]; rfl
  | .tx => by rw [← txPacket_eq, packets, ← orDefault_eq]; rfl

theorem capacity_eq (c : StreamConfig) : c.capacity = c.room := by
  rw [capacity, orDefault_eq]
  rfl

theorem batch_pos (c : StreamConfig) (d : Direction) : 0 < c.batch d :=
  c.batch_eq d ▸ Nat.mul_pos (c.packet_pos d) (c.packets_pos d)

/-- The product of packets and their samples fits into 64 bits. -/
theorem batch_lt (c : StreamConfig) (d : Direction) : c.batch d < 0x1000000000000 := by
  rw [batch_eq]
  exact Nat.mul_lt_mul'' (c.packet_lt d) (c.packets_lt d)

/-- Conditions on a configuration. -/
inductive Condition where
  | listed
  | channels (direction : Direction)
  | rate
  | batch (direction : Direction)
deriving DecidableEq

namespace Condition

/-- The order in which conditions are checked. -/
def order : List Condition :=
  [listed, channels .rx, channels .tx, rate, batch .rx, batch .tx]

theorem mem_order (k : Condition) : k ∈ order := by
  rcases k with _ | (_ | _) | _ | (_ | _) <;> decide

def Holds (c : StreamConfig) (available : UInt8) : Condition → Prop
  | listed => c.rxChannels ≠ [] ∨ c.txChannels ≠ []
  | channels d => (c.channels d).length ≤ 16 ∧ (∀ channel ∈ c.channels d, channel < available) ∧
      (c.channels d).Nodup
  | rate => ∃ negative significand exponent,
      c.rateHint.decode = .finite negative significand exponent ∧
        (negative = true → significand = 0)
  | batch d => c.channels d ≠ [] → c.packet d * c.packets d ≤ c.room

/-- A condition that fails, with the cause it is refused for. -/
inductive Refuses (c : StreamConfig) (available : UInt8) : Condition → ConfigFault → Prop
  | unlisted (rx : c.rxChannels = []) (tx : c.txChannels = []) :
      Refuses c available .listed .noChannels
  | long {d : Direction} (many : 16 < (c.channels d).length) :
      Refuses c available (.channels d) (.tooManyChannels d (c.channels d).length)
  | outside {d : Direction} {front back : List UInt8} {channel : UInt8}
      (few : (c.channels d).length ≤ 16) (split : c.channels d = front ++ channel :: back)
      (inside : ∀ earlier ∈ front, earlier < available) (distinct : front.Nodup)
      (outside : available ≤ channel) :
      Refuses c available (.channels d) (.channelOutOfRange d channel available)
  | again {d : Direction} {front back : List UInt8} {channel : UInt8}
      (few : (c.channels d).length ≤ 16) (split : c.channels d = front ++ channel :: back)
      (inside : ∀ earlier ∈ front, earlier < available) (distinct : front.Nodup)
      (inRange : channel < available) (again : channel ∈ front) :
      Refuses c available (.channels d) (.channelRepeated d channel)
  | rate (wrong : ¬Holds c available .rate) : Refuses c available .rate (.invalidRate c.rateHint)
  | large {d : Direction} (used : c.channels d ≠ []) (large : c.room < c.packet d * c.packets d) :
      Refuses c available (.batch d) (.batchTooLarge d (c.packet d * c.packets d) c.room)

/-- The part of the code that checks a condition. -/
def check (c : StreamConfig) (available : UInt8) : Condition → Option ConfigFault
  | listed => if c.rxChannels = [] ∧ c.txChannels = [] then some .noChannels else none
  | channels d => c.channelFault? available d
  | rate => c.rateFault?
  | batch d => c.batchFault? d

end Condition

theorem fault?_eq (c : StreamConfig) (available : UInt8) :
    c.fault? available = Condition.order.findSome? (Condition.check c available) := by
  have next (k : Condition) (rest : List Condition) :
      (k :: rest).findSome? (Condition.check c available) =
        (k.check c available <|> rest.findSome? (Condition.check c available)) := by
    rw [List.findSome?_cons]
    cases k.check c available <;> rfl
  simp only [Condition.order, next, List.findSome?_nil]
  simp [fault?, Condition.check]

/-- The scan passes exactly the channels that are in range, differ and were not seen before. -/
theorem firstBadChannel?_eq_none_iff {seen channels : List UInt8} :
    firstBadChannel? d available seen channels = none ↔
      (∀ channel ∈ channels, channel < available ∧ channel ∉ seen) ∧ channels.Nodup := by
  fun_induction firstBadChannel? d available seen channels with
  | case1 seen => simp
  | case2 seen channel rest outside =>
    refine iff_of_false (Option.some_ne_none _) fun ⟨fine, _⟩ => ?_
    exact UInt8.not_le.mpr (fine channel List.mem_cons_self).1 outside
  | case3 seen channel rest inside again =>
    refine iff_of_false (Option.some_ne_none _) fun ⟨fine, _⟩ => ?_
    exact (fine channel List.mem_cons_self).2 (List.contains_iff_mem.mp again)
  | case4 seen channel rest inside fresh ih =>
    rw [ih, List.forall_mem_cons, List.nodup_cons]
    have here : channel < available ∧ channel ∉ seen :=
      ⟨UInt8.not_le.mp inside, by simpa using fresh⟩
    constructor
    · rintro ⟨fine, distinct⟩
      refine ⟨⟨here, fun later member => ?_⟩, fun member => ?_, distinct⟩
      · exact ⟨(fine later member).1, fun old => (fine later member).2 (List.mem_cons_of_mem _ old)⟩
      · exact (fine channel member).2 List.mem_cons_self
    · rintro ⟨⟨_, fine⟩, new, distinct⟩
      refine ⟨fun later member => ⟨(fine later member).1, ?_⟩, distinct⟩
      rw [List.mem_cons, not_or]
      exact ⟨fun same => new (same ▸ member), (fine later member).2⟩

/-- Behind channels that pass, the scan goes on with them as seen. -/
theorem firstBadChannel?_append {seen front : List UInt8} (rest : List UInt8) :
    firstBadChannel? d available seen (front ++ rest) =
      (firstBadChannel? d available seen front).or
        (firstBadChannel? d available (front.reverse ++ seen) rest) := by
  fun_induction firstBadChannel? d available seen front with
  | case1 seen => rfl
  | case2 seen channel front outside => simp [firstBadChannel?, outside]
  | case3 seen channel front inside again =>
    rw [List.cons_append, firstBadChannel?, if_neg inside, if_pos again, Option.some_or]
  | case4 seen channel front inside fresh ih =>
    rw [List.cons_append, firstBadChannel?, if_neg inside, if_neg fresh, ih, List.reverse_cons,
      List.append_assoc, List.singleton_append]

/-- The scan stops at the first channel that is out of range or was seen before. -/
theorem firstBadChannel?_eq_some_iff {seen channels : List UInt8} :
    firstBadChannel? d available seen channels = some cause ↔
      ∃ front channel back, channels = front ++ channel :: back ∧
        firstBadChannel? d available seen front = none ∧
        (available ≤ channel ∧ cause = .channelOutOfRange d channel available ∨
          channel < available ∧ (channel ∈ front ∨ channel ∈ seen) ∧
            cause = .channelRepeated d channel) := by
  constructor
  · intro found
    fun_induction firstBadChannel? d available seen channels with
    | case1 seen => contradiction
    | case2 seen channel rest outside =>
      exact ⟨[], channel, rest, rfl, rfl, .inl ⟨outside, (Option.some.inj found).symm⟩⟩
    | case3 seen channel rest inside again =>
      exact ⟨[], channel, rest, rfl, rfl, .inr ⟨UInt8.not_le.mp inside,
        .inr (List.contains_iff_mem.mp again), (Option.some.inj found).symm⟩⟩
    | case4 seen channel rest inside fresh ih =>
      obtain ⟨front, stopped, back, rfl, fine, reason⟩ := ih found
      refine ⟨channel :: front, stopped, back, rfl, ?_, ?_⟩
      · rw [firstBadChannel?, if_neg inside, if_neg fresh, fine]
      · simpa only [List.mem_cons, or_assoc, or_left_comm] using reason
  · rintro ⟨front, channel, back, rfl, fine, reason⟩
    rw [firstBadChannel?_append, fine, Option.none_or, firstBadChannel?]
    rcases reason with ⟨outside, rfl⟩ | ⟨inside, again, rfl⟩
    · rw [if_pos outside]
    · rw [if_neg (UInt8.not_le.mpr inside), if_pos (by simpa using again)]

namespace Condition

theorem listed_iff : Holds c available .listed ↔ ¬(c.rxChannels = [] ∧ c.txChannels = []) :=
  Decidable.not_and_iff_or_not.symm

theorem rate_iff :
    Holds c available .rate ↔ (!c.rateHint.isFinite || c.rateHint.below .zero) = false := by
  rw [Bool.or_eq_false_iff, Bool.not_eq_false', ← Bool.not_eq_true (c.rateHint.below .zero),
    Binary.isFinite_iff, Binary.below_zero_iff (by decide)]
  constructor
  · rintro ⟨negative, significand, exponent, decoded, sign⟩
    refine ⟨⟨_, _, _, decoded⟩, ?_⟩
    rw [decoded]
    rintro ⟨minus, some⟩
    exact Nat.lt_irrefl 0 (sign minus ▸ some)
  · rintro ⟨⟨negative, significand, exponent, decoded⟩, sign⟩
    rw [decoded] at sign
    exact ⟨negative, significand, exponent, decoded, fun minus =>
      Nat.eq_zero_of_not_pos fun some => sign ⟨minus, some⟩⟩

theorem batch_iff :
    Holds c available (.batch d) ↔ ¬(c.channels d ≠ [] ∧ c.capacity < c.batch d) := by
  rw [Holds, batch_eq, capacity_eq, not_and, Nat.not_lt]

theorem check_eq_none_iff {k : Condition} : k.check c available = none ↔ Holds c available k := by
  cases k with
  | listed =>
    rw [listed_iff, check]
    split <;> simp [*]
  | channels d =>
    dsimp only [check, Holds, channelFault?]
    split
    · next many => exact iff_of_false (Option.some_ne_none _) fun fine => Nat.not_lt.mpr fine.1 many
    · next few =>
      have few : (c.channels d).length ≤ 16 := Nat.not_lt.mp few
      rw [firstBadChannel?_eq_none_iff]
      simp [few]
  | rate =>
    rw [rate_iff, check, rateFault?]
    split <;> simp [*]
  | batch d =>
    rw [batch_iff, check, batchFault?]
    split <;> simp [*]

/-- A check that fails names what its condition is refused for. -/
theorem refuses_of_check {k : Condition} (found : k.check c available = some cause) :
    Refuses c available k cause := by
  cases k with
  | listed =>
    rw [check] at found
    split at found
    · next none =>
      cases found
      exact .unlisted none.1 none.2
    · contradiction
  | channels d =>
    dsimp only [check, channelFault?] at found
    split at found
    · next many =>
      cases found
      exact .long many
    · next few =>
      obtain ⟨front, channel, back, split, fine, reason⟩ := firstBadChannel?_eq_some_iff.mp found
      obtain ⟨fine, distinct⟩ := firstBadChannel?_eq_none_iff.mp fine
      have inside : ∀ earlier ∈ front, earlier < available := fun a member => (fine a member).1
      rcases reason with ⟨outside, rfl⟩ | ⟨within, old | nothing, rfl⟩
      · exact .outside (Nat.not_lt.mp few) split inside distinct outside
      · exact .again (Nat.not_lt.mp few) split inside distinct within old
      · contradiction
  | rate =>
    rw [check, rateFault?] at found
    split at found
    · next wrong =>
      cases found
      exact .rate fun fine => Bool.false_ne_true ((rate_iff.mp fine).symm.trans wrong)
    · contradiction
  | batch d =>
    rw [check, batchFault?, batch_eq, capacity_eq] at found
    split at found
    · next large =>
      cases found
      exact .large large.1 large.2
    · contradiction

theorem check_of_refuses {k : Condition} (refused : Refuses c available k cause) :
    k.check c available = some cause := by
  -- What passes the scan up to the channel that it stops at.
  have passed {d : Direction} {front : List UInt8} (inside : ∀ earlier ∈ front, earlier < available)
      (distinct : front.Nodup) : firstBadChannel? d available [] front = none :=
    firstBadChannel?_eq_none_iff.mpr
      ⟨fun a member => ⟨inside a member, List.not_mem_nil⟩, distinct⟩
  cases refused with
  | unlisted rx tx => exact if_pos ⟨rx, tx⟩
  | long many => exact if_pos many
  | outside few split inside distinct outside =>
    refine (if_neg (Nat.not_lt.mpr few)).trans ?_
    exact firstBadChannel?_eq_some_iff.mpr
      ⟨_, _, _, split, passed inside distinct, .inl ⟨outside, rfl⟩⟩
  | again few split inside distinct within old =>
    refine (if_neg (Nat.not_lt.mpr few)).trans ?_
    exact firstBadChannel?_eq_some_iff.mpr
      ⟨_, _, _, split, passed inside distinct, .inr ⟨within, .inl old, rfl⟩⟩
  | rate wrong =>
    refine if_pos ?_
    rwa [rate_iff, Bool.not_eq_false] at wrong
  | large used large =>
    rw [check, batchFault?, batch_eq, capacity_eq]
    exact if_pos ⟨used, large⟩

theorem check_eq_some_iff {k : Condition} :
    k.check c available = some cause ↔ Refuses c available k cause :=
  ⟨refuses_of_check, check_of_refuses⟩

end Condition

theorem fault?_eq_none_iff : c.fault? available = none ↔ ∀ k, Condition.Holds c available k := by
  rw [fault?_eq, List.findSome?_eq_none_iff]
  exact ⟨fun passed k => Condition.check_eq_none_iff.mp (passed k k.mem_order),
    fun holds k _ => Condition.check_eq_none_iff.mpr (holds k)⟩

/-- The fault of a configuration is that of the first condition that fails. -/
theorem fault?_eq_some_iff : c.fault? available = some cause ↔
    ∃ before k after, Condition.order = before ++ k :: after ∧
      (∀ j ∈ before, Condition.Holds c available j) ∧ Condition.Refuses c available k cause := by
  simp only [fault?_eq, List.findSome?_eq_some_iff, Condition.check_eq_none_iff,
    Condition.check_eq_some_iff]
  exact ⟨fun ⟨before, k, after, split, refused, fine⟩ => ⟨before, k, after, split, fine, refused⟩,
    fun ⟨before, k, after, split, fine, refused⟩ => ⟨before, k, after, split, refused, fine⟩⟩

theorem validate_eq_ok_iff :
    c.validate available = .ok () ↔ ∀ k, Condition.Holds c available k := by
  rw [← fault?_eq_none_iff, validate]
  split <;> simp [*]

theorem validate_eq_error_iff {fault : Fault} : c.validate available = .error fault ↔
    ∃ cause, c.fault? available = some cause ∧ fault = .invalidConfig cause := by
  rw [validate]
  split <;> simp [*, eq_comm]

theorem batch_le_capacity (valid : c.validate available = .ok ()) (used : c.channels d ≠ []) :
    c.batch d ≤ c.capacity := by
  rw [batch_eq, capacity_eq]
  exact validate_eq_ok_iff.mp valid (.batch d) used

theorem txBatch_pos (c : StreamConfig) : 0 < c.txBatch := c.batch_pos .tx

theorem txBatch_le_capacity (valid : c.validate available = .ok ()) (some : c.txChannels ≠ []) :
    c.txBatch ≤ c.capacity := batch_le_capacity (d := .tx) valid some

theorem channels_nodup (valid : c.validate available = .ok ()) (d : Direction) :
    (c.channels d).Nodup :=
  (validate_eq_ok_iff.mp valid (.channels d)).2.2

/-- A configuration is accepted exactly when it meets all conditions, and else refused for the
first one that it fails. An accepted one has packets and batches that fit into its queues, and
the sizes that decide so are those that the settings name, none too large for 64 bits. -/
theorem validation_exact (c : StreamConfig) (available : UInt8) :
    (c.validate available = .ok () ↔ ∀ k, Condition.Holds c available k) ∧
    (∀ fault, c.validate available = .error fault ↔
      ∃ before k after cause, fault = .invalidConfig cause ∧
        Condition.order = before ++ k :: after ∧ (∀ j ∈ before, Condition.Holds c available j) ∧
        ¬Condition.Holds c available k ∧ Condition.Refuses c available k cause) ∧
    (c.validate available = .ok () → ∀ d, c.channels d ≠ [] →
      1 ≤ c.packet d ∧ c.packet d ≤ c.batch d ∧ c.batch d ≤ c.capacity) ∧
    (c.rxPacket = c.packet .rx ∧ c.txPacket = c.packet .tx ∧ c.capacity = c.room) ∧
    ∀ d, c.batch d = c.packet d * c.packets d ∧
      (UInt64.ofNat (c.packet d) * UInt64.ofNat (c.packets d)).toNat = c.batch d := by
  refine ⟨validate_eq_ok_iff, fun fault => ?_, fun valid d used => ?_,
    ⟨c.rxPacket_eq, c.txPacket_eq, c.capacity_eq⟩, fun d => ⟨c.batch_eq d, ?_⟩⟩
  · simp only [validate_eq_error_iff, fault?_eq_some_iff]
    constructor
    · rintro ⟨cause, ⟨before, k, after, split, fine, refused⟩, rfl⟩
      refine ⟨before, k, after, cause, rfl, split, fine, fun holds => ?_, refused⟩
      exact Option.some_ne_none cause
        ((Condition.check_of_refuses refused).symm.trans (Condition.check_eq_none_iff.mpr holds))
    · rintro ⟨before, k, after, cause, rfl, split, fine, _, refused⟩
      exact ⟨cause, ⟨before, k, after, split, fine, refused⟩, rfl⟩
  · refine ⟨c.packet_pos d, ?_, batch_le_capacity valid used⟩
    rw [batch_eq]
    exact Nat.le_mul_of_pos_right _ (c.packets_pos d)
  · have product := c.batch_lt d
    have packet := c.packet_lt d
    have packets := c.packets_lt d
    rw [batch_eq] at product ⊢
    rw [UInt64.toNat_mul, UInt64.toNat_ofNat', UInt64.toNat_ofNat',
      Nat.mod_eq_of_lt (a := c.packet d) (by omega), Nat.mod_eq_of_lt (a := c.packets d) (by omega),
      Nat.mod_eq_of_lt (by omega)]

/-- Two receive channels on a packed link, all sizes left at their defaults. -/
def packedReceiver : StreamConfig := { default with rxChannels := [1, 0], linkFormat := .i12 }

theorem validation_exact_packed : packedReceiver.validate 2 = .ok () ∧
    packedReceiver.channels .rx ≠ [] ∧ 1 ≤ packedReceiver.packet .rx ∧
    packedReceiver.packet .rx ≤ packedReceiver.batch .rx ∧
    packedReceiver.batch .rx ≤ packedReceiver.capacity :=
  ⟨rfl, by decide, (validation_exact packedReceiver 2).2.2.1 rfl .rx (by decide)⟩

/-- An entry that repeats an earlier one is named before a later one that is out of range. -/
example : { default with rxChannels := [1, 0, 1, 9] }.validate 2 =
    .error (.invalidConfig (.channelRepeated .rx 1)) := rfl

end StreamConfig
end RadioStream
