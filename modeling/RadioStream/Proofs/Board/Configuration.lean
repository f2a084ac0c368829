import RadioStream.Board.Store
import RadioStream.Proofs.Binary.Sign

/-!
What an RF configuration asks of a module and writes to its clocks. It fits if the module has all
channels that it uses; a refusal names the first one that the module does not have. The clocks of
a fitting one are told from the configuration alone, each by its address.
-/
namespace RadioStream

theorem Table.get?_foldl_put {α κ ν : Type} [DecidableEq κ] (key : α → κ) (value : α → ν)
    (writes : List α) (t : Table κ ν) (k : κ) :
    (writes.foldl (fun t w => t.put (key w) (value w)) t).get? k =
      (writes.reverse.findSome? fun w => if key w = k then some (value w) else none).or
        (t.get? k) := by
  induction writes generalizing t with
  | nil => rfl
  | cons w rest ih =>
    rw [List.foldl_cons, ih, Table.get?_put, List.reverse_cons, List.findSome?_append,
      Option.or_assoc]
    congr 1
    rw [List.findSome?_cons]
    split <;> rfl

/-- A search finds what all that it can find agree on. -/
theorem findSome?_eq_of_agree {α β : Type} {f : α → Option β} {list : List α} {found : Option β}
    (agree : ∀ a ∈ list, ∀ b, f a = some b → found = some b)
    (there : ∀ b, found = some b → ∃ a ∈ list, f a = some b) : list.findSome? f = found := by
  cases result : list.findSome? f with
  | some b =>
    obtain ⟨a, member, here⟩ := List.exists_of_findSome?_eq_some result
    exact (agree a member b here).symm
  | none =>
    cases found with
    | none => rfl
    | some b =>
      obtain ⟨a, member, here⟩ := there b rfl
      rw [List.findSome?_eq_none_iff.mp result a member] at here
      contradiction

theorem mem_drop_of_getElem? {α : Type} {list : List α} {i count : Nat} {a : α}
    (there : list[i]? = some a) (past : count ≤ i) : a ∈ list.drop count := by
  obtain ⟨k, rfl⟩ := Nat.exists_eq_add_of_le past
  exact List.mem_iff_getElem?.mpr ⟨k, by rw [List.getElem?_drop, there]⟩

/-- Clocks that a module has once and not per channel. -/
def Clock.isShared : Clock → Bool
  | .reference | .cgen => true
  | _ => false

theorem ClockAddress.of_eq_iff {m n : UInt8} {k l : Clock} {i j : UInt8} :
    of m k i = of n l j ↔ m = n ∧ k = l ∧ (k.isShared = true ∨ i = j) := by
  cases k <;> cases l <;> simp [of, Clock.isShared]

namespace RadioConfig
variable {counts : List UInt8} {index : UInt8} {config : RadioConfig} {fault : Fault}

/-- Whether a configuration is for a module that there is and uses only channels that it has. -/
def Fits (counts : List UInt8) (index : UInt8) (config : RadioConfig) : Prop :=
  ∃ count ∈ counts[index.toNat]?, ∀ c ∈ config.channels.drop count.toNat, c.isActive = false

instance : Decidable (Fits counts index config) := inferInstanceAs (Decidable (∃ _ ∈ _, _))

/-- What a configuration writes to a clock of its module, if anything. -/
def clockValue? (config : RadioConfig) (clock : Clock) (channel : UInt8) : Option Double :=
  match clock with
  | .reference =>
    if config.referenceClock.decode.HasSign false then some config.referenceClock else none
  | .sxr => (config.channels[channel.toNat]?.filter (·.isActive)).map (·.rx.centerFrequency)
  | .sxt => (config.channels[channel.toNat]?.filter (·.isActive)).map (·.tx.centerFrequency)
  | .cgen | .rxTsp | .txTsp => none

/-- Why a configuration is refused: there is no such module, or it uses a channel that the module
does not have, of which the first is named. -/
inductive Refused (counts : List UInt8) (index : UInt8) (config : RadioConfig) : Fault → Prop
  | unknown (absent : counts[index.toNat]? = none) :
      Refused counts index config (.invalidModule index)
  | outside {count : UInt8} {i : Nat} {c : ChannelConfig}
      (found : counts[index.toNat]? = some count) (there : config.channels[i]? = some c)
      (active : c.isActive = true) (past : count.toNat ≤ i)
      (first : ∀ j other, j < i → config.channels[j]? = some other → other.isActive = true →
        j < count.toNat) :
      Refused counts index config (.invalidConfig (.channelNotOnModule i index count.toNat))

theorem Refused.not_fits (refused : Refused counts index config fault) :
    ¬Fits counts index config := by
  rintro ⟨count, has, idle⟩
  cases refused with
  | unknown absent =>
    rw [absent] at has
    contradiction
  | outside found there active past first =>
    rw [found, Option.mem_some_iff] at has
    rw [idle _ (mem_drop_of_getElem? there (has ▸ past))] at active
    contradiction

theorem mem_activeChannels {i : Nat} {c : ChannelConfig} :
    (i, c) ∈ Board.activeChannels config ↔ config.channels[i]? = some c ∧ c.isActive = true := by
  rw [Board.activeChannels, List.mem_filter, List.mem_mapIdx]
  constructor
  · rintro ⟨⟨j, inside, same⟩, active⟩
    obtain ⟨rfl, rfl⟩ := Prod.mk.inj same
    exact ⟨List.getElem?_eq_getElem inside, active⟩
  · rintro ⟨there, active⟩
    obtain ⟨inside, rfl⟩ := List.getElem?_eq_some_iff.mp there
    exact ⟨⟨i, inside, rfl⟩, active⟩

/-- The first channel in use that a module with `count` channels does not have. -/
theorem find?_activeChannels {count i : Nat} {c : ChannelConfig} :
    (Board.activeChannels config).find? (fun entry => count ≤ entry.1) = some (i, c) ↔
      config.channels[i]? = some c ∧ c.isActive = true ∧ count ≤ i ∧
        ∀ j other, j < i → config.channels[j]? = some other → other.isActive = true →
          j < count := by
  rw [Board.activeChannels, List.find?_filter, List.find?_eq_some_iff_getElem]
  simp only [List.getElem_mapIdx, List.length_mapIdx, decide_eq_true_eq, Bool.not_eq_true',
    decide_eq_false_iff_not, not_and, Nat.not_le]
  constructor
  · rintro ⟨⟨active, past⟩, j, inside, same, first⟩
    obtain ⟨rfl, rfl⟩ := Prod.mk.inj same
    refine ⟨List.getElem?_eq_getElem inside, active, past, fun k other before there => ?_⟩
    obtain ⟨_, rfl⟩ := List.getElem?_eq_some_iff.mp there
    exact first k before
  · rintro ⟨there, active, past, first⟩
    obtain ⟨inside, rfl⟩ := List.getElem?_eq_some_iff.mp there
    exact ⟨⟨active, past⟩, i, inside, rfl, fun j before =>
      first j _ before (List.getElem?_eq_getElem _)⟩

theorem find?_activeChannels_none {count : Nat} :
    (Board.activeChannels config).find? (fun entry => count ≤ entry.1) = none ↔
      ∀ c ∈ config.channels.drop count, c.isActive = false := by
  simp only [List.find?_eq_none, Prod.forall, mem_activeChannels, decide_eq_true_eq]
  constructor
  · intro has c member
    obtain ⟨k, there⟩ := List.mem_iff_getElem?.mp member
    rw [List.getElem?_drop] at there
    exact Bool.eq_false_iff.mpr fun active => has _ c ⟨there, active⟩ (Nat.le_add_right _ _)
  · rintro idle i c ⟨there, active⟩ past
    rw [idle c (mem_drop_of_getElem? there past)] at active
    contradiction

theorem mem_clockWrites {a : ClockAddress} {v : Double} :
    (a, v) ∈ Board.clockWrites index config ↔
      (∃ i c, config.channels[i]? = some c ∧ c.isActive = true ∧
        (a = .of index .sxr (.ofNat i) ∧ v = c.rx.centerFrequency ∨
          a = .of index .sxt (.ofNat i) ∧ v = c.tx.centerFrequency)) ∨
      config.referenceClock.decode.HasSign false ∧ a = .of index .reference 0 ∧
        v = config.referenceClock := by
  rw [← Binary.zero_below_iff (by decide), Board.clockWrites, List.mem_append, List.mem_flatMap]
  refine or_congr ?_ ?_
  · simp only [Prod.exists, mem_activeChannels, List.mem_cons, Prod.mk.injEq, List.not_mem_nil,
      or_false, and_assoc]
  · split <;> simp [*]

/-- A fitting configuration numbers the channels that it uses without a wrap. -/
theorem Fits.small (fits : Fits counts index config) {i : Nat} {c : ChannelConfig}
    (there : config.channels[i]? = some c) (active : c.isActive = true) :
    (UInt8.ofNat i).toNat = i := by
  obtain ⟨count, _, idle⟩ := fits
  have has : i < count.toNat := by
    refine Nat.lt_of_not_le fun past => ?_
    rw [idle c (mem_drop_of_getElem? there past)] at active
    contradiction
  have := count.toNat_lt
  rw [UInt8.toNat_ofNat']
  omega

/-- A clock is written where a configuration has a value for it. -/
theorem Fits.mem_clockWrites (fits : Fits counts index config) {module : UInt8} {clock : Clock}
    {channel : UInt8} {v : Double} :
    (.of module clock channel, v) ∈ Board.clockWrites index config ↔
      index = module ∧ config.clockValue? clock channel = some v := by
  have oscillator (frequency : ChannelConfig → Double) :
      (∃ i c, config.channels[i]? = some c ∧ c.isActive = true ∧
        (module = index ∧ channel = .ofNat i) ∧ v = frequency c) ↔
      index = module ∧
        (config.channels[channel.toNat]?.filter (·.isActive)).map frequency = some v := by
    simp only [Option.map_eq_some_iff, Option.filter_eq_some_iff]
    constructor
    · rintro ⟨i, c, there, active, ⟨rfl, rfl⟩, rfl⟩
      exact ⟨rfl, c, ⟨(fits.small there active).symm ▸ there, active⟩, rfl⟩
    · rintro ⟨rfl, c, ⟨there, active⟩, rfl⟩
      exact ⟨_, c, there, active, ⟨rfl, UInt8.ofNat_toNat.symm⟩, rfl⟩
  rw [RadioConfig.mem_clockWrites]
  simp only [ClockAddress.of_eq_iff]
  cases clock with
  | reference =>
    simp only [clockValue?, Clock.isShared, reduceCtorEq, false_and, and_false, or_false,
      exists_false, false_or, true_or, and_true, Option.ite_none_right_eq_some,
      Option.some.injEq]
    constructor
    · rintro ⟨positive, rfl, rfl⟩
      exact ⟨rfl, positive, rfl⟩
    · rintro ⟨rfl, positive, rfl⟩
      exact ⟨positive, rfl, rfl⟩
  | sxr => simpa [clockValue?, Clock.isShared] using oscillator (·.rx.centerFrequency)
  | sxt => simpa [clockValue?, Clock.isShared] using oscillator (·.tx.centerFrequency)
  | cgen | rxTsp | txTsp => simp [clockValue?]

/-- What a fitting configuration leaves at a clock. -/
theorem Fits.clockWrites_last (fits : Fits counts index config) (module : UInt8) (clock : Clock)
    (channel : UInt8) :
    ((Board.clockWrites index config).reverse.findSome? fun w =>
      if w.1 = .of module clock channel then some w.2 else none) =
        if index = module then config.clockValue? clock channel else none := by
  refine findSome?_eq_of_agree ?_ ?_
  · rintro ⟨a, v⟩ member value there
    rw [Option.ite_none_right_eq_some, Option.some.injEq] at there
    obtain ⟨rfl, rfl⟩ := there
    obtain ⟨same, held⟩ := fits.mem_clockWrites.mp (List.mem_reverse.mp member)
    rw [if_pos same, held]
  · intro value there
    rw [Option.ite_none_right_eq_some] at there
    exact ⟨_, List.mem_reverse.mpr (fits.mem_clockWrites.mpr there), if_pos rfl⟩

end RadioConfig
end RadioStream
