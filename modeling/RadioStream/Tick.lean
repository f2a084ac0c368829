/-!
Hardware time. One tick is one sample period; a module's sample clock is a
signed 64-bit register, so a tick is an integer with its range as a proof.
Positions in a sample run are computed with saturation at the last tick, and
only the clock register itself wraps.
-/
namespace RadioStream

/-- A reading of a 64-bit sample clock. -/
structure Tick where
  toInt : Int
  least_le : -0x8000000000000000 ≤ toInt
  lt_bound : toInt < 0x8000000000000000
deriving DecidableEq

namespace Tick

theorem ext {s t : Tick} (h : s.toInt = t.toInt) : s = t := by
  cases s; cases t; simp_all

/-- The nearest tick to an integer. -/
def clamp (n : Int) : Tick :=
  if _low : n < -0x8000000000000000 then ⟨-0x8000000000000000, by omega, by omega⟩
  else if _high : 0x8000000000000000 ≤ n then ⟨0x7fffffffffffffff, by omega, by omega⟩
  else ⟨n, by omega, by omega⟩

/-- The tick that a 64-bit register shows for an integer. -/
def wrap (n : Int) : Tick :=
  ⟨n.bmod 0x10000000000000000, by have := @Int.le_bmod n 0x10000000000000000 (by decide); omega,
    by have := @Int.bmod_lt n 0x10000000000000000 (by decide); omega⟩

def ofInt? (n : Int) : Option Tick :=
  if h : -0x8000000000000000 ≤ n ∧ n < 0x8000000000000000 then some ⟨n, h.1, h.2⟩ else none

def zero : Tick := ⟨0, by decide, by decide⟩

/-- The earliest tick, which stands for a clock that was never read. -/
def least : Tick := ⟨-0x8000000000000000, by decide, by decide⟩

instance : LE Tick := ⟨fun s t => s.toInt ≤ t.toInt⟩
instance : LT Tick := ⟨fun s t => s.toInt < t.toInt⟩

theorem le_def {s t : Tick} : s ≤ t ↔ s.toInt ≤ t.toInt := Iff.rfl
theorem lt_def {s t : Tick} : s < t ↔ s.toInt < t.toInt := Iff.rfl

instance (s t : Tick) : Decidable (s ≤ t) := decidable_of_iff _ le_def.symm
instance (s t : Tick) : Decidable (s < t) := decidable_of_iff _ lt_def.symm

instance : Max Tick := ⟨fun s t => if s ≤ t then t else s⟩
instance : Min Tick := ⟨fun s t => if s ≤ t then s else t⟩

instance : Std.MinEqOr Tick where
  min_eq_or s t := by
    change (if s ≤ t then s else t) = s ∨ (if s ≤ t then s else t) = t
    split
    · exact .inl rfl
    · exact .inr rfl

theorem toInt_max (s t : Tick) : (max s t).toInt = max s.toInt t.toInt := by
  change (if s ≤ t then t else s).toInt = _
  simp only [le_def]
  split <;> omega

theorem toInt_min (s t : Tick) : (min s t).toInt = min s.toInt t.toInt := by
  change (if s ≤ t then s else t).toInt = _
  simp only [le_def]
  split <;> omega

/-- The tick `n` sample periods later, or the last one. -/
def later (t : Tick) (n : Nat) : Tick := clamp (t.toInt + n)

theorem toInt_clamp (n : Int) :
    (clamp n).toInt = max (-0x8000000000000000) (min n 0x7fffffffffffffff) := by
  unfold clamp
  split
  · simp only; omega
  · split <;> simp only <;> omega

theorem toInt_later (t : Tick) (n : Nat) :
    (t.later n).toInt = min (t.toInt + n) 0x7fffffffffffffff := by
  have := t.least_le
  rw [later, toInt_clamp]
  omega

@[simp] theorem later_zero (t : Tick) : t.later 0 = t := by
  have := t.lt_bound
  apply ext
  rw [toInt_later]
  omega

/-- Saturation at the last tick is the same in one stride and in two. -/
theorem later_later (t : Tick) (m n : Nat) : (t.later m).later n = t.later (m + n) := by
  apply ext
  simp only [toInt_later]
  omega

/-- Sample periods from `s` to `t`, none when `t` is not later. -/
def gap (s t : Tick) : Nat := (t.toInt - s.toInt).toNat

/-- The difference of two ticks as a 64-bit register holds it. -/
def minus (t s : Tick) : Tick := wrap (t.toInt - s.toInt)

/-- The number that a register shows when it is read without a sign. -/
def unsigned (t : Tick) : Nat := (t.toInt % 0x10000000000000000).toNat

/-- A difference that fits the register is held as it is. -/
theorem toInt_minus {t s : Tick} (low : -0x8000000000000000 ≤ t.toInt - s.toInt)
    (high : t.toInt - s.toInt < 0x8000000000000000) :
    (t.minus s).toInt = t.toInt - s.toInt :=
  Int.bmod_eq_of_le (by omega) (by omega)

/-- Read without a sign, a register holds the gap to every later tick, also where the signed
difference has overflowed. -/
theorem unsigned_minus {t s : Tick} (later : s ≤ t) : (t.minus s).unsigned = s.gap t := by
  have low := s.least_le
  have high := t.lt_bound
  rw [le_def] at later
  have same : (t.minus s).toInt % 0x10000000000000000 = t.toInt - s.toInt :=
    Int.bmod_emod.trans (Int.emod_eq_of_lt (by omega) (by omega))
  rw [unsigned, same, gap]

end Tick
end RadioStream
