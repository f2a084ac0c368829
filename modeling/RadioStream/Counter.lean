/-!
Event counters of a channel. A counter is a 32-bit register that stops at its
largest value instead of wrapping.
-/
namespace RadioStream

structure Counter where
  count : Nat
  le_limit : count ≤ 0xffffffff
deriving DecidableEq

namespace Counter

def zero : Counter := ⟨0, by decide⟩

def add (c : Counter) (n : Nat) : Counter :=
  ⟨min (c.count + n) 0xffffffff, Nat.min_le_right _ _⟩

def increment (c : Counter) : Counter := c.add 1

@[simp] theorem count_zero : zero.count = 0 := rfl

@[simp] theorem count_add (c : Counter) (n : Nat) :
    (c.add n).count = min (c.count + n) 0xffffffff := rfl

@[simp] theorem count_increment (c : Counter) :
    c.increment.count = min (c.count + 1) 0xffffffff := rfl

end Counter
end RadioStream
