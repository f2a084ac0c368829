/-!
Finite maps as lists of entries, for stores with a handful of keys. Putting a value
replaces the one under the same key and keeps all others.
-/
namespace RadioStream

structure Table (κ ν : Type) where
  entries : List (κ × ν)
deriving DecidableEq

namespace Table
variable {κ ν : Type} [DecidableEq κ]

def empty : Table κ ν := ⟨[]⟩

def get? (t : Table κ ν) (k : κ) : Option ν := (t.entries.find? fun e => e.1 = k).map (·.2)

def put (t : Table κ ν) (k : κ) (v : ν) : Table κ ν :=
  ⟨(k, v) :: t.entries.filter fun e => e.1 ≠ k⟩

@[simp] theorem get?_empty (k : κ) : (empty : Table κ ν).get? k = none := rfl

theorem get?_put (t : Table κ ν) (k k' : κ) (v : ν) :
    (t.put k v).get? k' = if k = k' then some v else t.get? k' := by
  by_cases h : k = k'
  · simp [get?, put, h]
  · simp only [get?, put, List.find?_cons, h, decide_false, if_false, List.find?_filter]
    congr 2
    funext e
    by_cases same : e.1 = k'
    · simp [same, Ne.symm h]
    · simp [same]

end Table
end RadioStream
