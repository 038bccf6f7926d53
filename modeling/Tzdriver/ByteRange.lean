import Mathlib.Data.List.Range
import Mathlib.Data.List.Flatten

/-!
# Ranges of a memory

`slice mem a n` are the `n` cells from the address `a` on, in order. Ranges that follow one another
join to one range, so that pieces of one length tile the range they cover.
-/

namespace ByteRange

variable {β : Type*} {mem mem' : Nat → β} {a b m n : Nat}

def slice (mem : Nat → β) (a n : Nat) : List β := (List.range n).map fun i => mem (a + i)

@[simp] theorem length_slice : (slice mem a n).length = n := by simp [slice]

@[simp] theorem slice_zero : slice mem a 0 = [] := rfl

theorem slice_add : slice mem a (m + n) = slice mem a m ++ slice mem (a + m) n := by
  simp [slice, List.range_add, Function.comp_def, Nat.add_assoc]

theorem slice_eq_iff : slice mem a n = slice mem' b n ↔ ∀ i, i < n → mem (a + i) = mem' (b + i) := by
  simp [slice, List.map_inj_left]

/-- Pieces of the length `m`, one after another. -/
theorem flatten_slices (mem : Nat → β) (a m k : Nat) :
    ((List.range k).map fun i => slice mem (a + i * m) m).flatten = slice mem a (k * m) := by
  induction k with
  | zero => simp
  | succ k ih =>
    rw [List.range_succ, List.map_append, List.flatten_append, ih, Nat.succ_mul, slice_add]
    simp

/-- Pieces of the length `m` and what is left. -/
theorem flatten_slices_rest (mem : Nat → β) (a : Nat) {m k : Nat} (fits : k * m ≤ n) :
    ((List.range k).map fun i => slice mem (a + i * m) m).flatten ++
      slice mem (a + k * m) (n - k * m) = slice mem a n := by
  rw [flatten_slices, ← slice_add, Nat.add_sub_cancel' fits]

end ByteRange
