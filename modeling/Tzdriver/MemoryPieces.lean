import Tzdriver.ByteRange
import Tzdriver.MemoryCells

/-!
# A memory piece by piece

What is read from a range after a write to it or to another one, and ranges that are equal because
their pieces are.
-/

namespace MemoryPieces

open ByteRange MemoryCells

variable {β : Type*} {mem mem' : Nat → β} {p q n m k a b : Nat} {xs : List β}

theorem slice_write : slice (write mem p xs) p xs.length = xs := holds_write.read

theorem slice_write_apart (apart : q + n ≤ p ∨ p + xs.length ≤ q) :
    slice (write mem p xs) q n = slice mem q n := by
  rw [slice_eq_iff]
  intro i hi
  exact write_outside (by omega)

/-- Memories that agree on the pieces of a range agree on it. -/
theorem eq_of_pieces (same : ∀ j, j < k → slice mem (a + j * m) m = slice mem' (b + j * m) m)
    {i : Nat} (inside : i < k * m) : mem (a + i) = mem' (b + i) := by
  have pieces : (List.range k).map (fun j => slice mem (a + j * m) m) =
      (List.range k).map fun j => slice mem' (b + j * m) m := by
    apply List.map_congr_left
    intro j hj
    exact same j (List.mem_range.1 hj)
  have whole : slice mem a (k * m) = slice mem' b (k * m) := by
    rw [← flatten_slices, ← flatten_slices, pieces]
  exact slice_eq_iff.1 whole i inside

end MemoryPieces
