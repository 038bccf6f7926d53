import Mathlib.Algebra.Group.Nat.Defs
import Mathlib.Data.Set.Defs

/-!
# Byte memory

A memory holds a byte at each 64-bit address. Numbers are stored with the low byte first. A range
of addresses may go past the largest one, where it goes on at 0.
-/

namespace WordMemory

abbrev Address := BitVec 64
abbrev Memory := Address → BitVec 8

variable {start : Address} {offset size total : Nat}

/-! ## Numbers -/

def load32 (mem : Memory) (a : Address) : BitVec 32 :=
  mem (a + 3) ++ mem (a + 2) ++ mem (a + 1) ++ mem a

def load64 (mem : Memory) (a : Address) : BitVec 64 := load32 mem (a + 4) ++ load32 mem a

/-- A 32-bit read of a 64-bit number gives its low half. -/
theorem load32_eq_setWidth (mem : Memory) (a : Address) :
    load32 mem a = (load64 mem a).setWidth 32 := by
  rw [load64, BitVec.setWidth_append, dif_pos (by decide), BitVec.setWidth_eq]

/-! ## Ranges -/

/-- The `size` addresses from `start` on. -/
def range (start : Address) (size : Nat) : Set Address :=
  {a | ∃ k, k < size ∧ a = start + BitVec.ofNat 64 k}

/-- A part of a range. -/
theorem range_subset (fits : offset + size ≤ total) :
    range (start + BitVec.ofNat 64 offset) size ⊆ range start total := by
  rintro a ⟨k, inside, rfl⟩
  refine ⟨offset + k, by omega, ?_⟩
  rw [BitVec.ofNat_add, BitVec.add_assoc]

/-! ## What a write leaves alone -/

/-- The memory is the same outside a set of addresses. -/
def SameOutside (written : Set Address) (mem mem' : Memory) : Prop :=
  ∀ a, a ∉ written → mem' a = mem a

theorem SameOutside.refl (written : Set Address) (mem : Memory) : SameOutside written mem mem :=
  fun _ _ => rfl

/-- The bytes from `dest` on become those of `source`. -/
def fill (mem : Memory) (dest : Address) (size : Nat) (source : Nat → BitVec 8) : Memory :=
  fun a => if (a - dest).toNat < size then source (a - dest).toNat else mem a

theorem fill_sameOutside (mem : Memory) (dest : Address) {size room : Nat} (fits : size ≤ room)
    (source : Nat → BitVec 8) : SameOutside (range dest room) mem (fill mem dest size source) := by
  intro a out
  apply if_neg
  intro within
  exact out ⟨(a - dest).toNat, by omega, by rw [BitVec.ofNat_toNat]; bv_omega⟩

/-! ## Bounded copies -/

/-- A copy that knows how large its destination is. It gets the destination, its size, the source
and the number of bytes, and returns 0 for success. -/
abbrev Copy := Memory → Address → BitVec 64 → Address → BitVec 64 → Int × Memory

/-- The copy stays in its destination, and it fails when the bytes do not fit. -/
structure Copy.Bounded (copy : Copy) : Prop where
  frame : ∀ mem dest destMax src count,
    SameOutside (range dest destMax.toNat) mem (copy mem dest destMax src count).2
  fits : ∀ mem dest destMax src count, (copy mem dest destMax src count).1 = 0 → count ≤ destMax

end WordMemory
