import Mathlib.Data.List.Basic

/-!
# Strings in a memory

A memory is a function from addresses to cells. `Holds mem p xs` says that the string `xs` stands
at the address `p`, and `Filled mem v a b` that every cell from `a` up to `b` is `v`. Both survive
a write to other addresses.
-/

namespace MemoryCells

variable {β : Type*} {mem : Nat → β} {p q a b : Nat} {xs ys : List β} {v : β}

def Holds (mem : Nat → β) (p : Nat) (xs : List β) : Prop :=
  ∀ i (h : i < xs.length), mem (p + i) = xs[i]

def Filled (mem : Nat → β) (v : β) (a b : Nat) : Prop := ∀ i, a ≤ i → i < b → mem i = v

def write (mem : Nat → β) (p : Nat) (xs : List β) : Nat → β := fun i =>
  if h : p ≤ i ∧ i - p < xs.length then xs[i - p] else mem i

theorem write_outside {i : Nat} (outside : i < p ∨ p + xs.length ≤ i) :
    write mem p xs i = mem i := by
  have : ¬ (p ≤ i ∧ i - p < xs.length) := by omega
  simp [write, this]

theorem holds_write : Holds (write mem p xs) p xs := by
  intro i hi
  simp [write, hi]

theorem filled_write (n : Nat) : Filled (write mem p (List.replicate n v)) v p (p + n) := by
  intro i low high
  have : i - p < n := by omega
  simp [write, low, this]

theorem Holds.frame (holds : Holds mem p xs) (apart : q + ys.length ≤ p ∨ p + xs.length ≤ q) :
    Holds (write mem q ys) p xs := by
  intro i hi
  rw [write_outside (by omega)]
  exact holds i hi

theorem Filled.frame (filled : Filled mem v a b) (apart : q + ys.length ≤ a ∨ b ≤ q) :
    Filled (write mem q ys) v a b := by
  intro i low high
  rw [write_outside (by omega)]
  exact filled i low high

theorem Filled.shrink {a' b' : Nat} (filled : Filled mem v a b) (low : a ≤ a') (high : b' ≤ b) :
    Filled mem v a' b' := by
  intro i hi hb
  exact filled i (by omega) (by omega)

theorem holds_nil : Holds mem p [] := by
  intro i hi
  simp at hi

theorem holds_append : Holds mem p (xs ++ ys) ↔ Holds mem p xs ∧ Holds mem (p + xs.length) ys := by
  constructor
  · intro holds
    refine ⟨?_, ?_⟩
    · intro i hi
      have := holds i (by simp; omega)
      rwa [List.getElem_append_left hi] at this
    · intro i hi
      have := holds (xs.length + i) (by simp; omega)
      rw [List.getElem_append_right (by omega)] at this
      simpa [Nat.add_assoc] using this
  · rintro ⟨left, right⟩ i hi
    by_cases hx : i < xs.length
    · rw [List.getElem_append_left hx]
      exact left i hx
    · rw [List.getElem_append_right (by omega)]
      have := right (i - xs.length) (by simp at hi; omega)
      rwa [show p + xs.length + (i - xs.length) = p + i by omega] at this

/-- What stands in the memory is what is read from it. -/
theorem Holds.read (holds : Holds mem p xs) :
    ((List.range xs.length).map fun i => mem (p + i)) = xs := by
  apply List.ext_getElem
  · simp
  · intro i hi hx
    rw [List.getElem_map, List.getElem_range]
    exact holds i hx

end MemoryCells
