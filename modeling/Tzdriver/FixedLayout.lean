import Mathlib.Data.List.Basic

/-!
# Values of a fixed size in memory

A layout puts a value into `size` bytes and gets it back from memory that begins with them. Records
are laid out field after field, arrays element after element.
-/

structure Layout (α : Type*) where
  size : Nat
  put : α → List UInt8
  get : List UInt8 → α
  length_put : ∀ a, (put a).length = size
  get_put : ∀ a rest, get (put a ++ rest) = a

namespace Layout

variable {α β : Type*}

/-- A value that fills the memory. -/
theorem get_exact (f : Layout α) (a : α) : f.get (f.put a) = a := by
  have read := f.get_put a []
  rwa [List.append_nil] at read

/-- What stands behind a value. -/
theorem drop_put (f : Layout α) (a : α) (rest : List UInt8) : (f.put a ++ rest).drop f.size = rest := by
  apply List.drop_left'
  exact f.length_put a

def bytes (n : Nat) : Layout (Vector UInt8 n) where
  size := n
  put v := v.toList
  get mem := Vector.ofFn fun i => mem.getD i 0
  length_put v := Vector.length_toList
  get_put v rest := by
    apply Vector.ext
    intro i hi
    simp [List.getD_eq_getElem?_getD, List.getElem?_append_left]

/-- A 32-bit word, lowest byte first. -/
def u32 : Layout UInt32 where
  size := 4
  put w := [w.toNat.toUInt8, (w.toNat / 256).toUInt8, (w.toNat / 65536).toUInt8,
    (w.toNat / 16777216).toUInt8]
  get mem := UInt32.ofNat ((mem.getD 0 0).toNat + 256 * (mem.getD 1 0).toNat +
    65536 * (mem.getD 2 0).toNat + 16777216 * (mem.getD 3 0).toNat)
  length_put _ := rfl
  get_put w rest := by
    apply UInt32.toNat_inj.1
    have bound := w.toNat_lt
    simp
    omega

def pair (f : Layout α) (g : Layout β) : Layout (α × β) where
  size := f.size + g.size
  put x := f.put x.1 ++ g.put x.2
  get mem := (f.get mem, g.get (mem.drop f.size))
  length_put x := by rw [List.length_append, f.length_put, g.length_put]
  get_put x rest := by rw [List.append_assoc, f.get_put, f.drop_put, g.get_put]

/-- The same bytes read as values of another type. -/
def map (f : Layout α) (view : α → β) (back : β → α) (same : ∀ b, view (back b) = b) : Layout β where
  size := f.size
  put b := f.put (back b)
  get mem := view (f.get mem)
  length_put b := f.length_put (back b)
  get_put b rest := by rw [f.get_put, same]

/-- Element `i` of the elements one after the other. -/
theorem get_drop_flatMap (f : Layout α) (rest : List UInt8) (xs : List α) {i : Nat}
    (inside : i < xs.length) : f.get ((xs.flatMap f.put ++ rest).drop (i * f.size)) = xs[i] := by
  induction xs generalizing i with
  | nil => exact absurd inside (Nat.not_lt_zero i)
  | cons x xs ih =>
    rw [List.flatMap_cons, List.append_assoc]
    cases i with
    | zero =>
      rw [Nat.zero_mul]
      exact f.get_put x _
    | succ i =>
      rw [Nat.succ_mul, Nat.add_comm, ← List.drop_drop, f.drop_put]
      exact ih (Nat.lt_of_succ_lt_succ inside)

def array (f : Layout α) (n : Nat) : Layout (Vector α n) where
  size := n * f.size
  put v := v.toList.flatMap f.put
  get mem := Vector.ofFn fun i : Fin n => f.get (mem.drop (i * f.size))
  length_put v := by simp [List.length_flatMap, f.length_put]
  get_put v rest := by
    apply Vector.ext
    intro i hi
    rw [Vector.getElem_ofFn, f.get_drop_flatMap rest v.toList (by simpa using hi)]
    exact Vector.getElem_toList _

end Layout
