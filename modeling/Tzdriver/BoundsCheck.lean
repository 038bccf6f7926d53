import Mathlib.Algebra.Group.Nat.Defs

/-!
# Copies that know the size of their destination

`memcpy_s` of libboundscheck, for buffers that do not overlap. What a destination is made of is left
open: a caller says what becomes of it when it is kept, cleared or copied to.
-/

namespace BoundsCheck

def securecMemMaxLen : Nat := 0x7fffffff

/-- `memcpy_s`: its code and the destination. `dest` and `src` say that the pointers are not `NULL`;
behind the two codes above 128 the destination is cleared. -/
def memcpyS {α : Type} (dest src : Bool) (destMax count : Nat) (kept cleared copied : α) : Int × α :=
  if destMax = 0 ∨ destMax > securecMemMaxLen then (34, kept)
  else if dest = false then (22, kept)
  else if src = false then (150, cleared)
  else if count > destMax then (162, cleared)
  else (0, copied)

section Copy

variable {α : Type} {dest src : Bool} {destMax count : Nat} {kept cleared copied : α}

/-- A copy that fits is made. -/
theorem memcpyS_fits (some_ : 0 < destMax) (small : destMax ≤ securecMemMaxLen)
    (fits : count ≤ destMax) :
    memcpyS true true destMax count kept cleared copied = (0, copied) := by
  have valid : ¬ (destMax = 0 ∨ destMax > securecMemMaxLen) := by omega
  rw [memcpyS, if_neg valid, if_neg (by decide), if_neg (by decide), if_neg (Nat.not_lt_of_le fits)]

theorem memcpyS_ok_iff : (memcpyS dest src destMax count kept cleared copied).1 = 0 ↔
    dest = true ∧ src = true ∧ 0 < destMax ∧ destMax ≤ securecMemMaxLen ∧ count ≤ destMax := by
  unfold memcpyS
  cases dest <;> cases src <;> grind

end Copy

end BoundsCheck
