import Mathlib.Data.Set.Card
import Mathlib.Logic.Function.Basic

/-!
# Reference counts as ledgers

`holds r` is the object that the reference `r` points to and `count v` the counter of the
object `v`, `none` when `v` is not allocated. The ledger is balanced when every counter is
the number of references to its object and no reference points to an object that is gone.
Each operation on a counted object changes one reference and one counter.
-/

namespace RefLedger

open Function

variable {R V : Type*} {holds : R → Option V} {count : V → Option ℕ}

structure Balanced (holds : R → Option V) (count : V → Option ℕ) : Prop where
  exact : ∀ v k, count v = some k → {r | holds r = some v}.encard = k
  valid : ∀ r v, holds r = some v → ∃ k, count v = some k

theorem Balanced.empty (none_ : ∀ r, holds r = none) (gone : ∀ v, count v = none) :
    Balanced holds count := by
  constructor
  · intro v k hk
    simp [gone] at hk
  · intro r v held
    simp [none_] at held

theorem Balanced.pos (ledger : Balanced holds count) {r : R} {v : V} (held : holds r = some v) :
    ∃ k, count v = some (k + 1) := by
  obtain ⟨k, hk⟩ := ledger.valid r v held
  cases k with
  | succ k => exact ⟨k, hk⟩
  | zero =>
    have none_left := ledger.exact v 0 hk
    rw [Nat.cast_zero, Set.encard_eq_zero] at none_left
    exact absurd held (Set.eq_empty_iff_forall_notMem.1 none_left r)

theorem Balanced.none_of_zero (ledger : Balanced holds count) {v : V} (zero : count v = some 0)
    (r : R) : holds r ≠ some v := by
  intro held
  obtain ⟨k, hk⟩ := ledger.pos held
  simp [zero] at hk

theorem Balanced.none_of_gone (ledger : Balanced holds count) {v : V} (gone : count v = none)
    (r : R) : holds r ≠ some v := by
  intro held
  obtain ⟨k, hk⟩ := ledger.valid r v held
  simp [gone] at hk

/-- An object with one reference has no other. -/
theorem Balanced.unique (ledger : Balanced holds count) {r q : R} {v : V}
    (one : count v = some 1) (held : holds r = some v) (other : holds q = some v) : q = r := by
  have single := ledger.exact v 1 one
  rw [Nat.cast_one, Set.encard_eq_one] at single
  obtain ⟨x, hx⟩ := single
  have hr : r ∈ ({x} : Set R) := hx ▸ held
  have hq : q ∈ ({x} : Set R) := hx ▸ other
  rw [Set.mem_singleton_iff] at hr hq
  rw [hr, hq]

/-- References of two kinds. -/
theorem refs_sum {Q : Type*} (holds : R ⊕ Q → Option V) (v : V) :
    {r | holds r = some v}.encard =
      {r | holds (.inl r) = some v}.encard + {q | holds (.inr q) = some v}.encard := by
  have split : {r | holds r = some v} =
      Sum.inl '' {r | holds (.inl r) = some v} ∪ Sum.inr '' {q | holds (.inr q) = some v} := by
    ext r
    cases r with
    | inl r => simp
    | inr q => simp
  rw [split, Set.encard_union_eq Set.disjoint_image_inl_image_inr,
    Sum.inl_injective.encard_image, Sum.inr_injective.encard_image]

variable [DecidableEq R]

section Sets

variable (holds) (r : R) (v w : V)

theorem refs_of_ne (other : w ≠ v) (elsewhere : holds r ≠ some w) :
    {q | update holds r (some v) q = some w} = {q | holds q = some w} := by
  ext q
  by_cases hq : q = r
  · subst hq
    simp [elsewhere, Ne.symm other]
  · simp [hq]

theorem refs_none (elsewhere : holds r ≠ some w) :
    {q | update holds r none q = some w} = {q | holds q = some w} := by
  ext q
  by_cases hq : q = r
  · subst hq
    simp [elsewhere]
  · simp [hq]

theorem refs_insert :
    {q | update holds r (some v) q = some v} = insert r {q | holds q = some v} := by
  ext q
  by_cases hq : q = r <;> simp [hq]

theorem refs_diff :
    {q | update holds r none q = some v} = {q | holds q = some v} \ {r} := by
  ext q
  by_cases hq : q = r <;> simp [hq]

omit [DecidableEq R] in
theorem refs_diff_add_one (held : holds r = some v) :
    ({q | holds q = some v} \ {r}).encard + 1 = {q | holds q = some v}.encard :=
  Set.encard_sdiff_singleton_add_one (show r ∈ {q | holds q = some v} from held)

end Sets

/-- A reference moves to another holder. -/
theorem Balanced.move (ledger : Balanced holds count) {r q : R} {v : V}
    (held : holds r = some v) (free : holds q = none) :
    Balanced (update (update holds r none) q (some v)) count := by
  have apart : q ≠ r := by
    rintro rfl
    simp [held] at free
  refine ⟨?_, ?_⟩
  · intro w k hk
    by_cases hw : w = v
    · subst hw
      rw [refs_insert, refs_diff, Set.encard_insert_of_notMem (by simp [free]),
        refs_diff_add_one _ _ _ held]
      exact ledger.exact w k hk
    · rw [refs_of_ne _ _ _ _ hw (by simp [apart, free]),
        refs_none _ _ _ (by simpa [held] using Ne.symm hw)]
      exact ledger.exact w k hk
  · intro x w hx
    by_cases hxq : x = q
    · subst hxq
      rw [update_self, Option.some.injEq] at hx
      exact ledger.valid r w (hx ▸ held)
    · rw [update_of_ne hxq] at hx
      by_cases hxr : x = r
      · simp [hxr] at hx
      · rw [update_of_ne hxr] at hx
        exact ledger.valid x w hx

variable [DecidableEq V]

theorem Balanced.acquire (ledger : Balanced holds count) {r : R} {v : V} {k : ℕ}
    (free : holds r = none) (counted : count v = some k) :
    Balanced (update holds r (some v)) (update count v (some (k + 1))) := by
  refine ⟨?_, ?_⟩
  · intro w n hn
    by_cases hw : w = v
    · subst hw
      rw [update_self, Option.some.injEq] at hn
      rw [refs_insert, Set.encard_insert_of_notMem (by simp [free]), ledger.exact w k counted,
        ← hn, Nat.cast_succ]
    · rw [update_of_ne hw] at hn
      rw [refs_of_ne _ _ _ _ hw (by simp [free])]
      exact ledger.exact w n hn
  · intro q w hq
    by_cases hw : w = v
    · exact ⟨k + 1, by rw [hw, update_self]⟩
    · rw [update_of_ne hw]
      by_cases hqr : q = r
      · rw [hqr, update_self, Option.some.injEq] at hq
        exact absurd hq.symm hw
      · rw [update_of_ne hqr] at hq
        exact ledger.valid q w hq

/-- Dropping a reference; the object stays even without references. -/
theorem Balanced.drop (ledger : Balanced holds count) {r : R} {v : V} {k : ℕ}
    (held : holds r = some v) (counted : count v = some (k + 1)) :
    Balanced (update holds r none) (update count v (some k)) := by
  have left : {q | update holds r none q = some v}.encard = k := by
    have all := ledger.exact v _ counted
    rw [← refs_diff_add_one _ _ _ held, Nat.cast_succ] at all
    rw [refs_diff]
    exact WithTop.add_right_cancel ENat.one_ne_top all
  refine ⟨?_, ?_⟩
  · intro w n hn
    by_cases hw : w = v
    · subst hw
      rw [update_self, Option.some.injEq] at hn
      rw [left, hn]
    · rw [update_of_ne hw] at hn
      rw [refs_none _ _ _ (by simpa [held] using Ne.symm hw)]
      exact ledger.exact w n hn
  · intro q w hq
    by_cases hw : w = v
    · exact ⟨k, by rw [hw, update_self]⟩
    · rw [update_of_ne hw]
      by_cases hqr : q = r
      · simp [hqr] at hq
      · rw [update_of_ne hqr] at hq
        exact ledger.valid q w hq

omit [DecidableEq R] in
theorem Balanced.alloc (ledger : Balanced holds count) {v : V} (gone : count v = none) :
    Balanced holds (update count v (some 0)) := by
  refine ⟨?_, ?_⟩
  · intro w k hk
    by_cases hw : w = v
    · subst hw
      rw [update_self, Option.some.injEq] at hk
      rw [← hk, Nat.cast_zero, Set.encard_eq_zero]
      exact Set.eq_empty_iff_forall_notMem.2 (ledger.none_of_gone gone)
    · rw [update_of_ne hw] at hk
      exact ledger.exact w k hk
  · intro r w held
    by_cases hw : w = v
    · exact absurd (hw ▸ held) (ledger.none_of_gone gone r)
    · rw [update_of_ne hw]
      exact ledger.valid r w held

omit [DecidableEq R] in
/-- An object without references can go. -/
theorem Balanced.discard (ledger : Balanced holds count) {v : V} (zero : count v = some 0) :
    Balanced holds (update count v none) := by
  refine ⟨?_, ?_⟩
  · intro w k hk
    by_cases hw : w = v
    · simp [hw] at hk
    · rw [update_of_ne hw] at hk
      exact ledger.exact w k hk
  · intro r w held
    by_cases hw : w = v
    · exact absurd (hw ▸ held) (ledger.none_of_zero zero r)
    · rw [update_of_ne hw]
      exact ledger.valid r w held

/-- Dropping a reference; the object goes with the last one. -/
theorem Balanced.release (ledger : Balanced holds count) {r : R} {v : V} {k : ℕ}
    (held : holds r = some v) (counted : count v = some (k + 1)) :
    Balanced (update holds r none) (update count v (if k = 0 then none else some k)) := by
  have dropped := ledger.drop held counted
  split
  · rename_i zero
    have gone := dropped.discard (show update count v (some k) v = some 0 by simp [zero])
    rwa [update_idem] at gone
  · exact dropped

omit [DecidableEq R] [DecidableEq V] in
/-- Leaving a family of objects out of the books. -/
theorem Balanced.retire (ledger : Balanced holds count) (keep : V → Bool) :
    Balanced (fun r => (holds r).filter keep) (fun v => if keep v then count v else none) := by
  refine ⟨?_, ?_⟩
  · intro v k hk
    by_cases hv : keep v = true
    · rw [if_pos hv] at hk
      rw [← ledger.exact v k hk]
      congr 1
      ext r
      simp only [Set.mem_ofPred_eq, Option.filter_eq_some_iff]
      exact ⟨fun h => h.1, fun h => ⟨h, hv⟩⟩
    · simp [hv] at hk
  · intro r v held
    obtain ⟨held, hv⟩ := Option.filter_eq_some_iff.1 held
    rw [if_pos hv]
    exact ledger.valid r v held

end RefLedger
