import Mathlib.Logic.Function.Basic
import Mathlib.Data.Nat.Bitwise
import Mathlib.Tactic.Ring

/-!
# Tilings of an interval by dyadic blocks

A partial function `head` gives the order of the block that starts at a cell.
It tiles `[0, 2 ^ m)` when the blocks are aligned, stay inside, cover every cell
and never overlap. Halving one block and joining two buddies keep the tiling.
-/

namespace DyadicTiling

open Function

/-- Cell `i` lies in the block of `2 ^ k` cells that starts at `p`. -/
def Covers (p k i : Nat) : Prop := p ≤ i ∧ i < p + 2 ^ k

structure Tiles (m : Nat) (head : Nat → Option Nat) : Prop where
  aligned : ∀ p k, head p = some k → 2 ^ k ∣ p
  inside : ∀ p k, head p = some k → p + 2 ^ k ≤ 2 ^ m
  covered : ∀ i, i < 2 ^ m → ∃ p k, head p = some k ∧ Covers p k i
  unique : ∀ p k q l i, head p = some k → head q = some l →
    Covers p k i → Covers q l i → p = q

/-- The other half of the block of twice the size. -/
def buddy (p k : Nat) : Nat := p ^^^ 2 ^ k

theorem covers_start (p k : Nat) : Covers p k p :=
  ⟨Nat.le_refl _, Nat.lt_add_of_pos_right (Nat.two_pow_pos k)⟩

theorem covers_succ_iff (p k i : Nat) :
    Covers p (k + 1) i ↔ Covers p k i ∨ Covers (p + 2 ^ k) k i := by
  have hpow : 2 ^ (k + 1) = 2 ^ k + 2 ^ k := by ring
  unfold Covers
  omega

theorem two_pow_mul_xor (k q : Nat) :
    2 ^ k * q ^^^ 2 ^ k = 2 ^ k * (q ^^^ 1) := by
  have h := Nat.shiftLeft_xor_distrib (a := q) (b := 1) (i := k)
  simpa [Nat.shiftLeft_eq, Nat.mul_comm] using h.symm

/-- Of two buddies the lower one is aligned to the joined block. -/
theorem buddy_cases {p k : Nat} (aligned : 2 ^ k ∣ p) :
    (2 ^ (k + 1) ∣ p ∧ buddy p k = p + 2 ^ k) ∨
      (2 ^ (k + 1) ∣ buddy p k ∧ p = buddy p k + 2 ^ k) := by
  obtain ⟨q, rfl⟩ := aligned
  have hbuddy : buddy (2 ^ k * q) k = 2 ^ k * (q ^^^ 1) := two_pow_mul_xor k q
  rw [hbuddy]
  rcases Nat.even_or_odd' q with ⟨r, rfl | rfl⟩
  · left
    rw [Nat.xor_one_of_even ⟨r, by ring⟩]
    exact ⟨⟨r, by ring⟩, by ring⟩
  · right
    rw [Nat.xor_one_of_odd ⟨r, rfl⟩, Nat.add_sub_cancel]
    exact ⟨⟨r, by ring⟩, by ring⟩

theorem buddy_buddy (p k : Nat) : buddy (buddy p k) k = p := by
  rw [buddy, buddy, Nat.xor_assoc, Nat.xor_self, Nat.xor_zero]

theorem buddy_ne (p k : Nat) : buddy p k ≠ p := by
  intro same
  have two : p ^^^ buddy p k = 2 ^ k := by
    rw [buddy, ← Nat.xor_assoc, Nat.xor_self, Nat.zero_xor]
  rw [same, Nat.xor_self] at two
  have := Nat.two_pow_pos k
  omega

namespace Tiles

variable {m : Nat} {head : Nat → Option Nat}

theorem order_le (tiles : Tiles m head) {p k : Nat} (hp : head p = some k) : k ≤ m := by
  have h := tiles.inside p k hp
  exact (Nat.pow_le_pow_iff_right (by decide)).mp (by omega : 2 ^ k ≤ 2 ^ m)

theorem lt_of_head (tiles : Tiles m head) {p k : Nat} (hp : head p = some k) : p < 2 ^ m := by
  have h := tiles.inside p k hp
  have := Nat.two_pow_pos k
  omega

/-- A block of the largest order is the only block. -/
theorem top_is_zero (tiles : Tiles m head) {p : Nat} (hp : head p = some m) : p = 0 := by
  have h := tiles.inside p m hp
  omega

theorem not_head_inside (tiles : Tiles m head) {p k q : Nat} (hp : head p = some k)
    (hne : q ≠ p) (hq : Covers p k q) : head q = none := by
  cases hl : head q with
  | none => rfl
  | some l => exact False.elim (hne (tiles.unique p k q l q hp hl hq (covers_start q l)).symm)

/-- Halve the block at `p`; its upper half becomes a block of its own. -/
theorem split (tiles : Tiles m head) {p k : Nat} (hp : head p = some (k + 1)) :
    Tiles m (update (update head (p + 2 ^ k) (some k)) p (some k)) := by
  have hpos := Nat.two_pow_pos k
  have hpow : 2 ^ (k + 1) = 2 ^ k + 2 ^ k := by ring
  have hin := tiles.inside p (k + 1) hp
  have hdvd : 2 ^ k ∣ p := (Nat.pow_dvd_pow 2 (Nat.le_succ k)).trans (tiles.aligned p _ hp)
  have cases_head : ∀ q l, update (update head (p + 2 ^ k) (some k)) p (some k) q = some l →
      (l = k ∧ (q = p ∨ q = p + 2 ^ k)) ∨ (q ≠ p ∧ q ≠ p + 2 ^ k ∧ head q = some l) := by
    intro q l hq
    by_cases h1 : q = p
    · subst h1; simp at hq; exact Or.inl ⟨hq.symm, Or.inl rfl⟩
    · by_cases h2 : q = p + 2 ^ k
      · subst h2; simp at hq; exact Or.inl ⟨hq.symm, Or.inr rfl⟩
      · simp [h1, h2] at hq; exact Or.inr ⟨h1, h2, hq⟩
  -- a half that covers `i` means the old block covered `i`
  have old : ∀ q i, q = p ∨ q = p + 2 ^ k → Covers q k i → Covers p (k + 1) i := by
    rintro q i (rfl | rfl) hc
    · exact (covers_succ_iff _ _ _).mpr (Or.inl hc)
    · exact (covers_succ_iff _ _ _).mpr (Or.inr hc)
  constructor
  · intro q l hq
    rcases cases_head q l hq with ⟨rfl, rfl | rfl⟩ | ⟨_, _, hq⟩
    · exact hdvd
    · exact Nat.dvd_add hdvd (Nat.dvd_refl _)
    · exact tiles.aligned q l hq
  · intro q l hq
    rcases cases_head q l hq with ⟨rfl, rfl | rfl⟩ | ⟨_, _, hq⟩
    · omega
    · omega
    · exact tiles.inside q l hq
  · intro i hi
    obtain ⟨q, l, hq, hc⟩ := tiles.covered i hi
    by_cases h1 : q = p
    · subst h1
      obtain rfl : l = k + 1 := Option.some.inj (hq.symm.trans hp)
      rcases (covers_succ_iff _ _ _).mp hc with hc | hc
      · exact ⟨q, k, by simp, hc⟩
      · exact ⟨q + 2 ^ k, k, by simp, hc⟩
    · have h2 : q ≠ p + 2 ^ k := by
        rintro rfl
        have hnone := tiles.not_head_inside hp h1 ⟨by omega, by omega⟩
        rw [hnone] at hq; cases hq
      exact ⟨q, l, by simp [h1, h2, hq], hc⟩
  · intro q l r n i hq hr hcq hcr
    rcases cases_head q l hq with ⟨rfl, hq'⟩ | ⟨hqp, _, hq'⟩
    · rcases cases_head r n hr with ⟨rfl, hr'⟩ | ⟨hrp, _, hr'⟩
      · unfold Covers at hcq hcr
        omega
      · exact False.elim (hrp (tiles.unique _ _ _ _ i hr' hp hcr (old q i hq' hcq)))
    · rcases cases_head r n hr with ⟨rfl, hr'⟩ | ⟨_, _, hr'⟩
      · exact False.elim (hqp (tiles.unique _ _ _ _ i hq' hp hcq (old r i hr' hcr)))
      · exact tiles.unique q l r n i hq' hr' hcq hcr

/-- Join the block at `lo` with its upper buddy. -/
theorem merge (tiles : Tiles m head) {lo k : Nat} (hlo : head lo = some k)
    (hhi : head (lo + 2 ^ k) = some k) (aligned : 2 ^ (k + 1) ∣ lo) :
    Tiles m (update (update head (lo + 2 ^ k) none) lo (some (k + 1))) := by
  have hpos := Nat.two_pow_pos k
  have hpow : 2 ^ (k + 1) = 2 ^ k + 2 ^ k := by ring
  have hin := tiles.inside _ _ hhi
  have cases_head : ∀ q l, update (update head (lo + 2 ^ k) none) lo (some (k + 1)) q = some l →
      (l = k + 1 ∧ q = lo) ∨ (q ≠ lo ∧ q ≠ lo + 2 ^ k ∧ head q = some l) := by
    intro q l hq
    by_cases h1 : q = lo
    · subst h1; simp at hq; exact Or.inl ⟨hq.symm, rfl⟩
    · by_cases h2 : q = lo + 2 ^ k
      · subst h2; simp at hq
      · simp [h1, h2] at hq; exact Or.inr ⟨h1, h2, hq⟩
  -- no other block meets the joined one
  have apart : ∀ q l i, q ≠ lo → q ≠ lo + 2 ^ k → head q = some l → Covers q l i →
      ¬ Covers lo (k + 1) i := by
    intro q l i h1 h2 hq hc hj
    rcases (covers_succ_iff _ _ _).mp hj with hj | hj
    · exact h1 (tiles.unique _ _ _ _ i hq hlo hc hj)
    · exact h2 (tiles.unique _ _ _ _ i hq hhi hc hj)
  constructor
  · intro q l hq
    rcases cases_head q l hq with ⟨rfl, rfl⟩ | ⟨_, _, hq⟩
    · exact aligned
    · exact tiles.aligned q l hq
  · intro q l hq
    rcases cases_head q l hq with ⟨rfl, rfl⟩ | ⟨_, _, hq⟩
    · omega
    · exact tiles.inside q l hq
  · intro i hi
    by_cases hj : Covers lo (k + 1) i
    · exact ⟨lo, k + 1, by simp, hj⟩
    · obtain ⟨q, l, hq, hc⟩ := tiles.covered i hi
      have h1 : q ≠ lo := by
        rintro rfl
        obtain rfl : l = k := Option.some.inj (hq.symm.trans hlo)
        exact hj ((covers_succ_iff _ _ _).mpr (Or.inl hc))
      have h2 : q ≠ lo + 2 ^ k := by
        rintro rfl
        obtain rfl : l = k := Option.some.inj (hq.symm.trans hhi)
        exact hj ((covers_succ_iff _ _ _).mpr (Or.inr hc))
      exact ⟨q, l, by simp [h1, h2, hq], hc⟩
  · intro q l r n i hq hr hcq hcr
    rcases cases_head q l hq with ⟨rfl, rfl⟩ | ⟨hq1, hq2, hq'⟩
    · rcases cases_head r n hr with ⟨rfl, rfl⟩ | ⟨hr1, hr2, hr'⟩
      · rfl
      · exact False.elim (apart r n i hr1 hr2 hr' hcr hcq)
    · rcases cases_head r n hr with ⟨rfl, rfl⟩ | ⟨hr1, hr2, hr'⟩
      · exact False.elim (apart q l i hq1 hq2 hq' hcq hcr)
      · exact tiles.unique q l r n i hq' hr' hcq hcr

end Tiles

/-- Blocks of orders `j`, …, `j + n - 1` marked above `p`, the lowest first. -/
def carve (head : Nat → Option Nat) (p j : Nat) : Nat → Nat → Option Nat
  | 0 => head
  | n + 1 => carve (update head (p + 2 ^ j) (some j)) p (j + 1) n

theorem carve_update (head : Nat → Option Nat) (p j n q : Nat) (v : Option Nat)
    (fresh : ∀ m, j ≤ m → m < j + n → q ≠ p + 2 ^ m) :
    carve (update head q v) p j n = update (carve head p j n) q v := by
  induction n generalizing head j with
  | zero => rfl
  | succ n ih =>
    have hne : q ≠ p + 2 ^ j := fresh j (Nat.le_refl _) (by omega)
    rw [carve, carve, update_comm hne]
    exact ih _ (j + 1) (fun m h1 h2 => fresh m (by omega) (by omega))

theorem carve_succ (head : Nat → Option Nat) (p j n : Nat) :
    carve head p j (n + 1) = update (carve head p j n) (p + 2 ^ (j + n)) (some (j + n)) := by
  induction n generalizing head j with
  | zero => rfl
  | succ n ih =>
    rw [carve, ih, show j + 1 + n = j + (n + 1) by omega]
    rfl

/-- Carving a block of order `j + n` down to order `j` is `n` halvings of it. -/
theorem Tiles.carve {m : Nat} {head : Nat → Option Nat} (tiles : Tiles m head) {p j n : Nat}
    (hp : head p = some (j + n)) :
    Tiles m (update (carve head p j n) p (some j)) := by
  induction n generalizing head with
  | zero =>
    rw [DyadicTiling.carve, show update head p (some j) = head from update_eq_self_iff.mpr hp.symm]
    exact tiles
  | succ n ih =>
    have hne : ∀ l, p ≠ p + 2 ^ l := fun l => by have := Nat.two_pow_pos l; omega
    have halved := ih (tiles.split (show head p = some (j + n + 1) from hp)) (by simp)
    rw [carve_update _ _ _ _ _ _ (fun l _ _ => hne l), update_idem,
      carve_update _ _ _ _ _ _ (fun l _ h => ?_), ← carve_succ] at halved
    · exact halved
    · intro heq
      have hpow := Nat.pow_lt_pow_right (a := 2) (by decide) h
      omega

theorem single_tiles (m : Nat) : Tiles m (update (fun _ => none) 0 (some m)) := by
  have only : ∀ p k, update (fun _ => (none : Option Nat)) 0 (some m) p = some k →
      p = 0 ∧ k = m := by
    intro p k h
    by_cases hp : p = 0
    · subst hp; simp at h; exact ⟨rfl, h.symm⟩
    · simp [hp] at h
  constructor
  · intro p k h
    obtain ⟨rfl, rfl⟩ := only p k h
    exact Nat.dvd_zero _
  · intro p k h
    obtain ⟨rfl, rfl⟩ := only p k h
    omega
  · intro i hi
    exact ⟨0, m, by simp, Nat.zero_le _, by omega⟩
  · intro p k q l i hp hq _ _
    exact (only p k hp).1.trans (only q l hq).1.symm

/-! ## Coalesced tilings -/

/-- No two buddies below the largest order are both free. -/
def Coalesced (m : Nat) (head : Nat → Option Nat) (live : Nat → Prop) : Prop :=
  ∀ p k, k < m → head p = some k → head (buddy p k) = some k → live p ∨ live (buddy p k)

theorem buddy_of_aligned {p k : Nat} (aligned : 2 ^ (k + 1) ∣ p) : buddy p k = p + 2 ^ k := by
  have hpos := Nat.two_pow_pos k
  rcases buddy_cases ((Nat.pow_dvd_pow 2 (Nat.le_succ k)).trans aligned) with ⟨_, h⟩ | ⟨h1, h2⟩
  · exact h
  · have hdvd : 2 ^ (k + 1) ∣ 2 ^ k := (Nat.dvd_add_right h1).mp (h2 ▸ aligned)
    have hle := Nat.le_of_dvd hpos hdvd
    have hpow : 2 ^ (k + 1) = 2 ^ k + 2 ^ k := by ring
    omega

/-- Of two aligned blocks that meet, the larger one contains the other. -/
theorem covers_of_meet {p k q l i : Nat} (hp : 2 ^ k ∣ p) (hq : 2 ^ l ∣ q) (hkl : k ≤ l)
    (hpi : Covers p k i) (hqi : Covers q l i) : q ≤ p ∧ p + 2 ^ k ≤ q + 2 ^ l := by
  obtain ⟨c, hc⟩ := Nat.pow_dvd_pow 2 hkl
  obtain ⟨a, rfl⟩ := hp
  obtain ⟨b, rfl⟩ := (Nat.pow_dvd_pow 2 hkl).trans hq
  unfold Covers at hpi hqi
  have low : b ≤ a := by
    by_contra h
    have := Nat.mul_le_mul_left (2 ^ k) (show a + 1 ≤ b by omega)
    rw [Nat.mul_add] at this
    omega
  have high : a + 1 ≤ b + c := by
    by_contra h
    have := Nat.mul_le_mul_left (2 ^ k) (show b + c ≤ a by omega)
    rw [Nat.mul_add] at this
    omega
  have h1 := Nat.mul_le_mul_left (2 ^ k) low
  have h2 := Nat.mul_le_mul_left (2 ^ k) high
  rw [Nat.mul_add, Nat.mul_add] at h2
  omega

section Free

variable {m : Nat} {head head' : Nat → Option Nat} {live : Nat → Prop} {p k : Nat}

/-- An aligned block that meets no live one lies in a single free block: by induction on its
order, its halves do, and two free buddies would have been joined. -/
theorem Tiles.exists_free (tiles : Tiles m head) (coalesced : Coalesced m head live)
    (aligned : 2 ^ k ∣ p) (inside : p + 2 ^ k ≤ 2 ^ m)
    (apart : ∀ i q l, Covers p k i → head q = some l → Covers q l i → ¬ live q) :
    ∃ q l, head q = some l ∧ ¬ live q ∧ q ≤ p ∧ p + 2 ^ k ≤ q + 2 ^ l := by
  induction k generalizing p with
  | zero =>
    obtain ⟨q, l, hq, hc⟩ := tiles.covered p (by omega)
    refine ⟨q, l, hq, apart p q l (covers_start p 0) hq hc, hc.1, ?_⟩
    have := hc.2
    omega
  | succ k ih =>
    have hpow : 2 ^ (k + 1) = 2 ^ k + 2 ^ k := by ring
    have hpos := Nat.two_pow_pos k
    have hdvd : 2 ^ k ∣ p := (Nat.pow_dvd_pow 2 (Nat.le_succ k)).trans aligned
    have hlt : k < m := by
      have := (Nat.pow_le_pow_iff_right (by decide)).mp (show 2 ^ (k + 1) ≤ 2 ^ m by omega)
      omega
    -- a block that contains one half and is larger contains the other half as well
    have whole : ∀ q l r, head q = some l → r = p ∨ r = p + 2 ^ k → q ≤ r →
        r + 2 ^ k ≤ q + 2 ^ l → k < l → q ≤ p ∧ p + 2 ^ (k + 1) ≤ q + 2 ^ l := by
      intro q l r hq hr h1 h2 hkl
      refine covers_of_meet (i := r) aligned (tiles.aligned q l hq) hkl ?_ ⟨h1, by omega⟩
      unfold Covers
      omega
    have exact_ : ∀ q l r, head q = some l → q ≤ r → r + 2 ^ k ≤ q + 2 ^ l → ¬ k < l →
        q = r ∧ l = k := by
      intro q l r hq h1 h2 hkl
      have hle := (Nat.pow_le_pow_iff_right (a := 2) (by decide)).mp (show 2 ^ k ≤ 2 ^ l by omega)
      obtain rfl : l = k := by omega
      exact ⟨by omega, rfl⟩
    obtain ⟨q, l, hq, freeQ, h1, h2⟩ := ih hdvd (by omega) fun i r n hi hr hc =>
      apart i r n ((covers_succ_iff _ _ _).mpr (Or.inl hi)) hr hc
    obtain ⟨r, n, hr, freeR, h3, h4⟩ := ih (Nat.dvd_add hdvd (Nat.dvd_refl _)) (by omega)
      fun i r n hi hr hc => apart i r n ((covers_succ_iff _ _ _).mpr (Or.inr hi)) hr hc
    by_cases hl : k < l
    · exact ⟨q, l, hq, freeQ, whole q l p hq (Or.inl rfl) h1 h2 hl⟩
    · by_cases hn : k < n
      · exact ⟨r, n, hr, freeR, whole r n (p + 2 ^ k) hr (Or.inr rfl) h3 h4 hn⟩
      · obtain ⟨rfl, rfl⟩ := exact_ q l p hq h1 h2 hl
        obtain ⟨rfl, rfl⟩ := exact_ r n (q + 2 ^ l) hr h3 h4 hn
        have both := coalesced q n hlt hq (by rw [buddy_of_aligned aligned]; exact hr)
        rw [buddy_of_aligned aligned] at both
        exact False.elim (both.elim freeQ freeR)

theorem Tiles.free_apart (tiles : Tiles m head) (same : ∀ q, live q → head q = head' q)
    (hp : head p = some k) (free : ¬ live p) (i q l : Nat) (hi : Covers p k i)
    (hq : head' q = some l) (hc : Covers q l i) : ¬ live q := by
  intro alive
  have hq' : head q = some l := (same q alive).trans hq
  exact free (tiles.unique p k q l i hp hq' hi hc ▸ alive)

/-- The free blocks of a coalesced tiling are determined by its live blocks. -/
theorem Tiles.free_of_free (tiles : Tiles m head) (tiles' : Tiles m head')
    (coalesced : Coalesced m head live) (coalesced' : Coalesced m head' live)
    (same : ∀ q, live q → head q = head' q) (hp : head p = some k) (free : ¬ live p) :
    head' p = some k := by
  have hpos := Nat.two_pow_pos k
  obtain ⟨q, l, hq, freeQ, h1, h2⟩ := tiles'.exists_free coalesced' (tiles.aligned p k hp)
    (tiles.inside p k hp) (tiles.free_apart same hp free)
  obtain ⟨r, n, hr, -, h3, h4⟩ := tiles.exists_free coalesced (tiles'.aligned q l hq)
    (tiles'.inside q l hq) (tiles'.free_apart (fun q alive => (same q alive).symm) hq freeQ)
  -- the block around the block around `p` is the one at `p`
  obtain rfl : r = p := tiles.unique r n p k p hr hp ⟨by omega, by omega⟩ (covers_start p k)
  obtain rfl : n = k := Option.some.inj (hr.symm.trans hp)
  obtain rfl : q = r := by omega
  have hl : 2 ^ l = 2 ^ n := by omega
  rw [hq, Nat.pow_right_injective (Nat.le_refl 2) hl]

end Free

end DyadicTiling
