import Mathlib.Data.List.Nodup
import Tzdriver.DyadicTiling
import Tzdriver.MailboxPool

/-!
# The mailbox pool is always partitioned

The descriptors with a non-negative order tile the pool. `PoolInv z used` says so
and ties each free list to the descriptors: a page is linked on `free_areas[k]`
exactly when it heads a block of order `k` that is not in use. Every interior page
carries order `-1`, so a stale order is never taken for a free buddy.

The parameter `strict` asks for a cleared count on every unused page. Without it
the head of a free block of the largest order may keep its count.
-/

namespace MailboxPool

open Function DyadicTiling

theorem gMaxOder_eq : gMaxOder = 10 := by decide

theorem mailboxPageMax_eq : mailboxPageMax = 2 ^ gMaxOder := by decide

/-- `get_order` is the least order whose block holds `size` bytes. -/
theorem getOrder_le_iff {size k : Nat} (pos : 0 < size) :
    getOrder size ≤ k ↔ size ≤ sz4K * 2 ^ k := by
  have hpow := Nat.two_pow_pos k
  have hsz : sz4K * 2 ^ k = 2 ^ (k + 12) := by rw [Nat.pow_add, sz4K, Nat.mul_comm]
  unfold getOrder pageShift
  rw [if_neg (by omega)]
  by_cases small : size ≤ 2 ^ 12
  · rw [if_pos small]
    unfold sz4K
    omega
  · rw [if_neg small, hsz]
    have hlog : Nat.log2 (size - 1) < k + 12 ↔ size - 1 < 2 ^ (k + 12) :=
      Nat.log2_lt (by omega)
    have hlow : ¬ Nat.log2 (size - 1) < 12 := by
      rw [Nat.log2_lt (by omega)]
      omega
    omega

theorem getOrder_zero : getOrder 0 = 52 := by decide

/-- An order within the pool excludes a size whose alignment wraps round to zero. -/
theorem align4K_pos {size : Nat} (small : getOrder (align4K size) ≤ gMaxOder) :
    0 < align4K size := by
  by_contra h
  have hz : align4K size = 0 := by omega
  rw [hz, getOrder_zero, gMaxOder_eq] at small
  omega

theorem align4K_le_pool {size : Nat} (small : getOrder (align4K size) ≤ gMaxOder) :
    align4K size ≤ mailboxPoolSize := by
  have h := (getOrder_le_iff (align4K_pos small)).mp small
  rwa [show sz4K * 2 ^ gMaxOder = mailboxPoolSize by decide] at h

theorem size_le_block {size : Nat} (small : getOrder (align4K size) ≤ gMaxOder)
    (word : size < 2 ^ 64) : size ≤ sz4K * 2 ^ getOrder (align4K size) := by
  have nonzero := align4K_pos small
  have hcover := (getOrder_le_iff nonzero).mp (Nat.le_refl _)
  have hsize : size ≤ align4K size := by
    unfold align4K sz4K at nonzero ⊢
    omega
  omega

def headOrder (pg : MbPage) : Option Nat :=
  if pg.order < 0 then none else some pg.order.toNat

theorem headOrder_eq_some {pg : MbPage} {k : Nat} :
    headOrder pg = some k ↔ pg.order = k := by
  unfold headOrder
  split
  · simp; omega
  · simp; omega

@[simp] theorem headOrder_mk_nat (k c : Nat) : headOrder ⟨k, c⟩ = some k :=
  headOrder_eq_some.mpr rfl

@[simp] theorem headOrder_mk_neg (c : Nat) : headOrder ⟨-1, c⟩ = none := rfl

theorem headOrder_congr {a b : MbPage} (h : a.order = b.order) : headOrder a = headOrder b := by
  simp only [headOrder, h]

structure PoolInv (strict : Prop) (z : MbZone) (used : Nat → Prop) : Prop where
  tiles : Tiles gMaxOder (fun p => headOrder (z.pages p))
  listed : ∀ k p, p ∈ z.freeAreas k ↔ (z.pages p).order = k ∧ ¬ used p
  nodup : ∀ k, (z.freeAreas k).Nodup
  headed : ∀ p, used p → 0 ≤ (z.pages p).order
  clear : ∀ p, ¬ used p → (strict ∨ (z.pages p).order < gMaxOder) → (z.pages p).count = 0

theorem initZone_inv (strict : Prop) (allPages : Nat) :
    PoolInv strict (initZone allPages) (fun _ => False) := by
  constructor
  · convert single_tiles gMaxOder using 1
    funext p
    by_cases hp : p = 0
    · subst hp; simp [initZone]
    · simp [initZone, hp]
  · intro k p
    by_cases hk : k = gMaxOder
    · subst hk
      by_cases hp : p = 0
      · subst hp; simp [initZone]
      · simp [initZone, hp]
    · by_cases hp : p = 0
      · subst hp; simp [initZone, hk]; omega
      · simp [initZone, hk, hp]
  · intro k
    by_cases hk : k = gMaxOder
    · subst hk; simp [initZone]
    · simp [initZone, hk]
  · simp
  · intro p _ _
    by_cases hp : p = 0
    · subst hp; simp [initZone]
    · simp [initZone, hp]

section Zone

variable (z : MbZone) (p q k c : Nat) (order : Int) (pg : MbPage)

@[simp] theorem setPage_pages : (z.setPage p pg).pages = update z.pages p pg := rfl

@[simp] theorem setPage_freeAreas : (z.setPage p pg).freeAreas = z.freeAreas := rfl

@[simp] theorem setPage_allPages : (z.setPage p pg).allPages = z.allPages := rfl

@[simp] theorem listAddTail_pages : (z.listAddTail p k).pages = z.pages := rfl

@[simp] theorem listAddTail_freeAreas :
    (z.listAddTail p k).freeAreas = update z.freeAreas k (z.freeAreas k ++ [p]) := rfl

@[simp] theorem listAddTail_allPages : (z.listAddTail p k).allPages = z.allPages := rfl

@[simp] theorem listDel_pages : (z.listDel p).pages = z.pages := rfl

@[simp] theorem listDel_freeAreas :
    (z.listDel p).freeAreas = fun k => (z.freeAreas k).erase p := rfl

@[simp] theorem listDel_allPages : (z.listDel p).allPages = z.allPages := rfl

end Zone

/-- The blocks at `lo` and `lo + 2 ^ i` joined, with `other` taken off its list. -/
def joinZone (z : MbZone) (lo i other : Nat) : MbZone where
  allPages := z.allPages
  pages := update (update z.pages (lo + 2 ^ i) ⟨-1, 0⟩) lo ⟨(i + 1 : Nat), 0⟩
  freeAreas := fun k => (z.freeAreas k).erase other

@[simp] theorem joinZone_pages_lo (z : MbZone) (lo i other : Nat) :
    (joinZone z lo i other).pages lo = ⟨(i + 1 : Nat), 0⟩ := by
  simp [joinZone]

@[simp] theorem joinZone_pages_hi (z : MbZone) (lo i other : Nat) :
    (joinZone z lo i other).pages (lo + 2 ^ i) = ⟨-1, 0⟩ := by
  simp [joinZone]

theorem joinZone_pages_of_ne (z : MbZone) {lo i other p : Nat} (h1 : p ≠ lo)
    (h2 : p ≠ lo + 2 ^ i) : (joinZone z lo i other).pages p = z.pages p := by
  simp [joinZone, h1, h2]

namespace PoolInv

variable {strict : Prop} {z : MbZone} {used : Nat → Prop} {self : Nat}

/-- A page inside a block heads nothing. -/
theorem interior (inv : PoolInv strict z used) {p k m : Nat} (hp : (z.pages p).order = k)
    (hm : m < k) : (z.pages (p + 2 ^ m)).order < 0 := by
  have h1 := Nat.two_pow_pos m
  have h2 := Nat.pow_lt_pow_right (a := 2) (by decide) hm
  have hnone := inv.tiles.not_head_inside (q := p + 2 ^ m) (headOrder_eq_some.mpr hp)
    (by omega) ⟨by omega, by omega⟩
  unfold headOrder at hnone
  split at hnone
  · assumption
  · cases hnone

/-- Rewriting counts of used pages keeps the invariant. -/
theorem setCount (inv : PoolInv strict z used) {p : Nat} (hp : used p) (c : Nat) :
    PoolInv strict (z.setCount p c) used := by
  have order : ∀ q, ((z.setCount p c).pages q).order = (z.pages q).order := by
    intro q
    by_cases hq : q = p
    · subst hq; simp [MbZone.setCount]
    · simp [MbZone.setCount, hq]
  constructor
  · simpa only [fun q => headOrder_congr (order q)] using inv.tiles
  · intro k q; rw [order]; exact inv.listed k q
  · exact inv.nodup
  · intro q hq; rw [order]; exact inv.headed q hq
  · intro q hq
    have hne : q ≠ p := by rintro rfl; exact hq hp
    rw [order]
    simpa [MbZone.setCount, hne] using inv.clear q hq

/-- Linking the one block that is neither used nor free gives it back. -/
theorem release (inv : PoolInv strict z (fun p => used p ∨ p = self)) {k : Nat}
    (order : (z.pages self).order = k) (unused : ¬ used self)
    (cleared : (strict ∨ k < gMaxOder) → (z.pages self).count = 0) :
    PoolInv strict (z.listAddTail self k) used := by
  have fresh : ∀ l, self ∉ z.freeAreas l := by
    intro l h
    exact ((inv.listed l self).mp h).2 (Or.inr rfl)
  have mem : ∀ l p, p ∈ (z.listAddTail self k).freeAreas l ↔
      p ∈ z.freeAreas l ∨ (l = k ∧ p = self) := by
    intro l p
    by_cases hl : l = k
    · subst hl; simp
    · simp [hl]
  constructor
  · exact inv.tiles
  · intro l p
    rw [mem, inv.listed]
    by_cases hp : p = self
    · subst hp
      simp only [or_true, not_true_eq_false, and_false, and_true, false_or]
      simp only [listAddTail_pages, order, Nat.cast_inj]
      exact ⟨fun h => ⟨h.symm, unused⟩, fun h => h.1.symm⟩
    · simp [hp]
  · intro l
    by_cases hl : l = k
    · subst hl
      simpa using List.Nodup.concat (fresh l) (inv.nodup l)
    · simpa [hl] using inv.nodup l
  · intro p hp; exact inv.headed p (Or.inl hp)
  · intro p hp hs
    by_cases hself : p = self
    · subst hself
      apply cleared
      rcases hs with hs | hs
      · exact Or.inl hs
      · right
        simp only [listAddTail_pages, order] at hs
        omega
    · exact inv.clear p (by simp [hp, hself]) hs

/-- Two buddies become one block of the next order at the lower page. -/
theorem join (inv : PoolInv strict z (fun p => used p ∨ p = self)) {lo i other : Nat}
    (pair : (self = lo ∧ other = lo + 2 ^ i) ∨ (self = lo + 2 ^ i ∧ other = lo))
    (aligned : 2 ^ (i + 1) ∣ lo)
    (orderSelf : (z.pages self).order = i) (orderOther : (z.pages other).order = i)
    (unusedSelf : ¬ used self) (unusedOther : ¬ used other) :
    PoolInv strict (joinZone z lo i other) (fun p => used p ∨ p = lo) := by
  have hpos := Nat.two_pow_pos i
  have orders : (z.pages lo).order = i ∧ (z.pages (lo + 2 ^ i)).order = i := by
    rcases pair with ⟨rfl, rfl⟩ | ⟨rfl, rfl⟩
    · exact ⟨orderSelf, orderOther⟩
    · exact ⟨orderOther, orderSelf⟩
  have unused : ¬ used lo ∧ ¬ used (lo + 2 ^ i) := by
    rcases pair with ⟨rfl, rfl⟩ | ⟨rfl, rfl⟩
    · exact ⟨unusedSelf, unusedOther⟩
    · exact ⟨unusedOther, unusedSelf⟩
  constructor
  · have joined := inv.tiles.merge (headOrder_eq_some.mpr orders.1)
      (headOrder_eq_some.mpr orders.2) aligned
    convert joined using 1
    funext p
    by_cases h1 : p = lo
    · subst h1; rw [joinZone_pages_lo, headOrder_mk_nat, update_self]
    · by_cases h2 : p = lo + 2 ^ i
      · subst h2; simp
      · rw [joinZone_pages_of_ne z h1 h2, update_of_ne h1, update_of_ne h2]
  · intro k p
    change p ∈ (z.freeAreas k).erase other ↔ _
    rw [List.Nodup.mem_erase_iff (inv.nodup k), inv.listed]
    by_cases h1 : p = lo
    · subst h1
      simp only [or_true, not_true_eq_false, and_false, iff_false, not_and]
      rintro hne - h
      rcases pair with ⟨hs, _⟩ | ⟨_, ho⟩
      · exact h (Or.inr hs.symm)
      · exact hne ho.symm
    · by_cases h2 : p = lo + 2 ^ i
      · subst h2
        rw [joinZone_pages_hi]
        constructor
        · rintro ⟨hne, -, h⟩
          rcases pair with ⟨_, ho⟩ | ⟨hs, _⟩
          · exact False.elim (hne ho.symm)
          · exact False.elim (h (Or.inr hs.symm))
        · rintro ⟨h, _⟩
          change (-1 : Int) = k at h
          omega
      · have hother : p ≠ other := by rcases pair with ⟨_, rfl⟩ | ⟨_, rfl⟩ <;> assumption
        have hself : p ≠ self := by rcases pair with ⟨rfl, _⟩ | ⟨rfl, _⟩ <;> assumption
        rw [joinZone_pages_of_ne z h1 h2]
        simp [h1, hother, hself]
  · intro k; exact (inv.nodup k).erase other
  · rintro p (hp | rfl)
    · rw [joinZone_pages_of_ne z (by rintro rfl; exact unused.1 hp)
        (by rintro rfl; exact unused.2 hp)]
      exact inv.headed p (Or.inl hp)
    · rw [joinZone_pages_lo]; exact Int.natCast_nonneg _
  · intro p hp hs
    have h1 : p ≠ lo := by rintro rfl; exact hp (Or.inr rfl)
    by_cases h2 : p = lo + 2 ^ i
    · subst h2; simp
    · have hself : p ≠ self := by rcases pair with ⟨rfl, _⟩ | ⟨rfl, _⟩ <;> assumption
      rw [joinZone_pages_of_ne z h1 h2] at hs ⊢
      exact inv.clear p (by rintro (h | h); exacts [hp (Or.inl h), hself h]) hs

end PoolInv

/-- One round of the merge loop that finds a free buddy joins the two blocks. -/
theorem freeLoop_join (z : MbZone) {self i : Nat} (n : Nat) (aligned : 2 ^ i ∣ self)
    (free : ((z.setCount self 0).pages (self ^^^ 2 ^ i)).order = i ∧
      ((z.setCount self 0).pages (self ^^^ 2 ^ i)).count = 0) :
    ∃ lo, ((self = lo ∧ self ^^^ 2 ^ i = lo + 2 ^ i) ∨
        (self = lo + 2 ^ i ∧ self ^^^ 2 ^ i = lo)) ∧ 2 ^ (i + 1) ∣ lo ∧
      freeLoop z self i (n + 1) =
        freeLoop (joinZone (z.setCount self 0) lo i (self ^^^ 2 ^ i)) lo (i + 1) n := by
  have hpos := Nat.two_pow_pos i
  have count : ((z.setCount self 0).pages self).count = 0 := by simp [MbZone.setCount]
  rw [freeLoop]
  simp only
  rw [if_pos free]
  generalize z.setCount self 0 = z1 at *
  rcases buddy_cases aligned with ⟨haligned, hb⟩ | ⟨haligned, hb⟩
  · have hb' : self ^^^ 2 ^ i = self + 2 ^ i := hb
    rw [hb'] at free ⊢
    refine ⟨self, Or.inl ⟨rfl, rfl⟩, haligned, ?_⟩
    rw [if_neg (by omega)]
    congr 1
    simp only [MbZone.setOrder, MbZone.setPage, MbZone.listDel, joinZone, MbZone.mk.injEq,
      true_and, and_true]
    rw [update_comm (by omega), update_of_ne (by omega), free.2, count]
    rfl
  · have hb' : self = (self ^^^ 2 ^ i) + 2 ^ i := hb
    refine ⟨self ^^^ 2 ^ i, Or.inr ⟨hb', rfl⟩, haligned, ?_⟩
    rw [if_pos (by omega)]
    congr 1
    simp only [MbZone.setOrder, MbZone.setPage, MbZone.listDel, joinZone, MbZone.mk.injEq,
      true_and, and_true]
    rw [← hb', update_of_ne (show self ≠ self ^^^ 2 ^ i by omega), free.2, count,
      update_comm (show self ≠ self ^^^ 2 ^ i by omega)]
    rfl

@[simp] theorem freeLoop_allPages (n : Nat) (z : MbZone) (self i : Nat) :
    (freeLoop z self i n).allPages = z.allPages := by
  induction n generalizing z self i with
  | zero =>
    simp only [freeLoop, addMaxOrderBlock]
    split <;> rfl
  | succ n ih =>
    simp only [freeLoop]
    split
    · split <;> rw [ih] <;> rfl
    · rfl

@[simp] theorem mailboxFree_allPages (z : MbZone) (ptr : Nat) :
    (mailboxFree z ptr).allPages = z.allPages := by
  unfold mailboxFree
  split
  · rfl
  · split
    · rfl
    · simp only
      split
      · rfl
      · exact freeLoop_allPages _ _ _ _

/-- The block of order `i` at `page` has just left the used set and is on no list yet. -/
structure Freeing (strict : Prop) (used : Nat → Prop) (z : MbZone) (page i : Nat) : Prop where
  inv : PoolInv strict z (fun p => used p ∨ p = page)
  order : (z.pages page).order = i
  unused : ¬ used page
  counted : ∀ p, used p → (z.pages p).count ≠ 0

/-- One round of the merge loop: the buddy is free and the joined block goes on, or the block
is linked and its buddy is no free block. -/
theorem Freeing.round {strict : Prop} {used : Nat → Prop} {z : MbZone} {self i : Nat}
    (freeing : Freeing strict used z self i) (below : i < gMaxOder) (n : Nat) :
    (∃ lo z', freeLoop z self i (n + 1) = freeLoop z' lo (i + 1) n ∧
      Freeing strict used z' lo (i + 1) ∧ (z'.pages lo).count = 0 ∧
      (∀ p, used p → z'.pages p = z.pages p) ∧
      ∀ k, z'.freeAreas k = (z.freeAreas k).erase (self ^^^ 2 ^ i)) ∨
    (freeLoop z self i (n + 1) = (z.setCount self 0).listAddTail self i ∧
      ((z.pages (self ^^^ 2 ^ i)).order = i → used (self ^^^ 2 ^ i))) := by
  obtain ⟨inv, order, unused, counted⟩ := freeing
  have inv' := inv.setCount (Or.inr rfl) 0
  have order' : ((z.setCount self 0).pages self).order = i := by
    simpa [MbZone.setCount] using order
  have kept : ∀ p, used p → (z.setCount self 0).pages p = z.pages p := by
    intro p hp
    have hne : p ≠ self := by rintro rfl; exact unused hp
    simp [MbZone.setCount, hne]
  have aligned := inv.tiles.aligned self i (headOrder_eq_some.mpr order)
  by_cases free : ((z.setCount self 0).pages (self ^^^ 2 ^ i)).order = i ∧
      ((z.setCount self 0).pages (self ^^^ 2 ^ i)).count = 0
  · have unusedBuddy : ¬ used (self ^^^ 2 ^ i) := by
      intro h
      exact counted _ h (by rw [← kept _ h]; exact free.2)
    obtain ⟨lo, pair, aligned, heq⟩ := freeLoop_join z n aligned free
    have unusedLo : ¬ used lo ∧ ¬ used (lo + 2 ^ i) := by
      rcases pair with ⟨h1, h2⟩ | ⟨h1, h2⟩
      · exact ⟨h1 ▸ unused, h2 ▸ unusedBuddy⟩
      · exact ⟨h2 ▸ unusedBuddy, h1 ▸ unused⟩
    have pages : ∀ p, used p →
        (joinZone (z.setCount self 0) lo i (self ^^^ 2 ^ i)).pages p = z.pages p := by
      intro p hp
      rw [joinZone_pages_of_ne _ (by rintro rfl; exact unusedLo.1 hp)
        (by rintro rfl; exact unusedLo.2 hp), kept p hp]
    refine Or.inl ⟨lo, _, heq, ⟨?_, ?_, unusedLo.1, fun p hp => ?_⟩, ?_, pages, fun k => rfl⟩
    · exact inv'.join pair aligned order' free.1 unused unusedBuddy
    · simp
    · rw [pages p hp]
      exact counted p hp
    · simp
  · refine Or.inr ⟨?_, fun same => ?_⟩
    · rw [freeLoop]
      simp only
      rw [if_neg free]
    · -- an unused buddy of this order has a cleared count and would have been taken
      by_contra unusedBuddy
      have apart : self ^^^ 2 ^ i ≠ self := buddy_ne self i
      have cleared := inv.clear (self ^^^ 2 ^ i) (by simp [unusedBuddy, apart])
        (Or.inr (by rw [same]; omega))
      exact free ⟨by simpa [MbZone.setCount, apart] using same,
        by simpa [MbZone.setCount, apart] using cleared⟩

/-- What the merge loop does to a block that has just left the used set: afterwards
the pool is whole again and no used page was touched. -/
theorem freeLoop_spec {strict : Prop} {used : Nat → Prop} (n : Nat) {z : MbZone} {self i : Nat}
    (rounds : i + n = gMaxOder) (freeing : Freeing strict used z self i)
    (cleared : strict → n = 0 → (z.pages self).count = 0) :
    PoolInv strict (freeLoop z self i n) used ∧
      ∀ p, used p → (freeLoop z self i n).pages p = z.pages p := by
  induction n generalizing z self i with
  | zero =>
    obtain ⟨inv, order, unused, counted⟩ := freeing
    obtain rfl : i = gMaxOder := rounds
    obtain rfl : self = 0 := inv.tiles.top_is_zero (headOrder_eq_some.mpr order)
    simp only [freeLoop, addMaxOrderBlock, ne_eq, not_true_eq_false, if_false]
    refine ⟨inv.release order unused ?_, fun p _ => rfl⟩
    rintro (hs | hs)
    · exact cleared hs rfl
    · omega
  | succ n ih =>
    rcases freeing.round (by omega) n with
      ⟨lo, z', heq, joined, count, pages, -⟩ | ⟨heq, -⟩
    · obtain ⟨h1, h2⟩ := ih (by omega) joined (fun _ _ => count)
      rw [heq]
      exact ⟨h1, fun p hp => (h2 p hp).trans (pages p hp)⟩
    · rw [heq]
      refine ⟨(freeing.inv.setCount (Or.inr rfl) 0).release ?_ freeing.unused ?_, fun p hp => ?_⟩
      · simpa [MbZone.setCount] using freeing.order
      · simp [MbZone.setCount]
      · have hne : p ≠ self := by rintro rfl; exact freeing.unused hp
        simp [MbZone.setCount, hne]

section Split

variable (z : MbZone) (pos j : Nat)

theorem splitFree_head (n : Nat) :
    (fun p => headOrder ((splitFree z pos j n).pages p)) =
      carve (fun p => headOrder (z.pages p)) pos j n := by
  induction n generalizing z j with
  | zero => rfl
  | succ n ih =>
    rw [splitFree, carve, ih]
    congr 1
    funext p
    by_cases hp : p = pos + 2 ^ j
    · subst hp; simp
    · simp [hp]

theorem splitFree_freeAreas (n k : Nat) :
    (splitFree z pos j n).freeAreas k =
      if j ≤ k ∧ k < j + n then z.freeAreas k ++ [pos + 2 ^ k] else z.freeAreas k := by
  induction n generalizing z j with
  | zero => rw [splitFree, if_neg (by omega)]
  | succ n ih =>
    rw [splitFree, ih]
    by_cases hk : k = j
    · subst hk
      rw [if_neg (by omega), if_pos (by omega)]
      simp
    · by_cases hin : j + 1 ≤ k ∧ k < j + 1 + n
      · rw [if_pos hin, if_pos (by omega)]
        simp [hk]
      · rw [if_neg hin, if_neg (by omega)]
        simp [hk]

@[simp] theorem splitFree_allPages (n : Nat) :
    (splitFree z pos j n).allPages = z.allPages := by
  induction n generalizing z j with
  | zero => rfl
  | succ n ih => rw [splitFree, ih]; rfl

/-- A page the loop does not split off keeps its descriptor. -/
theorem splitFree_pages_of_ne (n : Nat) {p : Nat}
    (old : ∀ m, j ≤ m → m < j + n → p ≠ pos + 2 ^ m) :
    (splitFree z pos j n).pages p = z.pages p := by
  induction n generalizing z j with
  | zero => rfl
  | succ n ih =>
    rw [splitFree, ih _ _ (fun m h1 h2 => old m (by omega) (by omega))]
    simp [old j (Nat.le_refl _) (by omega)]

theorem splitFree_pages_new (n : Nat) {m : Nat} (h1 : j ≤ m) (h2 : m < j + n) :
    (splitFree z pos j n).pages (pos + 2 ^ m) = ⟨m, 0⟩ := by
  induction n generalizing z j with
  | zero => omega
  | succ n ih =>
    rw [splitFree]
    by_cases hm : m = j
    · subst hm
      rw [splitFree_pages_of_ne]
      · simp
      · intro l hl _ heq
        have := Nat.pow_lt_pow_right (a := 2) (by decide) (show m < l by omega)
        omega
    · exact ih _ _ (by omega) (by omega)

end Split

/-- Taking the first block of `free_areas[i]` and splitting it down to `order`. -/
theorem PoolInv.take {strict : Prop} {z : MbZone} {used : Nat → Prop}
    (inv : PoolInv strict z used) {pos i order : Nat} (hmem : pos ∈ z.freeAreas i)
    (hle : order ≤ i) :
    PoolInv strict
      ((splitFree (z.setPage pos ⟨order, 1⟩) pos order (i - order)).listDel pos)
      (fun p => used p ∨ p = pos) := by
  obtain ⟨hpos, hunused⟩ := (inv.listed i pos).mp hmem
  obtain ⟨n, rfl⟩ : ∃ n, i = order + n := ⟨i - order, by omega⟩
  have hhead : headOrder (z.pages pos) = some (order + n) := headOrder_eq_some.mpr hpos
  rw [show order + n - order = n by omega]
  -- the pages split off are interior to the old block
  have interiorOrder : ∀ m, m < order + n → (z.pages (pos + 2 ^ m)).order < 0 :=
    fun m hm => inv.interior hpos hm
  have unlisted : ∀ m k, m < order + n → pos + 2 ^ m ∉ z.freeAreas k := by
    intro m k hm h
    have := interiorOrder m hm
    have := ((inv.listed k _).mp h).1
    omega
  have ne_pos : ∀ m, pos + 2 ^ m ≠ pos := fun m => by have := Nat.two_pow_pos m; omega
  have pageNew := fun m h1 h2 =>
    splitFree_pages_new (z.setPage pos ⟨order, 1⟩) pos order n (m := m) h1 h2
  have pageOld : ∀ p, p ≠ pos → (∀ m, order ≤ m → m < order + n → p ≠ pos + 2 ^ m) →
      (splitFree (z.setPage pos ⟨order, 1⟩) pos order n).pages p = z.pages p := by
    intro p h1 h2
    rw [splitFree_pages_of_ne _ _ _ _ h2]
    simp [h1]
  have areas : ∀ k, (splitFree (z.setPage pos ⟨order, 1⟩) pos order n).freeAreas k =
      if order ≤ k ∧ k < order + n then z.freeAreas k ++ [pos + 2 ^ k] else z.freeAreas k :=
    fun k => splitFree_freeAreas _ _ _ _ _
  have areasNodup : ∀ k,
      ((splitFree (z.setPage pos ⟨order, 1⟩) pos order n).freeAreas k).Nodup := by
    intro k
    rw [areas]
    split
    · rename_i hk
      simpa using List.Nodup.concat (unlisted k k hk.2) (inv.nodup k)
    · exact inv.nodup k
  constructor
  · have carved := inv.tiles.carve hhead
    simp only [listDel_pages]
    rw [splitFree_head]
    convert carved using 1
    rw [← carve_update _ _ _ _ _ _ (fun m _ _ => (ne_pos m).symm)]
    congr 1
    funext p
    by_cases hp : p = pos
    · subst hp; simp
    · simp [hp]
  · intro k p
    rw [listDel_freeAreas, List.Nodup.mem_erase_iff (areasNodup k), areas]
    by_cases hp : p = pos
    · subst hp; simp
    · by_cases hnew : ∃ m, order ≤ m ∧ m < order + n ∧ p = pos + 2 ^ m
      · obtain ⟨m, h1, h2, rfl⟩ := hnew
        have hu : ¬ used (pos + 2 ^ m) := by
          intro h
          have := inv.headed _ h
          have := interiorOrder m h2
          omega
        rw [listDel_pages, pageNew m h1 h2]
        have hnl := unlisted m k h2
        simp only [ne_eq, hp, not_false_eq_true, true_and, hu, or_false, and_true, Nat.cast_inj]
        split
        · simp [hnl]
        · rename_i hk
          simp only [hnl, false_iff]
          rintro rfl
          exact hk ⟨h1, h2⟩
      · have hold : ∀ m, order ≤ m → m < order + n → p ≠ pos + 2 ^ m :=
          fun m h1 h2 h => hnew ⟨m, h1, h2, h⟩
        rw [listDel_pages, pageOld p hp hold]
        have hmem' : p ∈ (if order ≤ k ∧ k < order + n then z.freeAreas k ++ [pos + 2 ^ k]
            else z.freeAreas k) ↔ p ∈ z.freeAreas k := by
          split
          · rename_i hk
            simp [hold k hk.1 hk.2]
          · rfl
        rw [hmem', inv.listed]
        simp [hp]
  · intro k
    exact (areasNodup k).erase pos
  · rintro p (hp | rfl)
    · have h1 : p ≠ pos := by rintro rfl; exact hunused hp
      have h2 : ∀ m, order ≤ m → m < order + n → p ≠ pos + 2 ^ m := by
        rintro m _ hm rfl
        have := inv.headed _ hp
        have := interiorOrder m hm
        omega
      rw [listDel_pages, pageOld p h1 h2]
      exact inv.headed p hp
    · rw [listDel_pages, splitFree_pages_of_ne _ _ _ _ (fun m _ _ => (ne_pos m).symm)]
      simp
  · intro p hp hs
    have h1 : p ≠ pos := fun h => hp (Or.inr h)
    by_cases hnew : ∃ m, order ≤ m ∧ m < order + n ∧ p = pos + 2 ^ m
    · obtain ⟨m, h2, h3, rfl⟩ := hnew
      rw [listDel_pages, pageNew m h2 h3]
    · have hold : ∀ m, order ≤ m → m < order + n → p ≠ pos + 2 ^ m :=
        fun m h2 h3 h => hnew ⟨m, h2, h3, h⟩
      rw [listDel_pages, pageOld p h1 hold] at hs ⊢
      exact inv.clear p (fun h => hp (Or.inl h)) hs

/-- The search loop either finds every list from `i` on empty or takes a block that
was free, leaves the descriptors of used blocks alone and marks its own. -/
theorem takeFrom_spec {strict : Prop} {z : MbZone} {used : Nat → Prop}
    (inv : PoolInv strict z used) {order i : Nat} (n : Nat) (hle : order ≤ i) {pos : Nat}
    {z' : MbZone} (found : takeFrom z order i n = some (pos, z')) :
    PoolInv strict z' (fun p => used p ∨ p = pos) ∧ ¬ used pos ∧ z'.allPages = z.allPages ∧
      z'.pages pos = ⟨order, 1⟩ ∧ ∀ p, used p → z'.pages p = z.pages p := by
  induction n generalizing i with
  | zero => cases found
  | succ n ih =>
    rw [takeFrom] at found
    split at found
    · exact ih (by omega) found
    · rename_i first rest hlist
      simp only [Option.some.injEq, Prod.mk.injEq] at found
      obtain ⟨rfl, rfl⟩ := found
      have hmem : first ∈ z.freeAreas i := by rw [hlist]; exact List.mem_cons_self
      obtain ⟨hpos, hunused⟩ := (inv.listed i first).mp hmem
      refine ⟨inv.take hmem hle, hunused, by simp, ?_, ?_⟩
      · rw [listDel_pages, splitFree_pages_of_ne]
        · simp
        · intro m _ _
          have := Nat.two_pow_pos m
          omega
      · intro p hp
        rw [listDel_pages, splitFree_pages_of_ne]
        · have hne : p ≠ first := by rintro rfl; exact hunused hp
          simp [hne]
        · rintro m _ hm rfl
          have hnonneg := inv.headed _ hp
          have hneg := inv.interior hpos (show m < i by omega)
          omega

/-- The page heads a block some user holds. -/
def Held (live : List Block) (p : Nat) : Prop := ∃ b ∈ live, b.page = p

structure Sound (strict : Prop) (s : MbState) : Prop where
  mapped : 0 < s.zone.allPages
  pool : PoolInv strict s.zone (Held s.live)
  marked : ∀ b ∈ s.live, s.zone.pages b.page = ⟨b.order, 1⟩
  distinct : (s.live.map Block.page).Nodup

theorem virtToPage_pageAddress (page : Nat) : virtToPage (pageAddress page) = page := by
  unfold virtToPage pageAddress
  exact Nat.mul_div_cancel _ (Nat.two_pow_pos _)

namespace Sound

variable {strict : Prop} {s : MbState}

theorem init {zoneOk registerErr : Bool} {allPages : Nat} {z : MbZone}
    (built : mailboxMempoolInit zoneOk allPages registerErr = some z) : Sound strict ⟨z, []⟩ := by
  unfold mailboxMempoolInit at built
  split at built
  · cases built
  · split at built
    · cases built
    · split at built
      · cases built
      · obtain rfl := Option.some.inj built
        rename_i nonzero _
        refine ⟨Nat.pos_of_ne_zero nonzero, ?_, by simp, by simp⟩
        have held : Held [] = fun _ => False := by funext p; simp [Held]
        rw [held]
        exact initZone_inv strict allPages

theorem head (sound : Sound strict s) {b : Block} (hb : b ∈ s.live) :
    headOrder (s.zone.pages b.page) = some b.order := by
  rw [sound.marked b hb, headOrder_mk_nat]

theorem order_le (sound : Sound strict s) {b : Block} (hb : b ∈ s.live) :
    b.order ≤ gMaxOder :=
  sound.pool.tiles.order_le (sound.head hb)

theorem page_lt (sound : Sound strict s) {b : Block} (hb : b ∈ s.live) :
    b.page < mailboxPageMax := by
  rw [mailboxPageMax_eq]
  exact sound.pool.tiles.lt_of_head (sound.head hb)

theorem eq_of_page (sound : Sound strict s) {a b : Block} (ha : a ∈ s.live) (hb : b ∈ s.live)
    (hpage : a.page = b.page) : a = b :=
  List.inj_on_of_nodup_map sound.distinct ha hb hpage

/-- `mailbox_free` on the first page of a live block runs its merge loop. -/
theorem mailboxFree_live (sound : Sound strict s) {b : Block} (hb : b ∈ s.live) {ptr : Nat}
    (hptr : virtToPage ptr = s.zone.allPages + b.page) :
    mailboxFree s.zone ptr =
      freeLoop s.zone b.page b.order (gMaxOder - b.order) := by
  have hmapped := sound.mapped
  have hpage := sound.page_lt hb
  have hle := sound.order_le hb
  rw [gMaxOder_eq] at hle
  have nonzero : ptr ≠ 0 := by
    rintro rfl
    simp only [virtToPage, Nat.zero_div] at hptr
    omega
  have valid : isPtrValid s.zone (s.zone.allPages + b.page) = true := by
    simp only [isPtrValid, decide_eq_true_eq]
    omega
  have horder : (((b.order : Int) % 2 ^ 32).toNat) = b.order := by omega
  unfold mailboxFree
  simp only [nonzero, hptr, valid, Nat.add_sub_cancel_left, sound.marked b hb, if_false,
    Bool.true_eq_false, horder, one_ne_zero]

/-- A live block leaves the used set when `mailbox_free` gets its pointer. -/
theorem freeing (sound : Sound strict s) {b : Block} (hb : b ∈ s.live) {ptr : Nat}
    (hptr : virtToPage ptr = s.zone.allPages + b.page) (memsetS : Nat → Nat → Nat) :
    Freeing strict (Held (mbStep memsetS s (.free ptr)).live) s.zone b.page b.order := by
  have hfilter : ∀ c, c ∈ (mbStep memsetS s (.free ptr)).live ↔
      c ∈ s.live ∧ c.page ≠ b.page := by
    intro c
    simp only [mbStep, List.mem_filter, hptr]
    simp
  have held : Held s.live = fun p =>
      Held (mbStep memsetS s (.free ptr)).live p ∨ p = b.page := by
    funext p
    simp only [Held, hfilter, eq_iff_iff]
    constructor
    · rintro ⟨c, hc, rfl⟩
      by_cases h : c.page = b.page
      · exact Or.inr h
      · exact Or.inl ⟨c, ⟨hc, h⟩, rfl⟩
    · rintro (⟨c, ⟨hc, _⟩, rfl⟩ | rfl)
      · exact ⟨c, hc, rfl⟩
      · exact ⟨b, hb, rfl⟩
  have hpool := sound.pool
  rw [held] at hpool
  refine ⟨hpool, by rw [sound.marked b hb], ?_, ?_⟩
  · rintro ⟨c, hc, hpage⟩
    exact ((hfilter c).mp hc).2 hpage
  · rintro p ⟨c, hc, rfl⟩
    rw [sound.marked c ((hfilter c).mp hc).1]
    exact one_ne_zero

/-- Freeing a live block; in the strict reading its order is below the largest. -/
theorem free_live (sound : Sound strict s) {b : Block} (hb : b ∈ s.live) {ptr : Nat}
    (hptr : virtToPage ptr = s.zone.allPages + b.page) (below : strict → b.order < gMaxOder)
    (memsetS : Nat → Nat → Nat) : Sound strict (mbStep memsetS s (.free ptr)) := by
  have rounds : b.order + (gMaxOder - b.order) = gMaxOder := by
    have := sound.order_le hb
    omega
  obtain ⟨freed, kept⟩ := freeLoop_spec (gMaxOder - b.order) rounds
    (sound.freeing hb hptr memsetS) (by intro hs hz; have := below hs; omega)
  have hzone : (mbStep memsetS s (.free ptr)).zone =
      freeLoop s.zone b.page b.order (gMaxOder - b.order) := sound.mailboxFree_live hb hptr
  refine ⟨?_, ?_, ?_, ?_⟩
  · rw [hzone, freeLoop_allPages]; exact sound.mapped
  · rw [hzone]; exact freed
  · intro c hc
    rw [hzone, kept c.page ⟨c, hc, rfl⟩]
    exact sound.marked c (List.mem_of_mem_filter hc)
  · exact sound.distinct.sublist (List.Sublist.map _ List.filter_sublist)

/-- A block taken by the search loop joins the live ones. -/
theorem take (sound : Sound strict s) {order n pos : Nat} {z : MbZone}
    (found : takeFrom s.zone order order n = some (pos, z)) :
    Sound strict ⟨z, ⟨pos, order⟩ :: s.live⟩ ∧ ¬ Held s.live pos ∧
      z.allPages = s.zone.allPages := by
  obtain ⟨hpool, hunheld, hall, hpage, kept⟩ := takeFrom_spec sound.pool n (Nat.le_refl _) found
  have held : Held (⟨pos, order⟩ :: s.live) = fun p => Held s.live p ∨ p = pos := by
    funext p
    simp only [Held, List.mem_cons, exists_eq_or_imp, eq_iff_iff]
    exact ⟨fun h => h.symm.imp_right Eq.symm, fun h => (h.imp_right Eq.symm).symm⟩
  refine ⟨⟨?_, ?_, ?_, ?_⟩, hunheld, hall⟩
  · rw [hall]; exact sound.mapped
  · rw [held]; exact hpool
  · intro b hb
    rcases List.mem_cons.mp hb with rfl | hb
    · exact hpage
    · rw [kept b.page ⟨b, hb, rfl⟩]
      exact sound.marked b hb
  · rw [List.map_cons, List.nodup_cons]
    refine ⟨?_, sound.distinct⟩
    rintro h
    obtain ⟨b, hb, hpage⟩ := List.mem_map.mp h
    exact hunheld ⟨b, hb, hpage⟩

end Sound

/-- The ways `mailbox_alloc` ends: nothing taken, a block given, or a block taken
that goes straight back because it could not be zeroed. -/
theorem mailboxAlloc_cases (memsetS : Nat → Nat → Nat) (z : MbZone) (size flag : Nat) :
    mailboxAlloc memsetS z size flag = (none, z) ∨
    ∃ pos z', size ≠ 0 ∧ getOrder (align4K size) ≤ gMaxOder ∧
      takeFrom z (getOrder (align4K size)) (getOrder (align4K size))
        (gMaxOder + 1 - getOrder (align4K size)) = some (pos, z') ∧
      (mailboxAlloc memsetS z size flag = (some (pageAddress (z'.allPages + pos)), z') ∨
        memsetS (align4K size) (align4K size) ≠ 0 ∧
          mailboxAlloc memsetS z size flag =
            (none, mailboxFree z' (pageAddress (z'.allPages + pos)))) := by
  unfold mailboxAlloc
  simp only
  by_cases hsize : size = 0
  · simp [hsize]
  by_cases horder : getOrder (align4K size) > gMaxOder
  · simp [horder]
  rw [if_neg hsize, if_neg horder]
  cases hfound : takeFrom z (getOrder (align4K size)) (getOrder (align4K size))
      (gMaxOder + 1 - getOrder (align4K size)) with
  | none => exact Or.inl rfl
  | some found =>
    obtain ⟨pos, z'⟩ := found
    refine Or.inr ⟨pos, z', hsize, Nat.le_of_not_lt horder, rfl, ?_⟩
    simp only
    split
    · rename_i hzero
      exact Or.inr ⟨hzero.2.2, rfl⟩
    · exact Or.inl rfl

/-- What the step for `mailbox_alloc` does to a sound state. -/
theorem Sound.alloc {strict : Prop} {s : MbState} (sound : Sound strict s)
    (memsetS : Nat → Nat → Nat) (size : UInt64) (flag : UInt32)
    (zeroed : strict → ∀ n, 0 < n → n ≤ mailboxPoolSize → memsetS n n = 0) :
    Sound strict (mbStep memsetS s (.alloc size flag)) := by
  rcases mailboxAlloc_cases memsetS s.zone size.toNat flag.toNat with
    hnone | ⟨pos, z, hsize, horder, found, hsome | ⟨hfail, hnone⟩⟩
  · simp only [mbStep, hnone]
    exact sound
  · obtain ⟨taken, _, _⟩ := sound.take found
    simp only [mbStep, hsome, virtToPage_pageAddress, Nat.add_sub_cancel_left]
    exact taken
  · obtain ⟨taken, hunheld, hall⟩ := sound.take found
    have notStrict : ¬ strict :=
      fun hs => hfail (zeroed hs _ (align4K_pos horder) (align4K_le_pool horder))
    have freed := taken.free_live (b := ⟨pos, getOrder (align4K size.toNat)⟩)
      List.mem_cons_self (virtToPage_pageAddress _) (fun hs => False.elim (notStrict hs)) memsetS
    have hlive : (⟨pos, getOrder (align4K size.toNat)⟩ :: s.live).filter
        (fun b => decide (z.allPages + b.page ≠
          virtToPage (pageAddress (z.allPages + pos)))) = s.live := by
      rw [virtToPage_pageAddress, List.filter_cons_of_neg (by simp)]
      refine List.filter_eq_self.mpr ?_
      intro b hb
      have hne : b.page ≠ pos := fun h => hunheld ⟨b, hb, h⟩
      simp [hne]
    simp only [mbStep, hlive] at freed
    simp only [mbStep, hnone]
    exact freed

section Blocks

/-- The blocks linked on `free_areas[0..g_max_oder]`. -/
def freeBlocks (z : MbZone) : List Block :=
  (List.range (gMaxOder + 1)).flatMap (fun k => (z.freeAreas k).map (fun p => ⟨p, k⟩))

def allBlocks (s : MbState) : List Block := s.live ++ freeBlocks s.zone

def Block.Disjoint (a b : Block) : Prop :=
  a.page + 2 ^ a.order ≤ b.page ∨ b.page + 2 ^ b.order ≤ a.page

/-- The live blocks and the listed ones partition the pool. -/
structure Partitioned (s : MbState) : Prop where
  covered : ∀ i, i < mailboxPageMax →
    ∃! b, b ∈ allBlocks s ∧ b.page ≤ i ∧ i < b.page + 2 ^ b.order
  inside : ∀ b ∈ allBlocks s, b.page + 2 ^ b.order ≤ mailboxPageMax
  aligned : ∀ b ∈ allBlocks s, 2 ^ b.order ∣ b.page
  listed : ∀ k ≤ gMaxOder, ∀ p ∈ s.zone.freeAreas k, (s.zone.pages p).order = k
  nodup : (allBlocks s).Nodup

variable {strict : Prop} {s : MbState}

theorem mem_freeBlocks (z : MbZone) (b : Block) :
    b ∈ freeBlocks z ↔ b.order ≤ gMaxOder ∧ b.page ∈ z.freeAreas b.order := by
  unfold freeBlocks
  simp only [List.mem_flatMap, List.mem_range, List.mem_map]
  constructor
  · rintro ⟨k, hk, p, hp, rfl⟩
    exact ⟨Nat.le_of_lt_succ hk, hp⟩
  · rintro ⟨hk, hp⟩
    exact ⟨b.order, by omega, b.page, hp, rfl⟩

/-- Every block is the one its first page's descriptor heads. -/
theorem Sound.mem_allBlocks (sound : Sound strict s) (b : Block) :
    b ∈ allBlocks s ↔ headOrder (s.zone.pages b.page) = some b.order := by
  rw [allBlocks, List.mem_append, mem_freeBlocks, sound.pool.listed]
  constructor
  · rintro (hb | ⟨_, hb, _⟩)
    · exact sound.head hb
    · exact headOrder_eq_some.mpr hb
  · intro hb
    by_cases held : Held s.live b.page
    · obtain ⟨c, hc, hpage⟩ := held
      have hhead := sound.head hc
      rw [hpage, hb, Option.some.injEq] at hhead
      left
      have heq : b = c := by
        cases b; cases c
        simp_all
      rw [heq]
      exact hc
    · exact Or.inr ⟨sound.pool.tiles.order_le hb, headOrder_eq_some.mp hb, held⟩

theorem Sound.nodup_freeBlocks (sound : Sound strict s) : (freeBlocks s.zone).Nodup := by
  refine List.nodup_flatMap.mpr ⟨?_, ?_⟩
  · intro k _
    refine (sound.pool.nodup k).map ?_
    intro p q h
    exact congrArg Block.page h
  · refine List.nodup_range.imp ?_
    intro k l hne
    simp only [Function.onFun, List.Disjoint, List.mem_map]
    rintro b ⟨p, _, rfl⟩ ⟨q, _, h⟩
    exact hne (congrArg Block.order h).symm

theorem Sound.partitioned (sound : Sound strict s) : Partitioned s := by
  constructor
  · intro i hi
    rw [mailboxPageMax_eq] at hi
    obtain ⟨p, k, hp, hc⟩ := sound.pool.tiles.covered i hi
    refine ⟨⟨p, k⟩, ⟨(sound.mem_allBlocks _).mpr hp, hc⟩, ?_⟩
    rintro b ⟨hb, hcb⟩
    have hhead := (sound.mem_allBlocks b).mp hb
    have hpage : b.page = p := sound.pool.tiles.unique _ _ _ _ i hhead hp hcb hc
    rw [hpage, show headOrder (s.zone.pages p) = some k from hp, Option.some.injEq] at hhead
    rw [← hpage, hhead]
  · intro b hb
    rw [mailboxPageMax_eq]
    exact sound.pool.tiles.inside _ _ ((sound.mem_allBlocks b).mp hb)
  · intro b hb
    exact sound.pool.tiles.aligned _ _ ((sound.mem_allBlocks b).mp hb)
  · intro k _ p hp
    exact ((sound.pool.listed k p).mp hp).1
  · refine List.nodup_append'.mpr ⟨sound.distinct.of_map, sound.nodup_freeBlocks, ?_⟩
    intro b hlive hfree
    rw [mem_freeBlocks, sound.pool.listed] at hfree
    exact hfree.2.2 ⟨b, hlive, rfl⟩

theorem Sound.disjoint (sound : Sound strict s) {a b : Block} (ha : a ∈ s.live)
    (hb : b ∈ s.live) (hne : a ≠ b) : a.Disjoint b := by
  by_contra h
  simp only [Block.Disjoint, not_or, Nat.not_le] at h
  have h1 := Nat.two_pow_pos a.order
  have h2 := Nat.two_pow_pos b.order
  have hpage := sound.pool.tiles.unique _ _ _ _ (max a.page b.page) (sound.head ha)
    (sound.head hb) ⟨by omega, by omega⟩ ⟨by omega, by omega⟩
  exact hne (sound.eq_of_page ha hb hpage)

/-- A successful `mailbox_alloc` gives a block that is large enough and apart from the rest. -/
theorem Sound.alloc_fresh (sound : Sound strict s) {memsetS : Nat → Nat → Nat} {size : UInt64}
    {flag : UInt32} {addr : Nat} {z : MbZone}
    (given : mailboxAlloc memsetS s.zone size.toNat flag.toNat = (some addr, z)) :
    ∃ b : Block, (mbStep memsetS s (.alloc size flag)).live = b :: s.live ∧
      addr = blockAddr s b ∧ size.toNat ≤ sz4K * 2 ^ b.order ∧
      ∀ c ∈ s.live, b.Disjoint c := by
  rcases mailboxAlloc_cases memsetS s.zone size.toNat flag.toNat with
    hnone | ⟨pos, z', hsize, horder, found, hsome | ⟨hfail, hnone⟩⟩
  · rw [given] at hnone; cases hnone
  · rw [given, Prod.mk.injEq, Option.some.injEq] at hsome
    obtain ⟨rfl, rfl⟩ := hsome
    obtain ⟨taken, hunheld, hall⟩ := sound.take found
    refine ⟨⟨pos, getOrder (align4K size.toNat)⟩, ?_, ?_, ?_, ?_⟩
    · simp only [mbStep, given, virtToPage_pageAddress, Nat.add_sub_cancel_left]
    · simp only [blockAddr, hall]
    · exact size_le_block horder size.toNat_lt
    · intro c hc
      refine taken.disjoint List.mem_cons_self (List.mem_cons_of_mem _ hc) ?_
      rintro rfl
      exact hunheld ⟨_, hc, rfl⟩
  · rw [given] at hnone; cases hnone

end Blocks

/-- One call of a well-behaved user: any allocation, or freeing a pointer it was given
and has not freed. -/
inductive LegalStep (memsetS : Nat → Nat → Nat) : MbState → MbState → Prop
  | alloc (s : MbState) (size : UInt64) (flag : UInt32) :
      LegalStep memsetS s (mbStep memsetS s (.alloc size flag))
  | free (s : MbState) (b : Block) (live : b ∈ s.live) :
      LegalStep memsetS s (mbStep memsetS s (.free (blockAddr s b)))

theorem LegalStep.sound {memsetS : Nat → Nat → Nat} {s s' : MbState}
    (step : LegalStep memsetS s s') (sound : Sound False s) : Sound False s' := by
  cases step with
  | alloc size flag => exact sound.alloc memsetS size flag False.elim
  | free b live => exact sound.free_live live (virtToPage_pageAddress _) False.elim memsetS

theorem legal_run_sound {memsetS : Nat → Nat → Nat} {s s' : MbState}
    (run : Relation.ReflTransGen (LegalStep memsetS) s s') (sound : Sound False s) :
    Sound False s' := by
  induction run with
  | refl => exact sound
  | tail _ step ih => exact step.sound ih

/-- After any allocations and frees of live blocks the pool is partitioned, and the
next allocation that succeeds gives enough bytes apart from every live block. -/
theorem pool_partitioned (memsetS : Nat → Nat → Nat) {zoneOk registerErr : Bool}
    {allPages : Nat} {z : MbZone} {s : MbState}
    (built : mailboxMempoolInit zoneOk allPages registerErr = some z)
    (run : Relation.ReflTransGen (LegalStep memsetS) ⟨z, []⟩ s) :
    Partitioned s ∧ ∀ (size : UInt64) (flag : UInt32) (addr : Nat) (z' : MbZone),
      mailboxAlloc memsetS s.zone size.toNat flag.toNat = (some addr, z') →
      ∃ b : Block, (mbStep memsetS s (.alloc size flag)).live = b :: s.live ∧
        addr = blockAddr s b ∧ size.toNat ≤ sz4K * 2 ^ b.order ∧
        ∀ c ∈ s.live, b.Disjoint c := by
  have sound : Sound False s := legal_run_sound run (Sound.init built)
  exact ⟨sound.partitioned, fun size flag addr z' given => sound.alloc_fresh given⟩

theorem pool_partitioned_two_calls :
    Partitioned (mbStep (fun _ _ => 0) (mbStep (fun _ _ => 0) ⟨initZone 16, []⟩ (.alloc 5000 1))
      (.free (pageAddress 16))) := by
  have held : (⟨0, 1⟩ : Block) ∈
      (mbStep (fun _ _ => 0) ⟨initZone 16, []⟩ (.alloc 5000 1)).live := by decide +kernel
  have built : mailboxMempoolInit true 16 false = some (initZone 16) := rfl
  exact (pool_partitioned (fun _ _ => 0) built
    ((Relation.ReflTransGen.single (.alloc _ 5000 1)).tail (.free _ ⟨0, 1⟩ held))).1

end MailboxPool
