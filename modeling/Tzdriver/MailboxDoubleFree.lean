import Mathlib.Algebra.BigOperators.Group.Finset.Basic
import Mathlib.Algebra.Order.BigOperators.Group.Finset
import Tzdriver.MailboxPartition

/-!
# Freeing arbitrary pointers

`mailbox_free` trusts the count of the page it is given. As long as no block of
the largest order is given back, the count is set on exactly the first pages of the
live blocks, so freeing anything else changes nothing. A block of the largest order
never enters the merge loop and keeps its count: the next free of the same pointer
links the whole pool a second time.
-/

namespace MailboxPool

open Function

/-- The bounds-checking library's `memset_s` on a non-null destination. -/
def memsetSDoc (destMax count : Nat) : Nat :=
  if destMax = 0 ∨ destMax > 0x7fffffff ∨ count > destMax then 1 else 0

theorem memsetSDoc_ok (n : Nat) (pos : 0 < n) (le : n ≤ 0x7fffffff) : memsetSDoc n n = 0 := by
  rw [memsetSDoc, if_neg (by omega)]

/-- `mailbox_free ptr` does not give back a block of the largest order. -/
def FreesBelowMax (s : MbState) (ptr : Nat) : Prop :=
  ∀ b ∈ s.live, virtToPage ptr = s.zone.allPages + b.page → b.order < gMaxOder

/-- One call with any argument at all. -/
inductive AnyStep (memsetS : Nat → Nat → Nat) (allowed : MbState → Nat → Prop) :
    MbState → MbState → Prop
  | alloc (s : MbState) (size : UInt64) (flag : UInt32) :
      AnyStep memsetS allowed s (mbStep memsetS s (.alloc size flag))
  | free (s : MbState) (ptr : Nat) (ok : allowed s ptr) :
      AnyStep memsetS allowed s (mbStep memsetS s (.free ptr))

/-- What the pool promises its users whatever they free. -/
structure Robust (s : MbState) : Prop where
  counted : ∀ p, p < mailboxPageMax → ((s.zone.pages p).count ≠ 0 ↔ Held s.live p)
  inert : ∀ ptr, (∀ b ∈ s.live, virtToPage ptr ≠ s.zone.allPages + b.page) →
    mailboxFree s.zone ptr = s.zone
  twice : ∀ ptr, FreesBelowMax s ptr →
    mailboxFree (mailboxFree s.zone ptr) ptr = mailboxFree s.zone ptr
  apart : ∀ a ∈ s.live, ∀ b ∈ s.live, a ≠ b → a.Disjoint b
  usage : mailboxShowStatus s.zone = (s.live.map (fun b => 2 ^ b.order)).sum

namespace Sound

variable {s : MbState}

theorem counted (sound : Sound True s) (p : Nat) :
    (s.zone.pages p).count ≠ 0 ↔ Held s.live p := by
  constructor
  · intro hcount
    by_contra unheld
    exact hcount (sound.pool.clear p unheld (Or.inl trivial))
  · rintro ⟨b, hb, rfl⟩
    rw [sound.marked b hb]
    exact one_ne_zero

theorem inert (sound : Sound True s) {ptr : Nat}
    (stray : ∀ b ∈ s.live, virtToPage ptr ≠ s.zone.allPages + b.page) :
    mailboxFree s.zone ptr = s.zone := by
  unfold mailboxFree
  split
  · rfl
  · split
    · rfl
    · rename_i _ valid
      simp only [isPtrValid, decide_eq_false_iff_not, not_not] at valid
      have hcount : (s.zone.pages (virtToPage ptr - s.zone.allPages)).count = 0 := by
        by_contra h
        obtain ⟨b, hb, hpage⟩ := (sound.counted _).mp h
        exact stray b hb (by omega)
      simp only [hcount, if_true]

/-- Any call keeps the strict invariant when no block of the largest order is freed. -/
theorem anyStep {memsetS : Nat → Nat → Nat} {s' : MbState}
    (zeroed : ∀ n, 0 < n → n ≤ 0x7fffffff → memsetS n n = 0)
    (sound : Sound True s) (step : AnyStep memsetS FreesBelowMax s s') : Sound True s' := by
  cases step with
  | alloc size flag =>
    refine sound.alloc memsetS size flag (fun _ n pos le => zeroed n pos ?_)
    exact le.trans (by decide)
  | free ptr ok =>
    by_cases hit : ∃ b ∈ s.live, virtToPage ptr = s.zone.allPages + b.page
    · obtain ⟨b, hb, hptr⟩ := hit
      exact sound.free_live hb hptr (fun _ => ok b hb hptr) memsetS
    · have stray : ∀ b ∈ s.live, virtToPage ptr ≠ s.zone.allPages + b.page :=
        fun b hb h => hit ⟨b, hb, h⟩
      have hlive : s.live.filter
          (fun b => decide (s.zone.allPages + b.page ≠ virtToPage ptr)) = s.live := by
        refine List.filter_eq_self.mpr (fun b hb => ?_)
        simpa using (stray b hb).symm
      simp only [mbStep, sound.inert stray, hlive]
      exact sound

theorem twice (sound : Sound True s) {ptr : Nat} (below : FreesBelowMax s ptr) :
    mailboxFree (mailboxFree s.zone ptr) ptr = mailboxFree s.zone ptr := by
  have freed : Sound True (mbStep memsetSDoc s (.free ptr)) :=
    sound.anyStep memsetSDoc_ok (.free s ptr below)
  refine freed.inert (fun b hb h => ?_)
  have hne := (List.mem_filter.mp hb).2
  simp only [mbStep, mailboxFree_allPages] at h
  simp only [decide_eq_true_eq] at hne
  exact hne h.symm

end Sound

/-- The pages one descriptor adds to the printed total. -/
def pagesShown (z : MbZone) (i : Nat) : Nat :=
  if (z.pages i).count ≠ 0 then 2 ^ (z.pages i).order.toNat else 0

theorem shown_foldl (z : MbZone) (n : Nat) :
    (List.range n).foldl (fun used i =>
      if (z.pages i).count ≠ 0 then (used + 2 ^ (z.pages i).order.toNat) % 2 ^ 32 else used) 0 =
      (∑ i ∈ Finset.range n, pagesShown z i) % 2 ^ 32 := by
  induction n with
  | zero => rfl
  | succ n ih =>
    rw [List.range_succ, List.foldl_append, ih, Finset.sum_range_succ, pagesShown]
    simp only [List.foldl_cons, List.foldl_nil]
    split
    · rw [Nat.mod_add_mod]
    · rw [Nat.add_zero]

theorem Sound.usage {s : MbState} (sound : Sound True s) :
    mailboxShowStatus s.zone = (s.live.map (fun b => 2 ^ b.order)).sum := by
  have total : ∑ i ∈ Finset.range mailboxPageMax, pagesShown s.zone i =
      (s.live.map (fun b => 2 ^ b.order)).sum := by
    have heads : (Finset.range mailboxPageMax).filter (fun i => (s.zone.pages i).count ≠ 0) =
        s.live.toFinset.image Block.page := by
      ext p
      simp only [Finset.mem_filter, Finset.mem_range, Finset.mem_image, List.mem_toFinset,
        sound.counted p, Held]
      refine ⟨And.right, ?_⟩
      rintro ⟨b, hb, rfl⟩
      exact ⟨sound.page_lt hb, b, hb, rfl⟩
    rw [← List.sum_toFinset _ sound.distinct.of_map]
    simp only [pagesShown]
    rw [← Finset.sum_filter, heads, Finset.sum_image]
    · refine Finset.sum_congr rfl (fun b hb => ?_)
      rw [sound.marked b (List.mem_toFinset.mp hb)]
      rfl
    · intro a ha b hb hpage
      exact sound.eq_of_page (List.mem_toFinset.mp ha) (List.mem_toFinset.mp hb) hpage
  have bound : ∑ i ∈ Finset.range mailboxPageMax, pagesShown s.zone i ≤
      mailboxPageMax * 2 ^ gMaxOder := by
    have each : ∀ i ∈ Finset.range mailboxPageMax, pagesShown s.zone i ≤ 2 ^ gMaxOder := by
      intro i _
      unfold pagesShown
      split
      · rename_i hcount
        obtain ⟨b, hb, rfl⟩ := (sound.counted i).mp hcount
        rw [sound.marked b hb]
        exact Nat.pow_le_pow_right (by decide) (sound.order_le hb)
      · exact Nat.zero_le _
    have h := Finset.sum_le_card_nsmul _ _ _ each
    simpa only [Finset.card_range, nsmul_eq_mul, Nat.cast_id] using h
  have small : mailboxPageMax * 2 ^ gMaxOder < 2 ^ 32 := by decide
  rw [mailboxShowStatus, shown_foldl, Nat.mod_eq_of_lt (by omega), total]

theorem Sound.robust {s : MbState} (sound : Sound True s) : Robust s where
  counted := fun p _ => sound.counted p
  inert := fun _ stray => sound.inert stray
  twice := fun _ below => sound.twice below
  apart := fun _ ha _ hb hne => sound.disjoint ha hb hne
  usage := sound.usage

/-- Whatever pointers are freed, the counts stay exact as long as no free gives back
a block of the largest order. -/
theorem pool_robust {memsetS : Nat → Nat → Nat}
    (zeroed : ∀ n, 0 < n → n ≤ 0x7fffffff → memsetS n n = 0) {zoneOk registerErr : Bool}
    {allPages : Nat} {z : MbZone} {s : MbState}
    (built : mailboxMempoolInit zoneOk allPages registerErr = some z)
    (run : Relation.ReflTransGen (AnyStep memsetS FreesBelowMax) ⟨z, []⟩ s) : Robust s := by
  have sound : Sound True s := by
    induction run with
    | refl => exact Sound.init built
    | tail _ step ih => exact ih.anyStep zeroed step
  exact sound.robust

/-- A stray free after a two-page allocation. -/
theorem pool_robust_stray_free :
    Robust (mbStep memsetSDoc (mbStep memsetSDoc ⟨initZone 16, []⟩ (.alloc 5000 1))
      (.free (pageAddress 17))) := by
  have built : mailboxMempoolInit true 16 false = some (initZone 16) := rfl
  have below : FreesBelowMax (mbStep memsetSDoc ⟨initZone 16, []⟩ (.alloc 5000 1))
      (pageAddress 17) := by
    unfold FreesBelowMax
    decide +kernel
  exact pool_robust memsetSDoc_ok built
    ((Relation.ReflTransGen.single (.alloc _ 5000 1)).tail (.free _ _ below))

/-- Allocating the whole pool and freeing it leaves the count of page 0 set with nothing
live, and freeing it again puts page 0 on the last list twice. -/
theorem whole_pool_freed_twice :
    ∃ s, Relation.ReflTransGen (AnyStep memsetSDoc (fun _ _ => True)) ⟨initZone 16, []⟩ s ∧
      s.live = [] ∧ (s.zone.pages 0).count ≠ 0 ∧ ¬ Robust s ∧
      (mailboxFree s.zone (pageAddress 16)).freeAreas gMaxOder = [0, 0] := by
  have counted : ((mbStep memsetSDoc (mbStep memsetSDoc ⟨initZone 16, []⟩ (.alloc 4194304 0))
      (.free (pageAddress 16))).zone.pages 0).count ≠ 0 := by decide +kernel
  have unheld : (mbStep memsetSDoc (mbStep memsetSDoc ⟨initZone 16, []⟩ (.alloc 4194304 0))
      (.free (pageAddress 16))).live = [] := by decide +kernel
  refine ⟨_, (Relation.ReflTransGen.single (.alloc _ 4194304 0)).tail
    (.free _ (pageAddress 16) trivial), unheld, counted, ?_, by decide +kernel⟩
  intro robust
  obtain ⟨b, hb, _⟩ := (robust.counted 0 (by decide)).mp counted
  rw [unheld] at hb
  cases hb

end MailboxPool
