import Tzdriver.MailboxPartition

/-!
# Free buddies are always joined

`mailbox_free` joins a block with its buddy for as long as the buddy is free, and
`mailbox_alloc` leaves only upper halves behind whose buddies hold the block it gives. So no
two buddies below the largest order are ever both free, and the free blocks are those of the
only coalesced tiling that has the live blocks. An allocation that fits therefore fails only
when no aligned run of its order is free.
-/

namespace MailboxPool

open Function DyadicTiling

/-- No two buddies of one order below `g_max_oder` are both on its list. -/
def NoFreeBuddies (z : MbZone) : Prop :=
  ∀ k p, k < gMaxOder → p ∈ z.freeAreas k → buddy p k ∉ z.freeAreas k

theorem initZone_noFreeBuddies (allPages : Nat) : NoFreeBuddies (initZone allPages) := by
  intro k p below hp
  simp [initZone, below.ne] at hp

section Free

variable {strict : Prop} {used : Nat → Prop} {z : MbZone} {page i : Nat}

/-- Taking a page off its list leaves no new pair. -/
theorem NoFreeBuddies.erase {z' : MbZone} (apart : NoFreeBuddies z) {q : Nat}
    (areas : ∀ k, z'.freeAreas k = (z.freeAreas k).erase q) : NoFreeBuddies z' := by
  intro k p below hp hb
  rw [areas k] at hp hb
  exact apart k p below (List.mem_of_mem_erase hp) (List.mem_of_mem_erase hb)

/-- Linking a block whose buddy is not on the list. -/
theorem NoFreeBuddies.link (apart : NoFreeBuddies z)
    (alone : i < gMaxOder → buddy page i ∉ z.freeAreas i) :
    NoFreeBuddies (z.listAddTail page i) := by
  intro k p below hp hb
  by_cases hk : k = i
  · subst hk
    simp only [listAddTail_freeAreas, update_self, List.mem_append, List.mem_singleton] at hp hb
    rcases hp with hp | rfl
    · rcases hb with hb | hb
      · exact apart k p below hp hb
      · -- `p` is the buddy of the block that is linked
        rw [← hb, buddy_buddy] at alone
        exact alone below hp
    · rcases hb with hb | hb
      · exact alone below hb
      · exact buddy_ne p k hb
  · simp only [listAddTail_freeAreas, update_of_ne hk] at hp hb
    exact apart k p below hp hb

theorem freeLoop_noFreeBuddies (n : Nat) (rounds : i + n = gMaxOder)
    (freeing : Freeing strict used z page i) (apart : NoFreeBuddies z) :
    NoFreeBuddies (freeLoop z page i n) := by
  induction n generalizing z page i with
  | zero =>
    obtain rfl : i = gMaxOder := rounds
    obtain rfl : page = 0 := freeing.inv.tiles.top_is_zero (headOrder_eq_some.mpr freeing.order)
    simp only [freeLoop, addMaxOrderBlock, ne_eq, not_true_eq_false, if_false]
    exact apart.link fun below => absurd below (Nat.lt_irrefl _)
  | succ n ih =>
    rcases freeing.round (by omega) n with ⟨lo, z', heq, joined, -, -, areas⟩ | ⟨heq, busy⟩
    · rw [heq]
      exact ih (by omega) joined (apart.erase areas)
    · rw [heq]
      have same : NoFreeBuddies (z.setCount page 0) := apart
      refine same.link fun _ listed => ?_
      obtain ⟨order, unused⟩ := (freeing.inv.listed i _).mp listed
      exact unused (Or.inl (busy order))

end Free

/-- Splitting a block leaves upper halves, whose buddies start at the block that is given. -/
theorem PoolInv.take_noFreeBuddies {strict : Prop} {z : MbZone} {used : Nat → Prop}
    (inv : PoolInv strict z used) (apart : NoFreeBuddies z) {pos i order : Nat}
    (hmem : pos ∈ z.freeAreas i) (hle : order ≤ i) :
    NoFreeBuddies ((splitFree (z.setPage pos ⟨order, 1⟩) pos order (i - order)).listDel pos) := by
  have taken := inv.take hmem hle
  have unlisted : ∀ k,
      pos ∉ ((splitFree (z.setPage pos ⟨order, 1⟩) pos order (i - order)).listDel pos).freeAreas k := by
    intro k listed
    exact ((taken.listed k pos).mp listed).2 (Or.inr rfl)
  have aligned : 2 ^ i ∣ pos :=
    inv.tiles.aligned pos i (headOrder_eq_some.mpr ((inv.listed i pos).mp hmem).1)
  have old_or_new : ∀ k p,
      p ∈ ((splitFree (z.setPage pos ⟨order, 1⟩) pos order (i - order)).listDel pos).freeAreas k →
      p ∈ z.freeAreas k ∨ (k < i ∧ p = pos + 2 ^ k) := by
    intro k p hp
    rw [listDel_freeAreas] at hp
    have hp := List.mem_of_mem_erase hp
    rw [splitFree_freeAreas] at hp
    split at hp
    · rename_i hk
      rcases List.mem_append.mp hp with hp | hp
      · exact Or.inl hp
      · exact Or.inr ⟨by omega, List.mem_singleton.mp hp⟩
    · exact Or.inl hp
  have half : ∀ k, k < i → buddy (pos + 2 ^ k) k = pos := by
    intro k hk
    rw [← buddy_of_aligned ((Nat.pow_dvd_pow 2 hk).trans aligned), buddy_buddy]
  intro k p below hp hb
  rcases old_or_new k p hp with oldP | ⟨hk, rfl⟩
  · rcases old_or_new k _ hb with oldB | ⟨hk, hbuddy⟩
    · exact apart k p below oldP oldB
    · have hpos : p = pos := by rw [← buddy_buddy p k, hbuddy, half k hk]
      exact unlisted k (hpos ▸ hp)
  · rw [half k hk] at hb
    exact unlisted k hb

theorem takeFrom_noFreeBuddies {strict : Prop} {z : MbZone} {used : Nat → Prop}
    (inv : PoolInv strict z used) (apart : NoFreeBuddies z) {order i : Nat} (n : Nat)
    (hle : order ≤ i) {pos : Nat} {z' : MbZone}
    (found : takeFrom z order i n = some (pos, z')) : NoFreeBuddies z' := by
  induction n generalizing i with
  | zero => cases found
  | succ n ih =>
    rw [takeFrom] at found
    split at found
    · exact ih (by omega) found
    · rename_i first rest hlist
      simp only [Option.some.injEq, Prod.mk.injEq] at found
      obtain ⟨rfl, rfl⟩ := found
      exact inv.take_noFreeBuddies apart (by rw [hlist]; exact List.mem_cons_self) hle

section Runs

variable {s s' : MbState} {memsetS : Nat → Nat → Nat}

theorem Sound.free_noFreeBuddies {strict : Prop} (sound : Sound strict s)
    (apart : NoFreeBuddies s.zone) {b : Block} (hb : b ∈ s.live) {ptr : Nat}
    (hptr : virtToPage ptr = s.zone.allPages + b.page) :
    NoFreeBuddies (mailboxFree s.zone ptr) := by
  rw [sound.mailboxFree_live hb hptr]
  refine freeLoop_noFreeBuddies _ ?_ (sound.freeing hb hptr fun _ _ => 0) apart
  have := sound.order_le hb
  omega

theorem LegalStep.noFreeBuddies (step : LegalStep memsetS s s') (sound : Sound False s)
    (apart : NoFreeBuddies s.zone) : NoFreeBuddies s'.zone := by
  cases step with
  | alloc size flag =>
    rcases mailboxAlloc_cases memsetS s.zone size.toNat flag.toNat with
      hnone | ⟨pos, z, hsize, horder, found, hsome | ⟨hfail, hnone⟩⟩
    · simp only [mbStep, hnone]
      exact apart
    · simp only [mbStep, hsome]
      exact takeFrom_noFreeBuddies sound.pool apart _ (Nat.le_refl _) found
    · -- the block that could not be zeroed goes back at once
      obtain ⟨taken, -, -⟩ := sound.take found
      have after := takeFrom_noFreeBuddies sound.pool apart _ (Nat.le_refl _) found
      simp only [mbStep, hnone]
      exact taken.free_noFreeBuddies after List.mem_cons_self
        (virtToPage_pageAddress _)
  | free b live =>
    exact sound.free_noFreeBuddies apart live (virtToPage_pageAddress _)

theorem legal_run_noFreeBuddies
    (run : Relation.ReflTransGen (LegalStep memsetS) s s') (sound : Sound False s)
    (apart : NoFreeBuddies s.zone) : NoFreeBuddies s'.zone := by
  induction run with
  | refl => exact apart
  | tail before step ih => exact step.noFreeBuddies (legal_run_sound before sound) ih

theorem reachable_noFreeBuddies {zoneOk registerErr : Bool} {allPages : Nat} {z : MbZone}
    (built : mailboxMempoolInit zoneOk allPages registerErr = some z)
    (run : Relation.ReflTransGen (LegalStep memsetS) ⟨z, []⟩ s) : NoFreeBuddies s.zone := by
  refine legal_run_noFreeBuddies run (Sound.init built) ?_
  obtain rfl : initZone allPages = z := by
    unfold mailboxMempoolInit at built
    grind
  exact initZone_noFreeBuddies allPages

theorem Sound.coalesced {strict : Prop} (sound : Sound strict s) (apart : NoFreeBuddies s.zone) :
    Coalesced gMaxOder (fun p => headOrder (s.zone.pages p)) (Held s.live) := by
  intro p k below hp hb
  by_contra free
  rw [not_or] at free
  exact apart k p below ((sound.pool.listed k p).mpr ⟨headOrder_eq_some.mp hp, free.1⟩)
    ((sound.pool.listed k _).mpr ⟨headOrder_eq_some.mp hb, free.2⟩)

/-- Two coalesced pools with the same live blocks have the same blocks on each list. -/
theorem Sound.freeAreas_subset {strict strict' : Prop} (sound : Sound strict s)
    (sound' : Sound strict' s') (apart : NoFreeBuddies s.zone) (apart' : NoFreeBuddies s'.zone)
    (same : ∀ b, b ∈ s.live ↔ b ∈ s'.live) {k p : Nat} (hp : p ∈ s.zone.freeAreas k) :
    p ∈ s'.zone.freeAreas k := by
  have held : Held s'.live = Held s.live := by
    funext q
    simp only [Held, same]
  have heads : ∀ q, Held s.live q →
      headOrder (s.zone.pages q) = headOrder (s'.zone.pages q) := by
    rintro q ⟨b, hb, rfl⟩
    rw [sound.head hb, sound'.head ((same b).mp hb)]
  obtain ⟨order, free⟩ := (sound.pool.listed k p).mp hp
  have coalesced' := sound'.coalesced apart'
  rw [held] at coalesced'
  have head' := sound.pool.tiles.free_of_free sound'.pool.tiles (sound.coalesced apart) coalesced'
    heads (headOrder_eq_some.mpr order) free
  exact (sound'.pool.listed k p).mpr ⟨headOrder_eq_some.mp head', held ▸ free⟩

theorem Sound.freeAreas_perm {strict strict' : Prop} (sound : Sound strict s)
    (sound' : Sound strict' s') (apart : NoFreeBuddies s.zone) (apart' : NoFreeBuddies s'.zone)
    (same : ∀ b, b ∈ s.live ↔ b ∈ s'.live) (k : Nat) :
    (s.zone.freeAreas k).Perm (s'.zone.freeAreas k) := by
  refine (List.perm_ext_iff_of_nodup (sound.pool.nodup k) (sound'.pool.nodup k)).mpr fun p => ?_
  constructor
  · exact sound.freeAreas_subset sound' apart apart' same
  · exact sound'.freeAreas_subset sound apart' apart fun b => (same b).symm

end Runs

/-- After any allocations and frees of live blocks no two buddies are both free, so that the
free blocks depend on the live blocks only; without live blocks the pool is one block. -/
theorem pool_coalesced (memsetS : Nat → Nat → Nat) {zoneOk registerErr : Bool}
    {allPages : Nat} {z : MbZone} {s : MbState}
    (built : mailboxMempoolInit zoneOk allPages registerErr = some z)
    (run : Relation.ReflTransGen (LegalStep memsetS) ⟨z, []⟩ s) :
    (∀ k p, k < gMaxOder → p ∈ s.zone.freeAreas k → p ^^^ 2 ^ k ∉ s.zone.freeAreas k) ∧
    (∀ (memsetS' : Nat → Nat → Nat) (zoneOk' registerErr' : Bool) (allPages' : Nat) (z' : MbZone)
      (s' : MbState), mailboxMempoolInit zoneOk' allPages' registerErr' = some z' →
      Relation.ReflTransGen (LegalStep memsetS') ⟨z', []⟩ s' →
      (∀ b, b ∈ s.live ↔ b ∈ s'.live) →
      ∀ k, (s.zone.freeAreas k).Perm (s'.zone.freeAreas k)) ∧
    (s.live = [] → s.zone.freeAreas = update (fun _ => []) gMaxOder [0]) := by
  have sound := legal_run_sound run (Sound.init built)
  have apart := reachable_noFreeBuddies built run
  refine ⟨apart, fun memsetS' zoneOk' registerErr' allPages' z' s' built' run' same k => ?_,
    fun empty => ?_⟩
  · exact sound.freeAreas_perm (legal_run_sound run' (Sound.init built')) apart
      (reachable_noFreeBuddies built' run') same k
  · have start : mailboxMempoolInit true 1 false = some (initZone 1) := rfl
    have fresh : Sound False ⟨initZone 1, []⟩ := Sound.init start
    funext k
    have perm := sound.freeAreas_perm fresh apart (initZone_noFreeBuddies 1) (by simp [empty]) k
    by_cases hk : k = gMaxOder
    · subst hk
      simpa [initZone] using perm
    · simpa [initZone, hk] using perm

/-- Two blocks are allocated and freed in the order in which they were given. -/
theorem pool_coalesced_two_blocks :
    ∃ s, Relation.ReflTransGen (LegalStep fun _ _ => 0) ⟨initZone 16, []⟩ s ∧ s.live = [] ∧
      s.zone.freeAreas = update (fun _ => []) gMaxOder [0] := by
  let s₁ := mbStep (fun _ _ => 0) ⟨initZone 16, []⟩ (.alloc 5000 0)
  let s₂ := mbStep (fun _ _ => 0) s₁ (.alloc 4096 0)
  let s₃ := mbStep (fun _ _ => 0) s₂ (.free (blockAddr s₂ ⟨0, 1⟩))
  let s₄ := mbStep (fun _ _ => 0) s₃ (.free (blockAddr s₃ ⟨2, 0⟩))
  have first : (⟨0, 1⟩ : Block) ∈ s₂.live := by decide +kernel
  have second : (⟨2, 0⟩ : Block) ∈ s₃.live := by decide +kernel
  have empty : s₄.live = [] := by decide +kernel
  have run : Relation.ReflTransGen (LegalStep fun _ _ => 0) ⟨initZone 16, []⟩ s₄ :=
    (((Relation.ReflTransGen.single (.alloc _ 5000 0)).tail (.alloc s₁ 4096 0)).tail
      (.free s₂ ⟨0, 1⟩ first)).tail (.free s₃ ⟨2, 0⟩ second)
  have built : mailboxMempoolInit true 16 false = some (initZone 16) := rfl
  exact ⟨s₄, run, empty, (pool_coalesced (fun _ _ => 0) built run).2.2 empty⟩

section Complete

variable {z : MbZone} {order i : Nat}

/-- The search loop comes back without a block only when it has seen every list empty. -/
theorem takeFrom_eq_none_iff (n : Nat) :
    takeFrom z order i n = none ↔ ∀ l, i ≤ l → l < i + n → z.freeAreas l = [] := by
  induction n generalizing i with
  | zero =>
    simp only [takeFrom, true_iff]
    intro l h1 h2
    omega
  | succ n ih =>
    rw [takeFrom]
    split
    · rename_i empty
      rw [ih]
      constructor
      · intro rest l h1 h2
        by_cases hl : l = i
        · rw [hl, empty]
        · exact rest l (by omega) (by omega)
      · intro all l h1 h2
        exact all l (by omega) (by omega)
    · rename_i pos rest nonempty
      constructor
      · intro h
        cases h
      · intro all
        have empty := all i (Nat.le_refl i) (by omega)
        rw [nonempty] at empty
        cases empty

/-- The aligned run of `2 ^ k` pages from `p` on lies in the pool and meets no live block. -/
def FreeRun (live : List Block) (k p : Nat) : Prop :=
  2 ^ k ∣ p ∧ p + 2 ^ k ≤ mailboxPageMax ∧ ∀ b ∈ live, ∀ i, Covers p k i → ¬ Covers b.page b.order i

variable {strict : Prop} {s : MbState}

/-- A block on a list of order at least `k` starts with a free run of order `k`. -/
theorem Sound.freeRun_of_listed (sound : Sound strict s) {k l p : Nat} (hkl : k ≤ l)
    (listed : p ∈ s.zone.freeAreas l) : FreeRun s.live k p := by
  obtain ⟨order, unheld⟩ := (sound.pool.listed l p).mp listed
  have head : headOrder (s.zone.pages p) = some l := headOrder_eq_some.mpr order
  have inside := sound.pool.tiles.inside p l head
  have hpow := Nat.pow_le_pow_right (show 0 < 2 by decide) hkl
  refine ⟨(Nat.pow_dvd_pow 2 hkl).trans (sound.pool.tiles.aligned p l head), ?_, ?_⟩
  · rw [mailboxPageMax_eq]
    omega
  · intro b hb i hi hbi
    have same := sound.pool.tiles.unique p l b.page b.order i head (sound.head hb)
      ⟨hi.1, by have := hi.2; omega⟩ hbi
    exact unheld ⟨b, hb, same.symm⟩

/-- A free run of a coalesced pool lies in one listed block, of its order at least. -/
theorem Sound.listed_of_freeRun (sound : Sound strict s) (apart : NoFreeBuddies s.zone)
    {k p : Nat} (free : FreeRun s.live k p) :
    ∃ l q, k ≤ l ∧ l ≤ gMaxOder ∧ q ∈ s.zone.freeAreas l := by
  obtain ⟨aligned, inside, disjoint⟩ := free
  rw [mailboxPageMax_eq] at inside
  have unheld : ∀ i q l, Covers p k i → headOrder (s.zone.pages q) = some l →
      Covers q l i → ¬ Held s.live q := by
    rintro i q l hi hq hc ⟨b, hb, rfl⟩
    obtain rfl : b.order = l := Option.some.inj ((sound.head hb).symm.trans hq)
    exact disjoint b hb i hi hc
  obtain ⟨q, l, hq, freeQ, low, high⟩ :=
    sound.pool.tiles.exists_free (sound.coalesced apart) aligned inside unheld
  have hpow : 2 ^ k ≤ 2 ^ l := by omega
  exact ⟨l, q, (Nat.pow_le_pow_iff_right (by decide)).mp hpow, sound.pool.tiles.order_le hq,
    (sound.pool.listed l q).mpr ⟨headOrder_eq_some.mp hq, freeQ⟩⟩

/-- A request that fits is served exactly when the list of its order or a larger one holds a
block. -/
theorem Sound.mailboxAlloc_given_iff (sound : Sound strict s) {memsetS : Nat → Nat → Nat}
    (zeroes : ∀ n, 0 < n → n ≤ mailboxPoolSize → memsetS n n = 0) {size : Nat} (flag : Nat)
    (nonzero : size ≠ 0) (small : getOrder (align4K size) ≤ gMaxOder) :
    (∃ addr z', addr ≠ 0 ∧ mailboxAlloc memsetS s.zone size flag = (some addr, z')) ↔
      ∃ l q, getOrder (align4K size) ≤ l ∧ l ≤ gMaxOder ∧ q ∈ s.zone.freeAreas l := by
  have zeroed : memsetS (align4K size) (align4K size) = 0 :=
    zeroes _ (align4K_pos small) (align4K_le_pool small)
  unfold mailboxAlloc
  rw [if_neg nonzero, if_neg (Nat.not_lt.mpr small)]
  cases found : takeFrom s.zone (getOrder (align4K size)) (getOrder (align4K size))
      (gMaxOder + 1 - getOrder (align4K size)) with
  | none =>
    rw [takeFrom_eq_none_iff] at found
    simp only [Prod.mk.injEq, reduceCtorEq, false_and, and_false, exists_false, false_iff]
    rintro ⟨l, q, low, high, listed⟩
    rw [found l low (by omega)] at listed
    cases listed
  | some taken =>
    obtain ⟨pos, z'⟩ := taken
    have mapped := (sound.take found).1.mapped
    simp only [zeroed, ne_eq, not_true_eq_false, and_false, if_false]
    have served : ∃ addr z'', addr ≠ 0 ∧
        (some (pageAddress (z'.allPages + pos)), z') = (some addr, z'') := by
      refine ⟨pageAddress (z'.allPages + pos), z', ?_, rfl⟩
      have page : 0 < z'.allPages + pos := Nat.add_pos_left mapped pos
      exact (Nat.mul_pos page (Nat.two_pow_pos pageShift)).ne'
    refine iff_of_true served ?_
    by_contra unlisted
    have empty : takeFrom s.zone (getOrder (align4K size)) (getOrder (align4K size))
        (gMaxOder + 1 - getOrder (align4K size)) = none := by
      rw [takeFrom_eq_none_iff]
      intro l low high
      refine List.eq_nil_iff_forall_not_mem.mpr fun q listed => ?_
      exact unlisted ⟨l, q, low, by omega, listed⟩
    rw [found] at empty
    cases empty

end Complete

/-- After any allocations and frees of live blocks, a request that fits the pool is served
exactly when an aligned run of its order is free. -/
theorem mailboxAlloc_complete (memsetS : Nat → Nat → Nat)
    (zeroes : ∀ n, 0 < n → n ≤ mailboxPoolSize → memsetS n n = 0)
    {zoneOk registerErr : Bool} {allPages : Nat} {z : MbZone} {s : MbState}
    (built : mailboxMempoolInit zoneOk allPages registerErr = some z)
    (run : Relation.ReflTransGen (LegalStep memsetS) ⟨z, []⟩ s) (size : UInt64) (flag : UInt32)
    (nonzero : 0 < size) (small : getOrder (align4K size.toNat) ≤ gMaxOder) :
    (∃ addr z', addr ≠ 0 ∧ mailboxAlloc memsetS s.zone size.toNat flag.toNat = (some addr, z')) ↔
      ∃ p, FreeRun s.live (getOrder (align4K size.toNat)) p := by
  have sound := legal_run_sound run (Sound.init built)
  have apart := reachable_noFreeBuddies built run
  have hsize : size.toNat ≠ 0 := by
    have := UInt64.lt_iff_toNat_lt.mp nonzero
    simpa using this.ne'
  rw [sound.mailboxAlloc_given_iff zeroes _ hsize small]
  constructor
  · rintro ⟨l, q, low, -, listed⟩
    exact ⟨q, sound.freeRun_of_listed low listed⟩
  · rintro ⟨p, free⟩
    exact sound.listed_of_freeRun apart free

/-- With one page taken, the upper half of the pool serves a request for half of it. -/
theorem mailboxAlloc_complete_half :
    ∃ s, Relation.ReflTransGen (LegalStep fun _ _ => 0) ⟨initZone 16, []⟩ s ∧
      s.live = [⟨0, 0⟩] ∧
      ∃ addr z', addr ≠ 0 ∧ mailboxAlloc (fun _ _ => 0) s.zone 2097152 1 = (some addr, z') := by
  let s₁ := mbStep (fun _ _ => 0) ⟨initZone 16, []⟩ (.alloc 4096 0)
  have run : Relation.ReflTransGen (LegalStep fun _ _ => 0) ⟨initZone 16, []⟩ s₁ :=
    Relation.ReflTransGen.single (.alloc _ 4096 0)
  have live : s₁.live = [⟨0, 0⟩] := by decide +kernel
  have built : mailboxMempoolInit true 16 false = some (initZone 16) := rfl
  have order : getOrder (align4K (2097152 : UInt64).toNat) = 9 := by decide +kernel
  refine ⟨s₁, run, live, (mailboxAlloc_complete (fun _ _ => 0) (fun _ _ _ => rfl) built run
    2097152 1 (by decide) (by decide +kernel)).mpr ⟨512, ?_⟩⟩
  rw [order, live]
  refine ⟨⟨1, rfl⟩, by decide, ?_⟩
  intro b hb i hi hc
  obtain rfl := List.mem_singleton.mp hb
  have first : i < 0 + 2 ^ 0 := hc.2
  have high := hi.1
  omega

end MailboxPool
