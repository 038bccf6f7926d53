import Tzdriver.SharedMemory

/-!
# The page offset as the index of shared memory

`find_sharedmem` takes `vm_pgoff` for the index of a buffer. The index is stored in an `atomic_t`
and read back into a comparison with an `unsigned long`, so it comes back as the sign extension of
its lower half. A page offset is such an extension if it is below 2³¹ or at least 2⁶⁴ - 2³¹, and
exactly these identify the buffer that was made for them.
-/

namespace SharedMemory

open Function

section Index

variable {Op : Type*}

/-- The page offset comes back from an `atomic_t` as it was. -/
def Canonical (pgoff : BitVec 64) : Prop := (pgoff.setWidth 32).signExtend 64 = pgoff

instance (pgoff : BitVec 64) : Decidable (Canonical pgoff) :=
  inferInstanceAs (Decidable (_ = _))

/-- The buffer that a successful `tc_client_mmap` maps. -/
def mmapYields (s : State Op) (vma : Vma) (addr : Option Nat) (remap : Int) : Option Nat :=
  if remap ≠ 0 then none else (findSharedmem s vma addr).map fun r => r.1

/-- The device with the page offset and the buffer of each successful mmap so far. -/
structure Logged (Op : Type*) where
  dev : State Op := {}
  yields : List (BitVec 64 × Nat) := []

/-- An action that is not enabled changes nothing. -/
def Logged.step [DecidableEq Op] (l : Logged Op) (act : Act Op) : Logged Op where
  dev := (SharedMemory.step l.dev act).getD l.dev
  yields :=
    match act with
    | .mmap vma addr remap =>
      ((mmapYields l.dev vma addr remap).map fun id => (vma.pgoff, id)).toList ++ l.yields
    | _ => l.yields

/-- The page offset identifies one buffer: `again` is the second mmap of a buffer that its first
user still has mapped. -/
structure Identifies (l : Logged Op) : Prop where
  apart : ∀ p q id, (p, id) ∈ l.yields → (q, id) ∈ l.yields → p = q
  again : ∀ p id shm, (p, id) ∈ l.yields → l.dev.heap id = some shm →
    shm.userAddr ≠ invalidMapAddr → shm.userAddrCa = invalidMapAddr → ∀ vma addr, vma.pgoff = p →
      vma.len = shm.len →
        findSharedmem l.dev vma addr = some (id, true, getSharememStruct l.dev id)
  unique : ∀ p i j, i ∈ l.dev.list → j ∈ l.dev.list → hasOffset l.dev p i = true →
    hasOffset l.dev p j = true → i = j

/-- A mmap that makes a new buffer has a page offset that comes back as it was. -/
def NewCanonical (l : Logged Op) : Act Op → Prop
  | .mmap vma addr remap =>
    remap = 0 → ∀ id s, findSharedmem l.dev vma addr = some (id, false, s) → Canonical vma.pgoff
  | _ => True

/-! ### What the operations keep -/

/-- The buffers keep their offsets, and the list has no new ones on it and all that are mapped. -/
structure Keeps (s s' : State Op) : Prop where
  offset : ∀ id shm', s'.heap id = some shm' → ∃ shm, s.heap id = some shm ∧ shm'.offset = shm.offset
  sub : s'.list.Sublist s.list
  mapped : (∀ id shm, s.heap id = some shm → unmapped shm = false → id ∈ s.list) →
    ∀ id shm, s'.heap id = some shm → unmapped shm = false → id ∈ s'.list
  nextId : s.nextId ≤ s'.nextId

variable {s s' s'' : State Op} {id : Nat} {shm shm' : Shm}

theorem Keeps.refl (s : State Op) : Keeps s s :=
  ⟨fun _ shm live => ⟨shm, live, rfl⟩, List.Sublist.refl _, fun h => h, le_rfl⟩

theorem Keeps.trans (first : Keeps s s') (second : Keeps s' s'') : Keeps s s'' := by
  refine ⟨?_, second.sub.trans first.sub, fun h => second.mapped (first.mapped h),
    first.nextId.trans second.nextId⟩
  intro id shm'' live
  obtain ⟨shm', live', same'⟩ := second.offset id shm'' live
  obtain ⟨shm, live, same⟩ := first.offset id shm' live'
  exact ⟨shm, live, same'.trans same⟩

/-- Only bookkeeping that `Keeps` does not mention differs. -/
theorem Keeps.of_eq (heap : s'.heap = s.heap) (list : s'.list = s.list)
    (nextId : s'.nextId = s.nextId) : Keeps s s' := by
  refine ⟨?_, ?_, ?_, nextId.ge⟩
  · rw [heap]
    exact (Keeps.refl s).offset
  · rw [list]
  · rw [heap, list]
    exact fun h => h

/-- A buffer that is on the list, or whose mapped fields were mapped before, is written. -/
theorem Keeps.set (live : s.heap id = some shm) (offset : shm'.offset = shm.offset)
    (listed : unmapped shm' = false → unmapped shm = false ∨ id ∈ s.list) :
    Keeps s (s.set id shm') := by
  refine ⟨?_, List.Sublist.refl _, ?_, le_rfl⟩
  · intro i obj hobj
    by_cases hi : i = id
    · subst hi
      simp only [State.set, update_self, Option.some.injEq] at hobj
      exact ⟨shm, live, hobj ▸ offset⟩
    · simp only [State.set, update_of_ne hi] at hobj
      exact ⟨obj, hobj, rfl⟩
  · intro before i obj hobj mapped
    by_cases hi : i = id
    · subst hi
      simp only [State.set, update_self, Option.some.injEq] at hobj
      rw [← hobj] at mapped
      rcases listed mapped with was | mem
      · exact before i shm live was
      · exact mem
    · simp only [State.set, update_of_ne hi] at hobj
      exact before i obj hobj mapped

theorem Keeps.free (s : State Op) (id : Nat) : Keeps s (tcMemFree s id) := by
  have there : ∀ i obj, (tcMemFree s id).heap i = some obj → s.heap i = some obj := by
    intro i obj hobj
    by_cases hi : i = id
    · simp [tcMemFree, hi] at hobj
    · simpa only [tcMemFree, update_of_ne hi] using hobj
  exact ⟨fun i obj hobj => ⟨obj, there i obj hobj, rfl⟩, List.Sublist.refl _,
    fun before i obj hobj => before i obj (there i obj hobj), le_rfl⟩

theorem Keeps.get (s : State Op) (id : Nat) : Keeps s (getSharememStruct s id) := by
  unfold getSharememStruct
  split
  · exact .of_eq rfl rfl rfl
  · rename_i shm live
    exact .set live rfl fun mapped => Or.inl mapped

theorem Keeps.put (s : State Op) (id : Nat) : Keeps s (putSharememStruct s id) := by
  unfold putSharememStruct
  split
  · exact .of_eq rfl rfl rfl
  · rename_i shm live
    split
    · exact .of_eq rfl rfl rfl
    · exact .free s id
    · exact .set live rfl fun mapped => Or.inl mapped

theorem releaseFields_offset (shm : Shm) (a : Nat) : (releaseFields shm a).1.offset = shm.offset := by
  unfold releaseFields
  split
  · rfl
  · split <;> rfl

theorem releaseFields_mapped {a : Nat} (mapped : unmapped (releaseFields shm a).1 = false) :
    unmapped shm = false := by
  unfold releaseFields at mapped
  simp only [unmapped] at mapped ⊢
  grind

/-- Taking an unmapped buffer off the list. -/
theorem Keeps.erase (live : s.heap id = some shm) (gone : unmapped shm = true) :
    Keeps s { s with list := s.list.erase id } := by
  refine ⟨fun i obj hobj => ⟨obj, hobj, rfl⟩, List.erase_sublist, ?_, le_rfl⟩
  intro before i obj hobj mapped
  have other : i ≠ id := by
    rintro rfl
    rw [live, Option.some.injEq] at hobj
    simp [← hobj, gone] at mapped
  exact (List.mem_erase_of_ne other).mpr (before i obj hobj mapped)

theorem Keeps.release (a : Nat) (l : List Nat) (s : State Op) :
    Keeps s (releaseVmaSharedMem a l s) := by
  induction l generalizing s with
  | nil => exact .refl s
  | cons id rest ih =>
    rw [releaseVmaSharedMem]
    split
    · exact .of_eq rfl rfl rfl
    · rename_i shm live
      have written : Keeps s (s.set id (releaseFields shm a).1) :=
        .set live (releaseFields_offset shm a) fun mapped => Or.inl (releaseFields_mapped mapped)
      have unlinked : Keeps s (if unmapped (releaseFields shm a).1
          then { s.set id (releaseFields shm a).1 with
            list := (s.set id (releaseFields shm a).1).list.erase id }
          else s.set id (releaseFields shm a).1) := by
        split
        · rename_i gone
          exact written.trans (.erase (update_self ..) gone)
        · exact written
      simp only
      split
      · exact unlinked.trans (.put _ id)
      · exact unlinked.trans (ih _)

/-! ### The index of each buffer -/

/-- The state after a new buffer was mapped. -/
def create (s : State Op) (vma : Vma) (kernelAddr len : Nat) : State Op :=
  { s with
    heap := update s.heap s.nextId (some
      { kernelAddr := kernelAddr, userAddr := vma.start, len := len, usage := 1
        offset := vma.pgoff.setWidth 32 })
    nextId := s.nextId + 1
    list := s.list ++ [s.nextId]
    mapping := update s.mapping vma.start (some (s.nextId, .user)) }

/-- A mmap fails, maps the first buffer on the list with its page offset, or makes a new one. -/
inductive Mmapped (s : State Op) (vma : Vma) (addr : Option Nat) (remap : Int) : Prop where
  | failed (yields : mmapYields s vma addr remap = none)
      (keeps : Keeps s (tcClientMmap s vma addr remap).2)
  | again (id : Nat) (found : s.list.find? (hasOffset s vma.pgoff) = some id)
      (yields : mmapYields s vma addr remap = some id)
      (keeps : Keeps s (tcClientMmap s vma addr remap).2)
  | new (missing : s.list.find? (hasOffset s vma.pgoff) = none) (remapped : remap = 0)
      (found : ∃ s', findSharedmem s vma addr = some (s.nextId, false, s'))
      (yields : mmapYields s vma addr remap = some s.nextId)
      (created : ∃ kernelAddr len, (tcClientMmap s vma addr remap).2 = create s vma kernelAddr len)

theorem hasOffset_iff {pgoff : BitVec 64} :
    hasOffset s pgoff id = true ↔ ∃ shm, s.heap id = some shm ∧ shm.offset.signExtend 64 = pgoff := by
  unfold hasOffset
  cases s.heap id <;> simp

theorem tcMemAllocate_some {len : Nat} {addr : Option Nat} {r : Nat × State Op}
    (allocated : tcMemAllocate s len addr = some r) :
    ∃ kernelAddr len, r = (s.nextId,
      { s.set s.nextId { kernelAddr := kernelAddr, len := len } with nextId := s.nextId + 1 }) := by
  unfold tcMemAllocate at allocated
  simp only at allocated
  split at allocated
  · cases allocated
  · split at allocated
    · cases allocated
    · cases allocated
      exact ⟨_, _, rfl⟩

/-- A new buffer that cannot be mapped is freed again. -/
theorem Keeps.undone (s : State Op) (shm : Shm) :
    Keeps s (tcMemFree { s.set s.nextId shm with nextId := s.nextId + 1 } s.nextId) := by
  have there : ∀ i obj,
      (tcMemFree { s.set s.nextId shm with nextId := s.nextId + 1 } s.nextId).heap i = some obj →
        s.heap i = some obj := by
    intro i obj hobj
    by_cases hi : i = s.nextId
    · simp [tcMemFree, hi] at hobj
    · simpa only [tcMemFree, State.set, update_of_ne hi] using hobj
  exact ⟨fun i obj hobj => ⟨obj, there i obj hobj, rfl⟩, List.Sublist.refl _,
    fun before i obj hobj => before i obj (there i obj hobj), Nat.le_succ _⟩

theorem mmapped (s : State Op) (vma : Vma) (addr : Option Nat) (remap : Int) :
    Mmapped s vma addr remap := by
  cases found : s.list.find? (hasOffset s vma.pgoff) with
  | some id =>
    obtain ⟨shm, live, -⟩ := hasOffset_iff.mp (List.find?_some found)
    have mem := List.mem_of_find?_eq_some found
    by_cases refused : shm.userAddrCa ≠ invalidMapAddr ∨ vma.len ≠ shm.len
    · have nothing : findSharedmem s vma addr = none := by
        simp only [findSharedmem, found, live, if_pos refused]
      refine .failed ?_ ?_
      · simp [mmapYields, nothing]
      · simp only [tcClientMmap, nothing]
        exact .refl s
    · have same : findSharedmem s vma addr = some (id, true, getSharememStruct s id) := by
        simp only [findSharedmem, found, live, if_neg refused]
      by_cases failed : remap ≠ 0
      · refine .failed (by simp [mmapYields, failed]) ?_
        simp only [tcClientMmap, same, if_pos failed, if_true]
        exact (Keeps.get s id).trans (.put _ id)
      · refine .again id found (by simp [mmapYields, failed, same]) ?_
        simp only [tcClientMmap, same, if_neg failed, mapShared]
        have got : (getSharememStruct s id).heap id = some { shm with usage := shm.usage + 1 } := by
          simp [getSharememStruct, live, State.set]
        have list : id ∈ (getSharememStruct s id).list := by
          simpa [getSharememStruct, live, State.set] using mem
        have written : Keeps (getSharememStruct s id) ((getSharememStruct s id).set id
            { shm with usage := shm.usage + 1, userAddrCa := vma.start }) :=
          .set got rfl fun _ => Or.inr list
        simp only [got, if_true]
        exact (Keeps.get s id).trans (written.trans (.of_eq rfl rfl rfl))
  | none =>
    have search : findSharedmem s vma addr =
        (tcMemAllocate s vma.len addr).map fun r => (r.1, false, r.2) := by
      simp only [findSharedmem, found]
    cases allocated : tcMemAllocate s vma.len addr with
    | none =>
      rw [allocated, Option.map_none] at search
      refine .failed (by simp [mmapYields, search]) ?_
      simp only [tcClientMmap, search]
      exact .refl s
    | some r =>
      obtain ⟨kernelAddr, len, rfl⟩ := tcMemAllocate_some allocated
      rw [allocated, Option.map_some] at search
      by_cases failed : remap ≠ 0
      · refine .failed (by simp [mmapYields, failed]) ?_
        simp only [tcClientMmap, search, if_pos failed, Bool.false_eq_true, if_false]
        exact .undone s _
      · rw [not_not] at failed
        refine .new found failed ⟨_, search⟩ (by simp [mmapYields, failed, search])
          ⟨kernelAddr, len, ?_⟩
        simp [tcClientMmap, search, failed, mapShared, State.set, getSharememStruct, create]

/-- Each buffer of a mmap carries the page offset it was made for, and no two buffers on the list
carry the same. -/
structure Indexed (l : Logged Op) : Prop where
  heapFresh : ∀ id shm, l.dev.heap id = some shm → id < l.dev.nextId
  listFresh : ∀ id ∈ l.dev.list, id < l.dev.nextId
  yieldFresh : ∀ p id, (p, id) ∈ l.yields → id < l.dev.nextId
  listed : ∀ id shm, l.dev.heap id = some shm → unmapped shm = false → id ∈ l.dev.list
  key : ∀ p id shm, (p, id) ∈ l.yields → l.dev.heap id = some shm → shm.offset.signExtend 64 = p
  apart : ∀ p q id, (p, id) ∈ l.yields → (q, id) ∈ l.yields → p = q
  unique : ∀ p i j, i ∈ l.dev.list → j ∈ l.dev.list → hasOffset l.dev p i = true →
    hasOffset l.dev p j = true → i = j

variable {l : Logged Op} {vma : Vma} {pgoff : BitVec 64}

theorem Indexed.start : Indexed ({} : Logged Op) :=
  ⟨nofun, nofun, nofun, nofun, nofun, nofun, nofun⟩

theorem Keeps.hasOffset (keeps : Keeps s s') (has : hasOffset s' pgoff id = true) :
    hasOffset s pgoff id = true := by
  obtain ⟨shm', live', at'⟩ := hasOffset_iff.mp has
  obtain ⟨shm, live, same⟩ := keeps.offset id shm' live'
  exact hasOffset_iff.mpr ⟨shm, live, same ▸ at'⟩

theorem Indexed.keep (inv : Indexed l) (keeps : Keeps l.dev s') : Indexed ⟨s', l.yields⟩ := by
  refine ⟨?_, ?_, ?_, keeps.mapped inv.listed, ?_, inv.apart, ?_⟩
  · intro id shm' live'
    obtain ⟨shm, live, -⟩ := keeps.offset id shm' live'
    exact (inv.heapFresh id shm live).trans_le keeps.nextId
  · exact fun id mem => (inv.listFresh id (keeps.sub.subset mem)).trans_le keeps.nextId
  · exact fun p id mem => (inv.yieldFresh p id mem).trans_le keeps.nextId
  · intro p id shm' mem live'
    obtain ⟨shm, live, same⟩ := keeps.offset id shm' live'
    rw [same]
    exact inv.key p id shm mem live
  · intro p i j hi hj atI atJ
    exact inv.unique p i j (keeps.sub.subset hi) (keeps.sub.subset hj) (keeps.hasOffset atI)
      (keeps.hasOffset atJ)

theorem apart_cons {yields : List (BitVec 64 × Nat)}
    (apart : ∀ p q i, (p, i) ∈ yields → (q, i) ∈ yields → p = q)
    (same : ∀ q, (q, id) ∈ yields → q = pgoff) (p q : BitVec 64) (i : Nat)
    (memP : (p, i) ∈ (pgoff, id) :: yields) (memQ : (q, i) ∈ (pgoff, id) :: yields) : p = q := by
  rcases List.mem_cons.mp memP with newP | memP
  · cases newP
    rcases List.mem_cons.mp memQ with newQ | memQ
    · cases newQ
      rfl
    · exact (same q memQ).symm
  · rcases List.mem_cons.mp memQ with newQ | memQ
    · cases newQ
      exact same p memP
    · exact apart p q i memP memQ

/-- A mmap that finds a buffer finds the one that was made for its page offset. -/
theorem Indexed.found (inv : Indexed l) (live : l.dev.heap id = some shm)
    (carries : shm.offset.signExtend 64 = pgoff) :
    Indexed ⟨l.dev, (pgoff, id) :: l.yields⟩ := by
  have old : ∀ q, (q, id) ∈ l.yields → q = pgoff := by
    intro q mem
    rw [← carries]
    exact (inv.key q id shm mem live).symm
  refine { inv with yieldFresh := ?_, key := ?_, apart := apart_cons inv.apart old }
  · intro p i mem
    rcases List.mem_cons.mp mem with same | mem
    · cases same
      exact inv.heapFresh id shm live
    · exact inv.yieldFresh p i mem
  · intro p i obj mem hobj
    rcases List.mem_cons.mp mem with same | mem
    · cases same
      rw [live, Option.some.injEq] at hobj
      exact hobj ▸ carries
    · exact inv.key p i obj mem hobj

theorem create_heap (s : State Op) (vma : Vma) (kernelAddr len : Nat) {shm : Shm} :
    (create s vma kernelAddr len).heap id = some shm →
      id = s.nextId ∧ shm.offset = vma.pgoff.setWidth 32 ∨ id ≠ s.nextId ∧ s.heap id = some shm := by
  intro live
  by_cases new : id = s.nextId
  · subst new
    simp only [create, update_self, Option.some.injEq] at live
    exact Or.inl ⟨rfl, by rw [← live]⟩
  · simp only [create, update_of_ne new] at live
    exact Or.inr ⟨new, live⟩

theorem create_list (s : State Op) (vma : Vma) (kernelAddr len : Nat)
    (mem : id ∈ (create s vma kernelAddr len).list) : id ∈ s.list ∨ id = s.nextId := by
  simpa [create] using mem

theorem create_hasOffset (canonical : Canonical vma.pgoff) (kernelAddr len : Nat)
    (has : hasOffset (create s vma kernelAddr len) pgoff id = true) :
    id = s.nextId ∧ pgoff = vma.pgoff ∨ id ≠ s.nextId ∧ hasOffset s pgoff id = true := by
  obtain ⟨shm, live, at'⟩ := hasOffset_iff.mp has
  rcases create_heap _ _ _ _ live with ⟨new, offset⟩ | ⟨old, live⟩
  · rw [offset] at at'
    exact Or.inl ⟨new, at'.symm.trans canonical⟩
  · exact Or.inr ⟨old, hasOffset_iff.mpr ⟨shm, live, at'⟩⟩

/-- A new buffer carries its page offset when that comes back as it was, and then no other buffer
on the list has it, since the search came before. -/
theorem Indexed.create (inv : Indexed l) (canonical : Canonical vma.pgoff)
    (missing : l.dev.list.find? (SharedMemory.hasOffset l.dev vma.pgoff) = none)
    (kernelAddr len : Nat) :
    Indexed ⟨SharedMemory.create l.dev vma kernelAddr len,
      (vma.pgoff, l.dev.nextId) :: l.yields⟩ := by
  have newYield : ∀ p, (p, l.dev.nextId) ∉ l.yields := fun p mem =>
    absurd (inv.yieldFresh p _ mem) (lt_irrefl _)
  refine ⟨?_, ?_, ?_, ?_, ?_, apart_cons inv.apart fun q mem => absurd mem (newYield q), ?_⟩
  · intro i shm live
    rcases create_heap _ _ _ _ live with ⟨rfl, -⟩ | ⟨-, live⟩
    · exact Nat.lt_succ_self _
    · exact (inv.heapFresh i shm live).trans (Nat.lt_succ_self _)
  · intro i mem
    rcases create_list _ _ _ _ mem with mem | rfl
    · exact (inv.listFresh i mem).trans (Nat.lt_succ_self _)
    · exact Nat.lt_succ_self _
  · intro p i mem
    rcases List.mem_cons.mp mem with same | mem
    · cases same
      exact Nat.lt_succ_self _
    · exact (inv.yieldFresh p i mem).trans (Nat.lt_succ_self _)
  · intro i shm live mapped
    rcases create_heap _ _ _ _ live with ⟨rfl, -⟩ | ⟨-, live⟩
    · simp [SharedMemory.create]
    · exact List.mem_append_left _ (inv.listed i shm live mapped)
  · intro p i shm mem live
    rcases create_heap _ _ _ _ live with ⟨rfl, offset⟩ | ⟨old, live⟩
    · rcases List.mem_cons.mp mem with same | mem
      · cases same
        rw [offset]
        exact canonical
      · exact absurd mem (newYield p)
    · rcases List.mem_cons.mp mem with same | mem
      · cases same
        exact absurd rfl old
      · exact inv.key p i shm mem live
  · -- a buffer that was on the list does not have the page offset of the new one
    have apart : ∀ {p i j}, i ∈ (SharedMemory.create l.dev vma kernelAddr len).list →
        SharedMemory.hasOffset l.dev p i = true → i ≠ l.dev.nextId →
          j = l.dev.nextId ∧ p = vma.pgoff → False := by
      rintro p i j mem has old ⟨-, rfl⟩
      rcases create_list _ _ _ _ mem with mem | new
      · exact (List.find?_eq_none.mp missing i mem) has
      · exact old new
    intro p i j hi hj atI atJ
    rcases create_hasOffset canonical kernelAddr len atI with newI | ⟨oldI, atI⟩
    · rcases create_hasOffset canonical kernelAddr len atJ with newJ | ⟨oldJ, atJ⟩
      · rw [newI.1, newJ.1]
      · exact (apart hj atJ oldJ newI).elim
    · rcases create_hasOffset canonical kernelAddr len atJ with newJ | ⟨oldJ, atJ⟩
      · exact (apart hi atI oldI newJ).elim
      · refine inv.unique p i j ((create_list _ _ _ _ hi).resolve_right oldI)
          ((create_list _ _ _ _ hj).resolve_right oldJ) atI atJ

theorem Indexed.identifies (inv : Indexed l) : Identifies l := by
  refine ⟨inv.apart, ?_, inv.unique⟩
  rintro p id shm mem live mapped free vma addr rfl len
  have there : unmapped shm = false := by simp [unmapped, mapped]
  have listed := inv.listed id shm live there
  have has : hasOffset l.dev vma.pgoff id = true :=
    hasOffset_iff.mpr ⟨shm, live, inv.key _ id shm mem live⟩
  cases found : l.dev.list.find? (hasOffset l.dev vma.pgoff) with
  | none => exact absurd has (List.find?_eq_none.mp found id listed)
  | some j =>
    obtain rfl : j = id := inv.unique _ j id (List.mem_of_find?_eq_some found) listed
      (List.find?_some found) has
    have accepted : ¬ (shm.userAddrCa ≠ invalidMapAddr ∨ vma.len ≠ shm.len) := by
      simp [free, len]
    simp only [findSharedmem, found, live, if_neg accepted]

section Runs

variable [DecidableEq Op] {act : Act Op}

theorem Keeps.step (act : Act Op) (notMmap : ∀ vma addr remap, act ≠ .mmap vma addr remap) :
    Keeps s ((SharedMemory.step s act).getD s) := by
  cases act with
  | mmap vma addr remap => exact absurd rfl (notMmap vma addr remap)
  | close vma =>
    rw [SharedMemory.step, Option.getD_some]
    exact (Keeps.release vma.start s.list s).trans (.of_eq rfl rfl rfl)
  | take o index param size mbAlloc =>
    rw [SharedMemory.step]
    split
    · split
      · exact .refl s
      · rename_i id _
        exact (Keeps.get s id).trans (.of_eq rfl rfl rfl)
    · exact .refl s
  | drop o index =>
    rw [SharedMemory.step]
    split
    · exact .refl s
    · rename_i id _
      exact (Keeps.put s id).trans (.of_eq rfl rfl rfl)

theorem Indexed.step (inv : Indexed l) (canonical : NewCanonical l act) :
    Indexed (l.step act) := by
  cases act with
  | mmap vma addr remap =>
    have dev : (SharedMemory.step l.dev (.mmap vma addr remap)).getD l.dev =
        (tcClientMmap l.dev vma addr remap).2 := rfl
    rw [Logged.step, dev]
    rcases mmapped l.dev vma addr remap with
      ⟨yields, keeps⟩ | ⟨id, found, yields, keeps⟩ |
        ⟨missing, remapped, ⟨s', new⟩, yields, kernelAddr, len, created⟩
    · simp only [yields]
      exact inv.keep keeps
    · obtain ⟨shm, live, carries⟩ := hasOffset_iff.mp (List.find?_some found)
      simp only [yields]
      exact (inv.found live carries).keep keeps
    · simp only [yields, created]
      exact inv.create (canonical remapped _ _ new) missing kernelAddr len
  | close | take | drop => exact inv.keep (Keeps.step _ nofun)

/-- The page offset of a new buffer has to come back as it was: otherwise the next mmap with it
would not find the buffer. -/
theorem newCanonical_of_identifies (after : Identifies (l.step act)) : NewCanonical l act := by
  cases act with
  | mmap vma addr remap =>
    intro remapped id s found
    rcases mmapped l.dev vma addr remap with
      ⟨yields, -⟩ | ⟨id', found', -, -⟩ | ⟨-, -, -, yields, kernelAddr, len, created⟩
    · simp [mmapYields, remapped, found] at yields
    · obtain ⟨shm, live, -⟩ := hasOffset_iff.mp (List.find?_some found')
      simp only [findSharedmem, found', live] at found
      split at found
      · cases found
      · cases found
    · have dev : (l.step (.mmap vma addr remap)).dev = create l.dev vma kernelAddr len := created
      have live : (create l.dev vma kernelAddr len).heap l.dev.nextId = some
          { kernelAddr := kernelAddr, userAddr := vma.start, len := len, usage := 1
            offset := vma.pgoff.setWidth 32 } := by
        simp [create]
      rw [← dev] at live
      have again := after.again vma.pgoff l.dev.nextId _ (by simp [Logged.step, yields]) live
        vma.valid rfl ⟨0, len, vma.pgoff, rfl⟩ none rfl rfl
      cases search : (l.step (.mmap vma addr remap)).dev.list.find?
          (hasOffset (l.step (.mmap vma addr remap)).dev vma.pgoff) with
      | none => simp [findSharedmem, search, tcMemAllocate] at again
      | some j =>
        obtain ⟨shm, liveJ, carries⟩ := hasOffset_iff.mp (List.find?_some search)
        simp only [findSharedmem, search, liveJ] at again
        split at again
        · cases again
        · cases again
          rw [live, Option.some.injEq] at liveJ
          rw [← liveJ] at carries
          exact carries
  | close | take | drop => trivial

/-- In a run on a new device the page offsets identify the buffers in every state exactly when
every new buffer is made for a page offset that comes back from an `atomic_t` as it was. -/
theorem pgoff_identifies_iff (acts : List (Act Op)) :
    (∀ before, before <+: acts → Identifies (before.foldl Logged.step ({} : Logged Op))) ↔
      ActionSystem.Along Logged.step NewCanonical ({} : Logged Op) acts := by
  have start : Indexed ({} : Logged Op) := Indexed.start
  generalize ({} : Logged Op) = l at start
  refine ActionSystem.forall_prefix_iff_along (P := Identifies) ?_ ?_ ?_ start acts
  · exact fun l inv => inv.identifies
  · exact fun l act inv canonical => inv.step canonical
  · exact fun l act _ after => newCanonical_of_identifies after

end Runs

/-- 2³² + 5 is stored as 5, so that the buffer made for it is found for 5 and not for itself. -/
theorem far_pgoff_shared :
    ¬ Identifies ([.mmap ⟨0x7000, 4096, 0x100000005, rfl⟩ (some 0xa000) 0,
      .mmap ⟨0x9000, 4096, 5, rfl⟩ (some 0xb000) 0].foldl Logged.step ({} : Logged Unit)) := by
  intro identifies
  have apart := identifies.apart 0x100000005 5 0 (by decide +kernel) (by decide +kernel)
  exact absurd apart (by decide)

end Index

end SharedMemory
