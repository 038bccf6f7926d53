import Tzdriver.RefLedger
import Tzdriver.SharedMemory

/-!
# The references to shared memory

The mappings and the parameters of the operations in flight are the references to an object, and
`usage` is their number. The fields `user_addr` and `user_addr_ca` are the areas that are
mapped, so that closing an area finds the object it belongs to and no other.
-/

namespace SharedMemory

open Function

section Books

variable {Op : Type*} {s s' : State Op}

def Shm.addr (shm : Shm) : Kind → Nat
  | .user => shm.userAddr
  | .ca => shm.userAddrCa

/-- A reference is a mapping or a parameter of an operation. -/
def holds (s : State Op) : Nat ⊕ (Op × Nat) → Option Nat
  | .inl a => (s.mapping a).map Prod.fst
  | .inr h => s.held h

def count (s : State Op) (id : Nat) : Option Nat := (s.heap id).map Shm.usage

/-- The fields of the objects are the areas that are mapped. -/
def Fields (heap : Nat → Option Shm) (mapping : Nat → Option (Nat × Kind)) : Prop :=
  ∀ id shm, heap id = some shm → ∀ kind a, a ≠ invalidMapAddr →
    (shm.addr kind = a ↔ mapping a = some (id, kind))

structure Inv (s : State Op) : Prop where
  ledger : RefLedger.Balanced (holds s) (count s)
  field : Fields s.heap s.mapping
  valid : s.mapping invalidMapAddr = none
  listed : ∀ id, id ∈ s.list ↔ ∃ shm, s.heap id = some shm ∧ unmapped shm = false
  nodup : s.list.Nodup
  alive : ∀ id shm, s.heap id = some shm → 0 < shm.usage
  fresh : ∀ id, s.nextId ≤ id → s.heap id = none
  once : ∀ id, s.frees id = if id < s.nextId ∧ s.heap id = none then 1 else 0
  sound : s.fault = false

section Fields

variable {heap : Nat → Option Shm} {mapping : Nat → Option (Nat × Kind)} {id a : Nat}
  {shm shm' : Shm} {kind : Kind}

theorem Fields.set (fields : Fields heap mapping) (live : heap id = some shm)
    (same : shm'.addr = shm.addr) : Fields (update heap id (some shm')) mapping := by
  intro i obj hobj k b hb
  by_cases hi : i = id
  · subst hi
    rw [update_self, Option.some.injEq] at hobj
    rw [← hobj, same]
    exact fields i shm live k b hb
  · rw [update_of_ne hi] at hobj
    exact fields i obj hobj k b hb

theorem Fields.remove (fields : Fields heap mapping) (id : Nat) :
    Fields (update heap id none) mapping := by
  intro i obj hobj k b hb
  by_cases hi : i = id
  · simp [hi] at hobj
  · rw [update_of_ne hi] at hobj
    exact fields i obj hobj k b hb

theorem Fields.alloc (fields : Fields heap mapping) (shm : Shm) (new : ∀ a kind, mapping a ≠ some (id, kind))
    (unset : ∀ kind, shm.addr kind = invalidMapAddr) :
    Fields (update heap id (some shm)) mapping := by
  intro i obj hobj k b hb
  by_cases hi : i = id
  · subst hi
    rw [update_self, Option.some.injEq] at hobj
    rw [← hobj, unset]
    exact iff_of_false (Ne.symm hb) (new b k)
  · rw [update_of_ne hi] at hobj
    exact fields i obj hobj k b hb

theorem Fields.map (fields : Fields heap mapping) (kind : Kind) (live : heap id = some shm)
    (unset : shm.addr kind = invalidMapAddr) (valid : a ≠ invalidMapAddr)
    (new : mapping a = none) (addr : shm'.addr = update shm.addr kind a) :
    Fields (update heap id (some shm')) (update mapping a (some (id, kind))) := by
  intro i obj hobj k b hb
  by_cases hba : b = a
  · subst hba
    rw [update_self, Option.some.injEq, Prod.mk.injEq]
    -- No field had the address before, so only the new one has it.
    have before : ∀ i obj k, heap i = some obj → obj.addr k ≠ b := by
      intro i obj k hobj heq
      have := (fields i obj hobj k b hb).1 heq
      simp [new] at this
    by_cases hi : i = id
    · subst hi
      rw [update_self, Option.some.injEq] at hobj
      rw [← hobj, addr]
      by_cases hk : k = kind
      · simp [hk]
      · simp [hk, Ne.symm hk, before i shm k live]
    · rw [update_of_ne hi] at hobj
      simp [before i obj k hobj, Ne.symm hi]
  · rw [update_of_ne hba]
    by_cases hi : i = id
    · subst hi
      rw [update_self, Option.some.injEq] at hobj
      rw [← hobj, addr, ← fields i shm live k b hb]
      by_cases hk : k = kind
      · simp [hk, unset, Ne.symm hba, Ne.symm hb]
      · simp [hk]
    · rw [update_of_ne hi] at hobj
      exact fields i obj hobj k b hb

theorem Fields.unmap (fields : Fields heap mapping) (live : heap id = some shm)
    (was : shm.addr kind = a) (valid : a ≠ invalidMapAddr)
    (addr : shm'.addr = update shm.addr kind invalidMapAddr) :
    Fields (update heap id (some shm')) (update mapping a none) := by
  have here := (fields id shm live kind a valid).1 was
  intro i obj hobj k b hb
  by_cases hba : b = a
  · subst hba
    simp only [update_self, reduceCtorEq, iff_false]
    by_cases hi : i = id
    · subst hi
      rw [update_self, Option.some.injEq] at hobj
      rw [← hobj, addr]
      by_cases hk : k = kind
      · simpa [hk] using Ne.symm hb
      · simpa [hk, fields i shm live k b hb, here] using Ne.symm hk
    · rw [update_of_ne hi] at hobj
      simpa [fields i obj hobj k b hb, here] using fun h => absurd h.symm hi
  · rw [update_of_ne hba]
    by_cases hi : i = id
    · subst hi
      rw [update_self, Option.some.injEq] at hobj
      rw [← hobj, addr, ← fields i shm live k b hb]
      by_cases hk : k = kind
      · subst hk
        rw [update_self, was]
        exact iff_of_false (Ne.symm hb) (Ne.symm hba)
      · simp [hk]
    · rw [update_of_ne hi] at hobj
      exact fields i obj hobj k b hb

end Fields

theorem Inv.start : Inv ({} : State Op) where
  ledger := .empty (by rintro (a | h) <;> rfl) (fun _ => rfl)
  field := by simp [Fields]
  valid := rfl
  listed := by simp
  nodup := List.nodup_nil
  alive := by simp
  fresh := fun _ _ => rfl
  once := by simp
  sound := rfl

theorem count_update {id : Nat} {o : Option Shm} (heap : s'.heap = update s.heap id o) :
    count s' = update (count s) id (o.map Shm.usage) := by
  funext i
  by_cases hi : i = id
  · subst hi
    simp [count, heap]
  · simp [count, heap, hi]

theorem holds_mapping {a : Nat} {o : Option (Nat × Kind)} [DecidableEq Op]
    (mapping : s'.mapping = update s.mapping a o) (held : s'.held = s.held) :
    holds s' = update (holds s) (.inl a) (o.map Prod.fst) := by
  funext r
  cases r with
  | inl b =>
    by_cases hb : b = a
    · subst hb
      simp [holds, mapping]
    · simp [holds, mapping, hb]
  | inr h => simp [holds, held]

theorem holds_held {h : Op × Nat} {o : Option Nat} [DecidableEq Op]
    (mapping : s'.mapping = s.mapping) (held : s'.held = update s.held h o) :
    holds s' = update (holds s) (.inr h) o := by
  funext r
  cases r with
  | inl b => simp [holds, mapping]
  | inr g =>
    by_cases hg : g = h
    · subst hg
      simp [holds, held]
    · simp [holds, held, hg]

theorem balanced_mapping {a id : Nat} {o : Option (Nat × Kind)} {obj : Option Shm} [DecidableEq Op]
    (mapping : s'.mapping = update s.mapping a o) (held : s'.held = s.held)
    (heap : s'.heap = update s.heap id obj)
    (ledger : RefLedger.Balanced (update (holds s) (.inl a) (o.map Prod.fst))
      (update (count s) id (obj.map Shm.usage))) : RefLedger.Balanced (holds s') (count s') := by
  rw [holds_mapping mapping held, count_update heap]
  exact ledger

theorem balanced_held {id : Nat} {h : Op × Nat} {o : Option Nat} {obj : Option Shm} [DecidableEq Op]
    (mapping : s'.mapping = s.mapping) (held : s'.held = update s.held h o)
    (heap : s'.heap = update s.heap id obj)
    (ledger : RefLedger.Balanced (update (holds s) (.inr h) o)
      (update (count s) id (obj.map Shm.usage))) : RefLedger.Balanced (holds s') (count s') := by
  rw [holds_held mapping held, count_update heap]
  exact ledger

theorem Inv.mem (inv : Inv s) {id : Nat} (mem : id ∈ s.list) : ∃ shm, s.heap id = some shm := by
  obtain ⟨shm, live, -⟩ := (inv.listed id).1 mem
  exact ⟨shm, live⟩

theorem Inv.mapping_valid (inv : Inv s) {a : Nat} {ref : Nat × Kind} (here : s.mapping a = some ref) :
    a ≠ invalidMapAddr := by
  rintro rfl
  simp [inv.valid] at here

/-- A mapped area belongs to a live object. -/
theorem Inv.mapping_live (inv : Inv s) {a id : Nat} {kind : Kind}
    (here : s.mapping a = some (id, kind)) : ∃ shm, s.heap id = some shm := by
  obtain ⟨k, counted⟩ := inv.ledger.valid (.inl a) id (by simp [holds, here])
  obtain ⟨shm, live, -⟩ := Option.map_eq_some_iff.1 counted
  exact ⟨shm, live⟩

theorem Inv.addr_of_mapping (inv : Inv s) {a id : Nat} {kind : Kind} {shm : Shm}
    (live : s.heap id = some shm) (here : s.mapping a = some (id, kind)) : shm.addr kind = a :=
  (inv.field id shm live kind a (inv.mapping_valid here)).2 here

theorem unmapped_eq_false {shm : Shm} :
    unmapped shm = false ↔ ∃ kind, shm.addr kind ≠ invalidMapAddr := by
  constructor
  · intro h
    by_cases user : shm.userAddr = invalidMapAddr
    · exact ⟨.ca, by simpa [unmapped, user, Shm.addr] using h⟩
    · exact ⟨.user, user⟩
  · rintro ⟨kind, h⟩
    cases kind with
    | user => simp [unmapped, show shm.userAddr ≠ invalidMapAddr from h]
    | ca => simp [unmapped, show shm.userAddrCa ≠ invalidMapAddr from h]

/-- An object on the list has a mapping. -/
theorem Inv.mapping_of_mem (inv : Inv s) {id : Nat} (mem : id ∈ s.list) :
    ∃ a kind, s.mapping a = some (id, kind) := by
  obtain ⟨shm, live, h⟩ := (inv.listed id).1 mem
  obtain ⟨kind, valid⟩ := unmapped_eq_false.1 h
  exact ⟨shm.addr kind, kind, (inv.field id shm live kind _ valid).1 rfl⟩

theorem Inv.mem_of_mapping (inv : Inv s) {a id : Nat} {kind : Kind}
    (here : s.mapping a = some (id, kind)) : id ∈ s.list := by
  obtain ⟨shm, live⟩ := inv.mapping_live here
  have valid := inv.mapping_valid here
  rw [← inv.addr_of_mapping live here] at valid
  exact (inv.listed id).2 ⟨shm, live, unmapped_eq_false.2 ⟨kind, valid⟩⟩

/-! ### One reference at a time -/

/-- Memory allocated and freed again. -/
theorem Inv.burn (inv : Inv s) :
    Inv { s with
      nextId := s.nextId + 1
      frees := update s.frees s.nextId (s.frees s.nextId + 1) } where
  ledger := inv.ledger
  field := inv.field
  valid := inv.valid
  listed := inv.listed
  nodup := inv.nodup
  alive := inv.alive
  fresh := fun id h => inv.fresh id (Nat.le_of_succ_le h)
  once := by
    intro id
    by_cases hid : id = s.nextId
    · subst hid
      simp [inv.once, inv.fresh]
    · have bound : id < s.nextId + 1 ↔ id < s.nextId := by omega
      simp [hid, inv.once, bound]
  sound := inv.sound

section Updates

variable {id : Nat} {shm : Shm}

theorem Inv.id_lt (inv : Inv s) (live : s.heap id = some shm) : id < s.nextId := by
  by_contra h
  simp [inv.fresh id (Nat.le_of_not_lt h)] at live

theorem Inv.fresh_update (inv : Inv s) (live : s.heap id = some shm) (o : Option Shm) (i : Nat)
    (h : s.nextId ≤ i) : update s.heap id o i = none := by
  have := inv.id_lt live
  rw [update_of_ne (by omega)]
  exact inv.fresh i h

theorem Inv.once_update (inv : Inv s) (live : s.heap id = some shm) (o : Option Shm) (i : Nat) :
    update s.frees id (s.frees id + if o = none then 1 else 0) i =
      if i < s.nextId ∧ update s.heap id o i = none then 1 else 0 := by
  by_cases hi : i = id
  · subst hi
    simp [inv.once, live, inv.id_lt live]
  · simp [hi, inv.once]

/-- Memory that stays is not freed. -/
theorem Inv.once_set (inv : Inv s) (live : s.heap id = some shm) (shm' : Shm) (i : Nat) :
    s.frees i = if i < s.nextId ∧ update s.heap id (some shm') i = none then 1 else 0 := by
  have h := inv.once_update live (some shm') i
  rwa [if_neg (by simp), Nat.add_zero, update_eq_self] at h

theorem Inv.alive_update (inv : Inv s) {o : Option Shm}
    (pos : ∀ shm, o = some shm → 0 < shm.usage) (i : Nat) (obj : Shm)
    (h : update s.heap id o i = some obj) : 0 < obj.usage := by
  by_cases hi : i = id
  · subst hi
    rw [update_self] at h
    exact pos obj h
  · rw [update_of_ne hi] at h
    exact inv.alive i obj h

/-- The list when the object `id` changes. -/
theorem Inv.listed_update (inv : Inv s) (id : Nat) {o : Option Shm} {list : List Nat}
    (others : ∀ i, i ≠ id → (i ∈ list ↔ i ∈ s.list))
    (this : id ∈ list ↔ ∃ shm, o = some shm ∧ unmapped shm = false) (i : Nat) :
    i ∈ list ↔ ∃ obj, update s.heap id o i = some obj ∧ unmapped obj = false := by
  by_cases hi : i = id
  · subst hi
    rw [this, update_self]
  · rw [others i hi, update_of_ne hi, inv.listed i]

end Updates

section References

variable [DecidableEq Op] {id a : Nat} {shm : Shm}

theorem Inv.take (inv : Inv s) {h : Op × Nat} (live : s.heap id = some shm)
    (free : s.held h = none) :
    Inv { s with
      heap := update s.heap id (some { shm with usage := shm.usage + 1 })
      held := update s.held h (some id) } where
  ledger := by
    refine balanced_held (s := s) rfl rfl rfl ?_
    exact inv.ledger.acquire free (by simp [count, live])
  field := inv.field.set live (by funext kind; cases kind <;> rfl)
  valid := inv.valid
  listed := by
    refine inv.listed_update _ (fun _ _ => Iff.rfl) ?_
    rw [inv.listed id]
    simp [live, unmapped]
  nodup := inv.nodup
  alive := inv.alive_update (by simp)
  fresh := inv.fresh_update live _
  once := inv.once_set live _
  sound := inv.sound

/-- `tc_client_mmap` on memory that is mapped by its owner. -/
theorem Inv.remap (inv : Inv s) (live : s.heap id = some shm) (mem : id ∈ s.list)
    (unset : shm.userAddrCa = invalidMapAddr) (valid : a ≠ invalidMapAddr)
    (new : s.mapping a = none) :
    Inv { s with
      heap := update s.heap id (some { shm with usage := shm.usage + 1, userAddrCa := a })
      mapping := update s.mapping a (some (id, .ca)) } where
  ledger := by
    refine balanced_mapping (s := s) rfl rfl rfl ?_
    exact inv.ledger.acquire (by simp [holds, new]) (by simp [count, live])
  field := inv.field.map .ca live unset valid new (by funext kind; cases kind <;> rfl)
  valid := by simp [Ne.symm valid, inv.valid]
  listed := by
    refine inv.listed_update _ (fun _ _ => Iff.rfl) ?_
    simp [mem, unmapped, valid]
  nodup := inv.nodup
  alive := inv.alive_update (by simp)
  fresh := inv.fresh_update live _
  once := inv.once_set live _
  sound := inv.sound

/-- `tc_client_mmap` on new memory. -/
theorem Inv.create (inv : Inv s) (kernelAddr len : Nat) (offset : BitVec 32)
    (valid : a ≠ invalidMapAddr) (new : s.mapping a = none) :
    Inv { s with
      heap := update s.heap s.nextId (some ⟨kernelAddr, a, invalidMapAddr, len, 1, offset⟩)
      list := s.list ++ [s.nextId]
      nextId := s.nextId + 1
      mapping := update s.mapping a (some (s.nextId, .user)) } := by
  have gone := inv.fresh s.nextId le_rfl
  have notMem : s.nextId ∉ s.list := by
    intro mem
    obtain ⟨shm, live⟩ := inv.mem mem
    simp [gone] at live
  have noArea : ∀ a kind, s.mapping a ≠ some (s.nextId, kind) := by
    intro b kind here
    exact notMem (inv.mem_of_mapping here)
  refine ⟨?_, ?_, ?_, ?_, ?_, ?_, ?_, ?_, inv.sound⟩
  · refine balanced_mapping (s := s) rfl rfl rfl ?_
    have ledger := (inv.ledger.alloc (v := s.nextId) (by simp [count, gone])).acquire
      (r := .inl a) (by simp [holds, new]) (update_self _ _ _)
    rwa [update_idem] at ledger
  · have blank := inv.field.alloc ⟨kernelAddr, invalidMapAddr, invalidMapAddr, len, 0, 0⟩
      noArea (by intro kind; cases kind <;> rfl)
    have addr : Shm.addr ⟨kernelAddr, a, invalidMapAddr, len, 1, offset⟩ =
        update (Shm.addr ⟨kernelAddr, invalidMapAddr, invalidMapAddr, len, 0, 0⟩) .user a := by
      funext kind
      cases kind <;> rfl
    have fields := blank.map .user (update_self _ _ _) rfl valid new addr
    rwa [update_idem] at fields
  · simp [Ne.symm valid, inv.valid]
  · refine inv.listed_update _ (fun i hi => by simp [hi]) ?_
    simp [unmapped, valid]
  · refine List.nodup_append.2 ⟨inv.nodup, List.nodup_singleton _, ?_⟩
    rintro i hi j hj rfl
    rw [List.mem_singleton] at hj
    exact notMem (hj ▸ hi)
  · exact inv.alive_update (by simp)
  · intro i hi
    have hi : s.nextId + 1 ≤ i := hi
    have other : i ≠ s.nextId := by omega
    exact (update_of_ne other _ _).trans (inv.fresh i (by omega))
  · intro i
    by_cases hi : i = s.nextId
    · subst hi
      simp [inv.once]
    · have bound : i < s.nextId + 1 ↔ i < s.nextId := by omega
      simp [hi, inv.once, bound]

/-- What is left of an object that loses a reference. -/
def put (shm : Shm) : Option Shm :=
  if shm.usage = 1 then none else some { shm with usage := shm.usage - 1 }

omit [DecidableEq Op] in
theorem putSharememStruct_eq (shm : Shm) (live : s.heap id = some shm) (pos : 0 < shm.usage) :
    putSharememStruct s id = { s with
      heap := update s.heap id (put shm)
      frees := update s.frees id (s.frees id + if put shm = none then 1 else 0) } := by
  obtain ⟨k, hk⟩ := Nat.exists_eq_succ_of_ne_zero pos.ne'
  unfold putSharememStruct
  simp only [live, hk]
  cases k with
  | zero => simp [tcMemFree, put, hk]
  | succ k => simp [State.set, put, hk]

theorem put_usage (pos : 0 < shm.usage) :
    (put shm).map Shm.usage = if shm.usage - 1 = 0 then none else some (shm.usage - 1) := by
  unfold put
  by_cases one : shm.usage = 1
  · simp [one]
  · have : shm.usage - 1 ≠ 0 := by omega
    simp [one, this]

theorem put_pos (pos : 0 < shm.usage) (obj : Shm) (h : put shm = some obj) : 0 < obj.usage := by
  unfold put at h
  split at h
  · simp at h
  · rw [Option.some.injEq] at h
    rw [← h]
    show 0 < shm.usage - 1
    omega

theorem put_unmapped {shm' : Shm} (h : put shm = some shm') : unmapped shm' = unmapped shm := by
  unfold put at h
  split at h
  · simp at h
  · rw [Option.some.injEq] at h
    rw [← h]
    rfl

theorem Fields.put {heap : Nat → Option Shm} {mapping : Nat → Option (Nat × Kind)}
    (fields : Fields heap mapping) (live : heap id = some shm) :
    Fields (update heap id (put shm)) mapping := by
  unfold SharedMemory.put
  split
  · exact fields.remove id
  · exact fields.set live (by funext kind; cases kind <;> rfl)

omit [DecidableEq Op] in
/-- The last reference is not a parameter's while there is a mapping. -/
theorem Inv.put_of_held (inv : Inv s) {h : Op × Nat} (live : s.heap id = some shm)
    (held : s.held h = some id) (obj : unmapped shm = false) :
    ∃ shm', put shm = some shm' ∧ unmapped shm' = false := by
  obtain ⟨kind, valid⟩ := unmapped_eq_false.1 obj
  have here := (inv.field id shm live kind _ valid).1 rfl
  have many : shm.usage ≠ 1 := by
    intro one
    have := inv.ledger.unique (r := .inr h) (q := .inl (shm.addr kind)) (by simp [count, live, one])
      held (by simp [holds, here])
    simp at this
  exact ⟨_, if_neg many, obj⟩

theorem Inv.drop (inv : Inv s) {h : Op × Nat} (live : s.heap id = some shm)
    (held : s.held h = some id) :
    Inv { s with
      heap := update s.heap id (put shm)
      frees := update s.frees id (s.frees id + if put shm = none then 1 else 0)
      held := update s.held h none } := by
  have pos := inv.alive id shm live
  refine ⟨?_, inv.field.put live, inv.valid, ?_, inv.nodup, inv.alive_update (put_pos pos),
    inv.fresh_update live _, inv.once_update live _, inv.sound⟩
  · refine balanced_held (s := s) rfl rfl rfl ?_
    rw [put_usage pos]
    exact inv.ledger.release held (by simp [count, live]; omega)
  · refine inv.listed_update _ (fun _ _ => Iff.rfl) ?_
    constructor
    · intro mem
      obtain ⟨shm', live', obj⟩ := (inv.listed id).1 mem
      rw [live, Option.some.injEq] at live'
      exact inv.put_of_held live held (live' ▸ obj)
    · rintro ⟨shm', kept, obj⟩
      refine (inv.listed id).2 ⟨shm, live, ?_⟩
      rwa [put_unmapped kept] at obj

def Shm.clear (shm : Shm) : Kind → Shm
  | .user => { shm with userAddr := invalidMapAddr }
  | .ca => { shm with userAddrCa := invalidMapAddr }

@[simp]
theorem clear_usage (kind : Kind) : (shm.clear kind).usage = shm.usage := by
  cases kind <;> rfl

theorem clear_addr (kind : Kind) : (shm.clear kind).addr = update shm.addr kind invalidMapAddr := by
  cases kind with
  | user => funext k; cases k <;> rfl
  | ca => funext k; cases k <;> rfl

omit [DecidableEq Op] in
/-- A mapping is the last reference only when the other area is not mapped. -/
theorem Inv.put_of_mapping (inv : Inv s) {kind : Kind} (live : s.heap id = some shm)
    (here : s.mapping a = some (id, kind)) (obj : unmapped (shm.clear kind) = false) :
    ∃ shm', put (shm.clear kind) = some shm' ∧ unmapped shm' = false := by
  obtain ⟨k, valid⟩ := unmapped_eq_false.1 obj
  have other : k ≠ kind := by
    rintro rfl
    simp [clear_addr] at valid
  rw [clear_addr, update_of_ne other] at valid
  have there := (inv.field id shm live k _ valid).1 rfl
  have many : shm.usage ≠ 1 := by
    intro one
    have same := inv.ledger.unique (v := id) (r := .inl a) (q := .inl (shm.addr k))
      (by simp [count, live, one]) (by simp [holds, here]) (by simp [holds, there])
    rw [Sum.inl.inj same, here] at there
    simp [Ne.symm other] at there
  refine ⟨_, if_neg ?_, obj⟩
  rwa [clear_usage]

/-- `release_vma_shared_mem` on the object of the area. -/
theorem Inv.close (inv : Inv s) {kind : Kind} (live : s.heap id = some shm)
    (here : s.mapping a = some (id, kind)) :
    Inv { s with
      heap := update s.heap id (put (shm.clear kind))
      list := if unmapped (shm.clear kind) then s.list.erase id else s.list
      frees := update s.frees id (s.frees id + if put (shm.clear kind) = none then 1 else 0)
      mapping := update s.mapping a none } := by
  have pos : 0 < (shm.clear kind).usage := by
    rw [clear_usage]
    exact inv.alive id shm live
  have valid := inv.mapping_valid here
  have was := inv.addr_of_mapping live here
  refine ⟨?_, ?_, ?_, ?_, ?_, inv.alive_update (put_pos pos), inv.fresh_update live _,
    inv.once_update live _, inv.sound⟩
  · refine balanced_mapping (s := s) rfl rfl rfl ?_
    rw [put_usage pos, clear_usage]
    rw [clear_usage] at pos
    refine inv.ledger.release (by simp [holds, here]) ?_
    simp [count, live, Nat.sub_add_cancel pos]
  · have fields := (inv.field.unmap live was valid (clear_addr kind)).put (update_self _ _ _)
    rwa [update_idem] at fields
  · simp [Ne.symm valid, inv.valid]
  · by_cases obj : unmapped (shm.clear kind) = true
    · refine inv.listed_update id ?_ ?_
      · intro i hi
        simp only [obj, if_true]
        exact List.mem_erase_of_ne hi
      · simp only [obj, if_true]
        refine iff_of_false (inv.nodup.not_mem_erase) ?_
        rintro ⟨shm', kept, mapped⟩
        rw [put_unmapped kept, obj] at mapped
        simp at mapped
    · refine inv.listed_update id ?_ ?_
      · intro i hi
        simp [obj]
      · simp only [obj]
        exact iff_of_true (inv.mem_of_mapping here) (inv.put_of_mapping live here (by simpa using obj))
  · show (if unmapped (shm.clear kind) then s.list.erase id else s.list).Nodup
    split
    · exact inv.nodup.erase id
    · exact inv.nodup

/-! ### Steps -/

omit [DecidableEq Op] in
theorem State.set_self (live : s.heap id = some shm) : s.set id shm = s := by
  unfold State.set
  rw [← live, update_eq_self]

theorem releaseFields_other (other : ∀ kind, shm.addr kind ≠ a) :
    releaseFields shm a = (shm, false) := by
  unfold releaseFields
  rw [if_neg (show ¬ shm.userAddr = a from other .user),
    if_neg (show ¬ shm.userAddrCa = a from other .ca)]

omit [DecidableEq Op] in
theorem Inv.releaseFields_clear (inv : Inv s) {kind : Kind} (live : s.heap id = some shm)
    (here : s.mapping a = some (id, kind)) : releaseFields shm a = (shm.clear kind, true) := by
  have valid := inv.mapping_valid here
  have was := inv.addr_of_mapping live here
  unfold releaseFields
  cases kind with
  | user => rw [if_pos (show shm.userAddr = a from was)]; rfl
  | ca =>
    have notUser : ¬ shm.userAddr = a := by
      intro h
      have := (inv.field id shm live .user a valid).1 h
      simp [here] at this
    rw [if_neg notUser, if_pos (show shm.userAddrCa = a from was)]
    rfl

omit [DecidableEq Op] in
/-- The loop goes on after an object that does not have the area. -/
theorem Inv.release_skip (inv : Inv s) {rest : List Nat} (mem : id ∈ s.list)
    (valid : a ≠ invalidMapAddr) (other : ∀ kind, s.mapping a ≠ some (id, kind)) :
    releaseVmaSharedMem a (id :: rest) s = releaseVmaSharedMem a rest s := by
  obtain ⟨shm, live, obj⟩ := (inv.listed id).1 mem
  have noField : ∀ kind, shm.addr kind ≠ a := by
    intro kind h
    exact other kind ((inv.field id shm live kind a valid).1 h)
  rw [releaseVmaSharedMem]
  simp [live, releaseFields_other noField, State.set_self live, obj]

omit [DecidableEq Op] in
/-- Nothing is released for an area that is not mapped. -/
theorem Inv.release_none (inv : Inv s) {l : List Nat} (sub : ∀ i ∈ l, i ∈ s.list)
    (valid : a ≠ invalidMapAddr) (gone : s.mapping a = none) : releaseVmaSharedMem a l s = s := by
  induction l with
  | nil => rfl
  | cons i rest ih =>
    rw [inv.release_skip (sub i (by simp)) valid (by simp [gone])]
    exact ih fun j hj => sub j (by simp [hj])

omit [DecidableEq Op] in
theorem Inv.release_eq (inv : Inv s) {kind : Kind} {l : List Nat} (sub : ∀ i ∈ l, i ∈ s.list)
    (live : s.heap id = some shm) (here : s.mapping a = some (id, kind)) (mem : id ∈ l) :
    releaseVmaSharedMem a l s =
      putSharememStruct { s.set id (shm.clear kind) with
        list := if unmapped (shm.clear kind) then s.list.erase id else s.list } id := by
  have valid := inv.mapping_valid here
  induction l with
  | nil => simp at mem
  | cons i rest ih =>
    by_cases hi : i = id
    · subst hi
      rw [releaseVmaSharedMem]
      simp only [live, inv.releaseFields_clear live here, if_true]
      by_cases obj : unmapped (shm.clear kind) = true
      · simp [obj, State.set]
      · simp [obj, State.set]
    · rw [inv.release_skip (sub i (by simp)) valid (by simp [here, Ne.symm hi])]
      refine ih (fun j hj => sub j (by simp [hj])) ?_
      simpa [Ne.symm hi] using mem

theorem Inv.step_close (inv : Inv s) (vma : Vma) :
    Inv { releaseVmaSharedMem vma.start s.list s with
      mapping := update s.mapping vma.start none } := by
  cases here : s.mapping vma.start with
  | none =>
    rw [inv.release_none (fun _ h => h) vma.valid here, ← here, update_eq_self]
    exact inv
  | some ref =>
    obtain ⟨id, kind⟩ := ref
    obtain ⟨shm, live⟩ := inv.mapping_live here
    have pos : 0 < (shm.clear kind).usage := by
      rw [clear_usage]
      exact inv.alive id shm live
    rw [inv.release_eq (fun _ h => h) live here (inv.mem_of_mapping here),
      putSharememStruct_eq (shm.clear kind) (by simp [State.set]) pos]
    simp only [State.set, update_idem]
    exact inv.close live here

omit [DecidableEq Op] in
theorem getSharememStruct_eq (live : s.heap id = some shm) :
    getSharememStruct s id = s.set id { shm with usage := shm.usage + 1 } := by
  simp [getSharememStruct, live]

omit [DecidableEq Op] in
/-- A reference taken and dropped again leaves no trace. -/
theorem Inv.put_get (inv : Inv s) (live : s.heap id = some shm) :
    putSharememStruct (getSharememStruct s id) id = s := by
  have pos := inv.alive id shm live
  have kept : put { shm with usage := shm.usage + 1 } = some shm := by
    unfold put
    rw [if_neg (by show ¬ shm.usage + 1 = 1; omega)]
    rfl
  rw [getSharememStruct_eq live, putSharememStruct_eq _ (update_self _ _ _) (Nat.succ_pos _), kept]
  simp only [State.set, update_idem, reduceCtorEq, if_false, Nat.add_zero, update_eq_self]
  rw [← live, update_eq_self]

omit [DecidableEq Op] in
theorem Inv.free_new (inv : Inv s) :
    tcMemFree { s.set s.nextId shm with nextId := s.nextId + 1 } s.nextId =
      { s with
        nextId := s.nextId + 1
        frees := update s.frees s.nextId (s.frees s.nextId + 1) } := by
  have gone := inv.fresh s.nextId le_rfl
  simp [tcMemFree, State.set, ← gone]

theorem Inv.step_mmap (inv : Inv s) (vma : Vma) (addr : Option Nat) (remap : Int)
    (new : s.mapping vma.start = none) : Inv (tcClientMmap s vma addr remap).2 := by
  unfold tcClientMmap findSharedmem
  cases found : s.list.find? (hasOffset s vma.pgoff) with
  | some id =>
    have mem := List.mem_of_find?_eq_some found
    obtain ⟨shm, live⟩ := inv.mem mem
    simp only [live]
    by_cases refused : shm.userAddrCa ≠ invalidMapAddr ∨ vma.len ≠ shm.len
    · rw [if_pos refused]
      exact inv
    · rw [if_neg refused]
      have unset : shm.userAddrCa = invalidMapAddr := by
        by_contra h
        exact refused (.inl h)
      by_cases failed : remap ≠ 0
      · simp only [if_pos failed, if_true, inv.put_get live]
        exact inv
      · simp only [if_neg failed, getSharememStruct_eq live]
        have mapped := inv.remap live mem unset vma.valid new
        simpa [mapShared, State.set] using mapped
  | none =>
    simp only [tcMemAllocate]
    split
    · exact inv
    · rename_i r allocated
      split at allocated
      · simp at allocated
      · cases addr with
        | none => simp at allocated
        | some addr =>
          simp only [Option.map_some, Option.some.injEq, Prod.mk.injEq] at allocated
          obtain ⟨rfl, rfl, rfl⟩ := allocated
          by_cases failed : remap ≠ 0
          · simp only [if_pos failed, inv.free_new]
            exact inv.burn
          · simp only [if_neg failed]
            have created := inv.create addr ((vma.len + pageSize - 1) / pageSize * pageSize)
              (vma.pgoff.setWidth 32) vma.valid new
            simpa [mapShared, State.set, getSharememStruct] using created

omit [DecidableEq Op] in
theorem Inv.refMem_live (inv : Inv s) {param : ClientCall.ClientParam} {size : Nat} {mbAlloc : Bool}
    (h : refMem s param size mbAlloc = some id) : ∃ shm, s.heap id = some shm := by
  unfold refMem at h
  split at h
  · simp at h
  · rename_i found
    split at h
    · simp at h
    · split at h
      · rw [Option.some.injEq] at h
        exact h ▸ inv.mem (List.mem_of_find?_eq_some found)
      · simp at h

theorem Inv.step (inv : Inv s) {act : Act Op} (distinct : Distinct s act)
    (moved : step s act = some s') : Inv s' := by
  cases act with
  | mmap vma addr remap =>
    rw [SharedMemory.step, Option.some.injEq] at moved
    rw [← moved]
    exact inv.step_mmap vma addr remap distinct
  | close vma =>
    rw [SharedMemory.step, Option.some.injEq] at moved
    rw [← moved]
    exact inv.step_close vma
  | take o index param size mbAlloc =>
    rw [SharedMemory.step] at moved
    split at moved
    · rename_i free
      split at moved
      · rw [Option.some.injEq] at moved
        exact moved ▸ inv
      · rename_i id found
        obtain ⟨shm, live⟩ := inv.refMem_live found
        rw [Option.some.injEq, getSharememStruct_eq live] at moved
        rw [← moved]
        exact inv.take live free
    · simp at moved
  | drop o index =>
    rw [SharedMemory.step] at moved
    split at moved
    · simp at moved
    · rename_i id held
      obtain ⟨k, counted⟩ := inv.ledger.valid (.inr (o, index)) id held
      obtain ⟨shm, live, -⟩ := Option.map_eq_some_iff.1 counted
      rw [Option.some.injEq, putSharememStruct_eq shm live (inv.alive id shm live)] at moved
      rw [← moved]
      exact inv.drop live held

theorem Inv.reach (run : ActionSystem.Reach SharedMemory.step Distinct {} s) : Inv s := by
  refine run.invariant Inv.start ?_
  intro s act s' inv distinct moved
  exact inv.step distinct moved

/-! ### The counts -/

/-- 1 for a field that is mapped. -/
def mappedCount (a : Nat) : Nat := if a = invalidMapAddr then 0 else 1

omit [DecidableEq Op] in
theorem Inv.encard_kind (inv : Inv s) (live : s.heap id = some shm) (kind : Kind) :
    {a | s.mapping a = some (id, kind)}.encard = mappedCount (shm.addr kind) := by
  have here : ∀ a, s.mapping a = some (id, kind) ↔ a = shm.addr kind ∧ a ≠ invalidMapAddr := by
    intro a
    by_cases valid : a = invalidMapAddr
    · simp [valid, inv.valid]
    · rw [← inv.field id shm live kind a valid]
      simp [valid, eq_comm]
  by_cases unset : shm.addr kind = invalidMapAddr
  · have empty : {a | s.mapping a = some (id, kind)} = ∅ := by
      ext a
      simp [here, unset]
    simp [empty, mappedCount, unset]
  · have single : {a | s.mapping a = some (id, kind)} = {shm.addr kind} := by
      ext a
      rw [Set.mem_ofPred_eq, here, Set.mem_singleton_iff]
      constructor
      · exact fun h => h.1
      · rintro rfl
        exact ⟨rfl, unset⟩
    simp [single, mappedCount, unset]

omit [DecidableEq Op] in
theorem Inv.encard_areas (inv : Inv s) (live : s.heap id = some shm) :
    {a | holds s (.inl a) = some id}.encard = mappedCount shm.userAddr + mappedCount shm.userAddrCa := by
  have split : {a | holds s (.inl a) = some id} =
      {a | s.mapping a = some (id, .user)} ∪ {a | s.mapping a = some (id, .ca)} := by
    ext a
    simp only [holds, Option.map_eq_some_iff, Set.mem_ofPred_eq, Set.mem_union]
    constructor
    · rintro ⟨⟨i, kind⟩, here, rfl⟩
      cases kind with
      | user => exact .inl here
      | ca => exact .inr here
    · rintro (here | here)
      · exact ⟨_, here, rfl⟩
      · exact ⟨_, here, rfl⟩
  have apart : Disjoint {a | s.mapping a = some (id, .user)} {a | s.mapping a = some (id, .ca)} := by
    rw [Set.disjoint_left]
    intro a user ca
    rw [Set.mem_ofPred_eq] at user ca
    simp [user] at ca
  rw [split, Set.encard_union_eq apart, inv.encard_kind live, inv.encard_kind live]
  rfl

/-- What holds of the shared memory of a device in every reachable state. An object that is
gone was freed once, and nothing refers to it. -/
structure Accounted (s : State Op) : Prop where
  usage : ∀ id shm, s.heap id = some shm →
    shm.usage = mappedCount shm.userAddr + mappedCount shm.userAddrCa + {h | s.held h = some id}.encard
  fields : Fields s.heap s.mapping
  listed : ∀ id, id ∈ s.list ↔ ∃ a kind, s.mapping a = some (id, kind)
  nodup : s.list.Nodup
  alive : ∀ id shm, s.heap id = some shm → 0 < shm.usage ∧ s.frees id = 0
  gone : ∀ id, id < s.nextId → s.heap id = none → s.frees id = 1 ∧ ∀ r, holds s r ≠ some id
  sound : s.fault = false

theorem sharedMem_accounted (run : ActionSystem.Reach SharedMemory.step Distinct {} s) :
    Accounted s := by
  have inv := Inv.reach run
  refine ⟨?_, inv.field, ?_, inv.nodup, ?_, ?_, inv.sound⟩
  · intro id shm live
    have counted := inv.ledger.exact id shm.usage (by simp [count, live])
    rw [RefLedger.refs_sum, inv.encard_areas live] at counted
    exact counted.symm
  · intro id
    constructor
    · exact inv.mapping_of_mem
    · rintro ⟨a, kind, here⟩
      exact inv.mem_of_mapping here
  · intro id shm live
    exact ⟨inv.alive id shm live, by simp [inv.once, live]⟩
  · intro id old gone
    exact ⟨by simp [inv.once, old, gone], inv.ledger.none_of_gone (by simp [count, gone])⟩

/-- An operation keeps memory whose areas are all closed, and frees it. -/
theorem sharedMem_accounted_in_use :
    ∃ s : State Unit, ActionSystem.Reach SharedMemory.step Distinct {} s ∧
      ((s.heap 0).any fun shm => shm.usage == 1) = true ∧ s.list = [] ∧ Accounted s := by
  obtain ⟨s, run, passed⟩ := ActionSystem.reach_of_play SharedMemory.step Distinct
    (fun s : State Unit => ((s.heap 0).any fun shm => shm.usage == 1) && s.list == []) {}
    [.mmap ⟨0x7000, 4096, 5, rfl⟩ (some 0xa000) 0, .take () 0 ⟨0x7000, 0⟩ 16 true,
      .close ⟨0x7000, 4096, 5, rfl⟩] (by decide)
  simp only [Bool.and_eq_true, beq_iff_eq] at passed
  exact ⟨s, run, passed.1, passed.2, sharedMem_accounted run⟩

/-- Two parameters of one operation hold two references. -/
theorem two_references_of_one_operation :
    ∃ s : State Unit, ActionSystem.Reach SharedMemory.step Distinct {} s ∧
      ∃ shm, s.heap 0 = some shm ∧
        (shm.usage : ℕ∞) ≠ mappedCount shm.userAddr + mappedCount shm.userAddrCa +
          {o | ∃ index, s.held (o, index) = some 0}.encard := by
  obtain ⟨s, run, passed⟩ := ActionSystem.reach_of_play SharedMemory.step Distinct
    (fun s : State Unit => (s.heap 0 == some ⟨0xa000, 0x7000, invalidMapAddr, 4096, 3, 5⟩) &&
      (s.held ((), 0) == some 0)) {}
    [.mmap ⟨0x7000, 4096, 5, rfl⟩ (some 0xa000) 0, .take () 0 ⟨0x7000, 0⟩ 16 true,
      .take () 1 ⟨0x7000, 0⟩ 16 true] (by decide)
  simp only [Bool.and_eq_true, beq_iff_eq] at passed
  have one : {o | ∃ index, s.held (o, index) = some 0} = {()} := by
    ext o
    simpa using ⟨0, passed.2⟩
  refine ⟨s, run, _, passed.1, ?_⟩
  rw [one, Set.encard_singleton]
  decide

end References

end Books

end SharedMemory
