import Tzdriver.ActionSystem
import Tzdriver.ClientCall
import Tzdriver.MailboxPool

/-!
# Shared memory of a device

`core/tc_client_driver.c`, `core/mem.c`, `core/mem.h`: a client maps shared memory with `mmap`,
once as its own (`user_addr`) and once more by the page offset (`user_addr_ca`). Each mapping
and each memory reference parameter of an operation in flight has a reference. The last one frees
the memory; the memory is on the device's list while it has a mapping.

An object is named by a number that is never used again. `mapping` (the areas of the
device that are mapped, by their start), `frees` and `fault` (an access to freed memory, or a
reference count below 0) are bookkeeping.
-/

namespace SharedMemory

open Function

def invalidMapAddr : Nat := 2 ^ 64 - 1
def pageSize : Nat := 4096
def eNOMEM : Int := 12

structure Shm where
  kernelAddr : Nat
  userAddr : Nat := invalidMapAddr
  userAddrCa : Nat := invalidMapAddr
  len : Nat
  usage : Nat := 0
  /-- `atomic_t`, compared with an `unsigned long`. -/
  offset : BitVec 32 := 0
  deriving DecidableEq, Repr

/-- A `vm_area_struct`. -/
structure Vma where
  start : Nat
  len : Nat
  pgoff : BitVec 64
  aligned : start % pageSize = 0

theorem Vma.valid (v : Vma) : v.start ≠ invalidMapAddr := by
  intro h
  have := v.aligned
  rw [h] at this
  revert this
  decide

/-- Which field of the object a mapping stands in. -/
inductive Kind where
  | user
  | ca
  deriving DecidableEq, Repr

structure State (Op : Type*) where
  heap : Nat → Option Shm := fun _ => none
  list : List Nat := []
  nextId : Nat := 0
  mapping : Nat → Option (Nat × Kind) := fun _ => none
  /-- `sharemem[index]` of the operations in flight. -/
  held : Op × Nat → Option Nat := fun _ => none
  frees : Nat → Nat := fun _ => 0
  fault : Bool := false

section Operations

variable {Op : Type*}

def State.set (s : State Op) (id : Nat) (shm : Shm) : State Op :=
  { s with heap := update s.heap id (some shm) }

/-- `tc_mem_free`. -/
def tcMemFree (s : State Op) (id : Nat) : State Op :=
  { s with heap := update s.heap id none, frees := update s.frees id (s.frees id + 1) }

/-- `get_sharemem_struct`. -/
def getSharememStruct (s : State Op) (id : Nat) : State Op :=
  match s.heap id with
  | none => { s with fault := true }
  | some shm => s.set id { shm with usage := shm.usage + 1 }

/-- `put_sharemem_struct`. -/
def putSharememStruct (s : State Op) (id : Nat) : State Op :=
  match s.heap id with
  | none => { s with fault := true }
  | some shm =>
    match shm.usage with
    | 0 => { s with fault := true }
    | 1 => tcMemFree s id
    | usage + 2 => s.set id { shm with usage := usage + 1 }

/-- `tc_mem_allocate`; `addr` is what `vmalloc_user` returns. -/
def tcMemAllocate (s : State Op) (len : Nat) (addr : Option Nat) : Option (Nat × State Op) :=
  let len := (len + pageSize - 1) / pageSize * pageSize
  if len > MailboxPool.mailboxPoolSize then none
  else
    match addr with
    | none => none
    | some addr =>
      some (s.nextId, { s.set s.nextId { kernelAddr := addr, len := len } with nextId := s.nextId + 1 })

/-- The comparison of `find_sharedmem`. -/
def hasOffset (s : State Op) (pgoff : BitVec 64) (id : Nat) : Bool :=
  match s.heap id with
  | none => false
  | some shm => shm.offset.signExtend 64 == pgoff

/-- `find_sharedmem`: the object, whether it is only remapped, and the state. -/
def findSharedmem (s : State Op) (vma : Vma) (addr : Option Nat) : Option (Nat × Bool × State Op) :=
  match s.list.find? (hasOffset s vma.pgoff) with
  | some id =>
    match s.heap id with
    | none => none
    | some shm =>
      if shm.userAddrCa ≠ invalidMapAddr ∨ vma.len ≠ shm.len then none
      else some (id, true, getSharememStruct s id)
  | none => (tcMemAllocate s vma.len addr).map fun r => (r.1, false, r.2)

/-- The end of `tc_client_mmap` when the pages are mapped. -/
def mapShared (s : State Op) (vma : Vma) (id : Nat) (onlyRemap : Bool) : State Op :=
  match s.heap id with
  | none => { s with fault := true }
  | some shm =>
    if onlyRemap then
      { s.set id { shm with userAddrCa := vma.start } with
        mapping := update s.mapping vma.start (some (id, .ca)) }
    else
      let s := getSharememStruct
        (s.set id { shm with userAddr := vma.start, offset := vma.pgoff.setWidth 32 }) id
      { s with
        list := s.list ++ [id]
        mapping := update s.mapping vma.start (some (id, .user)) }

/-- `tc_client_mmap`; `remap` is the return code of `remap_shared_mem`. -/
def tcClientMmap (s : State Op) (vma : Vma) (addr : Option Nat) (remap : Int) : Int × State Op :=
  match findSharedmem s vma addr with
  | none => (-eNOMEM, s)
  | some (id, onlyRemap, s) =>
    if remap ≠ 0 then
      (remap, if onlyRemap then putSharememStruct s id else tcMemFree s id)
    else (0, mapShared s vma id onlyRemap)

/-- The body of the loop of `release_vma_shared_mem` on one object: its fields after it, and
whether the area was found. -/
def releaseFields (shm : Shm) (start : Nat) : Shm × Bool :=
  if shm.userAddr = start then ({ shm with userAddr := invalidMapAddr }, true)
  else if shm.userAddrCa = start then ({ shm with userAddrCa := invalidMapAddr }, true)
  else (shm, false)

def unmapped (shm : Shm) : Bool :=
  shm.userAddr == invalidMapAddr && shm.userAddrCa == invalidMapAddr

/-- `release_vma_shared_mem` over the rest of the list. -/
def releaseVmaSharedMem (start : Nat) : List Nat → State Op → State Op
  | [], s => s
  | id :: rest, s =>
    match s.heap id with
    | none => { s with fault := true }
    | some shm =>
      match releaseFields shm start with
      | (shm, find) =>
        let s := s.set id shm
        let s := if unmapped shm then { s with list := s.list.erase id } else s
        if find then putSharememStruct s id else releaseVmaSharedMem start rest s

/-- `alloc_for_ref_mem` for the parameter `index` of the operation `o`: the object whose
reference it takes. -/
def refMem (s : State Op) (param : ClientCall.ClientParam) (size : Nat) (mbAlloc : Bool) : Option Nat :=
  match s.list.find? (fun id => (s.heap id).any fun shm => shm.userAddr == param.buffer) with
  | none => none
  | some id =>
    match s.heap id with
    | none => none
    | some shm =>
      if ClientCall.isRefmemOffsetValid ⟨id, shm.userAddr, shm.kernelAddr, shm.len⟩ param size &&
          mbAlloc then some id
      else none

inductive Act (Op : Type*) where
  | mmap (vma : Vma) (addr : Option Nat) (remap : Int)
  | close (vma : Vma)
  | take (o : Op) (index : Nat) (param : ClientCall.ClientParam) (size : Nat) (mbAlloc : Bool)
  | drop (o : Op) (index : Nat)

variable [DecidableEq Op]

/-- A parameter of an operation takes one reference and drops it once. -/
def step (s : State Op) : Act Op → Option (State Op)
  | .mmap vma addr remap => some (tcClientMmap s vma addr remap).2
  | .close vma =>
    some { releaseVmaSharedMem vma.start s.list s with mapping := update s.mapping vma.start none }
  | .take o index param size mbAlloc =>
    if s.held (o, index) = none then
      match refMem s param size mbAlloc with
      | none => some s
      | some id =>
        some { getSharememStruct s id with held := update s.held (o, index) (some id) }
    else none
  | .drop o index =>
    match s.held (o, index) with
    | none => none
    | some id => some { putSharememStruct s id with held := update s.held (o, index) none }

/-- The start addresses of live mappings are distinct. -/
def Distinct (s : State Op) : Act Op → Prop
  | .mmap vma _ _ => s.mapping vma.start = none
  | _ => True

instance (s : State Op) : (act : Act Op) → Decidable (Distinct s act)
  | .mmap vma _ _ => inferInstanceAs (Decidable (s.mapping vma.start = none))
  | .close _ => .isTrue trivial
  | .take .. => .isTrue trivial
  | .drop .. => .isTrue trivial

end Operations

end SharedMemory
