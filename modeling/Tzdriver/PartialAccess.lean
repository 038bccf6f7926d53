import Tzdriver.CallInputs
import Tzdriver.WordMemory

/-!
# Access to a part of shared memory

`core/gp_ops.c`: `alloc_for_ref_mem` and `update_for_ref_mem` on the memory they read and write, in
the types of the source. The length of a shared buffer and the sizes have 32 bits, the client's
offset has 64, and the check of the offset subtracts before it compares.

`memcpy_s` and `virt_to_phys` are parameters. `read` is what is copied in: where it starts and how
long it is.
-/

namespace PartialAccess

open WordMemory TeecToken

/-- `struct tc_ns_shared_mem`; `id` stands for where it is. -/
structure TcNsSharedMem where
  id : Nat
  userAddr : Address
  kernelAddr : Address
  len : BitVec 32

/-- `memref` of `union tc_ns_client_param`, without `size_addr`. -/
structure Memref where
  buffer : BitVec 64
  offset : BitVec 64

/-- What `struct tc_ns_operation` has for one parameter. -/
structure TcNsOperation where
  buffer : BitVec 32 := 0
  bufferHAddr : BitVec 32 := 0
  size : BitVec 32 := 0
  sharemem : Option TcNsSharedMem := none
  mbBuffer : Option Address := none

/-- `is_refmem_offset_valid`. -/
def isRefmemOffsetValid (sharedMem : TcNsSharedMem) (memref : Memref) (bufferSize : BitVec 32) :
    Bool :=
  decide (sharedMem.len.setWidth 64 - memref.offset ≥ bufferSize.setWidth 64 ∧
    sharedMem.len.setWidth 64 > memref.offset)

/-- `is_phyaddr_valid`. -/
def isPhyaddrValid (operation : TcNsOperation) : Bool :=
  !(operation.buffer == 0 && operation.bufferHAddr == 0)

structure CopyAlloc where
  mbPtr : Option Address
  mem : Memory
  read : Option (Address × BitVec 64)

structure Alloc where
  ret : Int
  operation : TcNsOperation
  mem : Memory
  read : Option (Address × BitVec 64)

structure Update where
  ret : Int
  mem : Memory
  /-- What `memcpy_s` returned, if it was called. -/
  copied : Option Int

section Accesses

variable (memcpyS : Copy) (virtToPhys : Address → BitVec 64)

/-- `mailbox_copy_alloc`, which gets `mbAlloc` from `mailbox_alloc`. -/
def mailboxCopyAlloc (mbAlloc : Option Address) (src : Address) (size : BitVec 64) (mem : Memory) :
    CopyAlloc :=
  if src = 0 ∨ size = 0 then ⟨none, mem, none⟩
  else
    match mbAlloc with
    | none => ⟨none, mem, none⟩
    | some mbPtr =>
      match memcpyS mem mbPtr size src size with
      | (ret, mem) => ⟨if ret ≠ 0 then none else some mbPtr, mem, some (src, size)⟩

/-- The end of `alloc_for_ref_mem`, after the lock is released with `ret` 0. -/
def finishAlloc (bufferSize : BitVec 32) (operation : TcNsOperation) (mem : Memory)
    (read : Option (Address × BitVec 64)) : Alloc :=
  if isPhyaddrValid operation = false then ⟨-eINVAL, operation, mem, read⟩
  else ⟨0, { operation with size := bufferSize }, mem, read⟩

/-- `alloc_for_ref_mem`. `sizeRead` is what `check_buffer_for_ref` reads. -/
def allocForRefMem (sharedMemList : List TcNsSharedMem) (memref : Memref)
    (sizeRead : Option (BitVec 32)) (mbAlloc : Option Address) (operation : TcNsOperation)
    (mem : Memory) : Alloc :=
  match sizeRead with
  | none => ⟨-eINVAL, operation, mem, none⟩
  | some bufferSize =>
    if bufferSize = 0 then ⟨-eINVAL, operation, mem, none⟩
    else
      let operation := { operation with buffer := 0 }
      match sharedMemList.find? (fun sharedMem => sharedMem.userAddr == memref.buffer) with
      | none => finishAlloc bufferSize operation mem none
      | some sharedMem =>
        if isRefmemOffsetValid sharedMem memref bufferSize = false then
          finishAlloc bufferSize operation mem none
        else
          match mailboxCopyAlloc memcpyS mbAlloc (sharedMem.kernelAddr + memref.offset)
              (bufferSize.setWidth 64) mem with
          | ⟨none, mem, read⟩ => ⟨-ClientCall.eNOMEM, operation, mem, read⟩
          | ⟨some bufferAddr, mem, read⟩ =>
            finishAlloc bufferSize { operation with
              mbBuffer := some bufferAddr
              buffer := (virtToPhys bufferAddr).setWidth 32
              bufferHAddr := (virtToPhys bufferAddr >>> 32).setWidth 32
              sharemem := some sharedMem } mem read

/-- `update_for_ref_mem`. `sizeReRead` is what `read_from_client` reads, `writeSize` the memory
after `write_to_client`, unless that fails. -/
def updateForRefMem (memref : Memref) (sizeReRead : Option (BitVec 32))
    (writeSize : Memory → Option Memory) (operation : TcNsOperation) (mem : Memory) : Update :=
  match sizeReRead with
  | none => ⟨-eFAULT, mem, none⟩
  | some origSize =>
    match writeSize mem with
    | none => ⟨-eFAULT, mem, none⟩
    | some mem =>
      match operation.mbBuffer, operation.sharemem with
      | some mbBuffer, some sharedMem =>
        if origSize ≥ operation.size then
          match memcpyS mem (sharedMem.kernelAddr + memref.offset)
              (sharedMem.len.setWidth 64 - memref.offset) mbBuffer (operation.size.setWidth 64) with
          | (copied, mem) => ⟨if copied ≠ 0 then -eFAULT else 0, mem, some copied⟩
        else ⟨0, mem, none⟩
      | _, _ => ⟨0, mem, none⟩

end Accesses

/-! ## The check of the offset -/

section Offset

variable {sharedMem : TcNsSharedMem} {memref : Memref} {bufferSize : BitVec 32}

/-- The length of what is after the offset. -/
def room (sharedMem : TcNsSharedMem) (memref : Memref) : Nat :=
  sharedMem.len.toNat - memref.offset.toNat

/-- When the offset is inside the buffer, the subtraction of the source does not wrap. -/
theorem room_toNat (inside : memref.offset.toNat < sharedMem.len.toNat) :
    (sharedMem.len.setWidth 64 - memref.offset).toNat = room sharedMem memref := by
  unfold room
  bv_omega

/-- The check says what it should, although it subtracts first. -/
theorem isRefmemOffsetValid_iff :
    isRefmemOffsetValid sharedMem memref bufferSize = true ↔
      memref.offset.toNat < sharedMem.len.toNat ∧
        memref.offset.toNat + bufferSize.toNat ≤ sharedMem.len.toNat := by
  simp only [isRefmemOffsetValid, decide_eq_true_eq]
  constructor
  · rintro ⟨fits, inside⟩
    constructor
    · bv_omega
    · bv_omega
  · rintro ⟨inside, fits⟩
    constructor
    · bv_omega
    · bv_omega

end Offset

/-! ## What is read and written -/

/-- The bytes of a shared buffer from `lo` up to `hi`. -/
def TcNsSharedMem.bytes (sharedMem : TcNsSharedMem) (lo hi : Nat) : Set Address :=
  {a | ∃ k, lo ≤ k ∧ k < hi ∧ a = sharedMem.kernelAddr + BitVec.ofNat 64 k}

/-- What is copied in is a part of the shared buffer, and no number in the check wraps. -/
structure ReadsPart (sharedMem : TcNsSharedMem) (memref : Memref) (bufferSize : BitVec 32)
    (read : Address × BitVec 64) : Prop where
  bytes : range read.1 read.2.toNat =
    sharedMem.bytes memref.offset.toNat (memref.offset.toNat + bufferSize.toNat)
  fits : memref.offset.toNat + bufferSize.toNat ≤ sharedMem.len.toNat
  unwrapped : (sharedMem.len.setWidth 64 - memref.offset).toNat =
    sharedMem.len.toNat - memref.offset.toNat

/-- Something is copied out just when the operation has its block of the mailbox and the client's
size, which is read again, is large enough. It stays in the shared buffer from the offset on, and a
size that is too large for this is an error. -/
structure WritesPart (sharedMem : TcNsSharedMem) (memref : Memref) (operation : TcNsOperation)
    (sizeReRead : Option (BitVec 32)) (writeSize : Memory → Option Memory) (mem : Memory)
    (update : Update) : Prop where
  called : update.copied.isSome = true ↔ operation.mbBuffer.isSome = true ∧
    (writeSize mem).isSome = true ∧ ∃ origSize ∈ sizeReRead, operation.size ≤ origSize
  idle : update.copied = none → update.mem = mem ∨ writeSize mem = some update.mem
  inside : update.copied.isSome = true → ∃ mem', writeSize mem = some mem' ∧
    SameOutside (sharedMem.bytes memref.offset.toNat sharedMem.len.toNat) mem' update.mem
  large : sharedMem.len.toNat - memref.offset.toNat < operation.size.toNat →
    update.copied.isSome = true → update.ret = -eFAULT

section Part

variable {memcpyS : Copy} {virtToPhys : Address → BitVec 64} {sharedMemList : List TcNsSharedMem}
  {sharedMem : TcNsSharedMem} {memref : Memref} {operation : TcNsOperation} {mem : Memory}

theorem range_eq_bytes (size : Nat) :
    range (sharedMem.kernelAddr + memref.offset) size =
      sharedMem.bytes memref.offset.toNat (memref.offset.toNat + size) := by
  have shift : ∀ k, sharedMem.kernelAddr + BitVec.ofNat 64 (memref.offset.toNat + k) =
      sharedMem.kernelAddr + memref.offset + BitVec.ofNat 64 k := by
    intro k
    rw [BitVec.ofNat_add, BitVec.ofNat_toNat, BitVec.setWidth_eq, BitVec.add_assoc]
  ext a
  constructor
  · rintro ⟨k, inside, rfl⟩
    exact ⟨memref.offset.toNat + k, by omega, by omega, (shift k).symm⟩
  · rintro ⟨k, low, high, rfl⟩
    obtain ⟨j, rfl⟩ := Nat.exists_eq_add_of_le low
    exact ⟨j, by omega, shift j⟩

theorem mailboxCopyAlloc_read {mbAlloc : Option Address} {src : Address} {size : BitVec 64}
    {read : Address × BitVec 64}
    (copied : (mailboxCopyAlloc memcpyS mbAlloc src size mem).read = some read) :
    read = (src, size) := by
  unfold mailboxCopyAlloc at copied
  split at copied
  · cases copied
  · cases mbAlloc with
    | none => cases copied
    | some mbPtr => exact (Option.some.inj copied).symm

theorem finishAlloc_read {bufferSize : BitVec 32} {read : Option (Address × BitVec 64)} :
    (finishAlloc bufferSize operation mem read).read = read := by
  unfold finishAlloc
  split <;> rfl

theorem finishAlloc_sharemem {bufferSize : BitVec 32} {read : Option (Address × BitVec 64)} :
    (finishAlloc bufferSize operation mem read).operation.sharemem = operation.sharemem := by
  unfold finishAlloc
  split <;> rfl

/-- Something is copied in only from the client's buffer, after its offset was checked. -/
theorem allocForRefMem_read {sizeRead : Option (BitVec 32)} {mbAlloc : Option Address}
    {read : Address × BitVec 64}
    (copied : (allocForRefMem memcpyS virtToPhys sharedMemList memref sizeRead mbAlloc operation
      mem).read = some read) :
    ∃ sharedMem bufferSize, sizeRead = some bufferSize ∧
      sharedMemList.find? (fun sharedMem => sharedMem.userAddr == memref.buffer) = some sharedMem ∧
      isRefmemOffsetValid sharedMem memref bufferSize = true ∧
      read = (sharedMem.kernelAddr + memref.offset, bufferSize.setWidth 64) ∧
      ((allocForRefMem memcpyS virtToPhys sharedMemList memref sizeRead mbAlloc operation
        mem).ret = 0 →
        (allocForRefMem memcpyS virtToPhys sharedMemList memref sizeRead mbAlloc operation
          mem).operation.sharemem = some sharedMem) := by
  unfold allocForRefMem at copied ⊢
  cases sizeRead with
  | none => cases copied
  | some bufferSize =>
    dsimp only at copied ⊢
    split at copied
    · cases copied
    · rename_i nonzero
      rw [if_neg nonzero]
      cases found : sharedMemList.find? (fun sharedMem => sharedMem.userAddr == memref.buffer) with
      | none =>
        simp only [found, finishAlloc_read] at copied
        cases copied
      | some sharedMem =>
        simp only [found] at copied ⊢
        split at copied
        · rw [finishAlloc_read] at copied
          cases copied
        · rename_i valid
          simp only [if_neg valid]
          rw [Bool.not_eq_false] at valid
          refine ⟨sharedMem, bufferSize, rfl, rfl, valid, ?_⟩
          generalize alloc : mailboxCopyAlloc memcpyS mbAlloc (sharedMem.kernelAddr + memref.offset)
            (bufferSize.setWidth 64) mem = copyAlloc at copied ⊢
          have reads : copyAlloc.read = some read →
              read = (sharedMem.kernelAddr + memref.offset, bufferSize.setWidth 64) := by
            rw [← alloc]
            exact mailboxCopyAlloc_read
          obtain ⟨mbPtr, mem', read'⟩ := copyAlloc
          cases mbPtr with
          | none =>
            refine ⟨reads copied, ?_⟩
            intro done
            exact absurd done ClientCall.neg_eNOMEM
          | some bufferAddr =>
            simp only [finishAlloc_read] at copied
            exact ⟨reads copied, fun _ => finishAlloc_sharemem⟩

theorem updateForRefMem_writes (bounded : memcpyS.Bounded) (shared : operation.sharemem = some sharedMem)
    (inside : memref.offset.toNat < sharedMem.len.toNat) (sizeReRead : Option (BitVec 32))
    (writeSize : Memory → Option Memory) (mem : Memory) :
    WritesPart sharedMem memref operation sizeReRead writeSize mem
      (updateForRefMem memcpyS memref sizeReRead writeSize operation mem) := by
  have length := room_toNat inside
  unfold updateForRefMem
  cases sizeReRead with
  | none =>
    have idle : ¬ ∃ origSize ∈ (none : Option (BitVec 32)), operation.size ≤ origSize := by simp
    exact ⟨iff_of_false Bool.false_ne_true fun h => idle h.2.2, fun _ => .inl rfl, nofun,
      fun _ => nofun⟩
  | some origSize =>
    cases written : writeSize mem with
    | none =>
      have noWrite : ¬ (writeSize mem).isSome = true := by simp [written]
      exact ⟨iff_of_false Bool.false_ne_true fun h => noWrite h.2.1, fun _ => .inl rfl, nofun,
        fun _ => nofun⟩
    | some mem' =>
      have there : (writeSize mem).isSome = true := by rw [written]; rfl
      dsimp only
      rw [shared]
      cases block : operation.mbBuffer with
      | none =>
        have noBlock : ¬ operation.mbBuffer.isSome = true := by simp [block]
        exact ⟨iff_of_false Bool.false_ne_true fun h => noBlock h.1, fun _ => .inr written, nofun,
          fun _ => nofun⟩
      | some mbBuffer =>
        have given : operation.mbBuffer.isSome = true := by rw [block]; rfl
        dsimp only
        split
        · rename_i enough
          have frame := bounded.frame mem' (sharedMem.kernelAddr + memref.offset)
            (sharedMem.len.setWidth 64 - memref.offset) mbBuffer (operation.size.setWidth 64)
          have fits := bounded.fits mem' (sharedMem.kernelAddr + memref.offset)
            (sharedMem.len.setWidth 64 - memref.offset) mbBuffer (operation.size.setWidth 64)
          generalize memcpyS mem' _ _ mbBuffer _ = out at frame fits
          obtain ⟨copied, mem''⟩ := out
          refine ⟨iff_of_true rfl ⟨given, there, origSize, rfl, enough⟩, nofun,
            fun _ => ⟨mem', written, ?_⟩, fun large _ => ?_⟩
          · rw [length, range_eq_bytes] at frame
            have all : memref.offset.toNat + room sharedMem memref = sharedMem.len.toNat := by
              unfold room
              omega
            rw [all] at frame
            exact frame
          · have tooMuch : ¬ operation.size.setWidth 64 ≤
                sharedMem.len.setWidth 64 - memref.offset := by
              rw [BitVec.le_def, length]
              unfold room
              rw [BitVec.toNat_setWidth_of_le (by decide)]
              omega
            exact if_pos fun done => tooMuch (fits done)
        · rename_i short
          refine ⟨iff_of_false Bool.false_ne_true ?_, fun _ => .inr written, nofun, fun _ => nofun⟩
          rintro ⟨-, -, size, same, enough⟩
          rw [Option.some.inj same] at short
          exact short enough

/-- Whatever the client's offset and the sizes are: what is copied in lies in the shared buffer,
and what is copied out there later, with any size from the TEE, stays in it from the offset on. -/
theorem partial_access_inside (bounded : memcpyS.Bounded) {sizeRead : Option (BitVec 32)}
    {mbAlloc : Option Address} {read : Address × BitVec 64}
    (copied : (allocForRefMem memcpyS virtToPhys sharedMemList memref sizeRead mbAlloc operation
      mem).read = some read) :
    ∃ sharedMem ∈ sharedMemList, ∃ bufferSize, sharedMem.userAddr = memref.buffer ∧
      sizeRead = some bufferSize ∧ ReadsPart sharedMem memref bufferSize read ∧
      ((allocForRefMem memcpyS virtToPhys sharedMemList memref sizeRead mbAlloc operation
        mem).ret = 0 →
        (allocForRefMem memcpyS virtToPhys sharedMemList memref sizeRead mbAlloc operation
          mem).operation.sharemem = some sharedMem) ∧
      ∀ (later : TcNsOperation) sizeReRead writeSize mem', later.sharemem = some sharedMem →
        WritesPart sharedMem memref later sizeReRead writeSize mem'
          (updateForRefMem memcpyS memref sizeReRead writeSize later mem') := by
  obtain ⟨sharedMem, bufferSize, hread, found, valid, rfl, shares⟩ := allocForRefMem_read copied
  obtain ⟨inside, fits⟩ := isRefmemOffsetValid_iff.1 valid
  have client : sharedMem.userAddr = memref.buffer := by
    simpa using List.find?_some found
  have part : ReadsPart sharedMem memref bufferSize
      (sharedMem.kernelAddr + memref.offset, bufferSize.setWidth 64) := by
    refine ⟨?_, fits, room_toNat inside⟩
    rw [range_eq_bytes, BitVec.toNat_setWidth_of_le (by decide)]
  refine ⟨sharedMem, List.mem_of_find?_eq_some found, bufferSize, client, hread, part, shares, ?_⟩
  intro later sizeReRead writeSize mem' shared
  exact updateForRefMem_writes bounded shared inside sizeReRead writeSize mem'

end Part

section Example

/-- `memcpy_s`, which clears the destination on most of its errors. -/
def memcpySOf : Copy := fun mem dest destMax src count =>
  let reset := fill mem dest destMax.toNat fun _ => 0
  if destMax = 0 ∨ destMax > 0x7FFFFFFF then (34, mem)
  else if dest = 0 then (22, mem)
  else if src = 0 then (150, reset)
  else if count > destMax then (162, reset)
  else if dest ≠ src ∧ (dest - src < count ∨ src - dest < count) then (182, reset)
  else (0, fill mem dest count.toNat fun k => mem (src + BitVec.ofNat 64 k))

theorem memcpySOf_bounded : memcpySOf.Bounded := by
  constructor
  · intro mem dest destMax src count
    have reset := fill_sameOutside mem dest (Nat.le_refl destMax.toNat) fun _ => 0
    unfold memcpySOf
    split
    · exact .refl _ _
    · split
      · exact .refl _ _
      · split
        · exact reset
        · split
          · exact reset
          · rename_i fits
            split
            · exact reset
            · have le : count.toNat ≤ destMax.toNat := BitVec.le_def.1 (BitVec.not_lt.1 fits)
              exact fill_sameOutside mem dest le fun k => mem (src + BitVec.ofNat 64 k)
  · intro mem dest destMax src count
    unfold memcpySOf
    grind

/-- 64 bytes at 256 of a buffer of 8192 bytes. -/
def allocPart : Alloc :=
  allocForRefMem memcpySOf (fun a => a - 0x10000) [⟨1, 0x1000, 0x8000, 8192⟩] ⟨0x1000, 256⟩
    (some 64) (some 0x20000) {} fun a => a.setWidth 8

theorem partial_access_inside_allocPart :
    allocPart.ret = 0 ∧ allocPart.read = some (0x8100, 64) ∧
      ∃ sharedMem ∈ [(⟨1, 0x1000, 0x8000, 8192⟩ : TcNsSharedMem)], ∃ bufferSize,
        sharedMem.userAddr = 0x1000 ∧ some 64 = some bufferSize ∧
        ReadsPart sharedMem ⟨0x1000, 256⟩ bufferSize (0x8100, 64) ∧
        (allocPart.ret = 0 → allocPart.operation.sharemem = some sharedMem) ∧
        ∀ (later : TcNsOperation) sizeReRead writeSize mem', later.sharemem = some sharedMem →
          WritesPart sharedMem ⟨0x1000, 256⟩ later sizeReRead writeSize mem'
            (updateForRefMem memcpySOf ⟨0x1000, 256⟩ sizeReRead writeSize later mem') := by
  have read : allocPart.read = some (0x8100, 64) := by decide +kernel
  exact ⟨by decide +kernel, read, partial_access_inside memcpySOf_bounded read⟩

end Example

/-! ## The part of a call -/

section Call

variable {memcpyS : Copy} {virtToPhys : Address → BitVec 64} {sharedMemList : List TcNsSharedMem}
  {memref : Memref} {operation : TcNsOperation} {mem : Memory}
  {p : ClientCall.CallParams} {e : ClientCall.ParamEnv} {op : ClientCall.OpParams} {index : Nat}

def TcNsSharedMem.toSharedMem (sharedMem : TcNsSharedMem) : ClientCall.SharedMem :=
  ⟨sharedMem.id, sharedMem.userAddr.toNat, sharedMem.kernelAddr.toNat, sharedMem.len.toNat⟩

def Memref.toClientParam (memref : Memref) : ClientCall.ClientParam :=
  ⟨memref.buffer.toNat, memref.offset.toNat⟩

/-- The call has this memory reference and these shared buffers. -/
structure Describes (p : ClientCall.CallParams) (index : Nat) (sharedMemList : List TcNsSharedMem)
    (memref : Memref) : Prop where
  list : p.dev.sharedMemList = sharedMemList.map TcNsSharedMem.toSharedMem
  param : p.context.params index = memref.toClientParam

/-- The call has for its parameter what `struct tc_ns_operation` has. -/
structure Holds (op : ClientCall.OpParams) (index : Nat) (operation : TcNsOperation) : Prop where
  size : op.memrefSize index = operation.size.toNat
  mbBuffer : op.mbBuffer index = operation.mbBuffer.map BitVec.toNat
  sharemem : op.sharemem index = operation.sharemem.map TcNsSharedMem.toSharedMem

theorem isRefmemOffsetValid_toSharedMem (sharedMem : TcNsSharedMem) (memref : Memref)
    (bufferSize : BitVec 32) :
    ClientCall.isRefmemOffsetValid sharedMem.toSharedMem memref.toClientParam bufferSize.toNat =
      isRefmemOffsetValid sharedMem memref bufferSize := by
  rw [Bool.eq_iff_iff, isRefmemOffsetValid_iff, ClientCall.isRefmemOffsetValid, decide_eq_true_iff]
  simp only [TcNsSharedMem.toSharedMem, Memref.toClientParam]
  have len := sharedMem.len.isLt
  have offset := memref.offset.isLt
  omega

theorem sharedMemOf_eq (describes : Describes p index sharedMemList memref) :
    ClientCall.sharedMemOf p index = (sharedMemList.find? fun sharedMem =>
      sharedMem.userAddr == memref.buffer).map TcNsSharedMem.toSharedMem := by
  rw [ClientCall.sharedMemOf, describes.list, describes.param, List.find?_map]
  congr 2
  ext sharedMem
  simp [TcNsSharedMem.toSharedMem, Memref.toClientParam, BitVec.toNat_inj]

/-- The two halves of an address that is not 0 are not both 0. -/
theorem isPhyaddrValid_of_ne {addr : BitVec 64} (operation : TcNsOperation) (nonzero : addr ≠ 0)
    (low : operation.buffer = addr.setWidth 32)
    (high : operation.bufferHAddr = (addr >>> 32).setWidth 32) : isPhyaddrValid operation = true := by
  rw [isPhyaddrValid, low, high, Bool.not_eq_true', Bool.and_eq_false_iff]
  simp only [beq_eq_false_iff_ne]
  by_contra both
  simp only [not_or, not_not] at both
  have shift := BitVec.toNat_ushiftRight addr 32
  rw [Nat.shiftRight_eq_div_pow] at shift
  bv_omega

/-- Allocating a parameter of a call returns what it returns on the memory, and takes the same
mailbox block and the same shared buffer. -/
theorem allocForRefMem_ret (describes : Describes p index sharedMemList memref)
    {sizeRead : Option (BitVec 32)} {mbAlloc : Option Address}
    (size : e.sizeRead = sizeRead.map BitVec.toNat)
    (alloc : ∀ sharedMem bufferSize, sizeRead = some bufferSize →
      sharedMemList.find? (fun sharedMem => sharedMem.userAddr == memref.buffer) = some sharedMem →
      e.mbAlloc = (mailboxCopyAlloc memcpyS mbAlloc (sharedMem.kernelAddr + memref.offset)
        (bufferSize.setWidth 64) mem).mbPtr.map BitVec.toNat)
    (phys : ∀ a, virtToPhys a ≠ 0) (fresh : operation.bufferHAddr = 0) :
    (ClientCall.allocForRefMem p e op index).1 = (allocForRefMem memcpyS virtToPhys sharedMemList
      memref sizeRead mbAlloc operation mem).ret ∧
    ((ClientCall.allocForRefMem p e op index).1 = 0 →
      Holds (ClientCall.allocForRefMem p e op index).2 index (allocForRefMem memcpyS virtToPhys
        sharedMemList memref sizeRead mbAlloc operation mem).operation) := by
  have search := sharedMemOf_eq describes
  unfold ClientCall.sharedMemOf at search
  unfold ClientCall.allocForRefMem allocForRefMem
  rw [size, search]
  cases sizeRead with
  | none => exact ⟨rfl, fun done => absurd done ClientCall.neg_eINVAL⟩
  | some bufferSize =>
    simp only [Option.map_some]
    by_cases zero : bufferSize = 0
    · subst zero
      exact ⟨rfl, fun done => absurd done ClientCall.neg_eINVAL⟩
    · have nonzero : bufferSize.toNat ≠ 0 := by bv_omega
      rw [if_neg nonzero, if_neg zero]
      have nothing : (finishAlloc bufferSize { operation with buffer := 0 } mem none).ret =
          -eINVAL := by
        rw [finishAlloc, if_pos (by simp [isPhyaddrValid, fresh])]
      cases found : sharedMemList.find? (fun sharedMem => sharedMem.userAddr == memref.buffer) with
      | none => exact ⟨nothing.symm, fun done => absurd done ClientCall.neg_eINVAL⟩
      | some sharedMem =>
        simp only [Option.map_some, describes.param, isRefmemOffsetValid_toSharedMem,
          alloc sharedMem bufferSize rfl found]
        by_cases valid : isRefmemOffsetValid sharedMem memref bufferSize = false
        · rw [if_pos valid, if_pos valid]
          exact ⟨nothing.symm, fun done => absurd done ClientCall.neg_eINVAL⟩
        · rw [if_neg valid, if_neg valid]
          generalize mailboxCopyAlloc memcpyS mbAlloc _ _ mem = copyAlloc
          obtain ⟨mbPtr, mem', read⟩ := copyAlloc
          cases mbPtr with
          | none => exact ⟨rfl, fun done => absurd done ClientCall.neg_eNOMEM⟩
          | some bufferAddr =>
            have somewhere : isPhyaddrValid { operation with
                buffer := (virtToPhys bufferAddr).setWidth 32
                bufferHAddr := (virtToPhys bufferAddr >>> 32).setWidth 32
                sharemem := some sharedMem
                mbBuffer := some bufferAddr } = true :=
              isPhyaddrValid_of_ne _ (phys bufferAddr) rfl rfl
            simp only [Option.map_some, finishAlloc, somewhere, Bool.true_eq_false, if_false]
            refine ⟨trivial, fun _ => ⟨?_, ?_, ?_⟩⟩
            · exact Function.update_self _ _ _
            · exact Function.update_self _ _ _
            · exact Function.update_self _ _ _

/-- Updating a parameter of a call returns what it returns on the memory, and tells of a copy when
`memcpy_s` succeeds. -/
theorem updateForRefMem_ret (describes : Describes p index sharedMemList memref)
    {sizeReRead : Option (BitVec 32)} {writeSize : Memory → Option Memory}
    {succeeds : Nat → Nat → Bool}
    (reRead : e.sizeReRead = sizeReRead.map BitVec.toNat)
    (write : e.sizeWrite = (writeSize mem).isSome)
    (holds : Holds op index operation)
    (success : ∀ mem' sharedMem src, writeSize mem = some mem' →
      operation.sharemem = some sharedMem → operation.mbBuffer = some src →
      succeeds (sharedMem.len.setWidth 64 - memref.offset).toNat operation.size.toNat =
        decide ((memcpyS mem' (sharedMem.kernelAddr + memref.offset)
          (sharedMem.len.setWidth 64 - memref.offset) src (operation.size.setWidth 64)).1 = 0)) :
    (ClientCall.updateForRefMem p succeeds e op index).1 =
      (updateForRefMem memcpyS memref sizeReRead writeSize operation mem).ret ∧
    (ClientCall.updateForRefMem p succeeds e op index).2 =
      if (updateForRefMem memcpyS memref sizeReRead writeSize operation mem).copied = some 0 then
        op.log (.copyOut index operation.size.toNat) else op := by
  unfold ClientCall.updateForRefMem updateForRefMem
  rw [reRead, write, holds.size, holds.mbBuffer, holds.sharemem, describes.param]
  cases sizeReRead with
  | none => exact ⟨rfl, rfl⟩
  | some origSize =>
    simp only [Option.map_some]
    cases written : writeSize mem with
    | none => exact ⟨rfl, rfl⟩
    | some mem' =>
      simp only [Option.isSome_some, Bool.true_eq_false, if_false]
      cases buffer : operation.mbBuffer with
      | none => exact ⟨rfl, rfl⟩
      | some src =>
        cases shared : operation.sharemem with
        | none => exact ⟨rfl, rfl⟩
        | some sharedMem =>
          have copies := success mem' sharedMem src written shared buffer
          have length : (2 ^ 64 + sharedMem.len.toNat - memref.offset.toNat) % 2 ^ 64 =
              (sharedMem.len.setWidth 64 - memref.offset).toNat := by bv_omega
          simp only [Option.map_some, TcNsSharedMem.toSharedMem, Memref.toClientParam, length,
            copies, ge_iff_le, ← BitVec.le_def]
          generalize memcpyS mem' _ _ src _ = out
          obtain ⟨copied, mem''⟩ := out
          by_cases enough : operation.size ≤ origSize
          · by_cases done : copied = 0
            · simp [enough, done]
            · simp [enough, done]
          · simp [enough]

end Call
end PartialAccess
