import Mathlib.Data.List.Nodup
import Tzdriver.ActionSystem
import Tzdriver.BoundsCheck
import Tzdriver.ByteRange
import Tzdriver.MemoryCells

/-!
# Saving the secure memory over a hibernation

`core/tz_pm.c`: before the kernel writes its image to disk, the driver has the TEE encrypt the secure
memory piece by piece into a shared buffer and copies every piece into kernel memory. After the restore
the pieces go back the same way and the TEE decrypts them. The TEE is not part of the driver:
`crypto` stands for the SMC and `Documented` for what its two commands do to physical memory.

`mapped` and `images` are the areas of `vmap` and `vmalloc` that are out, and `fault` is set when one is
released that is not. `none` is `NULL`.
-/

namespace Hibernation

open ByteRange MemoryCells

def s4Addr4G : Nat := 0xffffffff
def reservedSecosPhymemBase : Nat := 0x22800000
def reservedSecosPhymemSize : Nat := 0x3000000
def reservedSecosS4Base : Nat := 0x27760000
def reservedSecosS4Size : Nat := 0x100000
def pageSize : Nat := 4096
def eFAULT : Int := 14
def eNOMEM : Int := 12

inductive PowerOp where
  | suspend
  | resume
  deriving DecidableEq, Repr

inductive CryptOp where
  | encryptAndCopy
  | decryptAndCopy
  deriving DecidableEq, Repr

structure S4State where
  gS4KernelMemAddr : Option Nat := none
  gS4BufferVaddr : Option Nat := none
  gS4BufferPaddr : Nat := 0
  gS4BufferSize : Nat := 0
  phys : Nat → UInt8
  kernel : Nat → UInt8
  mapped : List Nat := []
  images : List Nat := []
  fault : Bool := false

/-- `tc_s4_crypto_and_copy`: the command, the addresses of the buffer and of the secure memory, the
size and the index. It says whether the SMC returned 0, and leaves a physical memory. -/
abbrev Crypto := CryptOp → Nat → Nat → Nat → Nat → (Nat → UInt8) → Bool × (Nat → UInt8)

/-- What one suspend or resume meets: `kzalloc` of the page array, `vmap`, `vmalloc`, whether
`tc_s4_suspend_or_resume` returns 0, and the TEE. -/
structure PmEnv where
  pages : Bool := true
  vmap : Option Nat := none
  vmalloc : Option Nat := none
  powerSmc : Bool := true
  crypto : Crypto

/-- `memcpy_s` returns `EOK`. -/
def memcpyOk (dest src : Option Nat) (destMax count : Nat) : Bool :=
  decide ((BoundsCheck.memcpyS dest.isSome src.isSome destMax count () () ()).1 = 0)

theorem memcpyOk_iff {dest src : Option Nat} {destMax count : Nat} :
    memcpyOk dest src destMax count = true ↔ dest.isSome = true ∧ src.isSome = true ∧
      0 < destMax ∧ destMax ≤ BoundsCheck.securecMemMaxLen ∧ count ≤ destMax := by
  rw [memcpyOk, decide_eq_true_iff, BoundsCheck.memcpyS_ok_iff]

def S4State.vunmap (s : S4State) : Option Nat → S4State
  | none => s
  | some a => { s with mapped := s.mapped.erase a, fault := s.fault || !s.mapped.contains a }

def S4State.vfree (s : S4State) : Option Nat → S4State
  | none => s
  | some a => { s with images := s.images.erase a, fault := s.fault || !s.images.contains a }

/-- `tc_vmap`: the address of the new area and of `paddr` in it. -/
def tcVmap (env : PmEnv) (paddr : Nat) : Option (Nat × Nat) :=
  if env.pages = false then none
  else env.vmap.map fun area => (area, paddr % pageSize + area)

/-- `tc_s4_alloc_crypto_buffer`: the return code and `*kernel_mem_addr`. -/
def tcS4AllocCryptoBuffer (env : PmEnv) (s : S4State) : Int × Option Nat × S4State :=
  if reservedSecosS4Base > s4Addr4G then (-eFAULT, none, s)
  else
    match tcVmap env reservedSecosS4Base with
    | none => (-eFAULT, none, { s with gS4BufferVaddr := none })
    | some (area, vaddr) =>
      let s := { s with
        gS4BufferVaddr := some vaddr
        gS4BufferPaddr := reservedSecosS4Base
        gS4BufferSize := reservedSecosS4Size
        mapped := area :: s.mapped }
      match env.vmalloc with
      | none =>
        (-eNOMEM, none, { s.vunmap s.gS4BufferVaddr with
          gS4BufferPaddr := 0, gS4BufferVaddr := none, gS4BufferSize := 0 })
      | some addr => (0, some addr, { s with images := addr :: s.images })

/-- One round of the loop of `tc_s4_transfer_data`. What the mapping shows is the physical memory
from `RESERVED_SECOS_S4_BASE` on. -/
def transferRound (crypto : Crypto) (cryptOp : CryptOp) (kernelMemAddr : Option Nat)
    (copiedSize index : Nat) (s : S4State) : Int × S4State :=
  let size := s.gS4BufferSize
  let addr := kernelMemAddr.getD 0 + copiedSize
  if cryptOp = .decryptAndCopy ∧ memcpyOk s.gS4BufferVaddr kernelMemAddr size size = false then
    (-eFAULT, s)
  else
    let phys := if cryptOp = .decryptAndCopy then
      write s.phys reservedSecosS4Base (slice s.kernel addr size) else s.phys
    match crypto cryptOp s.gS4BufferPaddr (reservedSecosPhymemBase + copiedSize) size index phys with
    | (false, phys) => (-eFAULT, { s with phys := phys })
    | (true, phys) =>
      if cryptOp = .encryptAndCopy then
        if memcpyOk kernelMemAddr s.gS4BufferVaddr size size = false then
          (-eFAULT, { s with phys := phys })
        else
          (0, { s with
            phys := phys, kernel := write s.kernel addr (slice phys reservedSecosS4Base size) })
      else (0, { s with phys := phys })

/-- The loop of `tc_s4_transfer_data` from `copied_size` on; `none`: it does not end, because the
buffer has no size. The sizes that occur keep `copied_size` in 32 bits. -/
def transferFrom (crypto : Crypto) (cryptOp : CryptOp) (kernelMemAddr : Option Nat)
    (copiedSize index : Nat) (s : S4State) : Option (Int × S4State) :=
  if copiedSize < reservedSecosPhymemSize then
    match transferRound crypto cryptOp kernelMemAddr copiedSize index s with
    | (ret, s) =>
      if ret ≠ 0 then some (ret, s)
      else if 0 < s.gS4BufferSize then
        transferFrom crypto cryptOp kernelMemAddr (copiedSize + s.gS4BufferSize) (index + 1) s
      else none
  else some (0, s)
termination_by reservedSecosPhymemSize - copiedSize

/-- `tc_s4_transfer_data`. -/
def tcS4TransferData (crypto : Crypto) (kernelMemAddr : Option Nat) (cryptOp : CryptOp)
    (s : S4State) : Option (Int × S4State) :=
  transferFrom crypto cryptOp kernelMemAddr 0 0 s

/-- The label `free_resource`. -/
def freeResource (kernelMemAddr : Option Nat) (s : S4State) : S4State :=
  { (s.vunmap s.gS4BufferVaddr).vfree kernelMemAddr with
    gS4KernelMemAddr := none, gS4BufferPaddr := 0, gS4BufferVaddr := none, gS4BufferSize := 0 }

/-- `tc_s4_pm_ops` behind the allocation. -/
def transferAndNotify (env : PmEnv) (powerOp : PowerOp) (cryptOp : CryptOp)
    (kernelMemAddr : Option Nat) (s : S4State) : Option (Int × S4State) :=
  if powerOp = .suspend ∧ env.powerSmc = false then
    some (-eFAULT, freeResource kernelMemAddr s)
  else
    match tcS4TransferData env.crypto kernelMemAddr cryptOp s with
    | none => none
    | some (ret, s) =>
      if ret ≠ 0 then some (ret, freeResource kernelMemAddr s)
      else if powerOp = .resume then
        some (if env.powerSmc then 0 else -eFAULT, freeResource kernelMemAddr s)
      else some (0, s)

/-- `tc_s4_pm_ops`. -/
def tcS4PmOps (env : PmEnv) (powerOp : PowerOp) (cryptOp : CryptOp) (s : S4State) :
    Option (Int × S4State) :=
  match powerOp with
  | .suspend =>
    match tcS4AllocCryptoBuffer env s with
    | (ret, kernelMemAddr, s) =>
      if ret ≠ 0 then some (ret, s)
      else transferAndNotify env .suspend cryptOp kernelMemAddr
        { s with gS4KernelMemAddr := kernelMemAddr }
  | .resume => transferAndNotify env .resume cryptOp s.gS4KernelMemAddr s

/-- `tc_s4_pm_suspend`. -/
def tcS4PmSuspend (env : PmEnv) (s : S4State) : Option (Int × S4State) :=
  tcS4PmOps env .suspend .encryptAndCopy s

/-- `tc_s4_pm_resume`. -/
def tcS4PmResume (env : PmEnv) (s : S4State) : Option (Int × S4State) :=
  tcS4PmOps env .resume .decryptAndCopy s

end Hibernation
