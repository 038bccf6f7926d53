import Mathlib.Algebra.Group.Nat.Defs
import Tzdriver.ByteRange
import Tzdriver.TeecdAuth

/-!
# The hash of the daemon's code

`update_task_hash` feeds the code segment of a process to the hash page by page, and
`check_teecd_code_hash` compares the result with the one of the first start. Each round advances by
a page or by what is left, but hashes from the base of the page that holds its address. The
bytes that reach the hash therefore begin at the page of `start_code`: they are the code when
it starts at a page, and otherwise its last bytes are missing and foreign ones stand in front.

The memory of a process is a function from addresses to bytes that does not change while
`mmap_sem` is held. The hash function is a parameter; pinning, mapping and hashing a page are
outcomes by the address of the round.
-/

namespace TaskHash

open ByteRange
open TeecdAuth (Digest eFAULT eACCES)

def eNOMEM : Int := 12
def eINVAL : Int := 22
def sha256DigestLenth : Nat := 32
def pinedPageNumber : Int := 1

/-- The code range of a `struct mm_struct`. -/
structure MmStruct where
  startCode : UInt64
  endCode : UInt64

namespace MmStruct

/-- The code segment in a memory. -/
def code (mm : MmStruct) (mem : Nat → UInt8) : List UInt8 :=
  slice mem mm.startCode.toNat (mm.endCode.toNat - mm.startCode.toNat)

/-- The base of the page on which the code starts. -/
def pageBase (mm : MmStruct) (pageShift : Nat) : Nat :=
  mm.startCode.toNat / 2 ^ pageShift * 2 ^ pageShift

end MmStruct

structure Env where
  getUserPages : Nat → Int
  kmapAtomic : Nat → Bool
  shashUpdate : Nat → Int

/-- What `crypto_shash_update` has been given, and the pages held and mapped. -/
structure Progress where
  fed : List UInt8 := []
  pinned : Nat := 0
  mapped : Nat := 0
  deriving DecidableEq, Repr

section Update

variable (env : Env) (mem : Nat → UInt8) (pageShift : Nat)

/-- The loop of `update_task_hash`; `PAGE_SIZE` is `2 ^ pageShift`. -/
def updateLoop (endCode startCode : Nat) (rc : Int) (p : Progress) : Int × Progress :=
  if startCode < endCode then
    if env.getUserPages startCode ≠ pinedPageNumber then (-eFAULT, p)
    else
      let p := { p with pinned := p.pinned + 1 }
      if env.kmapAtomic startCode = false then (-eFAULT, { p with pinned := p.pinned - 1 })
      else
        let p := { p with mapped := p.mapped + 1 }
        -- `code_size` is computed again after each round
        let codeSize := endCode - startCode
        let inSize := if codeSize > 2 ^ pageShift then 2 ^ pageShift else codeSize
        let ptrBase := startCode / 2 ^ pageShift * 2 ^ pageShift
        let p := { p with fed := p.fed ++ slice mem ptrBase inSize }
        let rc := env.shashUpdate startCode
        let p := { p with mapped := p.mapped - 1, pinned := p.pinned - 1 }
        if rc ≠ 0 then (rc, p) else updateLoop endCode (startCode + inSize) rc p
  else (rc, p)
termination_by endCode - startCode
decreasing_by
  have := Nat.two_pow_pos pageShift
  split <;> omega

/-- `update_task_hash`. -/
def updateTaskHash (mm : MmStruct) : Int × Progress :=
  if mm.endCode - mm.startCode = 0 then (-eINVAL, {})
  else updateLoop env mem pageShift mm.endCode.toNat mm.startCode.toNat (-1) {}

end Update

/-- A process; a kernel thread has no `mm`. -/
structure Task where
  mm : Option MmStruct
  mem : Nat → UInt8

/-- Outcomes of what `calc_task_hash` calls. -/
structure HashEnv extends Env where
  prepareDesc : Bool
  shashInit : Bool
  shashFinal : Int

section Hash

variable (sha256 : List UInt8 → Digest) (env : HashEnv) (pageShift : Nat) (cur : Task)

/-- `calc_task_hash` of a process for a digest of `digLen` bytes. -/
def calcTaskHash (digLen : Nat) : Int × Option Digest :=
  if digLen ≠ sha256DigestLenth then (-eFAULT, none)
  else
    match cur.mm with
    | none => (0, some (Vector.replicate 32 0))
    | some mm =>
      if env.prepareDesc = false then (-eNOMEM, none)
      else if env.shashInit = false then (-eNOMEM, none)
      else
        match updateTaskHash env.toEnv cur.mem pageShift mm with
        | (rc, p) =>
          if rc ≠ 0 then (-eNOMEM, none)
          else if env.shashFinal ≠ 0 then (env.shashFinal, none)
          else (0, some (sha256 p.fed))

/-- `g_teecd_hash_calced` and `g_teecd_calc_hash`. -/
structure Globals where
  hashCalced : Bool := false
  calcHash : Digest := Vector.replicate 32 0

/-- `calc_teecd_process_hash`. -/
def calcTeecdProcessHash (g : Globals) : Int × Globals :=
  if g.hashCalced then (0, g)
  else
    let g := { g with calcHash := Vector.replicate 32 0 }
    match cur.mm, calcTaskHash sha256 env pageShift cur sha256DigestLenth with
    | some _, (0, digest) => (0, { hashCalced := true, calcHash := digest.getD g.calcHash })
    | _, _ => (-eFAULT, g)

/-- `check_teecd_code_hash`. -/
def checkTeecdCodeHash (g : Globals) : Int :=
  if g.hashCalced = false then 0
  else
    match calcTaskHash sha256 env pageShift cur sha256DigestLenth with
    | (ret, digest) =>
      if ret ≠ 0 then -eACCES
      else if digest ≠ some g.calcHash then -eACCES
      else 0

end Hash

section Loop

variable {env : Env} {mem : Nat → UInt8} {pageShift : Nat}

/-- Every page that was pinned or mapped is given back. -/
theorem updateLoop_balanced (endCode startCode : Nat) (rc : Int) (p : Progress) :
    (updateLoop env mem pageShift endCode startCode rc p).2.pinned = p.pinned ∧
      (updateLoop env mem pageShift endCode startCode rc p).2.mapped = p.mapped := by
  fun_induction updateLoop env mem pageShift endCode startCode rc p with
  | case1 => exact ⟨rfl, rfl⟩
  | case2 => exact ⟨rfl, rfl⟩
  | case3 => exact ⟨rfl, rfl⟩
  | case4 _ _ _ _ _ _ _ _ _ _ _ _ _ _ _ ih => exact ih
  | case5 => exact ⟨rfl, rfl⟩

/-- Every page of the range can be pinned, mapped and hashed. -/
def Env.Succeeds (env : Env) (startCode endCode : Nat) : Prop :=
  ∀ a, startCode ≤ a → a < endCode →
    env.getUserPages a = pinedPageNumber ∧ env.kmapAtomic a = true ∧ env.shashUpdate a = 0

/-- The loop feeds as many bytes as are left, from the base of the current page on. -/
theorem updateLoop_fed (endCode startCode : Nat) (rc : Int) (p : Progress)
    (ok : env.Succeeds startCode endCode) :
    updateLoop env mem pageShift endCode startCode rc p =
      (if startCode < endCode then 0 else rc,
        { p with
          fed := p.fed ++
            slice mem (startCode / 2 ^ pageShift * 2 ^ pageShift) (endCode - startCode) }) := by
  have page := Nat.two_pow_pos pageShift
  induction left : endCode - startCode using Nat.strongRecOn generalizing startCode rc p with
  | ind n ih =>
    subst left
    rw [updateLoop]
    by_cases more : startCode < endCode
    · obtain ⟨pinned, mapped, hashed⟩ := ok startCode le_rfl more
      simp only [if_pos more, pinned, mapped, hashed, ne_eq, not_true_eq_false, if_false,
        Bool.true_eq_false, Nat.add_sub_cancel]
      by_cases whole : endCode - startCode > 2 ^ pageShift
      · -- a whole page, and the next round starts one page further
        have next : (startCode + 2 ^ pageShift) / 2 ^ pageShift * 2 ^ pageShift =
            startCode / 2 ^ pageShift * 2 ^ pageShift + 2 ^ pageShift := by
          rw [Nat.add_div_right _ page, Nat.succ_mul]
        have rest : endCode - startCode =
            2 ^ pageShift + (endCode - (startCode + 2 ^ pageShift)) := by
          omega
        have later : env.Succeeds (startCode + 2 ^ pageShift) endCode :=
          fun a low high => ok a (by omega) high
        rw [if_pos whole, ih _ (by omega) _ _ _ later rfl, if_pos (by omega), next,
          List.append_assoc]
        conv_rhs => rw [rest, slice_add]
      · -- what is left, after which the loop ends
        have done : startCode + (endCode - startCode) = endCode := by omega
        rw [if_neg whole, done, updateLoop, if_neg (Nat.lt_irrefl _)]
    · have none_ : endCode - startCode = 0 := by omega
      simp [more, none_]

end Loop

section Coverage

variable {env : Env} {mm : MmStruct} (nonempty : mm.startCode < mm.endCode)
  (ok : env.Succeeds mm.startCode.toNat mm.endCode.toNat) (pageShift : Nat)

include nonempty ok

/-- `update_task_hash` feeds the bytes from the page of `start_code` on. -/
theorem updateTaskHash_fed (mem : Nat → UInt8) :
    updateTaskHash env mem pageShift mm =
      (0, { fed := slice mem (mm.pageBase pageShift)
              (mm.endCode.toNat - mm.startCode.toNat) }) := by
  have less : mm.startCode.toNat < mm.endCode.toNat := UInt64.lt_iff_toNat_lt.mp nonempty
  have size : mm.endCode - mm.startCode ≠ 0 := by
    intro zero
    have same : mm.endCode = mm.startCode := by grind
    rw [same] at less
    omega
  rw [updateTaskHash, if_neg size, updateLoop_fed _ _ _ _ ok, if_pos less]
  rfl

theorem fed_eq_code_iff (mem : Nat → UInt8) :
    (updateTaskHash env mem pageShift mm).2.fed = mm.code mem ↔
      ∀ i, i < mm.endCode.toNat - mm.startCode.toNat →
        mem (mm.pageBase pageShift + i) = mem (mm.startCode.toNat + i) := by
  rw [updateTaskHash_fed nonempty ok]
  exact slice_eq_iff

/-- Two processes are fed alike exactly if they agree from the page of `start_code` on. -/
theorem fed_eq_fed_iff (mem mem' : Nat → UInt8) :
    (updateTaskHash env mem pageShift mm).2.fed = (updateTaskHash env mem' pageShift mm).2.fed ↔
      ∀ i, i < mm.endCode.toNat - mm.startCode.toNat →
        mem (mm.pageBase pageShift + i) = mem' (mm.pageBase pageShift + i) := by
  rw [updateTaskHash_fed nonempty ok, updateTaskHash_fed nonempty ok]
  exact slice_eq_iff

end Coverage

section Check

variable {sha256 : List UInt8 → Digest} {env : HashEnv} {mm : MmStruct} {pageShift : Nat}

/-- Every call of `calc_task_hash` succeeds. -/
def HashEnv.Succeeds (env : HashEnv) (mm : MmStruct) : Prop :=
  env.toEnv.Succeeds mm.startCode.toNat mm.endCode.toNat ∧
    env.prepareDesc = true ∧ env.shashInit = true ∧ env.shashFinal = 0

/-- The bytes that reach the hash. -/
def MmStruct.hashed (mm : MmStruct) (pageShift : Nat) (mem : Nat → UInt8) : List UInt8 :=
  slice mem (mm.pageBase pageShift) (mm.endCode.toNat - mm.startCode.toNat)

theorem calcTaskHash_eq (nonempty : mm.startCode < mm.endCode) (ok : env.Succeeds mm)
    (mem : Nat → UInt8) :
    calcTaskHash sha256 env pageShift ⟨some mm, mem⟩ sha256DigestLenth =
      (0, some (sha256 (mm.hashed pageShift mem))) := by
  obtain ⟨pages, desc, init, final⟩ := ok
  simp [calcTaskHash, desc, init, final, updateTaskHash_fed nonempty pages, MmStruct.hashed]

/-- A process passes the check exactly if the bytes from the page of its `start_code` on have the
hash of those of the first daemon. -/
theorem checkTeecdCodeHash_iff (nonempty : mm.startCode < mm.endCode) (ok : env.Succeeds mm)
    {g : Globals} (first : g.hashCalced = false) (mem mem' : Nat → UInt8) :
    checkTeecdCodeHash sha256 env pageShift ⟨some mm, mem'⟩
        (calcTeecdProcessHash sha256 env pageShift ⟨some mm, mem⟩ g).2 = 0 ↔
      sha256 (mm.hashed pageShift mem') = sha256 (mm.hashed pageShift mem) := by
  simp only [checkTeecdCodeHash, calcTeecdProcessHash, first, calcTaskHash_eq nonempty ok]
  by_cases same : sha256 (mm.hashed pageShift mem') = sha256 (mm.hashed pageShift mem)
  · simp [same]
  · simp [same, eACCES]

end Check

section Exact

variable {mm : MmStruct} {pageShift : Nat}

theorem pageBase_le : mm.pageBase pageShift ≤ mm.startCode.toNat := Nat.div_mul_le_self _ _

theorem pageBase_eq_iff :
    mm.pageBase pageShift = mm.startCode.toNat ↔ 2 ^ pageShift ∣ mm.startCode.toNat := by
  constructor
  · intro same
    exact ⟨_, by rw [Nat.mul_comm]; exact same.symm⟩
  · exact Nat.div_mul_cancel

/-- For each content: the hash is fed the code exactly if the bytes from the page of `start_code`
on are the same as those from `start_code` on. Whatever the content: exactly if the code starts
at a page, which is also when every two processes with different code feed different bytes. -/
theorem taskHash_covers_iff {env : Env} (nonempty : mm.startCode < mm.endCode)
    (ok : env.Succeeds mm.startCode.toNat mm.endCode.toNat) (pageShift : Nat) :
    (∀ mem, (updateTaskHash env mem pageShift mm).2.fed = mm.code mem ↔
      ∀ i, i < mm.endCode.toNat - mm.startCode.toNat →
        mem (mm.pageBase pageShift + i) = mem (mm.startCode.toNat + i)) ∧
    ((∀ mem, (updateTaskHash env mem pageShift mm).2.fed = mm.code mem) ↔
      2 ^ pageShift ∣ mm.startCode.toNat) ∧
    ((∀ mem mem' : Nat → UInt8,
        (∃ a, mm.startCode.toNat ≤ a ∧ a < mm.endCode.toNat ∧ mem a ≠ mem' a) →
        (updateTaskHash env mem pageShift mm).2.fed ≠
          (updateTaskHash env mem' pageShift mm).2.fed) ↔
      2 ^ pageShift ∣ mm.startCode.toNat) := by
  have less : mm.startCode.toNat < mm.endCode.toNat := UInt64.lt_iff_toNat_lt.mp nonempty
  have below : mm.pageBase pageShift ≤ mm.startCode.toNat := pageBase_le
  refine ⟨fed_eq_code_iff nonempty ok pageShift, ?_, ?_⟩
  · rw [← pageBase_eq_iff]
    constructor
    · intro covers
      by_contra apart
      -- a byte before the code that differs from the first of the code
      have first := (fed_eq_code_iff nonempty ok pageShift _).mp
        (covers fun a => if a = mm.pageBase pageShift then 1 else 0) 0 (by omega)
      have other : mm.startCode.toNat ≠ mm.pageBase pageShift := by omega
      simp [other] at first
    · intro same mem
      rw [fed_eq_code_iff nonempty ok, same]
      exact fun _ _ => rfl
  · rw [← pageBase_eq_iff]
    constructor
    · intro tells
      by_contra apart
      -- two processes that differ in the last byte of the code only
      refine tells (fun a => if a = mm.endCode.toNat - 1 then 1 else 0) (fun _ => 0)
        ⟨mm.endCode.toNat - 1, by omega, by omega, by simp⟩ ?_
      rw [fed_eq_fed_iff nonempty ok]
      intro i hi
      have other : mm.pageBase pageShift + i ≠ mm.endCode.toNat - 1 := by omega
      simp [other]
    · intro same mem mem' ⟨a, low, high, differ⟩ alike
      rw [fed_eq_fed_iff nonempty ok, same] at alike
      have here := alike (a - mm.startCode.toNat) (by omega)
      rw [Nat.add_sub_cancel' low] at here
      exact differ here

def allOk : Env where
  getUserPages := fun _ => pinedPageNumber
  kmapAtomic := fun _ => true
  shashUpdate := fun _ => 0

theorem allOk_succeeds (startCode endCode : Nat) : allOk.Succeeds startCode endCode :=
  fun _ _ _ => ⟨rfl, rfl, rfl⟩

/-- Code of one page and a half that starts at the page 1. -/
def alignedMm : MmStruct := ⟨0x1000, 0x2800⟩

theorem taskHash_covers_aligned :
    (∀ mem, (updateTaskHash allOk mem 12 alignedMm).2.fed = alignedMm.code mem) ∧
    ∀ mem mem' : Nat → UInt8,
      (∃ a, 0x1000 ≤ a ∧ a < 0x2800 ∧ mem a ≠ mem' a) →
      (updateTaskHash allOk mem 12 alignedMm).2.fed ≠
        (updateTaskHash allOk mem' 12 alignedMm).2.fed := by
  have nonempty : alignedMm.startCode < alignedMm.endCode := by decide
  have aligned : 2 ^ 12 ∣ alignedMm.startCode.toNat := by decide
  obtain ⟨-, covers, tells⟩ := taskHash_covers_iff nonempty (allOk_succeeds _ _) 12
  exact ⟨covers.mpr aligned, tells.mpr aligned⟩

/-- Code of 16 bytes in the middle of a page. -/
def middleMm : MmStruct := ⟨0x1800, 0x1810⟩

/-- A memory with the given bytes in that code and zeros elsewhere. -/
def middleMem (b : UInt8) (a : Nat) : UInt8 := if 0x1800 ≤ a ∧ a < 0x1810 then b else 0

theorem middle_hashed (b : UInt8) : middleMm.hashed 12 (middleMem b) = List.replicate 16 0 := by
  have zero : slice (fun _ => (0 : UInt8)) 0x1000 16 = List.replicate 16 0 := by decide
  refine (slice_eq_iff.mpr ?_).trans zero
  intro i hi
  have base : middleMm.pageBase 12 = 0x1000 := by decide
  have size : middleMm.endCode.toNat - middleMm.startCode.toNat = 16 := by decide
  have below : ¬ 0x1800 ≤ 0x1000 + i := by omega
  simp [base, middleMem, below]

/-- The first 16 bytes of the page are hashed instead. A process whose code is different in every
byte feeds the same bytes, and whatever the hash function is it passes the check. -/
theorem middle_code_unhashed :
    (updateTaskHash allOk (middleMem 1) 12 middleMm).2.fed ≠ middleMm.code (middleMem 1) ∧
    (updateTaskHash allOk (middleMem 1) 12 middleMm).2.fed =
      (updateTaskHash allOk (middleMem 2) 12 middleMm).2.fed ∧
    ∀ sha256 : List UInt8 → Digest,
      checkTeecdCodeHash sha256 ⟨allOk, true, true, 0⟩ 12 ⟨some middleMm, middleMem 2⟩
        (calcTeecdProcessHash sha256 ⟨allOk, true, true, 0⟩ 12 ⟨some middleMm, middleMem 1⟩ {}).2 =
          0 := by
  have nonempty : middleMm.startCode < middleMm.endCode := by decide
  have pages : allOk.Succeeds middleMm.startCode.toNat middleMm.endCode.toNat :=
    allOk_succeeds _ _
  refine ⟨?_, ?_, ?_⟩
  · rw [updateTaskHash_fed nonempty pages]
    decide
  · rw [updateTaskHash_fed nonempty pages, updateTaskHash_fed nonempty pages]
    exact (middle_hashed 1).trans (middle_hashed 2).symm
  · intro sha256
    rw [checkTeecdCodeHash_iff nonempty ⟨pages, rfl, rfl, rfl⟩ rfl, middle_hashed, middle_hashed]

end Exact

end TaskHash
