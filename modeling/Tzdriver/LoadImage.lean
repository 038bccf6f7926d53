import Tzdriver.ByteRange
import Tzdriver.MailboxPool

/-!
# Loading a TA image

`core/session_manager.c`: `tc_ns_load_image` sends a file to the TEE in frames. A frame goes through
a mailbox block of `mb_load_size` bytes that begins with a flag, 1 on all frames but the last. When
the mailbox has no block of the size wanted, half of it is tried, and so on.

What `mailbox_alloc` returns, whether the file can be read and what the TEE answers are in `Env`, by
the number of the call and of the frame. Each byte of the file is read once; `file` gives it
as it is then.
-/

namespace LoadImage

open ByteRange

def sz1M : Nat := 1024 * 1024
def sz8M : Nat := 8 * 1024 * 1024
def sizeofInt : Nat := 4
def eNOMEM : Int := 12
def eFAULT : Int := 14
def eINVAL : Int := 22

/-- `enum secfile_type_t`. -/
inductive SecfileType where
  | loadTa
  | loadService
  | loadLib
  | loadDynamicDrv
  deriving DecidableEq, Repr

/-- `struct tc_ns_client_return`. -/
structure ClientReturn where
  code : Int
  origin : Nat
  deriving DecidableEq, Repr

structure Env where
  alloc : Nat → Option Nat
  /-- `current->mm` is not `NULL`. -/
  currentMm : Bool
  read : Nat → Bool
  file : Nat → UInt8
  /-- The return code of `tc_ns_smc` and `err_origin`. -/
  smc : Nat → Int × Nat

/-- The mailbox blocks the call holds. `fault`: one was freed that it does not hold. -/
structure Mailbox where
  calls : Nat := 0
  held : List Nat := []
  fault : Bool := false
  deriving DecidableEq, Repr

/-- `mailbox_alloc`. -/
def Mailbox.alloc (mb : Mailbox) (env : Env) : Option Nat × Mailbox :=
  (env.alloc mb.calls,
    { mb with calls := mb.calls + 1, held := (env.alloc mb.calls).toList ++ mb.held })

/-- `mailbox_free`. -/
def Mailbox.free (mb : Mailbox) : Option Nat → Mailbox
  | none => mb
  | some p =>
    if p ∈ mb.held then { mb with held := mb.held.erase p } else { mb with fault := true }

/-- `struct load_img_params`, as far as the mailbox goes. -/
structure LoadImgParams where
  mbPack : Option Nat := none
  mbLoadMem : Option Nat := none
  uuidReturn : Option Nat := none
  mbLoadSize : Nat
  deriving DecidableEq, Repr

/-- A command with the block as the TEE finds it: `size` is `params[0].memref.size`, `index` is
`params[3].value.a` and `dynamicDrv` is `params[1].value.a`. -/
structure Frame where
  devFileId : Nat
  buffer : Nat
  size : Nat
  flag : Int
  payload : List UInt8
  index : Nat
  dynamicDrv : Nat
  deriving DecidableEq, Repr

/-- `is_valid_ta_size`. -/
def isValidTaSize (fileBuffer : Bool) (fileSize : Nat) : Bool :=
  !(!fileBuffer || fileSize == 0) && !decide (fileSize > sz8M)

/-- The loop of `alloc_for_load_image`: the block, `mb_load_size` and the mailbox. -/
def allocLoadMem (env : Env) (size : Nat) (mb : Mailbox) : Option Nat × Nat × Mailbox :=
  if size = 0 then (none, size, mb)
  else
    match mb.alloc env with
    | (some p, mb) => (some p, size, mb)
    | (none, mb) => allocLoadMem env (size / 2) mb
termination_by size

/-- `alloc_for_load_image`. -/
def allocForLoadImage (env : Env) (mbLoadSize : Nat) (mb : Mailbox) :
    Int × LoadImgParams × Mailbox :=
  match allocLoadMem env mbLoadSize mb with
  | (none, size, mb) => (-eNOMEM, { mbLoadSize := size }, mb)
  | (some mem, size, mb) =>
    match mb.alloc env with
    | (none, mb) => (-eNOMEM, { mbLoadSize := size }, mb.free (some mem))
    | (some pack, mb) =>
      match mb.alloc env with
      | (none, mb) => (-eNOMEM, { mbLoadSize := size }, (mb.free (some mem)).free (some pack))
      | (some uuid, mb) => (0, ⟨some pack, some mem, some uuid, size⟩, mb)

section Frames

variable (env : Env) (devFileId fileSize : Nat) (type : SecfileType) (p : LoadImgParams)

/-- `load_image_copy_file`; `memcpy_s` fails when the destination is too small. -/
def loadImageCopyFile (index loadSize : Nat) : Int :=
  if env.currentMm = false then
    if loadSize > p.mbLoadSize - sizeofInt then -eFAULT else 0
  else if env.read index = false then -eFAULT
  else 0

/-- `pack_load_frame_cmd` and the fields the loop sets, with what the block holds. -/
def packLoadFrameCmd (index loadedSize loadSize : Nat) (loadFlag : Int) : Frame where
  devFileId := devFileId
  buffer := p.mbLoadMem.getD 0
  size := loadSize + sizeofInt
  flag := loadFlag
  payload := slice env.file loadedSize loadSize
  index := index
  dynamicDrv := if type = .loadDynamicDrv then 1 else 0

/-- The loop of `load_image_by_frame` with `rest` rounds left: the return code, `*tee_ret` and the
frames sent. -/
def loadImageByFrame (loadTimes : Nat) :
    (rest index loadedSize : Nat) → Option ClientReturn → Int × Option ClientReturn × List Frame
  | 0, _, _, teeRet => (0, teeRet, [])
  | rest + 1, index, loadedSize, teeRet =>
    let last := index == loadTimes - 1
    let loadFlag := if last then 0 else 1
    let loadSize :=
      if last then (fileSize + 2 ^ 32 - loadedSize) % 2 ^ 32 else p.mbLoadSize - sizeofInt
    if loadSize > p.mbLoadSize - sizeofInt then (-eINVAL, teeRet, [])
    else if loadImageCopyFile env p index loadSize ≠ 0 then (-eFAULT, teeRet, [])
    else
      let frame := packLoadFrameCmd env devFileId type p index loadedSize loadSize loadFlag
      let smcRet := env.smc index
      if smcRet.1 ≠ 0 then
        (-eFAULT, teeRet.map fun _ => ⟨smcRet.1, smcRet.2⟩, [frame])
      else
        match loadImageByFrame loadTimes rest (index + 1) (loadedSize + loadSize) teeRet with
        | (ret, teeRet, frames) => (ret, teeRet, frame :: frames)

end Frames

structure LoadResult where
  ret : Int
  teeRet : Option ClientReturn
  frames : List Frame
  mailbox : Mailbox
  deriving DecidableEq, Repr

/-- The first value of `mb_load_size`. -/
def firstLoadSize (fileSize : Nat) : Nat :=
  if fileSize > sz1M - sizeofInt then sz1M else MailboxPool.align4K fileSize

/-- `load_times`. -/
def loadTimes (fileSize chunk : Nat) : Nat :=
  fileSize / chunk + if fileSize % chunk ≠ 0 then 1 else 0

/-- `tc_ns_load_image`. -/
def tcNsLoadImage (env : Env) (devFileId : Nat) (fileBuffer : Bool) (fileSize : Nat)
    (teeRet : Option ClientReturn) (type : SecfileType) (mb : Mailbox) : LoadResult :=
  if fileBuffer = false then ⟨-eINVAL, teeRet, [], mb⟩
  else if isValidTaSize fileBuffer fileSize = false then ⟨-eINVAL, teeRet, [], mb⟩
  else
    match allocForLoadImage env (firstLoadSize fileSize) mb with
    | (ret, p, mb) =>
      if ret ≠ 0 then ⟨ret, teeRet, [], mb⟩
      else
        let freeMem := fun mb : Mailbox =>
          ((mb.free p.mbLoadMem).free p.mbPack).free p.uuidReturn
        if p.mbLoadSize ≤ sizeofInt then ⟨-eNOMEM, teeRet, [], freeMem mb⟩
        else
          let times := loadTimes fileSize (p.mbLoadSize - sizeofInt)
          match loadImageByFrame env devFileId fileSize type p times times 0 0 teeRet with
          | (ret, teeRet, frames) => ⟨ret, teeRet, frames, freeMem mb⟩

/-! ### The mailbox blocks of a call -/

/-- The blocks `ps` are held besides those that were held before. -/
structure Holds (mb before : Mailbox) (ps : List Nat) : Prop where
  held : mb.held.Perm (ps ++ before.held)
  fault : mb.fault = before.fault

section Blocks

variable {env : Env} {mb mb' before : Mailbox} {p q : Nat} {ps qs : List Nat}

theorem Holds.refl (mb : Mailbox) : Holds mb mb [] := ⟨List.Perm.refl _, rfl⟩

theorem Holds.perm (holds : Holds mb before ps) (same : ps.Perm qs) : Holds mb before qs :=
  ⟨holds.held.trans (same.append_right _), holds.fault⟩

theorem Holds.alloc_none (holds : Holds mb before ps) (none_ : mb.alloc env = (none, mb')) :
    Holds mb' before ps := by
  simp only [Mailbox.alloc, Prod.mk.injEq] at none_
  obtain ⟨got, rfl⟩ := none_
  exact ⟨by simpa [got] using holds.held, holds.fault⟩

theorem Holds.alloc_some (holds : Holds mb before ps) (some_ : mb.alloc env = (some p, mb')) :
    Holds mb' before (p :: ps) := by
  simp only [Mailbox.alloc, Prod.mk.injEq] at some_
  obtain ⟨got, rfl⟩ := some_
  exact ⟨by simpa [got] using holds.held.cons p, holds.fault⟩

theorem Holds.free (holds : Holds mb before (p :: ps)) : Holds (mb.free (some p)) before ps := by
  have mem : p ∈ mb.held := holds.held.mem_iff.mpr (by simp)
  have rest : (mb.held.erase p).Perm (ps ++ before.held) := by
    have erased := holds.held.erase p
    rwa [List.cons_append, List.erase_cons_head] at erased
  simp only [Mailbox.free, if_pos mem]
  exact ⟨rest, holds.fault⟩

/-- The halving loop ends with nothing or with a block of the last size tried. -/
theorem allocLoadMem_spec (env : Env) (size : Nat) (mb : Mailbox) :
    ∃ got size' mb', allocLoadMem env size mb = (got, size', mb') ∧
      Holds mb' mb got.toList ∧ size' ≤ size := by
  fun_induction allocLoadMem env size mb with
  | case1 mb => exact ⟨none, 0, mb, rfl, .refl mb, le_rfl⟩
  | case2 size mb pos p mb' got =>
    exact ⟨some p, size, mb', rfl, (Holds.refl mb).alloc_some got, le_rfl⟩
  | case3 size mb pos mb' got ih =>
    obtain ⟨p, size', mb'', found, holds, small⟩ := ih
    have none_ := (Holds.refl mb).alloc_none got
    refine ⟨p, size', mb'', found, ?_, by omega⟩
    exact ⟨holds.held.trans (none_.held.append_left _), holds.fault.trans none_.fault⟩

/-- `alloc_for_load_image` holds three blocks or, when it fails, none. -/
theorem allocForLoadImage_spec (env : Env) (size : Nat) (mb : Mailbox) :
    (∃ p mb', allocForLoadImage env size mb = (-eNOMEM, p, mb') ∧ Holds mb' mb []) ∨
      ∃ pack mem uuid size' mb' mid,
        allocForLoadImage env size mb = (0, ⟨some pack, some mem, some uuid, size'⟩, mb') ∧
          allocLoadMem env size mb = (some mem, size', mid) ∧ size' ≤ size ∧
            Holds mb' mb [mem, pack, uuid] := by
  obtain ⟨got, size', mid, found, holds, small⟩ := allocLoadMem_spec env size mb
  unfold allocForLoadImage
  rw [found]
  cases got with
  | none => exact Or.inl ⟨_, mid, rfl, holds⟩
  | some mem =>
    rcases first : mid.alloc env with ⟨pack, mb₁⟩
    cases pack with
    | none =>
      simp only [first]
      exact Or.inl ⟨_, _, rfl, (holds.alloc_none first).free⟩
    | some pack =>
      have two := holds.alloc_some first
      rcases second : mb₁.alloc env with ⟨uuid, mb₂⟩
      cases uuid with
      | none =>
        simp only [first, second]
        exact Or.inl ⟨_, _, rfl, ((two.alloc_none second).perm (.swap mem pack [])).free.free⟩
      | some uuid =>
        simp only [first, second]
        refine Or.inr ⟨pack, mem, uuid, size', mb₂, mid, rfl, rfl, small, ?_⟩
        exact (two.alloc_some second).perm (List.reverse_perm [mem, pack, uuid])

end Blocks

/-! ### The frames -/

/-- The file buffer can be read for the frame. -/
def ReadOk (env : Env) (index : Nat) : Prop := env.currentMm = true → env.read index = true

section Loop

variable {env : Env} {devFileId fileSize : Nat} {type : SecfileType} {p : LoadImgParams}
  {chunk : Nat}

theorem loadTimes_spec (pos : 0 < chunk) (some_ : 0 < fileSize) :
    0 < loadTimes fileSize chunk ∧ (loadTimes fileSize chunk - 1) * chunk < fileSize ∧
      fileSize ≤ loadTimes fileSize chunk * chunk := by
  have split := Nat.div_add_mod fileSize chunk
  have left := Nat.mod_lt fileSize pos
  unfold loadTimes
  generalize fileSize / chunk = q at split ⊢
  generalize fileSize % chunk = r at split left ⊢
  rw [Nat.mul_comm] at split
  by_cases whole : r ≠ 0
  · rw [if_pos whole, Nat.add_sub_cancel, Nat.add_mul]
    omega
  · rw [if_neg whole, Nat.add_zero]
    cases q with
    | zero => omega
    | succ q =>
      rw [Nat.add_sub_cancel]
      rw [Nat.add_mul] at split ⊢
      omega

/-- The bytes in the frame `index` of `times`. -/
def frameSize (fileSize chunk times index : Nat) : Nat :=
  if index + 1 = times then fileSize - index * chunk else chunk

variable (env devFileId fileSize type p) in
/-- The frame `index` of `times`. -/
def frameAt (times index : Nat) : Frame :=
  packLoadFrameCmd env devFileId type p index (index * (p.mbLoadSize - sizeofInt))
    (frameSize fileSize (p.mbLoadSize - sizeofInt) times index) (if index + 1 = times then 0 else 1)

theorem frameSize_spec {times index : Nat} (before : index < times)
    (least : (times - 1) * chunk < fileSize) (most : fileSize ≤ times * chunk) (pos : 0 < chunk) :
    1 ≤ frameSize fileSize chunk times index ∧ frameSize fileSize chunk times index ≤ chunk := by
  unfold frameSize
  by_cases last : index + 1 = times
  · subst last
    rw [if_pos rfl]
    rw [Nat.add_sub_cancel] at least
    rw [Nat.add_mul, Nat.one_mul] at most
    omega
  · rw [if_neg last]
    omega

/-- The subtraction for the last frame does not wrap around. -/
theorem frameSize_eq {times : Nat} (index : Nat) (small : fileSize ≤ sz8M)
    (least : (times - 1) * chunk < fileSize) :
    (if index + 1 = times then (fileSize + 2 ^ 32 - index * chunk) % 2 ^ 32 else chunk) =
      frameSize fileSize chunk times index := by
  unfold frameSize
  by_cases last : index + 1 = times
  · subst last
    rw [Nat.add_sub_cancel] at least
    rw [if_pos rfl, if_pos rfl]
    have bound : sz8M < 2 ^ 32 := by decide
    omega
  · rw [if_neg last, if_neg last]

theorem loadImageCopyFile_ok {index size : Nat} (fits : size ≤ p.mbLoadSize - sizeofInt)
    (readOk : ReadOk env index) : loadImageCopyFile env p index size = 0 := by
  unfold loadImageCopyFile
  by_cases kernel : env.currentMm = false
  · simp [kernel, Nat.not_lt.mpr fits]
  · simp [readOk (by simpa using kernel), kernel]

/-- The loop sends the frames of the file in order until one cannot be read or is refused. The
induction is on the frames that are left. -/
theorem loadImageByFrame_spec {times : Nat} (chunk : 0 < p.mbLoadSize - sizeofInt)
    (small : fileSize ≤ sz8M) (least : (times - 1) * (p.mbLoadSize - sizeofInt) < fileSize)
    (most : fileSize ≤ times * (p.mbLoadSize - sizeofInt)) {rest index : Nat}
    (left : index + rest = times) (teeRet : Option ClientReturn) :
    ∃ ret teeRet' k, loadImageByFrame env devFileId fileSize type p times rest index
        (index * (p.mbLoadSize - sizeofInt)) teeRet =
          (ret, teeRet', (List.range k).map fun j =>
            frameAt env devFileId fileSize type p times (index + j)) ∧
      ret ≠ -eINVAL ∧ k ≤ rest ∧
      ((∀ i, index ≤ i → i < times → ReadOk env i ∧ (env.smc i).1 = 0) → ret = 0 ∧ k = rest) := by
  induction rest generalizing index teeRet with
  | zero => exact ⟨0, teeRet, 0, rfl, by decide, le_rfl, fun _ => ⟨rfl, rfl⟩⟩
  | succ rest ih =>
    have before : index < times := by omega
    have last_iff : (index == times - 1) = true ↔ index + 1 = times := by
      rw [beq_iff_eq]
      omega
    obtain ⟨-, fits⟩ := frameSize_spec before least most chunk
    have size := frameSize_eq index small least
    unfold loadImageByFrame
    simp only [last_iff, size, if_neg (Nat.not_lt.mpr fits)]
    by_cases unread : loadImageCopyFile env p index
        (frameSize fileSize (p.mbLoadSize - sizeofInt) times index) ≠ 0
    · refine ⟨-eFAULT, teeRet, 0, by simp [unread], by decide, Nat.zero_le _, fun ok => ?_⟩
      exact absurd (loadImageCopyFile_ok fits (ok index le_rfl before).1) unread
    · rw [if_neg unread]
      have frame : packLoadFrameCmd env devFileId type p index (index * (p.mbLoadSize - sizeofInt))
          (frameSize fileSize (p.mbLoadSize - sizeofInt) times index)
          (if index + 1 = times then 0 else 1) =
            frameAt env devFileId fileSize type p times index := rfl
      rw [frame]
      by_cases refused : (env.smc index).1 ≠ 0
      · rw [if_pos refused]
        refine ⟨_, _, 1, rfl, by decide, by omega, fun ok => ?_⟩
        exact absurd (ok index le_rfl before).2 refused
      · rw [if_neg refused]
        by_cases last : index + 1 = times
        · obtain rfl : rest = 0 := by omega
          refine ⟨0, teeRet, 1, rfl, by decide, le_rfl, fun _ => ⟨rfl, rfl⟩⟩
        · have next : index * (p.mbLoadSize - sizeofInt) +
              frameSize fileSize (p.mbLoadSize - sizeofInt) times index =
                (index + 1) * (p.mbLoadSize - sizeofInt) := by
            rw [frameSize, if_neg last, Nat.succ_mul]
          obtain ⟨ret, teeRet', k, sent, valid, few, all⟩ := @ih (index + 1) (by omega) teeRet
          rw [next, sent]
          refine ⟨ret, teeRet', k + 1, ?_, valid, by omega, fun ok => ?_⟩
          · simp [List.range_succ_eq_map, Function.comp_def, Nat.add_comm, Nat.add_left_comm]
          · obtain ⟨zero, rfl⟩ := all fun i low high => ok i (by omega) high
            exact ⟨zero, rfl⟩

end Loop

/-- The frame fits the block `mem` of `mbLoadSize` bytes after the flag, and is not empty. -/
structure Fits (mem mbLoadSize : Nat) (f : Frame) : Prop where
  buffer : f.buffer = mem
  some_ : 1 ≤ f.payload.length
  room : f.payload.length ≤ mbLoadSize - sizeofInt
  size : f.size = f.payload.length + sizeofInt

/-- The frames are the file, in order and with the end marked. -/
structure Lossless (env : Env) (fileSize : Nat) (frames : List Frame) : Prop where
  whole : (frames.map Frame.payload).flatten = slice env.file 0 fileSize
  index : frames.map Frame.index = List.range frames.length
  flag : frames.map Frame.flag = List.replicate (frames.length - 1) 1 ++ [0]

section Result

variable {env : Env} {devFileId fileSize : Nat} {type : SecfileType} {p : LoadImgParams}
  {mem : Nat}

theorem frameAt_fits {times index : Nat} (loaded : p.mbLoadMem = some mem) (before : index < times)
    (least : (times - 1) * (p.mbLoadSize - sizeofInt) < fileSize)
    (most : fileSize ≤ times * (p.mbLoadSize - sizeofInt)) (pos : 0 < p.mbLoadSize - sizeofInt) :
    Fits mem p.mbLoadSize (frameAt env devFileId fileSize type p times index) := by
  obtain ⟨some_, room⟩ := frameSize_spec before least most pos
  constructor
  · simp [frameAt, packLoadFrameCmd, loaded]
  · simpa [frameAt, packLoadFrameCmd] using some_
  · simpa [frameAt, packLoadFrameCmd] using room
  · simp [frameAt, packLoadFrameCmd]

theorem frames_lossless {times : Nat} (pos : 0 < times)
    (least : (times - 1) * (p.mbLoadSize - sizeofInt) < fileSize) :
    Lossless env fileSize ((List.range times).map fun i =>
      frameAt env devFileId fileSize type p times (0 + i)) := by
  obtain ⟨n, rfl⟩ : ∃ n, times = n + 1 := ⟨times - 1, by omega⟩
  rw [Nat.add_sub_cancel] at least
  have whole_ : ∀ i, i ∈ List.range n → i + 1 ≠ n + 1 := by
    intro i mem
    have := List.mem_range.mp mem
    omega
  constructor
  · have pieces : ((List.range n).map fun i =>
        (frameAt env devFileId fileSize type p (n + 1) (0 + i)).payload) =
          (List.range n).map fun i =>
            slice env.file (0 + i * (p.mbLoadSize - sizeofInt)) (p.mbLoadSize - sizeofInt) := by
      refine List.map_congr_left fun i mem => ?_
      simp only [frameAt, packLoadFrameCmd, frameSize, Nat.zero_add, if_neg (whole_ i mem)]
    rw [← flatten_slices_rest env.file 0 least.le, List.map_map, List.range_succ, List.map_append,
      List.flatten_append]
    simp only [Function.comp_def, pieces]
    simp [frameAt, packLoadFrameCmd, frameSize]
  · simp [frameAt, packLoadFrameCmd, Function.comp_def]
  · have flags : ((List.range n).map fun i =>
        (frameAt env devFileId fileSize type p (n + 1) (0 + i)).flag) =
          (List.range n).map fun _ => 1 := by
      refine List.map_congr_left fun i mem => ?_
      simp only [frameAt, packLoadFrameCmd, Nat.zero_add, if_neg (whole_ i mem)]
    rw [List.map_map, List.range_succ, List.map_append]
    simp only [Function.comp_def, flags, List.map_const', List.length_range, List.length_map,
      List.length_append, List.map_cons, List.map_nil, List.length_cons, List.length_nil]
    simp [frameAt, packLoadFrameCmd]

/-- Loading a file releases every block it took. Either nothing was sent and it failed, or each
frame fits the block that was found, and a file that can be read and is accepted frame by
frame arrives as it is. -/
theorem tcNsLoadImage_lossless (env : Env) (devFileId : Nat) (teeRet : Option ClientReturn)
    (type : SecfileType) (mb : Mailbox) {fileSize : Nat} (some_ : 1 ≤ fileSize)
    (small : fileSize ≤ sz8M) :
    let r := tcNsLoadImage env devFileId true fileSize teeRet type mb
    Holds r.mailbox mb [] ∧ r.ret ≠ -eINVAL ∧
      (r.ret ≠ 0 ∧ r.frames = [] ∨
        ∃ mem size mid, allocLoadMem env (firstLoadSize fileSize) mb = (some mem, size, mid) ∧
          size ≤ sz1M ∧ (∀ f ∈ r.frames, Fits mem size f) ∧
          ((∀ i, i < loadTimes fileSize (size - sizeofInt) →
              ReadOk env i ∧ (env.smc i).1 = 0) →
            r.ret = 0 ∧ Lossless env fileSize r.frames)) := by
  have valid : isValidTaSize true fileSize = true := by
    have : fileSize ≠ 0 := by omega
    simp [isValidTaSize, this, Nat.not_lt.mpr small]
  have first : firstLoadSize fileSize ≤ sz1M := by
    unfold firstLoadSize
    split
    · exact le_rfl
    · rename_i large
      simp only [sz1M, sizeofInt, MailboxPool.align4K, MailboxPool.sz4K] at large ⊢
      omega
  intro r
  have run : r = tcNsLoadImage env devFileId true fileSize teeRet type mb := rfl
  simp only [tcNsLoadImage, valid, Bool.true_eq_false, if_false] at run
  rcases allocForLoadImage_spec env (firstLoadSize fileSize) mb with
    ⟨p, mb', failed, holds⟩ | ⟨pack, mem, uuid, size, mb', mid, got, block, smaller, holds⟩
  · simp only [failed, show -eNOMEM ≠ 0 by decide, ne_eq, not_false_eq_true, if_true] at run
    rw [run]
    exact ⟨holds, (by decide : -eNOMEM ≠ -eINVAL), Or.inl ⟨(by decide : -eNOMEM ≠ 0), rfl⟩⟩
  · simp only [got, ne_eq, not_true_eq_false, if_false] at run
    have released := holds.free.free.free
    by_cases tiny : size ≤ sizeofInt
    · rw [if_pos tiny] at run
      rw [run]
      exact ⟨released, (by decide : -eNOMEM ≠ -eINVAL), Or.inl ⟨(by decide : -eNOMEM ≠ 0), rfl⟩⟩
    · rw [if_neg tiny] at run
      have chunk : 0 < size - sizeofInt := by omega
      obtain ⟨times, least, most⟩ := loadTimes_spec chunk some_
      have start : 0 = 0 * (size - sizeofInt) := (Nat.zero_mul _).symm
      obtain ⟨ret, teeRet', k, sent, noInval, few, all⟩ := @loadImageByFrame_spec env devFileId
        fileSize type ⟨some pack, some mem, some uuid, size⟩ _ chunk small least most _ 0
        (Nat.zero_add _) teeRet
      rw [← start] at sent
      rw [sent] at run
      rw [run]
      refine ⟨released, noInval, Or.inr ⟨mem, size, mid, block, smaller.trans first, ?_, ?_⟩⟩
      · intro f sentF
        obtain ⟨i, hi, rfl⟩ := List.mem_map.mp sentF
        have before := List.mem_range.mp hi
        exact frameAt_fits (p := ⟨some pack, some mem, some uuid, size⟩) rfl (by omega) least most chunk
      · intro ok
        obtain ⟨zero, rfl⟩ := all fun i _ high => ok i high
        exact ⟨zero, frames_lossless times least⟩

end Result

/-- The mailbox has no block of 8192 bytes, but one of 4096. -/
def halvedOnce : Env where
  alloc := fun n => if n = 0 then none else some (4096 * n)
  currentMm := true
  read := fun _ => true
  file := fun i => UInt8.ofNat i
  smc := fun _ => (0, 0)

/-- A file of 5000 bytes goes in two frames through the smaller block. -/
theorem tcNsLoadImage_lossless_halved :
    let r := tcNsLoadImage halvedOnce 1 true 5000 none .loadTa {}
    r.frames.map Frame.size = [4096, 912] ∧ r.mailbox.held = [] ∧
      Lossless halvedOnce 5000 r.frames := by
  have sizes : (tcNsLoadImage halvedOnce 1 true 5000 none .loadTa {}).frames.map Frame.size =
      [4096, 912] := by decide +kernel
  obtain ⟨released, -, nothing | ⟨mem, size, mid, block, -, -, all⟩⟩ :=
    tcNsLoadImage_lossless halvedOnce 1 none .loadTa {} (by decide : 1 ≤ 5000) (by decide)
  · rw [nothing.2] at sizes
    cases sizes
  · exact ⟨sizes, List.perm_nil.mp released.held,
      (all fun i _ => ⟨fun _ => rfl, rfl⟩).2⟩

end LoadImage
