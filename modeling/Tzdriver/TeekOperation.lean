import Tzdriver.ClientCall
import Tzdriver.WordMemory

/-!
# Operations of the kernel API

`core/teek_client_api.c`: `teek_check_operation` accepts an operation of a client in the kernel, and
`proc_teek_encode` puts it into a context for the driver. The context holds addresses: of a buffer,
and of the cells for its size or for two values.

`struct teec_operation` lies in memory as a 64-bit compiler lays it out. `union teec_parameter` has
24 bytes, in which each kind of parameter has its own fields.
-/

namespace TeekOperation

open Function WordMemory ClientCall

def teecSuccess : Nat := 0
def teecErrorBadParameters : Nat := 0xFFFF0006
def teecErrorNotImplemented : Nat := 0xFFFF0009

def teecMemInput : BitVec 32 := 0x1
def teecMemOutput : BitVec 32 := 0x2

def teecNone : Nat := 0x0
def teecMemrefWhole : Nat := 0xc

def teecParamTypes (type0 type1 type2 type3 : Nat) : Nat :=
  type3 <<< 12 ||| type2 <<< 8 ||| type1 <<< 4 ||| type0

def isValParam (type : Nat) : Bool :=
  type == teecValueInput || type == teecValueOutput || type == teecValueInout ||
    type == teecIonInput || type == teecIonSglistInput

def isIonParam (type : Nat) : Bool := type == teecIonInput || type == teecIonSglistInput

/-! ## The layout -/

/-- `struct teec_sharedmemory`, the fields that are used. -/
structure Sharedmemory where
  buffer : Address
  size : BitVec 64
  flags : BitVec 32
  isAllocated : Bool

/-- `struct teec_tempmemory_reference`. -/
structure Tmpref where
  buffer : Address
  size : BitVec 64

/-- `struct teec_registeredmemory_reference`. -/
structure Memref where
  parent : Address
  size : BitVec 64
  offset : BitVec 64

section Layout

variable (mem : Memory)

def started (oper : Address) : BitVec 32 := load32 mem oper

def paramtypes (oper : Address) : BitVec 32 := load32 mem (oper + 4)

/-- `&operation->params[index]`. -/
def paramAddr (oper : Address) (index : Nat) : Address := oper + 8 + BitVec.ofNat 64 (24 * index)

def tmprefAt (param : Address) : Tmpref := ⟨load64 mem param, load64 mem (param + 8)⟩

def memrefAt (param : Address) : Memref :=
  ⟨load64 mem param, load64 mem (param + 8), load64 mem (param + 16)⟩

/-- `ionref.ion_share_fd`, an `int`. -/
def ionShareFd (param : Address) : Int := (load32 mem param).toInt

def sharedmemoryAt (parent : Address) : Sharedmemory :=
  ⟨load64 mem parent, load64 mem (parent + 8), load32 mem (parent + 16), mem (parent + 24) != 0⟩

/-! The cells whose address goes into the context. -/

def tmprefSizeAddr (param : Address) : Address := param + 8
def memrefSizeAddr (param : Address) : Address := param + 8
def valueAAddr (param : Address) : Address := param
def valueBAddr (param : Address) : Address := param + 4
def ionShareFdAddr (param : Address) : Address := param
def ionSizeAddr (param : Address) : Address := param + 8
def parentSizeAddr (parent : Address) : Address := parent + 8

/-- `teec_param_type_get(operation->paramtypes, index)`. -/
def paramType (oper : Address) (index : Nat) : Nat :=
  teecParamTypeGet (paramtypes mem oper).toNat index

end Layout

/-! ## The check -/

/-- `teek_check_tmp_mem`. -/
def teekCheckTmpMem (tmpref : Tmpref) : Nat :=
  if tmpref.buffer = 0 ∨ tmpref.size = 0 then teecErrorBadParameters else teecSuccess

/-- `is_partical_mem`. -/
def isParticalMem (type : Nat) : Bool :=
  type == teecMemrefPartialInput || type == teecMemrefPartialOutput ||
    type == teecMemrefPartialInout

/-- `is_offset_invalid`. -/
def isOffsetInvalid (memref : Memref) (parent : Sharedmemory) : Bool :=
  decide (memref.offset + memref.size > parent.size ∨ memref.offset + memref.size < memref.offset ∨
    memref.offset + memref.size < memref.size)

/-- The chain of comparisons in `teek_check_ref_mem`. -/
def flagsAllow (flags : BitVec 32) (type : Nat) : Bool :=
  if type = teecMemrefPartialInput then flags &&& teecMemInput != 0
  else if type = teecMemrefPartialOutput then flags &&& teecMemOutput != 0
  else if type = teecMemrefPartialInout then
    flags &&& teecMemInput != 0 && flags &&& teecMemOutput != 0
  else type == teecMemrefWhole

section Check

variable (mem : Memory)

/-- `teek_check_ref_mem`. -/
def teekCheckRefMem (memref : Memref) (type : Nat) : Nat :=
  if memref.parent = 0 ∨ (sharedmemoryAt mem memref.parent).buffer = 0 then teecErrorBadParameters
  else if flagsAllow (sharedmemoryAt mem memref.parent).flags type = false then
    teecErrorBadParameters
  else if isParticalMem type && isOffsetInvalid memref (sharedmemoryAt mem memref.parent) then
    teecErrorBadParameters
  else teecSuccess

/-- One round of the loop of `teek_check_operation`. -/
def checkParam (oper : Address) (index : Nat) : Nat :=
  let type := paramType mem oper index
  let param := paramAddr oper index
  if isTmpMem type then teekCheckTmpMem (tmprefAt mem param)
  else if isRefMem type then teekCheckRefMem mem (memrefAt mem param) type
  else if isValParam type then teecSuccess
  else if isIonParam type then
    if ionShareFd mem param < 0 then teecErrorBadParameters else teecSuccess
  else if type = teecNone then teecSuccess
  else teecErrorBadParameters

/-- A loop over parameters that breaks at the first error. -/
def firstError (f : Nat → Nat) : List Nat → Nat
  | [] => teecSuccess
  | index :: rest => if f index ≠ teecSuccess then f index else firstError f rest

/-- `teek_check_operation`; without an operation there is nothing to check. -/
def teekCheckOperation : Option Address → Nat
  | none => teecSuccess
  | some oper =>
    if started mem oper = 0 then teecErrorNotImplemented
    else firstError (checkParam mem oper) (List.range teeParamNum)

end Check

/-! ## The context -/

/-- `union tc_ns_client_param`, by its field `memref`. -/
structure TcNsClientParam where
  buffer : BitVec 64
  offset : BitVec 64
  sizeAddr : Address

/-- The field `value`: `a_addr` lies where `buffer` does, and `b_addr` where `offset` does. -/
def TcNsClientParam.setValue (param : TcNsClientParam) (aAddr bAddr : Address) : TcNsClientParam :=
  { param with buffer := aAddr, offset := bAddr }

def TcNsClientParam.aAddr (param : TcNsClientParam) : Address := param.buffer

def TcNsClientParam.bAddr (param : TcNsClientParam) : Address := param.offset

/-- `params` and `param_types` of `struct tc_ns_client_context`. -/
structure TcNsClientContext where
  params : Nat → TcNsClientParam
  paramTypes : Nat

/-- What `teek_init_context` makes of the parameters. -/
def teekInitContext : TcNsClientContext := ⟨fun _ => ⟨0, 0, 0⟩, 0⟩

section Encode

variable (mem : Memory)

/-- The `switch` of `encode_for_part_mem`, where `TEEC_MEM_INOUT` and the default are the same. -/
def typeOfFlags (flags : BitVec 32) : Nat :=
  if flags = teecMemInput then teecMemrefPartialInput
  else if flags = teecMemOutput then teecMemrefPartialOutput
  else teecMemrefPartialInout

/-- `encode_for_part_mem`: the entry of the context and the type it makes. The branches for
`TEEC_MEMREF_WHOLE` are here, although no such type gets to them. -/
def encodeForPartMem (oper : Address) (index type : Nat) (param : TcNsClientParam) :
    TcNsClientParam × Nat :=
  let diff := teecMemrefPartialInput - teecMemrefTempInput
  let memref := memrefAt mem (paramAddr oper index)
  let parent := sharedmemoryAt mem memref.parent
  let param :=
    if type = teecMemrefWhole then
      { param with offset := 0, sizeAddr := parentSizeAddr memref.parent }
    else { param with offset := memref.offset, sizeAddr := memrefSizeAddr (paramAddr oper index) }
  let param :=
    if parent.isAllocated then { param with buffer := parent.buffer }
    else { param with buffer := parent.buffer + memref.offset, offset := 0 }
  let type := if type = teecMemrefWhole then typeOfFlags parent.flags else type
  (param, if parent.isAllocated then type else type - diff)

/-- One round of the loop of `proc_teek_encode`; `none`: the type is not correct. -/
def encodeParam (oper : Address) (index type : Nat) (param : TcNsClientParam) :
    Option (TcNsClientParam × Nat) :=
  let addr := paramAddr oper index
  if isTmpMem type then
    some ({ param with buffer := (tmprefAt mem addr).buffer, sizeAddr := tmprefSizeAddr addr }, type)
  else if isRefMem type then some (encodeForPartMem mem oper index type param)
  else if isValParam type then some (param.setValue (valueAAddr addr) (valueBAddr addr), type)
  else if isIonParam type then some (param.setValue (ionShareFdAddr addr) (ionSizeAddr addr), type)
  else if type = teecNone then some (param, type)
  else none

/-- The context and `param_type` of `proc_teek_encode`. -/
structure Encoding where
  params : Nat → TcNsClientParam
  types : Nat → Nat

def Encoding.set (s : Encoding) (index : Nat) (param : TcNsClientParam) (type : Nat) : Encoding :=
  ⟨update s.params index param, update s.types index type⟩

def encodeLoop (oper : Address) : List Nat → Encoding → Nat × Encoding
  | [], s => (teecSuccess, s)
  | index :: rest, s =>
    match encodeParam mem oper index (s.types index) (s.params index) with
    | none => (teecErrorBadParameters, s)
    | some (param, type) => encodeLoop oper rest (s.set index param type)

/-- `proc_teek_encode`. -/
def procTeekEncode (context : TcNsClientContext) (oper : Address) : Nat × TcNsClientContext :=
  match encodeLoop mem oper (List.range teeParamNum) ⟨context.params, paramType mem oper⟩ with
  | (ret, s) =>
    if ret ≠ teecSuccess then (ret, { context with params := s.params })
    else (teecSuccess, ⟨s.params, teecParamTypes (s.types 0) (s.types 1) (s.types 2) (s.types 3)⟩)

end Encode

/-! ## Kinds of parameters -/

/-- The types that are neither refused by the check nor by the encoding. -/
def supported (type : Nat) : Bool :=
  isTmpMem type || isRefMem type || isValParam type || type == teecNone

section Kinds

variable {type : Nat}

theorem isTmpMem_iff : isTmpMem type = true ↔
    type = teecMemrefTempInput ∨ type = teecMemrefTempOutput ∨ type = teecMemrefTempInout := by
  simp [isTmpMem, or_assoc]

theorem isRefMem_iff : isRefMem type = true ↔ type = teecMemrefPartialInput ∨
    type = teecMemrefPartialOutput ∨ type = teecMemrefPartialInout := by
  simp [isRefMem, or_assoc]

theorem isTmpMem_of_isRefMem (ref : isRefMem type = true) : isTmpMem type = false := by
  rcases isRefMem_iff.1 ref with rfl | rfl | rfl <;> rfl

theorem isValParam_of_isIonParam (ion : isIonParam type = true) :
    isTmpMem type = false ∧ isRefMem type = false ∧ isValParam type = true := by
  simp only [isIonParam, Bool.or_eq_true, beq_iff_eq] at ion
  rcases ion with rfl | rfl <;> exact ⟨rfl, rfl, rfl⟩

theorem paramType_lt (mem : Memory) (oper : Address) (index : Nat) :
    paramType mem oper index < 16 := Nat.mod_lt _ (by decide)

/-- Each of four types is got back from the word they are put in. -/
theorem teecParamTypeGet_teecParamTypes {types : Nat → Nat}
    (small : ∀ i, i < teeParamNum → types i < 16) {i : Nat} (le : i < teeParamNum) :
    teecParamTypeGet (teecParamTypes (types 0) (types 1) (types 2) (types 3)) i = types i := by
  have word : teecParamTypes (types 0) (types 1) (types 2) (types 3) =
      types 3 * 4096 + (types 2 * 256 + (types 1 * 16 + types 0)) := by
    have small0 := small 0 (by decide)
    have small1 := small 1 (by decide)
    have small2 := small 2 (by decide)
    rw [teecParamTypes, Nat.or_assoc, Nat.or_assoc,
      ← Nat.shiftLeft_add_eq_or_of_lt (i := 4) (by omega) (types 1),
      ← Nat.shiftLeft_add_eq_or_of_lt (i := 8)
        (by rw [Nat.shiftLeft_eq]; omega) (types 2),
      ← Nat.shiftLeft_add_eq_or_of_lt (i := 12)
        (by rw [Nat.shiftLeft_eq, Nat.shiftLeft_eq]; omega) (types 3)]
    simp only [Nat.shiftLeft_eq, Nat.reducePow]
  rw [teecParamTypeGet, word, Nat.shiftRight_eq_div_pow]
  have cases4 : i = 0 ∨ i = 1 ∨ i = 2 ∨ i = 3 := by
    simp only [teeParamNum] at le
    omega
  have small0 := small 0 (by decide)
  have small1 := small 1 (by decide)
  have small2 := small 2 (by decide)
  have small3 := small 3 (by decide)
  rcases cases4 with rfl | rfl | rfl | rfl
  · simp only [Nat.zero_mul, Nat.pow_zero, Nat.div_one]
    omega
  · simp only [Nat.one_mul, Nat.reducePow]
    omega
  · simp only [Nat.reduceMul, Nat.reducePow]
    omega
  · simp only [Nat.reduceMul, Nat.reducePow]
    omega

end Kinds

/-! ## What is accepted -/

section Accepted

variable {mem : Memory} {oper : Address} {index : Nat}

/-- A memory reference lies in its parent, which allows its direction. -/
structure PartOk (mem : Memory) (memref : Memref) (type : Nat) : Prop where
  parent : memref.parent ≠ 0
  buffer : (sharedmemoryAt mem memref.parent).buffer ≠ 0
  flags : flagsAllow (sharedmemoryAt mem memref.parent).flags type = true
  fits : memref.offset.toNat + memref.size.toNat ≤ (sharedmemoryAt mem memref.parent).size.toNat

/-- What an accepted operation has for one parameter. -/
structure ParamOk (mem : Memory) (oper : Address) (index : Nat) : Prop where
  kind : supported (paramType mem oper index) = true
  tmp : isTmpMem (paramType mem oper index) = true →
    (tmprefAt mem (paramAddr oper index)).buffer ≠ 0 ∧
      (tmprefAt mem (paramAddr oper index)).size ≠ 0
  ref : isRefMem (paramType mem oper index) = true →
    PartOk mem (memrefAt mem (paramAddr oper index)) (paramType mem oper index)

theorem isOffsetInvalid_iff {memref : Memref} {parent : Sharedmemory} :
    isOffsetInvalid memref parent = false ↔
      memref.offset.toNat + memref.size.toNat ≤ parent.size.toNat := by
  rw [isOffsetInvalid, decide_eq_false_iff_not, not_or, not_or]
  constructor
  · rintro ⟨inside, noWrap, -⟩
    bv_omega
  · intro fits
    refine ⟨?_, ?_, ?_⟩
    · bv_omega
    · bv_omega
    · bv_omega

theorem teekCheckTmpMem_ok_iff {tmpref : Tmpref} :
    teekCheckTmpMem tmpref = teecSuccess ↔ tmpref.buffer ≠ 0 ∧ tmpref.size ≠ 0 := by
  rw [teekCheckTmpMem, ← not_or]
  split
  · rename_i bad
    exact iff_of_false (by decide) (not_not_intro bad)
  · rename_i fine
    exact iff_of_true rfl fine

theorem teekCheckRefMem_ok_iff {memref : Memref} {type : Nat} (ref : isRefMem type = true) :
    teekCheckRefMem mem memref type = teecSuccess ↔ PartOk mem memref type := by
  have part : isParticalMem type = true := ref
  unfold teekCheckRefMem
  rw [part, Bool.true_and]
  split
  · rename_i bad
    refine iff_of_false (by decide) fun ok => ?_
    rcases bad with none | none
    · exact ok.parent none
    · exact ok.buffer none
  · rename_i there
    rw [not_or] at there
    split
    · rename_i bad
      refine iff_of_false (by decide) fun ok => ?_
      rw [ok.flags] at bad
      cases bad
    · rename_i flags
      split
      · rename_i outside
        refine iff_of_false (by decide) fun ok => ?_
        rw [isOffsetInvalid_iff.2 ok.fits] at outside
        cases outside
      · rename_i inside
        rw [Bool.not_eq_true] at inside
        rw [Bool.not_eq_false] at flags
        exact iff_of_true rfl ⟨there.1, there.2, flags, isOffsetInvalid_iff.1 inside⟩

theorem checkParam_ok_iff : checkParam mem oper index = teecSuccess ↔ ParamOk mem oper index := by
  unfold checkParam
  dsimp only
  split
  · rename_i tmp
    have notRef : isRefMem (paramType mem oper index) ≠ true := by
      intro ref
      rw [isTmpMem_of_isRefMem ref] at tmp
      cases tmp
    rw [teekCheckTmpMem_ok_iff]
    constructor
    · exact fun ok => ⟨by simp [supported, tmp], fun _ => ok, fun ref => absurd ref notRef⟩
    · exact fun ok => ok.tmp tmp
  · rename_i notTmp
    split
    · rename_i ref
      rw [teekCheckRefMem_ok_iff ref]
      constructor
      · exact fun ok => ⟨by simp [supported, ref], fun tmp => absurd tmp notTmp, fun _ => ok⟩
      · exact fun ok => ok.ref ref
    · rename_i notRef
      have only : ParamOk mem oper index ↔ supported (paramType mem oper index) = true :=
        ⟨ParamOk.kind, fun kind =>
          ⟨kind, fun tmp => absurd tmp notTmp, fun ref => absurd ref notRef⟩⟩
      rw [only]
      split
      · rename_i value
        exact iff_of_true rfl (by simp [supported, value])
      · rename_i notValue
        -- an ION parameter is a value parameter, so that its own branch is never taken
        have notIon : isIonParam (paramType mem oper index) ≠ true :=
          fun ion => notValue (isValParam_of_isIonParam ion).2.2
        rw [if_neg notIon]
        split
        · rename_i none
          exact iff_of_true rfl (by simp [supported, none])
        · rename_i notNone
          exact iff_of_false (by decide) (by simp [supported, notTmp, notRef, notValue, notNone])

theorem firstError_ok_iff {f : Nat → Nat} (is : List Nat) :
    firstError f is = teecSuccess ↔ ∀ i ∈ is, f i = teecSuccess := by
  induction is with
  | nil => simp [firstError]
  | cons i is ih =>
    rw [firstError, List.forall_mem_cons, ← ih]
    split
    · rename_i failed
      exact ⟨fun done => absurd done failed, fun both => absurd both.1 failed⟩
    · rename_i fine
      rw [not_not] at fine
      simp [fine]

/-- The operations that `teek_check_operation` accepts. -/
theorem teekCheckOperation_ok_iff : teekCheckOperation mem (some oper) = teecSuccess ↔
    started mem oper ≠ 0 ∧ ∀ i, i < teeParamNum → ParamOk mem oper i := by
  rw [teekCheckOperation]
  split
  · rename_i notStarted
    exact iff_of_false (by decide) fun ok => ok.1 notStarted
  · rename_i started
    rw [firstError_ok_iff]
    simp only [List.mem_range, checkParam_ok_iff]
    exact (and_iff_right started).symm

end Accepted

/-! ## What is encoded -/

section Encoded

variable {mem : Memory} {oper : Address} {index type : Nat} {param : TcNsClientParam}

theorem encodeParam_tmp (tmp : isTmpMem type = true) :
    encodeParam mem oper index type param = some ({ param with
      buffer := (tmprefAt mem (paramAddr oper index)).buffer
      sizeAddr := tmprefSizeAddr (paramAddr oper index) }, type) := by
  rw [encodeParam, if_pos tmp]

theorem encodeParam_ref (ref : isRefMem type = true) :
    encodeParam mem oper index type param = some (encodeForPartMem mem oper index type param) := by
  rw [encodeParam, isTmpMem_of_isRefMem ref, if_neg (by decide), if_pos ref]

/-- An ION parameter is encoded as a value. -/
theorem encodeParam_ion (ion : isIonParam type = true) :
    encodeParam mem oper index type param = some (param.setValue (valueAAddr (paramAddr oper index))
      (valueBAddr (paramAddr oper index)), type) := by
  obtain ⟨notTmp, notRef, value⟩ := isValParam_of_isIonParam ion
  rw [encodeParam, notTmp, notRef, if_neg (by decide), if_neg (by decide), if_pos value]

theorem encodeParam_supported (kind : supported type = true) :
    ∃ e, encodeParam mem oper index type param = some e := by
  simp only [supported, Bool.or_eq_true, beq_iff_eq] at kind
  unfold encodeParam
  dsimp only
  split
  · exact ⟨_, rfl⟩
  · split
    · exact ⟨_, rfl⟩
    · split
      · exact ⟨_, rfl⟩
      · split
        · exact ⟨_, rfl⟩
        · split
          · exact ⟨_, rfl⟩
          · simp_all

theorem typeOfFlags_lt (flags : BitVec 32) : typeOfFlags flags < 16 := by
  unfold typeOfFlags
  split
  · decide
  · split <;> decide

/-- The type that is encoded has four bits too. -/
theorem encodeParam_type_lt {e : TcNsClientParam × Nat} (small : type < 16)
    (encoded : encodeParam mem oper index type param = some e) : e.2 < 16 := by
  have part : (encodeForPartMem mem oper index type param).2 < 16 := by
    have whole : (if type = teecMemrefWhole then typeOfFlags (sharedmemoryAt mem
        (memrefAt mem (paramAddr oper index)).parent).flags else type) < 16 := by
      split
      · exact typeOfFlags_lt _
      · exact small
    simp only [encodeForPartMem]
    split
    · exact whole
    · omega
  unfold encodeParam at encoded
  dsimp only at encoded
  split at encoded
  · rw [← Option.some.inj encoded]
    exact small
  · split at encoded
    · rw [← Option.some.inj encoded]
      exact part
    · split at encoded
      · rw [← Option.some.inj encoded]
        exact small
      · split at encoded
        · rw [← Option.some.inj encoded]
          exact small
        · split at encoded
          · rw [← Option.some.inj encoded]
            exact small
          · cases encoded

/-- The loop encodes each of its parameters and nothing else. -/
theorem encodeLoop_ok (is : List Nat) (distinct : is.Nodup) (s : Encoding)
    (kinds : ∀ i ∈ is, supported (s.types i) = true) :
    (encodeLoop mem oper is s).1 = teecSuccess ∧
    (∀ i ∈ is, encodeParam mem oper i (s.types i) (s.params i) =
      some ((encodeLoop mem oper is s).2.params i, (encodeLoop mem oper is s).2.types i)) ∧
    ∀ i, i ∉ is → (encodeLoop mem oper is s).2.params i = s.params i ∧
      (encodeLoop mem oper is s).2.types i = s.types i := by
  induction is generalizing s with
  | nil => exact ⟨rfl, fun i here => absurd here List.not_mem_nil, fun i _ => ⟨rfl, rfl⟩⟩
  | cons j is ih =>
    obtain ⟨apart, distinct⟩ := List.nodup_cons.1 distinct
    obtain ⟨kind, kinds⟩ := List.forall_mem_cons.1 kinds
    obtain ⟨⟨param, type⟩, encoded⟩ :=
      @encodeParam_supported mem oper j (s.types j) (s.params j) kind
    have others : ∀ i, i ≠ j → (s.set j param type).params i = s.params i ∧
        (s.set j param type).types i = s.types i :=
      fun i ne => ⟨update_of_ne ne _ _, update_of_ne ne _ _⟩
    have now : (s.set j param type).params j = param ∧ (s.set j param type).types j = type :=
      ⟨update_self _ _ _, update_self _ _ _⟩
    have next : ∀ i ∈ is, i ≠ j := by
      rintro i here rfl
      exact apart here
    have rest : ∀ i ∈ is, supported ((s.set j param type).types i) = true := by
      intro i here
      rw [(others i (next i here)).2]
      exact kinds i here
    obtain ⟨done, inside, outside⟩ := ih distinct (s.set j param type) rest
    simp only [encodeLoop, encoded]
    refine ⟨done, ?_, ?_⟩
    · intro i here
      rcases List.mem_cons.1 here with rfl | here
      · obtain ⟨params, types⟩ := outside i apart
        rw [params, types, encoded, now.1, now.2]
      · rw [← inside i here, (others i (next i here)).1, (others i (next i here)).2]
    · intro i out
      rw [List.mem_cons, not_or] at out
      obtain ⟨ne, out⟩ := out
      obtain ⟨params, types⟩ := outside i out
      exact ⟨params.trans (others i ne).1, types.trans (others i ne).2⟩

/-- `proc_teek_encode` encodes every parameter of an operation whose types are supported. -/
theorem procTeekEncode_ok (context : TcNsClientContext)
    (kinds : ∀ i, i < teeParamNum → supported (paramType mem oper i) = true) :
    (procTeekEncode mem context oper).1 = teecSuccess ∧
    ∀ i, i < teeParamNum → encodeParam mem oper i (paramType mem oper i) (context.params i) =
      some ((procTeekEncode mem context oper).2.params i,
        teecParamTypeGet (procTeekEncode mem context oper).2.paramTypes i) := by
  obtain ⟨done, inside, -⟩ := @encodeLoop_ok mem oper (List.range teeParamNum) List.nodup_range
    ⟨context.params, paramType mem oper⟩ fun i here => kinds i (List.mem_range.1 here)
  unfold procTeekEncode
  generalize encodeLoop mem oper (List.range teeParamNum) ⟨context.params, paramType mem oper⟩ = out
    at done inside ⊢
  obtain ⟨ret, s⟩ := out
  dsimp only at done inside ⊢
  rw [if_neg (not_not_intro done)]
  refine ⟨rfl, ?_⟩
  have small : ∀ i, i < teeParamNum → s.types i < 16 := by
    intro i le
    exact encodeParam_type_lt (paramType_lt mem oper i) (inside i (List.mem_range.2 le))
  intro i le
  rw [inside i (List.mem_range.2 le), teecParamTypeGet_teecParamTypes small le]

end Encoded

/-! ## The kinds the code is written for -/

section Handled

/-- The whole of the parent of a memory reference. -/
def wholeParent (mem : Memory) (parent : Address) : TcNsClientParam :=
  ⟨(sharedmemoryAt mem parent).buffer, 0, parentSizeAddr parent⟩

/-- The type for a parent: the one its flags give, for a temporary buffer unless it is allocated. -/
def wholeType (parent : Sharedmemory) : Nat :=
  if parent.isAllocated then typeOfFlags parent.flags
  else typeOfFlags parent.flags - (teecMemrefPartialInput - teecMemrefTempInput)

/-- A parameter of a kind that the functions have code for is treated as this code says. -/
structure KindsHandled (mem : Memory) (oper : Address) (index : Nat) : Prop where
  whole : paramType mem oper index = teecMemrefWhole →
    (memrefAt mem (paramAddr oper index)).parent ≠ 0 →
    checkParam mem oper index = teecSuccess ∧
      encodeParam mem oper index teecMemrefWhole (teekInitContext.params index) =
        some (wholeParent mem (memrefAt mem (paramAddr oper index)).parent,
          wholeType (sharedmemoryAt mem (memrefAt mem (paramAddr oper index)).parent))
  ionRefused : isIonParam (paramType mem oper index) = true →
    ionShareFd mem (paramAddr oper index) < 0 → teekCheckOperation mem (some oper) ≠ teecSuccess
  ionEncoded : isIonParam (paramType mem oper index) = true →
    teekCheckOperation mem (some oper) = teecSuccess →
    (procTeekEncode mem teekInitContext oper).1 = teecSuccess ∧
      ((procTeekEncode mem teekInitContext oper).2.params index).aAddr =
        ionShareFdAddr (paramAddr oper index) ∧
      ((procTeekEncode mem teekInitContext oper).2.params index).bAddr =
        ionSizeAddr (paramAddr oper index)

variable {mem : Memory} {oper : Address} {index : Nat}

/-- `is_ref_mem` does not know `TEEC_MEMREF_WHOLE`. -/
theorem whole_refused (whole : paramType mem oper index = teecMemrefWhole) :
    checkParam mem oper index ≠ teecSuccess := by
  intro accepted
  have kind := (checkParam_ok_iff.1 accepted).kind
  rw [whole] at kind
  exact absurd kind (by decide)

/-- `is_val_param` knows the ION types, so that the second address is the one of `value.b`. -/
theorem ion_as_value (le : index < teeParamNum) (ion : isIonParam (paramType mem oper index) = true)
    (accepted : teekCheckOperation mem (some oper) = teecSuccess) :
    ((procTeekEncode mem teekInitContext oper).2.params index).bAddr =
      valueBAddr (paramAddr oper index) := by
  have ok := (teekCheckOperation_ok_iff.1 accepted).2
  have encoded := (procTeekEncode_ok teekInitContext fun i le => (ok i le).kind).2 index le
  rw [encodeParam_ion ion] at encoded
  have params := congrArg (fun e => e.1.bAddr) (Option.some.inj encoded)
  exact params.symm

theorem valueBAddr_ne (param : Address) : valueBAddr param ≠ ionSizeAddr param := by
  unfold valueBAddr ionSizeAddr
  bv_omega

/-- The kinds are handled exactly where there is no whole memory reference, and no ION parameter of
an operation that is accepted. -/
theorem kinds_handled_iff (le : index < teeParamNum) :
    KindsHandled mem oper index ↔
      ¬ (paramType mem oper index = teecMemrefWhole ∧
        (memrefAt mem (paramAddr oper index)).parent ≠ 0) ∧
      ¬ (isIonParam (paramType mem oper index) = true ∧ started mem oper ≠ 0 ∧
        ∀ i, i < teeParamNum → ParamOk mem oper i) := by
  constructor
  · intro handled
    constructor
    · rintro ⟨whole, parent⟩
      exact whole_refused whole (handled.whole whole parent).1
    · rintro ⟨ion, ok⟩
      have accepted := teekCheckOperation_ok_iff.2 ok
      have second := (handled.ionEncoded ion accepted).2.2
      rw [ion_as_value le ion accepted] at second
      exact valueBAddr_ne _ second
  · rintro ⟨noWhole, noIon⟩
    refine ⟨fun whole parent => absurd ⟨whole, parent⟩ noWhole, fun ion _ accepted => ?_,
      fun ion accepted => ?_⟩
    · exact noIon ⟨ion, teekCheckOperation_ok_iff.1 accepted⟩
    · exact absurd ⟨ion, teekCheckOperation_ok_iff.1 accepted⟩ noIon

/-- A memory with these bytes from 0x1000 on. -/
def memoryOf (bytes : List (BitVec 8)) : Memory := fun a => bytes.getD (a - 0x1000).toNat 0

/-- An operation at 0x1000 with an ION parameter whose descriptor is -1. -/
def negativeIon : Memory :=
  memoryOf [1, 0, 0, 0, 8, 0, 0, 0, 0xff, 0xff, 0xff, 0xff, 0, 0, 0, 0, 0, 0x10]

/-- An operation at 0x1000 whose first parameter is all of the shared memory at 0x1068. -/
def wholeBuffer : Memory :=
  memoryOf ([1, 0, 0, 0, 0xc, 0, 0, 0, 0x68, 0x10] ++ .replicate 94 0 ++
    [0, 0x20, 0, 0, 0, 0, 0, 0, 0, 0x10, 0, 0, 0, 0, 0, 0, 3, 0, 0, 0, 0, 0, 0, 0, 1])

/-- The ION parameter of an operation that is accepted, and a parameter behind it. -/
theorem kinds_handled_iff_negativeIon :
    ¬ KindsHandled negativeIon 0x1000 0 ∧ KindsHandled negativeIon 0x1000 1 := by
  have accepted : teekCheckOperation negativeIon (some 0x1000) = teecSuccess := by decide +kernel
  have none_ : paramType negativeIon 0x1000 1 = teecNone := by decide +kernel
  constructor
  · intro handled
    exact ((kinds_handled_iff (by decide)).1 handled).2
      ⟨by decide +kernel, teekCheckOperation_ok_iff.1 accepted⟩
  · refine (kinds_handled_iff (by decide)).2 ⟨fun whole => ?_, fun ion => ?_⟩
    · exact absurd (none_.symm.trans whole.1) (by decide)
    · exact absurd ion.1 (by rw [none_]; decide)

/-- The negative descriptor is accepted, and the whole buffer is refused. -/
theorem kinds_not_handled :
    (ionShareFd negativeIon (paramAddr 0x1000 0) = -1 ∧
      teekCheckOperation negativeIon (some 0x1000) = teecSuccess ∧
      ¬ KindsHandled negativeIon 0x1000 0) ∧
    (memrefAt wholeBuffer (paramAddr 0x1000 0)).parent = 0x1068 ∧
      teekCheckOperation wholeBuffer (some 0x1000) = teecErrorBadParameters ∧
      ¬ KindsHandled wholeBuffer 0x1000 0 := by
  have accepted : teekCheckOperation negativeIon (some 0x1000) = teecSuccess := by decide +kernel
  have parent : (memrefAt wholeBuffer (paramAddr 0x1000 0)).parent = 0x1068 := by decide +kernel
  have negative : ionShareFd negativeIon (paramAddr 0x1000 0) = -1 := by decide +kernel
  refine ⟨⟨negative, accepted, ?_⟩, parent, by decide +kernel, ?_⟩
  · intro handled
    exact handled.ionRefused (by decide +kernel) (by rw [negative]; decide) accepted
  · intro handled
    have whole := handled.whole (by decide +kernel) (by rw [parent]; decide)
    exact absurd whole.1 (by decide +kernel)

end Handled
end TeekOperation
