import Tzdriver.CallInputs
import Tzdriver.TeekLogin

/-!
# Memory parameters of the kernel API

What a temporary or a partial memory reference of an accepted operation means, in three places: in
the operation, in the context that `proc_teek_encode` makes, and in the driver. The context has the
client's range and the address of its size cell. The cell holds a `size_t`, and `alloc_for_tmp_mem`
and `check_buffer_for_ref` read 32 bits of it. In an open the driver reads the sizes of parameters 2
and 3 from the device instead, where the key is the caller's uid.
-/

namespace TeekOperation

open WordMemory ClientCall TeecToken

/-! ## What a memory parameter designates -/

/-- The direction of a memory reference, of either kind. -/
def dirOf (type : Nat) : Option Dir :=
  if type = teecMemrefTempInput ∨ type = teecMemrefPartialInput then some .input
  else if type = teecMemrefTempOutput ∨ type = teecMemrefPartialOutput then some .output
  else if type = teecMemrefTempInout ∨ type = teecMemrefPartialInout then some .inout
  else none

structure MemoryParam where
  start : Address
  sizeAddr : Address
  dir : Option Dir

section Designated

variable (mem : Memory) (oper : Address) (index : Nat)

def IsMemory : Prop :=
  isTmpMem (paramType mem oper index) = true ∨ isRefMem (paramType mem oper index) = true

/-- The parent of a partial memory reference. -/
def parentOf : Sharedmemory := sharedmemoryAt mem (memrefAt mem (paramAddr oper index)).parent

/-- A partial memory reference whose parent is memory of the driver. -/
def IsShared : Prop :=
  isRefMem (paramType mem oper index) = true ∧ (parentOf mem oper index).isAllocated = true

/-- What the caller says. -/
def designated : MemoryParam :=
  if isTmpMem (paramType mem oper index) then
    ⟨(tmprefAt mem (paramAddr oper index)).buffer, tmprefSizeAddr (paramAddr oper index),
      dirOf (paramType mem oper index)⟩
  else
    ⟨(parentOf mem oper index).buffer + (memrefAt mem (paramAddr oper index)).offset,
      memrefSizeAddr (paramAddr oper index), dirOf (paramType mem oper index)⟩

def callerSize : BitVec 64 :=
  if isTmpMem (paramType mem oper index) then (tmprefAt mem (paramAddr oper index)).size
  else (memrefAt mem (paramAddr oper index)).size

/-- What the context says. -/
def denoted (context : TcNsClientContext) : MemoryParam :=
  ⟨(context.params index).buffer + (context.params index).offset, (context.params index).sizeAddr,
    dirOf (teecParamTypeGet context.paramTypes index)⟩

theorem callerSize_eq : callerSize mem oper index =
    load64 mem (designated mem oper index).sizeAddr := by
  unfold callerSize designated
  split <;> rfl

end Designated

/-! ## The driver -/

/-- The call that gets the context. -/
def callOf (p : CallParams) (context : TcNsClientContext) : CallParams :=
  { p with context := { p.context with
      paramTypes := context.paramTypes
      params := fun i => ⟨(context.params i).buffer.toNat, (context.params i).offset.toNat⟩ } }

theorem callOf_paramType (p : CallParams) (context : TcNsClientContext) (index : Nat) :
    (callOf p context).paramType index = teecParamTypeGet context.paramTypes index := rfl

/-- A size that is read is the word that stands there. -/
def ReadsCells (arrived : Arrived) (env : Nat → ParamEnv) : Prop :=
  ∀ i, i < teeParamNum → ∀ size, (env i).sizeRead = some size → size = arrived.size i

/-- The size that there is for the driver to read: the caller's in 32 bits, but the size of the uid
for the key of an open. -/
def readSize (mem : Memory) (oper : Address) (p : CallParams) (index : Nat) : Nat :=
  if isOpen p ∧ index = 2 then 4 else (callerSize mem oper index).toNat % 2 ^ 32

/-- What the driver, the client's memory and the allocator have to allow for a parameter of the
operation whose size the driver reads as `low`. -/
structure ParamTaken (mem : Memory) (oper : Address) (p : CallParams) (env : Nat → ParamEnv)
    (index low : Nat) : Prop where
  temp : IsMemory mem oper index → ¬ IsShared mem oper index →
    (env index).sizeRead.isSome = true ∧ 0 < low ∧ low ≤ maxSharedSize ∧
      (env index).mbAlloc.isSome = true ∧
      (dirOf (paramType mem oper index) ≠ some .output → (env index).inputRead = true) ∧
      (isOpensessionByIndex p index = true → (env index).encryptOk = true)
  shared : IsShared mem oper index →
    (env index).sizeRead.isSome = true ∧ 0 < low ∧ (env index).mbAlloc.isSome = true ∧
      ∃ shm, p.dev.sharedMemList.find? (fun shm =>
          shm.userAddr == (parentOf mem oper index).buffer.toNat) = some shm ∧
        isRefmemOffsetValid shm ⟨(parentOf mem oper index).buffer.toNat,
          (memrefAt mem (paramAddr oper index)).offset.toNat⟩ low = true
  value : teecValueType (paramType mem oper index) .inout = true →
    (env index).valueARead = true ∧ (env index).valueBRead = true
  ion : isIonParam (paramType mem oper index) = false

/-- The driver takes the call with all parameters. -/
structure Taken (mem : Memory) (oper : Address) (p : CallParams) (login : LoginCall)
    (env : Nat → ParamEnv) : Prop where
  admitted : isOpen p → Admitted mem oper login
  params : ∀ i, i < teeParamNum → ParamTaken mem oper p env i (readSize mem oper p i)

/-- The memory parameters of an operation mean the same to the caller, in the context and in the
driver. -/
structure MeaningKept (mem : Memory) (oper : Address) (p : CallParams) (login : LoginCall)
    (env : Nat → ParamEnv) : Prop where
  encoded : (procTeekEncode mem teekInitContext oper).1 = teecSuccess
  denotes : ∀ i, i < teeParamNum → IsMemory mem oper i →
    denoted i (procTeekEncode mem teekInitContext oper).2 = designated mem oper i
  cell : ∀ i, i < teeParamNum → IsMemory mem oper i →
    load64 mem (designated mem oper i).sizeAddr = callerSize mem oper i
  inside : ∀ i, i < teeParamNum → isRefMem (paramType mem oper i) = true →
    range (designated mem oper i).start (callerSize mem oper i).toNat ⊆
      range (parentOf mem oper i).buffer (parentOf mem oper i).size.toNat
  used : ∀ arrived ∈ arrive mem oper p login, ∀ op,
    (allocOperation (callOf p arrived.context) env op).1 = 0 →
    ∀ i, i < teeParamNum → IsMemory mem oper i →
      (allocOperation (callOf p arrived.context) env op).2.memrefSize i =
        (callerSize mem oper i).toNat

/-! ## The context has the caller's range -/

section Context

variable {mem : Memory} {oper : Address} {index type : Nat} {param : TcNsClientParam}

theorem encodeForPartMem_ref (ref : isRefMem type = true) :
    encodeForPartMem mem oper index type param =
      if (parentOf mem oper index).isAllocated then
        (⟨(parentOf mem oper index).buffer, (memrefAt mem (paramAddr oper index)).offset,
          memrefSizeAddr (paramAddr oper index)⟩, type)
      else
        (⟨(parentOf mem oper index).buffer + (memrefAt mem (paramAddr oper index)).offset, 0,
          memrefSizeAddr (paramAddr oper index)⟩,
          type - (teecMemrefPartialInput - teecMemrefTempInput)) := by
  have notWhole : type ≠ teecMemrefWhole := by
    rcases isRefMem_iff.1 ref with rfl | rfl | rfl <;> decide
  unfold encodeForPartMem parentOf
  simp only [if_neg notWhole]
  split <;> rfl

/-- A partial reference to plain memory becomes a temporary one with the same direction. -/
theorem plain_type (ref : isRefMem type = true) :
    isTmpMem (type - (teecMemrefPartialInput - teecMemrefTempInput)) = true ∧
      dirOf (type - (teecMemrefPartialInput - teecMemrefTempInput)) = dirOf type := by
  rcases isRefMem_iff.1 ref with rfl | rfl | rfl <;> exact ⟨rfl, rfl⟩

variable (ok : ∀ i, i < teeParamNum → ParamOk mem oper i) (le : index < teeParamNum)
include ok le

theorem encoded_param : ∃ e, encodeParam mem oper index (paramType mem oper index) ⟨0, 0, 0⟩ = some e ∧
    (procTeekEncode mem teekInitContext oper).2.params index = e.1 ∧
    teecParamTypeGet (procTeekEncode mem teekInitContext oper).2.paramTypes index = e.2 :=
  ⟨_, (procTeekEncode_ok teekInitContext fun i le => (ok i le).kind).2 index le, rfl, rfl⟩

theorem encoded_tmp (tmp : isTmpMem (paramType mem oper index) = true) :
    (procTeekEncode mem teekInitContext oper).2.params index =
        ⟨(tmprefAt mem (paramAddr oper index)).buffer, 0, tmprefSizeAddr (paramAddr oper index)⟩ ∧
      teecParamTypeGet (procTeekEncode mem teekInitContext oper).2.paramTypes index =
        paramType mem oper index := by
  obtain ⟨e, encoded, params, types⟩ := encoded_param ok le
  rw [encodeParam_tmp tmp] at encoded
  rw [params, types, ← Option.some.inj encoded]
  exact ⟨rfl, rfl⟩

theorem encoded_shared (shared : IsShared mem oper index) :
    (procTeekEncode mem teekInitContext oper).2.params index =
        ⟨(parentOf mem oper index).buffer, (memrefAt mem (paramAddr oper index)).offset,
          memrefSizeAddr (paramAddr oper index)⟩ ∧
      teecParamTypeGet (procTeekEncode mem teekInitContext oper).2.paramTypes index =
        paramType mem oper index := by
  obtain ⟨e, encoded, params, types⟩ := encoded_param ok le
  rw [encodeParam_ref shared.1, encodeForPartMem_ref shared.1, if_pos shared.2] at encoded
  rw [params, types, ← Option.some.inj encoded]
  exact ⟨rfl, rfl⟩

theorem encoded_plain (ref : isRefMem (paramType mem oper index) = true)
    (plain : ¬ IsShared mem oper index) :
    (procTeekEncode mem teekInitContext oper).2.params index =
        ⟨(parentOf mem oper index).buffer + (memrefAt mem (paramAddr oper index)).offset, 0,
          memrefSizeAddr (paramAddr oper index)⟩ ∧
      teecParamTypeGet (procTeekEncode mem teekInitContext oper).2.paramTypes index =
        paramType mem oper index - (teecMemrefPartialInput - teecMemrefTempInput) := by
  obtain ⟨e, encoded, params, types⟩ := encoded_param ok le
  rw [encodeParam_ref ref, encodeForPartMem_ref ref, if_neg fun alloc => plain ⟨ref, alloc⟩] at encoded
  rw [params, types, ← Option.some.inj encoded]
  exact ⟨rfl, rfl⟩

/-- What is not in memory of the driver gets to it as a temporary buffer. -/
theorem encoded_temp_type (memory : IsMemory mem oper index) (plain : ¬ IsShared mem oper index) :
    isTmpMem (teecParamTypeGet (procTeekEncode mem teekInitContext oper).2.paramTypes index) = true ∧
      dirOf (teecParamTypeGet (procTeekEncode mem teekInitContext oper).2.paramTypes index) =
        dirOf (paramType mem oper index) := by
  rcases memory with tmp | ref
  · rw [(encoded_tmp ok le tmp).2]
    exact ⟨tmp, rfl⟩
  · rw [(encoded_plain ok le ref plain).2]
    exact plain_type ref

theorem encoded_other (other : ¬ IsMemory mem oper index) :
    teecParamTypeGet (procTeekEncode mem teekInitContext oper).2.paramTypes index =
      paramType mem oper index := by
  obtain ⟨e, encoded, -, types⟩ := encoded_param ok le
  rw [IsMemory, not_or, Bool.not_eq_true, Bool.not_eq_true] at other
  rw [types]
  unfold encodeParam at encoded
  simp only [other.1, other.2, Bool.false_eq_true, if_false] at encoded
  split at encoded
  · rw [← Option.some.inj encoded]
  · split at encoded
    · rw [← Option.some.inj encoded]
    · split at encoded
      · rw [← Option.some.inj encoded]
      · cases encoded

/-- The context denotes what the caller designates. -/
theorem denoted_eq (memory : IsMemory mem oper index) :
    denoted index (procTeekEncode mem teekInitContext oper).2 = designated mem oper index := by
  have noOffset : ∀ start : Address, start + 0 = start := BitVec.add_zero
  unfold denoted designated
  by_cases tmp : isTmpMem (paramType mem oper index) = true
  · obtain ⟨params, types⟩ := encoded_tmp ok le tmp
    rw [params, types, if_pos tmp]
    simp only [noOffset]
  · have ref := memory.resolve_left tmp
    rw [if_neg tmp]
    by_cases shared : IsShared mem oper index
    · obtain ⟨params, types⟩ := encoded_shared ok le shared
      rw [params, types]
    · obtain ⟨params, types⟩ := encoded_plain ok le ref shared
      rw [params, types, (plain_type ref).2]
      simp only [noOffset]

/-- A partial reference stays in its parent. -/
theorem designated_inside (ref : isRefMem (paramType mem oper index) = true) :
    range (designated mem oper index).start (callerSize mem oper index).toNat ⊆
      range (parentOf mem oper index).buffer (parentOf mem oper index).size.toNat := by
  have part := (ok index le).ref ref
  have notTmp := isTmpMem_of_isRefMem ref
  have fits := @range_subset (parentOf mem oper index).buffer _ _ _ part.fits
  rw [BitVec.ofNat_toNat, BitVec.setWidth_eq] at fits
  simp only [designated, callerSize, notTmp, Bool.false_eq_true, if_false]
  exact fits

end Context

/-! ## What gets to the driver -/

section Arrival

/-- The context that gets to the driver has the types of the encoded one and its references to shared
memory. -/
structure Arrives (mem : Memory) (oper : Address) (p : CallParams) (arrived : Arrived) : Prop where
  type : ∀ i, i < teeParamNum → teecParamTypeGet arrived.context.paramTypes i =
    teecParamTypeGet (procTeekEncode mem teekInitContext oper).2.paramTypes i
  shared : ∀ i, i < teeParamNum → IsShared mem oper i →
    arrived.context.params i = (procTeekEncode mem teekInitContext oper).2.params i
  size : ∀ i, i < teeParamNum → IsMemory mem oper i → arrived.size i = readSize mem oper p i

variable {mem : Memory} {oper : Address} {index : Nat} {p : CallParams} {login : LoginCall}
  {arrived : Arrived}

/-- What the cell of a size holds in 32 bits. -/
theorem low_eq : (load32 mem (designated mem oper index).sizeAddr).toNat =
    (callerSize mem oper index).toNat % 2 ^ 32 := by
  rw [load32_eq_setWidth, BitVec.toNat_setWidth, callerSize_eq]

theorem encoded_low (ok : ∀ i, i < teeParamNum → ParamOk mem oper i) (le : index < teeParamNum)
    (memory : IsMemory mem oper index) :
    (load32 mem ((procTeekEncode mem teekInitContext oper).2.params index).sizeAddr).toNat =
      (callerSize mem oper index).toNat % 2 ^ 32 := by
  rw [← low_eq, ← denoted_eq ok le memory]
  rfl

/-- The login data of an open are two temporary buffers for input. -/
theorem Admitted.login_type (admitted : Admitted mem oper login) (high : 2 ≤ index)
    (le : index < teeParamNum) : paramType mem oper index = teecMemrefTempInput := by
  obtain rfl | rfl : index = 2 ∨ index = 3 := by
    unfold teeParamNum at le
    omega
  · exact admitted.key
  · exact admitted.name

theorem Admitted.low_of_shared (admitted : Admitted mem oper login) (le : index < teeParamNum)
    (shared : IsShared mem oper index) : index < 2 := by
  by_contra high
  have ref := shared.1
  rw [admitted.login_type (Nat.le_of_not_lt high) le] at ref
  exact absurd ref (by decide)

theorem type_word (types index : Nat) :
    (teecParamTypeGet types index).toUInt32.toNat = teecParamTypeGet types index := by
  have small : teecParamTypeGet types index < 16 := Nat.mod_lt _ (by decide)
  rw [Nat.toUInt32_eq, UInt32.toNat_ofNat', Nat.mod_eq_of_lt (by omega)]

section Accepted

variable (accepted : teekCheckOperation mem (some oper) = teecSuccess)
include accepted

theorem arriveOpen_cases :
    (¬ Admitted mem oper login ∧ arriveOpen mem oper login = none) ∨
    (Admitted mem oper login ∧ ∃ (dev : LoginInfo.DevFile) (logged : LoginInfo.ClientContext),
      dev.pkgNameLen.toNat = (tmprefAt mem (paramAddr oper 3)).size.toNat ∧ dev.pubKeyLen = 4 ∧
      logged = { loginContext (procTeekEncode mem teekInitContext oper).2 login.usrParamValid with
        memref := Function.update (Function.update (loginContext (procTeekEncode mem teekInitContext
          oper).2 login.usrParamValid).memref 3 .pkgName) 2 .pubKey
        paramType := Function.update (Function.update (loginContext (procTeekEncode mem
          teekInitContext oper).2 login.usrParamValid).paramType 2 LoginInfo.teecMemrefTempInput) 3
            LoginInfo.teecMemrefTempInput } ∧
      arriveOpen mem oper login = some ⟨loggedContext login.addrs
        (procTeekEncode mem teekInitContext oper).2 logged,
        fun i => sizeWord mem dev (logged.memref (paramIndex i))⟩) := by
  obtain ⟨checked, stored⟩ := @checkOpenSessParams_accepted mem oper login.dev accepted
  unfold arriveOpen
  generalize LoginInfo.checkOpenSessParams (operationAt mem oper) login.dev = out at checked stored
  obtain ⟨ret, dev⟩ := out
  simp only at checked stored ⊢
  by_cases done : ret = 0
  · obtain ⟨key, name, short⟩ := checked.1 done
    obtain ⟨nameLen, keyLen, kernel⟩ := stored done
    have someName : dev.pkgNameLen ≠ 0 := by
      intro zero
      rw [zero] at nameLen
      apply (tmp_given accepted (by decide) name).2
      rw [← BitVec.toNat_inj, ← nameLen]
      rfl
    obtain ⟨let_, left⟩ := @checkLoginMethod_keyless dev login.caUid
      (loginContext (procTeekEncode mem teekInitContext oper).2 login.usrParamValid) rfl someName keyLen
    generalize LoginInfo.checkLoginMethod login.caUid dev (loginContext (procTeekEncode mem
      teekInitContext oper).2 login.usrParamValid) = out at let_ left
    obtain ⟨ret', dev', logged⟩ := out
    simp only at let_ left ⊢
    rw [kernel] at let_
    rw [if_neg (not_not.2 done)]
    by_cases through : ret' = 0
    · obtain ⟨uid, params⟩ := let_.1 through
      obtain ⟨sameName, newKey, same⟩ := left through
      rw [if_neg (not_not.2 through)]
      refine .inr ⟨⟨key, name, short, uid, params⟩, dev', logged, ?_, newKey, same, rfl⟩
      rw [sameName, nameLen]
    · rw [if_pos through]
      exact .inl ⟨fun admitted => through (let_.2 ⟨admitted.uid, admitted.params⟩), rfl⟩
  · rw [if_pos done]
    exact .inl ⟨fun admitted => done (checked.2 ⟨admitted.key, admitted.name, admitted.short⟩), rfl⟩

/-- A call gets to the driver unless it is an open that is refused. -/
theorem arrive_isSome_iff :
    (arrive mem oper p login).isSome = true ↔ (isOpen p → Admitted mem oper login) := by
  unfold arrive
  split
  · rename_i open_
    rcases @arriveOpen_cases mem oper login accepted with ⟨refused, none_⟩ | ⟨admitted, _, _, _, _, _, some_⟩
    · rw [none_]
      exact iff_of_false Bool.false_ne_true fun h => refused (h open_)
    · rw [some_]
      exact iff_of_true rfl fun _ => admitted
  · rename_i command
    exact iff_of_true rfl fun open_ => absurd open_ command

/-- The types of an open stay as they are encoded: those of the key and the name are put in again. -/
theorem logged_type {types : Fin 4 → UInt32} (admitted : Admitted mem oper login)
    (same : types = Function.update (Function.update (loginContext (procTeekEncode mem
      teekInitContext oper).2 login.usrParamValid).paramType 2 LoginInfo.teecMemrefTempInput) 3
        LoginInfo.teecMemrefTempInput) (le : index < teeParamNum) :
    (types (paramIndex index)).toNat =
      teecParamTypeGet (procTeekEncode mem teekInitContext oper).2.paramTypes index := by
  have ok := (teekCheckOperation_ok_iff.1 accepted).2
  have input : 2 ≤ index →
      teecParamTypeGet (procTeekEncode mem teekInitContext oper).2.paramTypes index =
        teecMemrefTempInput := by
    intro high
    have type := admitted.login_type high le
    rw [(encoded_tmp ok le (by rw [type]; rfl)).2, type]
  obtain rfl | rfl | rfl | rfl : index = 0 ∨ index = 1 ∨ index = 2 ∨ index = 3 := by
    unfold teeParamNum at le
    omega
  · rw [same]
    exact type_word _ 0
  · rw [same]
    exact type_word _ 1
  · rw [same, input (by decide)]
    rfl
  · rw [same, input (by decide)]
    rfl

theorem arriveOpen_arrives (open_ : isOpen p) (got : arriveOpen mem oper login = some arrived) :
    Arrives mem oper p arrived := by
  have ok := (teekCheckOperation_ok_iff.1 accepted).2
  obtain ⟨refused, none_⟩ | ⟨admitted, dev, logged, name, key, same, some_⟩ :=
    @arriveOpen_cases mem oper login accepted
  · rw [none_] at got
    cases got
  · rw [some_] at got
    cases got
    refine ⟨?_, ?_, ?_⟩
    · have types : ∀ i, i < teeParamNum → (logged.paramType (paramIndex i)).toNat =
          teecParamTypeGet (procTeekEncode mem teekInitContext oper).2.paramTypes i :=
        fun i le => logged_type accepted admitted (by rw [same]) le
      have small : ∀ i, i < teeParamNum → (logged.paramType (paramIndex i)).toNat < 16 := by
        intro i le
        rw [types i le]
        exact Nat.mod_lt _ (by decide)
      intro i le
      rw [← types i le]
      exact @teecParamTypeGet_teecParamTypes (fun i => (logged.paramType (paramIndex i)).toNat)
        small i le
    · intro i le shared
      obtain rfl | rfl : i = 0 ∨ i = 1 := by
        have := admitted.low_of_shared le shared
        omega
      · rw [same]
        rfl
      · rw [same]
        rfl
    · intro i le memory
      obtain rfl | rfl | rfl | rfl : i = 0 ∨ i = 1 ∨ i = 2 ∨ i = 3 := by
        unfold teeParamNum at le
        omega
      · rw [readSize, if_neg (by omega), ← encoded_low ok le memory, same]
        rfl
      · rw [readSize, if_neg (by omega), ← encoded_low ok le memory, same]
        rfl
      · rw [readSize, if_pos ⟨open_, rfl⟩, same]
        exact congrArg UInt32.toNat key
      · have tmp : isTmpMem (paramType mem oper 3) = true := by
          rw [admitted.name]
          rfl
        have short := admitted.short
        unfold LoginInfo.maxPackageNameLen at short
        rw [readSize, if_neg (by omega), callerSize, if_pos tmp, Nat.mod_eq_of_lt (by omega), same]
        exact name

theorem arrive_arrives (got : arrive mem oper p login = some arrived) :
    Arrives mem oper p arrived := by
  have ok := (teekCheckOperation_ok_iff.1 accepted).2
  unfold arrive at got
  split at got
  · rename_i open_
    exact arriveOpen_arrives accepted open_ got
  · rename_i command
    cases got
    refine ⟨fun _ _ => rfl, fun _ _ _ => rfl, fun i le memory => ?_⟩
    rw [readSize, if_neg fun both => command both.1]
    exact encoded_low ok le memory

end Accepted
end Arrival

/-! ## The driver reads 32 bits -/

section Driver

variable {mem : Memory} {oper : Address} {index : Nat} {p : CallParams} {login : LoginCall}
  {arrived : Arrived} {env : Nat → ParamEnv}

theorem isInputTempmem_iff {type : Nat} (tmp : isTmpMem type = true) :
    isInputTempmem type = true ↔ dirOf type ≠ some .output := by
  rcases isTmpMem_iff.1 tmp with rfl | rfl | rfl <;> decide

/-- A memory parameter is of no other kind. -/
theorem IsMemory.apart (memory : IsMemory mem oper index) :
    teecValueType (paramType mem oper index) .inout = false ∧
      isIonParam (paramType mem oper index) = false := by
  rcases memory with tmp | ref
  · rcases isTmpMem_iff.1 tmp with type | type | type <;> rw [type] <;> decide
  · rcases isRefMem_iff.1 ref with type | type | type <;> rw [type] <;> decide

theorem paramTaken_temp_iff {low : Nat} (memory : IsMemory mem oper index)
    (plain : ¬ IsShared mem oper index) :
    ParamTaken mem oper p env index low ↔
      (env index).sizeRead.isSome = true ∧ 0 < low ∧ low ≤ maxSharedSize ∧
        (env index).mbAlloc.isSome = true ∧
        (dirOf (paramType mem oper index) ≠ some .output → (env index).inputRead = true) ∧
        (isOpensessionByIndex p index = true → (env index).encryptOk = true) := by
  obtain ⟨notValue, notIon⟩ := memory.apart
  constructor
  · exact fun taken => taken.temp memory plain
  · intro temp
    refine ⟨fun _ _ => temp, fun shared => absurd shared plain, fun value => ?_, notIon⟩
    rw [notValue] at value
    cases value

theorem paramTaken_shared_iff {low : Nat} (shared : IsShared mem oper index) :
    ParamTaken mem oper p env index low ↔
      (env index).sizeRead.isSome = true ∧ 0 < low ∧ (env index).mbAlloc.isSome = true ∧
        ∃ shm, p.dev.sharedMemList.find? (fun shm =>
            shm.userAddr == (parentOf mem oper index).buffer.toNat) = some shm ∧
          isRefmemOffsetValid shm ⟨(parentOf mem oper index).buffer.toNat,
            (memrefAt mem (paramAddr oper index)).offset.toNat⟩ low = true := by
  obtain ⟨notValue, notIon⟩ := IsMemory.apart (.inr shared.1)
  constructor
  · exact fun taken => taken.shared shared
  · intro body
    refine ⟨fun _ plain => absurd shared plain, fun _ => body, fun value => ?_, notIon⟩
    rw [notValue] at value
    cases value

section Reads

variable (ok : ∀ i, i < teeParamNum → ParamOk mem oper i) (le : index < teeParamNum)
  (arrives : Arrives mem oper p arrived) (reads : ReadsCells arrived env)
include ok le arrives

theorem inputOk_other_iff (other : ¬ IsMemory mem oper index) {low : Nat} :
    InputOk (callOf p arrived.context) env index ↔ ParamTaken mem oper p env index low := by
  have type : (callOf p arrived.context).paramType index = paramType mem oper index :=
    (arrives.type index le).trans (encoded_other ok le other)
  have notMemory := other
  rw [IsMemory, not_or] at notMemory
  constructor
  · intro inputs
    refine ⟨fun memory => absurd memory other, fun shared => absurd (.inr shared.1) other,
      fun value => inputs.value (type ▸ value), ?_⟩
    have ion := inputs.ion
    rw [type] at ion
    simp [isIonParam, ion.1, ion.2]
  · intro taken
    refine ⟨fun tmp => ?_, fun ref => ?_, fun value => taken.value (type ▸ value), ?_⟩
    · rw [type, teecTmpmemType_eq] at tmp
      exact absurd tmp notMemory.1
    · rw [type, teecMemrefType_eq] at ref
      exact absurd ref notMemory.2
    · rw [type]
      simpa [isIonParam] using taken.ion

omit ok in
include reads in
theorem sizeRead_eq (memory : IsMemory mem oper index) {size : Nat}
    (read : (env index).sizeRead = some size) : size = readSize mem oper p index := by
  rw [reads index le size read, arrives.size index le memory]

omit ok in
include reads in
/-- The size that is read can be named. -/
theorem exists_sizeRead_iff (memory : IsMemory mem oper index) {P : Nat → Prop} :
    (∃ size, (env index).sizeRead = some size ∧ P size) ↔
      (env index).sizeRead.isSome = true ∧ P (readSize mem oper p index) := by
  constructor
  · rintro ⟨size, read, holds⟩
    rw [← sizeRead_eq le arrives reads memory read]
    exact ⟨by rw [read]; rfl, holds⟩
  · rintro ⟨some_, holds⟩
    obtain ⟨size, read⟩ := Option.isSome_iff_exists.1 some_
    rw [← sizeRead_eq le arrives reads memory read] at holds
    exact ⟨size, read, holds⟩

include reads

theorem inputOk_temp_iff (memory : IsMemory mem oper index) (plain : ¬ IsShared mem oper index) :
    InputOk (callOf p arrived.context) env index ↔
      ParamTaken mem oper p env index (readSize mem oper p index) := by
  have type : isTmpMem ((callOf p arrived.context).paramType index) = true ∧
      dirOf ((callOf p arrived.context).paramType index) = dirOf (paramType mem oper index) := by
    rw [callOf_paramType, arrives.type index le]
    exact encoded_temp_type ok le memory plain
  rw [inputOk_tmp_iff type.1, exists_sizeRead_iff le arrives reads memory,
    isInputTempmem_iff type.1, type.2, paramTaken_temp_iff memory plain]
  rfl

theorem inputOk_shared_iff (shared : IsShared mem oper index) :
    InputOk (callOf p arrived.context) env index ↔
      ParamTaken mem oper p env index (readSize mem oper p index) := by
  obtain ⟨encoded, types⟩ := encoded_shared ok le shared
  have params := (arrives.shared index le shared).trans encoded
  have type : isRefMem ((callOf p arrived.context).paramType index) = true := by
    rw [callOf_paramType, arrives.type index le, types]
    exact shared.1
  have order : ∀ size, (∃ shm, (env index).sizeRead = some size ∧ 0 < size ∧
      sharedMemOf (callOf p arrived.context) index = some shm ∧
      isRefmemOffsetValid shm ((callOf p arrived.context).context.params index) size = true ∧
      (env index).mbAlloc.isSome = true) ↔
      (env index).sizeRead = some size ∧ 0 < size ∧ (env index).mbAlloc.isSome = true ∧
        ∃ shm, p.dev.sharedMemList.find? (fun shm =>
            shm.userAddr == (parentOf mem oper index).buffer.toNat) = some shm ∧
          isRefmemOffsetValid shm ⟨(parentOf mem oper index).buffer.toNat,
            (memrefAt mem (paramAddr oper index)).offset.toNat⟩ size = true := by
    intro size
    simp only [sharedMemOf, callOf, params]
    constructor
    · rintro ⟨shm, read, nonzero, found, valid, alloc⟩
      exact ⟨read, nonzero, alloc, shm, found, valid⟩
    · rintro ⟨read, nonzero, alloc, shm, found, valid⟩
      exact ⟨shm, read, nonzero, found, valid, alloc⟩
  rw [inputOk_ref_iff type, paramTaken_shared_iff shared]
  simp only [order]
  exact exists_sizeRead_iff le arrives reads (.inr shared.1)

/-- The driver takes a parameter on conditions that can be read off the operation. -/
theorem inputOk_iff : InputOk (callOf p arrived.context) env index ↔
    ParamTaken mem oper p env index (readSize mem oper p index) := by
  by_cases memory : IsMemory mem oper index
  · by_cases shared : IsShared mem oper index
    · exact inputOk_shared_iff ok le arrives reads shared
    · exact inputOk_temp_iff ok le arrives reads memory shared
  · exact inputOk_other_iff ok le arrives memory

omit le in
/-- `alloc_operation` succeeds exactly when the driver takes all parameters. -/
theorem allocOperation_taken_iff (op : OpParams) :
    (allocOperation (callOf p arrived.context) env op).1 = 0 ↔
      ∀ i, i < teeParamNum → ParamTaken mem oper p env i (readSize mem oper p i) := by
  rw [allocOperation_ok_iff]
  constructor
  · exact fun inputs i le => (inputOk_iff ok le arrives reads).1 (inputs i le)
  · exact fun taken i le => (inputOk_iff ok le arrives reads).2 (taken i le)

/-- The size the driver uses is the one there is for it to read. -/
theorem used_size (memory : IsMemory mem oper index) (op : OpParams)
    (done : (allocOperation (callOf p arrived.context) env op).1 = 0) :
    (allocOperation (callOf p arrived.context) env op).2.memrefSize index =
      readSize mem oper p index := by
  have type : isTmpMem ((callOf p arrived.context).paramType index) = true ∨
      isRefMem ((callOf p arrived.context).paramType index) = true := by
    rw [callOf_paramType, arrives.type index le]
    by_cases shared : IsShared mem oper index
    · rw [(encoded_shared ok le shared).2]
      exact .inr shared.1
    · exact .inl (encoded_temp_type ok le memory shared).1
  exact sizeRead_eq le arrives reads memory (allocOperation_size op done index le type)

end Reads

theorem readSize_eq_iff : readSize mem oper p index = (callerSize mem oper index).toNat ↔
    (isOpen p ∧ index = 2 → (callerSize mem oper index).toNat = 4) ∧
      (callerSize mem oper index).toNat < 2 ^ 32 := by
  unfold readSize
  split
  · rename_i key
    refine ⟨fun same => ⟨fun _ => same.symm, by omega⟩, fun both => (both.1 key).symm⟩
  · rename_i other
    refine ⟨fun same => ⟨fun key => absurd key other, by omega⟩, fun both => Nat.mod_eq_of_lt both.2⟩

/-- An accepted operation means the same to the caller, in the context and in the driver exactly
when the driver does not take the call, or no size needs more than 32 bits and the key of an open is
as long as a uid. -/
theorem meaning_kept_iff (accepted : teekCheckOperation mem (some oper) = teecSuccess)
    (reads : ∀ arrived ∈ arrive mem oper p login, ReadsCells arrived env) :
    MeaningKept mem oper p login env ↔ (Taken mem oper p login env →
      (∀ i, i < teeParamNum → IsMemory mem oper i → (callerSize mem oper i).toNat < 2 ^ 32) ∧
        (isOpen p → (callerSize mem oper 2).toNat = 4)) := by
  have ok := (teekCheckOperation_ok_iff.1 accepted).2
  have gets := @arrive_isSome_iff mem oper p login accepted
  constructor
  · intro kept taken
    obtain ⟨arrived, got⟩ := Option.isSome_iff_exists.1 (gets.2 taken.admitted)
    have arrives := arrive_arrives accepted got
    have done := (allocOperation_taken_iff ok arrives (reads arrived got)
      (startOp p 0 freshTokens)).2 taken.params
    have same : ∀ i, i < teeParamNum → IsMemory mem oper i →
        readSize mem oper p i = (callerSize mem oper i).toNat := by
      intro i le memory
      rw [← used_size ok le arrives (reads arrived got) memory _ done]
      exact kept.used arrived got _ done i le memory
    refine ⟨fun i le memory => (readSize_eq_iff.1 (same i le memory)).2, fun open_ => ?_⟩
    have key : IsMemory mem oper 2 := .inl (by rw [(taken.admitted open_).key]; rfl)
    exact (readSize_eq_iff.1 (same 2 (by decide) key)).1 ⟨open_, rfl⟩
  · intro holds
    refine ⟨(procTeekEncode_ok teekInitContext fun i le => (ok i le).kind).1,
      fun i le memory => denoted_eq ok le memory, fun i _ _ => (callerSize_eq mem oper i).symm,
      fun i le ref => designated_inside ok le ref, ?_⟩
    intro arrived got op done i le memory
    have arrives := arrive_arrives accepted got
    have taken : Taken mem oper p login env :=
      ⟨gets.1 (Option.isSome_iff_exists.2 ⟨arrived, got⟩),
        (allocOperation_taken_iff ok arrives (reads arrived got) op).1 done⟩
    obtain ⟨small, key⟩ := holds taken
    rw [used_size ok le arrives (reads arrived got) memory op done]
    refine readSize_eq_iff.2 ⟨?_, small i le memory⟩
    rintro ⟨open_, rfl⟩
    exact key open_

end Driver

section Example

/-- An operation at 0x1000 whose first parameter is 16 bytes at 8 of the plain memory at 0x1068. -/
def smallPart : Memory :=
  memoryOf ([1, 0, 0, 0, 0xd, 0, 0, 0, 0x68, 0x10, 0, 0, 0, 0, 0, 0, 16, 0, 0, 0, 0, 0, 0, 0, 8] ++
    .replicate 79 0 ++ [0, 0x20, 0, 0, 0, 0, 0, 0, 0, 0x10, 0, 0, 0, 0, 0, 0, 1])

/-- An operation at 0x1000 whose first parameter is a temporary buffer of 2 ^ 32 + 16 bytes. -/
def largeTemp : Memory :=
  memoryOf [1, 0, 0, 0, 5, 0, 0, 0, 0, 0x20, 0, 0, 0, 0, 0, 0, 16, 0, 0, 0, 1]

/-- An operation at 0x1000 with a key of 4 bytes and a package name of one. -/
def shortKey : Memory :=
  memoryOf ([1, 0, 0, 0, 0, 0x55, 0, 0] ++ .replicate 48 0 ++
    [0, 0x20, 0, 0, 0, 0, 0, 0, 4, 0, 0, 0, 0, 0, 0, 0] ++ .replicate 8 0 ++
    [0, 0x20, 0, 0, 0, 0, 0, 0, 1])

def invokeOf : CallParams where
  dev := ⟨1, ⟨0, false⟩, 0, []⟩
  context := { uuid := 7, sessionId := 3, cmdId := 9, paramTypes := 0, params := fun _ => ⟨0, 0⟩,
               teecToken := true, tokenLen := 24 }
  sess := true
  global := false

def openOf : CallParams :=
  { invokeOf with
    context := { invokeOf.context with cmdId := globalCmdIdOpenSession }
    global := true }

/-- A device that has just been opened, and a caller with uid 0. -/
def kernelLogin : LoginCall :=
  ⟨LoginInfo.tcNsClientOpen true, ⟨0x3008, 0x3004, 0x3110, 0x310c⟩, 0, fun _ => true⟩

/-- 16 is read for the size, and the mailbox has room. -/
def reads16 (i : Nat) : ParamEnv :=
  if i = 0 then { sizeRead := some 16, mbAlloc := some 8192 } else {}

def readsLogin (i : Nat) : ParamEnv :=
  if i = 2 then { sizeRead := some 4, mbAlloc := some 8192 }
  else if i = 3 then { sizeRead := some 1, mbAlloc := some 12288 }
  else {}

theorem reads16_cells {mem : Memory} (accepted : teekCheckOperation mem (some 0x1000) = teecSuccess)
    (memory : IsMemory mem 0x1000 0) (size : readSize mem 0x1000 invokeOf 0 = 16) :
    ∀ arrived ∈ arrive mem 0x1000 invokeOf kernelLogin, ReadsCells arrived reads16 := by
  intro arrived got i le word read
  by_cases first : i = 0
  · subst first
    rw [(arrive_arrives accepted got).size 0 le memory, size]
    exact (Option.some.inj read).symm
  · rw [reads16, if_neg first] at read
    cases read

theorem readsLogin_cells : ∀ arrived ∈ arrive shortKey 0x1000 openOf kernelLogin,
    ReadsCells arrived readsLogin := by
  intro arrived got i le word read
  have size := (arrive_arrives (by decide +kernel) got).size i le
  by_cases key : i = 2
  · subst key
    rw [size (.inl (by decide +kernel)), show readSize shortKey 0x1000 openOf 2 = 4 by decide +kernel]
    exact (Option.some.inj read).symm
  · by_cases name : i = 3
    · subst name
      rw [size (.inl (by decide +kernel)), show readSize shortKey 0x1000 openOf 3 = 1 by decide +kernel]
      exact (Option.some.inj read).symm
    · rw [readsLogin, if_neg key, if_neg name] at read
      cases read

/-- A command, and an open that the driver takes. -/
theorem meaning_kept_smallPart : MeaningKept smallPart 0x1000 invokeOf kernelLogin reads16 ∧
    MeaningKept shortKey 0x1000 openOf kernelLogin readsLogin ∧
      (arrive shortKey 0x1000 openOf kernelLogin).any (fun arrived =>
        (allocOperation (callOf openOf arrived.context) readsLogin
          (startOp openOf 0 freshTokens)).1 == 0) = true := by
  have small : ∀ i, i < teeParamNum → (callerSize smallPart 0x1000 i).toNat < 2 ^ 32 := by
    decide +kernel
  have smallKey : ∀ i, i < teeParamNum → (callerSize shortKey 0x1000 i).toNat < 2 ^ 32 := by
    decide +kernel
  refine ⟨?_, ?_, by decide +kernel⟩
  · have accepted : teekCheckOperation smallPart (some 0x1000) = teecSuccess := by decide +kernel
    have reads := reads16_cells accepted (.inr (by decide +kernel)) (by decide +kernel)
    exact (meaning_kept_iff accepted reads).2
      fun _ => ⟨fun i le _ => small i le, fun open_ => absurd open_.1 (by decide)⟩
  · exact (meaning_kept_iff (by decide +kernel) readsLogin_cells).2
      fun _ => ⟨fun i le _ => smallKey i le, fun _ => by decide +kernel⟩

/-- The operation is accepted and the driver uses 16 bytes of it. -/
theorem large_size_truncated :
    teekCheckOperation largeTemp (some 0x1000) = teecSuccess ∧
      (∀ arrived ∈ arrive largeTemp 0x1000 invokeOf kernelLogin, ReadsCells arrived reads16) ∧
      (callerSize largeTemp 0x1000 0).toNat = 2 ^ 32 + 16 ∧
      ¬ MeaningKept largeTemp 0x1000 invokeOf kernelLogin reads16 := by
  have size : (callerSize largeTemp 0x1000 0).toNat = 2 ^ 32 + 16 := by decide +kernel
  have accepted : teekCheckOperation largeTemp (some 0x1000) = teecSuccess := by decide +kernel
  refine ⟨accepted, reads16_cells accepted (.inl (by decide +kernel)) (by decide +kernel), size, ?_⟩
  intro kept
  have used := kept.used ⟨(procTeekEncode largeTemp teekInitContext 0x1000).2, _⟩ rfl
    (startOp invokeOf 0 freshTokens) (by decide +kernel) 0 (by decide) (.inl (by decide +kernel))
  rw [size] at used
  exact absurd used (by decide +kernel)

end Example
end TeekOperation
