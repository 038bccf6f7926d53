import Tzdriver.LoginInfo
import Tzdriver.TeekOperation

/-!
# The context of an open

An open of a kernel client does not get to the driver's call with the context that was encoded.
`check_open_sess_params` stores the package name of parameter 3 on the device and forgets the key;
`check_login_method` then points parameters 2 and 3 into the device and has the caller's uid stand
for the key. A command keeps its context.
-/

namespace TeekOperation

open WordMemory ClientCall TeecToken
open LoginInfo (checkLoginMethod checkOpenSessParams maxPackageNameLen)

/-- Where the login fields of a device stand. -/
structure LoginAddrs where
  pkgName : Address
  pkgNameLen : Address
  pubKey : Address
  pubKeyLen : Address

/-- What the driver has for an open: the device, the caller's uid and what `tc_user_param_valid`
finds for parameters 0 and 1 of a user. -/
structure LoginCall where
  dev : LoginInfo.DevFile
  addrs : LoginAddrs
  caUid : UInt32
  usrParamValid : Fin 2 → Bool

/-- The operation as `check_open_sess_params` reads it. -/
def operationAt (mem : Memory) (oper : Address) : LoginInfo.TeecOperation where
  paramType2 := (paramType mem oper 2).toUInt32
  paramType3 := (paramType mem oper 3).toUInt32
  buffer2 := decide ((tmprefAt mem (paramAddr oper 2)).buffer ≠ 0)
  size2 := ⟨(tmprefAt mem (paramAddr oper 2)).size⟩
  buffer3 := decide ((tmprefAt mem (paramAddr oper 3)).buffer ≠ 0)
  size3 := ⟨(tmprefAt mem (paramAddr oper 3)).size⟩
  bytes3 i := ⟨mem ((tmprefAt mem (paramAddr oper 3)).buffer + BitVec.ofNat 64 i)⟩
  checked := (teekCheckOperation mem (some oper)).toUInt32

/-- The context as `check_login_method` reads it. -/
def loginContext (context : TcNsClientContext) (usrParamValid : Fin 2 → Bool) :
    LoginInfo.ClientContext where
  method := LoginInfo.teecLoginIdentify
  paramType i := (teecParamTypeGet context.paramTypes i).toUInt32
  memref i := .client ⟨(context.params i).sizeAddr⟩ ⟨(context.params i).buffer⟩
  usrParamValid := usrParamValid

/-- A parameter with its buffer and the cell of its size where `check_login_method` has put them. -/
def TcNsClientParam.withMemref (param : TcNsClientParam) (addrs : LoginAddrs) :
    LoginInfo.MemRef → TcNsClientParam
  | .client sizeAddr buffer => { param with buffer := buffer.toBitVec, sizeAddr := sizeAddr.toBitVec }
  | .pkgName => { param with buffer := addrs.pkgName, sizeAddr := addrs.pkgNameLen }
  | .pubKey => { param with buffer := addrs.pubKey, sizeAddr := addrs.pubKeyLen }

/-- A parameter as the login code counts them. -/
def paramIndex (i : Nat) : Fin 4 := ⟨i % 4, Nat.mod_lt i (by decide)⟩

/-- The context as `check_login_method` leaves it. -/
def loggedContext (addrs : LoginAddrs) (context : TcNsClientContext) (login : LoginInfo.ClientContext) :
    TcNsClientContext where
  params i := (context.params i).withMemref addrs (login.memref (paramIndex i))
  paramTypes :=
    teecParamTypes (login.paramType (paramIndex 0)).toNat (login.paramType (paramIndex 1)).toNat
      (login.paramType (paramIndex 2)).toNat (login.paramType (paramIndex 3)).toNat

/-- What `alloc_for_tmp_mem` and `check_buffer_for_ref` read for the size: 32 bits of the caller's
memory, or a length on the device. -/
def sizeWord (mem : Memory) (dev : LoginInfo.DevFile) : LoginInfo.MemRef → Nat
  | .client sizeAddr _ => (load32 mem sizeAddr.toBitVec).toNat
  | .pkgName => dev.pkgNameLen.toNat
  | .pubKey => dev.pubKeyLen.toNat

/-- The context with which the driver goes into its call, and the words its sizes are read from. -/
structure Arrived where
  context : TcNsClientContext
  size : Nat → Nat

section Arrive

variable (mem : Memory) (oper : Address) (p : CallParams) (login : LoginCall)

def isOpen : Prop := p.global = true ∧ p.context.cmdId = globalCmdIdOpenSession

instance : Decidable (isOpen p) := inferInstanceAs (Decidable (_ ∧ _))

/-- `proc_teek_open_session` and `tc_ns_open_session`, as far as they change parameters; `none`: the
open is refused. -/
def arriveOpen : Option Arrived :=
  match checkOpenSessParams (operationAt mem oper) login.dev with
  | (ret, dev) =>
    if ret ≠ 0 then none
    else
      let context := (procTeekEncode mem teekInitContext oper).2
      match checkLoginMethod login.caUid dev (loginContext context login.usrParamValid) with
      | (ret, dev, logged) =>
        if ret ≠ 0 then none
        else some ⟨loggedContext login.addrs context logged,
          fun i => sizeWord mem dev (logged.memref (paramIndex i))⟩

/-- The way of an accepted operation from `proc_teek_encode` to `alloc_operation`. -/
def arrive : Option Arrived :=
  if isOpen p then arriveOpen mem oper login
  else
    let context := (procTeekEncode mem teekInitContext oper).2
    some ⟨context, fun i => (load32 mem (context.params i).sizeAddr).toNat⟩

end Arrive

/-- An open that gets to its call. -/
structure Admitted (mem : Memory) (oper : Address) (login : LoginCall) : Prop where
  key : paramType mem oper 2 = teecMemrefTempInput
  name : paramType mem oper 3 = teecMemrefTempInput
  short : (tmprefAt mem (paramAddr oper 3)).size.toNat ≤ maxPackageNameLen - 1
  uid : login.caUid ≠ 0xFFFFFFFF
  params : login.dev.kernelApi = false → login.usrParamValid 0 = true ∧ login.usrParamValid 1 = true

section Open

variable {mem : Memory} {oper : Address} {login : LoginCall} {dev : LoginInfo.DevFile} {index : Nat}

theorem type_toUInt32 : (paramType mem oper index).toUInt32 = LoginInfo.teecMemrefTempInput ↔
    paramType mem oper index = teecMemrefTempInput := by
  have small := paramType_lt mem oper index
  rw [← UInt32.toNat_inj, Nat.toUInt32_eq, UInt32.toNat_ofNat', Nat.mod_eq_of_lt (by omega)]
  rfl

theorem isOperParamValid_types {op : LoginInfo.TeecOperation}
    (valid : LoginInfo.isOperParamValid op = true) :
    op.paramType2 = LoginInfo.teecMemrefTempInput ∧ op.paramType3 = LoginInfo.teecMemrefTempInput := by
  unfold LoginInfo.isOperParamValid at valid
  split at valid
  · cases valid
  · rename_i types
    rw [not_or, not_not, not_not] at types
    exact types.symm

section Accepted

variable (accepted : teekCheckOperation mem (some oper) = teecSuccess)
include accepted

/-- A temporary buffer of an accepted operation is there. -/
theorem tmp_given (le : index < teeParamNum) (tmp : paramType mem oper index = teecMemrefTempInput) :
    (tmprefAt mem (paramAddr oper index)).buffer ≠ 0 ∧ (tmprefAt mem (paramAddr oper index)).size ≠ 0 :=
  ((teekCheckOperation_ok_iff.1 accepted).2 index le).tmp (by rw [tmp]; rfl)

/-- The buffers and sizes need no check of their own. -/
theorem isOperParamValid_iff : LoginInfo.isOperParamValid (operationAt mem oper) = true ↔
    paramType mem oper 2 = teecMemrefTempInput ∧ paramType mem oper 3 = teecMemrefTempInput := by
  constructor
  · intro valid
    have types := isOperParamValid_types valid
    exact ⟨type_toUInt32.1 types.1, type_toUInt32.1 types.2⟩
  · rintro ⟨key, name⟩
    obtain ⟨buffer2, size2⟩ := tmp_given accepted (by decide) key
    obtain ⟨buffer3, size3⟩ := tmp_given accepted (by decide) name
    have some2 : (operationAt mem oper).size2 ≠ 0 :=
      fun zero => size2 (congrArg UInt64.toBitVec zero)
    have some3 : (operationAt mem oper).size3 ≠ 0 :=
      fun zero => size3 (congrArg UInt64.toBitVec zero)
    have there2 : (operationAt mem oper).buffer2 = true := decide_eq_true buffer2
    have there3 : (operationAt mem oper).buffer3 = true := decide_eq_true buffer3
    have type2 : (operationAt mem oper).paramType2 = LoginInfo.teecMemrefTempInput :=
      type_toUInt32.2 key
    have type3 : (operationAt mem oper).paramType3 = LoginInfo.teecMemrefTempInput :=
      type_toUInt32.2 name
    unfold LoginInfo.isOperParamValid
    rw [type2, type3, there2, there3]
    simp [some2, some3]

/-- What `check_open_sess_params` makes of an accepted operation. -/
theorem checkOpenSessParams_accepted :
    ((checkOpenSessParams (operationAt mem oper) dev).1 = 0 ↔
      paramType mem oper 2 = teecMemrefTempInput ∧ paramType mem oper 3 = teecMemrefTempInput ∧
        (tmprefAt mem (paramAddr oper 3)).size.toNat ≤ maxPackageNameLen - 1) ∧
    ((checkOpenSessParams (operationAt mem oper) dev).1 = 0 →
      (checkOpenSessParams (operationAt mem oper) dev).2.pkgNameLen.toNat =
          (tmprefAt mem (paramAddr oper 3)).size.toNat ∧
        (checkOpenSessParams (operationAt mem oper) dev).2.pubKeyLen = 0 ∧
        (checkOpenSessParams (operationAt mem oper) dev).2.kernelApi = dev.kernelApi) := by
  have refused : LoginInfo.teecErrorBadParameters ≠ 0 := by decide
  have checked : (operationAt mem oper).checked = 0 := by
    rw [operationAt, accepted]
    rfl
  have size : (operationAt mem oper).size3.toNat = (tmprefAt mem (paramAddr oper 3)).size.toNat := rfl
  have valid := isOperParamValid_iff accepted
  unfold checkOpenSessParams
  split
  · rename_i bad
    rw [← Bool.not_eq_true, valid] at bad
    exact ⟨iff_of_false refused fun h => bad ⟨h.1, h.2.1⟩, fun h => absurd h refused⟩
  · rename_i good
    rw [Bool.not_eq_false, valid] at good
    simp only [size]
    split
    · rename_i long
      exact ⟨iff_of_false refused fun h => absurd h.2.2 (by omega), fun h => absurd h refused⟩
    · rename_i short
      have copied : LoginInfo.memcpyS (Vector.replicate maxPackageNameLen 0)
          ((List.range (tmprefAt mem (paramAddr oper 3)).size.toNat).map
            (operationAt mem oper).bytes3) =
          (0, LoginInfo.overlay (Vector.replicate maxPackageNameLen 0)
            ((List.range (tmprefAt mem (paramAddr oper 3)).size.toNat).map
              (operationAt mem oper).bytes3)) := by
        apply BoundsCheck.memcpyS_fits (by decide) (by decide)
        rw [List.length_map, List.length_range]
        unfold maxPackageNameLen at *
        omega
      have stored : (operationAt mem oper).size3.toUInt32.toNat =
          (tmprefAt mem (paramAddr oper 3)).size.toNat := by
        rw [UInt64.toNat_toUInt32, size]
        unfold maxPackageNameLen at short
        omega
      simp only [copied, checked, ne_eq, not_true_eq_false, if_false]
      exact ⟨iff_of_true trivial ⟨good.1, good.2, Nat.le_of_not_lt short⟩,
        fun _ => ⟨stored, trivial, trivial⟩⟩

end Accepted

/-- `check_login_method` on a device with a package name and no key. -/
theorem checkLoginMethod_keyless {caUid : UInt32} {context : LoginInfo.ClientContext}
    (identify : context.method = LoginInfo.teecLoginIdentify) (name : dev.pkgNameLen ≠ 0)
    (key : dev.pubKeyLen = 0) :
    ((checkLoginMethod caUid dev context).1 = 0 ↔ caUid ≠ 0xFFFFFFFF ∧
      (dev.kernelApi = false → context.usrParamValid 0 = true ∧ context.usrParamValid 1 = true)) ∧
    ((checkLoginMethod caUid dev context).1 = 0 →
      (checkLoginMethod caUid dev context).2.1.pkgNameLen = dev.pkgNameLen ∧
        (checkLoginMethod caUid dev context).2.1.pubKeyLen = 4 ∧
        (checkLoginMethod caUid dev context).2.2 = { context with
          memref := Function.update (Function.update context.memref 3 .pkgName) 2 .pubKey
          paramType := Function.update (Function.update context.paramType 2
            LoginInfo.teecMemrefTempInput) 3 LoginInfo.teecMemrefTempInput }) := by
  have invalid : -LoginInfo.eINVAL ≠ 0 := by decide
  have fault : -LoginInfo.eFAULT ≠ 0 := by decide
  unfold checkLoginMethod
  rw [if_neg (not_not.2 identify)]
  split
  · rename_i bad
    refine ⟨iff_of_false invalid ?_, fun h => absurd h invalid⟩
    rintro ⟨-, valid⟩
    obtain ⟨valid0, valid1⟩ := valid bad.1
    rw [valid0, valid1] at bad
    simp at bad
  · rename_i valid
    have params : dev.kernelApi = false →
        context.usrParamValid 0 = true ∧ context.usrParamValid 1 = true := by
      intro user
      rw [not_and, not_or, Bool.not_eq_false, Bool.not_eq_false] at valid
      exact valid user
    unfold LoginInfo.setLoginInformation
    rw [if_neg name]
    simp only [key, ne_eq, not_true_eq_false, if_false]
    by_cases uid : caUid = 0xFFFFFFFF
    · rw [if_pos uid]
      exact ⟨iff_of_false fault fun h => h.1 uid, fun h => absurd h fault⟩
    · simp only [if_neg uid, LoginInfo.memcpyS_uid, not_true_eq_false, if_false]
      exact ⟨iff_of_true trivial ⟨uid, params⟩, fun _ => ⟨trivial, trivial, trivial⟩⟩

end Open
end TeekOperation
