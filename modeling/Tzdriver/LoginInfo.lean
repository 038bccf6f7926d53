import Mathlib.Algebra.Group.Nat.Defs
import Tzdriver.ActionSystem
import Tzdriver.BoundsCheck

/-!
# The identity stored on a device

`struct tc_ns_dev_file` keeps the package name and the public key (or the uid) of its user.
`tc_ns_client_login_func` sets them for a user-mode device, `check_open_sess_params` for a kernel
CA, and `set_login_information` falls back on the caller's uid when an open finds no key. An open
then hands both arrays to the TEE as parameters 3 and 2, which `alloc_for_tmp_mem` copies with the
stored lengths.

A login is meant to be final: its package name and its key stay, and a login without a key is
completed by the first uid. The stored lengths stay within the arrays as long as no kernel CA
offers a package name that is too long, because that length is stored before it is refused.

Memory the driver reads from a client is an argument, like the outcomes of `check_teecd_access`,
`kmalloc` and `teek_check_operation`. `memcpy_s` and `strncpy_s` follow their documentation.
-/

namespace LoginInfo

def maxPackageNameLen : Nat := 255
def maxPubkeyLen : Nat := 1024
def maxBufLen : Nat := 4096
def maxSharedSize : Nat := 0x100000
def eFAULT : Int := 14
def eNOMEM : Int := 12
def eACCES : Int := 13
def eINVAL : Int := 22
def teecLoginIdentify : UInt32 := 0x7
def teecMemrefTempInput : UInt32 := 0x5
def teecErrorBadParameters : UInt32 := 0xFFFF0006

/-- `MAX_PACKAGE_NAME_LEN + MAX_PUBKEY_LEN` and the two lengths. -/
def certBufferSize : Nat := maxPackageNameLen + maxPubkeyLen + 4 + 4

/-- The login fields of `struct tc_ns_dev_file`. -/
structure DevFile where
  kernelApi : Bool
  loginSetup : Bool
  pkgNameLen : UInt32
  pkgName : Vector UInt8 maxPackageNameLen
  pubKeyLen : UInt32
  pubKey : Vector UInt8 maxPubkeyLen
  deriving DecidableEq

/-- The device `tc_ns_client_open` makes. -/
def tcNsClientOpen (kernelApi : Bool) : DevFile where
  kernelApi := kernelApi
  loginSetup := false
  pkgNameLen := 0
  pkgName := Vector.replicate maxPackageNameLen 0
  pubKeyLen := 0
  pubKey := Vector.replicate maxPubkeyLen 0

section Copies

variable {n : Nat}

/-- The array with its first bytes replaced. -/
def overlay (dest : Vector UInt8 n) (src : List UInt8) : Vector UInt8 n :=
  Vector.ofFn fun i => src.getD i.val dest[i]

/-- `memcpy_s` into a whole array. -/
def memcpyS (dest : Vector UInt8 n) (src : List UInt8) : Int × Vector UInt8 n :=
  BoundsCheck.memcpyS true true n src.length dest (Vector.replicate n 0) (overlay dest src)

/-- `strncpy_s` into a whole array: the string up to its end or `count`, and a `NUL`. -/
def strncpyS (dest : Vector UInt8 n) (src : List UInt8) (count : Nat) : Int × Vector UInt8 n :=
  let str := (src.take count).takeWhile fun c => c ≠ 0
  if str.length ≥ n then (162, overlay dest [0]) else (0, overlay dest (str ++ [0]))

/-- A `uint32_t` in memory, lowest byte first. -/
def toU32 (bytes : List UInt8) : UInt32 :=
  (bytes.take 4).foldr (fun b acc => b.toUInt32 + 256 * acc) 0

def ofU32 (v : UInt32) : List UInt8 :=
  [v.toUInt8, (v >>> 8).toUInt8, (v >>> 16).toUInt8, (v >>> 24).toUInt8]

end Copies

/-- What a caller of the login request passes: `NULL`, an address that cannot be read, or one
behind which these bytes stand. -/
inductive UserBuffer where
  | null
  | unreadable
  | bytes (cert : Vector UInt8 certBufferSize)

/-- `get_pack_name_len`. -/
def getPackNameLen (dev : DevFile) (certBuffer : List UInt8) : Int × DevFile :=
  let dev := { dev with pkgNameLen := 0 }
  let tmpLen := toU32 certBuffer
  if tmpLen = 0 ∨ tmpLen.toNat ≥ maxPackageNameLen then (-eINVAL, dev)
  else (0, { dev with pkgNameLen := tmpLen })

/-- `get_public_key_len`. -/
def getPublicKeyLen (dev : DevFile) (certBuffer : List UInt8) : Int × DevFile :=
  let dev := { dev with pubKeyLen := 0 }
  let tmpLen := toU32 certBuffer
  if tmpLen.toNat > maxPubkeyLen then (-eINVAL, dev)
  else (0, { dev with pubKeyLen := tmpLen })

/-- `get_public_key`. -/
def getPublicKey (dev : DevFile) (certBuffer : List UInt8) : Int × DevFile :=
  if dev.pubKeyLen = 0 then (0, dev)
  else
    match memcpyS dev.pubKey (certBuffer.take dev.pubKeyLen.toNat) with
    | (ret, pubKey) => (if ret ≠ 0 then -eINVAL else 0, { dev with pubKey := pubKey })

/-- `is_cert_buffer_size_valid`. -/
def isCertBufferSizeValid (size : Nat) : Bool := !decide (size > maxBufLen ∨ size = 0)

/-- `tc_ns_client_login_func`; `teecd` is what `check_teecd_access` returns. -/
def tcNsClientLoginFunc (teecd : Int) (kmallocOk : Bool) (buffer : UserBuffer) (dev : DevFile) :
    Int × DevFile :=
  match buffer with
  | .null => (0, { dev with pkgNameLen := 0, pubKeyLen := 0 })
  | _ =>
    if dev.loginSetup then (-eINVAL, dev)
    else if teecd ≠ 0 then (-eACCES, dev)
    else if kmallocOk = false then (-eNOMEM, dev)
    else if isCertBufferSizeValid certBufferSize = false then (-eINVAL, dev)
    else
      match buffer with
      | .bytes cert =>
        match getPackNameLen dev cert.toList with
        | (ret, dev) =>
          if ret ≠ 0 then (ret, dev)
          else
            let certBuffer := cert.toList.drop 4
            match strncpyS dev.pkgName certBuffer dev.pkgNameLen.toNat with
            | (ret, pkgName) =>
              let dev := { dev with pkgName := pkgName }
              if ret ≠ 0 then (-eNOMEM, dev)
              else
                let certBuffer := certBuffer.drop dev.pkgNameLen.toNat
                match getPublicKeyLen dev certBuffer with
                | (ret, dev) =>
                  if ret ≠ 0 then (ret, dev)
                  else
                    match getPublicKey dev (certBuffer.drop 4) with
                    | (ret, dev) => (ret, { dev with loginSetup := true })
      | _ => (-eINVAL, dev)

/-- Where the size and the buffer of a memory parameter stand: with the client, or in the device. -/
inductive MemRef where
  | client (sizeAddr buffer : UInt64)
  | pkgName
  | pubKey
  deriving DecidableEq

/-- The part of `struct tc_ns_client_context` an open reads; `usrParamValid` is what
`tc_user_param_valid` finds for parameters 0 and 1. -/
structure ClientContext where
  method : UInt32
  paramType : Fin 4 → UInt32
  memref : Fin 4 → MemRef
  usrParamValid : Fin 2 → Bool

/-- `set_login_information`; `caUid` is what `tc_ns_get_uid` returns. -/
def setLoginInformation (caUid : UInt32) (dev : DevFile) (context : ClientContext) :
    Int × DevFile × ClientContext :=
  if dev.pkgNameLen = 0 then (-eINVAL, dev, context)
  else
    let context := { context with memref := Function.update context.memref 3 .pkgName }
    let marked : ClientContext :=
      { context with
        memref := Function.update context.memref 2 .pubKey
        paramType := Function.update (Function.update context.paramType 2 teecMemrefTempInput) 3
          teecMemrefTempInput }
    if dev.pubKeyLen ≠ 0 then (0, dev, marked)
    else if caUid = 0xFFFFFFFF then (-eFAULT, dev, context)
    else
      match memcpyS dev.pubKey (ofU32 caUid) with
      | (ret, pubKey) =>
        let dev := { dev with pubKeyLen := 4, pubKey := pubKey }
        if ret ≠ 0 then (-eFAULT, dev, context) else (0, dev, marked)

/-- `check_login_method`. -/
def checkLoginMethod (caUid : UInt32) (dev : DevFile) (context : ClientContext) :
    Int × DevFile × ClientContext :=
  if context.method ≠ teecLoginIdentify then (-eINVAL, dev, context)
  else if dev.kernelApi = false ∧
      (context.usrParamValid 0 = false ∨ context.usrParamValid 1 = false) then
    (-eINVAL, dev, context)
  else setLoginInformation caUid dev context

/-- `struct teec_operation` as `check_open_sess_params` reads it: the types and the temporary
memory of parameters 2 and 3, whether those addresses are `NULL`, and what
`teek_check_operation` finds. -/
structure TeecOperation where
  paramType2 : UInt32
  paramType3 : UInt32
  buffer2 : Bool
  size2 : UInt64
  buffer3 : Bool
  size3 : UInt64
  bytes3 : Nat → UInt8
  checked : UInt32

/-- `is_oper_param_valid`. -/
def isOperParamValid (op : TeecOperation) : Bool :=
  if op.paramType3 ≠ teecMemrefTempInput ∨ op.paramType2 ≠ teecMemrefTempInput then false
  else if op.buffer3 = false ∨ op.buffer2 = false ∨ op.size3 = 0 ∨ op.size2 = 0 then false
  else true

/-- `check_open_sess_params`. The size, a `size_t`, is stored in 32 bits before it is checked. -/
def checkOpenSessParams (op : TeecOperation) (dev : DevFile) : UInt32 × DevFile :=
  if isOperParamValid op = false then (teecErrorBadParameters, dev)
  else
    let dev := { dev with pkgNameLen := op.size3.toUInt32 }
    if op.size3.toNat > maxPackageNameLen - 1 then (teecErrorBadParameters, dev)
    else
      match memcpyS (Vector.replicate maxPackageNameLen 0)
          ((List.range op.size3.toNat).map op.bytes3) with
      | (ret, pkgName) =>
        let dev := { dev with pkgName := pkgName }
        if ret ≠ 0 then (teecErrorBadParameters, dev)
        else
          let dev := { dev with pubKeyLen := 0, loginSetup := true }
          if op.checked ≠ 0 then (teecErrorBadParameters, dev) else (op.checked, dev)

/-- How `alloc_for_tmp_mem` ends for a parameter that stands in the device. -/
inductive TmpMem where
  | failed (ret : Int)
  | copied (bytes : List UInt8)
  | readsPast
  deriving DecidableEq

/-- The kernel-mode copy of `alloc_for_tmp_mem`: `bufferSize` bytes from an array of `n`. -/
def copyTmpMem {n : Nat} (bufferSize : UInt32) (buffer : Vector UInt8 n) (mbAlloc : Bool) :
    TmpMem :=
  if bufferSize.toNat > maxSharedSize then .failed (-eFAULT)
  else if bufferSize = 0 ∨ mbAlloc = false then .failed (-eNOMEM)
  else if bufferSize.toNat ≤ n then .copied (buffer.toList.take bufferSize.toNat)
  else .readsPast

/-- `alloc_for_tmp_mem` for the parameters that `set_login_information` points into the device. -/
def allocForTmpMem (dev : DevFile) (context : ClientContext) (mbAlloc : Bool) (index : Fin 4) :
    Option TmpMem :=
  match context.memref index with
  | .client _ _ => none
  | .pkgName => some (copyTmpMem dev.pkgNameLen dev.pkgName mbAlloc)
  | .pubKey => some (copyTmpMem dev.pubKeyLen dev.pubKey mbAlloc)

section Login

/-- The requests on the device of a user. Closing a session, sending a command and the requests
left out here do not write the login fields; `rest` is what an open returns after its login
check. -/
inductive Ioctl where
  | login (teecd : Int) (kmallocOk : Bool) (buffer : UserBuffer)
  | openSession (caUid : UInt32) (context : ClientContext) (rest : Int)
  | closeSession (ret : Int)
  | sendCmd (ret : Int)
  | other (ret : Int)

/-- `tc_client_ioctl`, as far as it concerns the login fields. -/
def tcClientIoctl (dev : DevFile) : Ioctl → Int × DevFile
  | .login teecd kmallocOk buffer => tcNsClientLoginFunc teecd kmallocOk buffer dev
  | .openSession caUid context rest =>
    match checkLoginMethod caUid dev context with
    | (ret, dev, _) => (if ret ≠ 0 then ret else rest, dev)
  | .closeSession ret => (ret, dev)
  | .sendCmd ret => (ret, dev)
  | .other ret => (ret, dev)

def runIoctls (dev : DevFile) (calls : List Ioctl) : DevFile :=
  calls.foldl (fun dev call => (tcClientIoctl dev call).2) dev

/-- A login request without a buffer, which resets both lengths. -/
def Ioctl.Resets : Ioctl → Prop
  | .login _ _ .null => True
  | _ => False

/-- The uid fallback of an open. -/
def storeUid (dev : DevFile) (caUid : UInt32) : DevFile :=
  { dev with pubKeyLen := 4, pubKey := overlay dev.pubKey (ofU32 caUid) }

theorem memcpyS_uid (dest : Vector UInt8 maxPubkeyLen) (caUid : UInt32) :
    memcpyS dest (ofU32 caUid) = (0, overlay dest (ofU32 caUid)) := by
  have fits : (ofU32 caUid).length ≤ maxPubkeyLen := by simp [ofU32, maxPubkeyLen]
  exact BoundsCheck.memcpyS_fits (by decide) (by decide) fits

/-- What `set_login_information` does to the device. -/
theorem setLoginInformation_dev (caUid : UInt32) (dev : DevFile) (context : ClientContext) :
    (setLoginInformation caUid dev context).2.1 = dev ∨
      dev.pkgNameLen ≠ 0 ∧ dev.pubKeyLen = 0 ∧ caUid ≠ 0xFFFFFFFF ∧
        (setLoginInformation caUid dev context).2.1 = storeUid dev caUid := by
  unfold setLoginInformation
  by_cases name : dev.pkgNameLen = 0
  · rw [if_pos name]
    exact Or.inl rfl
  · rw [if_neg name]
    by_cases key : dev.pubKeyLen ≠ 0
    · simp only [if_pos key]
      exact Or.inl trivial
    · by_cases uid : caUid = 0xFFFFFFFF
      · simp only [if_neg key, if_pos uid]
        exact Or.inl trivial
      · simp only [if_neg key, if_neg uid, memcpyS_uid, ne_eq, not_true_eq_false, if_false]
        exact Or.inr ⟨name, not_not.mp key, uid, rfl⟩

theorem checkLoginMethod_dev (caUid : UInt32) (dev : DevFile) (context : ClientContext) :
    (checkLoginMethod caUid dev context).2.1 = dev ∨
      dev.pubKeyLen = 0 ∧ caUid ≠ 0xFFFFFFFF ∧
        (checkLoginMethod caUid dev context).2.1 = storeUid dev caUid := by
  unfold checkLoginMethod
  split
  · exact Or.inl rfl
  · split
    · exact Or.inl rfl
    · rcases setLoginInformation_dev caUid dev context with same | ⟨-, key, uid, stored⟩
      · exact Or.inl same
      · exact Or.inr ⟨key, uid, stored⟩

/-- A login with a buffer does nothing to a device that is set up. -/
theorem login_again {dev : DevFile} (setup : dev.loginSetup = true) {buffer : UserBuffer}
    (given : buffer ≠ .null) (teecd : Int) (kmallocOk : Bool) :
    tcNsClientLoginFunc teecd kmallocOk buffer dev = (-eINVAL, dev) := by
  unfold tcNsClientLoginFunc
  cases buffer with
  | null => exact absurd rfl given
  | unreadable => simp [setup]
  | bytes cert => simp [setup]

/-- What a request does to a device that is set up, unless it resets the lengths. -/
theorem tcClientIoctl_setup {dev : DevFile} (setup : dev.loginSetup = true) {call : Ioctl}
    (keeps : ¬ call.Resets) :
    (tcClientIoctl dev call).2 = dev ∨
      dev.pubKeyLen = 0 ∧ ∃ caUid context rest, call = .openSession caUid context rest ∧
        caUid ≠ 0xFFFFFFFF ∧ (tcClientIoctl dev call).2 = storeUid dev caUid := by
  cases call with
  | login teecd kmallocOk buffer =>
    have given : buffer ≠ .null := by
      rintro rfl
      exact keeps trivial
    exact Or.inl (by rw [tcClientIoctl, login_again setup given])
  | openSession caUid context rest =>
    rcases checkLoginMethod_dev caUid dev context with same | ⟨key, uid, stored⟩
    · exact Or.inl same
    · exact Or.inr ⟨key, caUid, context, rest, rfl, uid, stored⟩
  | closeSession ret => exact Or.inl rfl
  | sendCmd ret => exact Or.inl rfl
  | other ret => exact Or.inl rfl

/-- A device that is set up and has a key does not change. -/
theorem runIoctls_keyed {dev : DevFile} (setup : dev.loginSetup = true) (key : dev.pubKeyLen ≠ 0)
    (calls : List Ioctl) (keeps : ∀ call ∈ calls, ¬ call.Resets) : runIoctls dev calls = dev := by
  induction calls with
  | nil => rfl
  | cons call calls ih =>
    have first : (tcClientIoctl dev call).2 = dev := by
      rcases tcClientIoctl_setup setup (keeps call List.mem_cons_self) with same | ⟨noKey, -⟩
      · exact same
      · exact absurd noKey key
    rw [runIoctls, List.foldl_cons, first]
    exact ih fun call mem => keeps call (List.mem_cons_of_mem _ mem)

/-- A device that is set up stays as it is or gets the uid of one of the opens. -/
theorem runIoctls_setup {dev : DevFile} (setup : dev.loginSetup = true) (calls : List Ioctl)
    (keeps : ∀ call ∈ calls, ¬ call.Resets) :
    runIoctls dev calls = dev ∨
      dev.pubKeyLen = 0 ∧ ∃ caUid context rest, .openSession caUid context rest ∈ calls ∧
        caUid ≠ 0xFFFFFFFF ∧ runIoctls dev calls = storeUid dev caUid := by
  induction calls with
  | nil => exact Or.inl rfl
  | cons call calls ih =>
    have later : ∀ call ∈ calls, ¬ call.Resets :=
      fun call mem => keeps call (List.mem_cons_of_mem _ mem)
    have unfolded : runIoctls dev (call :: calls) =
        runIoctls (tcClientIoctl dev call).2 calls := rfl
    rcases tcClientIoctl_setup setup (keeps call List.mem_cons_self) with
      same | ⟨noKey, caUid, context, rest, rfl, uid, stored⟩
    · rw [unfolded, same]
      rcases ih later with kept | ⟨noKey, caUid, context, rest, mem, uid, stored⟩
      · exact Or.inl kept
      · exact Or.inr ⟨noKey, caUid, context, rest, List.mem_cons_of_mem _ mem, uid, stored⟩
    · -- from here on the device has a key
      refine Or.inr ⟨noKey, caUid, context, rest, List.mem_cons_self, uid, ?_⟩
      rw [unfolded, stored]
      have keyed : (storeUid dev caUid).pubKeyLen ≠ 0 := by simp [storeUid]
      have stillSetup : (storeUid dev caUid).loginSetup = true := setup
      exact runIoctls_keyed stillSetup keyed calls later

theorem login_setup_of_ok {teecd : Int} {kmallocOk : Bool} {buffer : UserBuffer}
    {dev after : DevFile} (given : buffer ≠ .null)
    (ok : tcNsClientLoginFunc teecd kmallocOk buffer dev = (0, after)) :
    after.loginSetup = true := by
  unfold tcNsClientLoginFunc at ok
  cases buffer with
  | null => exact absurd rfl given
  | unreadable => grind [eINVAL, eACCES, eNOMEM]
  | bytes cert => grind [eINVAL, eACCES, eNOMEM]

/-- Once a login with a buffer has succeeded, no request other than a login without a buffer
changes the package name; it does not change a key that is there, and a login without a key is
completed by the uid of the first open that asks for the identity. -/
theorem login_final {teecd : Int} {kmallocOk : Bool} {buffer : UserBuffer} {dev after : DevFile}
    (given : buffer ≠ .null)
    (ok : tcNsClientLoginFunc teecd kmallocOk buffer dev = (0, after)) (calls : List Ioctl)
    (keeps : ∀ call ∈ calls, ¬ call.Resets) :
    (runIoctls after calls).pkgName = after.pkgName ∧
    (runIoctls after calls).pkgNameLen = after.pkgNameLen ∧
    ((runIoctls after calls).pubKey = after.pubKey ∧
        (runIoctls after calls).pubKeyLen = after.pubKeyLen ∨
      after.pubKeyLen = 0 ∧ ∃ caUid context rest, .openSession caUid context rest ∈ calls ∧
        (runIoctls after calls).pubKey = overlay after.pubKey (ofU32 caUid) ∧
        (runIoctls after calls).pubKeyLen = 4) ∧
    ∀ more : List Ioctl, (∀ call ∈ more, ¬ call.Resets) →
      (runIoctls after calls).pubKeyLen ≠ 0 →
      (runIoctls after (calls ++ more)).pubKey = (runIoctls after calls).pubKey ∧
        (runIoctls after (calls ++ more)).pubKeyLen = (runIoctls after calls).pubKeyLen := by
  have setup := login_setup_of_ok given ok
  have split : ∀ more, runIoctls after (calls ++ more) = runIoctls (runIoctls after calls) more :=
    fun more => List.foldl_append
  have stays : (runIoctls after calls).loginSetup = true := by
    rcases runIoctls_setup setup calls keeps with same | ⟨-, _, _, _, -, -, stored⟩
    · rw [same, setup]
    · rw [stored]
      exact setup
  have settled : ∀ more : List Ioctl, (∀ call ∈ more, ¬ call.Resets) →
      (runIoctls after calls).pubKeyLen ≠ 0 →
      (runIoctls after (calls ++ more)).pubKey = (runIoctls after calls).pubKey ∧
        (runIoctls after (calls ++ more)).pubKeyLen = (runIoctls after calls).pubKeyLen := by
    intro more keepsMore key
    rw [split, runIoctls_keyed stays key more keepsMore]
    exact ⟨rfl, rfl⟩
  rcases runIoctls_setup setup calls keeps with
    same | ⟨noKey, caUid, context, rest, mem, -, stored⟩
  · rw [same] at settled ⊢
    exact ⟨rfl, rfl, Or.inl ⟨rfl, rfl⟩, settled⟩
  · rw [stored] at settled ⊢
    exact ⟨rfl, rfl, Or.inr ⟨noKey, caUid, context, rest, mem, rfl, rfl⟩, settled⟩

/-- A login of the package `a` without a key. -/
def nameOnlyCert : Vector UInt8 certBufferSize :=
  Vector.ofFn fun i => if i.val = 0 then 1 else if i.val = 4 then 97 else 0

def identifyContext : ClientContext where
  method := teecLoginIdentify
  paramType := fun _ => 0
  memref := fun _ => .client 0 0
  usrParamValid := fun _ => true

/-- The device after that login. -/
def nameOnlyDev : DevFile :=
  (tcNsClientLoginFunc 0 true (.bytes nameOnlyCert) (tcNsClientOpen false)).2

theorem nameOnly_ok :
    tcNsClientLoginFunc 0 true (.bytes nameOnlyCert) (tcNsClientOpen false) = (0, nameOnlyDev) := by
  have ret : (tcNsClientLoginFunc 0 true (.bytes nameOnlyCert) (tcNsClientOpen false)).1 = 0 := by
    decide +kernel
  refine Prod.ext ret ?_
  rw [nameOnlyDev]

/-- The first open stores its caller's uid, which a second caller does not change. -/
theorem login_final_uid : ∃ after,
    tcNsClientLoginFunc 0 true (.bytes nameOnlyCert) (tcNsClientOpen false) = (0, after) ∧
    (runIoctls after [.openSession 1000 identifyContext 0]).pubKeyLen = 4 ∧
    (runIoctls after ([.openSession 1000 identifyContext 0] ++
      [.openSession 2000 identifyContext 0])).pubKey =
        (runIoctls after [.openSession 1000 identifyContext 0]).pubKey := by
  have key : (runIoctls nameOnlyDev [.openSession 1000 identifyContext 0]).pubKeyLen = 4 := by
    decide +kernel
  have given : UserBuffer.bytes nameOnlyCert ≠ .null := UserBuffer.noConfusion
  have final := login_final given nameOnly_ok [.openSession 1000 identifyContext 0]
    (by simp [Ioctl.Resets])
  refine ⟨nameOnlyDev, nameOnly_ok, key, (final.2.2.2 _ (by simp [Ioctl.Resets]) ?_).1⟩
  rw [key]
  decide

/-- After a login an open may still store the caller's uid as the key, and a request without a
buffer, from any caller, takes the package name away. -/
theorem login_not_write_once : ∃ after,
    tcNsClientLoginFunc 0 true (.bytes nameOnlyCert) (tcNsClientOpen false) = (0, after) ∧
    (runIoctls after [.openSession 1000 identifyContext 0]).pubKeyLen ≠ after.pubKeyLen ∧
    (runIoctls after [.login (-eACCES) true .null]).pkgNameLen ≠ after.pkgNameLen := by
  exact ⟨nameOnlyDev, nameOnly_ok, by decide +kernel, by decide +kernel⟩

end Login

section Lengths

/-- The stored lengths fit the arrays, with room for the end of the package name. -/
def Bounded (dev : DevFile) : Prop :=
  dev.pkgNameLen.toNat ≤ maxPackageNameLen - 1 ∧ dev.pubKeyLen.toNat ≤ maxPubkeyLen

/-- An open copies its identity parameters without reading past the arrays. -/
def ReadsInside (dev : DevFile) : Prop :=
  ∀ (caUid : UInt32) (context : ClientContext) (mbAlloc : Bool) (index : Fin 4),
    allocForTmpMem (setLoginInformation caUid dev context).2.1
      (setLoginInformation caUid dev context).2.2 mbAlloc index ≠ some .readsPast

/-- The steps that write the login fields. -/
inductive Writer where
  | login (teecd : Int) (kmallocOk : Bool) (buffer : UserBuffer)
  | openSessParams (op : TeecOperation)
  | setLogin (caUid : UInt32) (context : ClientContext)

def Writer.apply (dev : DevFile) : Writer → DevFile
  | .login teecd kmallocOk buffer => (tcNsClientLoginFunc teecd kmallocOk buffer dev).2
  | .openSessParams op => (checkOpenSessParams op dev).2
  | .setLogin caUid context => (setLoginInformation caUid dev context).2.1

def runWriters (dev : DevFile) (writers : List Writer) : DevFile := writers.foldl Writer.apply dev

/-- The lower half of the size a kernel CA gives for the package name fits. -/
def Writer.InRange : Writer → Prop
  | .openSessParams op =>
    isOperParamValid op = true → op.size3.toNat % 2 ^ 32 ≤ maxPackageNameLen - 1
  | _ => True

section Steps

variable {dev : DevFile} (bounded : Bounded dev) (cert : List UInt8)

include bounded

theorem getPackNameLen_bounded : Bounded (getPackNameLen dev cert).2 := by
  unfold getPackNameLen
  by_cases bad : toU32 cert = 0 ∨ (toU32 cert).toNat ≥ maxPackageNameLen
  · simp only [if_pos bad]
    exact ⟨Nat.zero_le _, bounded.2⟩
  · simp only [if_neg bad]
    rw [not_or] at bad
    exact ⟨Nat.le_sub_one_of_lt (Nat.lt_of_not_le bad.2), bounded.2⟩

theorem getPublicKeyLen_bounded : Bounded (getPublicKeyLen dev cert).2 := by
  unfold getPublicKeyLen
  by_cases bad : (toU32 cert).toNat > maxPubkeyLen
  · simp only [if_pos bad]
    exact ⟨bounded.1, Nat.zero_le _⟩
  · simp only [if_neg bad]
    exact ⟨bounded.1, Nat.le_of_not_lt bad⟩

theorem getPublicKey_bounded : Bounded (getPublicKey dev cert).2 := by
  unfold getPublicKey
  split
  · exact bounded
  · exact bounded

theorem login_bounded (teecd : Int) (kmallocOk : Bool) (buffer : UserBuffer) :
    Bounded (tcNsClientLoginFunc teecd kmallocOk buffer dev).2 := by
  unfold tcNsClientLoginFunc
  cases buffer with
  | null => exact ⟨Nat.zero_le _, Nat.zero_le _⟩
  | unreadable => grind
  | bytes cert =>
    have named := getPackNameLen_bounded bounded cert.toList
    have keyed : ∀ dev : DevFile, Bounded dev → ∀ key, Bounded (getPublicKeyLen dev key).2 :=
      fun dev bounded key => getPublicKeyLen_bounded bounded key
    have copied : ∀ dev : DevFile, Bounded dev → ∀ key, Bounded (getPublicKey dev key).2 :=
      fun dev bounded key => getPublicKey_bounded bounded key
    grind [Bounded]

theorem setLoginInformation_bounded (caUid : UInt32) (context : ClientContext) :
    Bounded (setLoginInformation caUid dev context).2.1 := by
  rcases setLoginInformation_dev caUid dev context with same | ⟨-, -, -, stored⟩
  · rw [same]
    exact bounded
  · rw [stored]
    exact ⟨bounded.1, show (4 : UInt32).toNat ≤ maxPubkeyLen by decide⟩

theorem readsInside_of_bounded : ReadsInside dev := by
  intro caUid context mbAlloc index
  have after := setLoginInformation_bounded bounded caUid context
  have inside : ∀ {n : Nat} (size : UInt32) (buffer : Vector UInt8 n), size.toNat ≤ n →
      copyTmpMem size buffer mbAlloc ≠ .readsPast := by
    intro n size buffer fits
    grind [copyTmpMem]
  unfold allocForTmpMem
  split
  · exact nofun
  · exact fun h => inside _ _ (Nat.le_trans after.1 (Nat.sub_le _ _)) (Option.some.inj h)
  · exact fun h => inside _ _ after.2 (Option.some.inj h)

end Steps

/-- The length `check_open_sess_params` leaves behind, whether it refuses it or not. -/
theorem checkOpenSessParams_len {op : TeecOperation} (valid : isOperParamValid op = true)
    (dev : DevFile) :
    (checkOpenSessParams op dev).2.pkgNameLen = op.size3.toUInt32 ∧
      ((checkOpenSessParams op dev).2.pubKeyLen = dev.pubKeyLen ∨
        (checkOpenSessParams op dev).2.pubKeyLen = 0) := by
  unfold checkOpenSessParams
  grind

theorem apply_bounded_iff {dev : DevFile} (bounded : Bounded dev) (w : Writer) :
    Bounded (w.apply dev) ↔ w.InRange := by
  cases w with
  | login teecd kmallocOk buffer =>
    exact iff_of_true (login_bounded bounded teecd kmallocOk buffer) trivial
  | setLogin caUid context =>
    exact iff_of_true (setLoginInformation_bounded bounded caUid context) trivial
  | openSessParams op =>
    simp only [Writer.apply, Writer.InRange]
    cases valid : isOperParamValid op with
    | false =>
      refine iff_of_true ?_ nofun
      rw [checkOpenSessParams, if_pos valid]
      exact bounded
    | true =>
      obtain ⟨name, key⟩ := checkOpenSessParams_len valid dev
      have small : (checkOpenSessParams op dev).2.pubKeyLen.toNat ≤ maxPubkeyLen := by
        rcases key with same | zero
        · rw [same]
          exact bounded.2
        · rw [zero]
          exact Nat.zero_le _
      rw [Bounded, name, UInt64.toNat_toUInt32]
      exact ⟨fun h _ => h.1, fun h => ⟨h rfl, small⟩⟩

/-- In a run from a new device the stored lengths fit in every state, and no open reads past the
arrays, exactly when no kernel CA has offered a package name whose stored length is too large. -/
theorem lengths_bounded_iff (kernelApi : Bool) (writers : List Writer) :
    (∀ before, before <+: writers →
      Bounded (runWriters (tcNsClientOpen kernelApi) before) ∧
        ReadsInside (runWriters (tcNsClientOpen kernelApi) before)) ↔
      ∀ w ∈ writers, w.InRange := by
  have start : Bounded (tcNsClientOpen kernelApi) := ⟨Nat.zero_le _, Nat.zero_le _⟩
  rw [← ActionSystem.along_const Writer.apply (tcNsClientOpen kernelApi)]
  refine ActionSystem.forall_prefix_iff_along
    (P := fun dev => Bounded dev ∧ ReadsInside dev) ?_ ?_ ?_ start writers
  · exact fun dev bounded => ⟨bounded, readsInside_of_bounded bounded⟩
  · exact fun dev w bounded inRange => (apply_bounded_iff bounded w).mpr inRange
  · exact fun dev w bounded after => (apply_bounded_iff bounded w).mp after.1

/-- A kernel CA that gives 300 as the length of its package name. -/
def longName : TeecOperation where
  paramType2 := teecMemrefTempInput
  paramType3 := teecMemrefTempInput
  buffer2 := true
  size2 := 1
  buffer3 := true
  size3 := 300
  bytes3 := fun _ => 97
  checked := 0

/-- The length is refused but stays, and an open would copy 300 bytes of the 255. -/
theorem long_name_unbounded :
    (checkOpenSessParams longName (tcNsClientOpen true)).1 = teecErrorBadParameters ∧
    ¬ Bounded (runWriters (tcNsClientOpen true) [.openSessParams longName]) ∧
    ¬ ReadsInside (runWriters (tcNsClientOpen true) [.openSessParams longName]) := by
  refine ⟨by decide +kernel, ?_, ?_⟩
  · intro bounded
    exact absurd bounded.1 (by decide +kernel)
  · intro inside
    exact inside 1000 identifyContext true 3 (by decide +kernel)

end Lengths

end LoginInfo
