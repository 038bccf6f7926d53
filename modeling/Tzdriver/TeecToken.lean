import Mathlib.Data.Fintype.Pi
import Mathlib.Data.List.FinRange

/-!
# The session token

`auth/security_auth_enhance.c`. The session keeps 42 bytes: the client's half of the
token (0-15), the TEE's half (16-31), a scrambled timestamp (32-39), the byte
`kernel_api` and the sync byte. The client keeps 24 of them: its own half and the
timestamp. A token travels to the TEE in the mailbox pack.

Copies between buffers of the same fixed length do not fail. Reads and writes of the
client's memory may, so they are arguments. The functions that `tc_client_call` calls return
their code together with the tokens as they leave them.
-/

namespace TeecToken

abbrev Bytes (n : Nat) : Type := Fin n → UInt8

def tokenSaveLen : Nat := 24
def tokenBufferLen : Nat := 42
def timestampBufferIndex : Nat := 32
def kernalApiIndex : Nat := 40
def timestampSaveIndex : Nat := 16
def unSynced : UInt8 := 0x55
def isSynced : UInt8 := 0xaa
def eFAULT : Int := 14
def eINVAL : Int := 22
def globalCmdIdOpenSession : Nat := 0x2
def globalCmdIdCloseSession : Nat := 0x3

abbrev Token : Type := Bytes 42
abbrev ClientToken : Type := Bytes 24
abbrev Key : Type := Bytes 4

def zeroToken : Token := fun _ => 0

def syncByte (tok : Token) : UInt8 := tok 41

abbrev syncIndex : Fin 42 := 41

def timestampBytes (tok : Token) : Bytes 8 := fun i => tok ⟨32 + i.val, by omega⟩

def setTimestampBytes (tok : Token) (b : Bytes 8) : Token := fun i =>
  if h : 32 ≤ i.val ∧ i.val < 40 then b ⟨i.val - 32, by omega⟩ else tok i

/-- A `uint64_t` in memory, lowest byte first. -/
def toU64 (b : Bytes 8) : Nat :=
  (List.finRange 8).foldr (fun i acc => (b i).toNat + 256 * acc) 0

def ofU64 (v : Nat) : Bytes 8 := fun i => UInt8.ofNat (v / 256 ^ i.val)

/-- `scrambling_timestamp`: xor with the key, repeated. -/
def scramblingTimestamp (b : Bytes 8) (key : Key) : Bytes 8 := fun i =>
  b i ^^^ key ⟨i.val % 4, Nat.mod_lt _ (by decide)⟩

inductive ChangeFlag where
  | inc
  | dec

/-- `change_time_stamp`. -/
def changeTimeStamp (flag : ChangeFlag) (t : Nat) : Option Nat :=
  match flag with
  | .inc => if t < 2 ^ 64 - 1 then some (t + 1) else none
  | .dec => if t > 0 then some (t - 1) else none

/-- The timestamp a token carries under `key`. -/
def timeStamp (tok : Token) (key : Key) : Nat :=
  toU64 (scramblingTimestamp (timestampBytes tok) key)

/-- `descrambling_timestamp`. -/
def descramblingTimestamp (tok : Token) (key : Key) (flag : ChangeFlag) : Option Token :=
  match changeTimeStamp flag (timeStamp tok key) with
  | none => none
  | some t => some (setTimestampBytes tok (scramblingTimestamp (ofU64 t) key))

/-- `sync_timestamp`; `session` is what `tc_find_session_by_uuid` finds. -/
def syncTimestamp (cmdId : Nat) (isGlobal : Bool) (tok : Token) (session : Option Key) :
    Option Token :=
  if cmdId = globalCmdIdOpenSession ∧ isGlobal then some tok
  else if syncByte tok = unSynced then
    match session with
    | none => none
    | some key => descramblingTimestamp tok key .dec
  else if syncByte tok = isSynced then some tok
  else none

/-- The token as the three parties hold it during a call: the session's buffer (if
there is one), the mailbox pack, and the client's copy as last written by the driver. -/
structure TokenState where
  session : Option Token
  mailbox : Token
  client : ClientToken

/-- The token of a new session: `proc_open_session` has just allocated its buffer. -/
def freshTokens : TokenState := ⟨some zeroToken, zeroToken, fun _ => 0⟩

/-- The 24 bytes `save_token_info` hands to the client. -/
def savedToken (tok : Token) : ClientToken := fun i =>
  if i.val < 16 then tok ⟨i.val, by omega⟩ else tok ⟨i.val + 16, by omega⟩

def clearTeec (tok : Token) : Token := fun i => if i.val < 16 then 0 else tok i

def putTeec (tok : Token) (teec : ClientToken) : Token := fun i =>
  if h : i.val < 16 then teec ⟨i.val, by omega⟩ else tok i

/-- `save_token_info`: the saved bytes and the session token without the client's half. -/
def saveTokenInfo (dstSize : Nat) (tok : Token) (writeOk : Bool) : Option (ClientToken × Token) :=
  if dstSize ≠ tokenSaveLen then none
  else if writeOk then some (savedToken tok, clearTeec tok)
  else none

/-- The device fields the token code reads. `login_setup` follows `kernel_api` in
`struct tc_ns_dev_file`. -/
structure DevBytes where
  kernelApi : UInt8
  loginSetup : Bool

/-- The `memmove_s` of `KERNAL_API_LEN` (two) bytes from `&dev->kernel_api`. -/
def putKernelApi (tok : Token) (dev : DevBytes) : Token := fun i =>
  if i.val = 40 then dev.kernelApi
  else if i.val = 41 then (if dev.loginSetup then 1 else 0)
  else tok i

/-- `combine_temp_token`. -/
def combineTempToken (dev : DevBytes) (read : Option ClientToken) (tok : Token) : Option Token :=
  match read with
  | none => none
  | some teec =>
    if (fun i : Fin 8 => teec ⟨16 + i.val, by omega⟩) = timestampBytes tok then
      some (putKernelApi (putTeec tok teec) dev)
    else none

section Calls

variable (isGlobal : Bool) (cmdId : Nat) (teecToken : Bool)

/-- `is_token_work`: an invoke or an open. -/
def isTokenWork : Bool := !isGlobal || cmdId == globalCmdIdOpenSession

/-- `fill_token_info`; `ctxCmdId` is the caller's `cmd_id`. -/
def fillTokenInfo (ctxCmdId : Nat) (dev : DevBytes) (read : Option ClientToken) (st : TokenState) :
    Int × TokenState :=
  if teecToken = false then (-eINVAL, st)
  else
    match st.session with
    | none => (-eINVAL, st)
    | some tok =>
      if ctxCmdId = globalCmdIdCloseSession ∨ isGlobal = false then
        match combineTempToken dev read tok with
        | none => (-eFAULT, st)
        | some tok => (0, { st with session := some tok, mailbox := tok })
      else (0, { st with session := some zeroToken, mailbox := zeroToken })

/-- `load_security_enhance_info`; `secureParams` is the outcome of
`generate_encrypted_session_secure_params`. -/
def loadSecurityEnhanceInfo (dev : DevBytes) (read : Option ClientToken) (secureParams : Bool)
    (st : TokenState) : Int × TokenState :=
  if isTokenWork isGlobal cmdId = false then (0, st)
  else
    match fillTokenInfo isGlobal teecToken cmdId dev read st with
    | (ret, st) =>
      if ret ≠ 0 then (-eFAULT, st)
      else if (isGlobal && cmdId == globalCmdIdOpenSession) && !secureParams then (-eFAULT, st)
      else (0, st)

/-- `append_teec_token`, before a command is sent again. -/
def appendTeecToken (read : Option ClientToken) (st : TokenState) : Int × TokenState :=
  if isGlobal then (0, st)
  else if teecToken = false then (-eINVAL, st)
  else
    match st.session with
    | none => (-eINVAL, st)
    | some tok =>
      match read with
      | none => (-eFAULT, st)
      | some teec =>
        (0, { st with session := some (putTeec tok teec), mailbox := putTeec tok teec })

/-- `post_process_token`, after each SMC. -/
def postProcessToken (tokenLen : Nat) (found : Option Key) (writeOk : Bool) (st : TokenState) :
    Int × TokenState :=
  if isTokenWork isGlobal cmdId = false then (0, st)
  else if teecToken = false then (-eINVAL, st)
  else
    match st.session with
    | none => (-eINVAL, st)
    | some _ =>
      let tok := st.mailbox
      let st := { st with session := some tok, mailbox := zeroToken }
      match syncTimestamp cmdId isGlobal tok found with
      | none => (-eFAULT, st)
      | some tok =>
        match saveTokenInfo tokenLen tok writeOk with
        | none => (-eFAULT, { st with session := some tok })
        | some (client, tok) => (0, { st with session := some tok, client := client })

end Calls

end TeecToken
