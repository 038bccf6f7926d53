import Tzdriver.FixedLayout
import Tzdriver.LoginEncryption
import Tzdriver.MailboxCommands

/-!
# The secrets of a session

`auth/security_auth_enhance.c`. The TEE leaves the root key in the command buffer when the driver
starts. Before a session is opened the driver draws a challenge word and asks the TEE for a key and
three scrambling words, which come encrypted under the root key. The open command then carries the
challenge word encrypted under the key of the session.

`struct session_secure_params` is a head and a union: the challenge word on the way to the TEE, and
the parameters on the way back. It fills five blocks of the cipher, so no padding is set.
-/

namespace SecureParams

open LoginEncryption
open ClientCall (Event SmcReply teecOriginComms)
open MailboxCommands (ePERM sent)

def globalCmdIdGetSessionSecureParams : Nat := 0x16
def rootKeyBufLen : Nat := 100
def verCheckMagicNum : UInt32 := 0x5A5A5A5A
def teeosCompatLevelMajor : UInt32 := 0

/-! ## The records -/

/-- `struct session_crypto_info`. -/
structure CryptoInfo where
  key : Key
  iv : Iv
  deriving DecidableEq

/-- `struct session_secure_info`. -/
structure SecureInfo where
  challengeWord : UInt32
  scrambling : Vector UInt32 3
  cryptoInfo : CryptoInfo
  deriving DecidableEq

def SecureInfo.zero : SecureInfo where
  challengeWord := 0
  scrambling := Vector.replicate 3 0
  cryptoInfo := ⟨Vector.replicate 32 0, Vector.replicate 16 0⟩

/-- `struct encryption_head`. -/
structure EncryptionHead where
  magic : Vector UInt8 16
  payloadLen : UInt32

/-- `payload.tee2ree`. -/
structure Tee2Ree where
  scrambling : Vector UInt32 3
  cryptoInfo : CryptoInfo
  deriving DecidableEq

def cryptoInfoLayout : Layout CryptoInfo :=
  ((Layout.bytes 32).pair (.bytes 16)).map (fun x => ⟨x.1, x.2⟩) (fun c => (c.key, c.iv)) fun _ => rfl

def headLayout : Layout EncryptionHead :=
  ((Layout.bytes 16).pair .u32).map (fun x => ⟨x.1, x.2⟩) (fun h => (h.magic, h.payloadLen)) fun _ => rfl

def tee2reeLayout : Layout Tee2Ree :=
  ((Layout.u32.array 3).pair cryptoInfoLayout).map (fun x => ⟨x.1, x.2⟩)
    (fun p => (p.scrambling, p.cryptoInfo)) fun _ => rfl

/-- `struct session_secure_params` with the parameters. -/
def paramsLayout : Layout (EncryptionHead × Tee2Ree) := headLayout.pair tee2reeLayout

/-- `payload.ree2tee.challenge_word`. -/
def challengeOf (mem : List UInt8) : UInt32 := Layout.u32.get (mem.drop headLayout.size)

def secureAlignedSize : Nat :=
  (paramsLayout.size + (cipherBlockBytesize - 1)) / cipherBlockBytesize * cipherBlockBytesize

def paramsSize : Nat := secureAlignedSize + ivBytesize

/-! ## The root key -/

/-- `get_session_root_key` on the command buffer, which is aligned. -/
def getSessionRootKey (kzalloc : Bool) (buffer : List UInt8) : Except Int CryptoInfo :=
  if kzalloc = false then .error (-eNOMEM) else .ok (cryptoInfoLayout.get (buffer.drop 4))

/-- `check_teeos_compat_level`; another minor version only gives a warning. -/
def checkTeeosCompatLevel (buffer : List UInt8) : Int :=
  if Layout.u32.get buffer ≠ verCheckMagicNum then -ePERM
  else if Layout.u32.get (buffer.drop 4) ≠ teeosCompatLevelMajor then -ePERM
  else 0

/-- `parse_params_from_tee`: its code, the root key and `g_cmd_data->in` afterwards. -/
def parseParamsFromTee (kzalloc : Bool) (buffer : List UInt8) : Int × Option CryptoInfo × List UInt8 :=
  match getSessionRootKey kzalloc buffer with
  | .error ret => (ret, none, buffer)
  | .ok key =>
    let ret := checkTeeosCompatLevel (buffer.drop rootKeyBufLen)
    if ret ≠ 0 then (ret, none, buffer) else (0, some key, List.replicate buffer.length 0)

/-! ## The parameters of a session -/

/-- `generate_challenge_word`: its code and the word. `check_random_data` finds a byte that is not 0
just when the word is not 0. -/
def generateChallengeWord (arch soft : UInt32) : Int × UInt32 :=
  if arch ≠ 0 then (0, arch) else if soft ≠ 0 then (0, soft) else (-eFAULT, 0)

/-- The command that asks for the parameters, with the block it points to. -/
structure ParamsCmd where
  cmdId : Nat := globalCmdIdGetSessionSecureParams
  uuid : Nat
  devFileId : Nat
  contextId : Nat
  uid : Nat
  started : Bool
  params : List UInt8

/-- The command and the block as the SMC leaves them. -/
structure ParamsAnswer where
  reply : SmcReply
  params : List UInt8
  sized : params.length = paramsSize

/-- `stale` is what the block holds that `mailbox_alloc` gives, at the address `mailbox`. -/
structure ParamsEnv where
  arch : UInt32
  soft : UInt32
  mailbox : Option Nat
  stale : List UInt8
  sized : stale.length = paramsSize
  uid : Nat
  crypt : Env

/-- The fields of the caller's context and device that the command takes over. -/
structure ParamsContext where
  uuid : Nat
  devFileId : Nat
  sessionId : Nat
  started : Bool

structure ParamsResult where
  ret : Int
  info : SecureInfo
  /-- `context->returns.origin`, when it was set. -/
  origin : Option Nat := none
  sent : Option ParamsCmd := none
  trace : List Event := []

/-- `is_valid_encryption_head`; the comparison stops behind the end of the string. -/
def isValidEncryptionHead (head : EncryptionHead) (len : Nat) : Bool :=
  head.magic.toList.take 14 == magicString ++ [0] && head.payloadLen.toNat == len

/-- `send_smc_cmd_for_secure_params` after the SMC: its code and `returns.origin`. -/
def sendSmcCmdForSecureParams (reply : SmcReply) : Int × Option Nat :=
  if reply.ret ≠ 0 then
    if reply.errOrigin ≠ teecOriginComms then (ePERM, some reply.errOrigin) else (-ePERM, none)
  else (0, none)

/-- The command of `send_smc_cmd_for_secure_params`. -/
def paramsCmd (env : ParamsEnv) (ctx : ParamsContext) (word : UInt32) : ParamsCmd where
  uuid := ctx.uuid
  devFileId := ctx.devFileId
  contextId := ctx.sessionId
  uid := env.uid
  started := ctx.started
  params := env.stale.take headLayout.size ++ Layout.u32.put word ++
    env.stale.drop (headLayout.size + Layout.u32.size)

section Exchange

variable (aes : AesCbc) (root : CryptoInfo)

/-- `update_secure_params_from_tee`. -/
def updateSecureParamsFromTee (crypt : Env) (params : List UInt8) (info : SecureInfo) :
    Except Int SecureInfo :=
  match cryptoSessionAescbcKey256 aes crypt params secureAlignedSize root.key none .decrypt with
  | .error ret => .error ret
  | .ok text =>
    let teeSecureParams := paramsLayout.get text
    if isValidEncryptionHead teeSecureParams.1 tee2reeLayout.size = false then .error (-eFAULT)
    else .ok { info with
      scrambling := teeSecureParams.2.scrambling, cryptoInfo := teeSecureParams.2.cryptoInfo }

/-- `get_session_secure_params`. -/
def getSessionSecureParams (tee : ParamsCmd → ParamsAnswer) (env : ParamsEnv) (ctx : ParamsContext)
    (info : SecureInfo) : ParamsResult :=
  match generateChallengeWord env.arch env.soft with
  | (ret, word) =>
    let info := { info with challengeWord := word }
    if ret ≠ 0 then { ret := ret, info := info }
    else
      match env.mailbox with
      | none => { ret := -eNOMEM, info := info }
      | some ree =>
        if env.crypt.kzalloc secureAlignedSize = false then
          { ret := -eNOMEM, info := info, trace := [.mbAlloc ree, .mbFree ree] }
        else
          let cmd := paramsCmd env ctx word
          let answer := tee cmd
          let trace := [.mbAlloc ree, sent answer.reply, .mbFree ree]
          match sendSmcCmdForSecureParams answer.reply with
          | (ret, origin) =>
            if ret ≠ 0 then
              { ret := ret, info := .zero, origin := origin, sent := some cmd, trace := trace }
            else
              match updateSecureParamsFromTee aes root env.crypt answer.params info with
              | .error ret => { ret := ret, info := .zero, sent := some cmd, trace := trace }
              | .ok info => { ret := 0, info := info, sent := some cmd, trace := trace }

/-- `generate_encrypted_session_secure_params`. Its block is zeroed: behind the string in `magic` and
behind the challenge word there are zeros. -/
def generateEncryptedSessionSecureParams (crypt : Env) (info : SecureInfo) (encParamsSize : Nat) :
    Except Int (List UInt8) :=
  if encParamsSize < paramsSize then .error (-eINVAL)
  else if crypt.kzalloc secureAlignedSize = false then .error (-eNOMEM)
  else
    match setEncryptionHead { crypt with headStack := Vector.replicate 2 0 } tee2reeLayout.size with
    | .error _ => .error (-eINVAL)
    | .ok head =>
      let params := head ++ (Layout.u32.put info.challengeWord ++
        List.replicate (tee2reeLayout.size - Layout.u32.size) 0)
      match cryptoAescbcCmsPadding params secureAlignedSize paramsLayout.size with
      | .error _ => .error (-eINVAL)
      | .ok params =>
        match cryptoSessionAescbcKey256 aes crypt params paramsSize info.cryptoInfo.key none
            .encrypt with
        | .error _ => .error (-eINVAL)
        | .ok enc => .ok enc

end Exchange

/-! ## The other party -/

/-- What the TEE puts into its answers: the parameters it chose for the command, behind a head that
is valid, encrypted under the root key with the iv behind them. -/
def Seals (aes : AesCbc) (root : CryptoInfo) (tee : ParamsCmd → ParamsAnswer)
    (choose : ParamsCmd → Tee2Ree) : Prop :=
  ∀ cmd, (tee cmd).reply.ret = 0 → ∃ (head : EncryptionHead) (iv : Iv),
    isValidEncryptionHead head tee2reeLayout.size = true ∧
    (tee cmd).params =
      aes.encrypt root.key iv.toList (paramsLayout.put (head, choose cmd)) ++ iv.toList

/-- What the TEE reads in an open command: the challenge word, if the head is valid. -/
def readChallenge (aes : AesCbc) (key : Key) (enc : List UInt8) : Option UInt32 :=
  let text := aes.decrypt key (enc.drop secureAlignedSize) (enc.take secureAlignedSize)
  if isValidEncryptionHead (headLayout.get text) tee2reeLayout.size then some (challengeOf text)
  else none

end SecureParams
