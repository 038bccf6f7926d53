import Mathlib.Algebra.Group.Nat.Defs
import Mathlib.Data.List.Basic
import Tzdriver.BoundsCheck

/-!
# The encryption of login information

`do_encryption` replaces a payload by `payload || head || padding`, encrypted with AES-CBC, and the
iv behind it. The head holds a magic string and the length of the payload. Padding bytes hold their
number; when the text fills its last block there are none, and no block of padding is added. The text
then ends with the highest byte of the length, which is 0 and thus no number of padding bytes.

Buffers are lists of bytes, whose length is the size given with them. The cipher, the allocations,
the random generators and the bytes of the head that nothing sets are parameters. `memcpy_s`
follows its documentation.
-/

namespace LoginEncryption

open BoundsCheck (securecMemMaxLen)

def eINVAL : Int := 22
def eNOMEM : Int := 12
def eFAULT : Int := 14
def magicString : List UInt8 := [84, 114, 117, 115, 116, 101, 100, 45, 109, 97, 103, 105, 99]
def cipherBlockBytesize : Nat := 16
def ivBytesize : Nat := 16
def aesLoginMaxlen : Nat := 1024
def sz4K : Nat := 4096

/-- `sizeof(struct encryption_head)`. -/
def sizeofHead : Nat := 20

abbrev Key : Type := Vector UInt8 32
abbrev Iv : Type := Vector UInt8 16

/-- AES-CBC under a key and an iv, on texts of whole blocks. -/
structure AesCbc where
  encrypt : Key → List UInt8 → List UInt8 → List UInt8
  decrypt : Key → List UInt8 → List UInt8 → List UInt8
  length_encrypt : ∀ key iv text, (encrypt key iv text).length = text.length
  decrypt_encrypt : ∀ key iv text, text.length % cipherBlockBytesize = 0 →
    decrypt key iv (encrypt key iv text) = text

/-- What the kernel gives. An allocation that succeeds is small. -/
structure Env where
  kzalloc : Nat → Bool
  /-- The bytes of `magic` behind the string, which lie on the stack. -/
  headStack : Vector UInt8 2
  randomArch : Iv
  randomSoft : Iv
  /-- What `crypto_aescbc_key256` returns. -/
  skcipher : Int
  kzalloc_small : ∀ n, kzalloc n = true → n ≤ securecMemMaxLen

/-- `memcpy_s` to the start of a buffer. -/
def memcpyS (dest src : List UInt8) : Int × List UInt8 :=
  BoundsCheck.memcpyS true true dest.length src.length dest (List.replicate dest.length 0)
    (src ++ dest.drop src.length)

/-- `round_up` to `CIPHER_BLOCK_BYTESIZE` on a `uint32_t`. -/
def roundUp (n : Nat) : Nat :=
  (n + (cipherBlockBytesize - 1)) % 2 ^ 32 / cipherBlockBytesize * cipherBlockBytesize

/-- A `uint32_t` in memory, lowest byte first. -/
def ofU32 (n : Nat) : List UInt8 :=
  [n.toUInt8, (n / 256).toUInt8, (n / 65536).toUInt8, (n / 16777216).toUInt8]

/-- `check_random_data`. -/
def checkRandomData (data : Iv) : Int := if data.toList.all (fun b => b == 0) then -1 else 0

/-- `generate_random_data` for an iv. -/
def generateRandomData (env : Env) : Except Int (List UInt8) :=
  if checkRandomData env.randomArch = 0 then .ok env.randomArch.toList
  else if checkRandomData env.randomSoft ≠ 0 then .error (-eFAULT)
  else .ok env.randomSoft.toList

/-- `check_param_for_encryption`: a copy of the buffer. -/
def checkParamForEncryption (env : Env) (buffer : List UInt8) : Except Int (List UInt8) :=
  if buffer.length = 0 then .error (-eINVAL)
  else if env.kzalloc buffer.length = false then .error (-eNOMEM)
  else
    match memcpyS (List.replicate buffer.length 0) buffer with
    | (ret, plaintext) => if ret ≠ 0 then .error (-eINVAL) else .ok plaintext

/-- `struct get_plaintext_size`. -/
structure PlaintextSize where
  ptSize : Nat
  ptaSize : Nat
  totalSize : Nat

/-- `calc_plaintext_size`. -/
def calcPlaintextSize (payloadSize bufferSize : Nat) : Int × PlaintextSize :=
  let plaintextSize := (payloadSize + sizeofHead) % 2 ^ 32
  let plaintextAlignedSize := roundUp plaintextSize
  let totalSize := (plaintextAlignedSize + ivBytesize) % 2 ^ 32
  (if totalSize > bufferSize then -eNOMEM else 0, ⟨plaintextSize, plaintextAlignedSize, totalSize⟩)

/-- `struct encryption_head`. -/
def encryptionHead (stack : Vector UInt8 2) (len : Nat) : List UInt8 :=
  magicString ++ [0] ++ stack.toList ++ ofU32 len

/-- `set_encryption_head`. -/
def setEncryptionHead (env : Env) (len : Nat) : Except Int (List UInt8) :=
  if len = 0 then .error (-eINVAL) else .ok (encryptionHead env.headStack len)

/-- `crypto_aescbc_cms_padding`. -/
def cryptoAescbcCmsPadding (plaintext : List UInt8) (plaintextLen payloadLen : Nat) :
    Except Int (List UInt8) :=
  if plaintextLen = 0 ∨ plaintextLen % cipherBlockBytesize ≠ 0 ∨ plaintextLen < payloadLen then
    .error (-eINVAL)
  else
    let paddingLen := plaintextLen - payloadLen
    if paddingLen ≥ cipherBlockBytesize then .error (-eINVAL)
    else if paddingLen = 0 then .ok plaintext
    else
      .ok (plaintext.take payloadLen ++ List.replicate paddingLen paddingLen.toUInt8 ++
        plaintext.drop plaintextLen)

inductive Mode where
  | encrypt
  | decrypt
  deriving DecidableEq

/-- `crypto_aescbc_key256`: the output. -/
def cryptoAescbcKey256 (aes : AesCbc) (env : Env) (input iv : List UInt8) (key : Key)
    (encryptoType : Mode) : Except Int (List UInt8) :=
  if env.skcipher ≠ 0 then .error env.skcipher
  else
    match encryptoType with
    | .encrypt => .ok (aes.encrypt key iv input)
    | .decrypt => .ok (aes.decrypt key iv input)

/-- `crypto_session_aescbc_key256`: the output of `outLen` bytes. Without an iv of the caller the
iv stands behind the encrypted text. -/
def cryptoSessionAescbcKey256 (aes : AesCbc) (env : Env) (input : List UInt8) (outLen : Nat)
    (key : Key) (iv : Option (List UInt8)) (mode : Mode) : Except Int (List UInt8) :=
  let inLen := input.length
  if inLen < ivBytesize ∨ outLen < ivBytesize then .error (-eINVAL)
  else
    let srcLen := if iv = none ∧ mode = .decrypt then inLen - ivBytesize else inLen
    let destLen := if iv = none ∧ mode = .encrypt then outLen - ivBytesize else outLen
    if srcLen ≠ destLen ∨ srcLen = 0 ∨ srcLen % cipherBlockBytesize ≠ 0 then .error (-eINVAL)
    else
      match iv, mode with
      | some iv, mode => cryptoAescbcKey256 aes env input iv key mode
      | none, .decrypt =>
        cryptoAescbcKey256 aes env (input.take srcLen) (input.drop srcLen) key .decrypt
      | none, .encrypt =>
        match generateRandomData env with
        | .error ret => .error ret
        | .ok iv => (cryptoAescbcKey256 aes env input iv key .encrypt).map fun out => out ++ iv

section Encryption

variable (aes : AesCbc) (env : Env) (key : Key)

/-- `do_encryption` up to the last copy: the bytes of `cryptotext`. -/
def encryptPayload (buffer : List UInt8) (payloadSize : Nat) : Except Int (List UInt8) :=
  match checkParamForEncryption env buffer with
  | .error _ => .error (-eINVAL)
  | .ok plaintext =>
    match calcPlaintextSize payloadSize buffer.length with
    | (ret, size) =>
      if ret ≠ 0 then .error ret
      else if env.kzalloc size.totalSize = false then .error (-eNOMEM)
      else
        match setEncryptionHead env payloadSize with
        | .error ret => .error ret
        | .ok head =>
          match memcpyS (plaintext.drop payloadSize) head with
          | (ret, rest) =>
            if ret ≠ 0 then .error ret
            else
              match cryptoAescbcCmsPadding (plaintext.take payloadSize ++ rest) size.ptaSize
                  size.ptSize with
              | .error ret => .error ret
              | .ok plaintext =>
                cryptoSessionAescbcKey256 aes env (plaintext.take size.ptaSize) size.totalSize key
                  none .encrypt

/-- `do_encryption`: its code and the buffer as it leaves it. -/
def doEncryption (buffer : List UInt8) (payloadSize : Nat) : Int × List UInt8 :=
  match encryptPayload aes env key buffer payloadSize with
  | .error ret => (ret, buffer)
  | .ok cryptotext => memcpyS buffer cryptotext

/-- `is_valid_size`. -/
def isValidSize (bufferSize tempSize : Nat) : Bool :=
  if bufferSize > aesLoginMaxlen then false
  else !decide (tempSize > (bufferSize + (sz4K - 1)) / sz4K * sz4K)

/-- `encrypt_login_info` on a buffer with room behind the login information. -/
def encryptLoginInfo (loginInfoSize : Nat) (buffer : List UInt8) : Int × List UInt8 :=
  let payloadSize := (loginInfoSize + 1) % 2 ^ 32
  let totalSize := (roundUp ((payloadSize + sizeofHead) % 2 ^ 32) + ivBytesize) % 2 ^ 32
  if isValidSize loginInfoSize totalSize = false then (-eFAULT, buffer)
  else
    match doEncryption aes env key (buffer.take totalSize) payloadSize with
    | (ret, out) => (ret, out ++ buffer.drop totalSize)

end Encryption

/-! ### The text that is encrypted -/

/-- `CMS` padding up to the end of the last block. -/
def padding (n : Nat) : List UInt8 := List.replicate (roundUp n - n) (roundUp n - n).toUInt8

def plaintextOf (stack : Vector UInt8 2) (payload : List UInt8) : List UInt8 :=
  payload ++ encryptionHead stack payload.length ++ padding (payload.length + sizeofHead)

/-- The bytes a payload takes when it is encrypted. -/
def cipherSize (n : Nat) : Nat := roundUp (n + sizeofHead) + ivBytesize

/-- The payload of a text: the last byte tells how much padding there is. -/
def payloadOf (text : List UInt8) : List UInt8 :=
  text.take (text.length - (text.getLastD 0).toNat - sizeofHead)

section Text

variable {stack : Vector UInt8 2} {payload : List UInt8} {n : Nat}

theorem roundUp_spec (small : n + 15 < 2 ^ 32) :
    roundUp n % cipherBlockBytesize = 0 ∧ n ≤ roundUp n ∧ roundUp n < n + cipherBlockBytesize := by
  unfold roundUp cipherBlockBytesize
  rw [Nat.mod_eq_of_lt small]
  omega

@[simp] theorem length_encryptionHead : (encryptionHead stack n).length = sizeofHead := by
  simp [encryptionHead, magicString, ofU32, sizeofHead]

theorem length_plaintextOf (small : payload.length + sizeofHead + 15 < 2 ^ 32) :
    (plaintextOf stack payload).length = roundUp (payload.length + sizeofHead) := by
  have := roundUp_spec small
  simp only [plaintextOf, padding, List.length_append, length_encryptionHead, List.length_replicate]
  omega

/-- The head ends with a zero byte. -/
theorem encryptionHead_last (short : n < 2 ^ 24) :
    ∃ rest, encryptionHead stack n = rest ++ [0] := by
  refine ⟨magicString ++ [0] ++ stack.toList ++
    [n.toUInt8, (n / 256).toUInt8, (n / 65536).toUInt8], ?_⟩
  have top : n / 16777216 = 0 := Nat.div_eq_of_lt short
  simp [encryptionHead, ofU32, top]

/-- The payload can be read off the text. -/
theorem payloadOf_plaintextOf (short : payload.length < 2 ^ 24) :
    payloadOf (plaintextOf stack payload) = payload := by
  have small : payload.length + sizeofHead + 15 < 2 ^ 32 := by
    unfold sizeofHead
    omega
  obtain ⟨-, above, below⟩ := roundUp_spec small
  have length := @length_plaintextOf stack payload small
  have last : ((plaintextOf stack payload).getLastD 0).toNat =
      roundUp (payload.length + sizeofHead) - (payload.length + sizeofHead) := by
    by_cases full : roundUp (payload.length + sizeofHead) = payload.length + sizeofHead
    · -- no padding: the last byte is that of the length
      obtain ⟨rest, head⟩ := @encryptionHead_last stack payload.length short
      simp [plaintextOf, padding, full, head, -List.append_assoc]
    · obtain ⟨k, hk⟩ : ∃ k, roundUp (payload.length + sizeofHead) -
          (payload.length + sizeofHead) = k + 1 := Nat.exists_eq_succ_of_ne_zero (by omega)
      have fits : k + 1 < 256 := by
        unfold cipherBlockBytesize at below
        omega
      rw [hk]
      have byte : (k + 1).toUInt8.toNat = k + 1 := Nat.mod_eq_of_lt fits
      simpa [plaintextOf, padding, hk, List.replicate_succ'] using byte
  have cut : (plaintextOf stack payload).length - ((plaintextOf stack payload).getLastD 0).toNat -
      sizeofHead = payload.length := by
    rw [last, length]
    omega
  rw [payloadOf, cut, plaintextOf, List.append_assoc, List.take_left]

/-- Two payloads do not give the same text. -/
theorem plaintextOf_injective {stack' : Vector UInt8 2} {payload' : List UInt8}
    (short : payload.length < 2 ^ 24) (short' : payload'.length < 2 ^ 24)
    (same : plaintextOf stack payload = plaintextOf stack' payload') : payload = payload' := by
  rw [← payloadOf_plaintextOf short, same, payloadOf_plaintextOf short']

end Text

/-! ### What `do_encryption` makes of a buffer -/

/-- The iv that is used. -/
def Env.iv (env : Env) : Iv :=
  if checkRandomData env.randomArch = 0 then env.randomArch else env.randomSoft

/-- The kernel serves a call: both buffers are there, one of the generators gives an iv and the
cipher runs. -/
structure Env.Serves (env : Env) (bufferSize totalSize : Nat) : Prop where
  plaintext : env.kzalloc bufferSize = true
  cryptotext : env.kzalloc totalSize = true
  random : checkRandomData env.randomArch = 0 ∨ checkRandomData env.randomSoft = 0
  skcipher : env.skcipher = 0

section Steps

variable {aes : AesCbc} {env : Env} {key : Key} {buffer : List UInt8} {n : Nat}

theorem memcpyS_ok {dest src : List UInt8} (some_ : 0 < dest.length)
    (small : dest.length ≤ securecMemMaxLen) (fits : src.length ≤ dest.length) :
    memcpyS dest src = (0, src ++ dest.drop src.length) :=
  BoundsCheck.memcpyS_fits some_ small fits

theorem checkParamForEncryption_ok (some_ : 0 < buffer.length)
    (alloc : env.kzalloc buffer.length = true) :
    checkParamForEncryption env buffer = .ok buffer := by
  have small := env.kzalloc_small _ alloc
  have copied := @memcpyS_ok (List.replicate buffer.length 0) buffer (by simpa using some_)
    (by simpa using small) (by simp)
  have nonempty : ¬ buffer.length = 0 := by omega
  simp [checkParamForEncryption, nonempty, alloc, copied]

theorem calcPlaintextSize_eq (short : n < 2 ^ 24) (bufferSize : Nat) :
    calcPlaintextSize n bufferSize =
      (if cipherSize n > bufferSize then -eNOMEM else 0,
        ⟨n + sizeofHead, roundUp (n + sizeofHead), cipherSize n⟩) := by
  have small : n + sizeofHead < 2 ^ 32 := by
    unfold sizeofHead
    omega
  have bound : cipherSize n < 2 ^ 32 := by
    have := @roundUp_spec (n + sizeofHead) (by unfold sizeofHead; omega)
    unfold cipherSize ivBytesize
    unfold cipherBlockBytesize sizeofHead at *
    omega
  simp only [calcPlaintextSize, Nat.mod_eq_of_lt small]
  rw [show roundUp (n + sizeofHead) + ivBytesize = cipherSize n from rfl, Nat.mod_eq_of_lt bound]

theorem cipherSize_large (short : n < 2 ^ 24) : n + sizeofHead + ivBytesize ≤ cipherSize n := by
  have above := (@roundUp_spec (n + sizeofHead) (by unfold sizeofHead; omega)).2.1
  unfold cipherSize
  omega

/-- The padding fills the text up to the end of its last block. -/
theorem cryptoAescbcCmsPadding_ok {text rest : List UInt8} (some_ : 0 < text.length)
    (small : text.length + 15 < 2 ^ 32) :
    ∃ tail, cryptoAescbcCmsPadding (text ++ rest) (roundUp text.length) text.length =
      .ok (text ++ padding text.length ++ tail) := by
  obtain ⟨blocks, above, below⟩ := roundUp_spec small
  have valid : ¬ (roundUp text.length = 0 ∨ roundUp text.length % cipherBlockBytesize ≠ 0 ∨
      roundUp text.length < text.length) := by
    omega
  have few : ¬ roundUp text.length - text.length ≥ cipherBlockBytesize := by omega
  simp only [cryptoAescbcCmsPadding, if_neg valid, if_neg few]
  by_cases full : roundUp text.length - text.length = 0
  · rw [if_pos full]
    exact ⟨rest, by simp [padding, full]⟩
  · rw [if_neg full]
    refine ⟨(text ++ rest).drop (roundUp text.length), ?_⟩
    rw [List.take_left]
    rfl

theorem generateRandomData_ok
    (random : checkRandomData env.randomArch = 0 ∨ checkRandomData env.randomSoft = 0) :
    generateRandomData env = .ok env.iv.toList := by
  unfold generateRandomData Env.iv
  by_cases arch : checkRandomData env.randomArch = 0
  · rw [if_pos arch, if_pos arch]
  · have soft := random.resolve_left arch
    rw [if_neg arch, if_neg arch, if_neg (not_not.mpr soft)]

theorem cryptoSession_encrypt_ok {text : List UInt8} (some_ : ivBytesize ≤ text.length)
    (blocks : text.length % cipherBlockBytesize = 0)
    (random : checkRandomData env.randomArch = 0 ∨ checkRandomData env.randomSoft = 0)
    (skcipher : env.skcipher = 0) :
    cryptoSessionAescbcKey256 aes env text (text.length + ivBytesize) key none .encrypt =
      .ok (aes.encrypt key env.iv.toList text ++ env.iv.toList) := by
  have long : ¬ (text.length < ivBytesize ∨ text.length + ivBytesize < ivBytesize) := by omega
  have pos : 0 < ivBytesize := by decide
  have whole : ¬ (False ∨ text.length = 0 ∨ ¬ text.length % cipherBlockBytesize = 0) := by
    rintro (wrong | none_ | part)
    · exact wrong
    · omega
    · exact part blocks
  simp only [cryptoSessionAescbcKey256, if_neg long, true_and, reduceCtorEq, if_false, if_true,
    Nat.add_sub_cancel, generateRandomData_ok random, cryptoAescbcKey256, skcipher, ne_eq,
    not_true_eq_false, Except.map]
  rw [if_neg whole]

/-- The bytes of `cryptotext` when the buffer is large enough. -/
theorem encryptPayload_ok (pos : 0 < n) (short : n < 2 ^ 24) (fits : cipherSize n ≤ buffer.length)
    (serves : env.Serves buffer.length (cipherSize n)) :
    encryptPayload aes env key buffer n =
      .ok (aes.encrypt key env.iv.toList (plaintextOf env.headStack (buffer.take n)) ++
        env.iv.toList) := by
  have small : n + sizeofHead + 15 < 2 ^ 32 := by
    unfold sizeofHead
    omega
  obtain ⟨blocks, above, -⟩ := roundUp_spec small
  have room : n + sizeofHead + ivBytesize ≤ buffer.length :=
    Nat.le_trans (cipherSize_large short) fits
  have limit := env.kzalloc_small _ serves.plaintext
  have taken : (buffer.take n).length = n := by
    rw [List.length_take]
    omega
  have head := @memcpyS_ok (buffer.drop n) (encryptionHead env.headStack n)
    (by rw [List.length_drop]; unfold ivBytesize at room; omega)
    (by rw [List.length_drop]; omega)
    (by rw [List.length_drop, length_encryptionHead]; omega)
  -- the payload with the head behind it
  generalize htext : buffer.take n ++ encryptionHead env.headStack n = text
  have length : text.length = n + sizeofHead := by
    rw [← htext, List.length_append, length_encryptionHead, taken]
  obtain ⟨tail, padded⟩ := @cryptoAescbcCmsPadding_ok text
    ((buffer.drop n).drop (encryptionHead env.headStack n).length)
    (by rw [length]; omega) (by rw [length]; exact small)
  have whole : plaintextOf env.headStack (buffer.take n) = text ++ padding text.length := by
    rw [plaintextOf, taken, htext, length]
  have aligned : (plaintextOf env.headStack (buffer.take n)).length = roundUp (n + sizeofHead) := by
    rw [length_plaintextOf (by rw [taken]; exact small), taken]
  have start : (buffer.take n ++ (encryptionHead env.headStack n ++
      (buffer.drop n).drop (encryptionHead env.headStack n).length)) =
      text ++ (buffer.drop n).drop (encryptionHead env.headStack n).length := by
    rw [← htext, List.append_assoc]
  have cut : (text ++ padding text.length ++ tail).take (roundUp (n + sizeofHead)) =
      plaintextOf env.headStack (buffer.take n) := by
    rw [← whole, ← aligned, List.take_left]
  have nonempty : ¬ n = 0 := by omega
  rw [length] at padded cut
  simp only [encryptPayload, checkParamForEncryption_ok (by omega) serves.plaintext,
    calcPlaintextSize_eq short, if_neg (Nat.not_lt_of_le fits), ne_eq, not_true_eq_false, if_false,
    serves.cryptotext, Bool.true_eq_false, setEncryptionHead, if_neg nonempty, head, start, padded,
    cut]
  rw [cipherSize, ← aligned]
  refine cryptoSession_encrypt_ok ?_ ?_ serves.random serves.skcipher
  · rw [aligned]
    unfold ivBytesize sizeofHead at *
    omega
  · rw [aligned]
    exact blocks

/-- The encrypted text and the iv stand at the start of the buffer, the rest is as it was. -/
theorem doEncryption_ok (pos : 0 < n) (short : n < 2 ^ 24) (fits : cipherSize n ≤ buffer.length)
    (serves : env.Serves buffer.length (cipherSize n)) :
    doEncryption aes env key buffer n =
      (0, aes.encrypt key env.iv.toList (plaintextOf env.headStack (buffer.take n)) ++
        env.iv.toList ++ buffer.drop (cipherSize n)) := by
  have large := cipherSize_large short
  have taken : (buffer.take n).length = n := by
    rw [List.length_take]
    omega
  have whole : (aes.encrypt key env.iv.toList (plaintextOf env.headStack (buffer.take n)) ++
      env.iv.toList).length = cipherSize n := by
    rw [List.length_append, aes.length_encrypt, length_plaintextOf, taken]
    · simp [cipherSize, ivBytesize]
    · rw [taken]
      unfold sizeofHead
      omega
  rw [doEncryption, encryptPayload_ok pos short fits serves]
  simp only
  rw [memcpyS_ok, whole]
  · omega
  · exact env.kzalloc_small _ serves.plaintext
  · rw [whole]
    exact fits

/-- A buffer that is too small for the encrypted text is refused. -/
theorem encryptPayload_small (short : n < 2 ^ 24) (small : buffer.length < cipherSize n) :
    ∃ ret, ret ≠ 0 ∧ encryptPayload aes env key buffer n = .error ret := by
  unfold encryptPayload
  cases checkParamForEncryption env buffer with
  | error ret => exact ⟨-eINVAL, by decide, rfl⟩
  | ok plaintext =>
    have refused : ¬ (-eNOMEM : Int) = 0 := by decide
    simp only [calcPlaintextSize_eq short, if_pos small, ne_eq, if_pos refused]
    exact ⟨-eNOMEM, by decide, rfl⟩

end Steps

section Encrypted

variable (aes : AesCbc) (env : Env) (key : Key) (buffer : List UInt8)

/-- For a payload of 1 to 1025 bytes: a buffer with room for text and iv is encrypted in its first
bytes when the kernel serves the call, and decrypting these gives the payload, the head and the
padding; a smaller buffer is refused and left alone. A text has one payload. -/
theorem doEncryption_decodable {n : Nat} (pos : 0 < n) (short : n ≤ 1025) :
    (roundUp (n + sizeofHead) + ivBytesize ≤ buffer.length →
      env.Serves buffer.length (roundUp (n + sizeofHead) + ivBytesize) →
      ∃ text iv : List UInt8,
        doEncryption aes env key buffer n =
            (0, text ++ iv ++ buffer.drop (roundUp (n + sizeofHead) + ivBytesize)) ∧
          text.length = roundUp (n + sizeofHead) ∧ iv.length = ivBytesize ∧
          aes.decrypt key iv text =
            buffer.take n ++ encryptionHead env.headStack n ++ padding (n + sizeofHead)) ∧
    (buffer.length < roundUp (n + sizeofHead) + ivBytesize →
      (doEncryption aes env key buffer n).1 ≠ 0 ∧
        (doEncryption aes env key buffer n).2 = buffer) ∧
    ∀ (stack stack' : Vector UInt8 2) (payload payload' : List UInt8), payload.length = n →
      0 < payload'.length → payload'.length ≤ 1025 →
      plaintextOf stack payload = plaintextOf stack' payload' → payload = payload' := by
  have below : n < 2 ^ 24 := by omega
  refine ⟨?_, ?_, ?_⟩
  · intro fits serves
    have taken : (buffer.take n).length = n := by
      have := cipherSize_large below
      unfold cipherSize at this
      rw [List.length_take]
      omega
    have size : (plaintextOf env.headStack (buffer.take n)).length = roundUp (n + sizeofHead) := by
      rw [length_plaintextOf, taken]
      rw [taken]
      unfold sizeofHead
      omega
    refine ⟨aes.encrypt key env.iv.toList (plaintextOf env.headStack (buffer.take n)),
      env.iv.toList, doEncryption_ok pos below fits serves, ?_, by simp [ivBytesize], ?_⟩
    · rw [aes.length_encrypt, size]
    · rw [aes.decrypt_encrypt]
      · rw [plaintextOf, taken]
      · rw [size]
        exact (roundUp_spec (by unfold sizeofHead; omega)).1
  · intro small
    obtain ⟨ret, failed, refused⟩ := @encryptPayload_small aes env key buffer n below small
    rw [doEncryption, refused]
    exact ⟨failed, rfl⟩
  · rintro stack stack' payload payload' rfl - short' same
    exact plaintextOf_injective below (by omega) same

/-- The same for login information of 1 to 1024 bytes, whose payload is one byte longer. -/
theorem encryptLoginInfo_eq {size : Nat} (pos : 0 < size) (short : size ≤ aesLoginMaxlen)
    (fits : cipherSize (size + 1) ≤ buffer.length)
    (serves : env.Serves (cipherSize (size + 1)) (cipherSize (size + 1))) :
    encryptLoginInfo aes env key size buffer =
      (0, aes.encrypt key env.iv.toList (plaintextOf env.headStack (buffer.take (size + 1))) ++
        env.iv.toList ++ buffer.drop (cipherSize (size + 1))) := by
  have below : size + 1 < 2 ^ 24 := by
    unfold aesLoginMaxlen at short
    omega
  have large := cipherSize_large below
  have small : size + 1 + sizeofHead + 15 < 2 ^ 32 := by
    unfold sizeofHead
    omega
  have above := (roundUp_spec small).2.2
  have total : (roundUp (((size + 1) % 2 ^ 32 + sizeofHead) % 2 ^ 32) + ivBytesize) % 2 ^ 32 =
      cipherSize (size + 1) := by
    have first : (size + 1) % 2 ^ 32 = size + 1 := Nat.mod_eq_of_lt (by omega)
    have second : (size + 1 + sizeofHead) % 2 ^ 32 = size + 1 + sizeofHead :=
      Nat.mod_eq_of_lt (by omega)
    rw [first, second]
    apply Nat.mod_eq_of_lt
    unfold ivBytesize cipherBlockBytesize sizeofHead aesLoginMaxlen at *
    omega
  have valid : isValidSize size (cipherSize (size + 1)) = true := by
    have one : (size + (sz4K - 1)) / sz4K = 1 := by
      unfold sz4K aesLoginMaxlen at *
      omega
    have little : ¬ size > aesLoginMaxlen := Nat.not_lt_of_le short
    have room : ¬ cipherSize (size + 1) > 1 * sz4K := by
      unfold cipherSize ivBytesize cipherBlockBytesize sizeofHead aesLoginMaxlen sz4K at *
      omega
    rw [isValidSize, if_neg little, one]
    simpa using room
  have part : (buffer.take (cipherSize (size + 1))).length = cipherSize (size + 1) := by
    rw [List.length_take]
    omega
  have payload : (buffer.take (cipherSize (size + 1))).take (size + 1) = buffer.take (size + 1) := by
    rw [List.take_take, Nat.min_eq_left]
    omega
  have done := @doEncryption_ok aes env key (buffer.take (cipherSize (size + 1))) (size + 1)
    (Nat.succ_pos _) below (Nat.le_of_eq part.symm) (part.symm ▸ serves)
  have first : (size + 1) % 2 ^ 32 = size + 1 := Nat.mod_eq_of_lt (by omega)
  have rest : (buffer.take (cipherSize (size + 1))).drop (cipherSize (size + 1)) = [] :=
    List.drop_eq_nil_of_le (Nat.le_of_eq part)
  simp only [encryptLoginInfo, total, valid, Bool.true_eq_false, if_false]
  rw [first, done, payload, rest, List.append_nil]

end Encrypted

/-- A text of one byte under this key and iv, and what AES-256 makes of it. -/
def sampleText : List UInt8 := plaintextOf (Vector.replicate 2 0) [65]

def sampleCrypto : List UInt8 :=
  [72, 0, 227, 181, 151, 117, 39, 23, 79, 183, 62, 182, 163, 17, 70, 178,
    116, 120, 180, 141, 169, 56, 168, 143, 102, 56, 29, 95, 76, 107, 32, 176]

/-- A cipher that agrees with AES-256-CBC on that text. -/
def sampleAes : AesCbc where
  encrypt := fun _ _ text =>
    if text = sampleText then sampleCrypto else if text = sampleCrypto then sampleText else text
  decrypt := fun _ _ text =>
    if text = sampleText then sampleCrypto else if text = sampleCrypto then sampleText else text
  length_encrypt := by
    intro key iv text
    have lengths : sampleCrypto.length = sampleText.length := by decide
    grind
  decrypt_encrypt := by
    intro key iv text _
    have apart : sampleCrypto ≠ sampleText := by decide
    grind

def sampleEnv : Env where
  kzalloc := fun n => decide (n ≤ 4096)
  headStack := Vector.replicate 2 0
  randomArch := Vector.replicate 16 1
  randomSoft := Vector.replicate 16 0
  skcipher := 0
  kzalloc_small := by
    intro n small
    have := of_decide_eq_true small
    unfold securecMemMaxLen
    omega

theorem doEncryption_decodable_one : ∃ text iv : List UInt8,
    doEncryption sampleAes sampleEnv (Vector.replicate 32 0) (65 :: List.replicate 47 0) 1 =
        (0, text ++ iv ++ []) ∧
      text.length = 32 ∧ iv.length = 16 ∧
      sampleAes.decrypt (Vector.replicate 32 0) iv text =
        [65] ++ encryptionHead (Vector.replicate 2 0) 1 ++ List.replicate 11 11 :=
  (doEncryption_decodable sampleAes sampleEnv (Vector.replicate 32 0) (65 :: List.replicate 47 0)
    Nat.one_pos (by decide)).1 (by decide) ⟨by decide, by decide, Or.inl (by decide), rfl⟩

end LoginEncryption
