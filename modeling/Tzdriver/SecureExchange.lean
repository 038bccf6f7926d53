import Tzdriver.SecureParams

/-!
# Both parties agree on a session

After the driver took the root key that the TEE left at boot, and a session got its parameters, the driver
holds what the TEE chose for it, and the TEE finds in the open command the challenge word it
was sent before.
-/

namespace SecureParams

open LoginEncryption

section Messages

variable {aes : AesCbc} {crypt : Env} {key : Key} {mem enc : List UInt8} {info : SecureInfo} {n : Nat}

/-- The head of the driver's own text. -/
def reeHead : EncryptionHead where
  magic := #v[84, 114, 117, 115, 116, 101, 100, 45, 109, 97, 103, 105, 99, 0, 0, 0]
  payloadLen := 60

theorem reeHead_valid : isValidEncryptionHead reeHead tee2reeLayout.size = true := by decide

theorem put_reeHead : headLayout.put reeHead =
    encryptionHead (Vector.replicate 2 0) tee2reeLayout.size := by decide

/-- The text of the driver for a challenge word. -/
def reeText (word : UInt32) : List UInt8 :=
  headLayout.put reeHead ++ (Layout.u32.put word ++
    List.replicate (tee2reeLayout.size - Layout.u32.size) 0)

@[simp] theorem length_reeText (word : UInt32) : (reeText word).length = secureAlignedSize := by
  simp only [reeText, List.length_append, headLayout.length_put, Layout.u32.length_put,
    List.length_replicate]
  rfl

/-- The text as the driver puts it together; its last block is full. -/
theorem text_eq (word : UInt32) :
    encryptionHead (Vector.replicate 2 0) tee2reeLayout.size ++ (Layout.u32.put word ++
      List.replicate (tee2reeLayout.size - Layout.u32.size) 0) = reeText word := by
  rw [← put_reeHead]
  rfl

theorem unpadded (mem : List UInt8) :
    cryptoAescbcCmsPadding mem secureAlignedSize paramsLayout.size = .ok mem := rfl

theorem get_head_reeText (word : UInt32) : headLayout.get (reeText word) = reeHead :=
  headLayout.get_put reeHead _

@[simp] theorem challengeOf_reeText (word : UInt32) : challengeOf (reeText word) = word := by
  unfold challengeOf reeText
  rw [headLayout.drop_put]
  exact Layout.u32.get_put word _

/-- A text of the block size comes out of the cipher that the same key made. -/
theorem decrypt_sealed {iv : Iv} {text : List UInt8} (long : text.length = secureAlignedSize) :
    aes.decrypt key ((aes.encrypt key iv.toList text ++ iv.toList).drop secureAlignedSize)
      ((aes.encrypt key iv.toList text ++ iv.toList).take secureAlignedSize) = text := by
  have same : (aes.encrypt key iv.toList text).length = secureAlignedSize := by
    rw [aes.length_encrypt, long]
  rw [List.drop_left' same, List.take_left' same]
  apply aes.decrypt_encrypt
  rw [long]
  rfl

theorem session_decrypt (sized : mem.length = paramsSize) :
    cryptoSessionAescbcKey256 aes crypt mem secureAlignedSize key none .decrypt =
      if crypt.skcipher ≠ 0 then .error crypt.skcipher
      else .ok (aes.decrypt key (mem.drop secureAlignedSize) (mem.take secureAlignedSize)) := by
  have long : ¬ (paramsSize < ivBytesize ∨ secureAlignedSize < ivBytesize) := by decide
  have whole : ¬ (paramsSize - ivBytesize ≠ secureAlignedSize ∨ paramsSize - ivBytesize = 0 ∨
      (paramsSize - ivBytesize) % cipherBlockBytesize ≠ 0) := by decide
  simp only [cryptoSessionAescbcKey256, sized, if_neg long, and_self, if_true, and_false, reduceCtorEq,
    if_false, cryptoAescbcKey256]
  rw [if_neg whole]
  rfl

theorem generateRandomData_iv {iv : List UInt8} (drawn : generateRandomData crypt = .ok iv) :
    ∃ v : Iv, iv = v.toList := by
  unfold generateRandomData at drawn
  split at drawn
  · cases drawn
    exact ⟨crypt.randomArch, rfl⟩
  · split at drawn
    · cases drawn
    · cases drawn
      exact ⟨crypt.randomSoft, rfl⟩

theorem session_encrypt {text : List UInt8} (long : text.length = secureAlignedSize)
    (done : cryptoSessionAescbcKey256 aes crypt text paramsSize key none .encrypt = .ok enc) :
    ∃ iv : Iv, enc = aes.encrypt key iv.toList text ++ iv.toList := by
  have wide : ¬ (secureAlignedSize < ivBytesize ∨ paramsSize < ivBytesize) := by decide
  have whole : ¬ (secureAlignedSize ≠ paramsSize - ivBytesize ∨ secureAlignedSize = 0 ∨
      secureAlignedSize % cipherBlockBytesize ≠ 0) := by decide
  simp only [cryptoSessionAescbcKey256, long, if_neg wide, and_self, if_true, and_false, reduceCtorEq,
    if_false, cryptoAescbcKey256] at done
  rw [if_neg whole] at done
  cases random : generateRandomData crypt with
  | error ret =>
    rw [random] at done
    cases done
  | ok iv =>
    obtain ⟨v, rfl⟩ := generateRandomData_iv random
    rw [random] at done
    simp only at done
    split at done
    · cases done
    · cases done
      exact ⟨v, rfl⟩

/-- What the driver puts into an open command. -/
theorem generate_sealed
    (built : generateEncryptedSessionSecureParams aes crypt info n = .ok enc) :
    ∃ iv : Iv, enc =
      aes.encrypt info.cryptoInfo.key iv.toList (reeText info.challengeWord) ++ iv.toList := by
  have some_ : ¬ tee2reeLayout.size = 0 := by decide
  unfold generateEncryptedSessionSecureParams setEncryptionHead at built
  rw [if_neg some_] at built
  simp only [text_eq, unpadded] at built
  repeat' split at built
  all_goals cases built
  rename_i crypted
  exact session_encrypt (length_reeText _) crypted

/-- When the kernel serves the call, the text is encrypted under the iv that was drawn. -/
theorem generate_ok (room : paramsSize ≤ n) (kzalloc : crypt.kzalloc secureAlignedSize = true)
    (random : checkRandomData crypt.randomArch = 0 ∨ checkRandomData crypt.randomSoft = 0)
    (skcipher : crypt.skcipher = 0) :
    generateEncryptedSessionSecureParams aes crypt info n =
      .ok (aes.encrypt info.cryptoInfo.key crypt.iv.toList (reeText info.challengeWord) ++
        crypt.iv.toList) := by
  have some_ : ¬ tee2reeLayout.size = 0 := by decide
  have long := length_reeText info.challengeWord
  have crypted := @cryptoSession_encrypt_ok aes crypt info.cryptoInfo.key _
    (by rw [long]; decide) (by rw [long]; rfl) random skcipher
  rw [long] at crypted
  unfold generateEncryptedSessionSecureParams setEncryptionHead
  rw [if_neg (Nat.not_lt_of_le room), kzalloc, if_neg some_]
  simp only [Bool.true_eq_false, if_false, text_eq, unpadded]
  rw [show paramsSize = secureAlignedSize + ivBytesize from rfl, crypted]

/-- The TEE reads the challenge word in it. -/
theorem readChallenge_generated
    (built : generateEncryptedSessionSecureParams aes crypt info n = .ok enc) :
    readChallenge aes info.cryptoInfo.key enc = some info.challengeWord := by
  obtain ⟨iv, rfl⟩ := generate_sealed built
  unfold readChallenge
  simp only [decrypt_sealed (length_reeText _), get_head_reeText, reeHead_valid, if_true,
    challengeOf_reeText]

end Messages

/-! ## The parameters -/

section Params

variable {aes : AesCbc} {root : CryptoInfo} {tee : ParamsCmd → ParamsAnswer} {env : ParamsEnv}
  {ctx : ParamsContext} {info info' : SecureInfo} {mem : List UInt8}

theorem generateChallengeWord_ok {arch soft : UInt32} (drawn : (generateChallengeWord arch soft).1 = 0) :
    (generateChallengeWord arch soft).2 ≠ 0 := by
  unfold generateChallengeWord at *
  by_cases first : arch ≠ 0
  · rwa [if_pos first]
  · rw [if_neg first] at *
    by_cases second : soft ≠ 0
    · rwa [if_pos second]
    · rw [if_neg second] at drawn
      exact absurd drawn (by decide)

theorem challengeOf_paramsCmd (word : UInt32) : challengeOf (paramsCmd env ctx word).params = word := by
  have short : (env.stale.take headLayout.size).length = headLayout.size := by
    rw [List.length_take, env.sized]
    rfl
  unfold challengeOf paramsCmd
  rw [List.append_assoc, List.drop_left' short]
  exact Layout.u32.get_put word _

/-- The parameters are taken from a text with a valid head, or the code is not 0. -/
theorem updateSecureParamsFromTee_cases (aes : AesCbc) (root : CryptoInfo) (crypt : Env)
    (info : SecureInfo) (sized : mem.length = paramsSize) :
    (∃ ret, ret ≠ 0 ∧ updateSecureParamsFromTee aes root crypt mem info = .error ret) ∨
    let read := paramsLayout.get
      (aes.decrypt root.key (mem.drop secureAlignedSize) (mem.take secureAlignedSize))
    isValidEncryptionHead read.1 tee2reeLayout.size = true ∧
      updateSecureParamsFromTee aes root crypt mem info =
        .ok ⟨info.challengeWord, read.2.scrambling, read.2.cryptoInfo⟩ := by
  unfold updateSecureParamsFromTee
  rw [session_decrypt sized]
  by_cases runs : crypt.skcipher = 0
  · rw [if_neg (not_not.2 runs)]
    simp only
    generalize paramsLayout.get _ = read
    by_cases valid : isValidEncryptionHead read.1 tee2reeLayout.size = true
    · refine .inr ⟨valid, ?_⟩
      rw [valid]
      rfl
    · refine .inl ⟨-eFAULT, by decide, ?_⟩
      rw [if_pos (eq_false_of_ne_true valid)]
  · rw [if_pos runs]
    exact .inl ⟨crypt.skcipher, runs, rfl⟩

/-- The three ways in which the parameters of a session are asked for. -/
theorem getSessionSecureParams_cases (aes : AesCbc) (root : CryptoInfo)
    (tee : ParamsCmd → ParamsAnswer) (env : ParamsEnv) (ctx : ParamsContext) (info : SecureInfo) :
    let res := getSessionSecureParams aes root tee env ctx info
    (res.ret ≠ 0 ∧ res.sent = none ∧ ∃ word, res.info = { info with challengeWord := word }) ∨
    (res.ret ≠ 0 ∧ res.info = .zero) ∨
    ∃ word read, res.ret = 0 ∧ word ≠ 0 ∧ res.sent = some (paramsCmd env ctx word) ∧
      (tee (paramsCmd env ctx word)).reply.ret = 0 ∧
      read = paramsLayout.get (aes.decrypt root.key
        ((tee (paramsCmd env ctx word)).params.drop secureAlignedSize)
        ((tee (paramsCmd env ctx word)).params.take secureAlignedSize)) ∧
      isValidEncryptionHead read.1 tee2reeLayout.size = true ∧
      res.info = ⟨word, read.2.scrambling, read.2.cryptoInfo⟩ := by
  intro res
  have noMem : (-eNOMEM : Int) ≠ 0 := by decide
  have drawn := @generateChallengeWord_ok env.arch env.soft
  generalize challenge : generateChallengeWord env.arch env.soft = c at drawn
  obtain ⟨code, word⟩ := c
  have unfolded : res = getSessionSecureParams aes root tee env ctx info := rfl
  unfold getSessionSecureParams at unfolded
  rw [challenge] at unfolded
  simp only at unfolded drawn
  split at unfolded
  · rename_i failed
    rw [unfolded]
    exact .inl ⟨failed, rfl, word, rfl⟩
  · rename_i fine
    have nonzero := drawn (not_not.1 fine)
    split at unfolded
    · rw [unfolded]
      exact .inl ⟨noMem, rfl, word, rfl⟩
    · split at unfolded
      · rw [unfolded]
        exact .inl ⟨noMem, rfl, word, rfl⟩
      · generalize answered : tee (paramsCmd env ctx word) = answer at unfolded
        generalize code : sendSmcCmdForSecureParams answer.reply = r at unfolded
        obtain ⟨ret, origin⟩ := r
        simp only at unfolded
        split at unfolded
        · rename_i refused
          rw [unfolded]
          exact .inr (.inl ⟨refused, rfl⟩)
        · rename_i passed
          have reply : answer.reply.ret = 0 := by
            by_contra bad
            unfold sendSmcCmdForSecureParams at code
            rw [if_pos bad] at code
            split at code
            all_goals
              cases code
              exact passed (by decide)
          rcases updateSecureParamsFromTee_cases aes root env.crypt
            { info with challengeWord := word } answer.sized with ⟨ret, bad, update⟩ | ⟨valid, update⟩
          · rw [update] at unfolded
            rw [unfolded]
            exact .inr (.inl ⟨bad, rfl⟩)
          · rw [update] at unfolded
            rw [unfolded]
            refine .inr (.inr ⟨word, _, rfl, nonzero, rfl, ?_, ?_, valid, rfl⟩)
            · rw [answered]
              exact reply
            · rw [answered]

/-- `MailboxCommands` has the same codes and mailbox calls. -/
theorem getSessionSecureParams_events : ∃ reply sendRet updateRet,
    MailboxCommands.getSessionSecureParams (generateChallengeWord env.arch env.soft).1 env.mailbox
      (env.crypt.kzalloc secureAlignedSize) reply sendRet updateRet =
        ((getSessionSecureParams aes root tee env ctx info).ret,
          (getSessionSecureParams aes root tee env ctx info).trace) := by
  generalize challenge : generateChallengeWord env.arch env.soft = c
  obtain ⟨code, word⟩ := c
  have noMem : eNOMEM = ClientCall.eNOMEM := rfl
  unfold getSessionSecureParams MailboxCommands.getSessionSecureParams
  rw [challenge]
  simp only
  generalize tee (paramsCmd env ctx word) = answer
  cases update : updateSecureParamsFromTee aes root env.crypt answer.params
    { info with challengeWord := word } with
  | error ret =>
    refine ⟨answer.reply, (sendSmcCmdForSecureParams answer.reply).1, ret, ?_⟩
    cases env.mailbox <;> grind
  | ok info' =>
    refine ⟨answer.reply, (sendSmcCmdForSecureParams answer.reply).1, 0, ?_⟩
    cases env.mailbox <;> grind

/-- The root key that the driver keeps is the one that was published, and the buffer is cleaned. -/
theorem parseParamsFromTee_root {kzalloc : Bool} {published : CryptoInfo} {pad rest cleaned : List UInt8}
    (first : pad.length = 4)
    (boot : parseParamsFromTee kzalloc (pad ++ cryptoInfoLayout.put published ++ rest) =
      (0, some root, cleaned)) :
    root = published ∧ ∀ b ∈ cleaned, b = 0 := by
  unfold parseParamsFromTee getSessionRootKey at boot
  cases kzalloc with
  | false => cases boot
  | true =>
    rw [List.append_assoc, List.drop_left' first, cryptoInfoLayout.get_put] at boot
    simp only [Bool.true_eq_false, if_false] at boot
    generalize checkTeeosCompatLevel _ = level at boot
    by_cases refused : level ≠ 0
    · rw [if_pos refused] at boot
      cases boot
    · rw [if_neg refused] at boot
      cases boot
      refine ⟨rfl, ?_⟩
      intro b inside
      exact List.eq_of_mem_replicate inside

/-- What a session holds is what the TEE chose for the command with its challenge word. -/
theorem getSessionSecureParams_chosen {choose : ParamsCmd → Tee2Ree} (seals : Seals aes root tee choose)
    (done : (getSessionSecureParams aes root tee env ctx info).ret = 0) :
    ∃ cmd, (getSessionSecureParams aes root tee env ctx info).sent = some cmd ∧
      challengeOf cmd.params ≠ 0 ∧
      (getSessionSecureParams aes root tee env ctx info).info =
        ⟨challengeOf cmd.params, (choose cmd).scrambling, (choose cmd).cryptoInfo⟩ := by
  rcases getSessionSecureParams_cases aes root tee env ctx info with
    ⟨failed, -⟩ | ⟨failed, -⟩ | ⟨word, read, -, nonzero, asked, reply, made, -, holds⟩
  · exact absurd done failed
  · exact absurd done failed
  · obtain ⟨head, iv, -, block⟩ := seals _ reply
    rw [block, decrypt_sealed (paramsLayout.length_put _), paramsLayout.get_exact] at made
    subst made
    refine ⟨paramsCmd env ctx word, asked, ?_, ?_⟩
    · rwa [challengeOf_paramsCmd]
    · rw [challengeOf_paramsCmd, holds]

/-- From boot to an open command. The session holds the challenge word that was sent, and the key and
the scrambling words that the TEE chose; the TEE reads the same word under that key. Nothing of the
root key is left in the command buffer. -/
theorem params_agreed {kzalloc : Bool} {published : CryptoInfo} {pad rest cleaned : List UInt8}
    {choose : ParamsCmd → Tee2Ree} {crypt : Env} {enc : List UInt8} {n : Nat} (first : pad.length = 4)
    (boot : parseParamsFromTee kzalloc (pad ++ cryptoInfoLayout.put published ++ rest) =
      (0, some root, cleaned))
    (seals : Seals aes published tee choose)
    (done : (getSessionSecureParams aes root tee env ctx info).ret = 0)
    (built : generateEncryptedSessionSecureParams aes crypt
      (getSessionSecureParams aes root tee env ctx info).info n = .ok enc) :
    (∀ b ∈ cleaned, b = 0) ∧
    ∃ cmd, (getSessionSecureParams aes root tee env ctx info).sent = some cmd ∧
      challengeOf cmd.params ≠ 0 ∧
      (getSessionSecureParams aes root tee env ctx info).info =
        ⟨challengeOf cmd.params, (choose cmd).scrambling, (choose cmd).cryptoInfo⟩ ∧
      readChallenge aes (choose cmd).cryptoInfo.key enc = some (challengeOf cmd.params) := by
  obtain ⟨rfl, blank⟩ := parseParamsFromTee_root first boot
  refine ⟨blank, ?_⟩
  obtain ⟨cmd, asked, nonzero, holds⟩ := getSessionSecureParams_chosen seals done
  refine ⟨cmd, asked, nonzero, holds, ?_⟩
  have reads := readChallenge_generated built
  rwa [holds] at reads

end Params

/-! ## One exchange

Two texts, and what AES-256-CBC makes of the first under the root key and of the second under the key
of the session. -/

def exchangeRoot : CryptoInfo := ⟨Vector.replicate 32 1, Vector.replicate 16 0⟩

def exchangeParams : Tee2Ree := ⟨#v[5, 6, 7], ⟨Vector.replicate 32 3, Vector.replicate 16 4⟩⟩

def exchangeText : List UInt8 := paramsLayout.put (reeHead, exchangeParams)

def exchangeSealed : List UInt8 :=
  [131, 83, 79, 54, 62, 104, 106, 210, 167, 111, 76, 51, 119, 161, 242, 69, 56, 199, 45, 93,
    147, 63, 136, 251, 39, 16, 131, 213, 86, 22, 135, 81, 109, 190, 126, 46, 255, 20, 66, 53,
    64, 165, 88, 63, 47, 23, 183, 3, 67, 125, 47, 252, 108, 74, 211, 233, 116, 219, 234, 203,
    56, 218, 187, 205, 167, 63, 59, 214, 17, 137, 86, 241, 16, 25, 212, 189, 63, 50, 202, 132]

def exchangeReply : List UInt8 :=
  [34, 63, 38, 164, 133, 73, 90, 205, 26, 110, 94, 117, 230, 171, 172, 231, 8, 7, 229, 176,
    87, 254, 145, 0, 70, 117, 212, 49, 157, 100, 29, 238, 12, 149, 21, 161, 152, 91, 226, 16,
    234, 173, 236, 141, 156, 16, 47, 35, 193, 122, 209, 69, 114, 210, 34, 54, 105, 105, 142,
    210, 60, 255, 100, 119, 250, 208, 146, 49, 203, 0, 144, 8, 31, 64, 144, 164, 54, 106, 130,
    89]

/-- Two texts change places with two others. -/
def exchangeCipher (text : List UInt8) : List UInt8 :=
  if text = exchangeText then exchangeSealed
  else if text = exchangeSealed then exchangeText
  else if text = reeText 0x01020304 then exchangeReply
  else if text = exchangeReply then reeText 0x01020304
  else text

theorem exchangeCipher_twice (text : List UInt8) : exchangeCipher (exchangeCipher text) = text := by
  have apart : exchangeText ≠ exchangeSealed ∧ exchangeText ≠ reeText 0x01020304 ∧
      exchangeText ≠ exchangeReply ∧ exchangeSealed ≠ reeText 0x01020304 ∧
      exchangeSealed ≠ exchangeReply ∧ reeText 0x01020304 ≠ exchangeReply := by decide +kernel
  grind [exchangeCipher]

def exchangeAes : AesCbc where
  encrypt _ _ text := exchangeCipher text
  decrypt _ _ text := exchangeCipher text
  length_encrypt _ _ text := by
    have lengths : exchangeText.length = 80 ∧ exchangeSealed.length = 80 ∧
        (reeText 0x01020304).length = 80 ∧ exchangeReply.length = 80 := by decide +kernel
    grind [exchangeCipher]
  decrypt_encrypt _ _ text _ := exchangeCipher_twice text

theorem exchangeAes_encrypt (key : Key) (iv text : List UInt8) :
    exchangeAes.encrypt key iv text = exchangeCipher text := rfl

def exchangeTee : ParamsCmd → ParamsAnswer := fun cmd =>
  { reply := { ret := 0, cmdId := cmd.cmdId, contextId := cmd.contextId }
    params := exchangeSealed ++ List.replicate 16 2
    sized := by decide }

theorem exchangeTee_seals : Seals exchangeAes exchangeRoot exchangeTee fun _ => exchangeParams := by
  intro cmd _
  refine ⟨reeHead, Vector.replicate 16 2, reeHead_valid, ?_⟩
  have same : exchangeSealed ++ List.replicate 16 2 =
      exchangeCipher exchangeText ++ (Vector.replicate 16 2).toList := by decide +kernel
  rw [exchangeAes_encrypt]
  exact same

def exchangeCrypt : Env := { sampleEnv with randomArch := Vector.replicate 16 9 }

def exchangeEnv : ParamsEnv where
  arch := 0
  soft := 0x01020304
  mailbox := some 0x3000
  stale := List.replicate paramsSize 0xee
  sized := List.length_replicate
  uid := 1000
  crypt := exchangeCrypt

/-- The buffer at boot: a word, the root key, other bytes, and the version. -/
def exchangeBoot : List UInt8 :=
  List.replicate 48 0 ++ (Layout.u32.put verCheckMagicNum ++ List.replicate 8 0)

def exchanged : ParamsResult :=
  getSessionSecureParams exchangeAes exchangeRoot exchangeTee exchangeEnv ⟨7, 1, 0, false⟩ .zero

theorem params_agreed_exchange : ∃ cmd, exchanged.sent = some cmd ∧ challengeOf cmd.params ≠ 0 ∧
    exchanged.info = ⟨challengeOf cmd.params, #v[5, 6, 7], exchangeParams.cryptoInfo⟩ ∧
    readChallenge exchangeAes exchangeParams.cryptoInfo.key
      (exchangeReply ++ List.replicate 16 9) = some (challengeOf cmd.params) := by
  have boot : parseParamsFromTee true ([0, 0, 0, 0] ++ cryptoInfoLayout.put exchangeRoot ++
      exchangeBoot) = (0, some exchangeRoot, List.replicate 112 0) := by decide +kernel
  have done : exchanged.ret = 0 := by decide +kernel
  have built : generateEncryptedSessionSecureParams exchangeAes exchangeCrypt exchanged.info
      paramsSize = .ok (exchangeReply ++ List.replicate 16 9) := by
    rw [generate_ok le_rfl rfl (.inl (by decide)) rfl, exchangeAes_encrypt]
    have text : exchangeCipher (reeText exchanged.info.challengeWord) ++ exchangeCrypt.iv.toList =
        exchangeReply ++ List.replicate 16 9 := by decide +kernel
    rw [text]
  exact (params_agreed rfl boot exchangeTee_seals done built).2

end SecureParams
