import Tzdriver.CallCode
import Tzdriver.TeekSession

/-!
# The code of `proc_open_session`

What `proc_open_session` leaves in `context->returns` when its code is above 0. The code of a frame or
of the open command itself stands for a word of the TEE. In two places there is none:
`tc_ns_need_load_image` returns a number of the TEE as its code, and `get_session_secure_params`
returns `EPERM` when the TEE has refused.
-/

namespace TeekSession

open ClientCall TeecToken TeekOperation
open LoadImage (ClientReturn tcNsLoadImage loadImageByFrame)
open MailboxCommands (tcNsNeedLoadImage ePERM)
open SecureParams
open SessionSecrets (OpenEnv Session)

/-! ## Words -/

theorem codeWord_natCast {n : Nat} (word : n < 2 ^ 32) : codeWord (n : Int) = n := by
  unfold codeWord
  omega

theorem codeWord_ne_zero {code : Int} (low : -2 ^ 31 ≤ code) (high : code < 2 ^ 31) (some_ : code ≠ 0) :
    codeWord code ≠ 0 := by
  unfold codeWord
  omega

theorem switchErrno_ne_zero {ret : Int} {other : Nat} (some_ : other ≠ teecSuccess) :
    switchErrno ret other ≠ teecSuccess := by
  unfold switchErrno
  repeat' split
  all_goals first | exact some_ | decide

/-! ## Loading the image -/

section Load

variable (env : LoadImage.Env) (devFileId : Nat) (fileBuffer : Bool) (fileSize : Nat)
  (type : LoadImage.SecfileType) (p : LoadImage.LoadImgParams) (returns : ClientReturn)

/-- The TEE has refused a frame, with this word. -/
def FrameRefused (env : LoadImage.Env) (returns : ClientReturn) : Prop :=
  ∃ i, (env.smc i).1 ≠ 0 ∧ returns = ⟨(env.smc i).1, (env.smc i).2⟩

/-- The frames fail with a code below 0. -/
theorem loadImageByFrame_code (times rest index loaded : Nat) :
    let res := loadImageByFrame env devFileId fileSize type p times rest index loaded (some returns)
    res.1 ≤ 0 ∧ ∃ word, res.2.1 = some word ∧ (word = returns ∨ FrameRefused env word) := by
  have invalid : -LoadImage.eINVAL ≤ 0 := by decide
  have fault : -LoadImage.eFAULT ≤ 0 := by decide
  induction rest generalizing index loaded with
  | zero => exact ⟨Int.le_refl 0, returns, rfl, Or.inl rfl⟩
  | succ rest ih =>
    simp only [loadImageByFrame]
    generalize (if (index == times - 1) = true then (fileSize + 2 ^ 32 - loaded) % 2 ^ 32
      else p.mbLoadSize - LoadImage.sizeofInt) = loadSize
    split
    · exact ⟨invalid, returns, rfl, Or.inl rfl⟩
    · split
      · exact ⟨fault, returns, rfl, Or.inl rfl⟩
      · split
        · rename_i refused
          exact ⟨fault, _, rfl, Or.inr ⟨index, refused, rfl⟩⟩
        · exact ih _ _

theorem allocForLoadImage_le (size : Nat) (mb : LoadImage.Mailbox) :
    (LoadImage.allocForLoadImage env size mb).1 ≤ 0 := by
  have noMem : -LoadImage.eNOMEM ≤ 0 := by decide
  unfold LoadImage.allocForLoadImage
  repeat' split
  all_goals first | exact Int.le_refl 0 | exact noMem

theorem tcNsLoadImage_code (mb : LoadImage.Mailbox) :
    let res := tcNsLoadImage env devFileId fileBuffer fileSize (some returns) type mb
    res.ret ≤ 0 ∧ ∃ word, res.teeRet = some word ∧ (word = returns ∨ FrameRefused env word) := by
  have invalid : -LoadImage.eINVAL ≤ 0 := by decide
  have noMem : -LoadImage.eNOMEM ≤ 0 := by decide
  unfold tcNsLoadImage
  simp only
  split
  · exact ⟨invalid, returns, rfl, Or.inl rfl⟩
  · split
    · exact ⟨invalid, returns, rfl, Or.inl rfl⟩
    · split
      · exact ⟨allocForLoadImage_le _ _ _, returns, rfl, Or.inl rfl⟩
      · split
        · exact ⟨noMem, returns, rfl, Or.inl rfl⟩
        · exact loadImageByFrame_code _ _ _ _ _ _ _ _ _ _

end Load

/-- The answers of the TEE that `tc_ns_need_load_image` takes for a code above 1. -/
def AsksMore (env : LoadEnv) : Prop :=
  env.mbPack.isSome = true ∧ env.mbParam.isSome = true ∧ env.reply.ret = 0 ∧ 1 < env.answer

/-- The words of the TEE have 32 bits. -/
def LoadEnv.Words (env : LoadEnv) : Prop :=
  ∀ i, -2 ^ 31 ≤ (env.image.smc i).1 ∧ (env.image.smc i).1 < 2 ^ 31

theorem tcNsNeedLoadImage_above (env : LoadEnv) :
    1 < (tcNsNeedLoadImage true env.mbPack env.mbParam env.reply env.answer).1 ↔ AsksMore env := by
  have noMem : ¬ 1 < -eNOMEM := by decide
  have fault : ¬ 1 < -eFAULT := by decide
  unfold tcNsNeedLoadImage AsksMore
  rw [if_neg (by decide)]
  cases env.mbPack with
  | none => exact iff_of_false noMem (by rintro ⟨⟨⟩, -⟩)
  | some pack =>
    cases env.mbParam with
    | none => exact iff_of_false noMem (by rintro ⟨-, ⟨⟩, -⟩)
    | some param =>
      by_cases granted : env.reply.ret = 0
      · simp [granted]
      · simp only [granted, if_false, false_and, and_false, iff_false]
        exact fault

/-- A code of `load_ta_image` above 0 has a word, unless it is a number of the TEE. -/
theorem loadTaImage_code {env : LoadEnv} (words : env.Words) (devFileId : Nat) (fileBuffer : Bool)
    (fileSize : Nat) (returns : ClientReturn) :
    let res := loadTaImage env devFileId fileBuffer fileSize returns
    (res.1 = 0 → res.2 = returns) ∧ (AsksMore env → 0 < res.1 ∧ res.2 = returns) ∧
      (0 < res.1 → ¬ AsksMore env → codeWord res.2.code ≠ 0) := by
  have above := tcNsNeedLoadImage_above env
  unfold loadTaImage
  generalize (tcNsNeedLoadImage true env.mbPack env.mbParam env.reply env.answer).1 = need at *
  simp only
  by_cases asked : need = 1
  · have notMore : ¬ AsksMore env := by
      rw [← above]
      omega
    rw [if_pos asked]
    refine ⟨?_, fun more => absurd more notMore, ?_⟩
    · split
      · intro zero
        cases zero
      · split
        · rename_i failed
          split
          · intro zero
            cases zero
          · intro zero
            exact absurd zero failed
        · exact fun _ => rfl
    · split
      · intro pos
        cases pos
      · obtain ⟨le, word, teeRet, kind⟩ := tcNsLoadImage_code env.image devFileId fileBuffer
          fileSize .loadTa ⟨0, teecOriginComms⟩ env.mailbox
        split
        · rw [teeRet]
          simp only [Option.getD_some]
          split
          · rename_i origin
            intro _ _
            rcases kind with same | ⟨i, refused, same⟩
            · rw [same] at origin
              exact absurd rfl origin
            · rw [same]
              exact codeWord_ne_zero (words i).1 (words i).2 refused
          · intro pos
            exact absurd le (Int.not_le.2 pos)
        · intro pos
          exact absurd pos (Int.lt_irrefl 0)
  · rw [if_neg asked]
    refine ⟨fun _ => rfl, fun more => ⟨?_, rfl⟩, fun pos notMore => ?_⟩
    · have := above.2 more
      omega
    · exact absurd (above.1 (by omega)) notMore

/-! ## The secure parameters -/

section Params

variable {aes : LoginEncryption.AesCbc} {root : CryptoInfo} {tee : ParamsCmd → ParamsAnswer}
  {env : ParamsEnv} {ctx : ParamsContext} {info : SecureInfo}

/-- The TEE refuses to give a session its parameters, with an origin of its own. -/
def Refuses (tee : ParamsCmd → ParamsAnswer) (env : ParamsEnv) (ctx : ParamsContext) : Prop :=
  (generateChallengeWord env.arch env.soft).1 = 0 ∧ env.mailbox.isSome = true ∧
    env.crypt.kzalloc secureAlignedSize = true ∧
    let answer := tee (paramsCmd env ctx (generateChallengeWord env.arch env.soft).2)
    answer.reply.ret ≠ 0 ∧ answer.reply.errOrigin ≠ teecOriginComms

theorem cryptoAescbcKey256_le (cipher : env.crypt.skcipher ≤ 0) {input iv : List UInt8}
    {key : LoginEncryption.Key} {mode : LoginEncryption.Mode} {ret : Int}
    (failed : LoginEncryption.cryptoAescbcKey256 aes env.crypt input iv key mode = .error ret) :
    ret ≤ 0 := by
  unfold LoginEncryption.cryptoAescbcKey256 at failed
  split at failed
  · cases failed
    exact cipher
  · split at failed
    · cases failed
    · cases failed

theorem updateSecureParamsFromTee_le (cipher : env.crypt.skcipher ≤ 0) {params : List UInt8}
    {ret : Int} (failed : updateSecureParamsFromTee aes root env.crypt params info = .error ret) :
    ret ≤ 0 := by
  have invalid : -LoginEncryption.eINVAL ≤ 0 := by decide
  have fault : -LoginEncryption.eFAULT ≤ 0 := by decide
  unfold updateSecureParamsFromTee at failed
  split at failed
  · rename_i code decrypted
    cases failed
    unfold LoginEncryption.cryptoSessionAescbcKey256 at decrypted
    simp only [reduceCtorEq, and_false, if_false, true_and, if_true] at decrypted
    split at decrypted
    · cases decrypted
      exact invalid
    · split at decrypted
      · cases decrypted
        exact invalid
      · exact cryptoAescbcKey256_le cipher decrypted
  · simp only at failed
    split at failed
    · cases failed
      exact fault
    · cases failed

theorem sendSmcCmdForSecureParams_above (reply : SmcReply) :
    0 < (sendSmcCmdForSecureParams reply).1 ↔ reply.ret ≠ 0 ∧ reply.errOrigin ≠ teecOriginComms := by
  have refused : 0 < ePERM := by decide
  have comms : ¬ 0 < -ePERM := by decide
  unfold sendSmcCmdForSecureParams
  split
  · rename_i failed
    split
    · rename_i origin
      exact iff_of_true refused ⟨failed, origin⟩
    · rename_i origin
      exact iff_of_false comms fun h => origin h.2
  · rename_i granted
    exact iff_of_false (Int.lt_irrefl 0) fun h => granted h.1

variable (aes root tee ctx info) in
theorem getSessionSecureParams_above (cipher : env.crypt.skcipher ≤ 0) :
    0 < (getSessionSecureParams aes root tee env ctx info).ret ↔ Refuses tee env ctx := by
  have noMem : ¬ 0 < -LoginEncryption.eNOMEM := by decide
  have fault : -LoginEncryption.eFAULT ≤ 0 := by decide
  have word : (generateChallengeWord env.arch env.soft).1 ≤ 0 := by
    unfold generateChallengeWord
    repeat' split
    all_goals first | exact Int.le_refl 0 | exact fault
  unfold getSessionSecureParams Refuses
  simp only
  split
  · rename_i failed
    exact iff_of_false (Int.not_lt.2 word) fun h => failed h.1
  · rename_i drawn
    split
    · rename_i noBlock
      exact iff_of_false noMem fun h => by simp [noBlock] at h
    · rename_i ree block
      split
      · rename_i noAlloc
        exact iff_of_false noMem fun h => by simp [noAlloc] at h
      · rename_i alloc
        generalize tee (paramsCmd env ctx (generateChallengeWord env.arch env.soft).2) = answer
        have sent := sendSmcCmdForSecureParams_above answer.reply
        have reaches : ((generateChallengeWord env.arch env.soft).1 = 0 ∧ env.mailbox.isSome = true ∧
            env.crypt.kzalloc secureAlignedSize = true ∧
              answer.reply.ret ≠ 0 ∧ answer.reply.errOrigin ≠ teecOriginComms) ↔
            0 < (sendSmcCmdForSecureParams answer.reply).1 := by
          rw [sent]
          constructor
          · exact fun h => h.2.2.2
          · exact fun h => ⟨not_not.1 drawn, by rw [block]; rfl, Bool.not_eq_false _ ▸ alloc, h⟩
        rw [reaches]
        split
        · exact Iff.rfl
        · rename_i zero
          have notAbove : ¬ 0 < (sendSmcCmdForSecureParams answer.reply).1 := by
            rw [not_not.1 zero]
            exact Int.lt_irrefl 0
          split
          · rename_i failed
            exact iff_of_false (Int.not_lt.2 (updateSecureParamsFromTee_le cipher failed)) notAbove
          · exact iff_of_false (Int.lt_irrefl 0) notAbove

end Params

/-! ## `proc_open_session` -/

section Returns

variable {p : CallParams} {env : CallEnv} {tokens : TokenState} {call : CallResult}

/-- A code above 0 is that of an answer of the TEE, which is in the context then. -/
theorem returnsOf_eq (returned : tcClientCall p env tokens = some call) (above : 0 < call.ret)
    (returns : ClientReturn) : returnsOf env returns call = ⟨call.teeRet, call.op.errOrigin⟩ := by
  have noMem : ¬ 0 < -eNOMEM := by decide
  unfold tcClientCall at returned
  unfold returnsOf
  simp only at returned
  split at returned
  · cases returned
    exact absurd above noMem
  · rename_i record
    split at returned
    · cases returned
      exact absurd above noMem
    · rename_i pack got
      rw [if_neg]
      rintro (none_ | none_)
      · exact record none_
      · rw [got] at none_
        cases none_

theorem code_above (returned : tcClientCall p env tokens = some call) (above : 0 < call.ret) :
    ∃ x ∈ env.first :: env.more, call.teeRet = x.reply.ret ∧ x.reply.ret ≠ 0 ∧
      x.reply.ret ≠ teecClientIntr ∧ call.op.errOrigin = x.reply.errOrigin ∧
        lastSmc call.op.trace = some x.event := by
  rcases tcClientCall_code returned with ⟨-, below⟩ | ⟨x, mem, code⟩
  · omega
  · obtain ⟨refused, notIntr, origin⟩ := code.above above
    exact ⟨x, mem, code.word, refused, notIntr, origin, code.sent⟩

end Returns

section Driver

variable {aes : LoginEncryption.AesCbc} {root : CryptoInfo} {tee : ParamsCmd → ParamsAnswer}
  {env : OpenEnv} {load : LoadEnv} {fileBuffer : Bool} {fileSize : Nat} {s s' : Session}
  {ret : Int} {out : ContextOut}

/-- Words have 32 bits, and the crypto API fails with codes below 0. -/
structure Regular (env : OpenEnv) (load : LoadEnv) : Prop where
  load : load.Words
  replies : ∀ r ∈ env.callEnv.first :: env.callEnv.more, r.reply.ret < 2 ^ 32
  cipher : env.params.crypt.skcipher ≤ 0

/-- What `load_ta_image` returns to an open. -/
def loadCode (env : OpenEnv) (load : LoadEnv) (fileBuffer : Bool) (fileSize : Nat) : Int :=
  (loadTaImage load env.call.dev.devFileId fileBuffer fileSize ⟨0, teecOriginComms⟩).1

/-- `proc_open_session` fails with a code above 0 and no word. -/
def NoWord (tee : ParamsCmd → ParamsAnswer) (env : OpenEnv) (load : LoadEnv) (fileBuffer : Bool)
    (fileSize : Nat) : Prop :=
  AsksMore load ∨
    (loadCode env load fileBuffer fileSize = 0 ∧ Refuses tee env.params env.context)

/-- Without what is new here it is the function of `SessionSecrets`. -/
theorem procOpenSession_secrets (out : ContextOut) :
    (procOpenSession aes root tee env load fileBuffer fileSize s out).map (fun x => (x.1, x.2.1)) =
      SessionSecrets.procOpenSession aes root tee
        { env with loadTaImage :=
            (loadTaImage load env.call.dev.devFileId fileBuffer fileSize out.returns).1 } s := by
  unfold procOpenSession SessionSecrets.procOpenSession
  simp only
  generalize loadTaImage load env.call.dev.devFileId fileBuffer fileSize out.returns = loaded
  by_cases failed : loaded.1 ≠ 0
  · rw [if_pos failed, if_pos failed]
    rfl
  · rw [if_neg failed, if_neg failed]
    by_cases refused : (getSessionSecureParams aes root tee env.params env.context s.info).ret ≠ 0
    · rw [if_pos refused]
      exact (if_pos refused).symm
    · rw [if_neg refused]
      apply Eq.trans ?_ (if_neg refused).symm
      by_cases noToken : env.tokenAlloc = false
      · rw [if_pos noToken, if_pos noToken]
        rfl
      · rw [if_neg noToken, if_neg noToken]
        simp only [OpenEnv.context]
        cases tcClientCall { env.call with sess := true, global := true } _ freshTokens with
        | none => rfl
        | some call =>
          simp only
          split
          · rfl
          · rfl

theorem procOpenSession_code (regular : Regular env load)
    (done : procOpenSession aes root tee env load fileBuffer fileSize s ⟨⟨0, teecOriginComms⟩, 0⟩ =
      some (ret, s', out)) :
    (0 < ret ∧ codeWord out.returns.code = 0) ↔ NoWord tee env load fileBuffer fileSize := by
  obtain ⟨kept, asked, word⟩ := loadTaImage_code regular.load env.call.dev.devFileId fileBuffer
    fileSize ⟨0, teecOriginComms⟩
  have params := getSessionSecureParams_above aes root tee env.context s.info regular.cipher
  unfold procOpenSession at done
  unfold NoWord loadCode
  simp only at done
  split at done
  · -- the image is not loaded
    rename_i failed
    cases done
    constructor
    · rintro ⟨pos, zero⟩
      by_contra other
      exact word pos (fun more => other (Or.inl more)) zero
    · rintro (more | ⟨loaded, -⟩)
      · obtain ⟨pos, same⟩ := asked more
        exact ⟨pos, by rw [same]; rfl⟩
      · exact absurd loaded failed
  · rename_i loaded
    rw [not_not] at loaded
    have notMore : ¬ AsksMore load := by
      intro more
      have pos := (asked more).1
      rw [loaded] at pos
      exact Int.lt_irrefl 0 pos
    have only : (AsksMore load ∨ (loadTaImage load env.call.dev.devFileId fileBuffer fileSize
        ⟨0, teecOriginComms⟩).1 = 0 ∧ Refuses tee env.params env.context) ↔
        Refuses tee env.params env.context :=
      ⟨fun h => (h.resolve_left notMore).2, fun refuses => Or.inr ⟨loaded, refuses⟩⟩
    rw [only, ← params]
    split at done
    · -- the parameters are not there: the word is still that of the start
      cases done
      rw [kept loaded]
      exact ⟨fun h => h.1, fun pos => ⟨pos, rfl⟩⟩
    · rename_i got
      rw [not_not] at got
      rw [got]
      have fits : ¬ (0 < ret ∧ codeWord out.returns.code = 0) → (0 < ret ∧
          codeWord out.returns.code = 0 ↔ (0 : Int) < 0) :=
        fun h => iff_of_false h (Int.lt_irrefl 0)
      apply fits
      rintro ⟨pos, zero⟩
      split at done
      · cases done
        cases pos
      · split at done
        · cases done
        · rename_i call returned
          split at done
          · cases done
            have same := returnsOf_eq returned pos
            change ∀ returns, returnsOf env.callEnv returns call =
              ⟨call.teeRet, call.op.errOrigin⟩ at same
            obtain ⟨x, mem, word, refused, -⟩ := code_above returned pos
            rw [same, word, codeWord_natCast (regular.replies x mem)] at zero
            exact refused zero
          · cases done
            exact Int.lt_irrefl 0 pos

/-- The call of an open that succeeds: the session id is the one of the TEE's first reply. -/
theorem procOpenSession_opened (open_ : env.call.context.cmdId = globalCmdIdOpenSession) {start : ContextOut}
    (done : procOpenSession aes root tee env load fileBuffer fileSize s start = some (0, s', out)) :
    ∃ call, tcClientCall { env.call with sess := true, global := true }
        { env.callEnv with secureParams := true } freshTokens = some call ∧ call.ret = 0 ∧
      out.sessionId = call.op.sessionId ∧ call.op.sessionId = env.callEnv.first.reply.contextId := by
  unfold procOpenSession at done
  simp only at done
  split at done
  · rename_i failed
    simp only [Option.some.injEq, Prod.mk.injEq] at done
    exact absurd done.1 failed
  · split at done
    · rename_i failed
      simp only [Option.some.injEq, Prod.mk.injEq] at done
      exact absurd done.1 failed
    · split at done
      · cases done
      · split at done
        · cases done
        · rename_i call returned
          split at done
          · rename_i failed
            simp only [Option.some.injEq, Prod.mk.injEq] at done
            exact absurd done.1 failed
          · rename_i zero
            rw [not_not] at zero
            cases done
            obtain ⟨unsent, sent⟩ := tcClientCall_outcome rfl returned
            have submits := by_contra fun other => (unsent other).1 zero
            -- a call that gets to the TEE has the parameters of the session
            have made := (((submits_iff rfl).1 submits).token open_).2.2
            simp only at made
            rw [made] at returned
            exact ⟨call, returned, zero, rfl, (sent submits).2.2 zero⟩

end Driver

end TeekSession
