import Tzdriver.TimestampSync

/-!
# The frame of a token

For an invoke `combine_temp_token` puts the client's half and the byte `kernel_api` into the
session's token. `KERNAL_API_LEN` runs from index 40 to the end of the token, so that two bytes are
copied from `&dev->kernel_api` and the sync byte gets `login_setup`. The TEE or `update_timestamp`
writes that byte again; a command that fails before is left with a mark that `sync_timestamp` does
not know.
-/

namespace TeecToken

open Function

/-- The byte `login_setup`. -/
def DevBytes.loginByte (dev : DevBytes) : UInt8 := if dev.loginSetup then 1 else 0

theorem clientHalf_lt {i : Fin 42} (h : i.val < 16) : i.val < 24 := by omega

/-- The token with the client's half and `kernel_api`, and nothing else changed. -/
def assembled (tok : Token) (client : ClientToken) (kernelApi : UInt8) : Token := fun i =>
  if h : i.val < 16 then client ⟨i.val, clientHalf_lt h⟩
  else if i.val = 40 then kernelApi
  else tok i

section Assembly

variable {dev : DevBytes} {tok : Token} {client : ClientToken} {st : TokenState} {cmdId : Nat}

theorem putKernelApi_apply (tok : Token) (dev : DevBytes) (i : Fin 42) :
    putKernelApi tok dev i =
      if i.val = 40 then dev.kernelApi else if i.val = 41 then dev.loginByte else tok i := rfl

/-- The sync byte is the one that tells the two tokens apart. -/
theorem putKernelApi_eq_assembled_iff :
    putKernelApi (putTeec tok client) dev = assembled tok client dev.kernelApi ↔
      syncByte tok = dev.loginByte := by
  constructor
  · intro same
    have at41 := congrFun same 41
    simp only [putKernelApi_apply, assembled] at at41
    exact at41.symm
  · intro sync
    funext i
    rw [putKernelApi_apply]
    by_cases half : i.val < 16
    · have not40 : i.val ≠ 40 := by omega
      have not41 : i.val ≠ 41 := by omega
      simp only [assembled, putTeec, half, not40, not41, if_false, dif_pos]
    · by_cases api : i.val = 40
      · simp only [if_pos api, assembled]
        rw [dif_neg half]
      · by_cases mark : i.val = 41
        · have here : i = 41 := Fin.ext mark
          subst here
          exact sync.symm
        · simp only [assembled, putTeec, half, api, mark, if_false, dif_neg, not_false_eq_true]

/-- `fill_token_info` for an invoke whose timestamp matches. -/
theorem fillTokenInfo_invoke (session : st.session = some tok)
    (stamp : savedStamp client = timestampBytes tok) (dev : DevBytes) :
    fillTokenInfo false true cmdId dev (some client) st =
      (0, { st with session := some (putKernelApi (putTeec tok client) dev)
                    mailbox := putKernelApi (putTeec tok client) dev }) := by
  have same : (fun i : Fin 8 => client ⟨16 + i.val, by omega⟩) = timestampBytes tok := stamp
  simp only [fillTokenInfo, session, combineTempToken, same, or_true, if_true, Bool.true_eq_false,
    if_false]

variable (dev tok client st cmdId) in
/-- The session and the pack get the assembled token. -/
def Framed : Prop :=
  fillTokenInfo false true cmdId dev (some client) st =
    (0, { st with session := some (assembled tok client dev.kernelApi)
                  mailbox := assembled tok client dev.kernelApi })

variable (dev client st cmdId) in
/-- A device with the same `kernel_api` gives the same result. -/
def KernelApiOnly : Prop :=
  ∀ dev' : DevBytes, dev'.kernelApi = dev.kernelApi →
    fillTokenInfo false true cmdId dev' (some client) st =
      fillTokenInfo false true cmdId dev (some client) st

theorem framed_iff (session : st.session = some tok)
    (stamp : savedStamp client = timestampBytes tok) :
    Framed dev tok client st cmdId ↔ syncByte tok = dev.loginByte := by
  rw [Framed, fillTokenInfo_invoke session stamp, ← @putKernelApi_eq_assembled_iff dev tok client]
  simp

theorem not_kernelApiOnly (session : st.session = some tok)
    (stamp : savedStamp client = timestampBytes tok) : ¬ KernelApiOnly dev client st cmdId := by
  intro only
  have other := only { dev with loginSetup := !dev.loginSetup } rfl
  rw [fillTokenInfo_invoke session stamp, fillTokenInfo_invoke session stamp] at other
  have mailbox := congrArg (fun r : Int × TokenState => syncByte r.2.mailbox) other
  simp only [syncByte, putKernelApi_apply, DevBytes.loginByte] at mailbox
  cases setup : dev.loginSetup
  · simp [setup] at mailbox
  · simp [setup] at mailbox

end Assembly

/-- A byte of `login_setup` is no mark. -/
theorem loginByte_no_mark (dev : DevBytes) :
    dev.loginByte ≠ unSynced ∧ dev.loginByte ≠ isSynced := by
  unfold DevBytes.loginByte
  cases dev.loginSetup
  · decide
  · decide

/-- `post_process_token` refuses a token whose sync byte is no mark. -/
theorem postProcessToken_no_mark {st : TokenState} {cmdId : Nat} {teecToken writeOk : Bool}
    {tokenLen : Nat} {found : Option Key} (hasToken : teecToken = true)
    (session : st.session.isSome = true)
    (mark : syncByte st.mailbox ≠ unSynced ∧ syncByte st.mailbox ≠ isSynced) :
    (postProcessToken false cmdId teecToken tokenLen found writeOk st).1 = -eFAULT := by
  obtain ⟨tok, here⟩ := Option.isSome_iff_exists.mp session
  simp [postProcessToken, isTokenWork, hasToken, here, syncTimestamp, mark.1, mark.2]

end TeecToken

namespace ClientCall

open TeecToken

section Early

variable {p : CallParams} {env : CallEnv} {st : TokenState} {tok : Token} {client : ClientToken}
  {res : CallResult}

/-- The invoke of a session whose token is `tok`, by a client that offers `client`. -/
structure InvokeOn (p : CallParams) (env : CallEnv) (st : TokenState) (tok : Token)
    (client : ClientToken) : Prop where
  notGlobal : p.global = false
  hasToken : p.context.teecToken = true
  session : st.session = some tok
  read : env.tokenRead = some client
  stamp : savedStamp client = timestampBytes tok

/-- The command is not sent: nothing has touched the token in the pack since it was put there. -/
structure FailsEarly (p : CallParams) (env : CallEnv) (st : TokenState) : Prop where
  ret : env.first.reply.ret = teecErrorGeneric
  processed : env.first.reply.processed = false
  token : ∀ pack, env.mbPack = some pack →
    env.first.reply.token = (beforeSmc p env (startOp p pack st)).2.tokens.mailbox

/-- The tokens with which a command is sent. -/
theorem beforeSmc_tokens (on : InvokeOn p env st tok client) (pack : Nat)
    (ok : (beforeSmc p env (startOp p pack st)).1 = 0) :
    (beforeSmc p env (startOp p pack st)).2.tokens =
      { st with session := some (putKernelApi (putTeec tok client) p.dev.bytes)
                mailbox := putKernelApi (putTeec tok client) p.dev.bytes } := by
  have config : ∀ op : OpParams, op.tokens = st → (configSmcCmdContext p env op).2.tokens =
      { st with session := some (putKernelApi (putTeec tok client) p.dev.bytes)
                mailbox := putKernelApi (putTeec tok client) p.dev.bytes } := by
    rintro op rfl
    have login : checkLoginForEncrypt p env = true := by
      simp [checkLoginForEncrypt, on.notGlobal]
    simp [configSmcCmdContext, login, loadSecurityEnhanceInfo, isTokenWork, on.notGlobal,
      on.hasToken, on.read, fillTokenInfo_invoke on.session on.stamp]
  have alloc := allocOperation_tokens p env.param (startOp p pack st)
  unfold beforeSmc at ok ⊢
  by_cases params : p.context.paramTypes ≠ 0
  · simp only [if_pos params] at ok ⊢
    split at ok
    · rename_i failed
      exact absurd ok failed
    · rename_i fine
      rw [if_neg fine]
      exact config _ alloc
  · simp only [if_neg params, ne_eq, not_true_eq_false, if_false]
    exact config _ rfl

/-- A command that fails before its timestamp is updated ends with the error of the sync mark. -/
theorem fails_early_ret (on : InvokeOn p env st tok client) (submits : Submits p env st)
    (early : FailsEarly p env st) (returned : tcClientCall p env st = some res) :
    res.ret = -eFAULT := by
  obtain ⟨cmd, pack, hpack, ok⟩ := submits
  have tokens := beforeSmc_tokens on pack ok
  generalize hop : (beforeSmc p env (startOp p pack st)).2 = op at tokens
  have left : env.first.reply.token = op.tokens.mailbox := hop ▸ early.token pack hpack
  have posted : (postToken p env.first (resetSessionId p (sendSmc op env.first.reply)
      env.first.reply.ret)).1 = -eFAULT := by
    have reset : (resetSessionId p (sendSmc op env.first.reply) env.first.reply.ret).tokens =
        { op.tokens with mailbox := env.first.reply.token } := by
      unfold resetSessionId
      split
      · rfl
      · rfl
    simp only [postToken, reset, on.notGlobal]
    apply postProcessToken_no_mark on.hasToken
    · rw [tokens]
      rfl
    · rw [left, tokens]
      exact loginByte_no_mark p.dev.bytes
  have rounds : smcRounds p env op = some (-eFAULT, env.first.reply.ret,
      (postToken p env.first (resetSessionId p (sendSmc op env.first.reply)
        env.first.reply.ret)).2) := by
    simp only [smcRounds, posted]
    rw [if_pos neg_eFAULT]
  have ends : tcClientCall p env st = afterConfig p env op := by
    simp [tcClientCall, cmd, hpack, ok, hop]
  rw [ends, afterConfig, rounds] at returned
  simp only [if_pos neg_eFAULT, Option.some.injEq] at returned
  rw [← returned]
  rfl

/-- Only the client's half and `kernel_api` go into the token, nothing but `kernel_api` comes from
the device, and a command that is not sent ends with the error of the SMC, which is positive. -/
structure TokenFrame (p : CallParams) (env : CallEnv) (st : TokenState) (tok : Token)
    (client : ClientToken) : Prop where
  framed : Framed p.dev.bytes tok client st p.context.cmdId
  kernelApiOnly : KernelApiOnly p.dev.bytes client st p.context.cmdId
  reported : Submits p env st → FailsEarly p env st →
    ∀ res, tcClientCall p env st = some res → res.ret = eFAULT

/-- No invoke keeps the frame of its token: the result depends on `login_setup`, and a command
that is not sent always ends with the error of the sync mark. The token itself is the assembled
one exactly if the sync byte is `login_setup` already. -/
theorem token_frame_never (on : InvokeOn p env st tok client) :
    ¬ TokenFrame p env st tok client ∧
    ¬ KernelApiOnly p.dev.bytes client st p.context.cmdId ∧
    (Submits p env st → FailsEarly p env st →
      ∀ res, tcClientCall p env st = some res → res.ret = -eFAULT) ∧
    (Framed p.dev.bytes tok client st p.context.cmdId ↔ syncByte tok = p.dev.bytes.loginByte) := by
  have other := @not_kernelApiOnly p.dev.bytes tok client st p.context.cmdId on.session on.stamp
  refine ⟨fun frame => other frame.kernelApiOnly, other, ?_, framed_iff on.session on.stamp⟩
  intro submits early res returned
  exact fails_early_ret on submits early returned

/-- The token of a session that the TEE has marked as synced. -/
def syncedTokens : TokenState := ⟨some syncedToken, zeroToken, fun _ => 0⟩

/-- The command of that session cannot be sent. -/
def unsentEnv : CallEnv where
  mbPack := some 4096
  tokenRead := some fun _ => 0
  first := { reply := { ret := teecErrorGeneric, processed := false, cmdId := 9, contextId := 3,
                        token := putKernelApi (putTeec syncedToken fun _ => 0) ⟨0, false⟩ } }
  memcpyS := fun destMax count => decide (count ≤ destMax)

theorem unsentEnv_on : InvokeOn plainInvoke unsentEnv syncedTokens syncedToken fun _ => 0 :=
  ⟨rfl, rfl, rfl, rfl, by decide⟩

theorem token_frame_never_unsent :
    ¬ TokenFrame plainInvoke unsentEnv syncedTokens syncedToken fun _ => 0 :=
  (token_frame_never unsentEnv_on).1

/-- The sync mark of the session is overwritten, and the command that is not sent ends with the
error of the mark instead of that of the SMC. -/
theorem unsent_sync_error :
    ¬ Framed plainInvoke.dev.bytes syncedToken (fun _ => 0) syncedTokens 9 ∧
    FailsEarly plainInvoke unsentEnv syncedTokens ∧
    ∃ res, tcClientCall plainInvoke unsentEnv syncedTokens = some res ∧ res.ret = -eFAULT := by
  have submits : Submits plainInvoke unsentEnv syncedTokens := ⟨rfl, 4096, rfl, by decide +kernel⟩
  have early : FailsEarly plainInvoke unsentEnv syncedTokens := by
    refine ⟨rfl, rfl, ?_⟩
    intro pack _
    obtain ⟨-, pack', -, ok⟩ := submits
    have ok' : (beforeSmc plainInvoke unsentEnv (startOp plainInvoke pack syncedTokens)).1 = 0 := ok
    rw [beforeSmc_tokens unsentEnv_on pack ok']
    rfl
  obtain ⟨res, returned⟩ := Option.isSome_iff_exists.mp
    (show (tcClientCall plainInvoke unsentEnv syncedTokens).isSome = true by decide +kernel)
  refine ⟨?_, early, res, returned, fails_early_ret unsentEnv_on submits early returned⟩
  rw [framed_iff rfl unsentEnv_on.stamp]
  decide

end Early

end ClientCall
