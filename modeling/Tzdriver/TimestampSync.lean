import Tzdriver.CallOutcome

/-!
# The timestamp in step

Every submission of a command to a TA adds one to the scrambled timestamp in the pack and
marks the token as unsynced; a TEE that takes the command marks it as synced. After the SMC
the driver takes the addition back when the mark says that the TEE never took the command,
and then stores the timestamp both in the session and with the client. The next call
compares the two copies.

Here the TEE's part of a call's environment is computed from its answers, one for each
submission. `TEEC_PENDING2` is answered inside the SMC layer and is not among them.
-/

namespace TeecToken

open Function

/-! ## The timestamp of one token -/

theorem toU64_eq (b : Bytes 8) : toU64 b = (b 0).toNat + 256 * ((b 1).toNat + 256 * ((b 2).toNat +
    256 * ((b 3).toNat + 256 * ((b 4).toNat + 256 * ((b 5).toNat + 256 * ((b 6).toNat +
    256 * (b 7).toNat)))))) := by
  rfl

theorem toU64_lt (b : Bytes 8) : toU64 b < 2 ^ 64 := by
  have small : ∀ i, (b i).toNat < 256 := fun i => (b i).toNat_lt
  have digit : ∀ i r n, r < n → (b i).toNat + 256 * r < 256 * n := by
    intro i r n hr
    have := small i
    omega
  rw [toU64_eq]
  calc _ < 256 * (256 * (256 * (256 * (256 * (256 * (256 * 256)))))) :=
          digit 0 _ _ (digit 1 _ _ (digit 2 _ _ (digit 3 _ _ (digit 4 _ _ (digit 5 _ _
            (digit 6 _ _ (small 7)))))))
    _ = 2 ^ 64 := rfl

theorem toU64_ofU64 {v : Nat} (h : v < 2 ^ 64) : toU64 (ofU64 v) = v := by
  have digit : ∀ k, v / 256 ^ k % 256 + 256 * (v / 256 ^ (k + 1)) = v / 256 ^ k := by
    intro k
    rw [Nat.pow_succ, ← Nat.div_div_eq_div_mul]
    exact Nat.mod_add_div _ _
  have top : v / 256 ^ 7 % 256 = v / 256 ^ 7 := Nat.mod_eq_of_lt (Nat.div_lt_of_lt_mul (by omega))
  have byte : ∀ i : Fin 8, (ofU64 v i).toNat = v / 256 ^ i.val % 256 := fun i => UInt8.toNat_ofNat'
  calc toU64 (ofU64 v)
      = v / 256 ^ 0 % 256 + 256 * (v / 256 ^ 1 % 256 + 256 * (v / 256 ^ 2 % 256 +
        256 * (v / 256 ^ 3 % 256 + 256 * (v / 256 ^ 4 % 256 + 256 * (v / 256 ^ 5 % 256 +
        256 * (v / 256 ^ 6 % 256 + 256 * (v / 256 ^ 7 % 256))))))) := by
          rw [toU64_eq]
          simp only [byte]
          rfl
    _ = v / 256 ^ 0 := by rw [top, digit 6, digit 5, digit 4, digit 3, digit 2, digit 1, digit 0]
    _ = v := Nat.div_one v

theorem scramblingTimestamp_twice (b : Bytes 8) (key : Key) :
    scramblingTimestamp (scramblingTimestamp b key) key = b := by
  funext i
  unfold scramblingTimestamp
  rw [UInt8.xor_assoc, UInt8.xor_self, UInt8.xor_zero]

@[simp] theorem timestampBytes_set (tok : Token) (b : Bytes 8) :
    timestampBytes (setTimestampBytes tok b) = b := by
  funext i
  have hi := i.isLt
  simp only [timestampBytes, setTimestampBytes]
  rw [dif_pos (by omega)]
  congr 1
  exact Fin.ext (by simp only; omega)

theorem timeStamp_congr {tok tok' : Token} (key : Key)
    (same : timestampBytes tok' = timestampBytes tok) : timeStamp tok' key = timeStamp tok key := by
  unfold timeStamp
  rw [same]

theorem timeStamp_set {t : Nat} (h : t < 2 ^ 64) (tok : Token) (key : Key) :
    timeStamp (setTimestampBytes tok (scramblingTimestamp (ofU64 t) key)) key = t := by
  rw [timeStamp, timestampBytes_set, scramblingTimestamp_twice, toU64_ofU64 h]

theorem descramblingTimestamp_inc {tok : Token} {key : Key} {t : Nat} (now : timeStamp tok key = t)
    (below : t < 2 ^ 64 - 1) :
    ∃ tok', descramblingTimestamp tok key .inc = some tok' ∧ timeStamp tok' key = t + 1 := by
  refine ⟨_, ?_, timeStamp_set (by omega : t + 1 < 2 ^ 64) tok key⟩
  simp only [descramblingTimestamp, changeTimeStamp, now, if_pos below]

theorem descramblingTimestamp_dec {tok : Token} {key : Key} {t : Nat}
    (now : timeStamp tok key = t + 1) :
    ∃ tok', descramblingTimestamp tok key .dec = some tok' ∧ timeStamp tok' key = t ∧
      syncByte tok' = syncByte tok := by
  have small : t + 1 < 2 ^ 64 := now ▸ toU64_lt _
  refine ⟨_, ?_, timeStamp_set (by omega : t < 2 ^ 64) tok key, ?_⟩
  · simp only [descramblingTimestamp, changeTimeStamp, now, if_pos (Nat.succ_pos t)]
    rfl
  · simp [syncByte, setTimestampBytes]

/-- `update_timestamp` on the token of a command to a TA whose session has `key`: an empty
token and a timestamp at its end are refused. -/
def updateTimestamp (key : Key) (tok : Token) : Option Token :=
  if tok = zeroToken then none
  else (descramblingTimestamp tok key .inc).map fun tok => update tok syncIndex unSynced

theorem updateTimestamp_some {key : Key} {tok : Token} {t : Nat} (used : tok ≠ zeroToken)
    (now : timeStamp tok key = t) (below : t < 2 ^ 64 - 1) :
    ∃ tok', updateTimestamp key tok = some tok' ∧ timeStamp tok' key = t + 1 ∧
      syncByte tok' = unSynced := by
  obtain ⟨tok', inc, now'⟩ := descramblingTimestamp_inc now below
  refine ⟨update tok' syncIndex unSynced, ?_, ?_, update_self ..⟩
  · rw [updateTimestamp, if_neg used, inc]
    rfl
  · rw [← now']
    apply timeStamp_congr
    funext i
    have hi := i.isLt
    have sync : syncIndex.val = 41 := rfl
    apply update_of_ne
    rw [Fin.ne_iff_vne]
    simp only
    omega

theorem savedStamp_lt (i : Fin 8) : 16 + i.val < 24 := by omega

/-- The timestamp among the bytes the client keeps. -/
def savedStamp (client : ClientToken) : Bytes 8 := fun i => client ⟨16 + i.val, savedStamp_lt i⟩

@[simp] theorem savedStamp_savedToken (tok : Token) :
    savedStamp (savedToken tok) = timestampBytes tok := by
  funext i
  have hi := i.isLt
  simp only [savedStamp, savedToken, timestampBytes]
  rw [if_neg (by omega)]
  congr 1
  exact Fin.ext (by simp only; omega)

@[simp] theorem timestampBytes_clearTeec (tok : Token) :
    timestampBytes (clearTeec tok) = timestampBytes tok := by
  funext i
  simp only [timestampBytes, clearTeec]
  rw [if_neg (by omega)]

@[simp] theorem timestampBytes_putTeec (tok : Token) (teec : ClientToken) :
    timestampBytes (putTeec tok teec) = timestampBytes tok := by
  funext i
  simp only [timestampBytes, putTeec]
  rw [dif_neg (by omega)]

@[simp] theorem timestampBytes_putKernelApi (tok : Token) (dev : DevBytes) :
    timestampBytes (putKernelApi tok dev) = timestampBytes tok := by
  funext i
  have hi := i.isLt
  simp only [timestampBytes, putKernelApi]
  rw [if_neg (by omega), if_neg (by omega)]

/-- The session's timestamp is the client's, and it stands for `t`. -/
structure InStep (key : Key) (t : Nat) (st : TokenState) (tok : Token) : Prop where
  session : st.session = some tok
  saved : timestampBytes tok = savedStamp st.client
  now : timeStamp tok key = t

theorem InStep.combine {key : Key} {t : Nat} {st : TokenState} {tok : Token}
    (h : InStep key t st tok) (dev : DevBytes) :
    combineTempToken dev (some st.client) tok = some (putKernelApi (putTeec tok st.client) dev) := by
  have same : (fun i : Fin 8 => st.client ⟨16 + i.val, by omega⟩) = timestampBytes tok :=
    h.saved.symm
  simp only [combineTempToken, same, if_true]

end TeecToken

namespace ClientCall

open Function TeecToken TraceExtension

/-! ## Submissions and answers -/

def teecErrorGeneric : Nat := 0xFFFF0000

/-- What the TEE does with one submission; `reply.token` holds what it writes into the
bytes of the token that it may change. -/
structure Answer where
  accepted : Bool
  reply : SmcReply

/-- The token as the TEE leaves it: the timestamp stays, the sync byte says whether the
command was taken. -/
def Answer.leaves (a : Answer) (tok : Token) : Token := fun i =>
  if 32 ≤ i.val ∧ i.val < 40 then tok i
  else if i.val = 41 then (if a.accepted then isSynced else tok i)
  else a.reply.token i

/-- One submission. `occupy_free_smc_in_entry` and `reuse_smc_in_entry` update the token in
the pack; when that fails the command is not sent and its record is as it was. -/
def submit (key : Key) (a : Answer) (op : OpParams) : SmcReply :=
  match updateTimestamp key op.tokens.mailbox with
  | none =>
    { ret := teecErrorGeneric, processed := false, cmdId := op.cmdId, contextId := op.contextId,
      errOrigin := op.errOrigin, token := op.tokens.mailbox, opSize := op.memrefSize }
  | some tok => { a.reply with processed := true, token := a.leaves tok }

/-- The round that sends the command again after `TEEC_PENDING`. The client's token is read
back as it was last saved. -/
def resubmission (p : CallParams) (key : Key) (a : Answer) (op : OpParams) : Round :=
  let append : Round := { appendRead := some op.tokens.client, reply := a.reply, foundKey := some key }
  { append with reply := submit key a (appendToken p append op).2 }

/-- The rounds of the pending loop from the answers to them. -/
def resubmissions (p : CallParams) (key : Key) : OpParams → List Answer → List Round
  | _, [] => []
  | op, a :: rest =>
    let r := resubmission p key a op
    r :: resubmissions p key (postToken p r (sendSmc (appendToken p r op).2 r.reply)).2 rest

/-- An invoke of a client that keeps its token in 24 bytes, with the answers of the TEE. -/
structure Invoke where
  p : CallParams
  /-- The allocators and the client's parameters. -/
  env : CallEnv
  first : Answer
  more : List Answer
  notGlobal : p.global = false
  hasToken : p.context.teecToken = true
  tokenLen : p.context.tokenLen = tokenSaveLen

/-- The environment that the session's key, the client's saved token and the TEE's answers
make for the call. -/
def Invoke.environment (c : Invoke) (key : Key) (st : TokenState) : CallEnv :=
  let env := { c.env with tokenRead := some st.client }
  let op := (beforeSmc c.p env (startOp c.p (env.mbPack.getD 0) st)).2
  let r : Round := { reply := submit key c.first op, foundKey := some key }
  let sent := resetSessionId c.p (sendSmc op r.reply) r.reply.ret
  { env with first := r, more := resubmissions c.p key (postToken c.p r sent).2 c.more }

/-- The call on a session; its pack is new. -/
def Invoke.run (c : Invoke) (key : Key) (st : TokenState) : Option CallResult :=
  let st := { st with mailbox := zeroToken }
  tcClientCall c.p (c.environment key st) st

/-- The number of submissions that reached the TEE. -/
def submissions (trace : List Event) : Nat :=
  trace.countP fun e => match e with
    | .smc _ processed _ _ => processed
    | _ => false

def accepted (answers : List Answer) : Nat := answers.countP Answer.accepted

/-- The accepted ones among the submissions the call made. -/
def Invoke.acceptedBy (c : Invoke) (trace : List Event) : Nat :=
  accepted ((c.first :: c.more).take (submissions trace))

/-- Calls one after another, with the number of accepted submissions. -/
def runInvokes (key : Key) : List Invoke → TokenState → Option (TokenState × Nat)
  | [], st => some (st, 0)
  | c :: rest, st =>
    match c.run key st with
    | none => none
    | some res =>
      match runInvokes key rest res.op.tokens with
      | none => none
      | some (st, n) => some (st, c.acceptedBy res.op.trace + n)

section Steps

variable {p : CallParams} {key : Key} {t : Nat} {op : OpParams} {tok : Token} {a : Answer}

theorem leaves_stamp (a : Answer) (tok : Token) :
    timestampBytes (a.leaves tok) = timestampBytes tok := by
  funext i
  have hi := i.isLt
  simp only [timestampBytes, Answer.leaves]
  rw [if_pos (by omega)]

theorem leaves_sync (a : Answer) (tok : Token) :
    syncByte (a.leaves tok) = if a.accepted then isSynced else syncByte tok := rfl

theorem used_of_marked (marked : syncByte tok ≠ 0) : tok ≠ zeroToken := by
  rintro rfl
  exact marked rfl

theorem accepted_cons (a : Answer) (answers : List Answer) :
    accepted (a :: answers) = accepted answers + if a.accepted then 1 else 0 :=
  List.countP_cons ..

theorem submit_sent (used : op.tokens.mailbox ≠ zeroToken)
    (now : timeStamp op.tokens.mailbox key = t) (below : t < 2 ^ 64 - 1) :
    ∃ tok', submit key a op = { a.reply with processed := true, token := a.leaves tok' } ∧
      timeStamp tok' key = t + 1 ∧ syncByte tok' = unSynced := by
  obtain ⟨tok', updated, now', mark⟩ := updateTimestamp_some used now below
  exact ⟨tok', by rw [submit, updated], now', mark⟩

/-- The session's buffer after the SMC: the addition is taken back unless the TEE took the
command, so both copies have the timestamp of the accepted submissions. -/
theorem postProcessToken_step (st : TokenState) (cmdId : Nat) {tok' : Token}
    (session : st.session = some tok) (mailbox : st.mailbox = a.leaves tok')
    (now : timeStamp tok' key = t + 1) (mark : syncByte tok' = unSynced) :
    (postProcessToken false cmdId true tokenSaveLen (some key) true st).1 = 0 ∧
      ∃ saved, InStep key (t + if a.accepted then 1 else 0)
        (postProcessToken false cmdId true tokenSaveLen (some key) true st).2 saved ∧
        syncByte saved ≠ 0 := by
  have left : timeStamp (a.leaves tok') key = t + 1 := by
    rw [timeStamp_congr key (leaves_stamp a tok'), now]
  have kept : ∀ sent : Token, timestampBytes (clearTeec sent) = savedStamp (savedToken sent) := by
    intro sent
    simp
  simp only [postProcessToken, isTokenWork, Bool.not_false, Bool.true_or, Bool.true_eq_false,
    if_false, session, mailbox, syncTimestamp, Bool.false_eq_true, and_false, leaves_sync]
  cases taken : a.accepted with
  | true =>
    simp only [if_true, show isSynced ≠ unSynced by decide, if_false, saveTokenInfo, ne_eq,
      not_true_eq_false]
    refine ⟨trivial, _, ⟨rfl, kept _, ?_⟩, ?_⟩
    · rw [timeStamp_congr key (timestampBytes_clearTeec _), left]
    · change syncByte (a.leaves tok') ≠ 0
      rw [leaves_sync, taken, if_pos rfl]
      decide
  | false =>
    obtain ⟨back, dec, now', mark'⟩ := descramblingTimestamp_dec left
    simp only [Bool.false_eq_true, if_false, mark, if_true, dec, saveTokenInfo, ne_eq,
      not_true_eq_false]
    refine ⟨trivial, _, ⟨rfl, kept _, ?_⟩, ?_⟩
    · rw [timeStamp_congr key (timestampBytes_clearTeec _), now', Nat.add_zero]
    · change syncByte back ≠ 0
      rw [mark', leaves_sync, taken, if_neg Bool.false_ne_true, mark]
      decide

end Steps

section Loop

variable {p : CallParams} (notGlobal : p.global = false) (hasToken : p.context.teecToken = true)
  (tokenLen : p.context.tokenLen = tokenSaveLen) {key : Key}

theorem submissions_snoc (trace : List Event) (ret cmdId contextId : Nat) (processed : Bool) :
    submissions (trace ++ [.smc ret processed cmdId contextId]) =
      submissions trace + if processed then 1 else 0 := by
  simp [submissions, List.countP_append, List.countP_singleton]

theorem submissions_extends {ok : Event → Prop} {xs ys : List Event} (h : Extends ok xs ys)
    (quiet : ∀ e, ok e → NotSmc e) : submissions ys = submissions xs := by
  obtain ⟨es, rfl, hes⟩ := h
  have none_ : submissions es = 0 := by
    rw [submissions, List.countP_eq_zero]
    intro e he
    have := quiet e (hes e he)
    cases e <;> simp_all [NotSmc]
  rw [submissions, List.countP_append]
  exact congrArg (submissions xs + ·) none_

theorem submissions_le_sendSmc (op : OpParams) (reply : SmcReply) :
    submissions op.trace ≤ submissions (sendSmc op reply).trace := by
  change _ ≤ submissions (op.trace ++ _)
  rw [submissions_snoc]
  omega

include notGlobal hasToken tokenLen

/-- One submission that reaches the TEE, with the token step after it. -/
theorem postToken_sent (sent : OpParams) {op : OpParams} {a : Answer} {r : Round} {tok : Token} {t : Nat}
    (h : InStep key t op.tokens tok) (mailbox : op.tokens.mailbox = tok) (used : tok ≠ zeroToken)
    (below : t < 2 ^ 64 - 1) (found : r.foundKey = some key) (writes : r.tokenWrite = true)
    (reply : r.reply = submit key a op) (tokens : sent.tokens = (sendSmc op r.reply).tokens) :
    (postToken p r sent).1 = 0 ∧ r.reply.processed = true ∧
      ∃ tok', InStep key (t + if a.accepted then 1 else 0) (postToken p r sent).2.tokens tok' ∧
        syncByte tok' ≠ 0 := by
  subst mailbox
  obtain ⟨left, eq, now, mark⟩ := submit_sent (a := a) used h.now below
  rw [eq] at reply
  have post := postProcessToken_step sent.tokens sent.cmdId (a := a)
    (by rw [tokens]; exact h.session) (by rw [tokens, reply]; rfl) now mark
  unfold postToken
  rw [notGlobal, hasToken, tokenLen, found, writes]
  exact ⟨post.1, by rw [reply], post.2⟩

/-- The invariant of the pending loop: the copies are in step and the session's token is
marked, so the next submission is not refused as empty. -/
theorem handleTaPending_inStep {answers : List Answer} {op op' : OpParams} {tok : Token}
    {t n teeRet teeRet' : Nat} {ret : Int} (h : InStep key t op.tokens tok)
    (marked : syncByte tok ≠ 0)
    (done : handleTaPending p teeRet (resubmissions p key op answers) op = some (ret, teeRet', op'))
    (count : submissions op'.trace = submissions op.trace + n)
    (below : t + accepted (answers.take n) < 2 ^ 64 - 1) :
    ∃ tok', InStep key (t + accepted (answers.take n)) op'.tokens tok' := by
  induction answers generalizing op tok t n teeRet with
  | nil =>
    rw [resubmissions] at done
    unfold handleTaPending at done
    split at done
    · simp only [Option.some.injEq, Prod.mk.injEq] at done
      obtain ⟨rfl, rfl, rfl⟩ := done
      rw [List.take_nil]
      exact ⟨tok, h⟩
    · cases done
  | cons a rest ih =>
    rw [resubmissions] at done
    unfold handleTaPending at done
    simp only at done
    split at done
    · simp only [Option.some.injEq, Prod.mk.injEq] at done
      obtain ⟨rfl, rfl, rfl⟩ := done
      obtain rfl : n = 0 := by omega
      exact ⟨tok, h⟩
    · have append : appendToken p (resubmission p key a op) op = (0, { op with
          tokens := { op.tokens with
            session := some (putTeec tok op.tokens.client)
            mailbox := putTeec tok op.tokens.client } }) := by
        simp only [appendToken, appendTeecToken, resubmission, notGlobal, hasToken, h.session,
          Bool.false_eq_true, Bool.true_eq_false, if_false]
      have h' : InStep key t (appendToken p (resubmission p key a op) op).2.tokens
          (putTeec tok op.tokens.client) := by
        rw [append]
        refine ⟨rfl, (timestampBytes_putTeec tok _).trans h.saved, ?_⟩
        rw [timeStamp_congr key (timestampBytes_putTeec tok _), h.now]
      obtain ⟨posted, processed, tok', next, marked'⟩ := postToken_sent notGlobal hasToken tokenLen
        (sendSmc (appendToken p (resubmission p key a op) op).2 (resubmission p key a op).reply)
        (r := resubmission p key a op) h' (by rw [append]) (used_of_marked marked) (by omega) rfl rfl
        rfl rfl
      rw [append] at done
      rw [append] at posted next
      rw [if_neg (by simp), if_neg (not_not.2 posted)] at done
      have later := handleTaPending_inv (P := fun op'' => submissions (op.trace) + 1 ≤
        submissions op''.trace) (fun _ _ h => h)
        (fun op r h => h.trans (submissions_le_sendSmc op r)) (by
          change _ ≤ submissions (op.trace ++ _)
          rw [submissions_snoc, processed, if_pos rfl]) done
      obtain ⟨m, rfl⟩ : ∃ m, n = m + 1 := ⟨n - 1, by omega⟩
      rw [List.take_succ_cons, accepted_cons] at below ⊢
      have sum : t + (accepted (rest.take m) + if a.accepted then 1 else 0) =
          (t + if a.accepted then 1 else 0) + accepted (rest.take m) := by omega
      rw [sum] at below ⊢
      refine ih next marked' done ?_ below
      change _ = submissions (op.trace ++ _) + m
      rw [submissions_snoc, processed, if_pos rfl, count]
      omega

omit tokenLen in
/-- Up to the first SMC the timestamps are as they were. When the command is to be sent, the
pack holds the session's token. -/
theorem beforeSmc_inStep (env : CallEnv) {st : TokenState} {tok : Token} {t : Nat} (pack : Nat)
    (h : InStep key t st tok) (read : env.tokenRead = some st.client) :
    ∃ tok', InStep key t (beforeSmc p env (startOp p pack st)).2.tokens tok' ∧
      ((beforeSmc p env (startOp p pack st)).1 = 0 →
        (beforeSmc p env (startOp p pack st)).2.tokens.mailbox = tok') := by
  have config : ∀ op : OpParams, op.tokens = st →
      (configSmcCmdContext p env op).2.tokens =
        { st with session := some (putKernelApi (putTeec tok st.client) p.dev.bytes)
                  mailbox := putKernelApi (putTeec tok st.client) p.dev.bytes } := by
    rintro op rfl
    simp only [configSmcCmdContext, checkLoginForEncrypt, notGlobal, Bool.and_false,
      Bool.false_and, Bool.false_eq_true, Bool.true_eq_false, if_false, loadSecurityEnhanceInfo,
      isTokenWork, Bool.not_false, Bool.true_or, fillTokenInfo, hasToken, h.session, or_true,
      if_true, read, h.combine, ne_eq, not_true_eq_false]
  have stamp : timestampBytes (putKernelApi (putTeec tok st.client) p.dev.bytes) =
      timestampBytes tok := by simp
  have combined : ∀ op : OpParams, op.tokens = st →
      InStep key t (configSmcCmdContext p env op).2.tokens
        (putKernelApi (putTeec tok st.client) p.dev.bytes) := by
    intro op tokens
    rw [config op tokens]
    exact ⟨rfl, stamp.trans h.saved, (timeStamp_congr key stamp).trans h.now⟩
  have alloc := allocOperation_tokens p env.param (startOp p pack st)
  unfold beforeSmc
  simp only
  split
  · split
    · rename_i failed
      refine ⟨tok, ?_, fun ok => absurd ok failed⟩
      rw [alloc]
      exact h
    · refine ⟨_, combined _ alloc, fun _ => ?_⟩
      rw [config _ alloc]
  · rw [if_neg (by simp)]
    refine ⟨_, combined _ rfl, fun _ => ?_⟩
    rw [config _ rfl]

/-- The rounds of a call. A token without a byte set is refused before it is sent, and then
the call ends with the tokens as they were. -/
theorem smcRounds_inStep {env : CallEnv} {op op' : OpParams} {first : Answer}
    {more : List Answer} {tok : Token} {t n teeRet : Nat} {ret : Int}
    (h : InStep key t op.tokens tok) (mailbox : op.tokens.mailbox = tok)
    (firstRound : env.first = { reply := submit key first op, foundKey := some key })
    (moreRounds : env.more = resubmissions p key (postToken p env.first
      (resetSessionId p (sendSmc op env.first.reply) env.first.reply.ret)).2 more)
    (done : smcRounds p env op = some (ret, teeRet, op'))
    (count : submissions op'.trace = submissions op.trace + n)
    (below : t + accepted ((first :: more).take n) < 2 ^ 64 - 1) :
    ∃ tok', InStep key (t + accepted ((first :: more).take n)) op'.tokens tok' := by
  have reset : resetSessionId p (sendSmc op env.first.reply) env.first.reply.ret =
      { sendSmc op env.first.reply with sessionId := (sendSmc op env.first.reply).contextId } := by
    simp [resetSessionId, notGlobal]
  unfold smcRounds at done
  rw [moreRounds] at done
  simp only [reset] at done
  by_cases used : tok = zeroToken
  · -- refused: the sync byte is neither mark
    have unsent : env.first.reply =
        { ret := teecErrorGeneric, processed := false, cmdId := op.cmdId,
          contextId := op.contextId, errOrigin := op.errOrigin, token := op.tokens.mailbox,
          opSize := op.memrefSize } := by
      rw [firstRound]
      simp only [submit, updateTimestamp, mailbox, used, if_true]
    have failed : ∀ id, postToken p env.first { sendSmc op env.first.reply with sessionId := id } =
        (-eFAULT, { sendSmc op env.first.reply with
          sessionId := id
          tokens := { op.tokens with session := some tok, mailbox := zeroToken } }) := by
      intro id
      have mark : syncByte zeroToken = 0 := rfl
      rw [unsent]
      simp only [postToken, sendSmc, postProcessToken, notGlobal, isTokenWork, Bool.not_false,
        Bool.true_or, Bool.true_eq_false, if_false, hasToken, OpParams.log, h.session, mailbox,
        syncTimestamp, Bool.false_eq_true, and_false, used, mark,
        show (0 : UInt8) ≠ unSynced by decide, show (0 : UInt8) ≠ isSynced by decide]
    rw [failed, if_pos neg_eFAULT] at done
    simp only [Option.some.injEq, Prod.mk.injEq] at done
    obtain ⟨rfl, rfl, rfl⟩ := done
    have unchanged : submissions (op.trace ++ [.smc env.first.reply.ret env.first.reply.processed
        env.first.reply.cmdId env.first.reply.contextId]) = submissions op.trace + n := count
    rw [submissions_snoc, unsent] at unchanged
    obtain rfl : n = 0 := by simpa using unchanged.symm
    exact ⟨tok, rfl, h.saved, h.now⟩
  · have now : t < 2 ^ 64 - 1 := by omega
    obtain ⟨posted, processed, tok', next, marked⟩ := postToken_sent notGlobal hasToken tokenLen
      { sendSmc op env.first.reply with sessionId := (sendSmc op env.first.reply).contextId }
      (r := env.first) h mailbox used now (by rw [firstRound]) (by rw [firstRound])
      (by rw [firstRound])
      rfl
    rw [if_neg (not_not.2 posted)] at done
    have later := handleTaPending_inv (P := fun op'' => submissions op.trace + 1 ≤
      submissions op''.trace) (fun _ _ h => h)
      (fun op r h => h.trans (submissions_le_sendSmc op r)) (by
        change _ ≤ submissions (op.trace ++ _)
        rw [submissions_snoc, processed, if_pos rfl]) done
    obtain ⟨m, rfl⟩ : ∃ m, n = m + 1 := ⟨n - 1, by omega⟩
    rw [List.take_succ_cons, accepted_cons] at below ⊢
    have sum : t + (accepted (more.take m) + if first.accepted then 1 else 0) =
        (t + if first.accepted then 1 else 0) + accepted (more.take m) := by omega
    rw [sum] at below ⊢
    refine handleTaPending_inStep notGlobal hasToken tokenLen next marked done ?_ below
    change _ = submissions (op.trace ++ _) + m
    rw [submissions_snoc, processed, if_pos rfl, count]
    omega

end Loop

section Runs

variable {p : CallParams} {op : OpParams}

theorem freeSrc_tokens (ret : Int) (teeRet : Nat) :
    (freeSrc p ret teeRet op).op.tokens = op.tokens := by
  have release : ∀ op : OpParams, (releaseTcCallResource p op).tokens = op.tokens := by
    intro op
    unfold releaseTcCallResource
    simp only
    split
    · exact freeOperation_tokens p op
    · rfl
  unfold freeSrc
  split <;> exact release _

theorem freeSrc_submissions (ret : Int) (teeRet : Nat) :
    submissions (freeSrc p ret teeRet op).op.trace = submissions op.trace := by
  obtain ⟨es, pack, trace, quiet⟩ := freeSrc_trace p ret teeRet op
  have quiet' : Extends NotSmc op.trace (freeSrc p ret teeRet op).op.trace := by
    refine ⟨es ++ [.mbFree pack], trace, ?_⟩
    intro e he
    rcases List.mem_append.1 he with he | he
    · exact (quiet e he).notSmc
    · rw [List.mem_singleton.1 he]
      trivial
  exact submissions_extends quiet' fun _ h => h

theorem postProcSmcReturn_tokens (env : CallEnv) (teeRet : Nat) :
    (postProcSmcReturn p env teeRet op).2.tokens = op.tokens := by
  have update : ∀ isComplete, (updateClientOperation p env isComplete op).2.tokens = op.tokens := by
    intro isComplete
    unfold updateClientOperation
    split
    · rfl
    · split
      · rfl
      · refine untilError_inv (P := fun op' => op'.tokens = op.tokens) ?_ _ rfl
        intro op' i same
        rw [updateParam_eq p env isComplete op' op'.trace i]
        exact same
  unfold postProcSmcReturn
  split
  · simp only
    split
    · exact update false
    · rfl
  · exact update true

theorem afterConfig_inStep {env : CallEnv} {res : CallResult} {P : TokenState → Nat → Prop}
    (rounds : ∀ ret teeRet op', smcRounds p env op = some (ret, teeRet, op') →
      P op'.tokens (submissions op'.trace))
    (done : afterConfig p env op = some res) : P res.op.tokens (submissions res.op.trace) := by
  unfold afterConfig at done
  split at done
  · cases done
  · rename_i ret teeRet op' ended
    have here := rounds ret teeRet op' ended
    split at done
    · cases done
      rw [freeSrc_tokens, freeSrc_submissions]
      exact here
    · have eq : freeSrc p (postProcSmcReturn p env teeRet op').1 teeRet
          (postProcSmcReturn p env teeRet op').2 = res := Option.some.inj done
      rw [← eq, freeSrc_tokens, freeSrc_submissions, postProcSmcReturn_tokens,
        submissions_extends (postProcSmcReturn_trace p env teeRet op') fun _ => IsCopy.notSmc]
      exact here

/-- One call keeps the copies in step and moves the timestamp by the number of submissions
that the TEE accepted. -/
theorem Invoke.run_inStep (c : Invoke) {key : Key} {st : TokenState} {tok : Token} {t : Nat}
    {res : CallResult} (h : InStep key t st tok) (done : c.run key st = some res)
    (below : t + c.acceptedBy res.op.trace < 2 ^ 64 - 1) :
    ∃ tok', InStep key (t + c.acceptedBy res.op.trace) res.op.tokens tok' := by
  have start : InStep key t { st with mailbox := zeroToken } tok := ⟨h.session, h.saved, h.now⟩
  have unsent : ∀ op : OpParams, submissions op.trace = 0 → (∃ tok', InStep key t op.tokens tok') →
      ∃ tok', InStep key (t + c.acceptedBy op.trace) op.tokens tok' := by
    intro op none_ here
    rw [Invoke.acceptedBy, none_]
    exact here
  unfold Invoke.run tcClientCall at done
  simp only at done
  split at done
  · cases done
    exact unsent _ rfl ⟨tok, start⟩
  · split at done
    · cases done
      exact unsent _ rfl ⟨tok, start⟩
    · rename_i pack hpack
      have hpack' : c.env.mbPack = some pack := hpack
      have env : beforeSmc c.p (c.environment key { st with mailbox := zeroToken }) =
          beforeSmc c.p { c.env with tokenRead := some st.client } := rfl
      obtain ⟨tok', before, mailbox⟩ := beforeSmc_inStep c.notGlobal c.hasToken
        { c.env with tokenRead := some st.client } pack start rfl
      have quiet : submissions (beforeSmc c.p { c.env with tokenRead := some st.client }
          (startOp c.p pack { st with mailbox := zeroToken })).2.trace = 0 :=
        submissions_extends (beforeSmc_trace c.p _ _) fun _ => IsResource.notSmc
      rw [env] at done
      split at done
      · cases done
        refine unsent _ ?_ ⟨tok', ?_⟩
        · rw [freeSrc_submissions, quiet]
        · rw [freeSrc_tokens]
          exact before
      · rename_i ok
        rw [not_not] at ok
        refine afterConfig_inStep (P := fun st n => t + accepted ((c.first :: c.more).take n) <
          2 ^ 64 - 1 → ∃ tok', InStep key (t + accepted ((c.first :: c.more).take n)) st tok') ?_
          done below
        intro ret teeRet op' ended below
        refine smcRounds_inStep c.notGlobal c.hasToken c.tokenLen before (mailbox ok) ?_ ?_ ended
          (by rw [quiet, Nat.zero_add]) below
        · simp only [Invoke.environment, hpack', Option.getD_some]
        · simp only [Invoke.environment, hpack', Option.getD_some]

/-- After any sequence of completed invokes the session and the client hold the same
timestamp, it is the first one plus the number of submissions the TEE accepted, and the next
call's comparison succeeds. -/
theorem timestamp_in_step (key : Key) (calls : List Invoke) (st st' : TokenState) (tok : Token)
    (t n : Nat) (start : InStep key t st tok) (done : runInvokes key calls st = some (st', n))
    (below : t + n < 2 ^ 64 - 1) :
    ∃ tok', InStep key (t + n) st' tok' ∧
      ∀ dev, (combineTempToken dev (some st'.client) tok').isSome = true := by
  induction calls generalizing st tok t n with
  | nil =>
    simp only [runInvokes, Option.some.injEq, Prod.mk.injEq] at done
    obtain ⟨rfl, rfl⟩ := done
    refine ⟨tok, start, fun dev => ?_⟩
    rw [start.combine]
    rfl
  | cons c rest ih =>
    rw [runInvokes] at done
    cases ran : c.run key st with
    | none => simp [ran] at done
    | some res =>
      cases more : runInvokes key rest res.op.tokens with
      | none => simp [ran, more] at done
      | some last =>
        obtain ⟨last, m⟩ := last
        simp only [ran, more, Option.some.injEq, Prod.mk.injEq] at done
        obtain ⟨rfl, rfl⟩ := done
        obtain ⟨tok', next⟩ := c.run_inStep start ran (by omega)
        rw [← Nat.add_assoc] at below ⊢
        exact ih res.op.tokens tok' _ m next more below

end Runs

/-- A session whose timestamp is `t` and the client that opened it. -/
def stamped (key : Key) (t : Nat) : Token :=
  setTimestampBytes zeroToken (scramblingTimestamp (ofU64 t) key)

def stampedTokens (key : Key) (t : Nat) : TokenState :=
  ⟨some (stamped key t), zeroToken, savedToken (stamped key t)⟩

def plainAnswer (accepted : Bool) (ret : Nat) : Answer :=
  ⟨accepted, { ret := ret, cmdId := 9, contextId := 3 }⟩

/-- An invoke without parameters and its answers. -/
def answeredInvoke (first : Answer) (more : List Answer) : Invoke where
  p := plainInvoke
  env := { mbPack := some 4096, first := { reply := first.reply }, memcpyS := fun _ _ => true }
  first := first
  more := more
  notGlobal := rfl
  hasToken := rfl
  tokenLen := rfl

/-- The first call is sent three times and the TEE takes two of them, the second is ignored. -/
theorem timestamp_in_step_two_calls :
    ∃ st', runInvokes (fun i => 17 * UInt8.ofNat i.val)
        [answeredInvoke (plainAnswer true teecPending)
          [plainAnswer false teecPending, plainAnswer true 0],
         answeredInvoke (plainAnswer false teecErrorGeneric) []]
        (stampedTokens (fun i => 17 * UInt8.ofNat i.val) 5) = some (st', 2) ∧
      ∃ tok', InStep (fun i => 17 * UInt8.ofNat i.val) (5 + 2) st' tok' ∧
        ∀ dev, (combineTempToken dev (some st'.client) tok').isSome = true := by
  have count : (runInvokes (fun i => 17 * UInt8.ofNat i.val)
        [answeredInvoke (plainAnswer true teecPending)
          [plainAnswer false teecPending, plainAnswer true 0],
         answeredInvoke (plainAnswer false teecErrorGeneric) []]
        (stampedTokens (fun i => 17 * UInt8.ofNat i.val) 5)).map Prod.snd = some 2 := by
    decide +kernel
  obtain ⟨⟨st', n⟩, ran, rfl⟩ := Option.map_eq_some_iff.1 count
  refine ⟨st', ran, timestamp_in_step _ _ _ st' _ 5 2 ⟨rfl, ?_, ?_⟩ ran (by decide)⟩
  · exact (savedStamp_savedToken _).symm
  · exact timeStamp_set (by decide) _ _

end ClientCall
