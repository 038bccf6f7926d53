import Tzdriver.ClientCallTrace

/-!
# No buffer is freed under a parked command

After a `TEEC_PENDING` reply the TEE keeps the command and the physical addresses in
it. A call frees its buffers on every exit, also on the two exits that leave a pending
round half way: the token that cannot be stored after the reply, and the token that
cannot be read before the command is sent again.
-/

namespace ClientCall

open TeecToken

/-- Whether the call's command is parked in the SMC queue after a trace. The queue gives
the slot back on every other reply. -/
def parkedAfter (parked : Bool) (trace : List Event) : Bool :=
  trace.foldl (fun parked e => match e with
    | .smc ret _ _ _ => ret == teecPending
    | _ => parked) parked

/-- No mailbox block is freed while the command is parked. -/
def freesUnparked : Bool → List Event → Bool
  | _, [] => true
  | _, .smc ret _ _ _ :: es => freesUnparked (ret == teecPending) es
  | parked, .mbFree _ :: es => !parked && freesUnparked parked es
  | parked, _ :: es => freesUnparked parked es

def NotSmc : Event → Prop
  | .smc _ _ _ _ => False
  | _ => True

def NotFree : Event → Prop
  | .mbFree _ => False
  | _ => True

theorem freesUnparked_append (parked : Bool) (xs ys : List Event) :
    freesUnparked parked (xs ++ ys) =
      (freesUnparked parked xs && freesUnparked (parkedAfter parked xs) ys) := by
  induction xs generalizing parked with
  | nil => simp [freesUnparked, parkedAfter]
  | cons e xs ih =>
    cases e <;> simp [freesUnparked, parkedAfter, ih, Bool.and_assoc]

theorem parkedAfter_of_notSmc {es : List Event} (quiet : ∀ e ∈ es, NotSmc e) (parked : Bool) :
    parkedAfter parked es = parked := by
  induction es with
  | nil => rfl
  | cons e es ih =>
    have ih := ih (fun e he => quiet e (List.mem_cons_of_mem _ he))
    have he := quiet e List.mem_cons_self
    cases e <;> first | exact False.elim he | exact ih

theorem freesUnparked_of_notSmc {es : List Event} (quiet : ∀ e ∈ es, NotSmc e) :
    freesUnparked false es = true := by
  induction es with
  | nil => rfl
  | cons e es ih =>
    have ih := ih (fun e he => quiet e (List.mem_cons_of_mem _ he))
    have he := quiet e List.mem_cons_self
    cases e <;> first | exact False.elim he | simpa [freesUnparked] using ih

theorem freesUnparked_of_notFree {es : List Event} (kept : ∀ e ∈ es, NotFree e) (parked : Bool) :
    freesUnparked parked es = true := by
  induction es generalizing parked with
  | nil => rfl
  | cons e es ih =>
    have ih := fun parked => ih (fun e he => kept e (List.mem_cons_of_mem _ he)) parked
    have he := kept e List.mem_cons_self
    cases e <;> first | exact False.elim he | simpa [freesUnparked] using ih _

theorem IsResource.notSmc {e : Event} (h : IsResource e) : NotSmc e := by
  cases e <;> trivial

theorem IsCopy.notSmc {e : Event} (h : IsCopy e) : NotSmc e := by
  cases e <;> trivial

theorem IsCopy.notFree {e : Event} (h : IsCopy e) : NotFree e := by
  cases e <;> trivial

/-- The exit of a call is safe exactly when the command is not parked there. -/
theorem freeSrc_unparked (p : CallParams) (ret : Int) (teeRet : Nat) (op : OpParams)
    (safe : freesUnparked false op.trace = true) :
    freesUnparked false (freeSrc p ret teeRet op).op.trace = true ↔
      parkedAfter false op.trace = false := by
  obtain ⟨es, pack, htrace, resource⟩ := freeSrc_trace p ret teeRet op
  have quiet : ∀ e ∈ es, NotSmc e := fun e he => (resource e he).notSmc
  rw [htrace, freesUnparked_append, safe, freesUnparked_append, parkedAfter_of_notSmc quiet]
  cases parkedAfter false op.trace with
  | true => simp [freesUnparked]
  | false => simp [freesUnparked, freesUnparked_of_notSmc quiet]

section Rounds

variable (p : CallParams)

/-- `sync_timestamp` accepts the token that came back. -/
def SyncOk (r : Round) : Prop :=
  (r.reply.cmdId = globalCmdIdOpenSession ∧ p.global = true) ∨
  (syncByte r.reply.token = unSynced ∧
    ∃ key, r.foundKey = some key ∧ 0 < timeStamp r.reply.token key) ∨
  syncByte r.reply.token = isSynced

/-- The token that came back with a reply can be stored: in the session and in the client. -/
def PostOk (session : Bool) (r : Round) : Prop :=
  isTokenWork p.global r.reply.cmdId = true →
    p.context.teecToken = true ∧ session = true ∧ SyncOk p r ∧
      p.context.tokenLen = tokenSaveLen ∧ r.tokenWrite = true

/-- The client's half of the token can be read for sending the command again. -/
def AppendOk (session : Bool) (r : Round) : Prop :=
  p.global = true ∨
    (p.context.teecToken = true ∧ session = true ∧ r.appendRead.isSome = true)

theorem syncTimestamp_isSome (r : Round) :
    (syncTimestamp r.reply.cmdId p.global r.reply.token r.foundKey).isSome = true ↔ SyncOk p r := by
  have distinct : unSynced ≠ isSynced := by decide
  unfold syncTimestamp SyncOk
  split
  · rename_i opening
    simp [opening]
  · rename_i opening
    split
    · rename_i unsynced
      cases found : r.foundKey with
      | none => simp [opening, unsynced, distinct]
      | some key =>
        simp only [descramblingTimestamp, changeTimeStamp]
        by_cases positive : timeStamp r.reply.token key > 0
        · simp [opening, unsynced, positive]
        · simp [opening, unsynced, positive, distinct]
    · rename_i unsynced
      split
      · rename_i synced
        simp [synced]
      · rename_i synced
        simp [opening, unsynced, synced]

theorem saveTokenInfo_isSome (dstSize : Nat) (tok : Token) (writeOk : Bool) :
    (saveTokenInfo dstSize tok writeOk).isSome = true ↔
      dstSize = tokenSaveLen ∧ writeOk = true := by
  unfold saveTokenInfo
  split
  · rename_i h
    simp [h]
  · rename_i h
    rw [not_not] at h
    cases writeOk <;> simp [h]

theorem postToken_spec (op : OpParams) {r : Round} (cmdId : op.cmdId = r.reply.cmdId)
    (token : op.tokens.mailbox = r.reply.token) :
    ((postToken p r op).1 = 0 ↔ PostOk p op.tokens.session.isSome r) ∧
      (postToken p r op).2.trace = op.trace ∧
      (postToken p r op).2.tokens.session.isSome = op.tokens.session.isSome := by
  have sync := syncTimestamp_isSome p r
  refine ⟨?_, rfl, ?_⟩
  · simp only [postToken, postProcessToken, PostOk, cmdId, token]
    split
    · rename_i idle
      simp [idle]
    · rename_i work
      rw [Bool.not_eq_false] at work
      split
      · rename_i noPtr
        simp [work, noPtr, eINVAL]
      · rename_i ptr
        rw [Bool.not_eq_false] at ptr
        cases session : op.tokens.session with
        | none => simp [work, eINVAL]
        | some tok =>
          simp only
          cases synced : syncTimestamp r.reply.cmdId p.global r.reply.token r.foundKey with
          | none =>
            rw [synced] at sync
            have bad : ¬ SyncOk p r := by simpa using sync
            simp [work, bad, eFAULT]
          | some tok =>
            rw [synced] at sync
            have good : SyncOk p r := by simpa using sync
            have save := saveTokenInfo_isSome p.context.tokenLen tok r.tokenWrite
            cases saved : saveTokenInfo p.context.tokenLen tok r.tokenWrite with
            | none =>
              rw [saved] at save
              have bad : ¬ (p.context.tokenLen = tokenSaveLen ∧ r.tokenWrite = true) := by
                simpa using save
              simp only [saved, work, ptr, good, true_and, Option.isSome_some, forall_const, bad,
                iff_false]
              simp [eFAULT]
            | some out =>
              rw [saved] at save
              have ok : p.context.tokenLen = tokenSaveLen ∧ r.tokenWrite = true := by
                simpa using save
              simp only [saved]
              simp [ptr, good, ok]
  · simp only [postToken, postProcessToken]
    split
    · rfl
    · split
      · rfl
      · split
        · rfl
        · rename_i session
          simp only [session]
          split
          · rfl
          · split <;> rfl

theorem appendToken_spec (op : OpParams) (r : Round) :
    ((appendToken p r op).1 = 0 ↔ AppendOk p op.tokens.session.isSome r) ∧
      (appendToken p r op).2.trace = op.trace ∧
      (appendToken p r op).2.tokens.session.isSome = op.tokens.session.isSome := by
  refine ⟨?_, rfl, ?_⟩
  · simp only [appendToken, appendTeecToken, AppendOk]
    split
    · rename_i global
      simp [global]
    · rename_i global
      rw [Bool.not_eq_true] at global
      split
      · rename_i ptr
        simp [global, ptr, eINVAL]
      · rename_i ptr
        rw [Bool.not_eq_false] at ptr
        cases op.tokens.session with
        | none => simp [global, eINVAL]
        | some tok =>
          cases r.appendRead with
          | none => simp [global, eFAULT]
          | some teec => simp [global, ptr]
  · simp only [appendToken, appendTeecToken]
    split
    · rfl
    · split
      · rfl
      · split
        · rfl
        · rename_i session
          simp only [session]
          split
          · simp [session]
          · rfl

/-- In every pending round the token steps succeed: the token is read before the command
is sent again, and stored after a reply that leaves the command parked. -/
def LoopSafe (session : Bool) : Nat → List Round → Prop
  | _, [] => True
  | teeRet, r :: rest => teeRet = teecPending →
      AppendOk p session r ∧ (r.reply.ret = teecPending → PostOk p session r) ∧
        LoopSafe session r.reply.ret rest

theorem loopSafe_of_final (session : Bool) {teeRet : Nat} (final : teeRet ≠ teecPending)
    (rounds : List Round) : LoopSafe p session teeRet rounds := by
  cases rounds with
  | nil => trivial
  | cons r rest => exact fun pending => False.elim (final pending)

theorem sendSmc_parked (op : OpParams) (r : SmcReply) :
    parkedAfter false (sendSmc op r).trace = (r.ret == teecPending) := by
  simp [sendSmc, parkedAfter]

theorem sendSmc_unparked (op : OpParams) (r : SmcReply)
    (safe : freesUnparked false op.trace = true) :
    freesUnparked false (sendSmc op r).trace = true := by
  rw [sendSmc, log_trace, freesUnparked_append]
  simp [safe, freesUnparked]

/-- A round of the pending loop whose command is sent again. -/
theorem pendingRound_spec {op : OpParams} {r : Round} (sent : (appendToken p r op).1 = 0)
    (safe : freesUnparked false op.trace = true) :
    AppendOk p op.tokens.session.isSome r ∧
      parkedAfter false (sendSmc (appendToken p r op).2 r.reply).trace =
        (r.reply.ret == teecPending) ∧
      freesUnparked false (sendSmc (appendToken p r op).2 r.reply).trace = true ∧
      ((postToken p r (sendSmc (appendToken p r op).2 r.reply)).1 = 0 ↔
        PostOk p op.tokens.session.isSome r) ∧
      (postToken p r (sendSmc (appendToken p r op).2 r.reply)).2.trace =
        (sendSmc (appendToken p r op).2 r.reply).trace ∧
      (postToken p r (sendSmc (appendToken p r op).2 r.reply)).2.tokens.session.isSome =
        op.tokens.session.isSome := by
  obtain ⟨appended, htrace, hsession⟩ := appendToken_spec p op r
  obtain ⟨posted, htrace', hsession'⟩ := postToken_spec p
    (sendSmc (appendToken p r op).2 r.reply) (r := r) rfl rfl
  have session : (sendSmc (appendToken p r op).2 r.reply).tokens.session.isSome =
      op.tokens.session.isSome := hsession
  rw [session] at posted hsession'
  exact ⟨appended.mp sent, sendSmc_parked (appendToken p r op).2 r.reply,
    sendSmc_unparked (appendToken p r op).2 r.reply (by rw [htrace, safe]), posted, htrace',
    hsession'⟩

/-- The pending loop frees nothing; it is left with the command parked exactly when a
token step failed in a pending round. -/
theorem handleTaPending_spec {rounds : List Round} {teeRet : Nat} {op op' : OpParams} {ret : Int}
    {teeRet' : Nat} (done : handleTaPending p teeRet rounds op = some (ret, teeRet', op'))
    (parked : parkedAfter false op.trace = (teeRet == teecPending))
    (safe : freesUnparked false op.trace = true) :
    parkedAfter false op'.trace = (teeRet' == teecPending) ∧
      freesUnparked false op'.trace = true ∧ (ret = 0 → teeRet' ≠ teecPending) ∧
      (teeRet' ≠ teecPending ↔ LoopSafe p op.tokens.session.isSome teeRet rounds) := by
  replace done := handleTaPending_loop done
  induction done with
  | final final =>
    exact ⟨parked, safe, fun _ => final, iff_of_true final (loopSafe_of_final p _ final _)⟩
  | @unread teeRet r rest op pending failed =>
    -- the token cannot be read: the command stays parked
    obtain ⟨appended, htrace, _⟩ := appendToken_spec p op r
    refine ⟨by rw [htrace, parked], by rw [htrace, safe], fun h => False.elim (failed h), ?_⟩
    simp only [pending, ne_eq, not_true_eq_false, LoopSafe, forall_const, false_iff]
    exact fun h => failed (appended.mpr h.1)
  | @unsaved teeRet r rest op pending sent failed =>
    obtain ⟨append, parked', safe', posted, htrace', _⟩ := pendingRound_spec p sent safe
    refine ⟨by rw [htrace', parked'], by rw [htrace', safe'], fun h => False.elim (failed h), ?_⟩
    have notPosted : ¬ PostOk p op.tokens.session.isSome r := fun h => failed (posted.mpr h)
    constructor
    · intro final _
      exact ⟨append, fun h => False.elim (final h), loopSafe_of_final p _ final _⟩
    · intro loop again
      exact notPosted ((loop pending).2.1 again)
  | @again teeRet teeRet' r rest op op' ret pending sent saved _ ih =>
    obtain ⟨append, parked', safe', posted, htrace', hsession'⟩ := pendingRound_spec p sent safe
    obtain ⟨h1, h2, h3, h4⟩ := ih (by rw [htrace', parked']) (by rw [htrace', safe'])
    refine ⟨h1, h2, h3, h4.trans ?_⟩
    rw [hsession']
    simp only [LoopSafe, pending, forall_const, append, true_and]
    exact ⟨fun h => ⟨fun _ => posted.mp saved, h⟩, And.right⟩

end Rounds

/-- The token steps of all pending rounds of a call that gets as far as its first SMC. -/
def TokensSafe (p : CallParams) (env : CallEnv) (session : Bool) : Prop :=
  (env.first.reply.ret = teecPending → PostOk p session env.first) ∧
    LoopSafe p session env.first.reply.ret env.more

theorem smcRounds_spec (p : CallParams) (env : CallEnv) {op op' : OpParams} {ret : Int}
    {teeRet : Nat} (done : smcRounds p env op = some (ret, teeRet, op'))
    (safe : freesUnparked false op.trace = true) :
    parkedAfter false op'.trace = (teeRet == teecPending) ∧
      freesUnparked false op'.trace = true ∧ (ret = 0 → teeRet ≠ teecPending) ∧
      (teeRet ≠ teecPending ↔ TokensSafe p env op.tokens.session.isSome) := by
  have same : (resetSessionId p (sendSmc op env.first.reply) env.first.reply.ret).trace =
      (sendSmc op env.first.reply).trace ∧
      (resetSessionId p (sendSmc op env.first.reply) env.first.reply.ret).tokens =
        (sendSmc op env.first.reply).tokens ∧
      (resetSessionId p (sendSmc op env.first.reply) env.first.reply.ret).cmdId =
        env.first.reply.cmdId := by
    unfold resetSessionId
    split <;> exact ⟨rfl, rfl, rfl⟩
  have parked := sendSmc_parked op env.first.reply
  have safe := sendSmc_unparked op env.first.reply safe
  obtain ⟨posted, htrace, hsession⟩ := postToken_spec p
    (resetSessionId p (sendSmc op env.first.reply) env.first.reply.ret) same.2.2
    (by rw [same.2.1]; rfl)
  rw [same.1] at htrace
  rw [same.2.1] at posted hsession
  unfold smcRounds at done
  simp only at done
  split at done
  · rename_i failed
    simp only [Option.some.injEq, Prod.mk.injEq] at done
    obtain ⟨rfl, rfl, rfl⟩ := done
    have notPosted := fun h => failed (posted.mpr h)
    refine ⟨by rw [htrace, parked], by rw [htrace, safe], fun h => False.elim (failed h), ?_⟩
    constructor
    · intro final
      exact ⟨fun h => False.elim (final h), loopSafe_of_final p _ final _⟩
    · rintro ⟨h, _⟩ pending
      exact notPosted (h pending)
  · rename_i stored
    rw [not_not] at stored
    have post := posted.mp stored
    obtain ⟨h1, h2, h3, h4⟩ := handleTaPending_spec p done (by rw [htrace, parked])
      (by rw [htrace, safe])
    rw [hsession] at h4
    exact ⟨h1, h2, h3, h4.trans ⟨fun h => ⟨fun _ => post, h⟩, And.right⟩⟩

theorem afterConfig_unparked (p : CallParams) (env : CallEnv) {op : OpParams} {res : CallResult}
    (done : afterConfig p env op = some res) (safe : freesUnparked false op.trace = true) :
    freesUnparked false res.op.trace = true ↔ TokensSafe p env op.tokens.session.isSome := by
  unfold afterConfig at done
  split at done
  · cases done
  · rename_i ret teeRet op' rounds
    obtain ⟨h1, h2, h3, h4⟩ := smcRounds_spec p env rounds safe
    rw [← h4]
    split at done
    · obtain rfl := Option.some.inj done
      rw [freeSrc_unparked p _ _ _ h2, h1, beq_eq_false_iff_ne]
    · rename_i ok
      rw [not_not] at ok
      simp only [Option.some.injEq] at done
      subst done
      obtain ⟨es, hes, copies⟩ := postProcSmcReturn_trace p env teeRet op'
      have unparked : parkedAfter false op'.trace = false := by
        rw [h1, beq_eq_false_iff_ne]
        exact h3 ok
      have h2' : freesUnparked false (postProcSmcReturn p env teeRet op').2.trace = true := by
        rw [hes, freesUnparked_append, h2, freesUnparked_of_notFree (fun e he => (copies e he).notFree)]
        rfl
      rw [freeSrc_unparked p _ _ _ h2', hes]
      unfold parkedAfter at unparked ⊢
      rw [List.foldl_append, unparked]
      exact ⟨fun _ => h3 ok,
        fun _ => parkedAfter_of_notSmc (fun e he => (copies e he).notSmc) false⟩

/-- The call gets as far as its first SMC. -/
def Submits (p : CallParams) (env : CallEnv) (tokens : TokenState) : Prop :=
  env.smcCmdAlloc = true ∧
    ∃ pack, env.mbPack = some pack ∧ (beforeSmc p env (startOp p pack tokens)).1 = 0

/-- A returned call freed nothing under a parked command exactly when the token steps
succeeded in each of its pending rounds. -/
theorem frees_unparked_iff (p : CallParams) (env : CallEnv) (tokens : TokenState)
    {res : CallResult} (returned : tcClientCall p env tokens = some res) :
    freesUnparked false res.op.trace = true ↔
      (Submits p env tokens → TokensSafe p env tokens.session.isSome) := by
  unfold tcClientCall at returned
  simp only at returned
  split at returned
  · rename_i noCmd
    obtain rfl := Option.some.inj returned
    simp [freesUnparked, Submits, noCmd]
  · rename_i cmd
    rw [Bool.not_eq_false] at cmd
    split at returned
    · rename_i noPack
      obtain rfl := Option.some.inj returned
      simp [freesUnparked, Submits, noPack]
    · rename_i pack hpack
      obtain ⟨es, hes, resource⟩ := beforeSmc_trace p env (startOp p pack tokens)
      have quiet' : ∀ e ∈ (startOp p pack tokens).trace ++ es, NotSmc e := by
        intro e he
        rcases List.mem_append.mp he with he | he
        · rw [List.mem_singleton.mp he]; trivial
        · exact (resource e he).notSmc
      have safe : freesUnparked false (beforeSmc p env (startOp p pack tokens)).2.trace = true := by
        rw [hes]
        exact freesUnparked_of_notSmc quiet'
      split at returned
      · rename_i failed
        obtain rfl := Option.some.inj returned
        have notSubmitted : ¬ Submits p env tokens := by
          rintro ⟨_, pack', hpack', ok⟩
          obtain rfl : pack = pack' := Option.some.inj (hpack.symm.trans hpack')
          exact failed ok
        rw [freeSrc_unparked p _ _ _ safe, hes, parkedAfter_of_notSmc quiet']
        simp [notSubmitted]
      · rename_i ok
        rw [not_not] at ok
        rw [afterConfig_unparked p env returned safe, beforeSmc_session]
        exact ⟨fun h _ => h, fun h => h ⟨cmd, pack, hpack, ok⟩⟩

/-- An invoke without parameters on an open session. -/
def plainInvoke : CallParams where
  dev := ⟨1, ⟨0, false⟩, 0, []⟩
  context := { uuid := 7, sessionId := 3, cmdId := 9, paramTypes := 0, params := fun _ => ⟨0, 0⟩,
               teecToken := true, tokenLen := 24 }
  sess := true
  global := false

def syncedToken : Token := fun i => if i.val = 41 then isSynced else 0

/-- The TEE parks the command once and finishes it in the next round. `tokenWrite` tells
whether the client's token can be written after the first reply. -/
def parkedOnce (tokenWrite : Bool) : CallEnv where
  mbPack := some 4096
  tokenRead := some (fun _ => 0)
  first := { reply := { ret := teecPending, cmdId := 9, contextId := 3, token := syncedToken },
             tokenWrite := tokenWrite }
  more := [{ appendRead := some (fun _ => 0),
             reply := { ret := 0, cmdId := 9, contextId := 3, token := syncedToken } }]
  memcpyS := fun destMax count => decide (count ≤ destMax)

theorem frees_unparked_one_round :
    ∃ res, tcClientCall plainInvoke (parkedOnce true) freshTokens = some res ∧ res.ret = 0 ∧
      TokensSafe plainInvoke (parkedOnce true) true := by
  obtain ⟨res, returned⟩ := Option.isSome_iff_exists.mp
    (show (tcClientCall plainInvoke (parkedOnce true) freshTokens).isSome = true by decide +kernel)
  have test : (tcClientCall plainInvoke (parkedOnce true) freshTokens).all
      (fun res => res.ret == 0 && freesUnparked false res.op.trace) = true := by decide +kernel
  rw [returned, Option.all_some, Bool.and_eq_true, beq_iff_eq] at test
  refine ⟨res, returned, test.1, ?_⟩
  have submits : Submits plainInvoke (parkedOnce true) freshTokens :=
    ⟨rfl, 4096, rfl, by decide +kernel⟩
  exact (frees_unparked_iff plainInvoke (parkedOnce true) freshTokens returned).mp test.2 submits

/-- The client unmaps its token before the first reply is post-processed: the call returns
with an error and frees the pack of a command that the TEE has parked. -/
theorem unmapped_token_frees_parked :
    (tcClientCall plainInvoke (parkedOnce false) freshTokens).map
      (fun res => (res.ret, res.teeRet, freesUnparked false res.op.trace)) =
        some (-14, teecPending, false) := by
  decide +kernel

end ClientCall
