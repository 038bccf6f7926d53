import Tzdriver.CallOutcome

/-!
# The session id an open leaves behind

`reset_session_id` takes the session id from the first reply of the TEE and puts 0 in its place when
that reply is an error. It is not called again: when the first reply is `TEEC_PENDING`, when a step
of the driver fails later on, or when nothing is sent at all, the id that is there stays.
-/

namespace ClientCall

open TeecToken

section Kept

variable (p : CallParams)

/-! ### The steps before the first SMC keep the session id of the context -/

theorem allocParam_sessionId (env : ParamEnv) (op : OpParams) (index : Nat) :
    (allocParam p env op index).2.sessionId = op.sessionId := by
  obtain ⟨_, eq⟩ | ⟨_, _, _, _, eq⟩ | ⟨_, _, _, _, _, eq⟩ := allocParam_cases p env op index
  · rw [eq]
  · rw [eq]
    rfl
  · rw [eq]
    rfl

theorem allocOperation_sessionId (env : Nat → ParamEnv) (op : OpParams) :
    (allocOperation p env op).2.sessionId = op.sessionId := by
  have loop : (untilError (fun op i => allocParam p (env i) op i) (List.range teeParamNum)
      op).2.sessionId = op.sessionId :=
    @untilError_inv (fun op' => op'.sessionId = op.sessionId) _
      (fun op' i h => (allocParam_sessionId p (env i) op' i).trans h) _ _ rfl
  unfold allocOperation
  simp only
  split
  · exact freeOperation_sessionId.trans loop
  · exact loop

theorem beforeSmc_sessionId (env : CallEnv) (op : OpParams) :
    (beforeSmc p env op).2.sessionId = op.sessionId := by
  have config : ∀ op, (configSmcCmdContext p env op).2.sessionId = op.sessionId := by
    intro op
    unfold configSmcCmdContext
    simp only
    split
    · rfl
    · rfl
  unfold beforeSmc
  by_cases params : p.context.paramTypes ≠ 0
  · simp only [if_pos params]
    split
    · exact allocOperation_sessionId p _ op
    · exact (config _).trans (allocOperation_sessionId p _ op)
  · simp only [if_neg params, ne_eq, not_true_eq_false, if_false]
    exact config op

end Kept

section Returns

variable {p : CallParams} {env : CallEnv} {op : OpParams}

/-- The pending loop ends when one of the replies is final. -/
theorem handleTaPending_returns {teeRet : Nat} {rounds : List Round}
    (final : teeRet ≠ teecPending ∨ ∃ r ∈ rounds, r.reply.ret ≠ teecPending) :
    ∃ out, handleTaPending p teeRet rounds op = some out := by
  induction rounds generalizing teeRet op with
  | nil =>
    rcases final with here | ⟨r, mem, -⟩
    · exact ⟨_, by rw [handleTaPending, if_pos here]⟩
    · cases mem
  | cons r rest ih =>
    rw [handleTaPending]
    by_cases pending : teeRet ≠ teecPending
    · exact ⟨_, if_pos pending⟩
    · rw [if_neg pending]
      by_cases unread : (appendToken p r op).1 ≠ 0
      · exact ⟨_, if_pos unread⟩
      · simp only [if_neg unread]
        by_cases unsaved : (postToken p r (sendSmc (appendToken p r op).2 r.reply)).1 ≠ 0
        · exact ⟨_, if_pos unsaved⟩
        · simp only [if_neg unsaved]
          apply ih
          rcases final with here | ⟨x, mem, final⟩
          · exact absurd here pending
          · rcases List.mem_cons.mp mem with rfl | later
            · exact Or.inl final
            · exact Or.inr ⟨x, later, final⟩

/-- A call returns when one of the replies is final. -/
theorem tcClientCall_returns (tokens : TokenState)
    (final : ∃ r ∈ env.first :: env.more, r.reply.ret ≠ teecPending) :
    ∃ res, tcClientCall p env tokens = some res := by
  have after : ∀ op, ∃ res, afterConfig p env op = some res := by
    intro op
    have rounds : ∃ out, smcRounds p env op = some out := by
      unfold smcRounds
      simp only
      split
      · exact ⟨_, rfl⟩
      · apply handleTaPending_returns
        obtain ⟨r, mem, final⟩ := final
        rcases List.mem_cons.mp mem with rfl | later
        · exact Or.inl final
        · exact Or.inr ⟨r, later, final⟩
    obtain ⟨⟨ret, teeRet, op'⟩, rounds⟩ := rounds
    simp only [afterConfig, rounds]
    split
    · exact ⟨_, rfl⟩
    · exact ⟨_, rfl⟩
  unfold tcClientCall
  simp only
  split
  · exact ⟨_, rfl⟩
  · split
    · exact ⟨_, rfl⟩
    · split
      · exact ⟨_, rfl⟩
      · exact after _

end Returns

section Opened

variable {p : CallParams} {env : CallEnv} {tokens : TokenState} {res : CallResult}

/-- What `reset_session_id` makes of the first reply. -/
def firstId (env : CallEnv) : Nat :=
  if env.first.reply.ret ≠ 0 ∧ env.first.reply.ret ≠ teecPending then 0
  else env.first.reply.contextId

theorem afterConfig_sessionId {op : OpParams} (global : p.global = true)
    (open_ : p.context.cmdId = globalCmdIdOpenSession) (done : afterConfig p env op = some res) :
    res.op.sessionId = firstId env := by
  have first : (resetSessionId p (sendSmc op env.first.reply) env.first.reply.ret).sessionId =
      firstId env := by
    simp only [resetSessionId, global, open_, true_and, firstId]
    split
    · rfl
    · rfl
  unfold afterConfig at done
  split at done
  · cases done
  · rename_i ret teeRet op' rounds
    obtain ⟨x, ended⟩ := smcRounds_ended global rounds rfl
    have kept := ended.sessionId.trans first
    split at done
    · obtain rfl := Option.some.inj done
      rw [freeSrc_sessionId]
      exact kept
    · simp only [Option.some.injEq] at done
      rw [← done, freeSrc_sessionId, postProcSmcReturn_sessionId]
      exact kept

/-- The session id after an open: the one of the first reply, or the caller's when nothing was
sent. -/
theorem tcClientCall_sessionId (global : p.global = true)
    (open_ : p.context.cmdId = globalCmdIdOpenSession)
    (returned : tcClientCall p env tokens = some res) :
    (¬ Submits p env tokens → res.op.sessionId = p.context.sessionId) ∧
      (Submits p env tokens → res.op.sessionId = firstId env) := by
  unfold tcClientCall at returned
  simp only at returned
  split at returned
  · rename_i noCmd
    obtain rfl := Option.some.inj returned
    exact ⟨fun _ => rfl, fun submits => by simp [submits.1] at noCmd⟩
  · rename_i cmd
    rw [Bool.not_eq_false] at cmd
    split at returned
    · rename_i noPack
      obtain rfl := Option.some.inj returned
      refine ⟨fun _ => rfl, fun submits => ?_⟩
      obtain ⟨-, pack, hpack, -⟩ := submits
      simp [noPack] at hpack
    · rename_i pack hpack
      have submits_iff : Submits p env tokens ↔
          (beforeSmc p env (startOp p pack tokens)).1 = 0 := by
        simp [Submits, cmd, hpack]
      rw [submits_iff]
      split at returned
      · rename_i failed
        obtain rfl := Option.some.inj returned
        refine ⟨fun _ => ?_, fun ok => absurd ok failed⟩
        rw [freeSrc_sessionId, beforeSmc_sessionId]
        rfl
      · rename_i ok
        rw [not_not] at ok
        exact ⟨fun notOk => absurd ok notOk, fun _ => afterConfig_sessionId global open_ returned⟩

variable (p env tokens res) in
/-- A call that succeeds leaves the id of the final reply, and one that fails leaves 0. -/
structure SessionIdExact : Prop where
  opened : res.ret = 0 → ∃ x, Sent p tokens.session.isSome env.first env.more x ∧
    x.reply.ret ≠ teecPending ∧ res.op.sessionId = x.reply.contextId
  failed : res.ret ≠ 0 → res.op.sessionId = 0

variable (p env tokens) in
/-- When nothing is sent the context comes with the id 0. When the TEE grants the open and nothing
fails, its final reply has the id of the first one. Otherwise the first reply is an error, or its
id is 0. -/
structure IdsAgree : Prop where
  unsent : ¬ Submits p env tokens → p.context.sessionId = 0
  granted : Submits p env tokens → Granted p env tokens.session.isSome →
    ∀ x, Sent p tokens.session.isSome env.first env.more x → x.reply.ret ≠ teecPending →
      x.reply.contextId = env.first.reply.contextId
  failed : Submits p env tokens → ¬ Granted p env tokens.session.isSome →
    env.first.reply.ret ≠ 0 ∧ env.first.reply.ret ≠ teecPending ∨ env.first.reply.contextId = 0

theorem firstId_eq_zero_iff : firstId env = 0 ↔
    env.first.reply.ret ≠ 0 ∧ env.first.reply.ret ≠ teecPending ∨
      env.first.reply.contextId = 0 := by
  unfold firstId
  by_cases refused : env.first.reply.ret ≠ 0 ∧ env.first.reply.ret ≠ teecPending
  · rw [if_pos refused]
    exact iff_of_true rfl (Or.inl refused)
  · rw [if_neg refused]
    exact ⟨Or.inr, fun h => h.resolve_left refused⟩

/-- An open of which a reply is final returns, and its session id is the right one if and only if
the ids agree. -/
theorem opened_session_id_iff (global : p.global = true)
    (open_ : p.context.cmdId = globalCmdIdOpenSession)
    (final : ∃ r ∈ env.first :: env.more, r.reply.ret ≠ teecPending) :
    ∃ res, tcClientCall p env tokens = some res ∧
      (SessionIdExact p env tokens res ↔ IdsAgree p env tokens) := by
  obtain ⟨res, returned⟩ := tcClientCall_returns tokens final
  refine ⟨res, returned, ?_⟩
  obtain ⟨unsentId, sentId⟩ := tcClientCall_sessionId global open_ returned
  obtain ⟨unsentRet, sentRet⟩ := tcClientCall_outcome global returned
  by_cases submits : Submits p env tokens
  · obtain ⟨-, granted_iff, opened⟩ := sentRet submits
    have id := sentId submits
    by_cases granted : Granted p env tokens.session.isSome
    · have zero := granted_iff.mpr granted
      obtain ⟨x, sent, ok, -, -⟩ := granted
      have xFinal : x.reply.ret ≠ teecPending := by
        rw [ok]
        decide
      have first := opened zero
      constructor
      · intro exact_
        obtain ⟨y, ySent, yFinal, same⟩ := exact_.opened zero
        refine ⟨fun h => absurd submits h, fun _ _ z zSent zFinal => ?_, fun _ h => ?_⟩
        · rw [zSent.unique ySent zFinal yFinal, ← same, first]
        · exact absurd (granted_iff.mp zero) h
      · intro agree
        have same := agree.granted submits (granted_iff.mp zero) x sent xFinal
        exact ⟨fun _ => ⟨x, sent, xFinal, first.trans same.symm⟩, fun h => absurd zero h⟩
    · have failed : res.ret ≠ 0 := fun zero => granted (granted_iff.mp zero)
      constructor
      · intro exact_
        refine ⟨fun h => absurd submits h, fun _ h => absurd h granted, fun _ _ => ?_⟩
        rw [← firstId_eq_zero_iff, ← id]
        exact exact_.failed failed
      · intro agree
        refine ⟨fun zero => absurd zero failed, fun _ => ?_⟩
        rw [id, firstId_eq_zero_iff]
        exact agree.failed submits granted
  · have failed := (unsentRet submits).1
    have id := unsentId submits
    constructor
    · intro exact_
      refine ⟨fun _ => ?_, fun h => absurd h submits, fun h => absurd h submits⟩
      rw [← id]
      exact exact_.failed failed
    · intro agree
      refine ⟨fun zero => absurd zero failed, fun _ => ?_⟩
      rw [id]
      exact agree.unsent submits

/-- An open without parameters. -/
def bareOpen : CallParams where
  dev := ⟨1, ⟨0, false⟩, 0, []⟩
  context := { uuid := 7, sessionId := 0, cmdId := globalCmdIdOpenSession, paramTypes := 0,
               params := fun _ => ⟨0, 0⟩, teecToken := true, tokenLen := 24 }
  sess := true
  global := true

/-- The TEE answers with `TEEC_PENDING` and the id 5 first, and then with this code and id. -/
def pendingOpen (ret contextId : Nat) : CallEnv where
  mbPack := some 4096
  first := { reply := { ret := teecPending, cmdId := globalCmdIdOpenSession, contextId := 5,
                        token := syncedToken } }
  more := [{ reply := { ret := ret, cmdId := globalCmdIdOpenSession, contextId := contextId,
                        token := syncedToken } }]
  memcpyS := fun destMax count => decide (count ≤ destMax)

/-- Both replies have the id 5, and the TEE grants the open. -/
theorem opened_session_id_granted : ∃ res,
    tcClientCall bareOpen (pendingOpen 0 5) freshTokens = some res ∧
      res.ret = 0 ∧ res.op.sessionId = 5 ∧
      SessionIdExact bareOpen (pendingOpen 0 5) freshTokens res := by
  obtain ⟨res, returned, iff⟩ := @opened_session_id_iff bareOpen (pendingOpen 0 5) freshTokens rfl rfl
    ⟨_, List.mem_cons_of_mem _ List.mem_cons_self, by decide⟩
  have test : (tcClientCall bareOpen (pendingOpen 0 5) freshTokens).all
      (fun res => res.ret == 0 && res.op.sessionId == 5) = true := by decide +kernel
  rw [returned, Option.all_some, Bool.and_eq_true, beq_iff_eq, beq_iff_eq] at test
  obtain ⟨ret, id⟩ := test
  refine ⟨res, returned, ret, id,
    iff.2 ⟨fun _ => rfl, fun _ _ x sent _ => ?_, fun submits denied => ?_⟩⟩
  · rcases sent_cons.1 sent with rfl | ⟨-, later⟩
    · rfl
    · rw [sent_nil.1 later]
      rfl
  · exact absurd (((tcClientCall_outcome rfl returned).2 submits).2.1.1 ret) denied

/-- The TEE refuses the open after it was pending: the call fails and leaves the id 5. -/
theorem refused_open_keeps_id : ∃ res,
    tcClientCall bareOpen (pendingOpen 0xFFFF0000 0) freshTokens = some res ∧
      res.ret = eFAULT ∧ res.op.sessionId = 5 ∧
      ¬ SessionIdExact bareOpen (pendingOpen 0xFFFF0000 0) freshTokens res := by
  obtain ⟨res, returned⟩ := Option.isSome_iff_exists.mp
    (show (tcClientCall bareOpen (pendingOpen 0xFFFF0000 0) freshTokens).isSome = true by
      decide +kernel)
  have test : (tcClientCall bareOpen (pendingOpen 0xFFFF0000 0) freshTokens).all
      (fun res => res.ret == eFAULT && res.op.sessionId == 5) = true := by decide +kernel
  rw [returned, Option.all_some, Bool.and_eq_true, beq_iff_eq, beq_iff_eq] at test
  obtain ⟨ret, id⟩ := test
  refine ⟨res, returned, ret, id, fun exact_ => ?_⟩
  have failed : res.ret ≠ 0 := by
    rw [ret]
    decide
  have zero := exact_.failed failed
  rw [id] at zero
  exact absurd zero (by decide)

end Opened

end ClientCall
