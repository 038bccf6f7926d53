import Tzdriver.ParkedCommand
import Tzdriver.TimestampSync

/-!
# What a call leaves of the client's half of the token

`fill_token_info` and `append_teec_token` write the client's half into the session's token, and
`save_token_info` clears it at its very end, after the token has gone back to the client. A call
whose last reply cannot be post-processed therefore returns with the half that came back in the
pack still in the session: this is so for every command that did not reach the TEE, because its sync
byte is the device's `login_setup`.
-/

namespace ClientCall

open TeecToken

/-- The client's half of the token, bytes 0 to 15, is zero. -/
def TeecCleared (tok : Token) : Prop := ∀ i : Fin 42, i.val < 16 → tok i = 0

instance (tok : Token) : Decidable (TeecCleared tok) :=
  inferInstanceAs (Decidable (∀ i : Fin 42, i.val < 16 → tok i = 0))

/-- The session has a token whose client's half is zero. -/
def SessionCleared (st : TokenState) : Prop := ∃ tok, st.session = some tok ∧ TeecCleared tok

theorem teecCleared_clearTeec (tok : Token) : TeecCleared (clearTeec tok) := by
  intro i hi
  simp [clearTeec, hi]

theorem teecCleared_congr {tok tok' : Token} (same : ∀ i : Fin 42, i.val < 16 → tok' i = tok i) :
    TeecCleared tok' ↔ TeecCleared tok := by
  unfold TeecCleared
  exact forall_congr' fun i => forall_congr' fun hi => by rw [same i hi]

/-- Taking the addition back changes the timestamp only. -/
theorem syncTimestamp_half {cmdId : Nat} {isGlobal : Bool} {tok tok' : Token} {found : Option Key}
    (synced : syncTimestamp cmdId isGlobal tok found = some tok') :
    TeecCleared tok' ↔ TeecCleared tok := by
  have restamped : ∀ b, TeecCleared (setTimestampBytes tok b) ↔ TeecCleared tok := by
    intro b
    refine teecCleared_congr fun i hi => ?_
    have low : ¬ (32 ≤ i.val ∧ i.val < 40) := by omega
    simp [setTimestampBytes, low]
  have cases_ : tok' = tok ∨ ∃ b, tok' = setTimestampBytes tok b := by
    unfold syncTimestamp descramblingTimestamp at synced
    grind
  rcases cases_ with rfl | ⟨b, rfl⟩
  · rfl
  · exact restamped b

section Rounds

variable {p : CallParams} {op : OpParams} {r : Round} {tok : Token}

/-- After a reply to an invoke the half is zero when the token was saved or came back so. -/
theorem postToken_half (invoke : p.global = false) (hasToken : p.context.teecToken = true)
    (cmdId : op.cmdId = r.reply.cmdId) (mailbox : op.tokens.mailbox = r.reply.token)
    (session : op.tokens.session = some tok) :
    ∃ tok', (postToken p r op).2.tokens.session = some tok' ∧
      (TeecCleared tok' ↔ TeecCleared r.reply.token ∨ PostOk p true r) := by
  have posted := (postToken_spec p op cmdId mailbox).1
  rw [session, Option.isSome_some] at posted
  rw [← posted]
  simp only [postToken, postProcessToken, isTokenWork, invoke, Bool.not_false, Bool.true_or,
    Bool.true_eq_false, if_false, hasToken, session, cmdId, mailbox]
  cases synced : syncTimestamp r.reply.cmdId false r.reply.token r.foundKey with
  | none => exact ⟨_, rfl, by simp [eFAULT]⟩
  | some tok' =>
    have half := syncTimestamp_half synced
    simp only
    cases saved : saveTokenInfo p.context.tokenLen tok' r.tokenWrite with
    | none => exact ⟨_, rfl, by simp [eFAULT, half]⟩
    | some out =>
      have cleared : out.2 = clearTeec tok' := by
        unfold saveTokenInfo at saved
        grind
      exact ⟨out.2, rfl, iff_of_true (cleared ▸ teecCleared_clearTeec tok') (Or.inr rfl)⟩

theorem appendToken_failed (failed : (appendToken p r op).1 ≠ 0) :
    (appendToken p r op).2.tokens = op.tokens := by
  simp only [appendToken, appendTeecToken] at failed ⊢
  grind

/-- A command that was sent again and stored leaves the half zero; so does one that was not
sent again. Only replies that are post-processed count. -/
def PendingClears (p : CallParams) : Nat → List Round → Prop
  | _, [] => True
  | teeRet, r :: rest => teeRet = teecPending → AppendOk p true r →
      (TeecCleared r.reply.token ∨ PostOk p true r) ∧
        (PostOk p true r → PendingClears p r.reply.ret rest)

theorem pendingClears_of_final {teeRet : Nat} (final : teeRet ≠ teecPending)
    {rounds : List Round} : PendingClears p teeRet rounds := by
  cases rounds with
  | nil => trivial
  | cons r rest => exact fun pending => absurd pending final

/-- The round of the pending loop after the client's token was read. -/
theorem pendingRound_half (invoke : p.global = false) (hasToken : p.context.teecToken = true)
    {r : Round} (session : op.tokens.session = some tok) (sent : (appendToken p r op).1 = 0) :
    AppendOk p true r ∧
      ((postToken p r (sendSmc (appendToken p r op).2 r.reply)).1 = 0 ↔ PostOk p true r) ∧
      ∃ tok', (postToken p r (sendSmc (appendToken p r op).2 r.reply)).2.tokens.session =
        some tok' ∧ (TeecCleared tok' ↔ TeecCleared r.reply.token ∨ PostOk p true r) := by
  obtain ⟨appended, -, hsession⟩ := appendToken_spec p op r
  rw [session, Option.isSome_some] at appended hsession
  obtain ⟨stored, hstored⟩ := Option.isSome_iff_exists.mp hsession
  have before : (sendSmc (appendToken p r op).2 r.reply).tokens.session = some stored := hstored
  have posted := (postToken_spec p (sendSmc (appendToken p r op).2 r.reply) (r := r) rfl rfl).1
  have there : (sendSmc (appendToken p r op).2 r.reply).tokens.session.isSome = true := hsession
  rw [there] at posted
  exact ⟨appended.mp sent, posted, postToken_half (r := r) invoke hasToken rfl rfl before⟩

theorem handleTaPending_half (invoke : p.global = false) (hasToken : p.context.teecToken = true)
    {rounds : List Round} {teeRet teeRet' : Nat} {op' : OpParams} {ret : Int}
    (session : op.tokens.session = some tok) (cleared : TeecCleared tok)
    (done : handleTaPending p teeRet rounds op = some (ret, teeRet', op')) :
    ∃ tok', op'.tokens.session = some tok' ∧ (TeecCleared tok' ↔ PendingClears p teeRet rounds) := by
  replace done := handleTaPending_loop done
  induction done generalizing tok with
  | final final => exact ⟨tok, session, iff_of_true cleared (pendingClears_of_final final)⟩
  | @unread teeRet r rest op pending failed =>
    -- the client's token cannot be read, and the session's is as it was
    obtain ⟨appended, -, -⟩ := appendToken_spec p op r
    rw [session, Option.isSome_some] at appended
    refine ⟨tok, ?_, iff_of_true cleared fun _ ok => absurd (appended.mpr ok) failed⟩
    rw [appendToken_failed failed, session]
  | @unsaved teeRet r rest op pending sent failed =>
    obtain ⟨append, posted, tok', here, half⟩ := pendingRound_half invoke hasToken session sent
    have notPosted : ¬ PostOk p true r := fun h => failed (posted.mpr h)
    refine ⟨tok', here, half.trans ?_⟩
    simp only [PendingClears, pending, append, notPosted, forall_const, or_false,
      false_implies, and_true]
  | @again teeRet teeRet' r rest op op' ret pending sent saved _ ih =>
    obtain ⟨append, posted, tok', here, half⟩ := pendingRound_half invoke hasToken session sent
    have ok := posted.mp saved
    obtain ⟨last, ended, clears⟩ := ih here (half.mpr (Or.inr ok))
    refine ⟨last, ended, clears.trans ?_⟩
    simp only [PendingClears, pending, append, ok, forall_const, or_true, true_and]

/-- The same from the first SMC on. -/
def CallClears (p : CallParams) (env : CallEnv) : Prop :=
  (TeecCleared env.first.reply.token ∨ PostOk p true env.first) ∧
    (PostOk p true env.first → PendingClears p env.first.reply.ret env.more)

theorem resetSessionId_frame (op : OpParams) (teeRet : Nat) :
    (resetSessionId p op teeRet).tokens = op.tokens ∧
      (resetSessionId p op teeRet).cmdId = op.cmdId := by
  unfold resetSessionId
  split <;> exact ⟨rfl, rfl⟩

theorem smcRounds_half (invoke : p.global = false) (hasToken : p.context.teecToken = true)
    {env : CallEnv} {op' : OpParams} {ret : Int} {teeRet : Nat}
    (session : op.tokens.session = some tok)
    (done : smcRounds p env op = some (ret, teeRet, op')) :
    ∃ tok', op'.tokens.session = some tok' ∧ (TeecCleared tok' ↔ CallClears p env) := by
  obtain ⟨tokens, cmdId⟩ := resetSessionId_frame (p := p) (sendSmc op env.first.reply)
    env.first.reply.ret
  have mailbox := congrArg TokenState.mailbox tokens
  have before : (resetSessionId p (sendSmc op env.first.reply)
      env.first.reply.ret).tokens.session = some tok := (congrArg TokenState.session tokens).trans session
  obtain ⟨tok', here, half⟩ := postToken_half (r := env.first) invoke hasToken cmdId mailbox before
  have posted := (postToken_spec p _ (r := env.first) cmdId mailbox).1
  rw [before, Option.isSome_some] at posted
  unfold smcRounds at done
  simp only at done
  split at done
  · rename_i failed
    simp only [Option.some.injEq, Prod.mk.injEq] at done
    obtain ⟨rfl, rfl, rfl⟩ := done
    have notPosted : ¬ PostOk p true env.first := fun h => failed (posted.mpr h)
    refine ⟨tok', here, half.trans ?_⟩
    simp only [CallClears, notPosted, or_false, false_implies, and_true]
  · rename_i saved
    rw [not_not] at saved
    have ok := posted.mp saved
    obtain ⟨last, ended, clears⟩ :=
      handleTaPending_half invoke hasToken here (half.mpr (Or.inr ok)) done
    refine ⟨last, ended, clears.trans ?_⟩
    simp only [CallClears, ok, or_true, true_and, forall_const]

end Rounds

section Calls

variable {p : CallParams} {env : CallEnv}

theorem afterConfig_tokens {op : OpParams} {res : CallResult} (done : afterConfig p env op = some res) :
    ∃ ret teeRet op', smcRounds p env op = some (ret, teeRet, op') ∧
      (ret = 0 ∨ res.ret = ret) ∧ res.op.tokens = op'.tokens := by
  unfold afterConfig at done
  split at done
  · cases done
  · rename_i ret teeRet op' rounds
    refine ⟨ret, teeRet, op', rounds, ?_⟩
    split at done
    · obtain rfl := Option.some.inj done
      exact ⟨Or.inr rfl, freeSrc_tokens _ _⟩
    · rename_i ok
      rw [not_not] at ok
      have eq : freeSrc p (postProcSmcReturn p env teeRet op').1 teeRet
          (postProcSmcReturn p env teeRet op').2 = res := Option.some.inj done
      refine ⟨Or.inl ok, ?_⟩
      rw [← eq, freeSrc_tokens, postProcSmcReturn_tokens]

/-- The parameters are copied in without the tokens; then the command is configured. -/
theorem beforeSmc_cases (p : CallParams) (env : CallEnv) (op : OpParams) :
    ((beforeSmc p env op).1 ≠ 0 ∧ (beforeSmc p env op).2.tokens = op.tokens) ∨
      ∃ op', op'.tokens = op.tokens ∧ beforeSmc p env op = configSmcCmdContext p env op' := by
  have alloc := allocOperation_tokens p env.param op
  unfold beforeSmc
  simp only
  split
  · split
    · rename_i failed
      exact Or.inl ⟨failed, alloc⟩
    · exact Or.inr ⟨_, alloc, rfl⟩
  · rw [if_neg (by simp)]
    exact Or.inr ⟨op, rfl, rfl⟩

/-- Up to the first SMC of an invoke the session's token changes only when the command is then
sent, which needs a token of the client. -/
theorem beforeSmc_half (env : CallEnv) (invoke : p.global = false) (op : OpParams) {tok : Token}
    (session : op.tokens.session = some tok) :
    ((beforeSmc p env op).1 ≠ 0 → (beforeSmc p env op).2.tokens.session = some tok) ∧
      ((beforeSmc p env op).1 = 0 → p.context.teecToken = true) := by
  rcases beforeSmc_cases p env op with ⟨failed, same⟩ | ⟨op', same, configured⟩
  · exact ⟨fun _ => by rw [same, session], fun ok => absurd ok failed⟩
  · rw [← same] at session
    rw [configured]
    simp only [configSmcCmdContext, checkLoginForEncrypt, loadSecurityEnhanceInfo, isTokenWork,
      fillTokenInfo, invoke]
    grind [eFAULT, eINVAL]

/-- A returned invoke leaves the half zero exactly when it was not sent or its replies could be
post-processed. -/
theorem tcClientCall_half (invoke : p.global = false) {tokens : TokenState} {res : CallResult}
    (cleared : SessionCleared tokens) (returned : tcClientCall p env tokens = some res) :
    ∃ tok, res.op.tokens.session = some tok ∧
      (TeecCleared tok ↔ (Submits p env tokens → CallClears p env)) := by
  obtain ⟨tok, session, half⟩ := cleared
  unfold tcClientCall at returned
  simp only at returned
  split at returned
  · rename_i noCmd
    obtain rfl := Option.some.inj returned
    exact ⟨tok, session, iff_of_true half fun sent => absurd sent.1 (by simp [noCmd])⟩
  · rename_i cmd
    rw [Bool.not_eq_false] at cmd
    split at returned
    · rename_i noPack
      obtain rfl := Option.some.inj returned
      refine ⟨tok, session, iff_of_true half ?_⟩
      rintro ⟨-, pack, hpack, -⟩
      rw [noPack] at hpack
      cases hpack
    · rename_i pack hpack
      obtain ⟨refused, sent⟩ := beforeSmc_half env invoke (startOp p pack tokens) session
      have submits_iff : Submits p env tokens ↔ (beforeSmc p env (startOp p pack tokens)).1 = 0 := by
        simp [Submits, cmd, hpack]
      rw [submits_iff]
      split at returned
      · rename_i failed
        obtain rfl := Option.some.inj returned
        rw [freeSrc_tokens]
        exact ⟨tok, refused failed, iff_of_true half fun ok => absurd ok failed⟩
      · rename_i ok
        rw [not_not] at ok
        have there := beforeSmc_session p env (startOp p pack tokens)
        rw [show (startOp p pack tokens).tokens.session = some tok from session,
          Option.isSome_some] at there
        obtain ⟨filled, hfilled⟩ := Option.isSome_iff_exists.mp there
        obtain ⟨ret, teeRet, op', rounds, -, same⟩ := afterConfig_tokens returned
        obtain ⟨last, ended, clears⟩ := smcRounds_half invoke (sent ok) hfilled rounds
        refine ⟨last, same ▸ ended, clears.trans ?_⟩
        simp only [ok, forall_const]

/-- A token that was saved, and one that was left alone, keep the half zero. -/
theorem postToken_cleared {r : Round} {op : OpParams} (cleared : SessionCleared op.tokens)
    (saved : (postToken p r op).1 = 0) : SessionCleared (postToken p r op).2.tokens := by
  obtain ⟨tok, session, half⟩ := cleared
  simp only [postToken, postProcessToken] at saved ⊢
  by_cases idle : isTokenWork p.global op.cmdId = false
  · simp only [if_pos idle]
    exact ⟨tok, session, half⟩
  · by_cases noToken : p.context.teecToken = false
    · simp [if_neg idle, noToken, eINVAL] at saved
    · simp only [if_neg idle, if_neg noToken, session] at saved ⊢
      cases synced : syncTimestamp op.cmdId p.global op.tokens.mailbox r.foundKey with
      | none => simp [synced, eFAULT] at saved
      | some tok' =>
        simp only [synced] at saved ⊢
        cases out : saveTokenInfo p.context.tokenLen tok' r.tokenWrite with
        | none => simp [out, eFAULT] at saved
        | some pair =>
          have cleared : pair.2 = clearTeec tok' := by
            unfold saveTokenInfo at out
            grind
          exact ⟨pair.2, rfl, cleared ▸ teecCleared_clearTeec tok'⟩

theorem handleTaPending_cleared (global : p.global = true) {rounds : List Round}
    {teeRet teeRet' : Nat} {op op' : OpParams} (cleared : SessionCleared op.tokens)
    (done : handleTaPending p teeRet rounds op = some (0, teeRet', op')) :
    SessionCleared op'.tokens := by
  replace done := handleTaPending_loop done
  generalize zero : (0 : Int) = ret at done
  induction done with
  | final => exact cleared
  | @unread teeRet r rest op pending failed =>
    exact absurd (by simp [appendToken, appendTeecToken, global]) failed
  | unsaved pending sent failed => exact absurd zero.symm failed
  | @again teeRet teeRet' r rest op op' ret pending sent saved _ ih =>
    have append : (appendToken p r op).2 = op := by
      simp [appendToken, appendTeecToken, global]
    have resent : SessionCleared (sendSmc (appendToken p r op).2 r.reply).tokens := by
      rw [append]
      exact cleared
    exact ih (postToken_cleared resent saved) zero

theorem smcRounds_cleared (global : p.global = true) {op op' : OpParams} {teeRet : Nat}
    (cleared : SessionCleared op.tokens)
    (done : smcRounds p env op = some (0, teeRet, op')) : SessionCleared op'.tokens := by
  have sent : SessionCleared (resetSessionId p (sendSmc op env.first.reply)
      env.first.reply.ret).tokens := by
    rw [(resetSessionId_frame _ _).1]
    exact cleared
  unfold smcRounds at done
  simp only at done
  split at done
  · rename_i failed
    simp only [Option.some.injEq, Prod.mk.injEq] at done
    exact absurd done.1 failed
  · rename_i saved
    rw [not_not] at saved
    exact handleTaPending_cleared global (postToken_cleared sent saved) done

theorem configSmcCmdContext_cleared (global : p.global = true) {op : OpParams}
    (cleared : SessionCleared op.tokens) :
    SessionCleared (configSmcCmdContext p env op).2.tokens := by
  have zero : TeecCleared zeroToken := fun _ _ => rfl
  have kept : ∀ ts : TokenState, ts.session = op.tokens.session ∨ ts.session = some zeroToken →
      SessionCleared ts := by
    obtain ⟨tok, session, half⟩ := cleared
    rintro ts (same | blank)
    · exact ⟨tok, same.trans session, half⟩
    · exact ⟨zeroToken, blank, zero⟩
  apply kept
  simp only [configSmcCmdContext, loadSecurityEnhanceInfo, fillTokenInfo, isTokenWork, global]
  grind [globalCmdIdOpenSession, globalCmdIdCloseSession]

/-- A successful open leaves a token without the client's half. -/
theorem opened_cleared (opens : p.global = true) {tokens : TokenState} {res : CallResult}
    (cleared : SessionCleared tokens) (returned : tcClientCall p env tokens = some res)
    (ok : res.ret = 0) : SessionCleared res.op.tokens := by
  unfold tcClientCall at returned
  simp only at returned
  split at returned
  · obtain rfl := Option.some.inj returned
    exact cleared
  · split at returned
    · obtain rfl := Option.some.inj returned
      exact cleared
    · rename_i pack hpack
      split at returned
      · rename_i failed
        obtain rfl := Option.some.inj returned
        exact absurd ok failed
      · rename_i sent
        have configured : SessionCleared (beforeSmc p env (startOp p pack tokens)).2.tokens := by
          rcases beforeSmc_cases p env (startOp p pack tokens) with ⟨failed, -⟩ | ⟨op, same, eq⟩
          · exact absurd failed sent
          · rw [eq]
            exact configSmcCmdContext_cleared opens (same ▸ cleared)
        obtain ⟨ret, teeRet, op', rounds, hret, same⟩ := afterConfig_tokens returned
        obtain rfl : ret = 0 := hret.elim id fun h => h.symm.trans ok
        rw [same]
        exact smcRounds_cleared opens configured rounds

end Calls

/-- An invoke with what it meets. -/
structure InvokeCall where
  p : CallParams
  env : CallEnv
  invoke : p.global = false

/-- The tokens of the session after the call, if it returns; its pack is new. -/
def InvokeCall.run (c : InvokeCall) (st : TokenState) : Option TokenState :=
  (tcClientCall c.p c.env { st with mailbox := zeroToken }).map fun res => res.op.tokens

/-- The tokens after each call that returned. -/
def invokeStates : List InvokeCall → TokenState → List TokenState
  | [], _ => []
  | c :: rest, st =>
    match c.run st with
    | none => []
    | some st => st :: invokeStates rest st

/-- Every call that reaches the TEE gets replies it can post-process. -/
def EachClears : List InvokeCall → TokenState → Prop
  | [], _ => True
  | c :: rest, st =>
    match c.run st with
    | none => True
    | some st' =>
      (Submits c.p c.env { st with mailbox := zeroToken } → CallClears c.p c.env) ∧
        EachClears rest st'

/-- On a session that was opened, every invoke that returns leaves the client's half of the token
zero exactly when every reply to a call that was sent either comes back without the half or can be
post-processed. -/
theorem client_half_cleared_iff {po : CallParams} {eo : CallEnv} {ro : CallResult}
    (opens : po.global = true) (opened : tcClientCall po eo freshTokens = some ro)
    (ok : ro.ret = 0) (calls : List InvokeCall) :
    (∀ st ∈ invokeStates calls ro.op.tokens, SessionCleared st) ↔
      EachClears calls ro.op.tokens := by
  have start : SessionCleared ro.op.tokens :=
    opened_cleared opens ⟨zeroToken, rfl, fun _ _ => rfl⟩ opened ok
  generalize ro.op.tokens = st at start
  induction calls generalizing st with
  | nil => exact iff_of_true nofun trivial
  | cons c rest ih =>
    rw [invokeStates, EachClears]
    cases ran : c.run st with
    | none => exact iff_of_true nofun trivial
    | some st' =>
      obtain ⟨res, returned, rfl⟩ := Option.map_eq_some_iff.mp ran
      have fresh : SessionCleared { st with mailbox := zeroToken } := start
      obtain ⟨tok, session, half⟩ := tcClientCall_half c.invoke fresh returned
      have cleared_iff : SessionCleared res.op.tokens ↔
          (Submits c.p c.env { st with mailbox := zeroToken } → CallClears c.p c.env) := by
        rw [← half, SessionCleared, session]
        simp
      simp only [List.forall_mem_cons]
      rw [cleared_iff]
      exact and_congr_right fun clears => ih res.op.tokens (cleared_iff.mpr clears)

/-- An open without parameters. -/
def plainOpen : CallParams where
  dev := ⟨1, ⟨0, false⟩, 0, []⟩
  context := { uuid := 7, sessionId := 0, cmdId := globalCmdIdOpenSession, paramTypes := 0,
               params := fun _ => ⟨0, 0⟩, teecToken := true, tokenLen := 24 }
  sess := true
  global := true

def openGranted : CallEnv where
  mbPack := some 4096
  first := { reply := { ret := 0, cmdId := globalCmdIdOpenSession, contextId := 3 } }
  memcpyS := fun destMax count => decide (count ≤ destMax)

/-- The session that `plainOpen` opens. -/
def openedTokens : TokenState :=
  ((tcClientCall plainOpen openGranted freshTokens).map fun res => res.op.tokens).getD freshTokens

theorem plainOpen_ok : ∃ res, tcClientCall plainOpen openGranted freshTokens = some res ∧
    res.ret = 0 ∧ res.op.tokens = openedTokens := by
  obtain ⟨res, returned⟩ := Option.isSome_iff_exists.mp
    (show (tcClientCall plainOpen openGranted freshTokens).isSome = true by decide +kernel)
  have zero : (tcClientCall plainOpen openGranted freshTokens).all (fun res => res.ret == 0) =
      true := by decide +kernel
  rw [returned, Option.all_some, beq_iff_eq] at zero
  refine ⟨res, returned, zero, ?_⟩
  rw [openedTokens, returned, Option.map_some, Option.getD_some]

theorem parkedOnce_clears : CallClears plainInvoke (parkedOnce true) := by
  have posted : ∀ r : Round, syncByte r.reply.token = isSynced → r.tokenWrite = true →
      PostOk plainInvoke true r :=
    fun r synced written _ => ⟨rfl, rfl, Or.inr (Or.inr synced), rfl, written⟩
  refine ⟨Or.inr (posted _ rfl rfl), fun _ _ _ => ⟨Or.inr (posted _ rfl rfl), fun _ => trivial⟩⟩

/-- The TEE parks the command once and takes the token both times. -/
theorem client_half_cleared_parked :
    (invokeStates [⟨plainInvoke, parkedOnce true, rfl⟩] openedTokens).length = 1 ∧
    ∀ st ∈ invokeStates [⟨plainInvoke, parkedOnce true, rfl⟩] openedTokens, SessionCleared st := by
  obtain ⟨res, returned, ok, tokens⟩ := plainOpen_ok
  refine ⟨by decide +kernel, ?_⟩
  rw [← tokens]
  refine (client_half_cleared_iff rfl returned ok _).mpr ?_
  rw [EachClears]
  split
  · trivial
  · exact ⟨fun _ => parkedOnce_clears, trivial⟩

/-- The client's half consists of the byte `0xab`. -/
def clientToken : ClientToken := fun i => if i.val < 16 then 0xab else 0

/-- The TEE has crashed: the command is not sent, and the pack keeps the token. -/
def crashed : CallEnv where
  mbPack := some 4096
  tokenRead := some clientToken
  first := { reply := { ret := teecErrorGeneric, processed := false, cmdId := 9, contextId := 3,
                        token := putTeec zeroToken clientToken } }
  memcpyS := fun destMax count => decide (count ≤ destMax)

/-- The call to the crashed TEE returns with the client's half in the session. -/
theorem crashed_keeps_half :
    (beforeSmc plainInvoke crashed (startOp plainInvoke 4096 openedTokens)).2.tokens.mailbox =
      crashed.first.reply.token ∧
    ∃ tok, (invokeStates [⟨plainInvoke, crashed, rfl⟩] openedTokens).map TokenState.session =
      [some tok] ∧ ¬ TeecCleared tok := by
  refine ⟨by decide +kernel, ?_⟩
  have kept : (invokeStates [⟨plainInvoke, crashed, rfl⟩] openedTokens).map TokenState.session =
      [some (putTeec zeroToken clientToken)] := by decide +kernel
  exact ⟨_, kept, by decide +kernel⟩

end ClientCall
