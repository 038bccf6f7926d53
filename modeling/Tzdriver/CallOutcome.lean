import Tzdriver.CopyOut
import Tzdriver.ParkedCommand

/-!
# The outcome of a call to the TEE

For a global command (`TC_CALL_GLOBAL`): which replies a call gets to see, when it returns
0, and the session id it leaves with the caller. A command is sent again after each reply
`TEEC_PENDING` whose token was stored, so that the last reply is the only one that can be
final.
-/

namespace ClientCall

open Function TeecToken TraceExtension

section Sent

variable (p : CallParams) (session : Bool)

/-- `x` is one of the rounds of a call that sends `r` and has `rest` ahead. -/
inductive Sent : Round → List Round → Round → Prop
  | here {r rest} : Sent r rest r
  | later {r next rest x} : r.reply.ret = teecPending → PostOk p session r →
      Sent next rest x → Sent r (next :: rest) x

variable {p session}

theorem sent_nil {r x : Round} : Sent p session r [] x ↔ x = r := by
  constructor
  · rintro ⟨⟩
    rfl
  · rintro rfl
    exact .here

theorem sent_cons {r next x : Round} {rest : List Round} :
    Sent p session r (next :: rest) x ↔ x = r ∨
      (r.reply.ret = teecPending ∧ PostOk p session r) ∧ Sent p session next rest x := by
  constructor
  · intro sent
    cases sent with
    | here => exact Or.inl rfl
    | later pending posted later => exact Or.inr ⟨⟨pending, posted⟩, later⟩
  · rintro (rfl | ⟨⟨pending, posted⟩, later⟩)
    · exact .here
    · exact .later pending posted later

theorem sent_final {r x : Round} {rest : List Round}
    (final : ¬ (r.reply.ret = teecPending ∧ PostOk p session r)) :
    Sent p session r rest x ↔ x = r := by
  cases rest with
  | nil => exact sent_nil
  | cons next rest => simp [sent_cons, final]

/-- A call has one final round. -/
theorem Sent.unique {r x y : Round} {rest : List Round} (hx : Sent p session r rest x)
    (hy : Sent p session r rest y) (xFinal : x.reply.ret ≠ teecPending)
    (yFinal : y.reply.ret ≠ teecPending) : x = y := by
  induction hx with
  | here =>
    cases hy with
    | here => rfl
    | later pending _ _ => exact absurd pending xFinal
  | later pending _ _ ih =>
    cases hy with
    | here => exact absurd pending yFinal
    | later _ _ next => exact ih next xFinal

end Sent

def Round.event (x : Round) : Event :=
  .smc x.reply.ret x.reply.processed x.reply.cmdId x.reply.contextId

/-- The rounds that started with `r` have come to their end at `x`. -/
structure Ended (p : CallParams) (session : Bool) (r : Round) (rest : List Round)
    (before after : OpParams) (ret : Int) (teeRet : Nat) (x : Round) : Prop where
  sent : Sent p session r rest x
  last : ∀ y, Sent p session r rest y → y = x ∨ y.reply.ret = teecPending
  ret : ret = 0 ↔ PostOk p session x
  teeRet : teeRet = x.reply.ret
  sizes : after.memrefSize = x.reply.opSize
  sessionId : after.sessionId = before.sessionId
  smcs : ∀ y, Round.event y ∈ after.trace ↔
    Round.event y ∈ before.trace ∨ ∃ z, Sent p session r rest z ∧ Round.event y = Round.event z

section Rounds

variable {p : CallParams} {session : Bool} {r next x : Round} {rest : List Round}
  {op mid op' : OpParams} {ret : Int} {teeRet : Nat}

theorem ended_here (final : ¬ (r.reply.ret = teecPending ∧ PostOk p session r))
    (stored : ret = 0 ↔ PostOk p session r) (sizes : op.memrefSize = r.reply.opSize)
    (logged : r.event ∈ op.trace) : Ended p session r rest op op ret r.reply.ret r := by
  have only : ∀ y, Sent p session r rest y ↔ y = r := fun y => sent_final final
  refine ⟨.here, fun y hy => Or.inl ((only y).1 hy), stored, rfl, sizes, rfl, fun y => ?_⟩
  constructor
  · exact Or.inl
  · rintro (old | ⟨z, hz, same⟩)
    · exact old
    · rw [same, (only z).1 hz]
      exact logged

theorem ended_later (pending : r.reply.ret = teecPending) (posted : PostOk p session r)
    (logged : r.event ∈ op.trace) (trace : mid.trace = op.trace ++ [next.event])
    (sessionId : mid.sessionId = op.sessionId)
    (ended : Ended p session next rest mid op' ret teeRet x) :
    Ended p session r (next :: rest) op op' ret teeRet x := by
  refine ⟨.later pending posted ended.sent, fun y hy => ?_, ended.ret, ended.teeRet, ended.sizes,
    ended.sessionId.trans sessionId, fun y => ?_⟩
  · rcases sent_cons.1 hy with rfl | ⟨-, later⟩
    · exact Or.inr pending
    · exact ended.last y later
  · rw [ended.smcs y, trace]
    constructor
    · rintro (old | ⟨z, hz, same⟩)
      · rcases List.mem_append.1 old with old | new
        · exact Or.inl old
        · exact Or.inr ⟨next, .later pending posted .here, List.mem_singleton.1 new⟩
      · exact Or.inr ⟨z, .later pending posted hz, same⟩
    · rintro (old | ⟨z, hz, same⟩)
      · exact Or.inl (List.mem_append_left _ old)
      · rcases sent_cons.1 hz with rfl | ⟨-, later⟩
        · exact Or.inl (List.mem_append_left _ (same ▸ logged))
        · exact Or.inr ⟨z, later, same⟩

/-- The token step after the command was sent again. -/
theorem resent_spec {r : Round} (token : op.tokens.session.isSome = session) :
    ((postToken p r (sendSmc (appendToken p r op).2 r.reply)).1 = 0 ↔ PostOk p session r) ∧
      (postToken p r (sendSmc (appendToken p r op).2 r.reply)).2.trace = op.trace ++ [r.event] ∧
      (postToken p r (sendSmc (appendToken p r op).2 r.reply)).2.tokens.session.isSome =
        session := by
  obtain ⟨-, -, hsession⟩ := appendToken_spec p op r
  obtain ⟨stored, -, hsession'⟩ := postToken_spec p
    (sendSmc (appendToken p r op).2 r.reply) (r := r) rfl rfl
  have session' : (sendSmc (appendToken p r op).2 r.reply).tokens.session.isSome = session :=
    hsession.trans token
  rw [session'] at stored hsession'
  exact ⟨stored, rfl, hsession'⟩

theorem handleTaPending_ended (global : p.global = true)
    (done : handleTaPending p r.reply.ret rest op = some (ret, teeRet, op'))
    (posted : PostOk p session r) (token : op.tokens.session.isSome = session)
    (sizes : op.memrefSize = r.reply.opSize) (logged : r.event ∈ op.trace) :
    ∃ x, Ended p session r rest op op' ret teeRet x := by
  replace done := handleTaPending_loop done
  generalize last : r.reply.ret = teeRet₀ at done
  induction done generalizing r with
  | final final =>
    subst last
    exact ⟨r, ended_here (fun h => final h.1) (by simp [posted]) sizes logged⟩
  | @unread teeRet next rest op pending failed =>
    obtain ⟨appended, _⟩ := appendToken_spec p op next
    exact absurd (appended.2 (Or.inl global)) failed
  | @unsaved teeRet next rest op pending sent failed =>
    obtain ⟨stored, trace, _⟩ := resent_spec (p := p) token (r := next)
    have notPosted := fun h => failed (stored.2 h)
    refine ⟨next, ended_later (last.trans pending) posted logged trace rfl ?_⟩
    exact ended_here (fun h => notPosted h.2) stored rfl (by simp [trace])
  | @again teeRet teeRet' next rest op op' ret pending sent saved _ ih =>
    obtain ⟨stored, trace, token'⟩ := resent_spec (p := p) token (r := next)
    obtain ⟨x, ended⟩ := ih (stored.1 saved) token' rfl (by simp [trace]) rfl
    exact ⟨x, ended_later (last.trans pending) posted logged trace rfl ended⟩

/-- `reset_session_id`, for an open that the TEE does not refuse, or a close. -/
theorem resetSessionId_eq (op : OpParams) (teeRet : Nat)
    (kept : p.context.cmdId = globalCmdIdOpenSession → teeRet = 0 ∨ teeRet = teecPending) :
    resetSessionId p op teeRet = { op with sessionId := op.contextId } := by
  unfold resetSessionId
  split
  · rename_i reset
    obtain ⟨-, open_, nonzero, final⟩ := reset
    rcases kept open_ with zero | pending
    · exact absurd zero nonzero
    · exact absurd pending final
  · rfl

theorem smcRounds_ended (global : p.global = true) {env : CallEnv}
    (done : smcRounds p env op = some (ret, teeRet, op'))
    (token : op.tokens.session.isSome = session) :
    ∃ x, Ended p session env.first env.more
      (resetSessionId p (sendSmc op env.first.reply) env.first.reply.ret) op' ret teeRet x := by
  have same : (resetSessionId p (sendSmc op env.first.reply) env.first.reply.ret).trace =
      op.trace ++ [env.first.event] ∧
      (resetSessionId p (sendSmc op env.first.reply) env.first.reply.ret).tokens =
        (sendSmc op env.first.reply).tokens ∧
      (resetSessionId p (sendSmc op env.first.reply) env.first.reply.ret).cmdId =
        env.first.reply.cmdId ∧
      (resetSessionId p (sendSmc op env.first.reply) env.first.reply.ret).memrefSize =
        env.first.reply.opSize := by
    unfold resetSessionId
    split <;> exact ⟨rfl, rfl, rfl, rfl⟩
  unfold smcRounds at done
  simp only at done
  generalize resetSessionId p (sendSmc op env.first.reply) env.first.reply.ret = start
    at same done ⊢
  obtain ⟨trace, tokens, cmdId, sizes⟩ := same
  have session' : start.tokens.session.isSome = session := by rw [tokens]; exact token
  obtain ⟨stored, htrace, hsession⟩ := postToken_spec p start cmdId (by rw [tokens]; rfl)
  rw [session'] at stored hsession
  have logged : env.first.event ∈ (postToken p env.first start).2.trace := by
    rw [htrace, trace]
    simp
  -- the token step changes only the tokens
  have start_ended : ∀ {rest x}, Ended p session env.first rest (postToken p env.first start).2
      op' ret teeRet x → Ended p session env.first rest start op' ret teeRet x :=
    fun ended => { ended with }
  split at done
  · rename_i failed
    simp only [Option.some.injEq, Prod.mk.injEq] at done
    obtain ⟨rfl, rfl, rfl⟩ := done
    exact ⟨env.first, start_ended (ended_here (fun h => failed (stored.2 h.2)) stored sizes logged)⟩
  · rename_i fine
    rw [not_not] at fine
    obtain ⟨x, ended⟩ := handleTaPending_ended global done (stored.1 fine) hsession sizes logged
    exact ⟨x, start_ended ended⟩

end Rounds

section Outputs

variable (p : CallParams) (env : CallEnv) (x : Round)

/-- What the client's memory has to allow so that the output `i` of the reply gets there. -/
structure OutputOk (i : Nat) : Prop where
  tmp : teecTmpmemType (p.paramType i) .output = true →
    (env.param i).sizeWrite = true ∧
      (∃ size, (env.param i).sizeRead = some size ∧ x.reply.opSize i ≤ size) ∧
      ((env.param i).writeTmpbuf (p.context.params i).buffer (x.reply.opSize i)).1 = true
  ref : teecMemrefType (p.paramType i) .output = true →
    (env.param i).sizeWrite = true ∧ ∃ size, (env.param i).sizeReRead = some size ∧
      (x.reply.opSize i ≤ size → ∀ shm, sharedMemOf p i = some shm →
        env.memcpyS ((2 ^ 64 + shm.len - (p.context.params i).offset) % 2 ^ 64)
          (x.reply.opSize i) = true)
  value : teecValueType (p.paramType i) .output = true →
    (env.param i).valueAWrite = true ∧ (env.param i).valueBWrite = true

def OutputsOk : Prop := p.context.paramTypes ≠ 0 → ∀ i, i < teeParamNum → OutputOk p env x i

variable {p env x} {op : OpParams} {i : Nat}

theorem updateTmpMem_ok_iff {e : ParamEnv} {buf : TempBuf} (allocated : op.localTmpbuf i = some buf) :
    (updateTmpMem p e true op i).1 = 0 ↔
      e.sizeWrite = true ∧ op.memrefSize i ≤ buf.size ∧
        (e.writeTmpbuf (p.context.params i).buffer (op.memrefSize i)).1 = true := by
  unfold updateTmpMem
  simp only [allocated, Option.map_some, Option.getD_some]
  grind [neg_eFAULT, neg_eNOMEM]

theorem updateForRefMem_ok_iff {e : ParamEnv} {addr : Nat} {shm : SharedMem}
    (buffer : op.mbBuffer i = some addr) (shared : op.sharemem i = some shm) :
    (updateForRefMem p env.memcpyS e op i).1 = 0 ↔
      e.sizeWrite = true ∧ ∃ size, e.sizeReRead = some size ∧
        (op.memrefSize i ≤ size →
          env.memcpyS ((2 ^ 64 + shm.len - (p.context.params i).offset) % 2 ^ 64)
            (op.memrefSize i) = true) := by
  unfold updateForRefMem
  simp only [buffer, shared]
  grind [neg_eFAULT]

theorem updateForValue_ok_iff {e : ParamEnv} :
    (updateForValue e op).1 = 0 ↔ e.valueAWrite = true ∧ e.valueBWrite = true := by
  unfold updateForValue
  grind [neg_eFAULT]

theorem updateParam_ok_iff (prepared : PreparedAt p env.param op i)
    (sizes : op.memrefSize = x.reply.opSize) :
    (updateParam p env true op i).1 = 0 ↔ OutputOk p env x i := by
  unfold updateParam
  split
  · rename_i tmp
    obtain ⟨buf, allocated, read⟩ := prepared.tmp tmp
    have notRef : teecMemrefType (p.paramType i) .output = false := by
      rcases teecTmpmemType_output.1 tmp with h | h <;> rw [h] <;> decide
    have notValue : teecValueType (p.paramType i) .output = false := by
      rcases teecTmpmemType_output.1 tmp with h | h <;> rw [h] <;> decide
    rw [updateTmpMem_ok_iff allocated, sizes]
    constructor
    · rintro ⟨written, fits, copied⟩
      exact ⟨fun _ => ⟨written, ⟨buf.size, read, fits⟩, copied⟩, by simp [notRef],
        by simp [notValue]⟩
    · intro ok
      obtain ⟨written, ⟨size, hsize, fits⟩, copied⟩ := ok.tmp tmp
      rw [read, Option.some.injEq] at hsize
      exact ⟨written, hsize ▸ fits, copied⟩
  · rename_i notTmp
    split
    · rename_i ref
      obtain ⟨addr, shm, size, buffer, shared, -, found⟩ := prepared.ref ref
      have notValue : teecValueType (p.paramType i) .output = false := by
        rcases teecMemrefType_output.1 ref with h | h <;> rw [h] <;> decide
      rw [updateForRefMem_ok_iff buffer shared, sizes]
      constructor
      · rintro ⟨written, s, read, copied⟩
        refine ⟨fun tmp => absurd tmp notTmp, fun _ => ⟨written, s, read, ?_⟩, by simp [notValue]⟩
        rintro fits m hm
        obtain rfl := Option.some.inj (found.symm.trans hm)
        exact copied fits
      · intro ok
        obtain ⟨written, s, read, copied⟩ := ok.ref ref
        exact ⟨written, s, read, fun fits => copied fits shm found⟩
    · rename_i notRef
      simp only [Bool.true_and]
      split
      · rename_i value
        rw [updateForValue_ok_iff]
        constructor
        · intro written
          exact ⟨fun tmp => absurd tmp notTmp, fun ref => absurd ref notRef, fun _ => written⟩
        · intro ok
          exact ok.value value
      · rename_i notValue
        simp only [true_iff]
        exact ⟨fun tmp => absurd tmp notTmp, fun ref => absurd ref notRef,
          fun value => absurd value notValue⟩

theorem updateClientOperation_ok_iff (sizes : op.memrefSize = x.reply.opSize)
    (prepared : p.context.paramTypes ≠ 0 →
      op.opInited = true ∧ ∀ i, i < teeParamNum → PreparedAt p env.param op i) :
    (updateClientOperation p env true op).1 = 0 ↔ OutputsOk p env x := by
  unfold updateClientOperation OutputsOk
  by_cases used : p.context.paramTypes = 0
  · simp only [used, if_true, ne_eq, not_true_eq_false, false_implies, iff_true]
    split <;> rfl
  · obtain ⟨inited, ready⟩ := prepared used
    obtain ⟨tr, -, ok, -⟩ := update_loop p env true op teeParamNum
    rw [if_neg (by simp [inited]), if_neg used, ok]
    constructor
    · intro reached _ i hi
      exact (updateParam_ok_iff (ready i hi) sizes).1 (reached i hi)
    · intro all i hi
      exact (updateParam_ok_iff (ready i hi) sizes).2 (all used i hi)

end Outputs

section Outcome

variable {p : CallParams} {env : CallEnv} {op : OpParams} {res : CallResult} {session : Bool}

theorem event_of_extends {P : Event → Prop} {xs ys : List Event} (more : Extends P xs ys)
    (quiet : ∀ e, P e → NotSmc e) (y : Round) : y.event ∈ ys ↔ y.event ∈ xs := by
  obtain ⟨es, rfl, kind⟩ := more
  constructor
  · intro mem
    rcases List.mem_append.1 mem with old | new
    · exact old
    · exact False.elim (quiet _ (kind _ new))
  · exact List.mem_append_left es

theorem freeSrc_event (ret : Int) (teeRet : Nat) (y : Round) :
    y.event ∈ (freeSrc p ret teeRet op).op.trace ↔ y.event ∈ op.trace := by
  obtain ⟨es, pack, trace, kind⟩ := freeSrc_trace p ret teeRet op
  refine event_of_extends (P := IsResource) ⟨es ++ [.mbFree pack], trace, ?_⟩
    (fun e => IsResource.notSmc) y
  intro e mem
  rcases List.mem_append.1 mem with old | last
  · exact kind e old
  · rw [List.mem_singleton.1 last]
    trivial

theorem freeOperation_sessionId : (freeOperation p op).sessionId = op.sessionId := by
  have log : ∀ {α : Type} (op : OpParams) (e : α → Event) (o : Option α),
      (op.logSome e o).sessionId = op.sessionId := by
    intro α op e o
    cases o <;> rfl
  have step : ∀ op i, (freeParam p op i).sessionId = op.sessionId := by
    intro op i
    unfold freeParam
    split
    · exact log _ _ _
    · split
      · exact (log _ _ _).trans (log _ _ _)
      · split
        · exact log _ _ _
        · rfl
  unfold freeOperation
  induction List.range teeParamNum generalizing op with
  | nil => rfl
  | cons i is ih => exact ih.trans (step op i)

theorem freeSrc_sessionId (ret : Int) (teeRet : Nat) :
    (freeSrc p ret teeRet op).op.sessionId = op.sessionId := by
  have release : ∀ op : OpParams, (releaseTcCallResource p op).sessionId = op.sessionId := by
    intro op
    unfold releaseTcCallResource
    simp only
    split
    · exact freeOperation_sessionId
    · rfl
  unfold freeSrc
  simp only [release]
  split <;> rfl

/-- `post_proc_smc_return` succeeds when the TEE did and the results reach the client. -/
theorem postProcSmcReturn_ok_iff {x : Round} (sizes : op.memrefSize = x.reply.opSize)
    (prepared : p.context.paramTypes ≠ 0 →
      op.opInited = true ∧ ∀ i, i < teeParamNum → PreparedAt p env.param op i) :
    (postProcSmcReturn p env x.reply.ret op).1 = 0 ↔ x.reply.ret = 0 ∧ OutputsOk p env x := by
  unfold postProcSmcReturn
  by_cases refused : x.reply.ret = 0
  · simp only [refused, ne_eq, not_true_eq_false, if_false, true_and]
    exact updateClientOperation_ok_iff sizes prepared
  · have failed : (if x.reply.ret = teecClientIntr then -eRESTARTSYS else eFAULT) ≠ 0 := by
      split <;> decide
    simp only [refused, ne_eq, not_false_eq_true, if_true, false_and, iff_false]
    split <;> exact failed

theorem updateClientOperation_sessionId (isComplete : Bool) :
    (updateClientOperation p env isComplete op).2.sessionId = op.sessionId := by
  unfold updateClientOperation
  split
  · rfl
  · split
    · rfl
    · obtain ⟨tr, same, -, -⟩ := update_loop p env isComplete op teeParamNum
      rw [same]

theorem postProcSmcReturn_sessionId (teeRet : Nat) :
    (postProcSmcReturn p env teeRet op).2.sessionId = op.sessionId := by
  unfold postProcSmcReturn
  simp only
  split
  · split
    · exact updateClientOperation_sessionId false
    · rfl
  · exact updateClientOperation_sessionId true

variable (p env session) in
/-- The TEE grants the command and nothing fails afterwards. -/
def Granted : Prop :=
  ∃ x, Sent p session env.first env.more x ∧ x.reply.ret = 0 ∧ PostOk p session x ∧
    OutputsOk p env x

theorem Ended.granted_iff {before after : OpParams} {ret : Int} {teeRet : Nat} {x : Round}
    (ended : Ended p session env.first env.more before after ret teeRet x) :
    Granted p env session ↔ x.reply.ret = 0 ∧ PostOk p session x ∧ OutputsOk p env x := by
  constructor
  · rintro ⟨y, sent, granted, posted, copied⟩
    rcases ended.last y sent with rfl | pending
    · exact ⟨granted, posted, copied⟩
    · rw [granted] at pending
      exact absurd pending (by decide)
  · rintro ⟨granted, posted, copied⟩
    exact ⟨x, ended.sent, granted, posted, copied⟩

theorem Ended.first_granted {before after : OpParams} {ret : Int} {teeRet : Nat} {x : Round}
    (ended : Ended p session env.first env.more before after ret teeRet x)
    (granted : x.reply.ret = 0) :
    env.first.reply.ret = 0 ∨ env.first.reply.ret = teecPending := by
  rcases ended.last env.first .here with same | pending
  · exact Or.inl (same ▸ granted)
  · exact Or.inr pending

theorem afterConfig_outcome (global : p.global = true) (done : afterConfig p env op = some res)
    (token : op.tokens.session.isSome = session) (quiet : ∀ y : Round, y.event ∉ op.trace)
    (prepared : p.context.paramTypes ≠ 0 →
      op.opInited = true ∧ ∀ i, i < teeParamNum → PreparedAt p env.param op i) :
    (∀ y : Round, y.event ∈ res.op.trace ↔
      ∃ z, Sent p session env.first env.more z ∧ y.event = z.event) ∧
    (res.ret = 0 ↔ Granted p env session) ∧
    (res.ret = 0 → res.op.sessionId = env.first.reply.contextId) := by
  unfold afterConfig at done
  split at done
  · cases done
  · rename_i ret teeRet op' rounds
    obtain ⟨x, ended⟩ := smcRounds_ended global rounds token
    have events : ∀ y : Round, y.event ∈ op'.trace ↔
        ∃ z, Sent p session env.first env.more z ∧ y.event = z.event := by
      intro y
      rw [ended.smcs y]
      have first : y.event ∈ (resetSessionId p (sendSmc op env.first.reply)
          env.first.reply.ret).trace ↔ y.event = env.first.event := by
        have trace : (resetSessionId p (sendSmc op env.first.reply) env.first.reply.ret).trace =
            op.trace ++ [env.first.event] := by
          unfold resetSessionId
          split <;> rfl
        simp [trace, quiet y]
      rw [first]
      constructor
      · rintro (same | later)
        · exact ⟨env.first, .here, same⟩
        · exact later
      · exact Or.inr
    have same := SameBuffers.smcs p rounds
    have ready : p.context.paramTypes ≠ 0 →
        op'.opInited = true ∧ ∀ i, i < teeParamNum → PreparedAt p env.param op' i := by
      intro used
      exact prepared_of_same same (prepared used).1 (prepared used).2
    split at done
    · rename_i failed
      obtain rfl := Option.some.inj done
      refine ⟨fun y => (freeSrc_event _ _ y).trans (events y), ?_, fun ok => absurd ok failed⟩
      rw [ended.granted_iff]
      exact ⟨fun ok => absurd ok failed, fun granted => absurd (ended.ret.2 granted.2.1) failed⟩
    · rename_i fine
      rw [not_not] at fine
      have posted := ended.ret.1 fine
      simp only [Option.some.injEq] at done
      subst done
      have ok : (postProcSmcReturn p env x.reply.ret op').1 = 0 ↔
          x.reply.ret = 0 ∧ OutputsOk p env x := postProcSmcReturn_ok_iff ended.sizes ready
      rw [ended.teeRet]
      refine ⟨fun y => ?_, ?_, fun zero => ?_⟩
      · rw [freeSrc_event, event_of_extends (postProcSmcReturn_trace p env _ op')
          (fun e => IsCopy.notSmc)]
        exact events y
      · rw [ended.granted_iff]
        exact ok.trans ⟨fun h => ⟨h.1, posted, h.2⟩, fun h => ⟨h.1, h.2.2⟩⟩
      · have granted := (ok.1 zero).1
        rw [freeSrc_sessionId, postProcSmcReturn_sessionId, ended.sessionId,
          resetSessionId_eq _ _ fun _ => ended.first_granted granted]
        rfl

/-- A global call that returns: it sent nothing when it did not get as far as its first SMC,
and otherwise the rounds of `Sent`. -/
theorem tcClientCall_outcome (global : p.global = true) {tokens : TokenState}
    (returned : tcClientCall p env tokens = some res) :
    (¬ Submits p env tokens → res.ret ≠ 0 ∧ ∀ y : Round, y.event ∉ res.op.trace) ∧
    (Submits p env tokens →
      (∀ y : Round, y.event ∈ res.op.trace ↔
        ∃ z, Sent p tokens.session.isSome env.first env.more z ∧ y.event = z.event) ∧
      (res.ret = 0 ↔ Granted p env tokens.session.isSome) ∧
      (res.ret = 0 → res.op.sessionId = env.first.reply.contextId)) := by
  unfold tcClientCall at returned
  simp only at returned
  split at returned
  · rename_i noCmd
    obtain rfl := Option.some.inj returned
    exact ⟨fun _ => ⟨neg_eNOMEM, by simp⟩, fun submits => by simp [submits.1] at noCmd⟩
  · rename_i cmd
    rw [Bool.not_eq_false] at cmd
    split at returned
    · rename_i noPack
      obtain rfl := Option.some.inj returned
      refine ⟨fun _ => ⟨neg_eNOMEM, by simp⟩, fun submits => ?_⟩
      obtain ⟨-, pack, hpack, -⟩ := submits
      simp [noPack] at hpack
    · rename_i pack hpack
      have quiet : ∀ y : Round, y.event ∉ (beforeSmc p env (startOp p pack tokens)).2.trace := by
        intro y mem
        rw [event_of_extends (beforeSmc_trace p env _) (fun e => IsResource.notSmc)] at mem
        simp [startOp, Round.event] at mem
      have submits_iff : Submits p env tokens ↔
          (beforeSmc p env (startOp p pack tokens)).1 = 0 := by
        simp [Submits, cmd, hpack]
      rw [submits_iff]
      split at returned
      · rename_i failed
        obtain rfl := Option.some.inj returned
        refine ⟨fun _ => ⟨failed, fun y => ?_⟩, fun ok => absurd ok failed⟩
        rw [freeSrc_event]
        exact quiet y
      · rename_i ok
        rw [not_not] at ok
        refine ⟨fun notOk => absurd ok notOk, fun _ => ?_⟩
        exact afterConfig_outcome global returned (beforeSmc_session p env _) quiet
          fun used => beforeSmc_prepared ok used

end Outcome

end ClientCall
