import Tzdriver.ClientCall
import Tzdriver.TraceExtension

/-!
# What each part of a client call does to its trace

Taking and giving back buffers logs only resource events, copying results back logs
only copies, and the SMC rounds log only SMCs. The tokens are touched by the token steps
alone, and none of them makes the session's buffer appear or disappear.
-/

namespace ClientCall

open TeecToken TraceExtension

def IsResource : Event → Prop
  | .mbAlloc _ | .mbFree _ | .shmGet _ | .shmPut _ => True
  | _ => False

def IsCopy : Event → Prop
  | .copyOut _ _ => True
  | _ => False

def IsSmc : Event → Prop
  | .smc _ _ _ _ => True
  | _ => False

theorem teecTmpmemType_eq (t : Nat) : teecTmpmemType t .inout = isTmpMem t := by
  simp [teecTmpmemType, typeMatches, isInputType, isOutputType, isTmpMem]

theorem teecMemrefType_eq (t : Nat) : teecMemrefType t .inout = isRefMem t := by
  simp [teecMemrefType, typeMatches, isInputType, isOutputType, isRefMem]

variable (p : CallParams)

@[simp] theorem log_trace (op : OpParams) (e : Event) : (op.log e).trace = op.trace ++ [e] := rfl

theorem logSome_trace {α : Type} {ok : Event → Prop} (op : OpParams) {e : α → Event}
    (he : ∀ a, ok (e a)) (o : Option α) : Extends ok op.trace (op.logSome e o).trace := by
  cases o with
  | none => exact .refl _ _
  | some a => exact (Extends.refl _ _).snoc (he a)

theorem freeParam_trace (op : OpParams) (index : Nat) :
    Extends IsResource op.trace (freeParam p op index).trace := by
  unfold freeParam
  split
  · exact logSome_trace _ (fun _ => trivial) _
  · split
    · exact (logSome_trace _ (fun _ => trivial) _).trans (logSome_trace _ (fun _ => trivial) _)
    · split
      · exact logSome_trace _ (fun _ => trivial) _
      · exact .refl _ _

theorem freeOperation_trace (op : OpParams) :
    Extends IsResource op.trace (freeOperation p op).trace :=
  extends_foldl (freeParam_trace p) _ _

/-- What every round keeps, the loop keeps, also when it ends with an error. -/
theorem untilError_inv {P : OpParams → Prop} {f : OpParams → Nat → Int × OpParams}
    (step : ∀ op i, P op → P (f op i).2) (is : List Nat) {op : OpParams} (start : P op) :
    P (untilError f is op).2 := by
  induction is generalizing op with
  | nil => exact start
  | cons i is ih =>
    simp only [untilError]
    split
    · exact step op i start
    · exact ih (step op i start)

theorem untilError_trace {ok : Event → Prop} {f : OpParams → Nat → Int × OpParams}
    (step : ∀ op i, Extends ok op.trace (f op i).2.trace) (is : List Nat) (op : OpParams) :
    Extends ok op.trace (untilError f is op).2.trace :=
  untilError_inv (P := fun op' => Extends ok op.trace op'.trace)
    (fun op' i h => h.trans (step op' i)) is (.refl _ _)

/-- Copying one parameter in takes a mailbox block for a temporary buffer, a block and a
reference for a part of shared memory, or nothing; a failure keeps what was taken. -/
theorem allocParam_cases (env : ParamEnv) (op : OpParams) (i : Nat) :
    (∃ types, (allocParam p env op i).2 = { op with transParamtype := types }) ∨
    (∃ buf size types, isTmpMem (p.paramType i) = true ∧
      (allocParam p env op i).2 = { op.log (.mbAlloc buf.addr) with
        localTmpbuf := Function.update op.localTmpbuf i (some buf)
        memrefSize := Function.update op.memrefSize i size, transParamtype := types }) ∨
    (∃ addr shm size types, isRefMem (p.paramType i) = true ∧
      (allocParam p env op i).2 = { (op.log (.mbAlloc addr)).log (.shmGet shm.id) with
        mbBuffer := Function.update op.mbBuffer i (some addr)
        sharemem := Function.update op.sharemem i (some shm)
        memrefSize := Function.update op.memrefSize i size, transParamtype := types }) := by
  have nothing : ∀ ret : Int, ∃ types, (ret, op).2 = { op with transParamtype := types } :=
    fun _ => ⟨op.transParamtype, rfl⟩
  unfold allocParam
  split
  · rename_i tmp
    rw [teecTmpmemType_eq] at tmp
    unfold allocForTmpMem
    split
    · exact .inl (nothing _)
    · split
      · exact .inl (nothing _)
      · split
        · exact .inl (nothing _)
        · rename_i size _ _ _ addr _
          -- an error after the allocation leaves the size as it was
          have same := Function.update_eq_self i op.memrefSize
          refine .inr (.inl ⟨⟨addr, size⟩, ?_⟩)
          simp only
          split
          · exact ⟨op.memrefSize i, _, tmp, by rw [same]; rfl⟩
          · split
            · exact ⟨op.memrefSize i, _, tmp, by rw [same]; rfl⟩
            · exact ⟨size, _, tmp, rfl⟩
  · split
    · rename_i ref
      rw [teecMemrefType_eq] at ref
      unfold allocForRefMem
      split
      · exact .inl (nothing _)
      · split
        · exact .inl (nothing _)
        · split
          · exact .inl (nothing _)
          · rename_i shm _
            split
            · exact .inl (nothing _)
            · split
              · exact .inl (nothing _)
              · exact .inr (.inr ⟨_, shm, _, _, ref, rfl⟩)
    · refine .inl ?_
      split
      · unfold transferClientValue
        split
        · exact nothing _
        · split
          · exact nothing _
          · exact ⟨_, rfl⟩
      · split
        · exact nothing _
        · split <;> exact nothing _

theorem allocParam_trace (env : ParamEnv) (op : OpParams) (index : Nat) :
    Extends IsResource op.trace (allocParam p env op index).2.trace := by
  obtain ⟨_, eq⟩ | ⟨_, _, _, _, eq⟩ | ⟨_, _, _, _, _, eq⟩ := allocParam_cases p env op index
  · rw [eq]
  · rw [eq]
    exact (Extends.refl _ _).snoc trivial
  · rw [eq]
    exact ((Extends.refl _ _).snoc trivial).snoc trivial

theorem allocOperation_trace (env : Nat → ParamEnv) (op : OpParams) :
    Extends IsResource op.trace (allocOperation p env op).2.trace := by
  have loop := untilError_trace (fun op i => allocParam_trace p (env i) op i)
    (List.range teeParamNum) op
  unfold allocOperation
  simp only
  split
  · exact loop.trans (freeOperation_trace p _)
  · exact loop

theorem configSmcCmdContext_trace (env : CallEnv) (op : OpParams) :
    (configSmcCmdContext p env op).2.trace = op.trace := by
  unfold configSmcCmdContext
  simp only
  split <;> rfl

theorem beforeSmc_trace (env : CallEnv) (op : OpParams) :
    Extends IsResource op.trace (beforeSmc p env op).2.trace := by
  unfold beforeSmc
  simp only
  split
  · split
    · exact allocOperation_trace p _ op
    · rw [configSmcCmdContext_trace]
      exact allocOperation_trace p _ op
  · rw [if_neg (by simp), configSmcCmdContext_trace]

theorem updateParam_trace (env : CallEnv) (isComplete : Bool) (op : OpParams) (index : Nat) :
    Extends IsCopy op.trace
      (updateParam p env isComplete op index).2.trace := by
  have copied : ∀ n, Extends IsCopy op.trace
      (op.log (.copyOut index n)).trace := fun n => (Extends.refl _ _).snoc trivial
  unfold updateParam
  split
  · unfold updateTmpMem
    simp only
    split
    · exact .refl _ _
    · split
      · split <;> exact .refl _ _
      · have logged : Extends IsCopy op.trace (op.logSome (.copyOut index)
            ((env.param index).writeTmpbuf (p.context.params index).buffer
              (op.memrefSize index)).2).trace := by
          cases ((env.param index).writeTmpbuf (p.context.params index).buffer
            (op.memrefSize index)).2 with
          | none => exact .refl _ _
          | some n => exact copied n
        split <;> exact logged
  · split
    · unfold updateForRefMem
      simp only
      split
      · exact .refl _ _
      · split
        · exact .refl _ _
        · split
          · split
            · split
              · exact copied _
              · exact .refl _ _
            · exact .refl _ _
          · exact .refl _ _
    · split
      · unfold updateForValue
        split
        · exact .refl _ _
        · split <;> exact .refl _ _
      · exact .refl _ _

theorem updateClientOperation_trace (env : CallEnv) (isComplete : Bool) (op : OpParams) :
    Extends IsCopy op.trace
      (updateClientOperation p env isComplete op).2.trace := by
  unfold updateClientOperation
  split
  · exact .refl _ _
  · split
    · exact .refl _ _
    · exact untilError_trace (updateParam_trace p env isComplete) _ _

theorem postProcSmcReturn_trace (env : CallEnv) (teeRet : Nat) (op : OpParams) :
    Extends IsCopy op.trace
      (postProcSmcReturn p env teeRet op).2.trace := by
  unfold postProcSmcReturn
  split
  · simp only
    split
    · exact updateClientOperation_trace p env false op
    · exact .refl _ _
  · exact updateClientOperation_trace p env true op

/-- Leaving the call frees at least the pack, and nothing is sent any more. -/
theorem releaseTcCallResource_trace (op : OpParams) :
    ∃ es pack, (releaseTcCallResource p op).trace = op.trace ++ (es ++ [.mbFree pack]) ∧
      ∀ e ∈ es, IsResource e := by
  unfold releaseTcCallResource
  simp only [log_trace]
  split
  · obtain ⟨es, htrace, quiet⟩ := freeOperation_trace p op
    exact ⟨es, (freeOperation p op).mbPack, by rw [htrace, List.append_assoc], quiet⟩
  · exact ⟨[], op.mbPack, rfl, by simp⟩

theorem freeSrc_trace (ret : Int) (teeRet : Nat) (op : OpParams) :
    ∃ es pack, (freeSrc p ret teeRet op).op.trace = op.trace ++ (es ++ [.mbFree pack]) ∧
      ∀ e ∈ es, IsResource e := by
  unfold freeSrc
  split
  · exact releaseTcCallResource_trace p { op with errOrigin := teecOriginComms }
  · exact releaseTcCallResource_trace p op

@[simp] theorem logSome_tokens {α : Type} (op : OpParams) (e : α → Event) (o : Option α) :
    (op.logSome e o).tokens = op.tokens := by
  cases o <;> rfl

theorem freeOperation_tokens (op : OpParams) : (freeOperation p op).tokens = op.tokens := by
  have step : ∀ op i, (freeParam p op i).tokens = op.tokens := by
    intro op i
    unfold freeParam
    split
    · simp
    · split
      · simp
      · split <;> simp
  unfold freeOperation
  induction List.range teeParamNum generalizing op with
  | nil => rfl
  | cons i is ih => exact (ih _).trans (step op i)

theorem allocParam_tokens (env : ParamEnv) (op : OpParams) (index : Nat) :
    (allocParam p env op index).2.tokens = op.tokens := by
  obtain ⟨_, eq⟩ | ⟨_, _, _, _, eq⟩ | ⟨_, _, _, _, _, eq⟩ := allocParam_cases p env op index <;>
    rw [eq] <;> rfl

theorem allocOperation_tokens (env : Nat → ParamEnv) (op : OpParams) :
    (allocOperation p env op).2.tokens = op.tokens := by
  have loop : (untilError (fun op i => allocParam p (env i) op i) (List.range teeParamNum) op).2.tokens
      = op.tokens :=
    untilError_inv (fun op' i h => (allocParam_tokens p (env i) op' i).trans h) _ rfl
  unfold allocOperation
  simp only
  split
  · exact (freeOperation_tokens p _).trans loop
  · exact loop

theorem configSmcCmdContext_session (env : CallEnv) (op : OpParams) :
    (configSmcCmdContext p env op).2.tokens.session.isSome = op.tokens.session.isSome := by
  have filled : (fillTokenInfo p.global p.context.teecToken p.context.cmdId p.dev.bytes
      env.tokenRead op.tokens).2.session.isSome = op.tokens.session.isSome := by
    unfold fillTokenInfo
    split
    · rfl
    · split
      · rename_i noSession
        rw [noSession]
      · rename_i session
        split
        · split
          · rw [session]
          · rw [session]; rfl
        · rw [session]; rfl
  unfold configSmcCmdContext
  simp only
  split
  · rfl
  · simp only [loadSecurityEnhanceInfo]
    split
    · rfl
    · split
      · exact filled
      · split <;> exact filled

theorem beforeSmc_session (env : CallEnv) (op : OpParams) :
    (beforeSmc p env op).2.tokens.session.isSome = op.tokens.session.isSome := by
  have alloc := allocOperation_tokens p env.param op
  unfold beforeSmc
  simp only
  split
  · split
    · rw [alloc]
    · rw [configSmcCmdContext_session, alloc]
  · rw [if_neg (by simp), configSmcCmdContext_session]

section Pending

variable {p : CallParams}

/-- The ways through the loop of `handle_ta_pending`: a final reply ends it, and in a pending round
the client's token may be unreadable or the new one may not get back to the client. -/
inductive PendingLoop (p : CallParams) :
    Nat → List Round → OpParams → Int → Nat → OpParams → Prop
  | final {teeRet : Nat} {rounds : List Round} {op : OpParams} (final : teeRet ≠ teecPending) :
      PendingLoop p teeRet rounds op 0 teeRet op
  | unread {teeRet : Nat} {r : Round} {rest : List Round} {op : OpParams}
      (pending : teeRet = teecPending) (failed : (appendToken p r op).1 ≠ 0) :
      PendingLoop p teeRet (r :: rest) op (appendToken p r op).1 teeRet (appendToken p r op).2
  | unsaved {teeRet : Nat} {r : Round} {rest : List Round} {op : OpParams}
      (pending : teeRet = teecPending) (sent : (appendToken p r op).1 = 0)
      (failed : (postToken p r (sendSmc (appendToken p r op).2 r.reply)).1 ≠ 0) :
      PendingLoop p teeRet (r :: rest) op
        (postToken p r (sendSmc (appendToken p r op).2 r.reply)).1 r.reply.ret
        (postToken p r (sendSmc (appendToken p r op).2 r.reply)).2
  | again {teeRet teeRet' : Nat} {r : Round} {rest : List Round} {op op' : OpParams} {ret : Int}
      (pending : teeRet = teecPending) (sent : (appendToken p r op).1 = 0)
      (saved : (postToken p r (sendSmc (appendToken p r op).2 r.reply)).1 = 0)
      (later : PendingLoop p r.reply.ret rest
        (postToken p r (sendSmc (appendToken p r op).2 r.reply)).2 ret teeRet' op') :
      PendingLoop p teeRet (r :: rest) op ret teeRet' op'

theorem handleTaPending_loop {rounds : List Round} {teeRet teeRet' : Nat} {op op' : OpParams}
    {ret : Int} (done : handleTaPending p teeRet rounds op = some (ret, teeRet', op')) :
    PendingLoop p teeRet rounds op ret teeRet' op' := by
  induction rounds generalizing teeRet op with
  | nil =>
    unfold handleTaPending at done
    split at done
    · rename_i final
      cases done
      exact .final final
    · cases done
  | cons r rest ih =>
    unfold handleTaPending at done
    simp only at done
    split at done
    · rename_i final
      cases done
      exact .final final
    · rename_i pending
      rw [not_not] at pending
      split at done
      · rename_i failed
        cases done
        exact .unread pending failed
      · rename_i sent
        rw [not_not] at sent
        split at done
        · rename_i failed
          cases done
          exact .unsaved pending sent failed
        · rename_i saved
          rw [not_not] at saved
          exact .again pending sent saved (ih done)

end Pending

section Rounds

variable {p : CallParams} {P : OpParams → Prop}
  (tokens : ∀ op ts, P op → P { op with tokens := ts })
  (send : ∀ op reply, P op → P (sendSmc op reply))

include tokens send

/-- What sending a command and the token steps keep, the pending loop keeps. -/
theorem handleTaPending_inv {rounds : List Round} {teeRet teeRet' : Nat} {op op' : OpParams}
    {ret : Int} (start : P op)
    (done : handleTaPending p teeRet rounds op = some (ret, teeRet', op')) : P op' := by
  replace done := handleTaPending_loop done
  induction done with
  | final => exact start
  | unread => exact tokens _ _ start
  | unsaved => exact tokens _ _ (send _ _ (tokens _ _ start))
  | again _ _ _ _ ih => exact ih (tokens _ _ (send _ _ (tokens _ _ start)))

theorem smcRounds_inv (session : ∀ op id, P op → P { op with sessionId := id }) {env : CallEnv}
    {op op' : OpParams} {ret : Int} {teeRet : Nat} (start : P op)
    (done : smcRounds p env op = some (ret, teeRet, op')) : P op' := by
  have reset : P (resetSessionId p (sendSmc op env.first.reply) env.first.reply.ret) := by
    unfold resetSessionId
    split <;> exact session _ _ (send _ _ start)
  unfold smcRounds at done
  simp only at done
  split at done
  · simp only [Option.some.injEq, Prod.mk.injEq] at done
    obtain ⟨rfl, rfl, rfl⟩ := done
    exact tokens _ _ reset
  · exact handleTaPending_inv tokens send (tokens _ _ reset) done

end Rounds

theorem smcRounds_trace {env : CallEnv} {op op' : OpParams} {ret : Int} {teeRet : Nat}
    (done : smcRounds p env op = some (ret, teeRet, op')) :
    Extends IsSmc op.trace op'.trace :=
  smcRounds_inv (P := fun op' => Extends IsSmc op.trace op'.trace) (fun _ _ h => h)
    (fun _ _ h => h.snoc trivial) (fun _ _ h => h) (.refl _ _) done

end ClientCall
