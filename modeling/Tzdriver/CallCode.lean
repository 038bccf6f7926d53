import Tzdriver.CallOutcome

/-!
# The code of a client call

A code of `tc_client_call` above 0 stands for the word of the TEE: everything that fails in the
driver has a code below 0. The word is that of the last reply, and so is the origin then.
-/

namespace ClientCall

open TeecToken TraceExtension

def isSmc : Event → Bool
  | .smc _ _ _ _ => true
  | _ => false

/-- The last command that was sent. -/
def lastSmc (trace : List Event) : Option Event := (trace.filter isSmc).getLast?

theorem lastSmc_snoc (trace : List Event) (x : Round) : lastSmc (trace ++ [x.event]) = some x.event := by
  simp [lastSmc, isSmc, Round.event]

theorem lastSmc_extends {ok : Event → Prop} {xs ys : List Event} (more : Extends ok xs ys)
    (quiet : ∀ e, ok e → NotSmc e) : lastSmc ys = lastSmc xs := by
  obtain ⟨es, rfl, all⟩ := more
  have none_ : es.filter isSmc = [] := by
    rw [List.filter_eq_nil_iff]
    intro e mem sent
    have notSmc := quiet e (all e mem)
    cases e with
    | smc => exact notSmc
    | _ => cases sent
  rw [lastSmc, lastSmc, List.filter_append, none_, List.append_nil]

/-! ## What fails in the driver -/

section Codes

variable {p : CallParams} {env : CallEnv} {op : OpParams}

theorem fault_le : -eFAULT ≤ 0 := by decide

theorem noMem_lt : -eNOMEM < 0 := by decide

theorem noMem_le : -eNOMEM ≤ 0 := Int.le_of_lt noMem_lt

theorem invalid_le : -eINVAL ≤ 0 := by decide

theorem untilError_le {f : OpParams → Nat → Int × OpParams} (step : ∀ op i, (f op i).1 ≤ 0)
    (is : List Nat) (op : OpParams) : (untilError f is op).1 ≤ 0 := by
  induction is generalizing op with
  | nil => exact Int.le_refl 0
  | cons i is ih =>
    simp only [untilError]
    split
    · exact step op i
    · exact ih _

theorem allocParam_le (e : ParamEnv) (op : OpParams) (i : Nat) : (allocParam p e op i).1 ≤ 0 := by
  unfold allocParam
  split
  · unfold allocForTmpMem
    repeat' split
    all_goals first | exact fault_le | exact noMem_le | exact Int.le_refl 0
  · split
    · unfold allocForRefMem
      repeat' split
      all_goals first | exact invalid_le | exact noMem_le | exact Int.le_refl 0
    · split
      · unfold transferClientValue
        repeat' split
        all_goals first | exact fault_le | exact Int.le_refl 0
      · repeat' split
        all_goals simp

theorem configSmcCmdContext_le : (configSmcCmdContext p env op).1 ≤ 0 := by
  unfold configSmcCmdContext
  simp only
  split
  · exact invalid_le
  · unfold loadSecurityEnhanceInfo
    repeat' split
    all_goals first | exact Int.le_refl 0 | exact fault_le

theorem beforeSmc_le : (beforeSmc p env op).1 ≤ 0 := by
  have alloc : (allocOperation p env.param op).1 ≤ 0 := by
    unfold allocOperation
    simp only
    split
    · exact untilError_le (fun op i => allocParam_le (env.param i) op i) _ op
    · exact Int.le_refl 0
  unfold beforeSmc
  simp only
  repeat' split
  all_goals first | exact alloc | exact configSmcCmdContext_le | exact Int.le_refl 0

theorem postToken_le (r : Round) (op : OpParams) : (postToken p r op).1 ≤ 0 := by
  unfold postToken postProcessToken
  simp only
  repeat' split
  all_goals first | exact Int.le_refl 0 | exact fault_le | exact invalid_le

theorem appendToken_le (r : Round) (op : OpParams) : (appendToken p r op).1 ≤ 0 := by
  unfold appendToken appendTeecToken
  simp only
  repeat' split
  all_goals first | exact Int.le_refl 0 | exact fault_le | exact invalid_le

theorem updateParam_le (isComplete : Bool) (op : OpParams) (i : Nat) :
    (updateParam p env isComplete op i).1 ≤ 0 := by
  unfold updateParam
  split
  · unfold updateTmpMem
    simp only
    repeat' split
    all_goals first | exact fault_le | exact noMem_le | exact Int.le_refl 0
  · split
    · unfold updateForRefMem
      simp only
      repeat' split
      all_goals first | exact fault_le | exact Int.le_refl 0
    · split
      · unfold updateForValue
        repeat' split
        all_goals first | exact fault_le | exact Int.le_refl 0
      · exact Int.le_refl 0

theorem updateClientOperation_le (isComplete : Bool) :
    (updateClientOperation p env isComplete op).1 ≤ 0 := by
  unfold updateClientOperation
  repeat' split
  all_goals first | exact Int.le_refl 0 | exact untilError_le (updateParam_le isComplete) _ _

end Codes

/-! ## The last reply -/

/-- `x` is the round of the last command, and `tee_ret` and the origin are those of its reply. -/
structure Last (x : Round) (op : OpParams) (teeRet : Nat) : Prop where
  sent : lastSmc op.trace = some x.event
  word : teeRet = x.reply.ret
  origin : op.errOrigin = x.reply.errOrigin

section Rounds

variable {p : CallParams} {env : CallEnv} {op op' : OpParams} {x r : Round} {ret : Int}
  {teeRet teeRet' : Nat} {rounds : List Round}

theorem Last.post (last : Last x op teeRet) : Last x (postToken p r op).2 teeRet :=
  ⟨last.sent, last.word, last.origin⟩

theorem Last.append (last : Last x op teeRet) : Last x (appendToken p r op).2 teeRet :=
  ⟨last.sent, last.word, last.origin⟩

theorem last_sendSmc : Last r (sendSmc op r.reply) r.reply.ret :=
  ⟨lastSmc_snoc _ r, rfl, rfl⟩

theorem Last.reset (last : Last x op teeRet) (word : Nat) : Last x (resetSessionId p op word) teeRet := by
  unfold resetSessionId
  split
  · exact ⟨last.sent, last.word, last.origin⟩
  · exact ⟨last.sent, last.word, last.origin⟩

theorem PendingLoop.last (loop : PendingLoop p teeRet rounds op ret teeRet' op')
    (last : Last x op teeRet) :
    ret ≤ 0 ∧ ∃ y, (y = x ∨ y ∈ rounds) ∧ Last y op' teeRet' := by
  induction loop generalizing x with
  | final => exact ⟨Int.le_refl 0, x, Or.inl rfl, last⟩
  | unread => exact ⟨appendToken_le _ _, x, Or.inl rfl, last.append⟩
  | @unsaved _ r =>
    exact ⟨postToken_le _ _, r, Or.inr (List.mem_cons_self ..), last_sendSmc.post⟩
  | @again _ _ r _ _ _ _ _ _ _ _ ih =>
    obtain ⟨le, y, here, last⟩ := ih (last_sendSmc (r := r)).post
    refine ⟨le, y, Or.inr ?_, last⟩
    rcases here with rfl | later
    · exact List.mem_cons_self ..
    · exact List.mem_cons_of_mem _ later

theorem smcRounds_last (done : smcRounds p env op = some (ret, teeRet, op')) :
    ret ≤ 0 ∧ ∃ x ∈ env.first :: env.more, Last x op' teeRet := by
  have first : Last env.first (postToken p env.first
      (resetSessionId p (sendSmc op env.first.reply) env.first.reply.ret)).2 env.first.reply.ret :=
    (last_sendSmc.reset _).post
  unfold smcRounds at done
  simp only at done
  split at done
  · simp only [Option.some.injEq, Prod.mk.injEq] at done
    obtain ⟨rfl, rfl, rfl⟩ := done
    exact ⟨postToken_le _ _, env.first, List.mem_cons_self .., first⟩
  · obtain ⟨le, x, here, last⟩ := (handleTaPending_loop done).last first
    exact ⟨le, x, List.mem_cons.2 here, last⟩

end Rounds

/-! ## The code of a call -/

section Calls

variable {p : CallParams} {env : CallEnv} {op op' : OpParams} {x : Round} {ret : Int} {teeRet : Nat}
  {res : CallResult} {tokens : TokenState}

/-- What the code says about the word of the last reply. -/
structure CodeOf (x : Round) (res : CallResult) : Prop where
  sent : lastSmc res.op.trace = some x.event
  word : res.teeRet = x.reply.ret
  zero : res.ret = 0 → x.reply.ret = 0
  above : 0 < res.ret → x.reply.ret ≠ 0 ∧ x.reply.ret ≠ teecClientIntr ∧
    res.op.errOrigin = x.reply.errOrigin

theorem updateClientOperation_errOrigin (isComplete : Bool) :
    (updateClientOperation p env isComplete op).2.errOrigin = op.errOrigin := by
  unfold updateClientOperation
  split
  · rfl
  · split
    · rfl
    · obtain ⟨tr, same, -, -⟩ := update_loop p env isComplete op teeParamNum
      rw [same]

theorem freeOperation_errOrigin : (freeOperation p op).errOrigin = op.errOrigin := by
  have log : ∀ {α : Type} (op : OpParams) (e : α → Event) (o : Option α),
      (op.logSome e o).errOrigin = op.errOrigin := by
    intro α op e o
    cases o <;> rfl
  have step : ∀ op i, (freeParam p op i).errOrigin = op.errOrigin := by
    intro op i
    unfold freeParam
    split
    · exact log _ _ _
    · split
      · exact (log _ _ _).trans (log _ _ _)
      · split
        · exact log _ _ _
        · rfl
  unfold freeOperation
  induction List.range teeParamNum generalizing op with
  | nil => rfl
  | cons i is ih => exact ih.trans (step op i)

theorem freeSrc_lastSmc : lastSmc (freeSrc p ret teeRet op).op.trace = lastSmc op.trace := by
  obtain ⟨es, pack, trace, kind⟩ := freeSrc_trace p ret teeRet op
  have more : Extends IsResource op.trace (freeSrc p ret teeRet op).op.trace := by
    refine ⟨es ++ [.mbFree pack], trace, ?_⟩
    intro e mem
    rcases List.mem_append.1 mem with old | last
    · exact kind e old
    · rw [List.mem_singleton.1 last]
      trivial
  exact lastSmc_extends more fun e => IsResource.notSmc

theorem freeSrc_errOrigin (notBelow : 0 ≤ ret) :
    (freeSrc p ret teeRet op).op.errOrigin = op.errOrigin := by
  have release : (releaseTcCallResource p op).errOrigin = op.errOrigin := by
    unfold releaseTcCallResource
    simp only
    split
    · exact freeOperation_errOrigin
    · rfl
  unfold freeSrc
  rw [if_neg (Int.not_lt.2 notBelow)]
  exact release

theorem freeSrc_code (last : Last x op teeRet) (zero : ret = 0 → x.reply.ret = 0)
    (above : 0 < ret → x.reply.ret ≠ 0 ∧ x.reply.ret ≠ teecClientIntr) :
    CodeOf x (freeSrc p ret teeRet op) := by
  refine ⟨freeSrc_lastSmc.trans last.sent, last.word, zero, fun pos => ?_⟩
  obtain ⟨refused, notIntr⟩ := above pos
  exact ⟨refused, notIntr, (freeSrc_errOrigin (Int.le_of_lt pos)).trans last.origin⟩

theorem postProcSmcReturn_last (last : Last x op teeRet) :
    Last x (postProcSmcReturn p env teeRet op).2 teeRet := by
  refine ⟨?_, last.word, ?_⟩
  · rw [lastSmc_extends (postProcSmcReturn_trace p env teeRet op) fun e => IsCopy.notSmc]
    exact last.sent
  · apply Eq.trans ?_ last.origin
    unfold postProcSmcReturn
    simp only
    repeat' split
    all_goals first | rfl | exact updateClientOperation_errOrigin _

/-- `post_proc_smc_return` is the only part with a code above 0. -/
theorem postProcSmcReturn_code :
    ((postProcSmcReturn p env teeRet op).1 = 0 → teeRet = 0) ∧
      (0 < (postProcSmcReturn p env teeRet op).1 → teeRet ≠ 0 ∧ teeRet ≠ teecClientIntr) := by
  have intr : ¬ 0 < -eRESTARTSYS := by decide
  have refusedCode : (if teeRet = teecClientIntr then -eRESTARTSYS else eFAULT) ≠ 0 := by
    split <;> decide
  unfold postProcSmcReturn
  by_cases granted : teeRet = 0
  · rw [if_neg (not_not.2 granted)]
    have le : (updateClientOperation p env true op).1 ≤ 0 := updateClientOperation_le true
    exact ⟨fun _ => granted, fun pos => absurd le (Int.not_le.2 pos)⟩
  · rw [if_pos granted]
    have code : (if teeRet = teecErrorShortBuffer then
        ((if teeRet = teecClientIntr then -eRESTARTSYS else eFAULT),
          (updateClientOperation p env false op).2)
        else ((if teeRet = teecClientIntr then -eRESTARTSYS else eFAULT), op)).1 =
          if teeRet = teecClientIntr then -eRESTARTSYS else eFAULT := by
      split <;> rfl
    simp only [code]
    refine ⟨fun zero => absurd zero refusedCode, fun pos => ⟨granted, fun same => ?_⟩⟩
    rw [if_pos same] at pos
    exact intr pos

theorem afterConfig_code (done : afterConfig p env op = some res) :
    ∃ x ∈ env.first :: env.more, CodeOf x res := by
  unfold afterConfig at done
  split at done
  · cases done
  · rename_i ret teeRet op' rounds
    obtain ⟨le, x, here, last⟩ := smcRounds_last rounds
    split at done
    · rename_i failed
      obtain rfl := Option.some.inj done
      exact ⟨x, here, freeSrc_code last (fun zero => absurd zero failed)
        fun pos => absurd le (Int.not_le.2 pos)⟩
    · obtain rfl := Option.some.inj done
      obtain ⟨zero, above⟩ := @postProcSmcReturn_code p env op' teeRet
      rw [last.word] at zero above
      rw [last.word]
      have posted : Last x (postProcSmcReturn p env teeRet op').2 teeRet := postProcSmcReturn_last last
      rw [last.word] at posted
      exact ⟨x, here, freeSrc_code posted zero above⟩

/-- A call that sent nothing has a code below 0. Otherwise its word is that of the last reply. -/
theorem tcClientCall_code (returned : tcClientCall p env tokens = some res) :
    (lastSmc res.op.trace = none ∧ res.ret < 0) ∨ ∃ x ∈ env.first :: env.more, CodeOf x res := by
  unfold tcClientCall at returned
  simp only at returned
  split at returned
  · obtain rfl := Option.some.inj returned
    exact Or.inl ⟨rfl, noMem_lt⟩
  · split at returned
    · obtain rfl := Option.some.inj returned
      exact Or.inl ⟨rfl, noMem_lt⟩
    · rename_i pack hpack
      have quiet : lastSmc (beforeSmc p env (startOp p pack tokens)).2.trace = none :=
        lastSmc_extends (beforeSmc_trace p env _) fun e => IsResource.notSmc
      split at returned
      · rename_i failed
        obtain rfl := Option.some.inj returned
        have le : (beforeSmc p env (startOp p pack tokens)).1 ≤ 0 := beforeSmc_le
        refine Or.inl ⟨freeSrc_lastSmc.trans quiet, ?_⟩
        exact lt_of_le_of_ne le failed
      · exact Or.inr (afterConfig_code returned)

end Calls

end ClientCall
