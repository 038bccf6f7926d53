import Tzdriver.CallOutcome

/-!
# What a call needs to reach the TEE

A call sends its first SMC when it gets a command record and a pack, every parameter can be
copied in, and the session data of an open can be prepared. `Submits` says this by running the
code before the SMC; here it is said about the client's memory and the allocators.
-/

namespace ClientCall

open Function TeecToken

section Inputs

variable (p : CallParams) (env : Nat → ParamEnv)

/-- What the client's memory and the mailbox have to allow so that parameter `i` is copied in. -/
structure InputOk (i : Nat) : Prop where
  tmp : teecTmpmemType (p.paramType i) .inout = true →
    ∃ size, (env i).sizeRead = some size ∧ 0 < size ∧ size ≤ maxSharedSize ∧
      (env i).mbAlloc.isSome = true ∧
      (isInputTempmem (p.paramType i) = true → (env i).inputRead = true) ∧
      (isOpensessionByIndex p i = true → (env i).encryptOk = true)
  ref : teecMemrefType (p.paramType i) .inout = true →
    ∃ size shm, (env i).sizeRead = some size ∧ 0 < size ∧ sharedMemOf p i = some shm ∧
      isRefmemOffsetValid shm (p.context.params i) size = true ∧ (env i).mbAlloc.isSome = true
  value : teecValueType (p.paramType i) .inout = true →
    (env i).valueARead = true ∧ (env i).valueBRead = true
  ion : p.paramType i ≠ teecIonInput ∧ p.paramType i ≠ teecIonSglistInput

variable {p env} {op : OpParams} {e : ParamEnv} {i : Nat}

theorem teecTmpmemType_inout {t : Nat} : teecTmpmemType t .inout = true ↔
    t = teecMemrefTempInput ∨ t = teecMemrefTempOutput ∨ t = teecMemrefTempInout := by
  simp [teecTmpmemType, typeMatches, isInputType, isOutputType, or_assoc]

theorem teecMemrefType_inout {t : Nat} : teecMemrefType t .inout = true ↔
    t = teecMemrefPartialInput ∨ t = teecMemrefPartialOutput ∨ t = teecMemrefPartialInout := by
  simp [teecMemrefType, typeMatches, isInputType, isOutputType, or_assoc]

theorem teecValueType_inout {t : Nat} : teecValueType t .inout = true ↔
    t = teecValueInput ∨ t = teecValueOutput ∨ t = teecValueInout := by
  simp [teecValueType, typeMatches, isInputType, isOutputType, or_assoc]

theorem allocForTmpMem_ok_iff :
    (allocForTmpMem p e op i).1 = 0 ↔
      ∃ size, e.sizeRead = some size ∧ 0 < size ∧ size ≤ maxSharedSize ∧
        e.mbAlloc.isSome = true ∧ (isInputTempmem (p.paramType i) = true → e.inputRead = true) ∧
        (isOpensessionByIndex p i = true → e.encryptOk = true) := by
  unfold allocForTmpMem
  cases e.sizeRead with
  | none => simp [eFAULT]
  | some size =>
    by_cases large : size > maxSharedSize
    · have out : ¬ size ≤ maxSharedSize := by omega
      simp [large, out, eFAULT]
    · by_cases empty : size = 0
      · simp [empty, eNOMEM]
      · cases e.mbAlloc with
        | none => simp [large, empty, eNOMEM]
        | some addr => grind [neg_eFAULT]

theorem allocForRefMem_ok_iff :
    (allocForRefMem p e op i).1 = 0 ↔
      ∃ size shm, e.sizeRead = some size ∧ 0 < size ∧ sharedMemOf p i = some shm ∧
        isRefmemOffsetValid shm (p.context.params i) size = true ∧ e.mbAlloc.isSome = true := by
  unfold allocForRefMem
  cases e.sizeRead with
  | none => simp [eINVAL]
  | some size =>
    by_cases empty : size = 0
    · simp [empty, eINVAL]
    · rw [sharedMemOf]
      cases p.dev.sharedMemList.find? fun shm => shm.userAddr == (p.context.params i).buffer with
      | none => simp [empty, eINVAL]
      | some shm =>
        cases e.mbAlloc with
        | none => grind [neg_eINVAL, neg_eNOMEM]
        | some addr => grind [neg_eINVAL]

theorem transferClientValue_ok_iff :
    (transferClientValue p e op i).1 = 0 ↔ e.valueARead = true ∧ e.valueBRead = true := by
  unfold transferClientValue
  grind [neg_eFAULT]

theorem allocParam_ok_iff : (allocParam p (env i) op i).1 = 0 ↔ InputOk p env i := by
  unfold allocParam
  generalize kind : p.paramType i = type
  split
  · rename_i tmp
    have apart : teecMemrefType type .inout = false ∧ teecValueType type .inout = false ∧
        type ≠ teecIonInput ∧ type ≠ teecIonSglistInput := by
      rcases teecTmpmemType_inout.1 tmp with rfl | rfl | rfl <;> decide
    obtain ⟨notRef, notValue, ion⟩ := apart
    rw [allocForTmpMem_ok_iff]
    constructor
    · intro read
      exact ⟨fun _ => read, by simp [kind, notRef], by simp [kind, notValue], kind ▸ ion⟩
    · intro ok
      exact ok.tmp (kind ▸ tmp)
  · rename_i notTmp
    split
    · rename_i ref
      have apart : teecValueType type .inout = false ∧
          type ≠ teecIonInput ∧ type ≠ teecIonSglistInput := by
        rcases teecMemrefType_inout.1 ref with rfl | rfl | rfl <;> decide
      obtain ⟨notValue, ion⟩ := apart
      rw [allocForRefMem_ok_iff]
      constructor
      · intro read
        exact ⟨fun tmp => absurd (kind ▸ tmp) notTmp, fun _ => read, by simp [kind, notValue],
          kind ▸ ion⟩
      · intro ok
        exact ok.ref (kind ▸ ref)
    · rename_i notRef
      split
      · rename_i value
        have ion : type ≠ teecIonInput ∧ type ≠ teecIonSglistInput := by
          rcases teecValueType_inout.1 value with rfl | rfl | rfl <;> decide
        rw [transferClientValue_ok_iff]
        constructor
        · intro read
          exact ⟨fun tmp => absurd (kind ▸ tmp) notTmp, fun ref => absurd (kind ▸ ref) notRef,
            fun _ => read, kind ▸ ion⟩
        · intro ok
          exact ok.value (kind ▸ value)
      · rename_i notValue
        constructor
        · intro done
          refine ⟨fun tmp => absurd (kind ▸ tmp) notTmp, fun ref => absurd (kind ▸ ref) notRef,
            fun value => absurd (kind ▸ value) notValue, ?_⟩
          rw [kind]
          grind
        · intro ok
          have ion := ok.ion
          rw [kind] at ion
          simp [ion.1, ion.2]

/-- A temporary buffer needs only what its own branch does. -/
theorem inputOk_tmp_iff (tmp : isTmpMem (p.paramType i) = true) :
    InputOk p env i ↔ ∃ size, (env i).sizeRead = some size ∧ 0 < size ∧ size ≤ maxSharedSize ∧
      (env i).mbAlloc.isSome = true ∧
      (isInputTempmem (p.paramType i) = true → (env i).inputRead = true) ∧
      (isOpensessionByIndex p i = true → (env i).encryptOk = true) := by
  rw [← @allocParam_ok_iff p env (startOp p 0 freshTokens) i, allocParam,
    if_pos (by rw [teecTmpmemType_eq, tmp]), allocForTmpMem_ok_iff]

theorem inputOk_ref_iff (ref : isRefMem (p.paramType i) = true) :
    InputOk p env i ↔ ∃ size shm, (env i).sizeRead = some size ∧ 0 < size ∧
      sharedMemOf p i = some shm ∧ isRefmemOffsetValid shm (p.context.params i) size = true ∧
      (env i).mbAlloc.isSome = true := by
  have notTmp : teecTmpmemType (p.paramType i) .inout = false := by
    rw [← teecMemrefType_eq] at ref
    rcases teecMemrefType_inout.1 ref with type | type | type <;> rw [type] <;> decide
  rw [← @allocParam_ok_iff p env (startOp p 0 freshTokens) i, allocParam, notTmp,
    if_neg (by decide), if_pos (by rw [teecMemrefType_eq, ref]), allocForRefMem_ok_iff]

theorem untilError_ok_iff {f : OpParams → Nat → Int × OpParams} {ok : Nat → Prop}
    (each : ∀ op i, (f op i).1 = 0 ↔ ok i) (is : List Nat) (op : OpParams) :
    (untilError f is op).1 = 0 ↔ ∀ i ∈ is, ok i := by
  induction is generalizing op with
  | nil => simp [untilError]
  | cons i is ih =>
    rw [List.forall_mem_cons, ← each op i, ← ih (f op i).2]
    simp only [untilError]
    split
    · rename_i failed
      exact ⟨fun done => absurd done failed, fun both => absurd both.1 failed⟩
    · rename_i fine
      rw [not_not] at fine
      simp [fine]

theorem allocOperation_ok_iff (op : OpParams) :
    (allocOperation p env op).1 = 0 ↔ ∀ i, i < teeParamNum → InputOk p env i := by
  have loop := untilError_ok_iff (f := fun op i => allocParam p (env i) op i)
    (fun op i => allocParam_ok_iff) (List.range teeParamNum) op
  simp only [List.mem_range] at loop
  rw [← loop, allocOperation]
  simp only
  split
  · rfl
  · rename_i fine
    rw [not_not] at fine
    simp [fine]

/-! ### The sizes that are used -/

theorem allocParam_memrefSize (e : ParamEnv) (op : OpParams) {i j : Nat} (ne : j ≠ i) :
    (allocParam p e op i).2.memrefSize j = op.memrefSize j := by
  obtain ⟨_, eq⟩ | ⟨_, _, _, _, eq⟩ | ⟨_, _, _, _, _, eq⟩ := allocParam_cases p e op i
  · rw [eq]
  · rw [eq]
    exact update_of_ne ne _ _
  · rw [eq]
    exact update_of_ne ne _ _

/-- A memory parameter has the size that was read for it. -/
theorem allocParam_size (memory : isTmpMem (p.paramType i) = true ∨ isRefMem (p.paramType i) = true)
    (ok : (allocParam p e op i).1 = 0) :
    e.sizeRead = some ((allocParam p e op i).2.memrefSize i) := by
  unfold allocParam at ok ⊢
  rw [teecTmpmemType_eq, teecMemrefType_eq] at ok ⊢
  by_cases tmp : isTmpMem (p.paramType i) = true
  · rw [if_pos tmp] at ok ⊢
    obtain ⟨buf, -, read, size⟩ := allocForTmpMem_ok p e op i ok
    rw [size, read]
  · have ref := memory.resolve_left tmp
    rw [if_neg tmp, if_pos ref] at ok ⊢
    obtain ⟨addr, shm, s0, -, -, read, -, size⟩ := allocForRefMem_ok p e op i ok
    rw [size, read]

theorem allocOperation_size (op : OpParams) (ok : (allocOperation p env op).1 = 0) (i : Nat)
    (le : i < teeParamNum)
    (memory : isTmpMem (p.paramType i) = true ∨ isRefMem (p.paramType i) = true) :
    (env i).sizeRead = some ((allocOperation p env op).2.memrefSize i) := by
  have loop : (untilError (fun op i => allocParam p (env i) op i) (List.range teeParamNum) op).1 = 0 →
      ∀ i, i < teeParamNum → isTmpMem (p.paramType i) = true ∨ isRefMem (p.paramType i) = true →
      (env i).sizeRead = some ((untilError (fun op i => allocParam p (env i) op i)
        (List.range teeParamNum) op).2.memrefSize i) := by
    refine untilError_range (P := fun n op => ∀ i, i < n →
      isTmpMem (p.paramType i) = true ∨ isRefMem (p.paramType i) = true →
      (env i).sizeRead = some (op.memrefSize i)) ?_ ?_
    · intro i none
      omega
    · intro n op before done i low memory
      by_cases last : i = n
      · subst last
        exact allocParam_size memory done
      · rw [allocParam_memrefSize (env n) op last]
        exact before i (by omega) memory
  unfold allocOperation at ok ⊢
  dsimp only at ok ⊢
  split at ok
  · rename_i failed
    exact absurd ok failed
  · rename_i fine
    rw [if_neg fine]
    rw [not_not] at fine
    exact loop fine i le memory

end Inputs

section Reaches

variable (p : CallParams) (env : CallEnv) (session : Bool)

/-- Nothing keeps the global command from the TEE. -/
structure Reaches : Prop where
  record : env.smcCmdAlloc = true
  pack : env.mbPack.isSome = true
  inputs : p.context.paramTypes ≠ 0 → ∀ i, i < teeParamNum → InputOk p env.param i
  login : checkLoginForEncrypt p env = true
  token : p.context.cmdId = globalCmdIdOpenSession →
    p.context.teecToken = true ∧ session = true ∧ env.secureParams = true

variable {p env} {tokens : TokenState}

theorem loadSecurityEnhanceInfo_ok_iff {cmdId : Nat} {teecToken : Bool} {dev : DevBytes}
    {read : Option ClientToken} {secureParams : Bool} :
    (loadSecurityEnhanceInfo true cmdId teecToken dev read secureParams tokens).1 = 0 ↔
      (cmdId = globalCmdIdOpenSession →
        teecToken = true ∧ tokens.session.isSome = true ∧ secureParams = true) := by
  by_cases open_ : cmdId = globalCmdIdOpenSession
  · have notClose : globalCmdIdOpenSession ≠ globalCmdIdCloseSession := by decide
    cases session : tokens.session with
    | none =>
      cases teecToken <;>
        simp [loadSecurityEnhanceInfo, isTokenWork, fillTokenInfo, open_, session, eINVAL, eFAULT]
    | some tok =>
      cases teecToken <;> cases secureParams <;>
        simp [loadSecurityEnhanceInfo, isTokenWork, fillTokenInfo, open_, session, notClose,
          eINVAL, eFAULT]
  · simp [loadSecurityEnhanceInfo, isTokenWork, open_]

theorem configSmcCmdContext_ok_iff (global : p.global = true) {op : OpParams} :
    (configSmcCmdContext p env op).1 = 0 ↔ checkLoginForEncrypt p env = true ∧
      (p.context.cmdId = globalCmdIdOpenSession →
        p.context.teecToken = true ∧ op.tokens.session.isSome = true ∧
          env.secureParams = true) := by
  unfold configSmcCmdContext
  simp only
  split
  · rename_i failed
    simp [failed, eINVAL]
  · rename_i login
    rw [Bool.not_eq_false] at login
    rw [global, loadSecurityEnhanceInfo_ok_iff]
    simp [login]

theorem submits_iff (global : p.global = true) :
    Submits p env tokens ↔ Reaches p env tokens.session.isSome := by
  have before : ∀ pack, (beforeSmc p env (startOp p pack tokens)).1 = 0 ↔
      (p.context.paramTypes ≠ 0 → ∀ i, i < teeParamNum → InputOk p env.param i) ∧
      checkLoginForEncrypt p env = true ∧ (p.context.cmdId = globalCmdIdOpenSession →
        p.context.teecToken = true ∧ tokens.session.isSome = true ∧ env.secureParams = true) := by
    intro pack
    unfold beforeSmc
    simp only
    by_cases used : p.context.paramTypes = 0
    · simp only [used, ne_eq, not_true_eq_false, if_false, false_implies, true_and]
      exact configSmcCmdContext_ok_iff global
    · simp only [used, ne_eq, not_false_eq_true, if_true, forall_const,
        ← allocOperation_ok_iff (startOp p pack tokens)]
      split
      · rename_i failed
        exact ⟨fun done => absurd done failed, fun all => absurd all.1 failed⟩
      · rename_i fine
        rw [not_not] at fine
        rw [configSmcCmdContext_ok_iff global, allocOperation_tokens]
        exact ⟨fun ready => ⟨fine, ready⟩, And.right⟩
  constructor
  · rintro ⟨record, pack, got, done⟩
    obtain ⟨inputs, login, token⟩ := (before pack).1 done
    exact ⟨record, by rw [got]; rfl, inputs, login, token⟩
  · intro reaches
    obtain ⟨pack, got⟩ := Option.isSome_iff_exists.1 reaches.pack
    exact ⟨reaches.record, pack, got,
      (before pack).2 ⟨reaches.inputs, reaches.login, reaches.token⟩⟩

end Reaches

end ClientCall
