import Tzdriver.ClientCallTrace

/-!
# Copying results back

A mailbox buffer is allocated for the size `s0` that the client's cell holds when the
parameters are copied in. For a temporary buffer the driver keeps `s0` and compares the
TEE's size with it, but fetches that size from the pack again for the copy: a TEE that raises it
in between has more than `s0` bytes copied from the mailbox. For a part of shared memory the
driver reads the client's cell again and compares with that: a client that raises the cell in
between gets more than `s0` bytes.
-/

namespace ClientCall

open Function TeecToken TraceExtension

/-- Every copy to the client stays within the size the parameter had when it was copied in. -/
def CopiesBounded (env : CallEnv) (trace : List Event) : Prop :=
  ∀ i n, .copyOut i n ∈ trace → ∃ s0, (env.param i).sizeRead = some s0 ∧ n ≤ s0

theorem neg_eFAULT : -eFAULT ≠ 0 := by decide

theorem neg_eINVAL : -eINVAL ≠ 0 := by decide

theorem neg_eNOMEM : -eNOMEM ≠ 0 := by decide

section Loops

variable {f : OpParams → Nat → Int × OpParams}

theorem untilError_snoc (is : List Nat) (i : Nat) (op : OpParams) :
    untilError f (is ++ [i]) op =
      if (untilError f is op).1 ≠ 0 then untilError f is op else f (untilError f is op).2 i := by
  induction is generalizing op with
  | nil =>
    simp only [List.nil_append, untilError, ne_eq, not_true_eq_false, if_false]
    split
    · rfl
    · rename_i h
      rw [not_not] at h
      exact Prod.ext h.symm rfl
  | cons j is ih =>
    simp only [List.cons_append, untilError]
    split
    · rfl
    · exact ih _

/-- The invariant rule for a loop over all parameters that ends without an error. -/
theorem untilError_range {P : Nat → OpParams → Prop} {n : Nat} {op : OpParams} (start : P 0 op)
    (step : ∀ i op, P i op → (f op i).1 = 0 → P (i + 1) (f op i).2)
    (ok : (untilError f (List.range n) op).1 = 0) :
    P n (untilError f (List.range n) op).2 := by
  induction n with
  | zero => exact start
  | succ n ih =>
    rw [List.range_succ, untilError_snoc] at ok ⊢
    split at ok
    · rename_i h
      exact False.elim (h ok)
    · rename_i h
      rw [if_neg h]
      rw [not_not] at h
      exact step n _ (ih h) ok

end Loops

section Types

theorem teecTmpmemType_output {t : Nat} :
    teecTmpmemType t .output = true ↔ t = teecMemrefTempOutput ∨ t = teecMemrefTempInout := by
  simp [teecTmpmemType, typeMatches, isInputType, isOutputType]

theorem teecMemrefType_output {t : Nat} :
    teecMemrefType t .output = true ↔
      t = teecMemrefPartialOutput ∨ t = teecMemrefPartialInout := by
  simp [teecMemrefType, typeMatches, isInputType, isOutputType]

theorem tmp_alloc {t : Nat} (h : teecTmpmemType t .output = true) :
    teecTmpmemType t .inout = true := by
  rcases teecTmpmemType_output.mp h with rfl | rfl <;> decide

theorem ref_alloc {t : Nat} (h : teecMemrefType t .output = true) :
    teecTmpmemType t .inout = false ∧ teecMemrefType t .inout = true ∧
      teecTmpmemType t .output = false := by
  rcases teecMemrefType_output.mp h with rfl | rfl <;> decide

end Types

section Prepared

variable (p : CallParams) (env : Nat → ParamEnv)

/-- The shared memory that the client's address stands for. -/
def sharedMemOf (i : Nat) : Option SharedMem :=
  p.dev.sharedMemList.find? fun shm => shm.userAddr == (p.context.params i).buffer

/-- The buffer of an output parameter was allocated for the size read from the client. -/
structure PreparedAt (op : OpParams) (i : Nat) : Prop where
  tmp : teecTmpmemType (p.paramType i) .output = true →
    ∃ buf, op.localTmpbuf i = some buf ∧ (env i).sizeRead = some buf.size
  ref : teecMemrefType (p.paramType i) .output = true →
    ∃ addr shm s0, op.mbBuffer i = some addr ∧ op.sharemem i = some shm ∧
      (env i).sizeRead = some s0 ∧ sharedMemOf p i = some shm

/-- Allocating one parameter leaves the buffers of the others alone. -/
theorem allocParam_frame (e : ParamEnv) (op : OpParams) {i j : Nat} (hne : j ≠ i) :
    (allocParam p e op i).2.localTmpbuf j = op.localTmpbuf j ∧
      (allocParam p e op i).2.mbBuffer j = op.mbBuffer j ∧
      (allocParam p e op i).2.sharemem j = op.sharemem j := by
  obtain ⟨_, eq⟩ | ⟨_, _, _, _, eq⟩ | ⟨_, _, _, _, _, eq⟩ := allocParam_cases p e op i
  · rw [eq]
    exact ⟨rfl, rfl, rfl⟩
  · rw [eq]
    exact ⟨update_of_ne hne _ _, rfl, rfl⟩
  · rw [eq]
    exact ⟨rfl, update_of_ne hne _ _, update_of_ne hne _ _⟩

theorem allocForTmpMem_ok (e : ParamEnv) (op : OpParams) (i : Nat)
    (ok : (allocForTmpMem p e op i).1 = 0) :
    ∃ buf, (allocForTmpMem p e op i).2.localTmpbuf i = some buf ∧ e.sizeRead = some buf.size ∧
      (allocForTmpMem p e op i).2.memrefSize i = buf.size := by
  unfold allocForTmpMem at ok ⊢
  split at ok
  · exact absurd ok neg_eFAULT
  · rename_i size hsize
    split at ok
    · exact absurd ok neg_eFAULT
    · rename_i small
      rw [if_neg small]
      split at ok
      · exact absurd ok neg_eNOMEM
      · rename_i addr haddr
        simp only at ok ⊢
        split at ok
        · exact absurd ok neg_eFAULT
        · rename_i input
          rw [if_neg input]
          split at ok
          · exact absurd ok neg_eFAULT
          · rename_i auth
            rw [if_neg auth]
            exact ⟨⟨addr, size⟩, update_self _ _ _, hsize, update_self _ _ _⟩

theorem allocForRefMem_ok (e : ParamEnv) (op : OpParams) (i : Nat)
    (ok : (allocForRefMem p e op i).1 = 0) :
    ∃ addr shm s0, (allocForRefMem p e op i).2.mbBuffer i = some addr ∧
      (allocForRefMem p e op i).2.sharemem i = some shm ∧ e.sizeRead = some s0 ∧
      sharedMemOf p i = some shm ∧ (allocForRefMem p e op i).2.memrefSize i = s0 := by
  unfold allocForRefMem at ok ⊢
  split at ok
  · exact absurd ok neg_eINVAL
  · rename_i size hsize
    split at ok
    · exact absurd ok neg_eINVAL
    · rename_i nonzero
      rw [if_neg nonzero]
      split at ok
      · exact absurd ok neg_eINVAL
      · rename_i shm hshm
        split at ok
        · exact absurd ok neg_eINVAL
        · rename_i valid
          simp only [if_neg valid]
          split at ok
          · exact absurd ok neg_eNOMEM
          · rename_i addr haddr
            exact ⟨addr, shm, size, update_self _ _ _, update_self _ _ _, hsize, hshm,
              update_self _ _ _⟩

theorem allocParam_prepared (op : OpParams) (i : Nat) (ok : (allocParam p (env i) op i).1 = 0) :
    PreparedAt p env (allocParam p (env i) op i).2 i where
  tmp := by
    intro h
    unfold allocParam at ok ⊢
    rw [if_pos (tmp_alloc h)] at ok ⊢
    obtain ⟨buf, allocated, read, -⟩ := allocForTmpMem_ok p (env i) op i ok
    exact ⟨buf, allocated, read⟩
  ref := by
    intro h
    obtain ⟨notTmp, ref, _⟩ := ref_alloc h
    unfold allocParam at ok ⊢
    rw [if_neg (by simp [notTmp]), if_pos ref] at ok ⊢
    obtain ⟨addr, shm, s0, buffer, shared, read, found, -⟩ := allocForRefMem_ok p (env i) op i ok
    exact ⟨addr, shm, s0, buffer, shared, read, found⟩

/-- After `alloc_operation` succeeded every output parameter has its buffer. -/
theorem allocOperation_prepared (op : OpParams) (ok : (allocOperation p env op).1 = 0) :
    (allocOperation p env op).2.opInited = true ∧
      ∀ i, i < teeParamNum → PreparedAt p env (allocOperation p env op).2 i := by
  have loop : (untilError (fun op i => allocParam p (env i) op i) (List.range teeParamNum) op).1 = 0 →
      ∀ i, i < teeParamNum → PreparedAt p env (untilError (fun op i => allocParam p (env i) op i)
        (List.range teeParamNum) op).2 i := by
    refine untilError_range (P := fun n op => ∀ i, i < n → PreparedAt p env op i) ?_ ?_
    · intro i hi
      omega
    · intro n op before done i hi
      by_cases hin : i = n
      · subst hin
        exact allocParam_prepared p env op i done
      · obtain ⟨h1, h2, h3⟩ := allocParam_frame p (env n) op hin
        have old := before i (by omega)
        exact ⟨by rw [h1]; exact old.tmp, by rw [h2, h3]; exact old.ref⟩
  unfold allocOperation at ok ⊢
  simp only at ok ⊢
  split at ok
  · rename_i failed
    exact False.elim (failed ok)
  · rename_i fine
    rw [if_neg fine]
    rw [not_not] at fine
    exact ⟨rfl, fun i hi => ⟨(loop fine i hi).tmp, (loop fine i hi).ref⟩⟩

end Prepared

/-- Nothing between copying in and copying out touches the record of the buffers. -/
structure SameBuffers (op op' : OpParams) : Prop where
  tmp : op'.localTmpbuf = op.localTmpbuf
  mb : op'.mbBuffer = op.mbBuffer
  shm : op'.sharemem = op.sharemem
  inited : op'.opInited = op.opInited

namespace SameBuffers

variable (p : CallParams)

theorem trans {a b c : OpParams} (h : SameBuffers a b) (h' : SameBuffers b c) : SameBuffers a c :=
  ⟨h'.tmp.trans h.tmp, h'.mb.trans h.mb, h'.shm.trans h.shm, h'.inited.trans h.inited⟩

theorem config (env : CallEnv) (op : OpParams) : SameBuffers op (configSmcCmdContext p env op).2 := by
  unfold configSmcCmdContext
  simp only
  split <;> exact ⟨rfl, rfl, rfl, rfl⟩

theorem smcs {env : CallEnv} {op op' : OpParams} {ret : Int} {teeRet : Nat}
    (done : smcRounds p env op = some (ret, teeRet, op')) : SameBuffers op op' :=
  smcRounds_inv (P := SameBuffers op) (fun _ _ h => h.trans ⟨rfl, rfl, rfl, rfl⟩)
    (fun _ _ h => h.trans ⟨rfl, rfl, rfl, rfl⟩) (fun _ _ h => h.trans ⟨rfl, rfl, rfl, rfl⟩)
    ⟨rfl, rfl, rfl, rfl⟩ done

end SameBuffers

section Update

variable (p : CallParams) (env : CallEnv) (isComplete : Bool) (op : OpParams)

/-- The copies that updating parameter `i` makes. -/
def newCopies (i : Nat) : List Event :=
  (updateParam p env isComplete { op with trace := [] } i).2.trace

/-- Updating a parameter reads nothing from the trace and adds its copies to it. -/
theorem updateParam_eq (tr : List Event) (i : Nat) :
    updateParam p env isComplete { op with trace := tr } i =
      ((updateParam p env isComplete op i).1,
        { op with trace := tr ++ newCopies p env isComplete op i }) := by
  unfold newCopies updateParam
  split
  · unfold updateTmpMem
    simp only
    split
    · simp
    · split
      · split <;> simp
      · cases ((env.param i).writeTmpbuf (p.context.params i).buffer (op.memrefSize i)).2 with
        | none => split <;> simp [OpParams.logSome]
        | some n => split <;> simp [OpParams.logSome, OpParams.log]
  · split
    · unfold updateForRefMem
      simp only
      split
      · simp
      · split
        · simp
        · split
          · split
            · split <;> simp [OpParams.log]
            · simp
          · simp
    · split
      · unfold updateForValue
        split
        · simp
        · split <;> simp
      · simp

/-- The update gets to parameter `i`: the ones before it were updated without an error. -/
def Reached (i : Nat) : Prop := ∀ j, j < i → (updateParam p env isComplete op j).1 = 0

/-- The whole loop, by induction on the number of parameters: it ends without an error when
each update does, and it makes the copies of the parameters it gets to. -/
theorem update_loop (n : Nat) :
    ∃ tr, (untilError (updateParam p env isComplete) (List.range n) op).2 =
        { op with trace := tr } ∧
      ((untilError (updateParam p env isComplete) (List.range n) op).1 = 0 ↔
        Reached p env isComplete op n) ∧
      ∀ e, e ∈ tr ↔ e ∈ op.trace ∨
        ∃ i, i < n ∧ Reached p env isComplete op i ∧ e ∈ newCopies p env isComplete op i := by
  induction n with
  | zero => exact ⟨op.trace, rfl, by simp [untilError, Reached], by simp⟩
  | succ n ih =>
    obtain ⟨tr, hop, hret, hmem⟩ := ih
    have reachedSucc : Reached p env isComplete op (n + 1) ↔
        Reached p env isComplete op n ∧ (updateParam p env isComplete op n).1 = 0 := by
      constructor
      · intro h
        exact ⟨fun j hj => h j (by omega), h n (by omega)⟩
      · rintro ⟨h, hn⟩ j hj
        rcases Nat.lt_succ_iff_lt_or_eq.mp hj with hj | rfl
        · exact h j hj
        · exact hn
    rw [List.range_succ, untilError_snoc]
    split
    · rename_i failed
      have stuck : ¬ Reached p env isComplete op n := fun h => failed (hret.mpr h)
      refine ⟨tr, hop, ?_, ?_⟩
      · rw [reachedSucc]
        exact ⟨fun h => False.elim (failed h), fun h => False.elim (stuck h.1)⟩
      · intro e
        rw [hmem]
        constructor
        · rintro (h | ⟨i, hi, h⟩)
          · exact Or.inl h
          · exact Or.inr ⟨i, by omega, h⟩
        · rintro (h | ⟨i, hi, reached, h⟩)
          · exact Or.inl h
          · refine Or.inr ⟨i, ?_, reached, h⟩
            by_contra hge
            obtain rfl : i = n := by omega
            exact stuck reached
    · rename_i fine
      rw [not_not] at fine
      have reached := hret.mp fine
      rw [hop, updateParam_eq]
      refine ⟨tr ++ newCopies p env isComplete op n, rfl, ?_, ?_⟩
      · rw [reachedSucc]
        exact ⟨fun h => ⟨reached, h⟩, And.right⟩
      · intro e
        rw [List.mem_append, hmem]
        constructor
        · rintro ((h | ⟨i, hi, h⟩) | h)
          · exact Or.inl h
          · exact Or.inr ⟨i, by omega, h⟩
          · exact Or.inr ⟨n, by omega, reached, h⟩
        · rintro (h | ⟨i, hi, h, h'⟩)
          · exact Or.inl (Or.inl h)
          · rcases Nat.lt_succ_iff_lt_or_eq.mp hi with hi | rfl
            · exact Or.inl (Or.inr ⟨i, hi, h, h'⟩)
            · exact Or.inr h'

/-- The size passed the check against `s0`, and what is fetched for the count of the copy is
larger. -/
def Refetched (i s0 : Nat) : Prop :=
  teecTmpmemType (p.paramType i) .output = true ∧ op.memrefSize i ≤ s0 ∧
    (p.context.params i).buffer ≠ 0 ∧
    s0 < (env.param i).countRefetch.getD (op.memrefSize i) ∧
    (env.param i).countRefetch.getD (op.memrefSize i) ≤
      (env.param i).destRefetch.getD (op.memrefSize i)

/-- The client has raised its size cell from `s0` to `s1` since the parameter was copied in,
and the TEE's size lies between the two. -/
def Raised (i s0 : Nat) : Prop :=
  teecMemrefType (p.paramType i) .output = true ∧
    ∃ s1 shm, (env.param i).sizeReRead = some s1 ∧
      op.sharemem i = some shm ∧ s0 < op.memrefSize i ∧ op.memrefSize i ≤ s1 ∧
      env.memcpyS ((2 ^ 64 + shm.len - (p.context.params i).offset) % 2 ^ 64)
        (op.memrefSize i) = true

/-- A size has grown from the `s0` of copying in, between the check and the copy. -/
def Overcopies (i : Nat) : Prop :=
  (env.param i).sizeWrite = true ∧ ∃ s0, (env.param i).sizeRead = some s0 ∧
    (Refetched p env op i s0 ∨ Raised p env op i s0)

theorem copiesBounded_nil : CopiesBounded env [] := by
  intro i n h
  cases h

theorem copiesBounded_single {i n s0 : Nat} (read : (env.param i).sizeRead = some s0) :
    CopiesBounded env [.copyOut i n] ↔ n ≤ s0 := by
  constructor
  · intro h
    obtain ⟨s, hs, le⟩ := h i n List.mem_cons_self
    obtain rfl : s0 = s := Option.some.inj (read.symm.trans hs)
    exact le
  · intro le j m h
    obtain ⟨rfl, rfl⟩ : j = i ∧ m = n := by simpa using h
    exact ⟨s0, read, le⟩

/-- What `write_to_client` hands on. -/
theorem writeToClient_some {dest destSize size n : Nat} {written : Bool} :
    (writeToClient dest destSize size written).2 = some n ↔
      dest ≠ 0 ∧ size ≤ destSize ∧ size ≠ 0 ∧ n = size := by
  unfold writeToClient
  split
  · simp_all
  · split
    · simp only [reduceCtorEq, false_iff]
      omega
    · split
      · simp_all
      · simp only [Option.some.injEq]
        omega

theorem tmpCopies_bounded {i : Nat} {buf : TempBuf} (tmp : teecTmpmemType (p.paramType i) .output = true)
    (allocated : op.localTmpbuf i = some buf) (read : (env.param i).sizeRead = some buf.size) :
    CopiesBounded env (updateTmpMem p (env.param i) isComplete { op with trace := [] } i).2.trace ↔
      ¬ Overcopies p env op i := by
  have same : Overcopies p env op i ↔
      (env.param i).sizeWrite = true ∧ Refetched p env op i buf.size := by
    constructor
    · rintro ⟨written, s0, hs, refetched | ⟨ref, -⟩⟩
      · obtain rfl := Option.some.inj (read.symm.trans hs)
        exact ⟨written, refetched⟩
      · simp [(ref_alloc ref).2.2] at tmp
    · rintro ⟨written, refetched⟩
      exact ⟨written, buf.size, read, .inl refetched⟩
  rw [same]
  unfold updateTmpMem
  simp only [allocated, Option.map_some, Option.getD_some]
  split
  · rename_i unwritten
    simp [copiesBounded_nil, unwritten]
  · rename_i written
    rw [Bool.not_eq_false] at written
    split
    · rename_i larger
      have none : ¬ Refetched p env op i buf.size := fun h => absurd h.2.1 (Nat.not_le.2 larger)
      simp only [none, and_false, not_false_eq_true, iff_true]
      split <;> exact copiesBounded_nil env
    · rename_i fits
      rw [Nat.not_lt] at fits
      have logged : ∀ ret : Int × OpParams, ret.2.trace =
          (({ op with trace := [] } : OpParams).logSome (.copyOut i)
            ((env.param i).writeTmpbuf (p.context.params i).buffer (op.memrefSize i)).2).trace →
          (CopiesBounded env ret.2.trace ↔
            ¬ ((env.param i).sizeWrite = true ∧ Refetched p env op i buf.size)) := by
        intro ret trace
        rw [trace]
        cases handed : ((env.param i).writeTmpbuf (p.context.params i).buffer (op.memrefSize i)).2 with
        | none =>
          refine iff_of_true (copiesBounded_nil env) ?_
          rintro ⟨-, -, -, buffer, larger, accepted⟩
          have full : ((env.param i).writeTmpbuf (p.context.params i).buffer
              (op.memrefSize i)).2 =
              some ((env.param i).countRefetch.getD (op.memrefSize i)) :=
            writeToClient_some.2 ⟨buffer, accepted, by omega, rfl⟩
          rw [full] at handed
          cases handed
        | some n =>
          obtain ⟨buffer, accepted, -, rfl⟩ := writeToClient_some.1 handed
          refine (copiesBounded_single env read).trans ⟨?_, ?_⟩
          · rintro within ⟨-, -, -, -, larger, -⟩
            omega
          · intro fine
            by_contra larger
            exact fine ⟨written, tmp, fits, buffer, by omega, accepted⟩
      split
      · exact logged _ rfl
      · exact logged _ rfl

theorem refCopies_bounded {i s0 addr : Nat} {shm : SharedMem}
    (ref : teecMemrefType (p.paramType i) .output = true) (buffer : op.mbBuffer i = some addr)
    (shared : op.sharemem i = some shm) (read : (env.param i).sizeRead = some s0) :
    CopiesBounded env
        (updateForRefMem p env.memcpyS (env.param i) { op with trace := [] } i).2.trace ↔
      ¬ Overcopies p env op i := by
  have same : Overcopies p env op i ↔
      (env.param i).sizeWrite = true ∧ Raised p env op i s0 := by
    constructor
    · rintro ⟨written, s, hs, ⟨tmp, -⟩ | raised⟩
      · simp [(ref_alloc ref).2.2] at tmp
      · obtain rfl := Option.some.inj (read.symm.trans hs)
        exact ⟨written, raised⟩
    · rintro ⟨written, raised⟩
      exact ⟨written, s0, read, .inr raised⟩
  rw [same]
  unfold updateForRefMem
  simp only [buffer, shared]
  split
  · rename_i unread
    simp [copiesBounded_nil, Raised, unread]
  · rename_i s1 hreread
    split
    · rename_i unwritten
      simp [copiesBounded_nil, unwritten]
    · rename_i written
      rw [Bool.not_eq_false] at written
      split
      · rename_i le
        split
        · rename_i copied
          refine (copiesBounded_single env (n := op.memrefSize i) read).trans ⟨?_, ?_⟩
          · rintro fits ⟨-, -, _, _, -, -, larger, -⟩
            omega
          · intro fine
            by_contra larger
            exact fine ⟨written, ref, s1, shm, hreread, shared, by omega, le, copied⟩
        · rename_i failed
          refine ⟨?_, fun _ => copiesBounded_nil env⟩
          rintro - ⟨-, -, _, m, -, hm, -, -, copied⟩
          obtain rfl := Option.some.inj (shared.symm.trans hm)
          exact failed copied
      · rename_i small
        refine ⟨?_, fun _ => copiesBounded_nil env⟩
        rintro - ⟨-, -, s, _, hs, -, -, le, -⟩
        obtain rfl := Option.some.inj (hreread.symm.trans hs)
        exact small le

theorem newCopies_bounded {i : Nat} (prepared : PreparedAt p env.param op i) :
    CopiesBounded env (newCopies p env isComplete op i) ↔ ¬ Overcopies p env op i := by
  unfold newCopies updateParam
  split
  · rename_i tmp
    obtain ⟨buf, allocated, read⟩ := prepared.tmp tmp
    exact tmpCopies_bounded p env isComplete op tmp allocated read
  · split
    · rename_i ref
      obtain ⟨addr, shm, s0, buffer, shared, read, -⟩ := prepared.ref ref
      exact refCopies_bounded p env op ref buffer shared read
    · rename_i notTmp notRef
      have none : ¬ Overcopies p env op i := by
        rintro ⟨-, -, -, ⟨tmp, -⟩ | ⟨ref, -⟩⟩
        · exact notTmp tmp
        · exact notRef ref
      simp only [none, not_false_eq_true, iff_true]
      split
      · unfold updateForValue
        split
        · exact copiesBounded_nil env
        · split <;> exact copiesBounded_nil env
      · exact copiesBounded_nil env

end Update

/-- The state in which `update_client_operation` runs and its `is_complete`, for a call
that gets there. -/
def updateState (p : CallParams) (env : CallEnv) (tokens : TokenState) : Option (Bool × OpParams) :=
  if env.smcCmdAlloc = false then none
  else
    match env.mbPack with
    | none => none
    | some pack =>
      match beforeSmc p env (startOp p pack tokens) with
      | (ret, op) =>
        if ret ≠ 0 then none
        else
          match smcRounds p env op with
          | none => none
          | some (ret, teeRet, op) =>
            if ret ≠ 0 then none
            else if teeRet = 0 then some (true, op)
            else if teeRet = teecErrorShortBuffer then some (false, op)
            else none

theorem prepared_of_same {p : CallParams} {env : Nat → ParamEnv} {op op' : OpParams}
    (same : SameBuffers op op') (inited : op.opInited = true)
    (prepared : ∀ i, i < teeParamNum → PreparedAt p env op i) :
    op'.opInited = true ∧ ∀ i, i < teeParamNum → PreparedAt p env op' i := by
  refine ⟨same.inited.trans inited, fun i hi => ⟨?_, ?_⟩⟩
  · rw [same.tmp]
    exact (prepared i hi).tmp
  · rw [same.mb, same.shm]
    exact (prepared i hi).ref

theorem beforeSmc_prepared {p : CallParams} {env : CallEnv} {op : OpParams}
    (submitted : (beforeSmc p env op).1 = 0) (used : p.context.paramTypes ≠ 0) :
    (beforeSmc p env op).2.opInited = true ∧
      ∀ i, i < teeParamNum → PreparedAt p env.param (beforeSmc p env op).2 i := by
  unfold beforeSmc at submitted ⊢
  simp only [ne_eq, used, not_false_eq_true, if_true] at submitted ⊢
  split at submitted
  · rename_i failed
    exact False.elim (failed submitted)
  · rename_i ok
    rw [if_neg ok]
    rw [not_not] at ok
    obtain ⟨inited, prepared⟩ := allocOperation_prepared p env.param _ ok
    exact prepared_of_same (SameBuffers.config p env _) inited prepared

/-- The buffers of a call that reaches the update are prepared. -/
theorem updateState_prepared {p : CallParams} {env : CallEnv} {tokens : TokenState}
    {isComplete : Bool} {op : OpParams}
    (state : updateState p env tokens = some (isComplete, op)) (used : p.context.paramTypes ≠ 0) :
    op.opInited = true ∧ ∀ i, i < teeParamNum → PreparedAt p env.param op i := by
  unfold updateState at state
  split at state
  · cases state
  · split at state
    · cases state
    · rename_i pack _
      simp only at state
      split at state
      · cases state
      · rename_i submitted
        rw [not_not] at submitted
        split at state
        · cases state
        · rename_i ret teeRet op' rounds
          have same := SameBuffers.smcs p rounds
          have start := beforeSmc_prepared submitted used
          have final : op = op' := by
            split at state
            · cases state
            · split at state
              · exact (Prod.mk.inj (Option.some.inj state)).2.symm
              · split at state
                · exact (Prod.mk.inj (Option.some.inj state)).2.symm
                · cases state
          rw [final]
          exact prepared_of_same same start.1 start.2

section NoCopies

def NoCopy (e : Event) : Prop := ¬ IsCopy e

theorem copiesBounded_extends (env : CallEnv) {xs ys : List Event} (h : Extends NoCopy xs ys) :
    CopiesBounded env ys ↔ CopiesBounded env xs := by
  obtain ⟨es, rfl, none⟩ := h
  constructor
  · intro bounded i n hi
    exact bounded i n (List.mem_append_left _ hi)
  · intro bounded i n hi
    rcases List.mem_append.mp hi with hi | hi
    · exact bounded i n hi
    · exact False.elim (none _ hi trivial)

theorem IsResource.noCopy {e : Event} (h : IsResource e) : NoCopy e := by
  cases e <;> first | exact False.elim h | exact id

theorem IsSmc.noCopy {e : Event} (h : IsSmc e) : NoCopy e := by
  cases e <;> first | exact False.elim h | exact id

theorem freeSrc_noCopy (p : CallParams) (ret : Int) (teeRet : Nat) (op : OpParams) :
    Extends NoCopy op.trace (freeSrc p ret teeRet op).op.trace := by
  obtain ⟨es, pack, htrace, resource⟩ := freeSrc_trace p ret teeRet op
  refine ⟨es ++ [.mbFree pack], htrace, ?_⟩
  intro e he
  rcases List.mem_append.mp he with he | he
  · exact (resource e he).noCopy
  · rw [List.mem_singleton.mp he]
    exact id

end NoCopies

/-- A call either never reaches the update and copies nothing, or copies what the update
does. -/
theorem tcClientCall_copies {p : CallParams} {env : CallEnv} {tokens : TokenState}
    {res : CallResult} (returned : tcClientCall p env tokens = some res) :
    (updateState p env tokens = none ∧ Extends NoCopy [] res.op.trace) ∨
      ∃ isComplete op, updateState p env tokens = some (isComplete, op) ∧
        Extends NoCopy [] op.trace ∧
        Extends NoCopy (updateClientOperation p env isComplete op).2.trace res.op.trace := by
  unfold tcClientCall at returned
  unfold updateState
  simp only at returned
  split at returned
  · obtain rfl := Option.some.inj returned
    exact Or.inl ⟨if_pos (by assumption), .refl _ _⟩
  · rename_i cmd
    rw [if_neg cmd]
    cases hpack : env.mbPack with
    | none =>
      simp only [hpack] at returned ⊢
      obtain rfl := Option.some.inj returned
      exact Or.inl ⟨trivial, .refl _ _⟩
    | some pack =>
      simp only [hpack] at returned ⊢
      have start : Extends NoCopy [] (beforeSmc p env (startOp p pack tokens)).2.trace := by
        have pack : Extends NoCopy [] (startOp p pack tokens).trace :=
          (Extends.refl _ []).snoc id
        exact pack.trans ((beforeSmc_trace p env _).mono (fun _ => IsResource.noCopy))
      split at returned
      · rename_i failed
        obtain rfl := Option.some.inj returned
        exact Or.inl ⟨if_pos failed, start.trans (freeSrc_noCopy p _ _ _)⟩
      · rename_i submitted
        rw [if_neg submitted]
        unfold afterConfig at returned
        rcases rounds : smcRounds p env (beforeSmc p env (startOp p pack tokens)).2 with
          _ | ⟨ret, teeRet, op⟩
        · simp [rounds] at returned
        · simp only [rounds] at returned ⊢
          have sent : Extends NoCopy [] op.trace :=
            start.trans ((smcRounds_trace p rounds).mono (fun _ => IsSmc.noCopy))
          split at returned
          · rename_i failed
            obtain rfl := Option.some.inj returned
            exact Or.inl ⟨if_pos failed, sent.trans (freeSrc_noCopy p _ _ _)⟩
          · rename_i ok
            rw [if_neg ok]
            simp only [Option.some.injEq] at returned
            subst returned
            have free := freeSrc_noCopy p (postProcSmcReturn p env teeRet op).1 teeRet
              (postProcSmcReturn p env teeRet op).2
            by_cases success : teeRet = 0
            · subst success
              exact Or.inr ⟨true, op, rfl, sent, free⟩
            · by_cases short : teeRet = teecErrorShortBuffer
              · subst short
                exact Or.inr ⟨false, op, rfl, sent, free⟩
              · have same : (postProcSmcReturn p env teeRet op).2 = op := by
                  simp [postProcSmcReturn, success, short]
                rw [same] at free
                rw [same, if_neg success, if_neg short]
                exact Or.inl ⟨rfl, sent.trans free⟩

theorem updateClientOperation_bounded {p : CallParams} {env : CallEnv} {isComplete : Bool}
    {op : OpParams} (clean : CopiesBounded env op.trace)
    (prepared : p.context.paramTypes ≠ 0 →
      op.opInited = true ∧ ∀ i, i < teeParamNum → PreparedAt p env.param op i) :
    CopiesBounded env (updateClientOperation p env isComplete op).2.trace ↔
      ∀ i, i < teeParamNum → Reached p env isComplete op i → ¬ Overcopies p env op i := by
  unfold updateClientOperation
  by_cases used : p.context.paramTypes = 0
  · -- without parameters there is no memory reference to copy
    have none : ∀ i, ¬ Overcopies p env op i := by
      have untyped : ∀ i, p.paramType i = 0 := by
        intro i
        simp [CallParams.paramType, used, teecParamTypeGet]
      rintro i ⟨-, -, -, ⟨tmp, -⟩ | ⟨ref, -⟩⟩
      · rw [untyped] at tmp
        cases tmp
      · rw [untyped] at ref
        cases ref
    have same : (if op.opInited = false then ((0 : Int), op)
        else if p.context.paramTypes = 0 then (0, op)
        else untilError (updateParam p env isComplete) (List.range teeParamNum) op) = (0, op) := by
      simp [used]
    rw [same]
    simp [clean, none]
  · obtain ⟨inited, prepared⟩ := prepared used
    rw [if_neg (by simp [inited]), if_neg used]
    obtain ⟨tr, hop, _, hmem⟩ := update_loop p env isComplete op teeParamNum
    rw [hop]
    constructor
    · intro bounded i hi reached
      refine (newCopies_bounded p env isComplete op (prepared i hi)).mp ?_
      intro j n hj
      exact bounded j n ((hmem _).mpr (Or.inr ⟨i, hi, reached, hj⟩))
    · intro none j n hj
      rcases (hmem _).mp hj with hj | ⟨i, hi, reached, hj⟩
      · exact clean j n hj
      · exact (newCopies_bounded p env isComplete op (prepared i hi)).mpr (none i hi reached) j n hj

/-- A returned call copied at most what was copied in exactly when no parameter that its
update gets to had its size raised under it, in the pack or in the client's cell. -/
theorem copies_bounded_iff (p : CallParams) (env : CallEnv) (tokens : TokenState)
    {res : CallResult} (returned : tcClientCall p env tokens = some res) :
    CopiesBounded env res.op.trace ↔
      ∀ isComplete op, updateState p env tokens = some (isComplete, op) →
        ∀ i, i < teeParamNum → Reached p env isComplete op i → ¬ Overcopies p env op i := by
  rcases tcClientCall_copies returned with ⟨unreached, clean⟩ | ⟨c, op, state, clean, final⟩
  · rw [copiesBounded_extends env clean, unreached]
    simp [copiesBounded_nil]
  · have clean' := (copiesBounded_extends env clean).mpr (copiesBounded_nil env)
    rw [copiesBounded_extends env final,
      updateClientOperation_bounded clean' (updateState_prepared state), state]
    constructor
    · rintro h c' op' heq
      obtain ⟨rfl, rfl⟩ := Prod.mk.inj (Option.some.inj heq)
      exact h
    · intro h
      exact h c op rfl

/-- An invoke whose first parameter is a part of shared memory for output. -/
def partialInvoke : CallParams where
  dev := ⟨1, ⟨0, false⟩, 0, [⟨1, 0x1000, 0x8000, 8192⟩]⟩
  context := { uuid := 7, sessionId := 3, cmdId := 9, paramTypes := 0xe,
               params := fun _ => ⟨0x1000, 0⟩, teecToken := true, tokenLen := 24 }
  sess := true
  global := false

/-- The event is no copy of more than `n` bytes. -/
def copiesAtMost (n : Nat) : Event → Bool
  | .copyOut _ count => decide (count ≤ n)
  | _ => true

/-- The client's cell holds 16 first and `s1` later; the TEE writes the size `t`. -/
def sizeRaised (s1 t : Nat) : CallEnv where
  mbPack := some 4096
  param := fun _ => { sizeRead := some 16, mbAlloc := some 8192, sizeReRead := some s1 }
  tokenRead := some (fun _ => 0)
  first := { reply := { ret := 0, cmdId := 9, contextId := 3, opSize := fun _ => t,
                        token := fun i => if i.val = 41 then isSynced else 0 } }
  memcpyS := fun destMax count => decide (0 < destMax ∧ destMax ≤ 0x7fffffff ∧ count ≤ destMax)

theorem copies_bounded_steady_cell :
    ∃ res, tcClientCall partialInvoke (sizeRaised 16 12) freshTokens = some res ∧ res.ret = 0 ∧
      .copyOut 0 12 ∈ res.op.trace ∧
      ∀ isComplete op, updateState partialInvoke (sizeRaised 16 12) freshTokens =
          some (isComplete, op) →
        ∀ i, i < teeParamNum → Reached partialInvoke (sizeRaised 16 12) isComplete op i →
          ¬ Overcopies partialInvoke (sizeRaised 16 12) op i := by
  obtain ⟨res, returned⟩ := Option.isSome_iff_exists.mp
    (show (tcClientCall partialInvoke (sizeRaised 16 12) freshTokens).isSome = true by
      decide +kernel)
  have test : (tcClientCall partialInvoke (sizeRaised 16 12) freshTokens).all
      (fun res => res.ret == 0 && res.op.trace.contains (.copyOut 0 12) &&
        res.op.trace.all (copiesAtMost 16)) = true := by decide +kernel
  rw [returned, Option.all_some] at test
  simp only [Bool.and_eq_true, beq_iff_eq, List.contains_iff_mem, List.all_eq_true] at test
  refine ⟨res, returned, test.1.1, test.1.2, ?_⟩
  refine (copies_bounded_iff partialInvoke (sizeRaised 16 12) freshTokens returned).mp ?_
  intro i n hi
  exact ⟨16, rfl, by simpa [copiesAtMost] using test.2 _ hi⟩

/-- An invoke whose first parameter is a temporary buffer for output. -/
def tempInvoke : CallParams :=
  { partialInvoke with context := { partialInvoke.context with paramTypes := 0x6 } }

/-- The size is 16 in the reply and at the check, and `t` when the copy fetches it. -/
def sizeRefetched (t : Nat) : CallEnv :=
  { sizeRaised 16 16 with
    param := fun _ => { sizeRead := some 16, mbAlloc := some 8192, destRefetch := some t,
                        countRefetch := some t } }

/-- A call that copies 4096 bytes of a parameter whose size was 16 at copying in. -/
theorem overcopied {p : CallParams} {env : CallEnv} (read : (env.param 0).sizeRead = some 16)
    (test : (tcClientCall p env freshTokens).any
      (fun res => res.ret == 0 && res.op.trace.contains (.copyOut 0 4096)) = true) :
    ∃ res, tcClientCall p env freshTokens = some res ∧ res.ret = 0 ∧
      .copyOut 0 4096 ∈ res.op.trace ∧ ¬ CopiesBounded env res.op.trace := by
  obtain ⟨res, returned, good⟩ := (Option.any_eq_true _ _).1 test
  simp only [Bool.and_eq_true, beq_iff_eq, List.contains_iff_mem] at good
  refine ⟨res, returned, good.1, good.2, ?_⟩
  intro bounded
  obtain ⟨s0, hs0, le⟩ := bounded 0 4096 good.2
  obtain rfl := Option.some.inj (read.symm.trans hs0)
  omega

/-- The mailbox buffer was allocated for 16 bytes and 4096 bytes are copied from it: the client
has raised its cell, or the TEE the size in the pack. -/
theorem raised_size_overcopies :
    (∃ res, tcClientCall partialInvoke (sizeRaised 4096 4096) freshTokens = some res ∧
      res.ret = 0 ∧ .copyOut 0 4096 ∈ res.op.trace ∧
      ¬ CopiesBounded (sizeRaised 4096 4096) res.op.trace) ∧
    ∃ res, tcClientCall tempInvoke (sizeRefetched 4096) freshTokens = some res ∧
      res.ret = 0 ∧ .copyOut 0 4096 ∈ res.op.trace ∧
      ¬ CopiesBounded (sizeRefetched 4096) res.op.trace :=
  ⟨overcopied rfl (by decide +kernel), overcopied rfl (by decide +kernel)⟩

end ClientCall
