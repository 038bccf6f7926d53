import Mathlib.Data.Multiset.AddSub
import Tzdriver.CopyOut

/-!
# What a client call takes and gives back

A call takes one mailbox block for the pack, a block for every temporary buffer, and a block
and a reference for every part of shared memory. `replay` follows the trace of a call on
the resources that are out when it starts: the multiplicity of a block says whether it is
live, the multiplicity of a shared memory is its usage count, and a release of something
that is not out is an error. The record of the operation says at every point what there is
to give back, whichever parameter failed.
-/

namespace ClientCall

open Function TraceExtension

inductive Resource where
  | block (addr : Nat)
  | shm (id : Nat)
  deriving DecidableEq, Repr

def giveBack (r : Resource) (out : Multiset Resource) : Option (Multiset Resource) :=
  if r ∈ out then some (out.erase r) else none

def Event.apply (out : Multiset Resource) : Event → Option (Multiset Resource)
  | .mbAlloc addr => some (.block addr ::ₘ out)
  | .mbFree addr => giveBack (.block addr) out
  | .shmGet id => some (.shm id ::ₘ out)
  | .shmPut id => giveBack (.shm id) out
  | .smc _ _ _ _ | .copyOut _ _ => some out

def replay (out : Multiset Resource) : List Event → Option (Multiset Resource)
  | [] => some out
  | e :: es => (e.apply out).bind fun out => replay out es

theorem replay_append (es fs : List Event) (out : Multiset Resource) :
    replay out (es ++ fs) = (replay out es).bind fun out => replay out fs := by
  induction es generalizing out with
  | nil => rfl
  | cons e es ih =>
    simp only [List.cons_append, replay, Option.bind_assoc]
    congr 1
    funext out
    exact ih out

/-- From any start the trace runs without an error and leaves `r` out in addition. -/
def Nets (trace : List Event) (r : Multiset Resource) : Prop :=
  ∀ out, replay out trace = some (r + out)

section Nets

variable {trace trace' : List Event} {r : Multiset Resource} {x : Resource} {e : Event}

theorem Nets.snoc {r' : Multiset Resource} (h : Nets trace r)
    (step : ∀ out, e.apply (r + out) = some (r' + out)) : Nets (trace ++ [e]) r' := by
  intro out
  rw [replay_append, h out]
  simp [replay, step]

theorem Nets.take (h : Nets trace r) (takes : ∀ out, e.apply out = some (x ::ₘ out)) :
    Nets (trace ++ [e]) (x ::ₘ r) :=
  h.snoc fun out => by rw [takes, Multiset.cons_add]

theorem Nets.give (h : Nets trace (x ::ₘ r)) (gives : ∀ out, e.apply out = giveBack x out) :
    Nets (trace ++ [e]) r :=
  h.snoc fun out => by simp [gives, giveBack]

def NoResource (e : Event) : Prop := ¬ IsResource e

theorem NoResource.apply (quiet : NoResource e) (out : Multiset Resource) :
    e.apply out = some out := by
  cases e with
  | smc | copyOut => rfl
  | mbAlloc | mbFree | shmGet | shmPut => exact absurd trivial quiet

theorem Nets.quiet (h : Nets trace r) (quiet : NoResource e) : Nets (trace ++ [e]) r :=
  h.snoc fun _ => quiet.apply _

end Nets

/-- What a pointer that may be `NULL` has to give back. -/
def pointee {α : Type} (res : α → Resource) : Option α → Multiset Resource
  | some a => {res a}
  | none => 0

theorem Nets.logSome {α : Type} {op : OpParams} {res : α → Resource} {e : α → Event}
    {o : Option α} {r : Multiset Resource} (h : Nets op.trace (pointee res o + r))
    (gives : ∀ a out, (e a).apply out = giveBack (res a) out) :
    Nets (op.logSome e o).trace r := by
  cases o with
  | none =>
    rw [pointee, zero_add] at h
    exact h
  | some a =>
    rw [pointee, Multiset.singleton_add] at h
    exact h.give (gives a)

section Record

variable (p : CallParams)

/-- What `free_operation` gives back for one parameter. -/
def paramHolds (op : OpParams) (i : Nat) : Multiset Resource :=
  if isTmpMem (p.paramType i) then
    pointee (fun buf => .block buf.addr) (op.localTmpbuf i)
  else if isRefMem (p.paramType i) then
    pointee (fun shm => .shm shm.id) (op.sharemem i) + pointee .block (op.mbBuffer i)
  else if p.paramType i == teecIonSglistInput then
    pointee (fun buf => .block buf.addr) (op.localTmpbuf i)
  else 0

theorem paramHolds_congr {op op' : OpParams} {i : Nat} (tmp : op'.localTmpbuf i = op.localTmpbuf i)
    (mb : op'.mbBuffer i = op.mbBuffer i) (shm : op'.sharemem i = op.sharemem i) :
    paramHolds p op' i = paramHolds p op i := by
  simp only [paramHolds, tmp, mb, shm]

def allHold (op : OpParams) (is : List Nat) : Multiset Resource :=
  (is.map (paramHolds p op)).sum

theorem allHold_congr {op op' : OpParams} {is : List Nat}
    (same : ∀ i ∈ is, paramHolds p op' i = paramHolds p op i) : allHold p op' is = allHold p op is := by
  unfold allHold
  rw [List.map_congr_left same]

/-- The trace is in step with the record: the pack and what the operation holds are out. -/
def Owns (op : OpParams) : Prop :=
  Nets op.trace (.block op.mbPack ::ₘ
    if op.opInited then allHold p op (List.range teeParamNum) else 0)

end Record

theorem isTmpMem_of_ref {t : Nat} (ref : isRefMem t = true) : isTmpMem t = false := by
  simp only [isRefMem, Bool.or_eq_true, beq_iff_eq] at ref
  rcases ref with (rfl | rfl) | rfl <;> rfl

section Free

variable (p : CallParams)

/-- Freeing only writes to the trace. -/
theorem logSome_record {α : Type} (op : OpParams) (e : α → Event) (o : Option α) :
    ∃ trace, op.logSome e o = { op with trace := trace } := by
  cases o with
  | none => exact ⟨op.trace, rfl⟩
  | some a => exact ⟨_, rfl⟩

theorem freeParam_record (op : OpParams) (i : Nat) :
    ∃ trace, freeParam p op i = { op with trace := trace } := by
  unfold freeParam
  split
  · exact logSome_record op _ _
  · split
    · obtain ⟨trace, eq⟩ := logSome_record op (fun shm => .shmPut shm.id) (op.sharemem i)
      rw [eq]
      exact logSome_record _ _ _
    · split
      · exact logSome_record op _ _
      · exact ⟨op.trace, rfl⟩

theorem freeParam_nets {op : OpParams} {i : Nat} {r : Multiset Resource}
    (h : Nets op.trace (paramHolds p op i + r)) : Nets (freeParam p op i).trace r := by
  unfold paramHolds at h
  unfold freeParam
  split
  · rename_i tmp
    rw [if_pos tmp] at h
    exact h.logSome fun _ _ => rfl
  · rename_i notTmp
    rw [if_neg notTmp] at h
    split
    · rename_i ref
      rw [if_pos ref, add_assoc] at h
      exact Nets.logSome (h.logSome fun _ _ => rfl) fun _ _ => rfl
    · rename_i notRef
      rw [if_neg notRef] at h
      split
      · rename_i sglist
        rw [if_pos sglist] at h
        exact h.logSome fun _ _ => rfl
      · rename_i other
        rw [if_neg other, zero_add] at h
        exact h

theorem freeParams_nets {is : List Nat} {op : OpParams} {r : Multiset Resource}
    (h : Nets op.trace (allHold p op is + r)) :
    Nets (is.foldl (freeParam p) op).trace r ∧
      (is.foldl (freeParam p) op).mbPack = op.mbPack ∧
      (is.foldl (freeParam p) op).opInited = op.opInited := by
  induction is generalizing op with
  | nil =>
    rw [allHold, List.map_nil, List.sum_nil, zero_add] at h
    exact ⟨h, rfl, rfl⟩
  | cons i is ih =>
    rw [allHold, List.map_cons, List.sum_cons, add_assoc] at h
    have freed := freeParam_nets p h
    obtain ⟨trace, eq⟩ := freeParam_record p op i
    rw [eq] at freed
    rw [List.foldl_cons, eq]
    exact ih freed

end Free

section Alloc

variable (p : CallParams)

/-- Copying one parameter in takes what its record then holds, also when it fails. -/
theorem allocParam_nets (env : ParamEnv) {op : OpParams} {i : Nat} {r : Multiset Resource}
    (clean : op.localTmpbuf i = none ∧ op.mbBuffer i = none ∧ op.sharemem i = none)
    (h : Nets op.trace r) :
    Nets (allocParam p env op i).2.trace (paramHolds p (allocParam p env op i).2 i + r) ∧
      (allocParam p env op i).2.mbPack = op.mbPack ∧
      (allocParam p env op i).2.opInited = op.opInited := by
  obtain ⟨noTmp, noMb, noShm⟩ := clean
  obtain ⟨_, eq⟩ | ⟨buf, _, _, tmp, eq⟩ | ⟨addr, shm, _, _, ref, eq⟩ := allocParam_cases p env op i
  · rw [eq]
    refine ⟨?_, rfl, rfl⟩
    simpa [paramHolds, pointee, noTmp, noMb, noShm] using h
  · rw [eq]
    refine ⟨?_, rfl, rfl⟩
    have taken : Nets (op.trace ++ [.mbAlloc buf.addr]) (.block buf.addr ::ₘ r) :=
      h.take fun _ => rfl
    simpa [paramHolds, pointee, tmp, OpParams.log] using taken
  · rw [eq]
    refine ⟨?_, rfl, rfl⟩
    have notTmp : isTmpMem (p.paramType i) = false := isTmpMem_of_ref ref
    have taken : Nets (op.trace ++ [.mbAlloc addr] ++ [.shmGet shm.id])
        (.shm shm.id ::ₘ .block addr ::ₘ r) :=
      (h.take fun _ => rfl).take fun _ => rfl
    simpa [paramHolds, pointee, notTmp, ref, OpParams.log] using taken

theorem clean_frame (env : ParamEnv) {op : OpParams} {i j : Nat} (hne : j ≠ i)
    (clean : op.localTmpbuf j = none ∧ op.mbBuffer j = none ∧ op.sharemem j = none) :
    (allocParam p env op i).2.localTmpbuf j = none ∧ (allocParam p env op i).2.mbBuffer j = none ∧
      (allocParam p env op i).2.sharemem j = none := by
  obtain ⟨tmp, mb, shm⟩ := allocParam_frame p env op hne
  exact ⟨tmp.trans clean.1, mb.trans clean.2.1, shm.trans clean.2.2⟩

/-- The loop takes what the record holds at its end. The parameters it has not come to are
still clean, so a failure in the middle leaves nothing to give back for them. -/
theorem allocParams_nets (env : Nat → ParamEnv) {is : List Nat} {op : OpParams}
    {r : Multiset Resource} (distinct : is.Nodup)
    (clean : ∀ i ∈ is, op.localTmpbuf i = none ∧ op.mbBuffer i = none ∧ op.sharemem i = none)
    (h : Nets op.trace r) (op' : OpParams)
    (hop' : (untilError (fun op i => allocParam p (env i) op i) is op).2 = op') :
    Nets op'.trace (allHold p op' is + r) ∧ op'.mbPack = op.mbPack ∧
      op'.opInited = op.opInited ∧ ∀ j, j ∉ is → paramHolds p op' j = paramHolds p op j := by
  induction is generalizing op r with
  | nil =>
    subst hop'
    refine ⟨?_, rfl, rfl, fun _ _ => rfl⟩
    rw [allHold, List.map_nil, List.sum_nil, zero_add]
    exact h
  | cons i is ih =>
    rw [List.nodup_cons] at distinct
    obtain ⟨fresh, distinct⟩ := distinct
    obtain ⟨nets, pack, inited⟩ := allocParam_nets p (env i) (clean i List.mem_cons_self) h
    have later : ∀ j ∈ is, (allocParam p (env i) op i).2.localTmpbuf j = none ∧
        (allocParam p (env i) op i).2.mbBuffer j = none ∧
        (allocParam p (env i) op i).2.sharemem j = none := by
      intro j hj
      exact clean_frame p (env i) (ne_of_mem_of_not_mem hj fresh) (clean j (List.mem_cons_of_mem i hj))
    have others : ∀ j, j ≠ i → paramHolds p (allocParam p (env i) op i).2 j = paramHolds p op j := by
      intro j hne
      obtain ⟨tmp, mb, shm⟩ := allocParam_frame p (env i) op hne
      exact paramHolds_congr p tmp mb shm
    simp only [untilError] at hop'
    split at hop'
    · subst hop'
      refine ⟨?_, pack, inited, fun j hj => others j fun e => hj (e ▸ List.mem_cons_self)⟩
      have rest : allHold p (allocParam p (env i) op i).2 is = 0 := by
        unfold allHold
        apply List.sum_eq_zero
        intro x hx
        obtain ⟨j, hj, rfl⟩ := List.mem_map.1 hx
        obtain ⟨tmp, mb, shm⟩ := later j hj
        simp [paramHolds, pointee, tmp, mb, shm]
      rw [allHold, List.map_cons, List.sum_cons]
      rw [allHold] at rest
      rw [rest, add_zero]
      exact nets
    · obtain ⟨nets', pack', inited', same⟩ := ih distinct later nets hop'
      refine ⟨?_, pack'.trans pack, inited'.trans inited, ?_⟩
      · rw [allHold, List.map_cons, List.sum_cons, same i fresh, add_assoc, add_left_comm]
        exact nets'
      · intro j hj
        rw [List.mem_cons, not_or] at hj
        exact (same j hj.2).trans (others j hj.1)

theorem allocOperation_owns (env : Nat → ParamEnv) {op : OpParams} (h : Owns p op)
    (notInited : op.opInited = false)
    (clean : ∀ i, op.localTmpbuf i = none ∧ op.mbBuffer i = none ∧ op.sharemem i = none) :
    Owns p (allocOperation p env op).2 := by
  have start : Nets op.trace {.block op.mbPack} := by simpa [Owns, notInited] using h
  obtain ⟨nets, pack, inited, -⟩ := allocParams_nets p env (List.nodup_range : (List.range teeParamNum).Nodup)
    (fun i _ => clean i) start _ rfl
  unfold allocOperation
  simp only
  split
  · obtain ⟨freed, pack', inited'⟩ := freeParams_nets p nets
    unfold Owns freeOperation
    rw [pack', inited', pack, inited, notInited]
    exact freed
  · unfold Owns
    rw [if_pos rfl, ← Multiset.singleton_add, add_comm, pack]
    exact nets

end Alloc

section Rest

variable {p : CallParams} {op op' : OpParams}

/-- A step that leaves the record of the buffers alone and takes nothing. -/
theorem Owns.same (h : Owns p op) (same : SameBuffers op op') (pack : op'.mbPack = op.mbPack)
    (quiet : Extends NoResource op.trace op'.trace) : Owns p op' := by
  have held : allHold p op' (List.range teeParamNum) = allHold p op (List.range teeParamNum) :=
    allHold_congr p fun i _ => paramHolds_congr p (congrFun same.tmp i) (congrFun same.mb i)
      (congrFun same.shm i)
  obtain ⟨es, eq, hes⟩ := quiet
  unfold Owns
  rw [eq, pack, same.inited, held]
  clear eq
  induction es using List.reverseRecOn with
  | nil =>
    rw [List.append_nil]
    exact h
  | append_singleton es e ih =>
    rw [← List.append_assoc]
    exact (ih fun e' he' => hes e' (List.mem_append_left _ he')).quiet (hes e (by simp))

theorem IsSmc.noResource {e : Event} (h : IsSmc e) : NoResource e := by
  cases e <;> simp_all [IsSmc, NoResource, IsResource]

theorem IsCopy.noResource {e : Event} (h : IsCopy e) : NoResource e := by
  cases e <;> simp_all [IsCopy, NoResource, IsResource]

theorem Owns.config (env : CallEnv) (h : Owns p op) : Owns p (configSmcCmdContext p env op).2 := by
  have pack : (configSmcCmdContext p env op).2.mbPack = op.mbPack := by
    unfold configSmcCmdContext
    simp only
    split <;> rfl
  refine h.same (.config p env op) pack ?_
  rw [configSmcCmdContext_trace]

theorem Owns.smcs {env : CallEnv} {ret : Int} {teeRet : Nat} (h : Owns p op)
    (done : smcRounds p env op = some (ret, teeRet, op')) : Owns p op' := by
  refine smcRounds_inv (P := Owns p) ?_ ?_ ?_ h done
  · intro op ts h
    exact h.same ⟨rfl, rfl, rfl, rfl⟩ rfl (.refl _ _)
  · intro op reply h
    refine h.same ⟨rfl, rfl, rfl, rfl⟩ rfl ((Extends.refl _ _).snoc ?_)
    exact IsSmc.noResource trivial
  · intro op id h
    exact h.same ⟨rfl, rfl, rfl, rfl⟩ rfl (.refl _ _)

theorem Owns.update (env : CallEnv) (isComplete : Bool) (h : Owns p op) :
    Owns p (updateClientOperation p env isComplete op).2 := by
  unfold updateClientOperation
  split
  · exact h
  · split
    · exact h
    · refine untilError_inv ?_ _ h
      intro op i h
      have quiet := (updateParam_trace p env isComplete op i).mono fun _ => IsCopy.noResource
      rw [updateParam_eq p env isComplete op op.trace i] at quiet ⊢
      exact h.same ⟨rfl, rfl, rfl, rfl⟩ rfl quiet

theorem Owns.postProc (env : CallEnv) (teeRet : Nat) (h : Owns p op) :
    Owns p (postProcSmcReturn p env teeRet op).2 := by
  unfold postProcSmcReturn
  split
  · simp only
    split
    · exact h.update env false
    · exact h
  · exact h.update env true

/-- Leaving the call gives back the pack and, when the operation is set up, all it holds. -/
theorem Owns.freeSrc (ret : Int) (teeRet : Nat) (h : Owns p op) :
    Nets (freeSrc p ret teeRet op).op.trace 0 := by
  have release : ∀ op, Owns p op → Nets (releaseTcCallResource p op).trace 0 := by
    intro op h
    unfold releaseTcCallResource
    simp only
    split
    · rename_i inited
      rw [Owns, if_pos inited, ← Multiset.singleton_add, add_comm] at h
      obtain ⟨freed, pack, -⟩ := freeParams_nets p h
      refine Nets.give (x := .block op.mbPack) freed fun out => ?_
      rw [← pack]
      rfl
    · rename_i notInited
      rw [Owns, if_neg notInited] at h
      exact h.give fun _ => rfl
  unfold ClientCall.freeSrc
  split
  · exact release _ (h.same ⟨rfl, rfl, rfl, rfl⟩ rfl (.refl _ _))
  · exact release _ h

end Rest

theorem startOp_owns (p : CallParams) (pack : Nat) (tokens : TeecToken.TokenState) :
    Owns p (startOp p pack tokens) := by
  intro out
  rfl

theorem beforeSmc_owns (p : CallParams) (env : CallEnv) (pack : Nat)
    (tokens : TeecToken.TokenState) : Owns p (beforeSmc p env (startOp p pack tokens)).2 := by
  have start := startOp_owns p pack tokens
  have alloc : Owns p (allocOperation p env.param (startOp p pack tokens)).2 :=
    allocOperation_owns p env.param start rfl fun _ => ⟨rfl, rfl, rfl⟩
  unfold beforeSmc
  simp only
  split
  · split
    · exact alloc
    · exact alloc.config env
  · rw [if_neg (by simp)]
    exact start.config env

/-- Whatever the client's memory, the allocators, the token steps and the TEE do, a call that
returns has given back exactly what it took, each block and each reference once: on any
resources that are out its trace runs without an error and leaves them as they were. -/
theorem call_balanced (p : CallParams) (env : CallEnv) (tokens : TeecToken.TokenState)
    (res : CallResult) (returned : tcClientCall p env tokens = some res)
    (out : Multiset Resource) : replay out res.op.trace = some out := by
  suffices Nets res.op.trace 0 by simpa using this out
  have untouched : Nets [] 0 := fun out => congrArg some (zero_add out).symm
  have before := fun pack => beforeSmc_owns p env pack tokens
  unfold tcClientCall at returned
  simp only at returned
  split at returned
  · cases returned
    exact untouched
  · split at returned
    · cases returned
      exact untouched
    · rename_i pack _
      split at returned
      · cases returned
        exact (before pack).freeSrc _ _
      · unfold afterConfig at returned
        split at returned
        · cases returned
        · rename_i rounds
          have smcs := (before pack).smcs rounds
          split at returned
          · cases returned
            exact smcs.freeSrc _ _
          · cases returned
            exact (smcs.postProc env _).freeSrc _ _

/-- A temporary buffer, a part of shared memory and a second temporary buffer. -/
def mixedInvoke : CallParams where
  dev := ⟨1, ⟨0, false⟩, 0, [⟨1, 0x1000, 0x8000, 8192⟩]⟩
  context := { uuid := 7, sessionId := 3, cmdId := 9, paramTypes := 0x7f7,
               params := fun _ => ⟨0x1000, 0⟩, teecToken := true, tokenLen := 24 }
  sess := true
  global := false

/-- The mailbox is exhausted when the third parameter asks for its block. -/
def mailboxRunsOut : CallEnv where
  mbPack := some 4096
  param := fun i => { sizeRead := some 16, mbAlloc := if i < 2 then some (8192 + i * 64) else none }
  first := { reply := { ret := 0, cmdId := 9, contextId := 3 } }
  memcpyS := fun _ _ => true

theorem call_balanced_third_alloc_fails :
    ∃ res, tcClientCall mixedInvoke mailboxRunsOut TeecToken.freshTokens = some res ∧
      res.ret = -eNOMEM ∧
      res.op.trace = [.mbAlloc 4096, .mbAlloc 8192, .mbAlloc 8256, .shmGet 1,
        .mbFree 8192, .shmPut 1, .mbFree 8256, .mbFree 4096] ∧
      replay 0 res.op.trace = some 0 := by
  obtain ⟨res, returned⟩ := Option.isSome_iff_exists.mp
    (show (tcClientCall mixedInvoke mailboxRunsOut TeecToken.freshTokens).isSome = true by
      decide +kernel)
  have test : (tcClientCall mixedInvoke mailboxRunsOut TeecToken.freshTokens).all
      (fun res => res.ret == -eNOMEM && res.op.trace == [.mbAlloc 4096, .mbAlloc 8192,
        .mbAlloc 8256, .shmGet 1, .mbFree 8192, .shmPut 1, .mbFree 8256, .mbFree 4096]) = true := by
    decide +kernel
  rw [returned, Option.all_some] at test
  simp only [Bool.and_eq_true, beq_iff_eq] at test
  exact ⟨res, returned, test.1, test.2, call_balanced _ _ _ res returned 0⟩

end ClientCall
