import Tzdriver.SmcQueueOwnership

/-!
# The SMCs of a command

`smp_smc_send` in `core/smc_smp.c`. A command that was placed in a slot is announced to the TEE with
`SMC_OPS_NORMAL`; what the TEE was doing when it came back is taken up again with `SMC_OPS_SCHEDTO`
and the words it left, and a command that was rewritten into a kill is announced with
`SMC_OPS_ABORT_TASK`. `SmcQueue` has one step for the whole of `smp_smc_send_process`; here each SMC
is a step of its own, and the TEE and the other threads run between them.

`last` and `submitted` are bookkeeping that the driver does not have: the last answer to an SMC
of the call, and the rounds that were announced.
-/

namespace SmcSend

open Function ActionSystem
open SmcQueue hiding Sys Act step

def tspRequest : Nat := 0xB2000008
def tspCrash : Nat := 0xB200000B

/-- The values of `enum smc_ops_exit`. -/
def opsCode : SmcOps → Nat
  | .normal => 0x0
  | .schedto => 0x1
  | .abortTask => 0x5

structure SmcInParams where
  x0 : Nat
  x1 : Nat
  x2 : Nat
  x3 : Nat := 0
  x4 : Nat := 0
  deriving DecidableEq, Repr

structure SmcOutParams where
  ret : Nat
  exitReason : Nat
  ta : Nat
  target : Nat
  deriving DecidableEq, Repr

structure SmcCmdRet where
  exit : Nat := 0
  ta : Nat := 0
  target : Nat := 0
  deriving DecidableEq, Repr

/-- `set_smc_send_arg`, for the operations that `smp_smc_send_func` asks for. -/
def setSmcSendArg (inParam : SmcInParams) (secret : SmcCmdRet) (ops : SmcOps) : SmcInParams :=
  let inParam := if secret.exit = smcExitPreempted then
      { inParam with x1 := opsCode .schedto, x3 := secret.ta, x4 := secret.target }
    else inParam
  if ops = .schedto then { inParam with x4 := secret.target } else inParam

/-- `is_ready_to_kill`; `reported` is `sigkill_pending` and `is_thread_reported`. -/
def isReadyToKill (needKill reported : Bool) : Bool := needKill && reported

/-- The variables of `smp_smc_send_func` and `smp_smc_send` around the SMCs of a thread. -/
structure Core where
  secret : SmcCmdRet := {}
  inParam : Option SmcInParams := none
  last : Option SmcOutParams := none

structure Sys (Thread : Type*) where
  base : SmcQueue.Sys Thread
  cores : Thread → Core
  submitted : List Nat

def Sys.init {Thread : Type*} : Sys Thread := ⟨SmcQueue.Sys.init, fun _ => {}, []⟩

inductive Act (Thread : Type*) where
  | driver (t : Thread) (a : DriverAct)
  | smc (t : Thread) (out : SmcOutParams) (reported : Bool)
  | take (i : Nat)
  | reply (i : Nat) (reply : SmcCmd)

/-- The registers of the next SMC. -/
def smcParams (l : Local) (c : Core) : SmcInParams :=
  setSmcSendArg (c.inParam.getD { x0 := tspRequest, x1 := opsCode l.ops, x2 := l.inCmd.caPid })
    c.secret l.ops

/-- The thread goes round the loop of `smp_smc_send`. -/
def again (l : Local) (out : SmcOutParams) (reported : Bool) : Bool :=
  out.exitReason = smcExitPreempted && !isReadyToKill (l.ops ≠ .abortTask) reported

/-- `secret->exit` when the loop is left. -/
def exitOf (out : SmcOutParams) : Nat :=
  if out.exitReason = smcExitPreempted then smcExitAbort else out.exitReason

/-- What `smp_smc_send_process` makes of the last answer. -/
def sendResult (out : SmcOutParams) : SendResult :=
  if out.ret % 0x100000000 = tspCrash then .crash else .done (exitOf out)

variable {Thread : Type*} [DecidableEq Thread]

/-- The variables of a new call. -/
def enterCall (cores : Thread → Core) (t : Thread) : DriverAct → Thread → Core
  | .start _ _ _ | .resume _ _ => update cores t {}
  | _ => cores

def step (maxSmcCmd : Nat) (s : Sys Thread) : Act Thread → Option (Sys Thread)
  | .driver _ (.send _) => none
  | .driver t a =>
    (SmcQueue.step maxSmcCmd s.base (.driver t a)).map fun base =>
      { s with base := base, cores := enterCall s.cores t a }
  | .smc t out reported =>
    let l := s.base.threads t
    let p := smcParams l (s.cores t)
    let submitted := if p.x1 = opsCode .normal then l.placed :: s.submitted else s.submitted
    if l.pc = .send then
      if again l out reported then
        some { s with
          cores := update s.cores t
            { secret := ⟨out.exitReason, out.ta, out.target⟩, inParam := some p, last := some out }
          submitted := submitted }
      else
        (SmcQueue.step maxSmcCmd s.base (.driver t (.send (sendResult out)))).map fun base =>
          { base := base
            cores := update s.cores t
              { secret := ⟨exitOf out, out.ta, out.target⟩, last := some out }
            submitted := submitted }
    else none
  | .take i => (SmcQueue.step maxSmcCmd s.base (.take i)).map fun base => { s with base := base }
  | .reply i r =>
    (SmcQueue.step maxSmcCmd s.base (.reply i r)).map fun base => { s with base := base }

/-! ## The steps of the driver -/

/-- The command of the thread is in its slot and not announced yet. -/
def Preparing (pc : Pc) : Prop :=
  pc = .occupyUpdate ∨ pc = .occupyPublish ∨ pc = .reuseUpdate ∨ pc = .reusePublish

/-- What a step of the driver other than an SMC does to the thread's command. -/
inductive Move (q : Queue) (l : Local) (q' : Queue) (l' : Local) : Prop
  | placed (ops : l'.ops = l.ops) (pc : l.pc = .occupy ∨ l.pc = .reuse) (pc' : Preparing l'.pc)
      (round : l'.placed = q.nextRound) (next : q'.nextRound = q.nextRound + 1)
  | prepared (ops : l'.ops = l.ops) (pc : Preparing l.pc) (pc' : Preparing l'.pc ∨ l'.pc = .send)
      (round : l'.placed = l.placed) (next : q'.nextRound = q.nextRound)
  | waited (pc : Waiting l.pc) (pc' : Waiting l'.pc) (ops : l'.pc = .send → l'.ops ≠ .normal)
      (round : l'.placed = l.placed) (next : q'.nextRound = q.nextRound)
      (killed : l'.pc = .send → l'.ops = .abortTask →
        isAbortCmd (q'.slots l'.cmdIndex).inEntry = true)
  | other (pc : ¬ Preparing l'.pc) (pc' : ¬ Waiting l'.pc)
      (ops : l'.pc = .occupy ∨ l'.pc = .reuse → l'.ops = .normal)
      (round : l'.placed = l.placed) (next : q'.nextRound = q.nextRound)

theorem update_move {q q' : Queue} {l l' : Local} {scrambler : Option Nat}
    (moved : updateSection q l scrambler = some (q', l')) : Move q l q' l' := by
  unfold updateSection at moved
  split at moved
  · rename_i at_
    cases Option.some.inj moved
    exact .prepared rfl (Or.inl at_) (Or.inl (Or.inr (Or.inl rfl))) rfl rfl
  · cases Option.some.inj moved
    exact .other (by simp [Preparing]) (by simp [Waiting]) (by simp) rfl rfl
  · rename_i at_
    cases Option.some.inj moved
    exact .prepared rfl (by simp [Preparing, at_]) (Or.inl (by simp [Preparing])) rfl rfl
  · cases Option.some.inj moved
    exact .other (by simp [Preparing]) (by simp [Waiting]) (by simp) rfl rfl
  · cases moved

theorem wait_move {q : Queue} {l l' : Local} {w : WaitResult}
    (moved : waitSection l w = some l') : Move q l q l' := by
  unfold waitSection at moved
  split at moved
  · rename_i at_
    have from_ : Waiting l.pc := by simp [Waiting, at_]
    cases w with
    | affinity | timeout =>
      cases Option.some.inj moved
      exact .waited from_ (by simp [Waiting, Local.retry]) (by simp [Local.retry]) rfl rfl
        (by simp [Local.retry])
    | killed | woken =>
      cases Option.some.inj moved
      exact .waited from_ (by simp [Waiting]) (by simp) rfl rfl (by simp)
  · cases moved

theorem start_move {q : Queue} {l l' : Local} {cmd : SmcCmd} {pid : Nat} {peOk : Bool}
    (moved : startSection l cmd pid peOk = some l') : Move q l q l' := by
  have began : Move q l q (l.start cmd pid peOk) := by
    cases peOk with
    | true =>
      exact .other (by simp [Preparing, Local.start, Local.retry])
        (by simp [Waiting, Local.start, Local.retry]) (by simp [Local.start, Local.retry]) rfl rfl
    | false =>
      exact .other (by simp [Preparing, Local.start]) (by simp [Waiting, Local.start])
        (by simp [Local.start]) rfl rfl
  unfold startSection at moved
  split at moved
  · cases Option.some.inj moved
    exact began
  · split at moved
    · cases moved
    · cases Option.some.inj moved
      exact began
  · cases moved

theorem resume_move {q : Queue} {l l' : Local} {pid : Nat} {peOk : Bool}
    (moved : resumeSection l pid peOk = some l') : Move q l q l' := by
  unfold resumeSection at moved
  split at moved
  · split at moved
    · cases Option.some.inj moved
      cases peOk with
      | true =>
        exact .other (by simp [Preparing, Local.resume, Local.retry])
          (by simp [Waiting, Local.resume, Local.retry]) (by simp [Local.resume, Local.retry]) rfl
          rfl
      | false =>
        exact .other (by simp [Preparing, Local.resume, Local.ret])
          (by simp [Waiting, Local.resume, Local.ret]) (by simp [Local.resume, Local.ret]) rfl rfl
    · cases moved
  · cases moved

/-- A thread that is about to place a command asks for `SMC_OPS_NORMAL`. -/
def Asked (l : Local) : Prop := l.pc = .occupy ∨ l.pc = .reuse ∨ Preparing l.pc → l.ops = .normal

theorem run_move {maxSmcCmd : Nat} {q q' : Queue} {l l' : Local} (asked : Asked l)
    (moved : runSection maxSmcCmd q l = some (q', l')) : Move q l q' l' := by
  unfold runSection at moved
  split at moved
  · rename_i at_
    split at moved
    · cases Option.some.inj moved
      exact .placed rfl (Or.inl at_) (Or.inl rfl) rfl rfl
    · split at moved
      · cases Option.some.inj moved
        exact .other (by simp [Preparing, at_]) (by simp [Waiting, at_])
          (fun _ => asked (Or.inl at_)) rfl rfl
      · cases Option.some.inj moved
        exact .other (by simp [Preparing, Local.ret]) (by simp [Waiting, Local.ret])
          (by simp [Local.ret]) rfl rfl
  · cases Option.some.inj moved
    exact .other (by simp [Preparing, Local.ret]) (by simp [Waiting, Local.ret])
      (by simp [Local.ret]) rfl rfl
  · rename_i at_
    cases Option.some.inj moved
    have from_ : Preparing l.pc := by simp [Preparing, at_]
    unfold Local.submit
    split
    · exact .prepared rfl from_ (Or.inr rfl) rfl rfl
    · exact .prepared rfl from_ (Or.inr rfl) rfl rfl
  · rename_i at_
    split at moved
    · rename_i r reused
      cases Option.some.inj moved
      refine .placed rfl (Or.inr at_) (by simp [Preparing]) rfl ?_
      unfold reuseSmcInEntry at reused
      split at reused
      · cases Option.some.inj reused
        rfl
      · cases reused
    · cases Option.some.inj moved
      exact .other (by simp [Preparing]) (by simp [Waiting]) (by simp) rfl rfl
  · rename_i at_
    cases Option.some.inj moved
    have from_ : Preparing l.pc := by simp [Preparing, at_]
    unfold Local.submit
    split
    · exact .prepared rfl from_ (Or.inr rfl) rfl rfl
    · exact .prepared rfl from_ (Or.inr rfl) rfl rfl
  · cases Option.some.inj moved
    exact .other (by simp [Preparing, Local.ret]) (by simp [Waiting, Local.ret])
      (by simp [Local.ret]) rfl rfl
  · rename_i at_
    have from_ : Waiting l.pc := by simp [Waiting, at_]
    split at moved
    · cases Option.some.inj moved
      exact .waited from_ (by simp [Waiting]) (by simp) rfl rfl (by simp)
    · split at moved
      · cases Option.some.inj moved
        exact .waited from_ (by simp [Waiting]) (by simp) rfl rfl (by simp)
      · split at moved
        · cases Option.some.inj moved
          exact .waited from_ (by simp [Waiting]) (by simp) rfl rfl (by simp)
        · cases Option.some.inj moved
          exact .other (by simp [Preparing]) (by simp [Waiting]) (by simp) rfl rfl
  · rename_i at_
    have from_ : Waiting l.pc := by simp [Waiting, at_]
    split at moved
    · cases Option.some.inj moved
      exact .waited from_ (by simp [Waiting]) (by simp) rfl rfl (by simp)
    · cases Option.some.inj moved
      exact .waited from_ (by simp [Waiting, Local.retry]) (by simp [Local.retry]) rfl rfl
        (by simp [Local.retry])
  · rename_i at_
    have from_ : Waiting l.pc := by simp [Waiting, at_]
    split at moved
    · rename_i r aborted
      cases Option.some.inj moved
      unfold setAbortCmd at aborted
      split at aborted
      · cases aborted
      · cases Option.some.inj aborted
        refine .waited from_ (by simp [Waiting, Local.retry]) (by simp [Local.retry]) rfl rfl
          fun _ _ => ?_
        simp [Local.retry, abortCmd, isAbortCmd]
    · cases Option.some.inj moved
      exact .waited from_ (by simp [Waiting, Local.retry]) (by simp [Local.retry]) rfl rfl
        (by simp [Local.retry])
  · split at moved
    · cases Option.some.inj moved
      exact .other (by simp [Preparing]) (by simp [Waiting]) (by simp) rfl rfl
    · rename_i copied
      have next : ∀ {cmd usage r}, copySmcOutEntry q l.cmdIndex = some (cmd, usage, r) →
          r.nextRound = q.nextRound := by
        intro cmd usage r copied
        unfold copySmcOutEntry at copied
        split at copied
        · cases copied
        · split at copied
          · cases Option.some.inj copied
            rfl
          · cases Option.some.inj copied
            rfl
      split at moved
      · cases Option.some.inj moved
        exact .other (by simp [Preparing]) (by simp [Waiting]) (by simp) rfl (next copied)
      · cases Option.some.inj moved
        exact .other (by simp [Preparing]) (by simp [Waiting]) (by simp) rfl (next copied)
  · cases Option.some.inj moved
    unfold Local.retry
    split
    · rename_i other
      simp at other
    · split
      · exact .other (by simp [Preparing]) (by simp [Waiting]) (by simp) rfl rfl
      · exact .other (by simp [Preparing]) (by simp [Waiting]) (by simp) rfl rfl
  · split at moved
    · cases Option.some.inj moved
      exact .other (by simp [Preparing, Local.ret]) (by simp [Waiting, Local.ret])
        (by simp [Local.ret]) rfl rfl
    · cases Option.some.inj moved
      exact .other (by simp [Preparing, Local.ret]) (by simp [Waiting, Local.ret])
        (by simp [Local.ret]) rfl rfl
  · cases moved

theorem driver_move {maxSmcCmd : Nat} {q q' : Queue} {l l' : Local} {a : DriverAct}
    (asked : Asked l) (notSend : ∀ result, a ≠ .send result)
    (moved : driverStep maxSmcCmd q l a = some (q', l')) : Move q l q' l' := by
  cases a with
  | send result => exact absurd rfl (notSend result)
  | start cmd pid peOk =>
    obtain ⟨l₁, ran, same⟩ := Option.map_eq_some_iff.1 moved
    cases same
    exact start_move ran
  | resume pid peOk =>
    obtain ⟨l₁, ran, same⟩ := Option.map_eq_some_iff.1 moved
    cases same
    exact resume_move ran
  | wait w =>
    obtain ⟨l₁, ran, same⟩ := Option.map_eq_some_iff.1 moved
    cases same
    exact wait_move ran
  | update scrambler => exact update_move moved
  | run => exact run_move asked moved

/-- A step of the driver touches a slot that the thread owns, or one that is free. -/
theorem run_slots {maxSmcCmd : Nat} {q q' : Queue} {l l' : Local}
    (moved : runSection maxSmcCmd q l = some (q', l')) {i : Nat} (foreign : l.owns ≠ some i)
    (occupied : (q.slots i).inBit = true) : q'.slots i = q.slots i := by
  have other : ∀ {s : Slot}, l.owns = some l.cmdIndex → (q.set l.cmdIndex s).slots i = q.slots i := by
    intro s mine
    have apart : i ≠ l.cmdIndex := by
      rintro rfl
      exact foreign mine
    simp [apart]
  unfold runSection at moved
  split at moved
  · split at moved
    · rename_i j free
      cases Option.some.inj moved
      have apart : i ≠ j := by
        rintro rfl
        simp [freeEntry_free free] at occupied
      simp [occupySetbit, apart]
    · split at moved
      · cases Option.some.inj moved
        rfl
      · cases Option.some.inj moved
        rfl
  · rename_i at_
    cases Option.some.inj moved
    exact other (by simp [Local.owns, at_])
  · rename_i at_
    cases Option.some.inj moved
    exact other (by simp [Local.owns, at_])
  · rename_i at_
    split at moved
    · rename_i r reused
      cases Option.some.inj moved
      unfold reuseSmcInEntry at reused
      split at reused
      · cases Option.some.inj reused
        exact other (by simp [Local.owns, at_])
      · cases reused
    · cases Option.some.inj moved
      rfl
  · rename_i at_
    cases Option.some.inj moved
    exact other (by simp [Local.owns, at_])
  · rename_i at_
    cases Option.some.inj moved
    exact other (by simp [Local.owns, at_])
  · split at moved
    · cases Option.some.inj moved
      rfl
    · split at moved
      · cases Option.some.inj moved
        rfl
      · split at moved
        · cases Option.some.inj moved
          rfl
        · cases Option.some.inj moved
          rfl
  · split at moved
    · cases Option.some.inj moved
      rfl
    · cases Option.some.inj moved
      rfl
  · rename_i at_
    split at moved
    · rename_i r aborted
      cases Option.some.inj moved
      unfold setAbortCmd at aborted
      split at aborted
      · cases aborted
      · cases Option.some.inj aborted
        exact other (by simp [Local.owns, at_])
    · cases Option.some.inj moved
      rfl
  · rename_i at_
    split at moved
    · cases Option.some.inj moved
      rfl
    · rename_i cmd usage r copied
      have kept : r.slots i = q.slots i := by
        unfold copySmcOutEntry at copied
        split at copied
        · cases copied
        · split at copied
          · cases Option.some.inj copied
            exact other (by simp [Local.owns, at_])
          · cases Option.some.inj copied
            exact other (by simp [Local.owns, at_])
      split at moved
      · cases Option.some.inj moved
        exact kept
      · cases Option.some.inj moved
        exact kept
  · cases Option.some.inj moved
    rfl
  · rename_i at_
    split at moved
    · rename_i resend
      cases Option.some.inj moved
      refine other ?_
      cases usage : l.cmdUsage with
      | clear => exact absurd usage resend.1
      | resend => simp [Local.owns, at_, usage]
    · cases Option.some.inj moved
      rfl
  · cases moved

theorem driver_slots {maxSmcCmd : Nat} {q q' : Queue} {l l' : Local} {a : DriverAct}
    (moved : driverStep maxSmcCmd q l a = some (q', l')) {i : Nat} (foreign : l.owns ≠ some i)
    (occupied : (q.slots i).inBit = true) : q'.slots i = q.slots i := by
  cases a with
  | run => exact run_slots moved foreign occupied
  | update scrambler =>
    have other : ∀ {k}, l.owns = some l.cmdIndex →
        (updateChksum q l.cmdIndex k).slots i = q.slots i := by
      intro k mine
      have apart : i ≠ l.cmdIndex := by
        rintro rfl
        exact foreign mine
      simp [updateChksum, apart]
    simp only [driverStep] at moved
    unfold updateSection at moved
    split at moved
    · rename_i at_
      cases Option.some.inj moved
      exact other (by simp [Local.owns, at_])
    · cases Option.some.inj moved
      rfl
    · rename_i at_
      cases Option.some.inj moved
      exact other (by simp [Local.owns, at_])
    · cases Option.some.inj moved
      rfl
    · cases moved
  | _ =>
    obtain ⟨l₁, -, same⟩ := Option.map_eq_some_iff.1 moved
    cases same
    rfl

end SmcSend
