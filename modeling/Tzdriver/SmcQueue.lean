import Mathlib.Logic.Function.Basic
import Tzdriver.ActionSystem

/-!
# The SMC command queue

`core/smc_smp.c`: a table of `MAX_SMC_CMD` slots shared with the TEE, each with an
`in`, a `doing` and an `out` bit. `smp_smc_send_func` occupies a slot, lets the TEE
work on it and copies the reply out. A thread's position in that function is its
`Pc`; one step is one section under `smc_lock` (or one interaction with the outside)
together with the local code up to the next one. `memcpy_s` between two command
records has equal sizes and does not fail; the power stubs always return 0;
`verify_chksum` always returns `EOK`.

The fields of a slot after `outEntry`, the field `placed` of a thread and the field `replies`
of the queue are bookkeeping that the driver does not have: every command placed in a slot
starts a new round, and the TEE's actions record which round they belong to. `replies` keeps
what the TEE answered in each round, whatever becomes of the slot.
-/

namespace SmcQueue

open Function

def teecErrorGeneric : Nat := 0xFFFF0000
def teecPending : Nat := 0xFFFF2000
def teecPending2 : Nat := 0xFFFF2001
def globalCmdIdKillTask : Nat := 0x10
def cmdTypeGlobal : Nat := 0
def smcExitNormal : Nat := 0x0
def smcExitPreempted : Nat := 0x1
def smcExitAbort : Nat := 0x3
def findSmcEntryRetryMaxCount : Nat := 25 * 1000 / 1

/-- The fields of `tc_ns_smc_cmd` that the queue code reads or writes. -/
structure SmcCmd where
  cmdType : Nat := 0
  cmdId : Nat := 0
  caPid : Nat := 0
  pid : Nat := 0
  eventNr : Nat := 0
  retVal : Nat := 0
  agentId : Nat := 0
  operationPhys : Nat := 0
  operationHPhys : Nat := 0
  loginDataPhy : Nat := 0
  loginDataHAddr : Nat := 0
  tokenPhys : Nat := 0
  tokenHPhys : Nat := 0
  paramsPhys : Nat := 0
  paramsHPhys : Nat := 0
  deriving DecidableEq, Repr

structure Slot where
  inBit : Bool := false
  doingBit : Bool := false
  outBit : Bool := false
  inEntry : SmcCmd := {}
  outEntry : SmcCmd := {}
  round : Nat := 0
  taken : Option Nat := none
  abortTaken : Bool := false
  answers : Nat := 0
  answersAbort : Bool := false
  replied : Option Nat := none

structure Queue where
  slots : Nat → Slot
  nextRound : Nat
  replies : Nat → Option SmcCmd := fun _ => none

def Queue.set (q : Queue) (i : Nat) (s : Slot) : Queue :=
  { q with slots := update q.slots i s }

inductive CmdReuse where
  | clear
  | resend
  deriving DecidableEq, Repr

inductive SmcOps where
  | normal
  | schedto
  | abortTask
  deriving DecidableEq, Repr

/-- Where a thread stands in `smp_smc_send_func`. -/
inductive Pc where
  | idle
  | occupy
  | occupyUpdate
  | occupyClean
  | occupyPublish
  | reuse
  | reuseUpdate
  | reusePublish
  | reuseRelease
  | send
  | poll
  | normalExit
  | pendingPoll
  | abort
  | copyOut
  | agentWork
  | clean
  | returned (ret : Nat)
  deriving DecidableEq, Repr

structure Local where
  pc : Pc := .idle
  cmd : SmcCmd := {}
  inCmd : SmcCmd := {}
  cmdIndex : Nat := 0
  savedIndex : Nat := 0
  cmdUsage : CmdReuse := .clear
  ops : SmcOps := .normal
  exit : Nat := 0
  retryCount : Nat := 0
  placed : Nat := 0

/-! ## The queue operations -/

/-- The scan of `occupy_free_smc_in_entry`. -/
def freeEntry (maxSmcCmd : Nat) (q : Queue) : Option Nat :=
  (List.range maxSmcCmd).find? (fun i => !(q.slots i).inBit)

/-- The command goes into `in[i]`; `in` and `doing` are set together. -/
def occupySetbit (q : Queue) (i : Nat) (cmd : SmcCmd) : Queue :=
  { q.set i { q.slots i with
      inEntry := { cmd with eventNr := i }, inBit := true, doingBit := true,
      round := q.nextRound, abortTaken := false } with nextRound := q.nextRound + 1 }

/-- `occupy_clean_in_doing_entry`. -/
def occupyCleanInDoingEntry (q : Queue) (i : Nat) : Queue :=
  q.set i { q.slots i with inBit := false, doingBit := false }

/-- `update_chksum` scrambles the operation address and the pid in `in[i]`. -/
def scramblingOperation (cmd : SmcCmd) (scrambler : Nat) : SmcCmd :=
  let cmd := if cmd.operationPhys ≠ 0 ∨ cmd.operationHPhys ≠ 0 then
      { cmd with operationPhys := cmd.operationPhys ^^^ scrambler,
                 operationHPhys := cmd.operationHPhys ^^^ scrambler }
    else cmd
  { cmd with pid := cmd.pid ^^^ scrambler }

def updateChksum (q : Queue) (i scrambler : Nat) : Queue :=
  q.set i { q.slots i with inEntry := scramblingOperation (q.slots i).inEntry scrambler }

/-- The last section of `occupy_free_smc_in_entry` and `reuse_smc_in_entry`. -/
def clearDoing (q : Queue) (i : Nat) : Queue :=
  q.set i { q.slots i with doingBit := false }

/-- The first section of `reuse_smc_in_entry`; the reply becomes the next command. -/
def reuseSmcInEntry (q : Queue) (i : Nat) : Option Queue :=
  if (q.slots i).inBit && (q.slots i).doingBit then
    some { q.set i { q.slots i with
      inEntry := (q.slots i).outEntry, round := q.nextRound, abortTaken := false } with
        nextRound := q.nextRound + 1 }
  else none

/-- `release_smc_entry`. -/
def releaseSmcEntry (q : Queue) (i : Nat) : Queue :=
  q.set i { q.slots i with inBit := false, doingBit := false, outBit := false }

def isCmdWorkingDone (q : Queue) (i : Nat) : Bool := (q.slots i).outBit

/-- `copy_smc_out_entry`; `none` is `-ENOENT`. -/
def copySmcOutEntry (q : Queue) (i : Nat) : Option (SmcCmd × CmdReuse × Queue) :=
  if (q.slots i).outBit = false then none
  else if (q.slots i).outEntry.retVal = teecPending2 ∨ (q.slots i).outEntry.retVal = teecPending then
    some ((q.slots i).outEntry, .resend, q.set i { q.slots i with outBit := false })
  else
    some ((q.slots i).outEntry, .clear,
      q.set i { q.slots i with inBit := false, doingBit := false, outBit := false })

def abortCmd (cmd : SmcCmd) : SmcCmd :=
  { cmd with
    cmdId := globalCmdIdKillTask, cmdType := cmdTypeGlobal,
    operationPhys := 0, operationHPhys := 0, loginDataPhy := 0, loginDataHAddr := 0,
    tokenPhys := 0, tokenHPhys := 0, paramsPhys := 0, paramsHPhys := 0 }

def isAbortCmd (cmd : SmcCmd) : Bool :=
  cmd.cmdId == globalCmdIdKillTask && cmd.cmdType == cmdTypeGlobal

/-- `set_abort_cmd`. -/
def setAbortCmd (q : Queue) (i : Nat) : Option Queue :=
  if (q.slots i).doingBit = false then none
  else some (q.set i { q.slots i with
    inEntry := abortCmd (q.slots i).inEntry, doingBit := false })

/-! ## A thread in `smp_smc_send_func` -/

/-- The label `retry`, up to the first section `smc_ops_normal` enters. -/
def Local.retry (l : Local) : Local :=
  if l.ops ≠ .normal then { l with pc := .send }
  else if l.cmdUsage = .resend then { l with pc := .reuse }
  else { l with pc := .occupy, retryCount := 0 }

/-- The end of `smc_ops_normal` after the command is in place. -/
def Local.submit (l : Local) : Local :=
  if l.cmdUsage ≠ .clear then
    { l with cmdIndex := l.savedIndex, cmdUsage := .clear, pc := .send }
  else { l with savedIndex := l.cmdIndex, pc := .send }

def Local.ret (l : Local) (ret : Nat) : Local := { l with pc := .returned ret }

/-- The start of `smp_smc_send_func`; `peOk` is the outcome of `init_pending_entry`. -/
def Local.start (l : Local) (cmd : SmcCmd) (pid : Nat) (peOk : Bool) : Local :=
  if peOk then
    Local.retry { l with
      inCmd := { cmd with caPid := pid }, cmd := { cmd with caPid := pid },
      cmdIndex := 0, savedIndex := 0, cmdUsage := .clear, ops := .normal }
  else { l with inCmd := cmd, pc := .returned teecErrorGeneric }

/-- The same with `reuse`: the slot is the one named by the caller's `event_nr`. -/
def Local.resume (l : Local) (pid : Nat) (peOk : Bool) : Local :=
  if peOk then
    Local.retry { l with
      inCmd := { l.inCmd with caPid := pid }, cmd := {},
      cmdIndex := l.inCmd.eventNr, savedIndex := l.inCmd.eventNr, cmdUsage := .resend,
      ops := .normal }
  else l.ret teecErrorGeneric

/-- What `smp_smc_send_process` returns. A preempted SMC is sent again inside it, or
becomes an abort, so its exit reason is never `SMC_EXIT_PREEMPTED`. -/
inductive SendResult where
  | done (exit : Nat)
  | crash

/-- What ends the wait in `proc_normal_exit`. -/
inductive WaitResult where
  | affinity
  | timeout
  | killed
  | woken

inductive DriverAct where
  | start (cmd : SmcCmd) (pid : Nat) (peOk : Bool)
  | resume (pid : Nat) (peOk : Bool)
  | update (scrambler : Option Nat)
  | send (result : SendResult)
  | wait (result : WaitResult)
  | run

/-- The sections that depend only on the queue. -/
def runSection (maxSmcCmd : Nat) (q : Queue) (l : Local) : Option (Queue × Local) :=
  match l.pc with
  | .occupy =>
    match freeEntry maxSmcCmd q with
    | some i =>
      some (occupySetbit q i l.cmd,
        { l with cmdIndex := i, pc := .occupyUpdate, placed := q.nextRound })
    | none =>
      if l.retryCount ≤ findSmcEntryRetryMaxCount then
        some (q, { l with retryCount := l.retryCount + 1 })
      else some (q, l.ret teecErrorGeneric)
  | .occupyClean => some (occupyCleanInDoingEntry q l.cmdIndex, l.ret teecErrorGeneric)
  | .occupyPublish => some (clearDoing q l.cmdIndex, l.submit)
  | .reuse =>
    match reuseSmcInEntry q l.cmdIndex with
    | some q' => some (q', { l with pc := .reuseUpdate, placed := q.nextRound })
    | none => some (q, { l with pc := .reuseRelease })
  | .reusePublish => some (clearDoing q l.cmdIndex, l.submit)
  | .reuseRelease => some (releaseSmcEntry q l.cmdIndex, l.ret teecErrorGeneric)
  | .poll =>
    if isCmdWorkingDone q l.cmdIndex then some (q, { l with pc := .copyOut })
    else if l.exit = smcExitNormal then some (q, { l with pc := .normalExit })
    else if l.exit = smcExitAbort then some (q, { l with pc := .abort })
    else some (q, { l with cmd := { l.cmd with retVal := teecErrorGeneric }, pc := .clean })
  | .pendingPoll =>
    if isCmdWorkingDone q l.cmdIndex then some (q, { l with pc := .copyOut })
    else some (q, Local.retry { l with ops := .schedto })
  | .abort =>
    match setAbortCmd q l.cmdIndex with
    | some q' => some (q', Local.retry { l with ops := .abortTask })
    | none => some (q, Local.retry { l with ops := .schedto })
  | .copyOut =>
    match copySmcOutEntry q l.cmdIndex with
    | none => some (q, { l with cmd := { l.cmd with retVal := teecErrorGeneric }, pc := .clean })
    | some (cmd, usage, q') =>
      if cmd.retVal = teecPending2 then
        some (q', { l with cmd := cmd, cmdUsage := usage, pc := .agentWork })
      else some (q', { l with cmd := cmd, inCmd := cmd, cmdUsage := usage, pc := .clean })
  | .agentWork => some (q, Local.retry { l with ops := .normal })
  | .clean =>
    if l.cmdUsage ≠ .clear ∧ l.cmd.retVal ≠ teecPending then
      some (releaseSmcEntry q l.cmdIndex, l.ret l.cmd.retVal)
    else some (q, l.ret l.cmd.retVal)
  | _ => none

/-- `update_timestamp` and `update_chksum` on `in[cmd_index]`, outside the lock. -/
def updateSection (q : Queue) (l : Local) (scrambler : Option Nat) : Option (Queue × Local) :=
  match l.pc, scrambler with
  | .occupyUpdate, some k => some (updateChksum q l.cmdIndex k, { l with pc := .occupyPublish })
  | .occupyUpdate, none => some (q, { l with pc := .occupyClean })
  | .reuseUpdate, some k => some (updateChksum q l.cmdIndex k, { l with pc := .reusePublish })
  | .reuseUpdate, none => some (q, { l with pc := .reuseRelease })
  | _, _ => none

def sendSection (l : Local) : SendResult → Option Local
  | .done exit =>
    if l.pc = .send ∧ exit ≠ smcExitPreempted then some { l with exit := exit, pc := .poll }
    else none
  | .crash =>
    if l.pc = .send then
      some { l with cmd := { l.cmd with retVal := 0xFFFFFFFF }, pc := .clean }
    else none

def waitSection (l : Local) (w : WaitResult) : Option Local :=
  if l.pc = .normalExit then
    match w with
    | .affinity => some (Local.retry { l with ops := .schedto })
    | .timeout => some (Local.retry { l with ops := .schedto })
    | .killed => some { l with pc := .abort }
    | .woken => some { l with pc := .pendingPoll }
  else none

def startSection (l : Local) (cmd : SmcCmd) (pid : Nat) (peOk : Bool) : Option Local :=
  match l.pc with
  | .idle => some (l.start cmd pid peOk)
  | .returned ret => if ret = teecPending then none else some (l.start cmd pid peOk)
  | _ => none

def resumeSection (l : Local) (pid : Nat) (peOk : Bool) : Option Local :=
  match l.pc with
  | .returned ret => if ret = teecPending then some (l.resume pid peOk) else none
  | _ => none

def driverStep (maxSmcCmd : Nat) (q : Queue) (l : Local) : DriverAct → Option (Queue × Local)
  | .start cmd pid peOk => (startSection l cmd pid peOk).map (q, ·)
  | .resume pid peOk => (resumeSection l pid peOk).map (q, ·)
  | .update scrambler => updateSection q l scrambler
  | .send result => (sendSection l result).map (q, ·)
  | .wait result => (waitSection l result).map (q, ·)
  | .run => runSection maxSmcCmd q l

/-! ## The TEE -/

/-- The TEE takes a command; an abort makes it drop the reply it had published. -/
def teeTake (q : Queue) (i : Nat) : Option Queue :=
  let s := q.slots i
  if s.inBit && !s.doingBit then
    let s := { s with doingBit := true, taken := some s.round }
    if isAbortCmd s.inEntry then
      let replied := if s.outBit then none else s.replied
      some (q.set i { s with abortTaken := true, outBit := false, replied := replied })
    else some (q.set i s)
  else none

/-- The TEE answers the command it took, at most once a round. -/
def teeReply (q : Queue) (i : Nat) (reply : SmcCmd) : Option Queue :=
  let s := q.slots i
  if s.inBit && s.doingBit then
    match s.taken with
    | some r =>
      if s.replied = some r then none
      else some { q.set i { s with
        outEntry := { reply with eventNr := i }, outBit := true,
        answers := r, answersAbort := s.abortTaken, replied := some r } with
          replies := update q.replies r (some { reply with eventNr := i }) }
    | none => none
  else none

/-! ## The whole system -/

structure Sys (Thread : Type*) where
  queue : Queue
  threads : Thread → Local

inductive Act (Thread : Type*) where
  | driver (t : Thread) (a : DriverAct)
  | take (i : Nat)
  | reply (i : Nat) (reply : SmcCmd)

variable {Thread : Type*}

def Sys.init : Sys Thread where
  queue := { slots := fun _ => {}, nextRound := 1 }
  threads := fun _ => {}

def step [DecidableEq Thread] (maxSmcCmd : Nat) (s : Sys Thread) : Act Thread → Option (Sys Thread)
  | .driver t a =>
    (driverStep maxSmcCmd s.queue (s.threads t) a).map
      (fun r => ⟨r.1, update s.threads t r.2⟩)
  | .take i => (teeTake s.queue i).map (fun q => ⟨q, s.threads⟩)
  | .reply i r => (teeReply s.queue i r).map (fun q => ⟨q, s.threads⟩)

end SmcQueue
