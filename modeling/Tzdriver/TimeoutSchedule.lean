import Mathlib.Algebra.Group.Nat.Defs
import Tzdriver.PendingWait

/-!
# The timeouts of a wait

`core/smc_smp.c`: the loop of `smp_smc_send_func`, run by a user thread. A thread that waits for the
TEE sleeps in steps, whose lengths `init_timeout_step` makes from the timeout of the exit of the
TEE. The schedule outlives the wait: `set_timeout_step` drops it at the label `retry` only if the
wait returned `PD_WAKEUP`.

What the queue, the TEE and the signals do in one pass through the loop is a `Round`. A pass adds to
`waits` the wait it starts, and to `history` how it went.
-/

namespace TimeoutSchedule

open SmcQueue PendingWait

def toStepSize : Nat := 5
def invalidStepSize : BitVec 32 := 0xFFFFFFFF

/-- `struct timeout_step_t`. -/
structure TimeoutStep where
  steps : Vector Nat toStepSize
  size : BitVec 32
  cur : BitVec 32
  timeoutReset : Bool
  deriving DecidableEq, Repr

/-- The initial value in `smp_smc_send_func`. -/
def TimeoutStep.initial : TimeoutStep := ⟨.replicate _ 0, .ofNat 32 toStepSize, -1, false⟩

/-- `step->steps[i++] = v`, where `size` has the value of `i`. -/
def TimeoutStep.store (step : TimeoutStep) (v : Nat) : TimeoutStep :=
  { step with steps := step.steps.setIfInBounds step.size.toNat v, size := step.size + 1 }

/-- The steps that are in use. -/
def TimeoutStep.schedule (step : TimeoutStep) : List Nat := step.steps.toList.take step.size.toNat

section Steps

variable (hz : Nat) (msecsToJiffies : Nat → Nat)

/-- `RESLEEP_TIMEOUT * HZ`, an `int`, where it is made an `unsigned long`. -/
def resleepJiffies : Nat := ((BitVec.ofNat 32 (resleepTimeout * hz)).signExtend 64).toNat

/-- `init_timeout_step`. -/
def initTimeoutStep (timeout : BitVec 32) (step : TimeoutStep) : TimeoutStep :=
  let step := { step with size := 0 }
  if timeout = 0 then { step.store (resleepJiffies hz) with cur := 0 }
  else
    let timeout :=
      if timeout.toNat > resleepTimeout * msecPerSec then resleepTimeout * msecPerSec
      else timeout.toNat
    let timeoutInJiffies := BitVec.ofNat 32 (msecsToJiffies timeout)
    let step :=
      if timeoutInJiffies > 1 then (step.store (timeoutInJiffies - 1).toNat).store 1
      else step.store timeoutInJiffies.toNat
    let step := (step.store 1).store 1
    let step :=
      if BitVec.ofNat 32 (resleepTimeout * hz) > timeoutInJiffies + 2 then
        step.store (BitVec.ofNat 32 (resleepTimeout * hz) - 2 - timeoutInJiffies).toNat
      else step
    { step with cur := 0 }

inductive PendingT where
  | wakeup
  | timeout
  | done
  deriving DecidableEq, Repr

/-- What happens while a thread is in `proc_ta_pending`: this many sleeps run out before one is
woken, and then whether a signal is pending, whether `set_abort_cmd` succeeds and whether the
command is done. -/
structure Wait where
  timedOut : Nat := 0
  killed : Bool := false
  aborted : Bool := false
  done : Bool := false

inductive SleepEnd where
  | woken
  | timeout
  | ranOut
  deriving DecidableEq, Repr

/-- The label `resleep` of `proc_ta_pending`: how it is left, and the `timeout_step` at each access
to `steps[cur]`. -/
def resleep (timerNoIrq : Bool) (step : TimeoutStep) : Nat → SleepEnd × TimeoutStep × List TimeoutStep
  | 0 => (.woken, step, [step])
  | timedOut + 1 =>
    if step.cur < step.size - 1 then
      let next := { step with cur := step.cur + 1 }
      if timerNoIrq then (.timeout, next, [step])
      else
        let (sleepEnd, last, used) := resleep timerNoIrq next timedOut
        (sleepEnd, last, step :: used)
    else (.ranOut, step, [step])

def processAbortCmd (aborted : Bool) : SmcOps := if aborted then .abortTask else .schedto

structure Pended where
  ret : PendingT
  ops : SmcOps
  step : TimeoutStep
  /-- `timeout_step` at each access to `steps[cur]`. -/
  used : List TimeoutStep

/-- `proc_ta_pending` makes a new schedule only when there is none. -/
def reinitTimeoutStep (timeout : BitVec 32) (step : TimeoutStep) : TimeoutStep :=
  if step.cur = invalidStepSize then initTimeoutStep hz msecsToJiffies timeout step else step

/-- `proc_ta_pending` of a user thread. -/
def procTaPending (step : TimeoutStep) (pendingArgs : BitVec 64) (w : Wait) (ops : SmcOps) : Pended :=
  let timerNoIrq := pendingArgs >>> 32 != 0
  let step := reinitTimeoutStep hz msecsToJiffies (pendingArgs.setWidth 32) step
  match resleep timerNoIrq step w.timedOut with
  | (.timeout, step, used) => ⟨.timeout, .schedto, step, used⟩
  | (.ranOut, step, used) =>
    if w.killed then ⟨.wakeup, processAbortCmd w.aborted, step, used⟩
    else if w.done then ⟨.done, ops, step, used⟩
    else ⟨.wakeup, .schedto, step, used⟩
  | (.woken, step, used) =>
    if w.done then ⟨.done, ops, step, used⟩ else ⟨.wakeup, .schedto, step, used⟩

/-- `set_timeout_step`. -/
def setTimeoutStep (step : TimeoutStep) : TimeoutStep :=
  if step.timeoutReset then { step with cur := invalidStepSize, timeoutReset := false } else step

/-! ## The loop -/

structure SmcCmdRet where
  exit : Nat
  ta : BitVec 64

/-- In this order: `smc_ops_normal` succeeds; what `smp_smc_send_process` reports, `none` for -1; the
command is done; `match_ta_affinity` holds; `set_abort_cmd` succeeds after `SMC_EXIT_ABORT`; the
wait; `copy_smc_out_entry` succeeds; the answer is `TEEC_PENDING2`. -/
structure Round where
  placed : Bool := true
  sent : Option SmcCmdRet
  done : Bool := false
  affinity : Bool := false
  aborted : Bool := false
  wait : Wait := {}
  copied : Bool := true
  pending2 : Bool := false

/-- A wait when it starts: the `ta` of the latest exit, `timeout_step` when `steps[cur]` is first
used, and whether the pass before it returned `PD_TIMEOUT`. -/
structure WaitStart where
  ta : BitVec 64
  step : TimeoutStep
  continues : Bool

inductive Pass where
  | waited (ta : BitVec 64) (timedOut : Nat) (ret : PendingT)
  | other

structure Loop where
  ops : SmcOps := .normal
  timeoutStep : TimeoutStep := .initial
  finished : Bool := false
  waits : List WaitStart := []
  history : List Pass := []

def Loop.finish (s : Loop) : Loop := { s with finished := true }

def Loop.retry (s : Loop) (ops : SmcOps) (p : Pass) : Loop :=
  { s with ops := ops, history := p :: s.history }

/-- `handle_cmd_working_done`. -/
def handleCmdWorkingDone (s : Loop) (r : Round) (p : Pass) : Loop :=
  if r.copied && r.pending2 then s.retry .normal p else s.finish

/-- The pass before returned `PD_TIMEOUT`. -/
def Loop.continues (s : Loop) : Bool :=
  match s.history with
  | .waited _ _ .timeout :: _ => true
  | _ => false

/-- `proc_normal_exit` after `match_ta_affinity`, and what the loop does then. -/
def procNormalExit (s : Loop) (r : Round) (ta : BitVec 64) : Loop :=
  let pended := procTaPending hz msecsToJiffies s.timeoutStep ta r.wait s.ops
  let s := { s with
    waits := ⟨ta, pended.used.headD s.timeoutStep, s.continues⟩ :: s.waits
    timeoutStep := pended.step }
  let p := .waited ta r.wait.timedOut pended.ret
  match pended.ret with
  | .done => handleCmdWorkingDone s r p
  | .timeout => s.retry pended.ops p
  | .wakeup => { s with timeoutStep.timeoutReset := true }.retry pended.ops p

/-- One pass through the loop, from the label `retry`. -/
def pass (s : Loop) (r : Round) : Loop :=
  if s.finished then s
  else
    let s := { s with timeoutStep := setTimeoutStep s.timeoutStep }
    if s.ops = .normal ∧ r.placed = false then s.finish
    else
      match r.sent with
      | none => s.finish
      | some cmdRet =>
        if r.done then handleCmdWorkingDone s r .other
        else if cmdRet.exit = smcExitNormal then
          if r.affinity then s.retry .schedto .other
          else procNormalExit hz msecsToJiffies s r cmdRet.ta
        else if cmdRet.exit = smcExitAbort then s.retry (processAbortCmd r.aborted) .other
        else s.finish

end Steps

/-! ## What is asked of a wait -/

section Asked

variable (hz : Nat) (msecsToJiffies : Nat → Nat)

/-- What `init_timeout_step` makes of the timeout in `ta`. -/
def built (ta : BitVec 64) : TimeoutStep :=
  initTimeoutStep hz msecsToJiffies (ta.setWidth 32) .initial

/-- The schedule is the one for `ta`, from its beginning. -/
structure AsBuilt (ta : BitVec 64) (step : TimeoutStep) : Prop where
  cur : step.cur = 0
  size : step.size = (built hz msecsToJiffies ta).size
  schedule : step.schedule = (built hz msecsToJiffies ta).schedule

/-- The `ta` for which the pass gets to `proc_ta_pending`. -/
def waitsFor (s : Loop) (r : Round) : Option (BitVec 64) :=
  match r.sent with
  | some ⟨exit, ta⟩ =>
    if s.finished = false ∧ (s.ops = .normal → r.placed = true) ∧ r.done = false ∧
        exit = smcExitNormal ∧ r.affinity = false then some ta
    else none
  | none => none

/-- The `ta` of the first wait since the last one that returned `PD_WAKEUP`, and whether a sleep
has run out since then. -/
def carried : List Pass → Option (BitVec 64 × Bool)
  | [] => none
  | .other :: passes => carried passes
  | .waited _ _ .wakeup :: _ => none
  | .waited ta timedOut _ :: passes =>
    let (first, ranOut) := (carried passes).getD (ta, false)
    some (first, ranOut || timedOut != 0)

/-- A pass that starts a wait directly follows `PD_TIMEOUT`, or follows no wait since the last
`PD_WAKEUP`, or asks for a schedule that is in force already and still stands at its first
step. -/
def Fresh (s : Loop) (r : Round) : Prop :=
  ∀ ta, waitsFor s r = some ta → s.continues = false →
    ∀ first ranOut, carried s.history = some (first, ranOut) →
      (built hz msecsToJiffies first).schedule = (built hz msecsToJiffies ta).schedule ∧
        (ranOut = false ∨ first.setWidth 32 = 0#32)

end Asked

/-! ## The steps -/

section Stored

variable {step : TimeoutStep} {xs : List Nat}

/-- The steps in use are `xs`. -/
structure Stored (step : TimeoutStep) (xs : List Nat) : Prop where
  size : step.size.toNat = xs.length
  schedule : step.schedule = xs

@[simp]
theorem store_timeoutReset {v : Nat} : (step.store v).timeoutReset = step.timeoutReset := rfl

theorem stored_nil (step : TimeoutStep) : Stored { step with size := 0 } [] := ⟨rfl, rfl⟩

theorem Stored.store (stored : Stored step xs) (room : xs.length < toStepSize) (v : Nat) :
    Stored (step.store v) (xs ++ [v]) := by
  have size := stored.size
  have size' : (step.store v).size.toNat = step.size.toNat + 1 := by
    simp only [toStepSize] at room
    simp only [TimeoutStep.store]
    bv_omega
  have inside : step.size.toNat < step.steps.toList.length := by simpa [size] using room
  constructor
  · rw [size', size, List.length_append, List.length_singleton]
  · simp only [TimeoutStep.schedule, size']
    simp only [TimeoutStep.store, Vector.toList_setIfInBounds]
    rw [List.take_succ_eq_append_getElem (by simpa using inside), List.getElem_set_self,
      List.take_set_of_le (Nat.le_refl _)]
    exact congrArg (· ++ [v]) stored.schedule

theorem Stored.withCur (stored : Stored step xs) (cur : BitVec 32) :
    Stored { step with cur := cur } xs := ⟨stored.size, stored.schedule⟩

variable (hz : Nat) (msecsToJiffies : Nat → Nat)

/-- The steps for a timeout, one after another. -/
def lengths (timeout : BitVec 32) : List Nat :=
  if timeout = 0 then [resleepJiffies hz]
  else
    let timeout :=
      if timeout.toNat > resleepTimeout * msecPerSec then resleepTimeout * msecPerSec
      else timeout.toNat
    let jiffies := BitVec.ofNat 32 (msecsToJiffies timeout)
    (if jiffies > 1 then [(jiffies - 1).toNat, 1] else [jiffies.toNat]) ++ [1, 1] ++
      (if BitVec.ofNat 32 (resleepTimeout * hz) > jiffies + 2 then
        [(BitVec.ofNat 32 (resleepTimeout * hz) - 2 - jiffies).toNat] else [])

theorem lengths_length (timeout : BitVec 32) :
    0 < (lengths hz msecsToJiffies timeout).length ∧
    (lengths hz msecsToJiffies timeout).length ≤ toStepSize ∧
    ((lengths hz msecsToJiffies timeout).length = 1 ↔ timeout = 0#32) := by
  unfold lengths
  by_cases zero : timeout = 0
  · rw [if_pos zero]
    simp [zero, toStepSize]
  · rw [if_neg zero]
    dsimp only
    generalize BitVec.ofNat 32 (msecsToJiffies _) = jiffies
    split <;> split <;> simpa [toStepSize] using zero

theorem initTimeoutStep_stored (timeout : BitVec 32) (step : TimeoutStep) :
    Stored (initTimeoutStep hz msecsToJiffies timeout step) (lengths hz msecsToJiffies timeout) := by
  have start := stored_nil step
  unfold initTimeoutStep lengths
  by_cases zero : timeout = 0
  · rw [if_pos zero, if_pos zero]
    exact (start.store (by decide) _).withCur 0
  · rw [if_neg zero, if_neg zero]
    dsimp only
    generalize BitVec.ofNat 32 (msecsToJiffies _) = jiffies
    generalize BitVec.ofNat 32 (resleepTimeout * hz) = most
    have first : ∃ xs, xs = (if jiffies > 1 then [(jiffies - 1).toNat, 1] else [jiffies.toNat]) ∧
        xs.length ≤ 2 ∧
        Stored (if jiffies > 1 then
          (TimeoutStep.store { step with size := 0 } (jiffies - 1).toNat).store 1
          else TimeoutStep.store { step with size := 0 } jiffies.toNat) xs := by
      refine ⟨_, rfl, ?_⟩
      split
      · exact ⟨by simp, (start.store (by decide) _).store (by simp [toStepSize]) 1⟩
      · exact ⟨by simp, start.store (by decide) _⟩
    obtain ⟨xs, steps, short, first⟩ := first
    rw [← steps]
    have second := (first.store (by simp only [toStepSize]; omega) 1).store
      (by simp only [toStepSize, List.length_append, List.length_singleton]; omega) 1
    rw [List.append_assoc] at second
    split
    · refine Stored.withCur (second.store ?_ _) 0
      simp only [toStepSize, List.length_append, List.length_singleton]
      omega
    · rw [List.append_nil]
      exact second.withCur 0

theorem initTimeoutStep_cur (timeout : BitVec 32) (step : TimeoutStep) :
    (initTimeoutStep hz msecsToJiffies timeout step).cur = 0 := by
  simp only [initTimeoutStep, apply_ite TimeoutStep.cur, ite_self]

theorem initTimeoutStep_timeoutReset (timeout : BitVec 32) (step : TimeoutStep) :
    (initTimeoutStep hz msecsToJiffies timeout step).timeoutReset = step.timeoutReset := by
  simp only [initTimeoutStep, apply_ite TimeoutStep.timeoutReset, store_timeoutReset, ite_self]

end Stored

theorem resleepJiffies_eq {hz : Nat} (fits : resleepTimeout * hz < 2 ^ 31) :
    resleepJiffies hz = resleepTimeout * hz := by
  have positive : (BitVec.ofNat 32 (resleepTimeout * hz)).msb = false := by
    rw [BitVec.msb_eq_false_iff_two_mul_lt, BitVec.toNat_ofNat]
    omega
  rw [resleepJiffies, BitVec.signExtend_eq_setWidth_of_msb_false positive, BitVec.toNat_setWidth,
    BitVec.toNat_ofNat]
  omega

/-- As long as nothing wraps around, these are the steps of the sleeps in `PendingWait`. -/
theorem lengths_eq {hz : Nat} {msecsToJiffies : Nat → Nat} (most : resleepTimeout * hz < 2 ^ 31)
    (small : ∀ timeout, timeout ≤ resleepTimeout * msecPerSec → msecsToJiffies timeout + 2 < 2 ^ 32)
    (timeout : BitVec 32) :
    lengths hz msecsToJiffies timeout =
      PendingWait.initTimeoutStep hz msecsToJiffies timeout.toNat := by
  unfold lengths PendingWait.initTimeoutStep
  by_cases zero : timeout = 0
  · simp [zero, resleepJiffies_eq most]
  · have nonzero : timeout.toNat ≠ 0 := by bv_omega
    rw [if_neg zero, if_neg nonzero]
    dsimp only
    have clamp : (if timeout.toNat > resleepTimeout * msecPerSec then resleepTimeout * msecPerSec
        else timeout.toNat) ≤ resleepTimeout * msecPerSec := by
      split
      · exact Nat.le_refl _
      · omega
    generalize (if timeout.toNat > resleepTimeout * msecPerSec then resleepTimeout * msecPerSec
      else timeout.toNat) = clamped at clamp ⊢
    have fits := small clamped clamp
    generalize msecsToJiffies clamped = jiffies at fits ⊢
    generalize resleepTimeout * hz = longest at most ⊢
    have several : BitVec.ofNat 32 jiffies > 1 ↔ jiffies > 1 := by bv_omega
    have rest : BitVec.ofNat 32 longest > BitVec.ofNat 32 jiffies + 2 ↔ longest > jiffies + 2 := by
      bv_omega
    simp only [several, rest]
    congr 1
    · split
      · rw [show (BitVec.ofNat 32 jiffies - 1).toNat = jiffies - 1 by bv_omega]
      · rw [show (BitVec.ofNat 32 jiffies).toNat = jiffies by bv_omega]
    · split
      · rw [show (BitVec.ofNat 32 longest - 2 - BitVec.ofNat 32 jiffies).toNat =
          longest - 2 - jiffies by bv_omega]
      · rfl

/-! ## Sleeping -/

/-- Sleeping moves the cursor only, inside the schedule. It stays at the first step when no sleep
runs out, or when there is no other step. -/
theorem resleep_cur (timerNoIrq : Bool) {step : TimeoutStep} (inside : step.cur < step.size)
    (timedOut : Nat) :
    ∃ cur, (resleep timerNoIrq step timedOut).2.1 = { step with cur := cur } ∧
      (resleep timerNoIrq step timedOut).2.2.head? = some step ∧ cur < step.size ∧
      (cur = 0 ↔ step.cur = 0 ∧ (timedOut = 0 ∨ step.size = 1)) := by
  induction timedOut generalizing step with
  | zero => exact ⟨step.cur, rfl, rfl, inside, by simp⟩
  | succ timedOut ih =>
    simp only [resleep]
    by_cases more : step.cur < step.size - 1
    · have next : step.cur + 1 < step.size := by bv_omega
      have notFirst : step.cur + 1 ≠ 0 := by bv_omega
      have moved : ¬ (timedOut + 1 = 0 ∨ step.size = 1) := by
        rintro (none | one)
        · omega
        · bv_omega
      rw [if_pos more]
      cases timerNoIrq with
      | true =>
        exact ⟨step.cur + 1, rfl, rfl, next, iff_of_false notFirst fun h => moved h.2⟩
      | false =>
        obtain ⟨cur, last, -, low, first⟩ := @ih { step with cur := step.cur + 1 } next
        refine ⟨cur, last, rfl, low, ?_⟩
        exact iff_of_false (fun h => notFirst (first.1 h).1) fun h => moved h.2
    · rw [if_neg more]
      refine ⟨step.cur, rfl, rfl, inside, ?_⟩
      constructor
      · intro first
        exact ⟨first, .inr (by bv_omega)⟩
      · exact fun h => h.1

section Waits

variable (hz : Nat) (msecsToJiffies : Nat → Nat)

theorem setTimeoutStep_timeoutReset (step : TimeoutStep) :
    (setTimeoutStep step).timeoutReset = false := by
  unfold setTimeoutStep
  split
  · rfl
  · simp_all

theorem setTimeoutStep_of_not {step : TimeoutStep} (kept : step.timeoutReset = false) :
    setTimeoutStep step = step := by
  simp [setTimeoutStep, kept]

/-- What `timeout_step` holds at the beginning of a pass, by what has been carried over. -/
def Reflects (step : TimeoutStep) : Option (BitVec 64 × Bool) → Prop
  | none => step.cur = invalidStepSize
  | some (first, ranOut) =>
    Stored step (lengths hz msecsToJiffies (first.setWidth 32)) ∧ step.cur < step.size ∧
      (step.cur = 0 ↔ ranOut = false ∨ first.setWidth 32 = 0#32)

def ScheduleOk (s : Loop) : Prop :=
  s.finished = false →
    Reflects hz msecsToJiffies (setTimeoutStep s.timeoutStep) (carried s.history)

variable {hz msecsToJiffies}

theorem reinitTimeoutStep_reflects {step : TimeoutStep} {c : Option (BitVec 64 × Bool)}
    (ok : Reflects hz msecsToJiffies step c) (ta : BitVec 64) :
    Reflects hz msecsToJiffies (reinitTimeoutStep hz msecsToJiffies (ta.setWidth 32) step)
      (some (c.getD (ta, false))) := by
  cases c with
  | none =>
    have stored := initTimeoutStep_stored hz msecsToJiffies (ta.setWidth 32) step
    have first := initTimeoutStep_cur hz msecsToJiffies (ta.setWidth 32) step
    have some_ := (lengths_length hz msecsToJiffies (ta.setWidth 32)).1
    have size := stored.size
    have start : step.cur = invalidStepSize := ok
    rw [reinitTimeoutStep, if_pos start]
    refine ⟨stored, ?_, by simp [first]⟩
    rw [first]
    bv_omega
  | some c =>
    obtain ⟨first, ranOut⟩ := c
    have size := ok.1.size
    have few := (lengths_length hz msecsToJiffies (first.setWidth 32)).2.1
    have inside := ok.2.1
    have valid : step.cur ≠ invalidStepSize := by
      simp only [toStepSize] at few
      simp only [invalidStepSize]
      bv_omega
    rw [reinitTimeoutStep, if_neg valid]
    exact ok

theorem procTaPending_reflects {step : TimeoutStep} {first : BitVec 64} {ranOut : Bool}
    (ta : BitVec 64) (w : Wait) (ops : SmcOps)
    (ok : Reflects hz msecsToJiffies (reinitTimeoutStep hz msecsToJiffies (ta.setWidth 32) step)
      (some (first, ranOut))) :
    Reflects hz msecsToJiffies (procTaPending hz msecsToJiffies step ta w ops).step
        (some (first, ranOut || w.timedOut != 0)) ∧
      (procTaPending hz msecsToJiffies step ta w ops).step.timeoutReset =
        (reinitTimeoutStep hz msecsToJiffies (ta.setWidth 32) step).timeoutReset ∧
      (procTaPending hz msecsToJiffies step ta w ops).used.head? =
        some (reinitTimeoutStep hz msecsToJiffies (ta.setWidth 32) step) := by
  generalize begins : reinitTimeoutStep hz msecsToJiffies (ta.setWidth 32) step = start at ok ⊢
  obtain ⟨stored, inside, atFirst⟩ := ok
  have one := (lengths_length hz msecsToJiffies (first.setWidth 32)).2.2
  obtain ⟨cur, last, used, low, stays⟩ :=
    resleep_cur (ta >>> 32 != 0) inside w.timedOut
  have slept : Reflects hz msecsToJiffies { start with cur := cur }
      (some (first, ranOut || w.timedOut != 0)) := by
    refine ⟨stored.withCur cur, low, ?_⟩
    have size : start.size = 1 ↔ first.setWidth 32 = 0#32 := by
      rw [← one, ← stored.size]
      constructor
      · intro h
        rw [h]
        rfl
      · intro h
        bv_omega
    rw [stays, atFirst, size]
    simp only [Bool.or_eq_false_iff, bne_eq_false_iff_eq]
    exact and_or_right.symm
  simp only [procTaPending, begins]
  generalize resleep (ta >>> 32 != 0) start w.timedOut = out at last used ⊢
  obtain ⟨sleepEnd, step', used'⟩ := out
  simp only at last used
  subst last
  cases sleepEnd with
  | timeout => exact ⟨slept, rfl, used⟩
  | ranOut =>
    dsimp only
    split
    · exact ⟨slept, rfl, used⟩
    · split <;> exact ⟨slept, rfl, used⟩
  | woken =>
    dsimp only
    split <;> exact ⟨slept, rfl, used⟩

end Waits

/-! ## The passes -/

section Passes

variable {hz : Nat} {msecsToJiffies : Nat → Nat} {s : Loop} {r : Round} {ta : BitVec 64}

theorem finish_ok (s : Loop) : ScheduleOk hz msecsToJiffies s.finish := by
  intro running
  cases running

theorem handleCmdWorkingDone_waits (p : Pass) : (handleCmdWorkingDone s r p).waits = s.waits := by
  unfold handleCmdWorkingDone
  split <;> rfl

theorem handleCmdWorkingDone_ok {p : Pass}
    (ok : Reflects hz msecsToJiffies (setTimeoutStep s.timeoutStep) (carried (p :: s.history))) :
    ScheduleOk hz msecsToJiffies (handleCmdWorkingDone s r p) := by
  unfold handleCmdWorkingDone
  split
  · exact fun _ => ok
  · exact finish_ok s

/-- A pass that does not get to `proc_ta_pending` leaves the schedule alone. -/
theorem pass_idle (idle : waitsFor s r = none) (ok : ScheduleOk hz msecsToJiffies s) :
    (pass hz msecsToJiffies s r).waits = s.waits ∧
      ScheduleOk hz msecsToJiffies (pass hz msecsToJiffies s r) := by
  unfold pass
  by_cases running : s.finished = false
  · have again := setTimeoutStep_of_not (setTimeoutStep_timeoutReset s.timeoutStep)
    have kept := ok running
    rw [← again] at kept
    rw [if_neg (by simp [running])]
    dsimp only
    split
    · exact ⟨rfl, finish_ok _⟩
    · rename_i placed
      cases sent : r.sent with
      | none => exact ⟨rfl, finish_ok _⟩
      | some cmdRet =>
        dsimp only
        split
        · exact ⟨handleCmdWorkingDone_waits .other, handleCmdWorkingDone_ok kept⟩
        · split
          · split
            · exact ⟨rfl, fun _ => kept⟩
            · simp_all [waitsFor]
          · split
            · exact ⟨rfl, fun _ => kept⟩
            · exact ⟨rfl, finish_ok _⟩
  · rw [if_pos (by simpa using running)]
    exact ⟨rfl, ok⟩

theorem pass_waits (hz : Nat) (msecsToJiffies : Nat → Nat) (waits : waitsFor s r = some ta) :
    s.finished = false ∧ pass hz msecsToJiffies s r =
      procNormalExit hz msecsToJiffies { s with timeoutStep := setTimeoutStep s.timeoutStep } r ta := by
  unfold waitsFor at waits
  cases sent : r.sent with
  | none => simp [sent] at waits
  | some cmdRet =>
    obtain ⟨exit, ta'⟩ := cmdRet
    simp only [sent] at waits
    split at waits
    · rename_i gets
      obtain ⟨running, placed, notDone, normal, affinity⟩ := gets
      cases waits
      refine ⟨running, ?_⟩
      unfold pass
      rw [if_neg (by simp [running])]
      dsimp only
      rw [if_neg (by simpa using placed)]
      simp [sent, notDone, normal, affinity]
    · cases waits

/-- A pass that waits starts with the schedule that was carried over, or with a new one. -/
theorem procNormalExit_ok (ok : Reflects hz msecsToJiffies s.timeoutStep (carried s.history))
    (reset : s.timeoutStep.timeoutReset = false) (r : Round) (ta : BitVec 64) :
    (procNormalExit hz msecsToJiffies s r ta).waits =
      ⟨ta, reinitTimeoutStep hz msecsToJiffies (ta.setWidth 32) s.timeoutStep, s.continues⟩ ::
        s.waits ∧
    ScheduleOk hz msecsToJiffies (procNormalExit hz msecsToJiffies s r ta) := by
  have begins := reinitTimeoutStep_reflects ok ta
  have keepsReset : (reinitTimeoutStep hz msecsToJiffies (ta.setWidth 32) s.timeoutStep).timeoutReset =
      false := by
    unfold reinitTimeoutStep
    split
    · rw [initTimeoutStep_timeoutReset, reset]
    · exact reset
  obtain ⟨slept, reset', used⟩ := procTaPending_reflects ta r.wait s.ops begins
  rw [keepsReset] at reset'
  unfold procNormalExit
  dsimp only
  generalize procTaPending hz msecsToJiffies s.timeoutStep ta r.wait s.ops = pended at slept reset' used ⊢
  have first : pended.used.headD s.timeoutStep =
      reinitTimeoutStep hz msecsToJiffies (ta.setWidth 32) s.timeoutStep := by
    rw [List.headD_eq_head?_getD, used]
    rfl
  rw [first]
  have goesOn := setTimeoutStep_of_not reset'
  cases ret : pended.ret with
  | wakeup => exact ⟨rfl, fun _ => rfl⟩
  | timeout =>
    refine ⟨rfl, fun _ => ?_⟩
    simp only [Loop.retry, goesOn]
    exact slept
  | done =>
    refine ⟨handleCmdWorkingDone_waits _, handleCmdWorkingDone_ok ?_⟩
    simp only [goesOn]
    exact slept

theorem built_stored (hz : Nat) (msecsToJiffies : Nat → Nat) (ta : BitVec 64) :
    Stored (built hz msecsToJiffies ta) (lengths hz msecsToJiffies (ta.setWidth 32)) :=
  initTimeoutStep_stored hz msecsToJiffies _ _

theorem Stored.asBuilt_iff {step : TimeoutStep} {xs : List Nat} (stored : Stored step xs) :
    AsBuilt hz msecsToJiffies ta step ↔
      step.cur = 0 ∧ xs = (built hz msecsToJiffies ta).schedule := by
  have new := built_stored hz msecsToJiffies ta
  constructor
  · intro asBuilt
    exact ⟨asBuilt.cur, stored.schedule.symm.trans asBuilt.schedule⟩
  · rintro ⟨cur, same⟩
    refine ⟨cur, ?_, stored.schedule.trans same⟩
    have length : step.size.toNat = (built hz msecsToJiffies ta).size.toNat := by
      rw [stored.size, same, new.schedule, new.size]
    bv_omega

/-- The wait that a pass starts is as asked exactly when the pass is fresh. -/
theorem fresh_iff (ok : ScheduleOk hz msecsToJiffies s) (waits : waitsFor s r = some ta) :
    Fresh hz msecsToJiffies s r ↔
      (s.continues = false → AsBuilt hz msecsToJiffies ta
        (reinitTimeoutStep hz msecsToJiffies (ta.setWidth 32) (setTimeoutStep s.timeoutStep))) := by
  have carriedOver := ok (pass_waits hz msecsToJiffies waits).1
  have begins := reinitTimeoutStep_reflects carriedOver ta
  unfold Fresh
  rw [waits]
  simp only [Option.some.injEq, forall_eq']
  refine imp_congr_right fun _ => ?_
  cases c : carried s.history with
  | none =>
    rw [c] at begins
    obtain ⟨stored, -, first⟩ := begins
    have asBuilt : AsBuilt hz msecsToJiffies ta
        (reinitTimeoutStep hz msecsToJiffies (ta.setWidth 32) (setTimeoutStep s.timeoutStep)) :=
      stored.asBuilt_iff.2 ⟨first.2 (.inl rfl), (built_stored hz msecsToJiffies ta).schedule.symm⟩
    simp [asBuilt]
  | some c' =>
    obtain ⟨first, ranOut⟩ := c'
    rw [c] at begins
    obtain ⟨stored, -, atFirst⟩ := begins
    rw [stored.asBuilt_iff, atFirst, ← (built_stored hz msecsToJiffies first).schedule]
    constructor
    · intro fresh
      have now := fresh first ranOut rfl
      exact ⟨now.2, now.1⟩
    · rintro ⟨stays, same⟩ _ _ ⟨⟩
      exact ⟨same, stays⟩

/-- In the runs of the loop, whatever the TEE and the queue do in each pass, the waits that do not
directly follow `PD_TIMEOUT` use the timeout of the latest exit exactly when every pass is
fresh. -/
theorem waits_as_asked_iff (hz : Nat) (msecsToJiffies : Nat → Nat) (rounds : List Round) :
    (∀ w ∈ (rounds.foldl (pass hz msecsToJiffies) {}).waits, w.continues = false →
      AsBuilt hz msecsToJiffies w.ta w.step) ↔
    ActionSystem.Along (pass hz msecsToJiffies) (Fresh hz msecsToJiffies) {} rounds := by
  have general : ∀ s, ScheduleOk hz msecsToJiffies s →
      ((∀ w ∈ (rounds.foldl (pass hz msecsToJiffies) s).waits, w.continues = false →
        AsBuilt hz msecsToJiffies w.ta w.step) ↔
      (∀ w ∈ s.waits, w.continues = false → AsBuilt hz msecsToJiffies w.ta w.step) ∧
        ActionSystem.Along (pass hz msecsToJiffies) (Fresh hz msecsToJiffies) s rounds) := by
    induction rounds with
    | nil => exact fun s _ => by simp [ActionSystem.Along]
    | cons r rounds ih =>
      intro s ok
      rw [List.foldl_cons, ActionSystem.Along]
      cases waits : waitsFor s r with
      | none =>
        obtain ⟨same, ok'⟩ := pass_idle waits ok
        rw [ih _ ok', same]
        have fresh : Fresh hz msecsToJiffies s r := fun ta h => by rw [waits] at h; cases h
        simp [fresh]
      | some ta =>
        obtain ⟨running, passed⟩ := pass_waits hz msecsToJiffies waits
        obtain ⟨started, ok'⟩ := @procNormalExit_ok hz msecsToJiffies
          { s with timeoutStep := setTimeoutStep s.timeoutStep } (ok running)
          (setTimeoutStep_timeoutReset _) r ta
        rw [← passed] at started ok'
        rw [ih _ ok', started, List.forall_mem_cons, fresh_iff ok waits]
        constructor
        · rintro ⟨⟨new, old⟩, along⟩
          exact ⟨old, new, along⟩
        · rintro ⟨old, new, along⟩
          exact ⟨⟨new, old⟩, along⟩
  rw [general {} fun _ => rfl]
  simp

end Passes

/-- 250 jiffies a second. -/
def msecsToJiffies250 (m : Nat) : Nat := (m + 3) / 4

/-- The TEE blocks for 100 ms; the command is done in the first sleep and has the TEE's request for
an agent, so that it is sent again; then the TEE blocks for 5 s. -/
def doneThenResent : List Round :=
  [{ sent := some ⟨smcExitNormal, 100⟩, wait := { done := true }, pending2 := true },
   { sent := some ⟨smcExitNormal, 5000⟩ }]

/-- The second wait has the steps of the first one. -/
theorem stale_schedule_after_done :
    ¬ ∀ w ∈ (doneThenResent.foldl (pass 250 msecsToJiffies250) {}).waits, w.continues = false →
      AsBuilt 250 msecsToJiffies250 w.ta w.step := by
  intro asked
  have second := asked _ List.mem_cons_self rfl
  exact absurd second.schedule (by decide +kernel)

end TimeoutSchedule
