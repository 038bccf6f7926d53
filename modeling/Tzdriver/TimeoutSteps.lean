import Mathlib.Algebra.GroupWithZero.Nat
import Tzdriver.TimeoutSchedule

/-!
# The steps of a timeout

`core/smc_smp.c`: what `init_timeout_step` makes of a timeout, and which of it `proc_ta_pending`
uses. The steps are about a timeout of `t` jiffies when the sleeps end at `t - 1`, `t`, `t + 1` and
`t + 2` jiffies, and then after 15 s unless this is earlier.

A `Call` is one of the functions that change `timeout_step`; they may come in any order and with
any arguments. The loop of `smp_smc_send_func` makes such calls (`pass_calls`).
-/

namespace TimeoutSchedule

open SmcQueue PendingWait

/-! ## Running sums -/

/-- The sums of the first elements, from `total` on. -/
def sumsFrom (total : Nat) : List Nat → List Nat
  | [] => []
  | x :: xs => (total + x) :: sumsFrom (total + x) xs

def runningSums (xs : List Nat) : List Nat := sumsFrom 0 xs

/-! ## The steps about a number of jiffies -/

/-- The ends of the sleeps about `t` jiffies. -/
def around (t : Nat) : List Nat := (if 1 < t then [t - 1] else []) ++ [t, t + 1, t + 2]

/-- The sleeps about `t` jiffies, and one that goes on to `longest`. -/
def stepsAround (longest t : Nat) : List Nat :=
  (if t > 1 then [t - 1, 1] else [t]) ++ [1, 1] ++ (if longest > t + 2 then [longest - 2 - t] else [])

section Around

variable {longest t : Nat}

theorem stepsAround_pos (positive : 0 < t) : ∀ v ∈ stepsAround longest t, 0 < v := by
  intro v used
  simp only [stepsAround, List.mem_append] at used
  rcases used with (first | next) | last
  · split at first
    · rename_i several
      simp only [List.mem_cons, List.not_mem_nil, or_false] at first
      omega
    · rw [List.mem_singleton] at first
      omega
  · simp only [List.mem_cons, List.not_mem_nil, or_false] at next
    omega
  · split at last
    · rw [List.mem_singleton] at last
      omega
    · cases last

theorem stepsAround_sum : (stepsAround longest t).sum = max longest (t + 2) := by
  have first : (if t > 1 then [t - 1, 1] else [t]).sum = t := by
    split
    · simp only [List.sum_cons, List.sum_nil]
      omega
    · simp
  have last : (if longest > t + 2 then [longest - 2 - t] else []).sum = longest - (t + 2) := by
    split
    · simp only [List.sum_cons, List.sum_nil]
      omega
    · rw [List.sum_nil]
      omega
  simp only [stepsAround, List.sum_append, first, last, List.sum_cons, List.sum_nil]
  omega

theorem stepsAround_sums :
    around t <+: runningSums (stepsAround longest t) := by
  refine ⟨if longest > t + 2 then [longest] else [], ?_⟩
  unfold around stepsAround runningSums
  by_cases several : t > 1
  · have before : t - 1 + 1 = t := by omega
    by_cases more : longest > t + 2
    · simp [several, more, sumsFrom, before]
      omega
    · simp [several, more, sumsFrom, before]
  · by_cases more : longest > t + 2
    · simp [several, more, sumsFrom]
      omega
    · simp [several, more, sumsFrom]

end Around

/-! ## The schedule of a timeout -/

section Timeout

variable (hz : Nat) (msecsToJiffies : Nat → Nat)

/-- What is assumed about `msecs_to_jiffies`, for arguments of 32 bits. -/
structure Clock : Prop where
  ticks : 1 ≤ hz
  monotone : ∀ m n, m ≤ n → n < 2 ^ 32 → msecsToJiffies m ≤ msecsToJiffies n
  positive : ∀ m, 0 < m → m < 2 ^ 32 → 0 < msecsToJiffies m
  most : msecsToJiffies (resleepTimeout * msecPerSec) ≤ resleepTimeout * hz

/-- `timeout_in_jiffies` of a timeout that is not 0. -/
def timeoutInJiffies (timeout : BitVec 32) : Nat :=
  msecsToJiffies (min timeout.toNat (resleepTimeout * msecPerSec))

/-- The steps in use are the ones of this timeout. -/
structure WellFormed (timeout : BitVec 32) (step : TimeoutStep) : Prop where
  some_ : 1 ≤ step.size.toNat
  room : step.size.toNat ≤ toStepSize
  positive : ∀ v ∈ step.schedule, 0 < v
  zero : timeout = 0 → step.schedule = [resleepTimeout * hz]
  sums : timeout ≠ 0 → around (timeoutInJiffies msecsToJiffies timeout) <+: runningSums step.schedule
  total : timeout ≠ 0 → step.schedule.sum =
    max (resleepTimeout * hz) (timeoutInJiffies msecsToJiffies timeout + 2)
  unwrapped : timeout ≠ 0 → timeoutInJiffies msecsToJiffies timeout + 2 < 2 ^ 32

variable {hz msecsToJiffies}

theorem Clock.timeoutInJiffies_le (clock : Clock hz msecsToJiffies) (timeout : BitVec 32) :
    timeoutInJiffies msecsToJiffies timeout ≤ resleepTimeout * hz :=
  Nat.le_trans (clock.monotone _ _ (Nat.min_le_right _ _) (by decide)) clock.most

theorem Clock.timeoutInJiffies_pos (clock : Clock hz msecsToJiffies) {timeout : BitVec 32}
    (nonzero : timeout ≠ 0) : 0 < timeoutInJiffies msecsToJiffies timeout := by
  have bound := timeout.isLt
  have limit : 0 < resleepTimeout * msecPerSec := by decide
  apply clock.positive
  · bv_omega
  · omega

theorem lengths_zero (fits : resleepTimeout * hz < 2 ^ 31) :
    lengths hz msecsToJiffies 0 = [resleepTimeout * hz] := by
  rw [lengths, if_pos rfl, resleepJiffies_eq fits]

theorem Clock.lengths_eq (clock : Clock hz msecsToJiffies) (fits : resleepTimeout * hz < 2 ^ 31)
    {timeout : BitVec 32} (nonzero : timeout ≠ 0) :
    lengths hz msecsToJiffies timeout =
      stepsAround (resleepTimeout * hz) (timeoutInJiffies msecsToJiffies timeout) := by
  have small : ∀ m, m ≤ resleepTimeout * msecPerSec → msecsToJiffies m + 2 < 2 ^ 32 := by
    intro m le
    have most := Nat.le_trans (clock.monotone m _ le (by decide)) clock.most
    omega
  have clamp : (if timeout.toNat > resleepTimeout * msecPerSec then resleepTimeout * msecPerSec
      else timeout.toNat) = min timeout.toNat (resleepTimeout * msecPerSec) := by
    split
    · omega
    · omega
  rw [TimeoutSchedule.lengths_eq fits small, PendingWait.initTimeoutStep, if_neg (by bv_omega), clamp]
  rfl

theorem Clock.wellFormed (clock : Clock hz msecsToJiffies) (fits : resleepTimeout * hz < 2 ^ 31)
    {timeout : BitVec 32} {step : TimeoutStep}
    (stored : Stored step (lengths hz msecsToJiffies timeout)) :
    WellFormed hz msecsToJiffies timeout step := by
  obtain ⟨least, most, -⟩ := lengths_length hz msecsToJiffies timeout
  have size := stored.size
  have ticks := clock.ticks
  by_cases zero : timeout = 0
  · have schedule : step.schedule = [resleepTimeout * hz] := by
      rw [stored.schedule, zero, lengths_zero fits]
    refine ⟨by omega, by omega, ?_, fun _ => schedule, ?_, ?_, ?_⟩
    · intro v used
      rw [schedule, List.mem_singleton] at used
      simp only [resleepTimeout] at used
      omega
    all_goals exact fun nonzero => absurd zero nonzero
  · have positive := clock.timeoutInJiffies_pos zero
    have le := clock.timeoutInJiffies_le timeout
    have schedule := stored.schedule.trans (clock.lengths_eq fits zero)
    refine ⟨by omega, by omega, ?_, fun none => absurd none zero, fun _ => ?_, fun _ => ?_,
      fun _ => by omega⟩
    · rw [schedule]
      exact stepsAround_pos positive
    · rw [schedule]
      exact stepsAround_sums
    · rw [schedule]
      exact stepsAround_sum

end Timeout

/-! ## The calls -/

section Calls

variable (hz : Nat) (msecsToJiffies : Nat → Nat)

/-- What changes `timeout_step`. `wakeup` is what `proc_normal_exit` does after `PD_WAKEUP`. -/
inductive Call where
  | initTimeoutStep (timeout : BitVec 32)
  | procTaPending (pendingArgs : BitVec 64) (wait : Wait) (ops : SmcOps)
  | setTimeoutStep
  | wakeup

/-- `timeout_step`, and the latest timeout that `init_timeout_step` got. -/
structure Timed where
  timeout : BitVec 32
  step : TimeoutStep

def Timed.initial : Timed := ⟨0, .initial⟩

/-- The timeout of the steps that `proc_ta_pending` uses. -/
def Timed.timeoutFor (s : Timed) (pendingArgs : BitVec 64) : BitVec 32 :=
  if s.step.cur = invalidStepSize then pendingArgs.setWidth 32 else s.timeout

def call (s : Timed) : Call → Timed
  | .initTimeoutStep timeout => ⟨timeout, initTimeoutStep hz msecsToJiffies timeout s.step⟩
  | .procTaPending pendingArgs wait ops =>
    ⟨s.timeoutFor pendingArgs, (procTaPending hz msecsToJiffies s.step pendingArgs wait ops).step⟩
  | .setTimeoutStep => { s with step := setTimeoutStep s.step }
  | .wakeup => { s with step.timeoutReset := true }

/-- `timeout_step` at each access to `steps[cur]` in a call. -/
def accessed (s : Timed) : Call → List Timed
  | .procTaPending pendingArgs wait ops =>
    (procTaPending hz msecsToJiffies s.step pendingArgs wait ops).used.map
      fun step => ⟨s.timeoutFor pendingArgs, step⟩
  | _ => []

/-- Each access to `steps[cur]` in a sequence of calls. -/
def accesses (s : Timed) : List Call → List Timed
  | [] => []
  | c :: calls => accessed hz msecsToJiffies s c ++ accesses (call hz msecsToJiffies s c) calls

/-- The size is a size of `steps`, and a schedule that is in force is the one of the latest timeout
and has `cur` in it. -/
structure Scheduled (s : Timed) : Prop where
  some_ : 1 ≤ s.step.size.toNat
  room : s.step.size.toNat ≤ toStepSize
  inForce : s.step.cur ≠ invalidStepSize →
    Stored s.step (lengths hz msecsToJiffies s.timeout) ∧ s.step.cur < s.step.size

variable {hz msecsToJiffies} {s : Timed}

theorem initial_scheduled : Scheduled hz msecsToJiffies .initial :=
  ⟨by decide, by decide, fun valid => absurd rfl valid⟩

/-- A step with a schedule is scheduled wherever `cur` is in it. -/
theorem Stored.scheduled {timeout : BitVec 32} {step : TimeoutStep}
    (stored : Stored step (lengths hz msecsToJiffies timeout)) (inside : step.cur < step.size) :
    Scheduled hz msecsToJiffies ⟨timeout, step⟩ := by
  obtain ⟨least, most, -⟩ := lengths_length hz msecsToJiffies timeout
  have size := stored.size
  exact ⟨by simp only; omega, by simp only; omega, fun _ => ⟨stored, inside⟩⟩

theorem initTimeoutStep_inside (timeout : BitVec 32) (step : TimeoutStep) :
    (initTimeoutStep hz msecsToJiffies timeout step).cur <
      (initTimeoutStep hz msecsToJiffies timeout step).size := by
  have size := (initTimeoutStep_stored hz msecsToJiffies timeout step).size
  have least := (lengths_length hz msecsToJiffies timeout).1
  rw [initTimeoutStep_cur]
  bv_omega

/-- `proc_ta_pending` starts with a schedule. -/
theorem Scheduled.reinit (ok : Scheduled hz msecsToJiffies s) (pendingArgs : BitVec 64) :
    Stored (reinitTimeoutStep hz msecsToJiffies (pendingArgs.setWidth 32) s.step)
        (lengths hz msecsToJiffies (s.timeoutFor pendingArgs)) ∧
      (reinitTimeoutStep hz msecsToJiffies (pendingArgs.setWidth 32) s.step).cur <
        (reinitTimeoutStep hz msecsToJiffies (pendingArgs.setWidth 32) s.step).size := by
  unfold reinitTimeoutStep Timed.timeoutFor
  by_cases none : s.step.cur = invalidStepSize
  · rw [if_pos none, if_pos none]
    exact ⟨initTimeoutStep_stored _ _ _ _, initTimeoutStep_inside _ _⟩
  · rw [if_neg none, if_neg none]
    exact ok.inForce none

/-- Each access while sleeping is inside the schedule. -/
theorem resleep_used (timerNoIrq : Bool) {step : TimeoutStep} (inside : step.cur < step.size)
    (timedOut : Nat) :
    ∀ used ∈ (resleep timerNoIrq step timedOut).2.2,
      ∃ cur, used = { step with cur := cur } ∧ cur < step.size := by
  induction timedOut generalizing step with
  | zero =>
    intro used here
    rw [List.mem_singleton.1 here]
    exact ⟨step.cur, rfl, inside⟩
  | succ timedOut ih =>
    simp only [resleep]
    split
    · rename_i more
      have next : step.cur + 1 < step.size := by bv_omega
      cases timerNoIrq with
      | true =>
        intro used here
        rw [List.mem_singleton.1 here]
        exact ⟨step.cur, rfl, inside⟩
      | false =>
        intro used here
        rcases List.mem_cons.1 here with rfl | later
        · exact ⟨used.cur, rfl, inside⟩
        · exact @ih { step with cur := step.cur + 1 } next used later
    · intro used here
      rw [List.mem_singleton.1 here]
      exact ⟨step.cur, rfl, inside⟩

/-- However it ends, `proc_ta_pending` does with the schedule what sleeping does. -/
theorem procTaPending_resleep (step : TimeoutStep) (pendingArgs : BitVec 64) (w : Wait)
    (ops : SmcOps) :
    (procTaPending hz msecsToJiffies step pendingArgs w ops).step =
        (resleep (pendingArgs >>> 32 != 0)
          (reinitTimeoutStep hz msecsToJiffies (pendingArgs.setWidth 32) step) w.timedOut).2.1 ∧
      (procTaPending hz msecsToJiffies step pendingArgs w ops).used =
        (resleep (pendingArgs >>> 32 != 0)
          (reinitTimeoutStep hz msecsToJiffies (pendingArgs.setWidth 32) step) w.timedOut).2.2 := by
  unfold procTaPending
  dsimp only
  generalize resleep _ _ _ = out
  obtain ⟨sleepEnd, last, used⟩ := out
  cases sleepEnd with
  | timeout => exact ⟨rfl, rfl⟩
  | ranOut =>
    dsimp only
    split
    · exact ⟨rfl, rfl⟩
    · split <;> exact ⟨rfl, rfl⟩
  | woken =>
    dsimp only
    split <;> exact ⟨rfl, rfl⟩

theorem accessed_scheduled (ok : Scheduled hz msecsToJiffies s) (c : Call) :
    ∀ a ∈ accessed hz msecsToJiffies s c,
      Stored a.step (lengths hz msecsToJiffies a.timeout) ∧ a.step.cur < a.step.size := by
  cases c with
  | procTaPending pendingArgs wait ops =>
    obtain ⟨stored, inside⟩ := ok.reinit pendingArgs
    intro a here
    obtain ⟨used, among, rfl⟩ := List.mem_map.1 here
    rw [(procTaPending_resleep _ _ _ _).2] at among
    obtain ⟨cur, rfl, low⟩ := resleep_used _ inside _ used among
    exact ⟨stored.withCur cur, low⟩
  | initTimeoutStep timeout => exact fun a here => absurd here List.not_mem_nil
  | setTimeoutStep => exact fun a here => absurd here List.not_mem_nil
  | wakeup => exact fun a here => absurd here List.not_mem_nil

theorem call_scheduled (ok : Scheduled hz msecsToJiffies s) (c : Call) :
    Scheduled hz msecsToJiffies (call hz msecsToJiffies s c) := by
  cases c with
  | initTimeoutStep timeout =>
    exact (initTimeoutStep_stored _ _ _ _).scheduled (initTimeoutStep_inside _ _)
  | procTaPending pendingArgs wait ops =>
    obtain ⟨stored, inside⟩ := ok.reinit pendingArgs
    obtain ⟨cur, last, -, low, -⟩ := resleep_cur (pendingArgs >>> 32 != 0) inside wait.timedOut
    rw [call, (procTaPending_resleep _ _ _ _).1, last]
    exact (stored.withCur cur).scheduled low
  | setTimeoutStep =>
    rw [call, setTimeoutStep]
    split
    · exact ⟨ok.some_, ok.room, fun valid => absurd rfl valid⟩
    · exact ok
  | wakeup => exact ⟨ok.some_, ok.room, fun valid => ⟨⟨(ok.inForce valid).1.size,
      (ok.inForce valid).1.schedule⟩, (ok.inForce valid).2⟩⟩

theorem calls_scheduled (ok : Scheduled hz msecsToJiffies s) (calls : List Call) :
    Scheduled hz msecsToJiffies (calls.foldl (call hz msecsToJiffies) s) := by
  induction calls generalizing s with
  | nil => exact ok
  | cons c calls ih => exact ih (call_scheduled ok c)

theorem accesses_scheduled (ok : Scheduled hz msecsToJiffies s) (calls : List Call) :
    ∀ a ∈ accesses hz msecsToJiffies s calls,
      Stored a.step (lengths hz msecsToJiffies a.timeout) ∧ a.step.cur < a.step.size := by
  induction calls generalizing s with
  | nil => exact fun a here => absurd here List.not_mem_nil
  | cons c calls ih =>
    intro a here
    rcases List.mem_append.1 here with now | later
    · exact accessed_scheduled ok c a now
    · exact ih (call_scheduled ok c) a later

/-- The step at `cur` is one of the steps in use. -/
theorem steps_cur {step : TimeoutStep} (inside : step.cur < step.size)
    (room : step.size.toNat ≤ toStepSize) :
    ∃ v ∈ step.schedule, step.steps[step.cur.toNat]? = some v := by
  have low : step.cur.toNat < step.size.toNat := BitVec.lt_def.1 inside
  have bound : step.cur.toNat < step.schedule.length := by
    simp only [TimeoutStep.schedule, List.length_take, Vector.length_toList]
    omega
  refine ⟨step.schedule[step.cur.toNat], List.getElem_mem bound, ?_⟩
  simp only [TimeoutStep.schedule, List.getElem_take, Vector.getElem_toList]
  exact Vector.getElem?_eq_getElem (by omega)

/-- For every clock and every order of the calls: a new schedule is the one of its timeout, and each
access finds `cur` inside a schedule that is the one of the latest timeout. -/
theorem timeout_steps_ok (clock : Clock hz msecsToJiffies) (fits : resleepTimeout * hz < 2 ^ 31) :
    (∀ timeout step, WellFormed hz msecsToJiffies timeout
      (initTimeoutStep hz msecsToJiffies timeout step)) ∧
    ∀ calls,
      1 ≤ (calls.foldl (call hz msecsToJiffies) .initial).step.size.toNat ∧
      (calls.foldl (call hz msecsToJiffies) .initial).step.size.toNat ≤ toStepSize ∧
      ∀ a ∈ accesses hz msecsToJiffies .initial calls,
        WellFormed hz msecsToJiffies a.timeout a.step ∧ a.step.cur < a.step.size ∧
          ∃ v, a.step.steps[a.step.cur.toNat]? = some v ∧ 0 < v := by
  constructor
  · intro timeout step
    exact clock.wellFormed fits (initTimeoutStep_stored _ _ _ _)
  · intro calls
    have ok := @calls_scheduled hz msecsToJiffies _ initial_scheduled calls
    refine ⟨ok.some_, ok.room, ?_⟩
    intro a here
    obtain ⟨stored, inside⟩ := accesses_scheduled initial_scheduled calls a here
    have formed := clock.wellFormed fits stored
    obtain ⟨v, used, at_⟩ := steps_cur inside formed.room
    exact ⟨formed, inside, v, at_, formed.positive v used⟩

end Calls

/-- At 250 jiffies a second the clock is as assumed. -/
theorem clock250 : Clock 250 msecsToJiffies250 := by
  constructor
  · decide
  · intro m n le _
    unfold msecsToJiffies250
    omega
  · intro m positive _
    unfold msecsToJiffies250
    omega
  · decide

/-- A thread waits for 100 ms, sleeps on and is woken, and waits for as long as it takes. -/
def twoWaits : List Call :=
  [.procTaPending 100 { timedOut := 3 } .normal, .wakeup, .setTimeoutStep, .procTaPending 0 {} .schedto]

theorem timeout_steps_ok_twoWaits :
    (accesses 250 msecsToJiffies250 .initial twoWaits).map (fun a => a.step.cur) = [0, 1, 2, 3, 0] ∧
      (∀ timeout step, WellFormed 250 msecsToJiffies250 timeout
        (initTimeoutStep 250 msecsToJiffies250 timeout step)) ∧
      ∀ calls,
        1 ≤ (calls.foldl (call 250 msecsToJiffies250) .initial).step.size.toNat ∧
        (calls.foldl (call 250 msecsToJiffies250) .initial).step.size.toNat ≤ toStepSize ∧
        ∀ a ∈ accesses 250 msecsToJiffies250 .initial calls,
          WellFormed 250 msecsToJiffies250 a.timeout a.step ∧ a.step.cur < a.step.size ∧
            ∃ v, a.step.steps[a.step.cur.toNat]? = some v ∧ 0 < v :=
  ⟨by decide +kernel, timeout_steps_ok clock250 (by decide)⟩

/-- With so many jiffies a second `RESLEEP_TIMEOUT * HZ` is too large for an `int`. -/
theorem product_overflows :
    Clock 143165577 id ∧ ¬ ∀ timeout, WellFormed 143165577 id timeout
      (initTimeoutStep 143165577 id timeout .initial) := by
  constructor
  · exact ⟨by decide, fun m n le _ => le, fun m positive _ => positive, by decide⟩
  · intro formed
    have longest := (formed 0).zero rfl
    exact absurd longest (by decide +kernel)

/-! ## The loop -/

section Loops

variable (hz : Nat) (msecsToJiffies : Nat → Nat)

/-- The calls that one pass through the loop makes. -/
def passCalls (s : Loop) (r : Round) : List Call :=
  if s.finished then []
  else
    .setTimeoutStep :: match waitsFor s r with
    | none => []
    | some ta =>
      .procTaPending ta r.wait s.ops ::
        if (procTaPending hz msecsToJiffies (setTimeoutStep s.timeoutStep) ta r.wait s.ops).ret =
          .wakeup then [.wakeup] else []

def loopCalls (s : Loop) : List Round → List Call
  | [] => []
  | r :: rounds =>
    passCalls hz msecsToJiffies s r ++ loopCalls (pass hz msecsToJiffies s r) rounds

variable {hz msecsToJiffies} {s : Loop} {r : Round}

theorem handleCmdWorkingDone_timeoutStep (s : Loop) (r : Round) (p : Pass) :
    (handleCmdWorkingDone s r p).timeoutStep = s.timeoutStep := by
  unfold handleCmdWorkingDone
  split <;> rfl

theorem pass_idle_timeoutStep (running : s.finished = false) (idle : waitsFor s r = none) :
    (pass hz msecsToJiffies s r).timeoutStep = setTimeoutStep s.timeoutStep := by
  unfold pass
  rw [if_neg (by simp [running])]
  dsimp only
  split
  · rfl
  · rename_i placed
    cases sent : r.sent with
    | none => rfl
    | some cmdRet =>
      dsimp only
      split
      · exact handleCmdWorkingDone_timeoutStep _ _ _
      · split
        · split
          · rfl
          · simp_all [waitsFor]
        · split <;> rfl

theorem procNormalExit_timeoutStep (s : Loop) (r : Round) (ta : BitVec 64) (timeout : BitVec 32) :
    (procNormalExit hz msecsToJiffies s r ta).timeoutStep =
      ((if (procTaPending hz msecsToJiffies s.timeoutStep ta r.wait s.ops).ret = .wakeup then
        [Call.wakeup] else []).foldl (call hz msecsToJiffies)
        ⟨timeout, (procTaPending hz msecsToJiffies s.timeoutStep ta r.wait s.ops).step⟩).step := by
  unfold procNormalExit
  dsimp only
  cases ret : (procTaPending hz msecsToJiffies s.timeoutStep ta r.wait s.ops).ret with
  | wakeup => rfl
  | timeout => rfl
  | done => exact handleCmdWorkingDone_timeoutStep _ _ _

/-- A pass does to `timeout_step` what its calls do. -/
theorem pass_calls (s : Loop) (r : Round) (timeout : BitVec 32) :
    (pass hz msecsToJiffies s r).timeoutStep =
      ((passCalls hz msecsToJiffies s r).foldl (call hz msecsToJiffies)
        ⟨timeout, s.timeoutStep⟩).step := by
  unfold passCalls
  by_cases running : s.finished = false
  · rw [if_neg (by simp [running])]
    cases waits : waitsFor s r with
    | none => exact pass_idle_timeoutStep running waits
    | some ta =>
      rw [(pass_waits hz msecsToJiffies waits).2]
      exact procNormalExit_timeoutStep _ _ _ _
  · rw [Bool.not_eq_false] at running
    rw [if_pos running, pass, if_pos running]
    rfl

/-- The loop makes a sequence of calls. -/
theorem loop_calls (rounds : List Round) (s : Loop) (timeout : BitVec 32) :
    (rounds.foldl (pass hz msecsToJiffies) s).timeoutStep =
      ((loopCalls hz msecsToJiffies s rounds).foldl (call hz msecsToJiffies)
        ⟨timeout, s.timeoutStep⟩).step := by
  induction rounds generalizing s timeout with
  | nil => rfl
  | cons r rounds ih =>
    rw [List.foldl_cons, loopCalls, List.foldl_append]
    have first := @pass_calls hz msecsToJiffies s r timeout
    generalize (passCalls hz msecsToJiffies s r).foldl _ _ = after at first ⊢
    obtain ⟨timeout', step⟩ := after
    rw [ih (pass hz msecsToJiffies s r) timeout', first]

end Loops
end TimeoutSchedule
