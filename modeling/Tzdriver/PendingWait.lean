import Tzdriver.SmcQueue

/-!
# Waiting for the TEE

`core/smc_smp.c`: a thread whose command is not done after an SMC sleeps in
`proc_ta_pending` until the word `run` of its pending entry is set. The TEE publishes a
reply by the out bit of the slot and then has `smc_wakeup_ca` set the word; broadcasts and
other notifications set it too. The sleeper clears the word only after it woke up and looks
at the out bit after that.

The system is the one of the SMC queue with the wait taken apart: entering it, each way
it ends, and the store that clears the word are steps of their own. `notified` is bookkeeping:
the reply that is in the thread's slot has had its notification.
-/

namespace PendingWait

open Function SmcQueue

def resleepTimeout : Nat := 15
def msecPerSec : Nat := 1000
def shadowExitRun : Nat := 0x1234dead

/-- The callers of `proc_smc_wakeup_ca`. -/
inductive Notice where
  | wakeupCa
  | shadowExit
  deriving DecidableEq, Repr

/-- The value the notification stores in `run`. -/
def Notice.word : Notice → Nat
  | .wakeupCa => 1
  | .shadowExit => shadowExitRun

/-- The value `wakeup_pe` stores for `smc_wakeup_broadcast`. -/
def broadcastWord : Nat := 1

section Timeouts

variable (hz : Nat) (msecsToJiffies : Nat → Nat)

/-- `init_timeout_step`: the lengths of the sleeps, one after another. -/
def initTimeoutStep (timeout : Nat) : List Nat :=
  if timeout = 0 then [resleepTimeout * hz]
  else
    let timeout := if timeout > resleepTimeout * msecPerSec then resleepTimeout * msecPerSec else timeout
    let jiffies := msecsToJiffies timeout
    (if jiffies > 1 then [jiffies - 1, 1] else [jiffies]) ++ [1, 1] ++
      (if resleepTimeout * hz > jiffies + 2 then [resleepTimeout * hz - 2 - jiffies] else [])

end Timeouts

/-- Where a thread stands in `proc_ta_pending`. `woken`: the wait is over and `run` is not
cleared yet. -/
inductive WaitPos where
  | outside
  | asleep
  | woken
  deriving DecidableEq, Repr

/-- The pending entry of a thread with the locals of its wait. `cur` is `none` for
`INVALID_STEP_SIZE`. -/
structure Pending where
  run : Nat := 0
  pos : WaitPos := .outside
  kernelCall : Bool := false
  timerNoIrq : Bool := false
  steps : List Nat := []
  cur : Option Nat := none
  notified : Bool := false
  deriving DecidableEq, Repr

structure Sys (Thread : Type*) where
  base : SmcQueue.Sys Thread
  pending : Thread → Pending

inductive Act (Thread : Type*) where
  | queue (a : SmcQueue.Act Thread)
  | affinity (t : Thread)
  | pend (t : Thread) (kernelCall : Bool) (timeout : Nat) (timerNoIrq : Bool)
  | wake (t : Thread)
  | interrupt (t : Thread)
  | timeout (t : Thread) (killed : Bool)
  | clearRun (t : Thread)
  | notify (t : Thread) (n : Notice)
  | broadcast

variable {Thread : Type*}

def Sys.init : Sys Thread := ⟨SmcQueue.Sys.init, fun _ => {}⟩

/-- The out bit of the slot in which the thread has its command. -/
def Sys.published (s : Sys Thread) (t : Thread) : Bool :=
  isCmdWorkingDone s.base.queue (s.base.threads t).cmdIndex

/-- The thread is in `smp_smc_send_func` and has a pending entry. -/
def hasEntry (l : Local) : Bool :=
  match l.pc with
  | .idle | .returned _ => false
  | _ => true

/-- The entry after a step of its thread. `init_pending_entry` makes a new one; a return with
`PD_WAKEUP` restarts the timeouts, one with `PD_DONE` does not; a command placed anew has no reply
yet. -/
def afterDriver (a : DriverAct) (l l' : Local) (pe : Pending) : Pending :=
  match a with
  | .start _ _ _ | .resume _ _ => {}
  | _ =>
    { pe with
      cur := if l.pc = .pendingPoll ∧ l'.pc ≠ .copyOut then none else pe.cur
      notified := pe.notified && (l'.cmdIndex == l.cmdIndex) && (l'.placed == l.placed) }

section Steps

variable [DecidableEq Thread] (hz : Nat) (msecsToJiffies : Nat → Nat) (maxSmcCmd : Nat)

def Sys.setPending (s : Sys Thread) (t : Thread) (pe : Pending) : Sys Thread :=
  { s with pending := update s.pending t pe }

/-- The part of `proc_normal_exit` after the wait, with the entry as the wait leaves it. -/
def Sys.endWait (s : Sys Thread) (t : Thread) (w : WaitResult) (pe : Pending) : Option (Sys Thread) :=
  (waitSection (s.base.threads t) w).map fun l =>
    ⟨{ s.base with threads := update s.base.threads t l }, update s.pending t { pe with pos := .outside }⟩

/-- The wait timed out with `run` still 0. -/
def Sys.timedOut (s : Sys Thread) (t : Thread) (killed : Bool) : Option (Sys Thread) :=
  let pe := s.pending t
  match pe.cur with
  | none => none
  | some cur =>
    if cur + 1 < pe.steps.length then
      let pe := { pe with cur := some (cur + 1) }
      if pe.timerNoIrq then s.endWait t .timeout pe else some (s.setPending t pe)
    else if killed then s.endWait t .killed { pe with cur := none }
    else some (s.setPending t { pe with pos := .woken })

def Sys.notify (s : Sys Thread) (t : Thread) (word : Nat) : Pending :=
  if hasEntry (s.base.threads t) then
    { s.pending t with run := word, notified := (s.pending t).notified || s.published t }
  else s.pending t

def step (s : Sys Thread) : Act Thread → Option (Sys Thread)
  | .queue (.driver _ (.wait _)) => none
  | .queue (.driver t a) =>
    (SmcQueue.step maxSmcCmd s.base (.driver t a)).map fun base =>
      ⟨base, update s.pending t
        (afterDriver a (s.base.threads t) (base.threads t) (s.pending t))⟩
  | .queue (.take i) => (SmcQueue.step maxSmcCmd s.base (.take i)).map fun base => ⟨base, s.pending⟩
  | .queue (.reply i r) =>
    (SmcQueue.step maxSmcCmd s.base (.reply i r)).map fun base =>
      ⟨base, fun t => if (s.base.threads t).cmdIndex = i then { s.pending t with notified := false }
        else s.pending t⟩
  | .affinity t =>
    if (s.pending t).pos = .outside then s.endWait t .affinity (s.pending t) else none
  | .pend t kernelCall timeout timerNoIrq =>
    let pe := s.pending t
    if (s.base.threads t).pc = .normalExit ∧ pe.pos = .outside then
      let pe := { pe with pos := .asleep, kernelCall := kernelCall, timerNoIrq := timerNoIrq }
      if !kernelCall && pe.cur.isNone then
        some (s.setPending t
          { pe with steps := initTimeoutStep hz msecsToJiffies timeout, cur := some 0 })
      else some (s.setPending t pe)
    else none
  | .wake t =>
    let pe := s.pending t
    if pe.pos = .asleep ∧ pe.run ≠ 0 then some (s.setPending t { pe with pos := .woken }) else none
  | .interrupt t =>
    let pe := s.pending t
    if pe.pos = .asleep ∧ pe.kernelCall then some (s.setPending t { pe with pos := .woken }) else none
  | .timeout t killed =>
    let pe := s.pending t
    if pe.pos = .asleep ∧ pe.kernelCall = false ∧ pe.run = 0 then s.timedOut t killed else none
  | .clearRun t =>
    let pe := s.pending t
    if pe.pos = .woken then s.endWait t .woken { pe with run := 0 } else none
  | .notify t n => some (s.setPending t (s.notify t n.word))
  | .broadcast => some { s with pending := fun t => s.notify t broadcastWord }

end Steps

/-! ## Out bits -/

theorem set_outBit {q : Queue} {i j : Nat} {slot : Slot}
    (out : ((q.set i slot).slots j).outBit = true)
    (lower : slot.outBit = true → (q.slots i).outBit = true) : (q.slots j).outBit = true := by
  by_cases same : j = i
  · subst same
    exact lower (by simpa [Queue.set] using out)
  · simpa [Queue.set, same] using out

theorem copySmcOutEntry_outBit {q q' : Queue} {i j : Nat} {cmd : SmcCmd} {usage : CmdReuse}
    (copied : copySmcOutEntry q i = some (cmd, usage, q')) (out : (q'.slots j).outBit = true) :
    (q.slots j).outBit = true ∧ j ≠ i := by
  unfold copySmcOutEntry at copied
  split at copied
  · cases copied
  · split at copied
    all_goals
      simp only [Option.some.injEq, Prod.mk.injEq] at copied
      obtain ⟨-, -, rfl⟩ := copied
      refine ⟨set_outBit out (by simp), ?_⟩
      rintro rfl
      simp [Queue.set] at out

/-- No section of the driver sets an out bit. -/
theorem runSection_outBit {n : Nat} {q q' : Queue} {l l' : Local} {j : Nat}
    (moved : runSection n q l = some (q', l')) (out : (q'.slots j).outBit = true) :
    (q.slots j).outBit = true := by
  unfold runSection at moved
  split at moved
  · split at moved
    · cases moved
      exact set_outBit out (fun h => h)
    · split at moved <;> cases moved <;> exact out
  · cases moved
    exact set_outBit out (fun h => h)
  · cases moved
    exact set_outBit out (fun h => h)
  · split at moved
    · rename_i reused
      cases moved
      unfold reuseSmcInEntry at reused
      split at reused
      · cases reused
        exact set_outBit out (fun h => h)
      · cases reused
    · cases moved
      exact out
  · cases moved
    exact set_outBit out (fun h => h)
  · cases moved
    exact set_outBit out (by simp)
  · split at moved
    · cases moved; exact out
    · split at moved
      · cases moved; exact out
      · split at moved <;> cases moved <;> exact out
  · split at moved <;> cases moved <;> exact out
  · split at moved
    · rename_i aborted
      cases moved
      unfold setAbortCmd at aborted
      split at aborted
      · cases aborted
      · cases aborted
        exact set_outBit out (fun h => h)
    · cases moved
      exact out
  · split at moved
    · cases moved
      exact out
    · rename_i copied
      split at moved <;> cases moved <;> exact (copySmcOutEntry_outBit copied out).1
  · cases moved
    exact out
  · split at moved
    · cases moved
      exact set_outBit out (by simp)
    · cases moved
      exact out
  · cases moved

theorem driverStep_outBit {n : Nat} {q q' : Queue} {l l' : Local} {a : DriverAct} {j : Nat}
    (moved : driverStep n q l a = some (q', l')) (out : (q'.slots j).outBit = true) :
    (q.slots j).outBit = true := by
  cases a with
  | run => exact runSection_outBit moved out
  | update scrambler =>
    simp only [driverStep, updateSection] at moved
    split at moved
    all_goals cases moved
    all_goals first
      | exact out
      | exact set_outBit out (fun h => h)
  | start | resume | send | wait =>
    simp only [driverStep, Option.map_eq_some_iff, Prod.mk.injEq] at moved
    obtain ⟨_, -, rfl, -⟩ := moved
    exact out

/-- A published reply is found: the look after the wait goes on to copy it out, and the copy
takes it from the slot. -/
theorem driverStep_found {n : Nat} {q q' : Queue} {l l' : Local} {a : DriverAct}
    (moved : driverStep n q l a = some (q', l')) (out : (q'.slots l.cmdIndex).outBit = true) :
    l.pc ≠ .copyOut ∧ (l.pc = .pendingPoll → l'.pc = .copyOut) := by
  have only : l.pc = .copyOut ∨ l.pc = .pendingPoll → runSection n q l = some (q', l') := by
    intro pc
    cases a with
    | run => exact moved
    | update scrambler => rcases pc with pc | pc <;> simp [driverStep, updateSection, pc] at moved
    | start => rcases pc with pc | pc <;> simp [driverStep, startSection, pc] at moved
    | resume => rcases pc with pc | pc <;> simp [driverStep, resumeSection, pc] at moved
    | send result =>
      rcases pc with pc | pc <;> cases result <;> simp [driverStep, sendSection, pc] at moved
    | wait => rcases pc with pc | pc <;> simp [driverStep, waitSection, pc] at moved
  constructor
  · intro pc
    have ran := only (.inl pc)
    simp only [runSection, pc] at ran
    cases copied : copySmcOutEntry q l.cmdIndex with
    | none =>
      simp only [copied, Option.some.injEq, Prod.mk.injEq] at ran
      obtain ⟨rfl, -⟩ := ran
      simp [copySmcOutEntry, out] at copied
      split at copied <;> cases copied
    | some r =>
      obtain ⟨cmd, usage, mid⟩ := r
      simp only [copied] at ran
      split at ran
      all_goals
        cases ran
        exact (copySmcOutEntry_outBit copied out).2 rfl
  · intro pc
    have ran := only (.inr pc)
    have before := driverStep_outBit moved out
    simp only [runSection, pc, isCmdWorkingDone, before, if_true, Option.some.injEq,
      Prod.mk.injEq] at ran
    exact ran.2 ▸ rfl

/-! ## The invariant -/

section Invariant

variable {s s' : Sys Thread} {t u : Thread}

/-- A thread whose reply is published and notified finds `run` set, unless it has just cleared
it and is about to look at the out bit. -/
structure EntryOk (s : Sys Thread) (t : Thread) : Prop where
  waiting : (s.pending t).pos ≠ .outside → (s.base.threads t).pc = .normalExit
  kept : (s.pending t).notified = true → s.published t = true → (s.pending t).run = 0 →
    (s.base.threads t).pc = .pendingPoll ∨ (s.base.threads t).pc = .copyOut

/-- The thread's own state is as it was and no reply came into its slot. -/
theorem EntryOk.same (ok : EntryOk s t) (local_ : s'.base.threads t = s.base.threads t)
    (pending : s'.pending t = s.pending t)
    (published : s'.published t = true → s.published t = true) : EntryOk s' t := by
  constructor
  · rw [local_, pending]
    exact ok.waiting
  · rw [local_, pending]
    intro notified out
    exact ok.kept notified (published out)

/-- In the wait a published and notified reply has set `run`. -/
theorem EntryOk.awake (ok : EntryOk s t) (pc : (s.base.threads t).pc = .normalExit)
    (notified : (s.pending t).notified = true) (out : s.published t = true) :
    (s.pending t).run ≠ 0 := by
  intro zero
  rcases ok.kept notified out zero with h | h <;> simp [pc] at h

variable [DecidableEq Thread]

/-- The entry moves inside the wait, or stays outside it, with `run` as it was. -/
theorem setPending_ok {pe : Pending} (ok : ∀ u, EntryOk s u)
    (inWait : pe.pos ≠ .outside → (s.base.threads t).pc = .normalExit)
    (run : pe.run = (s.pending t).run) (notified : pe.notified = (s.pending t).notified) :
    EntryOk (s.setPending t pe) u := by
  by_cases same : u = t
  · subst same
    constructor
    · simpa [Sys.setPending] using inWait
    · simpa [Sys.setPending, Sys.published, run, notified] using (ok u).kept
  · exact (ok u).same rfl (update_of_ne same _ _) fun h => h

/-- The wait ends. The word is cleared only on the way to the look at the out bit. -/
theorem endWait_ok {w : WaitResult} {pe : Pending} (ok : ∀ u, EntryOk s u)
    (moved : s.endWait t w pe = some s') (notified : pe.notified = (s.pending t).notified)
    (run : w = .woken ∨ pe.run = (s.pending t).run) : EntryOk s' u := by
  unfold Sys.endWait at moved
  rw [Option.map_eq_some_iff] at moved
  obtain ⟨l, ended, rfl⟩ := moved
  by_cases same : u = t
  · subst same
    unfold waitSection at ended
    split at ended
    · rename_i pc
      refine ⟨by simp, ?_⟩
      simp only [update_self, Sys.published, notified]
      intro told out zero
      have index : l.cmdIndex = (s.base.threads u).cmdIndex := by
        cases w <;> cases ended <;> rfl
      rw [index] at out
      have awake := (ok u).awake pc told out
      cases w with
      | woken =>
        cases ended
        exact .inl rfl
      | affinity | timeout | killed =>
        rcases run with run | run
        · cases run
        · exact absurd (run ▸ zero) awake
    · cases ended
  · exact (ok u).same (update_of_ne same _ _) (update_of_ne same _ _) fun h => by
      simpa [Sys.published, update_of_ne same] using h

omit [DecidableEq Thread] in
theorem afterDriver_pos {a : DriverAct} {l l' : Local} {pe : Pending}
    (inWait : (afterDriver a l l' pe).pos ≠ .outside) : pe.pos ≠ .outside := by
  cases a with
  | start | resume => exact absurd rfl inWait
  | update | send | wait | run => exact inWait

omit [DecidableEq Thread] in
theorem afterDriver_notified {a : DriverAct} {l l' : Local} {pe : Pending}
    (notified : (afterDriver a l l' pe).notified = true) :
    pe.notified = true ∧ l'.cmdIndex = l.cmdIndex ∧ (afterDriver a l l' pe).run = pe.run := by
  cases a with
  | start | resume => cases notified
  | update | send | wait | run =>
    simp only [afterDriver, Bool.and_eq_true, beq_iff_eq] at notified
    exact ⟨notified.1.1, notified.1.2, rfl⟩

theorem driver_ok {n : Nat} {a : DriverAct} {base : SmcQueue.Sys Thread} (ok : ∀ u, EntryOk s u)
    (notWait : ∀ w, a ≠ .wait w) (moved : SmcQueue.step n s.base (.driver t a) = some base) :
    EntryOk ⟨base, update s.pending t
      (afterDriver a (s.base.threads t) (base.threads t) (s.pending t))⟩ u := by
  simp only [SmcQueue.step, Option.map_eq_some_iff] at moved
  obtain ⟨⟨q, l⟩, driven, rfl⟩ := moved
  by_cases same : u = t
  · subst same
    simp only [update_self]
    constructor
    · simp only [update_self]
      intro inWait
      have pc := (ok u).waiting (afterDriver_pos inWait)
      cases a with
      | wait w => exact absurd rfl (notWait w)
      | send result => cases result <;> simp [driverStep, sendSection, pc] at driven
      | start | resume | update | run =>
        simp [driverStep, startSection, resumeSection, updateSection, runSection, pc] at driven
    · simp only [update_self, Sys.published, isCmdWorkingDone]
      intro notified out zero
      obtain ⟨told, index, run⟩ := afterDriver_notified notified
      rw [index] at out
      obtain ⟨notCopy, found⟩ := driverStep_found driven out
      rcases (ok u).kept told (driverStep_outBit driven out) (run ▸ zero) with pc | pc
      · exact .inr (found pc)
      · exact absurd pc notCopy
  · refine (ok u).same (update_of_ne same _ _) (update_of_ne same _ _) ?_
    simp only [Sys.published, isCmdWorkingDone, update_of_ne same]
    exact driverStep_outBit driven

/-- The TEE drops replies when it takes a command, and a reply it publishes is not notified
yet. -/
theorem take_ok {n i : Nat} {base : SmcQueue.Sys Thread} (ok : ∀ u, EntryOk s u)
    (moved : SmcQueue.step n s.base (.take i) = some base) : EntryOk ⟨base, s.pending⟩ u := by
  simp only [SmcQueue.step, Option.map_eq_some_iff] at moved
  obtain ⟨q, took, rfl⟩ := moved
  refine (ok u).same rfl rfl ?_
  simp only [Sys.published, isCmdWorkingDone]
  unfold teeTake at took
  simp only at took
  split at took
  · split at took
    · cases took
      exact fun out => set_outBit out (by simp)
    · cases took
      exact fun out => set_outBit out fun h => h
  · cases took

theorem reply_ok {n i : Nat} {r : SmcCmd} {base : SmcQueue.Sys Thread} (ok : ∀ u, EntryOk s u)
    (moved : SmcQueue.step n s.base (.reply i r) = some base) :
    EntryOk ⟨base, fun t => if (s.base.threads t).cmdIndex = i then
      { s.pending t with notified := false } else s.pending t⟩ u := by
  simp only [SmcQueue.step, Option.map_eq_some_iff] at moved
  obtain ⟨q, replied, rfl⟩ := moved
  by_cases mine : (s.base.threads u).cmdIndex = i
  · constructor
    · simp only [mine, if_true]
      exact (ok u).waiting
    · simp [mine]
  · refine (ok u).same rfl (if_neg mine) ?_
    simp only [Sys.published, isCmdWorkingDone]
    unfold teeReply at replied
    simp only at replied
    split at replied
    · split at replied
      · split at replied
        · cases replied
        · cases replied
          simp [Queue.set, mine]
      · cases replied
    · cases replied

omit [DecidableEq Thread] in
theorem notify_ok {word : Nat} (set : word ≠ 0) (ok : EntryOk s u)
    (pending : s'.pending u = s.notify u word) (base : s'.base = s.base) : EntryOk s' u := by
  unfold Sys.notify at pending
  split at pending
  · constructor
    · rw [pending, base]
      exact ok.waiting
    · rw [pending]
      intro _ _ zero
      exact absurd zero set
  · exact ok.same (by rw [base]) pending fun h => by simpa [Sys.published, base] using h

theorem step_ok {hz n : Nat} {msecsToJiffies : Nat → Nat} {a : Act Thread} (ok : ∀ u, EntryOk s u)
    (moved : step hz msecsToJiffies n s a = some s') (u : Thread) : EntryOk s' u := by
  cases a with
  | queue a =>
    cases a with
    | driver t a =>
      have notWait : ∀ w, a ≠ .wait w := by
        rintro w rfl
        cases moved
      cases a with
      | wait w => exact absurd rfl (notWait w)
      | start | resume | update | send | run =>
        simp only [step, Option.map_eq_some_iff] at moved
        obtain ⟨base, driven, rfl⟩ := moved
        exact driver_ok ok notWait driven
    | take i =>
      simp only [step, Option.map_eq_some_iff] at moved
      obtain ⟨base, took, rfl⟩ := moved
      exact take_ok ok took
    | reply i r =>
      simp only [step, Option.map_eq_some_iff] at moved
      obtain ⟨base, replied, rfl⟩ := moved
      exact reply_ok ok replied
  | affinity t =>
    simp only [step] at moved
    split at moved
    · exact endWait_ok ok moved rfl (.inr rfl)
    · cases moved
  | pend t kernelCall timeout timerNoIrq =>
    simp only [step] at moved
    split at moved
    · rename_i enters
      split at moved <;> cases moved <;> exact setPending_ok ok (fun _ => enters.1) rfl rfl
    · cases moved
  | wake t =>
    simp only [step] at moved
    split at moved
    · rename_i asleep
      cases moved
      exact setPending_ok ok (fun _ => (ok t).waiting (by simp [asleep.1])) rfl rfl
    · cases moved
  | interrupt t =>
    simp only [step] at moved
    split at moved
    · rename_i asleep
      cases moved
      exact setPending_ok ok (fun _ => (ok t).waiting (by simp [asleep.1])) rfl rfl
    · cases moved
  | timeout t killed =>
    simp only [step] at moved
    split at moved
    · rename_i asleep
      have pc := (ok t).waiting (by simp [asleep.1])
      simp only [Sys.timedOut] at moved
      split at moved
      · cases moved
      · split at moved
        · split at moved
          · exact endWait_ok ok moved rfl (.inr rfl)
          · cases moved
            exact setPending_ok ok (fun _ => pc) rfl rfl
        · split at moved
          · exact endWait_ok ok moved rfl (.inr rfl)
          · cases moved
            exact setPending_ok ok (fun _ => pc) rfl rfl
    · cases moved
  | clearRun t =>
    simp only [step] at moved
    split at moved
    · exact endWait_ok ok moved rfl (.inl rfl)
    · cases moved
  | notify t n =>
    cases moved
    by_cases same : u = t
    · subst same
      exact notify_ok (by cases n <;> decide) (ok u) (update_self ..) rfl
    · exact (ok u).same rfl (update_of_ne same _ _) fun h => h
  | broadcast =>
    cases moved
    exact notify_ok (by decide) (ok u) rfl rfl

/-- Every step is a step of the queue or leaves the queue and its threads alone. -/
theorem step_base {hz n : Nat} {msecsToJiffies : Nat → Nat} {a : Act Thread}
    (moved : step hz msecsToJiffies n s a = some s') :
    s'.base = s.base ∨ ∃ b, SmcQueue.step n s.base b = some s'.base := by
  have ended : ∀ t w pe, s.endWait t w pe = some s' → ∃ b, SmcQueue.step n s.base b = some s'.base := by
    intro t w pe h
    rw [Sys.endWait, Option.map_eq_some_iff] at h
    obtain ⟨l, ended, rfl⟩ := h
    exact ⟨.driver t (.wait w), by simp [SmcQueue.step, driverStep, ended]⟩
  cases a with
  | queue a =>
    refine .inr ⟨a, ?_⟩
    cases a with
    | driver t a =>
      cases a with
      | wait w => cases moved
      | start | resume | update | send | run =>
        simp only [step, Option.map_eq_some_iff] at moved
        obtain ⟨base, driven, rfl⟩ := moved
        exact driven
    | take | reply =>
      simp only [step, Option.map_eq_some_iff] at moved
      obtain ⟨base, acted, rfl⟩ := moved
      exact acted
  | affinity t | clearRun t =>
    simp only [step] at moved
    split at moved
    · exact .inr (ended t _ _ moved)
    · cases moved
  | timeout t killed =>
    simp only [step] at moved
    split at moved
    · simp only [Sys.timedOut] at moved
      split at moved
      · cases moved
      · split at moved
        · split at moved
          · exact .inr (ended t _ _ moved)
          · cases moved
            exact .inl rfl
        · split at moved
          · exact .inr (ended t _ _ moved)
          · cases moved
            exact .inl rfl
    · cases moved
  | pend =>
    simp only [step] at moved
    split at moved
    · split at moved <;> cases moved <;> exact .inl rfl
    · cases moved
  | wake | interrupt =>
    simp only [step] at moved
    split at moved
    · cases moved
      exact .inl rfl
    · cases moved
  | notify | broadcast =>
    cases moved
    exact .inl rfl

end Invariant

section Runs

open ActionSystem

variable [DecidableEq Thread] {hz n : Nat} {msecsToJiffies : Nat → Nat}

/-- Runs with the wait taken apart are runs of the SMC queue. -/
theorem reach_base {s : Sys Thread}
    (run : Reach (step hz msecsToJiffies n) (fun _ _ => True) Sys.init s) :
    Reach (SmcQueue.step n) (fun _ _ => True) SmcQueue.Sys.init s.base := by
  induction run with
  | refl => exact .refl
  | tail _ last ih =>
    obtain ⟨a, -, moved⟩ := last
    rcases step_base moved with same | ⟨b, stepped⟩
    · rw [same]
      exact ih
    · exact ih.tail ⟨b, trivial, stepped⟩

/-- The thread sleeps although its reply is there and was announced. -/
def Stranded (s : Sys Thread) (t : Thread) : Prop :=
  (s.pending t).pos = .asleep ∧ (s.pending t).run = 0 ∧ s.published t = true ∧
    (s.pending t).notified = true

/-- No thread sleeps with `run = 0` when the reply to its command is published and its
notification was delivered, whatever the TEE, the timeouts and the other threads do. -/
theorem no_lost_completion {s : Sys Thread}
    (run : Reach (step hz msecsToJiffies n) (fun _ _ => True) Sys.init s) (t : Thread) :
    ¬ Stranded s t := by
  have ok : ∀ u, EntryOk s u := by
    refine run.invariant ?_ fun s a s' ok _ moved => step_ok ok moved
    intro u
    exact ⟨fun h => absurd rfl h, fun h => by cases h⟩
  rintro ⟨asleep, zero, out, notified⟩
  have pc := (ok t).waiting (by simp [asleep])
  exact (ok t).awake pc notified out zero

end Runs

/-- One thread places a command, polls and goes to sleep; then the TEE takes the command,
publishes the reply and notifies. -/
def repliedInSleep : List (Act Unit) :=
  [.queue (.driver () (.start {} 7 true)), .queue (.driver () .run),
   .queue (.driver () (.update (some 0))), .queue (.driver () .run),
   .queue (.driver () (.send (.done smcExitNormal))), .queue (.driver () .run),
   .pend () false 0 false, .queue (.take 0), .queue (.reply 0 {}), .notify () .wakeupCa]

theorem no_lost_completion_in_sleep :
    ∃ s : Sys Unit, ActionSystem.Reach (step 250 id 4) (fun _ _ => True) Sys.init s ∧
      (s.pending ()).pos = .asleep ∧ s.published () = true ∧ (s.pending ()).notified = true ∧
      (s.pending ()).run ≠ 0 := by
  obtain ⟨s, run, good⟩ := ActionSystem.reach_of_play (step 250 id 4) (fun _ _ => True)
    (fun s => (s.pending ()).pos = .asleep ∧ s.published () = true ∧
      (s.pending ()).notified = true) Sys.init repliedInSleep (by decide +kernel)
  rw [decide_eq_true_iff] at good
  refine ⟨s, run, good.1, good.2.1, good.2.2, ?_⟩
  intro zero
  exact no_lost_completion run () ⟨good.1, zero, good.2.1, good.2.2⟩

end PendingWait
