import Tzdriver.PendingWait

/-!
# Shadow threads

`core/smc_smp.c`: a shadow thread serves the TEE with SMCs. Between two of them it waits in
`proc_shadow_thread_normal_exit` for the word `run` of its pending entry, quits when it finds
`SHADOW_EXIT_RUN` there and otherwise stores 0 and goes back to the TEE. The request to quit and
ordinary wake-ups are plain stores to that word, so a wake-up after the request and the
thread's own store after its test both wipe the request out.
-/

namespace ShadowThread

open PendingWait

def preemptCount : Nat := 10000
def idledCount : Nat := 100
def retryWithPm : Int := 1
def cleanWithoutPm : Int := 2

/-- The exit reasons of an SMC; `max` is the value before the first one. -/
inductive ExitReason where
  | max
  | preempted
  | normal
  | other
  deriving DecidableEq, Repr

inductive ShadowOps where
  | startShadow
  | schedto
  | probeAlive
  deriving DecidableEq, Repr

/-- Where the thread stands: in an SMC, in the wait, after the wait, and between the test of
`run` and the store that resets it. -/
inductive Pc where
  | smc
  | waiting
  | woken
  | resetting
  | exited (ret : Int)
  deriving DecidableEq, Repr

structure State where
  pc : Pc := .smc
  run : Nat := 0
  ret : Int := 0
  exitReason : ExitReason := .max
  nPreempted : Nat := 0
  nIdled : Nat := 0
  smcs : List ShadowOps := []
  deriving DecidableEq, Repr

/-- `shadow_wo_pm` with `set_shadow_smc_param`. -/
def shadowWoPm (s : State) : State :=
  let s := { s with pc := .smc }
  match s.exitReason with
  | .preempted => { s with smcs := s.smcs ++ [.schedto] }
  | .normal =>
    if s.nIdled > idledCount then { s with nIdled := 0, smcs := s.smcs ++ [.probeAlive] }
    else { s with smcs := s.smcs ++ [.schedto] }
  | .max | .other => { s with smcs := s.smcs ++ [.startShadow] }

/-- The thread has its pending entry and issues its first SMC. -/
def start : State := shadowWoPm {}

/-- `set_preempted_counter`. -/
def setPreemptedCounter (s : State) : State :=
  { s with nIdled := 0, nPreempted := if s.nPreempted + 1 > preemptCount then 0 else s.nPreempted + 1 }

def State.exit (s : State) (ret : Int) : State := { s with pc := .exited ret }

/-- A store to the word of a pending entry, if the thread still has one. -/
def State.store (s : State) (word : Nat) : State :=
  match s.pc with
  | .exited _ => s
  | _ => { s with run := word }

inductive Act where
  | crash
  | smcReturns (reason : ExitReason)
  | wake
  | timeout
  | interrupt
  | test
  | reset
  | notify (n : Notice)
  | broadcast
  deriving DecidableEq, Repr

def step (s : State) : Act → Option State
  | .crash => if s.pc = .smc then some (s.exit (-1)) else none
  | .smcReturns reason =>
    if s.pc = .smc then
      let s := { s with exitReason := reason }
      match reason with
      | .preempted => some (shadowWoPm (setPreemptedCounter s))
      | .normal => some { s with nPreempted := 0, pc := .waiting }
      | .max | .other => some (s.exit s.ret)
    else none
  | .wake => if s.pc = .waiting ∧ s.run ≠ 0 then some { s with pc := .woken } else none
  | .timeout =>
    if s.pc = .waiting ∧ s.run = 0 then some { s with pc := .woken, nIdled := s.nIdled + 1 } else none
  | .interrupt => if s.pc = .waiting then some { s with pc := .woken } else none
  | .test =>
    if s.pc = .woken then
      if s.run = shadowExitRun then some (s.exit cleanWithoutPm) else some { s with pc := .resetting }
    else none
  | .reset =>
    if s.pc = .resetting then some (shadowWoPm { s with run := 0, ret := retryWithPm }) else none
  | .notify n => some (s.store n.word)
  | .broadcast => some (s.store broadcastWord)

def exec (s : State) (acts : List Act) : Option State := acts.foldlM step s

theorem exec_cons (s : State) (a : Act) (acts : List Act) :
    exec s (a :: acts) = (step s a).bind fun s => exec s acts := List.foldlM_cons ..

/-- The rule for runs all of whose actions satisfy `Q`. -/
theorem exec_inv {P : State → Prop} {Q : Act → Prop}
    (kept : ∀ s a s', P s → Q a → step s a = some s' → P s') {acts : List Act} {s s' : State}
    (start : P s) (all : ∀ a ∈ acts, Q a) (ran : exec s acts = some s') : P s' := by
  induction acts generalizing s with
  | nil =>
    cases ran
    exact start
  | cons a acts ih =>
    rw [exec_cons, Option.bind_eq_some_iff] at ran
    obtain ⟨mid, moved, ran⟩ := ran
    exact ih (kept s a mid start (all a List.mem_cons_self) moved)
      (fun b hb => all b (List.mem_cons_of_mem a hb)) ran

@[simp] theorem shadowWoPm_pc (s : State) : (shadowWoPm s).pc = .smc := by
  unfold shadowWoPm
  simp only
  split
  · rfl
  · split <;> rfl
  · rfl
  · rfl

@[simp] theorem shadowWoPm_run (s : State) : (shadowWoPm s).run = s.run := by
  unfold shadowWoPm
  simp only
  split
  · rfl
  · split <;> rfl
  · rfl
  · rfl

section Steps

variable {s s' : State} {a : Act}

/-- What a step does to the position and to the word: the thread goes on without touching
the word, quits, resets the word, or another party stores into it. -/
theorem step_cases (moved : step s a = some s') :
    (a ≠ .test ∧ s'.run = s.run ∧ s.pc ≠ .resetting ∧ s'.pc ≠ .resetting ∧
      (∀ ret, s.pc ≠ .exited ret)) ∨
    (a = .test ∧ s.pc = .woken ∧ s'.run = s.run ∧
      s'.pc = if s.run = shadowExitRun then .exited cleanWithoutPm else .resetting) ∨
    (a = .reset ∧ s.pc = .resetting ∧ s'.run = 0 ∧ s'.pc = .smc) ∨
    (∃ word, (a = .broadcast ∧ word = broadcastWord ∨ ∃ n : Notice, a = .notify n ∧ word = n.word) ∧
      s' = s.store word) := by
  cases a with
  | crash =>
    simp only [step] at moved
    split at moved <;> cases moved
    rename_i pc
    simp [State.exit, pc]
  | smcReturns reason =>
    simp only [step] at moved
    split at moved
    · rename_i pc
      cases reason <;> cases moved <;> simp [State.exit, setPreemptedCounter, pc]
    · cases moved
  | wake | timeout =>
    simp only [step] at moved
    split at moved <;> cases moved
    rename_i pc
    simp [pc.1]
  | interrupt =>
    simp only [step] at moved
    split at moved <;> cases moved
    rename_i pc
    simp [pc]
  | test =>
    simp only [step] at moved
    split at moved
    · rename_i pc
      split at moved <;> cases moved <;> simp_all [State.exit]
    · cases moved
  | reset =>
    simp only [step] at moved
    split at moved <;> cases moved
    rename_i pc
    simp [pc]
  | notify n =>
    cases moved
    exact .inr (.inr (.inr ⟨_, .inr ⟨n, rfl, rfl⟩, rfl⟩))
  | broadcast =>
    cases moved
    exact .inr (.inr (.inr ⟨_, .inl ⟨rfl, rfl⟩, rfl⟩))

theorem store_pc (s : State) (word : Nat) : (s.store word).pc = s.pc := by
  unfold State.store
  split <;> rfl

theorem store_run {word : Nat} (live : ∀ ret, s.pc ≠ .exited ret) : (s.store word).run = word := by
  unfold State.store
  split
  · rename_i ret pc
    exact absurd pc (live ret)
  · rfl

/-- A thread that quit issues no SMC any more. -/
theorem exited_step {ret : Int} (quit : s.pc = .exited ret) (moved : step s a = some s') :
    s'.pc = .exited ret ∧ s'.smcs = s.smcs := by
  have stored : ∀ word, (s.store word).pc = .exited ret ∧ (s.store word).smcs = s.smcs := by
    intro word
    simp [State.store, quit]
  cases a with
  | notify n =>
    cases moved
    exact stored _
  | broadcast =>
    cases moved
    exact stored _
  | crash | smcReturns | wake | timeout | interrupt | test | reset => simp [step, quit] at moved

theorem exited_exec {ret : Int} (quit : s.pc = .exited ret) {acts : List Act}
    (ran : exec s acts = some s') : s'.pc = .exited ret ∧ s'.smcs = s.smcs := by
  refine exec_inv (P := fun s' => s'.pc = .exited ret ∧ s'.smcs = s.smcs) (Q := fun _ => True) ?_
    ⟨quit, rfl⟩ (fun _ _ => trivial) ran
  rintro mid a next ⟨quit, same⟩ - moved
  obtain ⟨quit', same'⟩ := exited_step quit moved
  exact ⟨quit', same'.trans same⟩

end Steps

section Requests

/-- A request to quit is the only action that stores `SHADOW_EXIT_RUN`. -/
def IsRequest (a : Act) : Prop := a = .notify .shadowExit

/-- Another notification that is stored over the word. -/
def Overwrites (a : Act) : Prop := a = .notify .wakeupCa ∨ a = .broadcast

variable {s s' : State} {a : Act}

/-- A request in the word stays there until the test, if no other notification comes and
the thread is not about to reset the word. -/
theorem kept_step (kept : s.pc ≠ .resetting ∧ s.run = shadowExitRun)
    (quiet : a ≠ .test ∧ ¬ Overwrites a) (moved : step s a = some s') :
    s'.pc ≠ .resetting ∧ s'.run = shadowExitRun := by
  obtain ⟨-, run, -, pc, -⟩ | ⟨test, -⟩ | ⟨-, resetting, -⟩ | ⟨word, store, rfl⟩ := step_cases moved
  · exact ⟨pc, run.trans kept.2⟩
  · exact absurd test quiet.1
  · exact absurd resetting kept.1
  · rw [store_pc]
    refine ⟨kept.1, ?_⟩
    unfold State.store
    split
    · exact kept.2
    · rcases store with ⟨rfl, -⟩ | ⟨n, rfl, rfl⟩
      · exact absurd (.inr rfl) quiet.2
      · cases n with
        | wakeupCa => exact absurd (.inl rfl) quiet.2
        | shadowExit => rfl

/-- Without a new request a word that is wiped out, or about to be, is not restored. -/
theorem wiped_step (wiped : s.pc = .resetting ∨ s.run ≠ shadowExitRun) (quiet : ¬ IsRequest a)
    (moved : step s a = some s') : s'.pc = .resetting ∨ s'.run ≠ shadowExitRun := by
  obtain ⟨-, run, notReset, -⟩ | ⟨-, woken, run, pc⟩ | ⟨-, -, run, -⟩ | ⟨word, store, rfl⟩ :=
    step_cases moved
  · rw [run]
    exact .inr (wiped.resolve_left notReset)
  · rw [run, pc]
    split
    · rename_i exit
      exact .inr (wiped.resolve_left (by simp [woken]))
    · exact .inl rfl
  · rw [run]
    exact .inr (by decide)
  · rw [store_pc]
    unfold State.store
    split
    · exact wiped
    · refine .inr ?_
      rcases store with ⟨-, rfl⟩ | ⟨n, rfl, rfl⟩
      · change broadcastWord ≠ shadowExitRun
        decide
      · cases n with
        | wakeupCa =>
          change Notice.word .wakeupCa ≠ shadowExitRun
          decide
        | shadowExit => exact absurd rfl quiet

/-- The exit is taken at the test, and no SMC follows. -/
def TakesExit (s s' : State) : Prop :=
  s'.pc = .exited cleanWithoutPm ∧
    ∀ acts s'', exec s' acts = some s'' → s''.smcs = s.smcs

theorem test_takes_exit_iff (moved : step s .test = some s') :
    s.pc = .woken ∧ (TakesExit s s' ↔ s.run = shadowExitRun) := by
  simp only [step] at moved
  split at moved
  · rename_i pc
    refine ⟨pc, ?_⟩
    split at moved
    · rename_i exit
      cases moved
      refine iff_of_true ⟨rfl, ?_⟩ exit
      intro acts s'' ran
      exact (exited_exec rfl ran).2
    · rename_i other
      cases moved
      exact iff_of_false (fun h => by cases h.1) other
  · cases moved

theorem exec_append (s : State) (acts more : List Act) :
    exec s (acts ++ more) = (exec s acts).bind fun s => exec s more := by
  unfold exec
  rw [List.foldlM_append]
  rfl

/-- From any state, a request, then actions `mid` without a test or a further request, then the
exit test: the thread takes the exit exactly when the request did not come between an
earlier test and its reset, and no other notification was stored over it. A test that has a
request before it has a last one, so this is about every test. -/
theorem exit_request_kept_iff (mid : List Act) (s₁ s₂ s₃ : State)
    (requested : exec s₁ (.notify .shadowExit :: mid) = some s₂)
    (next : .test ∉ mid) (last : .notify .shadowExit ∉ mid) (test : step s₂ .test = some s₃) :
    TakesExit s₂ s₃ ↔ s₁.pc ≠ .resetting ∧ ∀ a ∈ mid, ¬ Overwrites a := by
  obtain ⟨woken, taken⟩ := test_takes_exit_iff test
  rw [taken]
  have live : ∀ ret, s₁.pc ≠ .exited ret := by
    intro ret quit
    have := (exited_exec quit requested).1
    simp [woken] at this
  rw [exec_cons] at requested
  have ran : exec (s₁.store shadowExitRun) mid = some s₂ := requested
  constructor
  · intro kept
    by_contra lost
    rw [not_and_or, not_not] at lost
    have wiped : s₂.pc = .resetting ∨ s₂.run ≠ shadowExitRun := by
      rcases lost with resetting | overwritten
      · refine exec_inv (Q := fun a => ¬ IsRequest a) (fun s a s' => wiped_step) ?_ ?_ ran
        · exact .inl ((store_pc _ _).trans resetting)
        · exact fun a ha request => last (request ▸ ha)
      · simp only [not_forall, not_not] at overwritten
        obtain ⟨a, ha, wake⟩ := overwritten
        obtain ⟨first, rest, rfl⟩ := List.append_of_mem ha
        rw [exec_append, Option.bind_eq_some_iff] at ran
        obtain ⟨u, ran₁, ran₂⟩ := ran
        rw [exec_cons, Option.bind_eq_some_iff] at ran₂
        obtain ⟨v, moved, ran₂⟩ := ran₂
        have stillLive : ∀ ret, u.pc ≠ .exited ret := by
          intro ret quit
          have quit' := (exited_step quit moved).1
          have := (exited_exec quit' ran₂).1
          simp [woken] at this
        refine exec_inv (Q := fun a => ¬ IsRequest a) (fun s a s' => wiped_step) ?_ ?_ ran₂
        · rcases wake with rfl | rfl
          · cases moved
            rw [store_run stillLive]
            exact .inr (by decide)
          · cases moved
            rw [store_run stillLive]
            exact .inr (by decide)
        · intro b hb request
          exact last (request ▸ List.mem_append_right _ (List.mem_cons_of_mem _ hb))
    rcases wiped with h | h
    · simp [woken] at h
    · exact h kept
  · rintro ⟨notResetting, quiet⟩
    refine (exec_inv (Q := fun a => a ≠ .test ∧ ¬ Overwrites a) (fun s a s' => kept_step) ?_ ?_ ran).2
    · exact ⟨by rwa [store_pc], store_run live⟩
    · exact fun a ha => ⟨fun e => next (e ▸ ha), quiet a ha⟩

end Requests

/-- The thread is in the TEE when the request comes; it finds the request when it comes back. -/
theorem exit_request_kept_in_smc :
    ∃ s₂ s₃, exec start [.notify .shadowExit, .smcReturns .preempted, .smcReturns .normal, .wake] =
        some s₂ ∧ step s₂ .test = some s₃ ∧ TakesExit s₂ s₃ := by
  refine ⟨_, _, rfl, rfl, ?_⟩
  refine (exit_request_kept_iff [.smcReturns .preempted, .smcReturns .normal, .wake] start _ _ rfl
    (by decide) (by decide) rfl).2 ⟨by decide, ?_⟩
  simp [Overwrites]

/-- A wake-up between the request and the test: the test fails and another SMC is issued. The
same happens to a request that comes between the test and the reset. -/
theorem wakeup_wipes_exit_request :
    (∃ s₁ s₂ s₃ s₄, exec start [.smcReturns .normal] = some s₁ ∧
      exec s₁ [.notify .shadowExit, .notify .wakeupCa, .wake] = some s₂ ∧
      step s₂ .test = some s₃ ∧ ¬ TakesExit s₂ s₃ ∧
      step s₃ .reset = some s₄ ∧ s₄.smcs = s₂.smcs ++ [.schedto]) ∧
    ∃ s₁ s₂ s₃, exec start [.smcReturns .normal, .timeout, .test] = some s₁ ∧
      exec s₁ [.notify .shadowExit, .reset, .smcReturns .normal, .timeout] = some s₂ ∧
      step s₂ .test = some s₃ ∧ ¬ TakesExit s₂ s₃ := by
  refine ⟨⟨_, _, _, _, rfl, rfl, rfl, ?_, rfl, rfl⟩, ⟨_, _, _, rfl, rfl, rfl, ?_⟩⟩
  · intro taken
    cases taken.1
  · intro taken
    cases taken.1

end ShadowThread
