import Tzdriver.SmcSend

/-!
# What the threads announce to the TEE

The invariant says of a thread whose command is in its slot but not announced yet (`Fresh`) that its
round is new, and of every later phase of the command that the round was announced; the words of
the last answer are kept for the SMC that takes the work up again.
-/

namespace SmcSend

open Function ActionSystem
open SmcQueue hiding Sys Act step

variable {Thread : Type*} [DecidableEq Thread]

section Invariant

variable {s s' : Sys Thread} {t u : Thread} {maxSmcCmd : Nat}

/-- The next SMC of the thread announces the command that it placed. -/
def Fresh (l : Local) (c : Core) : Prop :=
  Preparing l.pc ∨ l.pc = .send ∧ l.ops = .normal ∧ c.inParam = none

structure CoreOk (l : Local) (c : Core) : Prop where
  asked : Asked l
  outside : l.pc ≠ .send → c.inParam = none
  left : c.inParam = none → c.secret.exit ≠ smcExitPreempted
  loop : ∀ p, c.inParam = some p → p.x0 = tspRequest ∧ p.x2 = l.inCmd.caPid ∧
    c.secret.exit = smcExitPreempted
  last : ∀ out, c.last = some out → c.secret.ta = out.ta ∧ c.secret.target = out.target ∧
    (c.inParam.isSome → out.exitReason = smcExitPreempted)
  answered : Waiting l.pc → ¬ Fresh l c → c.last.isSome

structure Ok (s : Sys Thread) : Prop where
  inv : Inv False s.base
  core : ∀ t, CoreOk (s.base.threads t) (s.cores t)
  killed : ∀ t, (s.base.threads t).pc = .send → (s.base.threads t).ops = .abortTask →
    isAbortCmd (s.base.queue.slots (s.base.threads t).cmdIndex).inEntry = true
  rounds : ∀ t, (s.base.threads t).placed < s.base.queue.nextRound
  own : ∀ t u, (s.base.threads t).placed = (s.base.threads u).placed →
    (s.base.threads t).placed ≠ 0 → t = u
  known : ∀ r ∈ s.submitted, r < s.base.queue.nextRound
  once : s.submitted.Nodup
  fresh : ∀ t, Fresh (s.base.threads t) (s.cores t) →
    (s.base.threads t).placed ≠ 0 ∧ (s.base.threads t).placed ∉ s.submitted
  announced : ∀ t, Waiting (s.base.threads t).pc → ¬ Fresh (s.base.threads t) (s.cores t) →
    (s.base.threads t).placed ∈ s.submitted

omit [DecidableEq Thread] in
theorem init_ok : Ok (Sys.init : Sys Thread) where
  inv := init_inv
  core := by
    intro t
    constructor <;>
      simp [Sys.init, SmcQueue.Sys.init, Asked, Preparing, Waiting, smcExitPreempted]
  killed := by simp [Sys.init, SmcQueue.Sys.init]
  rounds := by simp [Sys.init, SmcQueue.Sys.init]
  own := by simp [Sys.init, SmcQueue.Sys.init]
  known := by simp [Sys.init]
  once := List.nodup_nil
  fresh := by simp [Sys.init, SmcQueue.Sys.init, Fresh, Preparing]
  announced := by simp [Sys.init, SmcQueue.Sys.init, Waiting]

omit [DecidableEq Thread] in
/-- What goes into the registers. -/
theorem smcParams_spec {l : Local} {c : Core} (ok : CoreOk l c) (at_ : l.pc = .send) :
    (smcParams l c).x0 = tspRequest ∧ (smcParams l c).x2 = l.inCmd.caPid ∧
      ((smcParams l c).x1 = opsCode .normal ↔ Fresh l c) := by
  have fresh : Fresh l c ↔ l.ops = .normal ∧ c.inParam = none := by
    simp [Fresh, Preparing, at_]
  rw [fresh]
  cases inLoop : c.inParam with
  | none =>
    have left := ok.left inLoop
    cases ops : l.ops <;> simp [smcParams, setSmcSendArg, inLoop, left, ops, opsCode]
  | some p =>
    obtain ⟨fid, pid, preempted⟩ := ok.loop p inLoop
    cases ops : l.ops <;>
      simp [smcParams, setSmcSendArg, inLoop, preempted, ops, opsCode, fid, pid]

/-- A step of the driver outside `smp_smc_send` is not taken inside it. -/
theorem driver_outside {q q' : Queue} {l l' : Local} {a : DriverAct}
    (notSend : ∀ result, a ≠ .send result)
    (moved : driverStep maxSmcCmd q l a = some (q', l')) : l.pc ≠ .send := by
  intro at_
  cases a with
  | send result => exact notSend result rfl
  | start cmd pid peOk => simp [driverStep, startSection, at_] at moved
  | resume pid peOk => simp [driverStep, resumeSection, at_] at moved
  | wait w => simp [driverStep, waitSection, at_] at moved
  | update scrambler => simp [driverStep, updateSection, at_] at moved
  | run => simp [driverStep, runSection, at_] at moved

/-- A call begins outside of the phases of a command. -/
theorem enter_idle {q q' : Queue} {l l' : Local} {a : DriverAct}
    (entry : (∃ cmd pid peOk, a = .start cmd pid peOk) ∨ ∃ pid peOk, a = .resume pid peOk)
    (moved : driverStep maxSmcCmd q l a = some (q', l')) :
    ¬ Waiting l.pc ∧ ¬ Preparing l.pc ∧ l.pc ≠ .occupy ∧ l.pc ≠ .reuse := by
  rcases entry with ⟨cmd, pid, peOk, rfl⟩ | ⟨pid, peOk, rfl⟩
  · obtain ⟨l₁, ran, -⟩ := Option.map_eq_some_iff.1 moved
    unfold startSection at ran
    split at ran
    · rename_i at_
      simp [at_, Waiting, Preparing]
    · rename_i at_
      simp [at_, Waiting, Preparing]
    · cases ran
  · obtain ⟨l₁, ran, -⟩ := Option.map_eq_some_iff.1 moved
    unfold resumeSection at ran
    split at ran
    · rename_i at_
      simp [at_, Waiting, Preparing]
    · cases ran

/-- The variables of a thread after a step outside `smp_smc_send`. -/
theorem Ok.driver_core {q' : Queue} {l' : Local} {a : DriverAct} (ok : Ok s)
    (notSend : ∀ result, a ≠ .send result)
    (ran : driverStep maxSmcCmd s.base.queue (s.base.threads t) a = some (q', l'))
    (move : Move s.base.queue (s.base.threads t) q' l') :
    CoreOk l' (enterCall s.cores t a t) ∧ (enterCall s.cores t a t).inParam = none := by
  have core := ok.core t
  have outside := core.outside (driver_outside notSend ran)
  have asked : Asked l' := by
    intro at_
    cases move with
    | placed ops pc _ _ _ =>
      rw [ops]
      exact core.asked (pc.elim Or.inl fun at_ => Or.inr (Or.inl at_))
    | prepared ops pc _ _ _ =>
      rw [ops]
      exact core.asked (Or.inr (Or.inr pc))
    | waited _ pc' _ _ _ _ =>
      rcases pc' with h | h | h | h | h | h <;> simp [h, Preparing] at at_
    | other pc _ ops _ _ =>
      rcases at_ with at_ | at_ | at_
      · exact ops (Or.inl at_)
      · exact ops (Or.inr at_)
      · exact absurd at_ pc
  have fresh_core : (∃ cmd pid peOk, a = .start cmd pid peOk) ∨ (∃ pid peOk, a = .resume pid peOk) →
      CoreOk l' {} := by
    intro entry
    obtain ⟨noWait, noPrep, noOccupy, noReuse⟩ := enter_idle entry ran
    have still : ¬ Waiting l'.pc := by
      cases move with
      | placed _ pc _ _ _ => exact absurd pc (not_or.2 ⟨noOccupy, noReuse⟩)
      | prepared _ pc _ _ _ => exact absurd pc noPrep
      | waited pc _ _ _ _ _ => exact absurd pc noWait
      | other _ pc' _ _ _ => exact pc'
    exact ⟨asked, fun _ => rfl, by simp [smcExitPreempted], by simp, by simp,
      fun waiting => absurd waiting still⟩
  have same : CoreOk l' (s.cores t) := by
    refine ⟨asked, fun _ => outside, core.left, ?_, core.last, ?_⟩
    · intro p inLoop
      simp [outside] at inLoop
    · intro waiting notFresh
      cases move with
      | placed _ _ pc' _ _ => exact absurd (Or.inl pc') notFresh
      | prepared ops pc pc' _ _ =>
        rcases pc' with pc' | at_
        · exact absurd (Or.inl pc') notFresh
        · have normal := core.asked (Or.inr (Or.inr pc))
          exact absurd (Or.inr ⟨at_, ops.trans normal, outside⟩) notFresh
      | waited pc _ _ _ _ _ =>
        refine core.answered pc fun old => ?_
        rcases old with old | ⟨at_, -⟩
        · rcases pc with h | h | h | h | h | h <;> simp [h, Preparing] at old
        · exact driver_outside notSend ran at_
      | other _ pc' _ _ _ => exact absurd waiting pc'
  cases a with
  | start cmd pid peOk =>
    simp only [enterCall, update_self]
    exact ⟨fresh_core (Or.inl ⟨cmd, pid, peOk, rfl⟩), trivial⟩
  | resume pid peOk =>
    simp only [enterCall, update_self]
    exact ⟨fresh_core (Or.inr ⟨pid, peOk, rfl⟩), trivial⟩
  | _ => exact ⟨same, outside⟩

theorem Ok.driver {base : SmcQueue.Sys Thread} {a : DriverAct} (ok : Ok s)
    (notSend : ∀ result, a ≠ .send result)
    (moved : SmcQueue.step maxSmcCmd s.base (.driver t a) = some base) :
    Ok { s with base := base, cores := enterCall s.cores t a } := by
  have inv := SmcQueue.step_inv ok.inv False.elim moved
  simp only [SmcQueue.step, Option.map_eq_some_iff] at moved
  obtain ⟨⟨q', l'⟩, ran, rfl⟩ := moved
  have move := driver_move (ok.core t).asked notSend ran
  have outside := driver_outside notSend ran
  obtain ⟨core, none_⟩ := ok.driver_core notSend ran move
  have others : ∀ u, u ≠ t → enterCall s.cores t a u = s.cores u := by
    intro u hu
    cases a <;> simp [enterCall, hu]
  have grows : s.base.queue.nextRound ≤ q'.nextRound := by
    cases move with
    | placed _ _ _ _ next => omega
    | prepared _ _ _ _ next => omega
    | waited _ _ _ _ next _ => omega
    | other _ _ _ _ next => omega
  have round : l'.placed = (s.base.threads t).placed ∨
      l'.placed = s.base.queue.nextRound ∧ q'.nextRound = s.base.queue.nextRound + 1 := by
    cases move with
    | placed _ _ _ round next => exact Or.inr ⟨round, next⟩
    | prepared _ _ _ round _ => exact Or.inl round
    | waited _ _ _ round _ _ => exact Or.inl round
    | other _ _ _ round _ => exact Or.inl round
  have apart : ∀ u, u ≠ t → l'.placed = (s.base.threads u).placed → l'.placed ≠ 0 → False := by
    intro u hu same some_
    have mine := ok.rounds u
    rcases round with round | ⟨round, -⟩
    · exact hu (ok.own t u (round ▸ same) (round ▸ some_)).symm
    · omega
  refine ⟨inv, ?_, ?_, ?_, ?_, ?_, ok.once, ?_, ?_⟩
  · intro u
    by_cases hu : u = t
    · subst hu
      simpa using core
    · simpa [others u hu, hu] using ok.core u
  · intro u at_ abort
    by_cases hu : u = t
    · subst hu
      simp only [update_self] at at_ abort ⊢
      cases move with
      | placed _ _ pc' _ _ => simp [at_, Preparing] at pc'
      | prepared ops pc _ _ _ =>
        have normal := (ok.core u).asked (Or.inr (Or.inr pc))
        simp [ops.symm.trans abort] at normal
      | waited _ _ _ _ _ killed => exact killed at_ abort
      | other _ pc' _ _ _ => exact absurd (Or.inl at_) pc'
    · simp only [update_of_ne hu] at at_ abort ⊢
      have theirs : (s.base.threads u).owns = some (s.base.threads u).cmdIndex := by
        simp [Local.owns, at_]
      have kept := driver_slots ran (fun mine => hu (ok.inv.exclusive u t _ theirs mine))
        (ok.inv.thread u _ theirs).inBit
      rw [kept]
      exact ok.killed u at_ abort
  · intro u
    by_cases hu : u = t
    · subst hu
      have old := ok.rounds u
      simp only [update_self]
      rcases round with round | ⟨round, next⟩ <;> omega
    · simp only [update_of_ne hu]
      exact Nat.lt_of_lt_of_le (ok.rounds u) grows
  · intro u w same some_
    by_cases hu : u = t
    · by_cases hw : w = t
      · rw [hu, hw]
      · simp only [hu, update_self, update_of_ne hw] at same some_
        exact (apart w hw same some_).elim
    · by_cases hw : w = t
      · simp only [hw, update_self, update_of_ne hu] at same some_
        exact (apart u hu same.symm (same ▸ some_)).elim
      · simp only [update_of_ne hu, update_of_ne hw] at same some_
        exact ok.own u w same some_
  · exact fun r here => Nat.lt_of_lt_of_le (ok.known r here) grows
  · intro u fresh
    by_cases hu : u = t
    · subst hu
      simp only [update_self] at fresh ⊢
      cases move with
      | placed _ _ _ round _ =>
        have old := ok.rounds u
        refine ⟨by omega, fun here => ?_⟩
        have known := ok.known _ here
        omega
      | prepared _ pc _ round _ =>
        rw [round]
        exact ok.fresh u (Or.inl pc)
      | waited _ pc' ops _ _ _ =>
        rcases fresh with pc | ⟨at_, normal, -⟩
        · rcases pc' with h | h | h | h | h | h <;> simp [h, Preparing] at pc
        · exact absurd normal (ops at_)
      | other pc pc' _ _ _ =>
        rcases fresh with here | ⟨at_, -⟩
        · exact absurd here pc
        · exact absurd (Or.inl at_) pc'
    · simp only [update_of_ne hu, others u hu] at fresh ⊢
      exact ok.fresh u fresh
  · intro u waiting notFresh
    by_cases hu : u = t
    · subst hu
      simp only [update_self] at waiting notFresh ⊢
      cases move with
      | placed _ _ pc' _ _ => exact absurd (Or.inl pc') notFresh
      | prepared ops pc pc' _ _ =>
        rcases pc' with pc' | at_
        · exact absurd (Or.inl pc') notFresh
        · have normal := (ok.core u).asked (Or.inr (Or.inr pc))
          exact absurd (Or.inr ⟨at_, ops.trans normal, none_⟩) notFresh
      | waited pc _ _ round _ _ =>
        rw [round]
        refine ok.announced u pc fun old => ?_
        rcases old with old | ⟨at_, -⟩
        · rcases pc with h | h | h | h | h | h <;> simp [h, Preparing] at old
        · exact outside at_
      | other _ pc' _ _ _ => exact absurd waiting pc'
    · simp only [update_of_ne hu, others u hu] at waiting notFresh ⊢
      exact ok.announced u waiting notFresh

omit [DecidableEq Thread] in
/-- The TEE writes neither the commands nor the variables of the threads. -/
theorem Ok.tee {base : SmcQueue.Sys Thread} (ok : Ok s) (inv : Inv False base)
    (threads : base.threads = s.base.threads)
    (next : base.queue.nextRound = s.base.queue.nextRound)
    (entries : ∀ i, (base.queue.slots i).inEntry = (s.base.queue.slots i).inEntry) :
    Ok { s with base := base } := by
  refine ⟨inv, ?_, ?_, ?_, ?_, ?_, ok.once, ?_, ?_⟩
  · simpa [threads] using ok.core
  · simpa [threads, entries] using ok.killed
  · simpa [threads, next] using ok.rounds
  · simpa [threads] using ok.own
  · simpa [next] using ok.known
  · simpa [threads] using ok.fresh
  · simpa [threads] using ok.announced

/-- The rounds that were announced, after an SMC of `t`. -/
def announce (s : Sys Thread) (t : Thread) : List Nat :=
  if (smcParams (s.base.threads t) (s.cores t)).x1 = opsCode .normal then
    (s.base.threads t).placed :: s.submitted
  else s.submitted

omit [DecidableEq Thread] in
/-- An SMC announces the command of its thread, and no other. -/
theorem Ok.announce (ok : Ok s) (at_ : (s.base.threads t).pc = .send) :
    (announce s t).Nodup ∧ (s.base.threads t).placed ∈ announce s t ∧
      (∀ r ∈ s.submitted, r ∈ announce s t) ∧
      ∀ r ∈ announce s t, r ∈ s.submitted ∨ r = (s.base.threads t).placed := by
  have spec := (smcParams_spec (ok.core t) at_).2.2
  unfold SmcSend.announce
  split
  · rename_i normal
    have new := (ok.fresh t (spec.1 normal)).2
    exact ⟨List.nodup_cons.2 ⟨new, ok.once⟩, List.mem_cons_self,
      fun r here => List.mem_cons_of_mem _ here,
      fun r here => (List.mem_cons.1 here).symm⟩
  · rename_i other
    have old := ok.announced t (Or.inl at_) fun fresh => other (spec.2 fresh)
    exact ⟨ok.once, old, fun _ here => here, fun _ here => Or.inl here⟩

/-- An SMC, after which the thread is at `l'` and its variables are `c'`. -/
theorem Ok.smc {l' : Local} {c' : Core} (ok : Ok s) (at_ : (s.base.threads t).pc = .send)
    (inv : Inv False ⟨s.base.queue, update s.base.threads t l'⟩) (core : CoreOk l' c')
    (notFresh : ¬ Fresh l' c') (round : l'.placed = (s.base.threads t).placed)
    (same : l'.pc = .send → l' = s.base.threads t) :
    Ok { base := ⟨s.base.queue, update s.base.threads t l'⟩
         cores := update s.cores t c'
         submitted := SmcSend.announce s t } := by
  obtain ⟨once, mine, more, only⟩ := ok.announce at_
  have rounds : ∀ u, (update s.base.threads t l' u).placed = (s.base.threads u).placed := by
    intro u
    by_cases hu : u = t
    · rw [hu, update_self, round]
    · rw [update_of_ne hu]
  refine ⟨inv, ?_, ?_, ?_, ?_, ?_, once, ?_, ?_⟩
  · intro u
    by_cases hu : u = t
    · subst hu
      simpa using core
    · simpa [hu] using ok.core u
  · intro u here abort
    by_cases hu : u = t
    · subst hu
      simp only [update_self] at here abort ⊢
      rw [same here] at abort ⊢
      exact ok.killed u at_ abort
    · simp only [update_of_ne hu] at here abort ⊢
      exact ok.killed u here abort
  · intro u
    rw [rounds u]
    exact ok.rounds u
  · intro u w
    rw [rounds u, rounds w]
    exact ok.own u w
  · intro r here
    rcases only r here with old | rfl
    · exact ok.known r old
    · exact ok.rounds t
  · intro u fresh
    by_cases hu : u = t
    · subst hu
      simp only [update_self] at fresh
      exact absurd fresh notFresh
    · simp only [update_of_ne hu] at fresh ⊢
      obtain ⟨some_, new⟩ := ok.fresh u fresh
      refine ⟨some_, fun here => ?_⟩
      rcases only _ here with old | same
      · exact new old
      · exact hu (ok.own u t same some_)
  · intro u waiting notFresh'
    rw [rounds u]
    by_cases hu : u = t
    · rw [hu]
      exact mine
    · simp only [update_of_ne hu] at waiting notFresh'
      exact more _ (ok.announced u waiting notFresh')

theorem send_left {l l' : Local} {result : SendResult} (sent : sendSection l result = some l') :
    l'.pc ≠ .send ∧ ¬ Preparing l'.pc ∧ l'.pc ≠ .occupy ∧ l'.pc ≠ .reuse ∧
      l'.placed = l.placed := by
  cases result with
  | done exit =>
    simp only [sendSection] at sent
    split at sent
    · cases Option.some.inj sent
      simp [Preparing]
    · cases sent
  | crash =>
    simp only [sendSection] at sent
    split at sent
    · cases Option.some.inj sent
      simp [Preparing]
    · cases sent

theorem step_ok {a : Act Thread} (ok : Ok s) (moved : step maxSmcCmd s a = some s') : Ok s' := by
  cases a with
  | take i =>
    obtain ⟨base, ran, rfl⟩ := Option.map_eq_some_iff.1 moved
    have inv := SmcQueue.step_inv ok.inv False.elim ran
    simp only [SmcQueue.step, Option.map_eq_some_iff] at ran
    obtain ⟨q, taken, rfl⟩ := ran
    have kept : q.nextRound = s.base.queue.nextRound ∧
        ∀ j, (q.slots j).inEntry = (s.base.queue.slots j).inEntry := by
      simp only [teeTake] at taken
      split at taken
      · split at taken
        all_goals
          cases Option.some.inj taken
          refine ⟨rfl, fun j => ?_⟩
          by_cases hj : j = i
          · simp [hj]
          · simp [hj]
      · cases taken
    exact ok.tee inv rfl kept.1 kept.2
  | reply i r =>
    obtain ⟨base, ran, rfl⟩ := Option.map_eq_some_iff.1 moved
    have inv := SmcQueue.step_inv ok.inv False.elim ran
    simp only [SmcQueue.step, Option.map_eq_some_iff] at ran
    obtain ⟨q, replied, rfl⟩ := ran
    have kept : q.nextRound = s.base.queue.nextRound ∧
        ∀ j, (q.slots j).inEntry = (s.base.queue.slots j).inEntry := by
      simp only [teeReply] at replied
      split at replied
      · split at replied
        · split at replied
          · cases replied
          · cases Option.some.inj replied
            refine ⟨rfl, fun j => ?_⟩
            by_cases hj : j = i
            · simp [hj]
            · simp [hj]
        · cases replied
      · cases replied
    exact ok.tee inv rfl kept.1 kept.2
  | driver t a =>
    cases a with
    | send result => cases moved
    | _ =>
      obtain ⟨base, ran, rfl⟩ := Option.map_eq_some_iff.1 moved
      exact ok.driver (by simp) ran
  | smc t out reported =>
    simp only [step] at moved
    split at moved
    · rename_i at_
      have core := ok.core t
      obtain ⟨fid, pid, -⟩ := smcParams_spec core at_
      split at moved
      · rename_i loops
        cases Option.some.inj moved
        have preempted : out.exitReason = smcExitPreempted := by
          simp only [again, Bool.and_eq_true, decide_eq_true_eq] at loops
          exact loops.1
        have still : update s.base.threads t (s.base.threads t) = s.base.threads :=
          update_eq_self _ _
        have core' : CoreOk (s.base.threads t)
            { secret := ⟨out.exitReason, out.ta, out.target⟩
              inParam := some (smcParams (s.base.threads t) (s.cores t)), last := some out } :=
          ⟨core.asked, by simp [at_], by simp, by simp [fid, pid, preempted],
            by simp [preempted], by simp⟩
        have ok' := ok.smc at_ (by rw [still]; exact ok.inv) core'
          (by simp [Fresh, Preparing, at_]) rfl (fun _ => rfl)
        rw [still] at ok'
        exact ok'
      · obtain ⟨base, ran, rfl⟩ := Option.map_eq_some_iff.1 moved
        have inv := SmcQueue.step_inv ok.inv False.elim ran
        simp only [SmcQueue.step, Option.map_eq_some_iff] at ran
        obtain ⟨⟨q', l'⟩, ran, rfl⟩ := ran
        obtain ⟨l₁, sent, same⟩ := Option.map_eq_some_iff.1 ran
        cases same
        obtain ⟨noSend, noPrep, noOccupy, noReuse, round⟩ := send_left sent
        have exited : exitOf out ≠ smcExitPreempted := by
          unfold exitOf
          split
          · decide
          · assumption
        refine ok.smc at_ inv ⟨fun here => ?_, fun _ => rfl, fun _ => exited, by simp, by simp,
          by simp⟩ ?_ round fun here => absurd here noSend
        · rcases here with here | here | here
          · exact absurd here noOccupy
          · exact absurd here noReuse
          · exact absurd here noPrep
        · rintro (here | ⟨here, -⟩)
          · exact noPrep here
          · exact noSend here
    · cases moved

theorem reach_ok (run : Reach (step maxSmcCmd) (fun _ _ => True) Sys.init s) : Ok s :=
  run.invariant init_ok fun _ _ _ ok _ moved => step_ok ok moved

end Invariant

/-- In every interleaving of threads, SMCs and the TEE, whatever the TEE answers: a command that was
placed is announced by its thread's next SMC, once; no thread waits for a command that was not
announced; every other SMC takes up again what the TEE's last answer to the call named, or
announces the kill command that stands in the slot. -/
theorem smcs_conform {maxSmcCmd : Nat} {s : Sys Thread}
    (run : Reach (step maxSmcCmd) (fun _ _ => True) Sys.init s) :
    s.submitted.Nodup ∧
    (∀ t, Waiting (s.base.threads t).pc → (s.base.threads t).pc ≠ .send →
      (s.base.threads t).placed ∈ s.submitted) ∧
    ∀ t, (s.base.threads t).pc = .send →
      let l := s.base.threads t
      let slot := s.base.queue.slots l.cmdIndex
      let p := smcParams l (s.cores t)
      slot.inBit = true ∧ slot.round = l.placed ∧
      (p = ⟨tspRequest, opsCode .normal, l.inCmd.caPid, 0, 0⟩ ∧ l.placed ∉ s.submitted ∨
       l.placed ∈ s.submitted ∧ (∃ out, (s.cores t).last = some out ∧
        (p = ⟨tspRequest, opsCode .schedto, l.inCmd.caPid, out.ta, out.target⟩ ∧
            out.exitReason = smcExitPreempted ∨
          p = ⟨tspRequest, opsCode .schedto, l.inCmd.caPid, 0, out.target⟩)) ∨
       l.placed ∈ s.submitted ∧ p = ⟨tspRequest, opsCode .abortTask, l.inCmd.caPid, 0, 0⟩ ∧
        isAbortCmd slot.inEntry = true) := by
  have ok := reach_ok run
  refine ⟨ok.once, fun t waiting away => ok.announced t waiting ?_, fun t at_ => ?_⟩
  · rintro (here | ⟨here, -⟩)
    · rcases waiting with h | h | h | h | h | h <;> simp [h, Preparing] at here
    · exact away here
  · have core := ok.core t
    have mine : (s.base.threads t).owns = some (s.base.threads t).cmdIndex := by
      simp [Local.owns, at_]
    have thread := ok.inv.thread t _ mine
    refine ⟨thread.inBit, thread.placed, ?_⟩
    by_cases fresh : Fresh (s.base.threads t) (s.cores t)
    · obtain ⟨-, new⟩ := ok.fresh t fresh
      have at_' : (s.base.threads t).ops = .normal ∧ (s.cores t).inParam = none := by
        simpa [Fresh, Preparing, at_] using fresh
      have left := core.left at_'.2
      exact Or.inl ⟨by simp [smcParams, setSmcSendArg, at_', left], new⟩
    · have old := ok.announced t (Or.inl at_) fresh
      obtain ⟨out, last⟩ := Option.isSome_iff_exists.1 (core.answered (Or.inl at_) fresh)
      obtain ⟨ta, target, preempted⟩ := core.last out last
      cases inLoop : (s.cores t).inParam with
      | some p =>
        obtain ⟨fid, pid, exit⟩ := core.loop p inLoop
        refine Or.inr (Or.inl ⟨old, out, last, Or.inl ⟨?_, preempted (by simp [inLoop])⟩⟩)
        simp [smcParams, setSmcSendArg, inLoop, exit, fid, pid, ta, target]
      | none =>
        have left := core.left inLoop
        cases ops : (s.base.threads t).ops with
        | normal => exact absurd (Or.inr ⟨at_, ops, inLoop⟩) fresh
        | schedto =>
          refine Or.inr (Or.inl ⟨old, out, last, Or.inr ?_⟩)
          simp [smcParams, setSmcSendArg, inLoop, left, ops, target]
        | abortTask =>
          refine Or.inr (Or.inr ⟨old, ?_, ok.killed t at_ ops⟩)
          simp [smcParams, setSmcSendArg, inLoop, left, ops]

/-- A command is preempted twice; before it is taken up again its caller is killed. -/
theorem smcs_conform_killed :
    ∃ s : Sys Nat, Reach (step 23) (fun _ _ => True) Sys.init s ∧ s.submitted = [1] ∧
      smcParams (s.base.threads 0) (s.cores 0) = ⟨tspRequest, 0x5, 7, 0, 0⟩ ∧
      isAbortCmd (s.base.queue.slots 0).inEntry = true := by
  obtain ⟨s, run, test⟩ := reach_of_play (step 23) (fun _ _ => True)
    (fun s => (s.base.threads 0).pc == .send && (s.base.threads 0).cmdIndex == 0 &&
      (s.base.threads 0).inCmd.caPid == 7 && s.submitted == [1] &&
      (smcParams (s.base.threads 0) (s.cores 0)).x1 == 0x5) (Sys.init : Sys Nat)
    [.driver 0 (.start {} 7 true), .driver 0 .run, .driver 0 (.update (some 0)), .driver 0 .run,
      .smc 0 ⟨tspRequest, smcExitPreempted, 4, 9⟩ false, .take 0,
      .smc 0 ⟨tspRequest, smcExitPreempted, 4, 9⟩ true, .driver 0 .run, .driver 0 .run]
    (by decide +kernel)
  simp only [Bool.and_eq_true, beq_iff_eq] at test
  obtain ⟨⟨⟨⟨at_, index⟩, pid⟩, submitted⟩, abort⟩ := test
  obtain ⟨-, -, here⟩ := smcs_conform run
  obtain ⟨-, -, ⟨p, -⟩ | ⟨-, out, -, ⟨p, -⟩ | p⟩ | ⟨-, p, kill⟩⟩ := here 0 at_
  · rw [p] at abort
    cases abort
  · rw [p] at abort
    cases abort
  · rw [p] at abort
    cases abort
  · rw [index] at kill
    rw [pid] at p
    exact ⟨s, run, submitted, p, kill⟩

end SmcSend
