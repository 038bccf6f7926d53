import Tzdriver.SmcQueueOwnership

/-!
# Slots are given back

When `smp_smc_send_func` returns, its slot is free again, or the command is parked
with `TEEC_PENDING` and keeps exactly one slot. `cmd_usage` is `CLEAR` both before a
command is answered and after its slot was cleared, so the exits that leave before a
reply was copied release nothing; `LeakFree` names them.
-/

namespace SmcQueue

open ActionSystem

variable {Thread : Type*}

/-- Some bit of the slot is set. -/
def Slot.Busy (s : Slot) : Prop := s.inBit = true ∨ s.doingBit = true ∨ s.outBit = true

/-- A busy slot belongs to a thread other than `t`. -/
def OthersSlot (s : Sys Thread) (t : Thread) (i : Nat) : Prop :=
  (s.queue.slots i).Busy → ∃ u, u ≠ t ∧ (s.threads u).owns = some i

/-- What the caller of `smp_smc_send_func` may rely on when it gets `ret`. -/
def ReturnClean (s : Sys Thread) (t : Thread) (ret : Nat) : Prop :=
  if ret = teecPending then
    ∃ i, (s.threads t).owns = some i ∧ (s.queue.slots i).inBit = true ∧
      (s.queue.slots i).doingBit = true ∧ (s.queue.slots i).outBit = false ∧
      ∀ j, j ≠ i → OthersSlot s t j
  else ∀ j, OthersSlot s t j

theorem Inv.others {s : Sys Thread} (inv : Inv True s) {t : Thread} {j : Nat}
    (notMine : (s.threads t).owns ≠ some j) : OthersSlot s t j := by
  intro busy
  have occupied : (s.queue.slots j).inBit = true := by
    rcases busy with busy | busy
    · exact busy
    · exact (inv.slot j).occupied busy
  obtain ⟨u, hu⟩ := inv.owned trivial j occupied
  refine ⟨u, ?_, hu⟩
  rintro rfl
  exact notMine hu

/-- In a run without a leaking exit every return is clean. -/
theorem slots_given_back [DecidableEq Thread] {maxSmcCmd : Nat} {s : Sys Thread}
    (run : Reach (step maxSmcCmd) LeakFree Sys.init s) {t : Thread} {ret : Nat}
    (returned : (s.threads t).pc = .returned ret) : ReturnClean s t ret := by
  have inv : Inv True s := run.invariant init_inv
    (fun s a s' inv allowed moved => step_inv inv (fun _ => allowed) moved)
  unfold ReturnClean
  split
  · rename_i pending
    have mine : (s.threads t).owns = some (s.threads t).inCmd.eventNr := by
      simp [Local.owns, returned, pending]
    have ok := inv.thread t _ mine
    have knows := ok.knows
    simp only [Knows, returned] at knows
    refine ⟨_, mine, ok.inBit, knows.2.2 trivial, knows.1, ?_⟩
    intro j hj
    refine inv.others ?_
    rw [mine]
    exact fun h => hj (Option.some.inj h).symm
  · rename_i final
    intro j
    exact inv.others (by simp [Local.owns, returned, final])

instance (s : Sys Thread) (a : Act Thread) : Decidable (LeakFree s a) :=
  match a with
  | .driver _ .run => inferInstanceAs (Decidable (_ ∧ _))
  | .driver _ (.resume _ _) => inferInstanceAs (Decidable (_ = _))
  | .driver _ (.send .crash) => inferInstanceAs (Decidable False)
  | .driver _ (.start _ _ _) => inferInstanceAs (Decidable True)
  | .driver _ (.update _) => inferInstanceAs (Decidable True)
  | .driver _ (.send (.done _)) => inferInstanceAs (Decidable True)
  | .driver _ (.wait _) => inferInstanceAs (Decidable True)
  | .take _ => inferInstanceAs (Decidable True)
  | .reply _ _ => inferInstanceAs (Decidable True)

/-- A command that is parked by a `TEEC_PENDING` reply. -/
theorem slots_given_back_parked :
    ∃ s : Sys Nat, Reach (step 23) LeakFree Sys.init s ∧
      (s.threads 0).pc = .returned teecPending ∧ ReturnClean s 0 teecPending := by
  obtain ⟨s, run, test⟩ := reach_of_play (step 23) LeakFree
    (fun s => (s.threads 0).pc == .returned teecPending) (Sys.init : Sys Nat)
    [.driver 0 (.start {} 7 true), .driver 0 .run, .driver 0 (.update (some 0)), .driver 0 .run,
      .take 0, .reply 0 { retVal := teecPending }, .driver 0 (.send (.done 0)), .driver 0 .run,
      .driver 0 .run, .driver 0 .run] (by decide +kernel)
  have returned : (s.threads 0).pc = .returned teecPending := by simpa using test
  exact ⟨s, run, returned, slots_given_back run returned⟩

/-- The SMC returns with exit reason 4 before the TEE has replied: the function returns
`TEEC_ERROR_GENERIC` and slot 0 stays occupied although no thread uses it. -/
theorem unknown_exit_leaks :
    ∃ s : Sys Unit, Reach (step 23) (fun _ _ => True) Sys.init s ∧
      (s.threads ()).pc = .returned teecErrorGeneric ∧ (s.queue.slots 0).inBit = true ∧
      ¬ ReturnClean s () teecErrorGeneric := by
  obtain ⟨s, run, test⟩ := reach_of_play (step 23) (fun _ _ => True)
    (fun s => (s.threads ()).pc == .returned teecErrorGeneric && (s.queue.slots 0).inBit)
    (Sys.init : Sys Unit)
    [.driver () (.start {} 7 true), .driver () .run, .driver () (.update (some 0)),
      .driver () .run, .take 0, .driver () (.send (.done 4)), .driver () .run, .driver () .run]
    (by decide +kernel)
  simp only [Bool.and_eq_true, beq_iff_eq] at test
  refine ⟨s, run, test.1, test.2, ?_⟩
  intro clean
  rw [ReturnClean, if_neg generic_ne_pending] at clean
  obtain ⟨u, other, _⟩ := clean 0 (Or.inl test.2)
  exact other rfl

end SmcQueue
