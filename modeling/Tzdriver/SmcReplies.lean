import Tzdriver.SmcQueueOwnership

/-!
# A thread copies the reply to its own command

Rounds tell commands apart: no two occupied slots are in the same one, so what the TEE answers in
one slot never touches the record of another. A published reply is then the one recorded for
the round of its slot, which is the round of the thread that owns the slot.
-/

namespace SmcQueue

open Function ActionSystem

variable {Thread : Type*} {q q' : Queue} {i : Nat} {slot : Slot} {l l' : Local} {maxSmcCmd : Nat}

structure Recorded (q : Queue) : Prop where
  fresh : ∀ i, (q.slots i).inBit = true → (q.slots i).round < q.nextRound
  distinct : ∀ i j, (q.slots i).inBit = true → (q.slots j).inBit = true →
    (q.slots i).round = (q.slots j).round → i = j
  recorded : ∀ i, (q.slots i).outBit = true →
    q.replies (q.slots i).round = some (q.slots i).outEntry

theorem init_recorded : Recorded (Sys.init : Sys Thread).queue :=
  ⟨by simp [Sys.init], by simp [Sys.init], by simp [Sys.init]⟩

/-- A write to a slot that starts no round there and publishes nothing. -/
theorem Recorded.set (rec : Recorded q) (inBit : slot.inBit = true → (q.slots i).inBit = true)
    (outBit : slot.outBit = true → (q.slots i).outBit = true)
    (round : slot.round = (q.slots i).round) (outEntry : slot.outEntry = (q.slots i).outEntry) :
    Recorded (q.set i slot) where
  fresh := by
    intro j occupied
    by_cases hj : j = i
    · subst hj
      rw [set_slots, update_self] at occupied ⊢
      rw [round]
      exact rec.fresh j (inBit occupied)
    · rw [set_slots, update_of_ne hj] at occupied ⊢
      exact rec.fresh j occupied
  distinct := by
    have old : ∀ j, ((q.set i slot).slots j).inBit = true → (q.slots j).inBit = true := by
      intro j occupied
      by_cases hj : j = i
      · subst hj
        rw [set_slots, update_self] at occupied
        exact inBit occupied
      · rwa [set_slots, update_of_ne hj] at occupied
    have same : ∀ j, ((q.set i slot).slots j).round = (q.slots j).round := by
      intro j
      by_cases hj : j = i
      · subst hj
        rw [set_slots, update_self, round]
      · rw [set_slots, update_of_ne hj]
    intro j k hj hk both
    rw [same, same] at both
    exact rec.distinct j k (old j hj) (old k hk) both
  recorded := by
    intro j out
    by_cases hj : j = i
    · subst hj
      rw [set_slots, update_self] at out ⊢
      rw [round, outEntry]
      exact rec.recorded j (outBit out)
    · rw [set_slots, update_of_ne hj] at out ⊢
      exact rec.recorded j out

/-- A command is placed: its round is a new one, and the slot has no reply yet. -/
theorem Recorded.place (rec : Recorded q) (slots : q'.slots = update q.slots i slot)
    (next : q'.nextRound = q.nextRound + 1) (replies : q'.replies = q.replies)
    (round : slot.round = q.nextRound) (silent : slot.outBit = false) : Recorded q' where
  fresh := by
    intro j occupied
    rw [next]
    by_cases hj : j = i
    · subst hj
      rw [slots, update_self, round]
      omega
    · rw [slots, update_of_ne hj] at occupied ⊢
      exact Nat.lt_succ_of_lt (rec.fresh j occupied)
  distinct := by
    intro j k occupied occupied' both
    rw [slots] at occupied occupied' both
    by_cases hj : j = i
    · by_cases hk : k = i
      · rw [hj, hk]
      · subst hj
        rw [update_of_ne hk] at occupied' both
        rw [update_self, round] at both
        exact absurd both (Nat.ne_of_gt (rec.fresh k occupied'))
    · rw [update_of_ne hj] at occupied both
      by_cases hk : k = i
      · subst hk
        rw [update_self, round] at both
        exact absurd both (Nat.ne_of_lt (rec.fresh j occupied))
      · rw [update_of_ne hk] at occupied' both
        exact rec.distinct j k occupied occupied' both
  recorded := by
    intro j out
    rw [replies]
    by_cases hj : j = i
    · subst hj
      rw [slots, update_self, silent] at out
      cases out
    · rw [slots, update_of_ne hj] at out ⊢
      exact rec.recorded j out

/-- What the TEE does when it answers: only its slot changes, and only in what it says of replies. -/
theorem teeReply_spec {reply : SmcCmd} (replied : teeReply q i reply = some q') :
    (q.slots i).inBit = true ∧ ∃ r, (q.slots i).taken = some r ∧ (q.slots i).replied ≠ some r ∧
      ∃ slot : Slot, q'.slots = update q.slots i slot ∧ slot.inBit = (q.slots i).inBit ∧
        slot.round = (q.slots i).round ∧ q'.nextRound = q.nextRound ∧
        q'.replies = update q.replies r (some slot.outEntry) := by
  simp only [teeReply] at replied
  split at replied
  · rename_i bits
    simp only [Bool.and_eq_true] at bits
    split at replied
    · rename_i r taken
      split at replied
      · cases replied
      · rename_i unanswered
        obtain rfl := Option.some.inj replied
        exact ⟨bits.1, r, taken, unanswered, _, rfl, rfl, rfl, rfl, rfl⟩
    · cases replied
  · cases replied

/-- The TEE answers the round that its slot is in. -/
theorem Recorded.reply {reply : SmcCmd} (rec : Recorded q) (ok : ∀ i, SlotOk i (q.slots i))
    (replied : teeReply q i reply = some q') : Recorded q' := by
  obtain ⟨occupied, r, taken, unanswered, slot, slots, inBit, round, next, replies⟩ :=
    teeReply_spec replied
  obtain ⟨rfl, -⟩ := (ok i).unanswered r taken unanswered
  have same : ∀ j, (q'.slots j).inBit = (q.slots j).inBit ∧
      (q'.slots j).round = (q.slots j).round := by
    intro j
    rw [slots]
    by_cases hj : j = i
    · subst hj
      rw [update_self]
      exact ⟨inBit, round⟩
    · rw [update_of_ne hj]
      exact ⟨rfl, rfl⟩
  refine ⟨?_, ?_, ?_⟩
  · intro j taken
    rw [(same j).1] at taken
    rw [(same j).2, next]
    exact rec.fresh j taken
  · intro j k hj hk both
    rw [(same j).1] at hj
    rw [(same k).1] at hk
    rw [(same j).2, (same k).2] at both
    exact rec.distinct j k hj hk both
  · intro j out
    rw [(same j).2, replies]
    by_cases hj : j = i
    · subst hj
      rw [slots, update_self, update_self]
    · rw [slots, update_of_ne hj] at out ⊢
      have apart : (q.slots j).round ≠ (q.slots i).round := by
        intro both
        exact hj (rec.distinct j i ((ok j).occupied (.inr out)) occupied both)
      rw [update_of_ne apart]
      exact rec.recorded j out

theorem Recorded.take (rec : Recorded q) (taken : teeTake q i = some q') : Recorded q' := by
  simp only [teeTake] at taken
  split at taken
  · split at taken
    · obtain rfl := Option.some.inj taken
      exact rec.set id (by simp) rfl rfl
    · obtain rfl := Option.some.inj taken
      exact rec.set id id rfl rfl
  · cases taken

section Driver

variable [DecidableEq Thread] {s s' : Sys Thread} {t : Thread}

omit [DecidableEq Thread] in
/-- A section of a thread clears bits, or places the command of the thread in a slot in which
nothing is published. -/
theorem Recorded.run (rec : Recorded s.queue) (inv : Inv False s)
    (moved : runSection maxSmcCmd s.queue (s.threads t) = some (q', l')) : Recorded q' := by
  unfold runSection at moved
  split at moved
  · split at moved
    · rename_i i found
      obtain ⟨rfl, -⟩ := Prod.mk.inj (Option.some.inj moved)
      exact rec.place rfl rfl rfl rfl ((inv.slot i).occupied_clear (freeEntry_free found)).2
    · split at moved
      · obtain ⟨rfl, -⟩ := Prod.mk.inj (Option.some.inj moved)
        exact rec
      · obtain ⟨rfl, -⟩ := Prod.mk.inj (Option.some.inj moved)
        exact rec
  · obtain ⟨rfl, -⟩ := Prod.mk.inj (Option.some.inj moved)
    exact rec.set (by simp) id rfl rfl
  · obtain ⟨rfl, -⟩ := Prod.mk.inj (Option.some.inj moved)
    exact rec.set id id rfl rfl
  · rename_i hpc
    split at moved
    · rename_i q reused
      obtain ⟨rfl, -⟩ := Prod.mk.inj (Option.some.inj moved)
      have mine : (s.threads t).owns = some (s.threads t).cmdIndex := by simp [Local.owns, hpc]
      have knows := (inv.thread t _ mine).knows
      simp only [Knows, hpc] at knows
      unfold reuseSmcInEntry at reused
      split at reused
      · obtain rfl := Option.some.inj reused
        exact rec.place rfl rfl rfl rfl knows.1
      · cases reused
    · obtain ⟨rfl, -⟩ := Prod.mk.inj (Option.some.inj moved)
      exact rec
  · obtain ⟨rfl, -⟩ := Prod.mk.inj (Option.some.inj moved)
    exact rec.set id id rfl rfl
  · obtain ⟨rfl, -⟩ := Prod.mk.inj (Option.some.inj moved)
    exact rec.set (by simp) (by simp) rfl rfl
  · split at moved
    · obtain ⟨rfl, -⟩ := Prod.mk.inj (Option.some.inj moved)
      exact rec
    · split at moved
      · obtain ⟨rfl, -⟩ := Prod.mk.inj (Option.some.inj moved)
        exact rec
      · split at moved
        · obtain ⟨rfl, -⟩ := Prod.mk.inj (Option.some.inj moved)
          exact rec
        · obtain ⟨rfl, -⟩ := Prod.mk.inj (Option.some.inj moved)
          exact rec
  · split at moved
    · obtain ⟨rfl, -⟩ := Prod.mk.inj (Option.some.inj moved)
      exact rec
    · obtain ⟨rfl, -⟩ := Prod.mk.inj (Option.some.inj moved)
      exact rec
  · split at moved
    · rename_i q aborted
      obtain ⟨rfl, -⟩ := Prod.mk.inj (Option.some.inj moved)
      unfold setAbortCmd at aborted
      split at aborted
      · cases aborted
      · obtain rfl := Option.some.inj aborted
        exact rec.set id id rfl rfl
    · obtain ⟨rfl, -⟩ := Prod.mk.inj (Option.some.inj moved)
      exact rec
  · split at moved
    · obtain ⟨rfl, -⟩ := Prod.mk.inj (Option.some.inj moved)
      exact rec
    · rename_i cmd usage q copied
      have cleared : Recorded q := by
        obtain ⟨-, -, ⟨-, -, rfl⟩ | ⟨-, -, -, rfl⟩⟩ := copySmcOutEntry_cases copied
        · exact rec.set id (by simp) rfl rfl
        · exact rec.set (by simp) (by simp) rfl rfl
      split at moved
      · obtain ⟨rfl, -⟩ := Prod.mk.inj (Option.some.inj moved)
        exact cleared
      · obtain ⟨rfl, -⟩ := Prod.mk.inj (Option.some.inj moved)
        exact cleared
  · obtain ⟨rfl, -⟩ := Prod.mk.inj (Option.some.inj moved)
    exact rec
  · split at moved
    · obtain ⟨rfl, -⟩ := Prod.mk.inj (Option.some.inj moved)
      exact rec.set (by simp) (by simp) rfl rfl
    · obtain ⟨rfl, -⟩ := Prod.mk.inj (Option.some.inj moved)
      exact rec
  · cases moved

theorem Recorded.update {scrambler : Option Nat} (rec : Recorded q)
    (moved : updateSection q l scrambler = some (q', l')) : Recorded q' := by
  unfold updateSection at moved
  split at moved
  · obtain ⟨rfl, -⟩ := Prod.mk.inj (Option.some.inj moved)
    exact rec.set id id rfl rfl
  · obtain ⟨rfl, -⟩ := Prod.mk.inj (Option.some.inj moved)
    exact rec
  · obtain ⟨rfl, -⟩ := Prod.mk.inj (Option.some.inj moved)
    exact rec.set id id rfl rfl
  · obtain ⟨rfl, -⟩ := Prod.mk.inj (Option.some.inj moved)
    exact rec
  · cases moved

theorem step_recorded {a : Act Thread} (rec : Recorded s.queue) (inv : Inv False s)
    (moved : step maxSmcCmd s a = some s') : Recorded s'.queue := by
  cases a with
  | driver t a =>
    simp only [step, Option.map_eq_some_iff] at moved
    obtain ⟨⟨q, l⟩, moved, rfl⟩ := moved
    cases a with
    | run => exact rec.run inv moved
    | update scrambler => exact rec.update moved
    | start | resume | send | wait =>
      simp only [driverStep, Option.map_eq_some_iff, Prod.mk.injEq] at moved
      obtain ⟨-, -, rfl, -⟩ := moved
      exact rec
  | take i =>
    simp only [step, Option.map_eq_some_iff] at moved
    obtain ⟨q, moved, rfl⟩ := moved
    exact rec.take moved
  | reply i r =>
    simp only [step, Option.map_eq_some_iff] at moved
    obtain ⟨q, moved, rfl⟩ := moved
    exact rec.reply inv.slot moved

end Driver

/-- In every interleaving a slot has at most one owner, a free slot has none, and what a thread
copies is what the TEE replied in the round of the command that the thread placed last. -/
theorem slots_exclusive [DecidableEq Thread] {maxSmcCmd : Nat} {s : Sys Thread}
    (run : Reach (step maxSmcCmd) (fun _ _ => True) Sys.init s) :
    (∀ i t u, (s.threads t).owns = some i → (s.threads u).owns = some i → t = u) ∧
    (∀ i, freeEntry maxSmcCmd s.queue = some i → ∀ t, (s.threads t).owns ≠ some i) ∧
    (∀ t cmd usage q, (s.threads t).pc = .copyOut →
      copySmcOutEntry s.queue (s.threads t).cmdIndex = some (cmd, usage, q) →
      (s.threads t).owns = some (s.threads t).cmdIndex ∧
      cmd = (s.queue.slots (s.threads t).cmdIndex).outEntry ∧
      s.queue.replies (s.threads t).placed = some cmd ∧
      (s.queue.slots (s.threads t).cmdIndex).answers = (s.threads t).placed ∧
      ((s.queue.slots (s.threads t).cmdIndex).abortTaken = true →
        (s.queue.slots (s.threads t).cmdIndex).answersAbort = true)) := by
  have kept : Inv False s ∧ Recorded s.queue := by
    refine run.invariant (P := fun s => Inv False s ∧ Recorded s.queue)
      ⟨init_inv, init_recorded⟩ ?_
    intro s a s' kept _ moved
    exact ⟨step_inv kept.1 False.elim moved, step_recorded kept.2 kept.1 moved⟩
  obtain ⟨inv, rec⟩ := kept
  refine ⟨fun i t u => inv.exclusive t u i, fun i found => inv.not_owned (freeEntry_free found), ?_⟩
  intro t cmd usage q hpc copied
  have mine : (s.threads t).owns = some (s.threads t).cmdIndex := by simp [Local.owns, hpc]
  obtain ⟨out, rfl, _⟩ := copySmcOutEntry_cases copied
  obtain ⟨_, answers, abort, _⟩ := (inv.slot _).current out
  have placed := (inv.thread t _ mine).placed
  have reply := rec.recorded _ out
  rw [placed] at reply
  exact ⟨mine, rfl, reply, answers.trans placed, abort⟩

/-- Two threads: the first has its reply published, the second is still preparing. -/
theorem slots_exclusive_two_threads :
    ∃ s : Sys Nat, Reach (step 23) (fun _ _ => True) Sys.init s ∧
      (s.threads 0).pc = .copyOut ∧ (s.threads 1).owns = some 1 ∧
      ∃ cmd usage q, copySmcOutEntry s.queue (s.threads 0).cmdIndex = some (cmd, usage, q) ∧
        s.queue.replies (s.threads 0).placed = some cmd ∧ cmd.retVal = 7 := by
  obtain ⟨s, run, test⟩ := reach_of_play (step 23) (fun _ _ => True)
    (fun s => (s.threads 0).pc == .copyOut && (s.threads 1).owns == some 1 &&
      (copySmcOutEntry s.queue (s.threads 0).cmdIndex).any (·.1.retVal == 7)) (Sys.init : Sys Nat)
    [.driver 0 (.start {} 7 true), .driver 1 (.start {} 8 true), .driver 0 .run, .driver 1 .run,
      .driver 0 (.update (some 0)), .driver 0 .run, .take 0, .driver 0 (.send (.done 0)),
      .reply 0 { retVal := 7 }, .driver 0 .run] (by decide +kernel)
  simp only [Bool.and_eq_true, beq_iff_eq, Option.any_eq_true] at test
  obtain ⟨⟨at_, owns⟩, ⟨cmd, usage, q⟩, copied, code⟩ := test
  exact ⟨s, run, at_, owns, cmd, usage, q, copied,
    ((slots_exclusive run).2.2 0 cmd usage q at_ copied).2.2.1, code⟩

end SmcQueue
