import Mathlib.Data.Fintype.Basic
import Tzdriver.PendingRefs

/-!
# Looking up pending entries

`find_pending_entry` compares thread ids. Where no two threads of one id are inside at a time it finds the
thread that is inside with that id, if there is one. What a worker found does not turn into the entry of
another thread while the worker has it.
-/

namespace PendingEntries

open Function ActionSystem

variable {Thread : Type*} [DecidableEq Thread] {pid : Thread → Int} {s s' : Sys Thread}
  {pe : EntryPtr} {which : Nat}

def Use.isLinked : Use → Bool
  | .linked _ => true
  | _ => false

/-- Threads that run at the same time have different ids: none comes in while one of its id is
inside. -/
def OwnId (pid : Thread → Int) (s : Sys Thread) : Act Thread → Prop
  | .initPendingEntry t _ => ∀ u, pid u = pid t → (s.uses (u, .own)).isLinked = false
  | _ => True

instance [Fintype Thread] (s : Sys Thread) (a : Act Thread) : Decidable (OwnId pid s a) := by
  cases a <;> unfold OwnId <;> infer_instance

/-- The threads inside have different ids. -/
def Apart (pid : Thread → Int) (s : Sys Thread) : Prop :=
  ∀ t u, pid t = pid u → (s.uses (t, .own)).isLinked = true → (s.uses (u, .own)).isLinked = true →
    t = u

omit [DecidableEq Thread] in
theorem Apart.shrink (apart : Apart pid s)
    (fewer : ∀ t, (s'.uses (t, .own)).isLinked = true → (s.uses (t, .own)).isLinked = true) :
    Apart pid s' := fun t u same first second => apart t u same (fewer t first) (fewer u second)

omit [DecidableEq Thread] in
theorem setRun_uses : (s.setRun which pe).uses = s.uses := by
  unfold Sys.setRun
  split <;> rfl

omit [DecidableEq Thread] in
theorem setRunAll_uses {list : List EntryPtr} :
    (list.foldl (fun s pe => s.setRun which pe) s).uses = s.uses := by
  induction list generalizing s with
  | nil => rfl
  | cons pe list ih => exact ih.trans setRun_uses

/-- Other than by `init_pending_entry` no thread comes in. -/
theorem step_uses {a : Act Thread} (moved : step pid s a = some s') :
    (∃ t pe, a = .initPendingEntry t pe ∧ s'.uses = update s.uses (t, .own) (.linked pe)) ∨
    ∀ q, (s'.uses q).isLinked = true → s'.uses q = s.uses q := by
  have other : ∀ r u, u.isLinked = false → ∀ q, (update s.uses r u q).isLinked = true →
      update s.uses r u q = s.uses q := by
    intro r u plain q linked
    by_cases hq : q = r
    · rw [hq, update_self, plain] at linked
      cases linked
    · exact update_of_ne hq ..
  cases a with
  | initPendingEntry t pe =>
    simp only [step] at moved
    split at moved
    · cases moved
      exact .inl ⟨t, pe, rfl, rfl⟩
    · cases moved
  | clearRun t =>
    simp only [step] at moved
    split at moved
    · cases moved
      exact .inr fun q _ => congrFun setRun_uses q
    · cases moved
  | listDel t =>
    simp only [step] at moved
    split at moved
    · split at moved
      · cases moved
        exact .inr (other _ _ rfl)
      · cases moved
        exact .inr fun _ _ => rfl
    · cases moved
  | findPendingEntry r wanted =>
    simp only [step] at moved
    split at moved
    · cases moved
      refine .inr ?_
      unfold Sys.findPendingEntry
      split
      · exact fun _ _ => rfl
      · exact fun _ _ => rfl
      · split
        · exact fun _ _ => rfl
        · exact other _ _ rfl
    · cases moved
  | wake r which =>
    simp only [step] at moved
    split at moved
    · cases moved
      exact .inr fun q _ => congrFun setRun_uses q
    · cases moved
  | putPendingEntry r =>
    have put : ∀ pe q, ((s.putPendingEntry r pe).uses q).isLinked = true →
        (s.putPendingEntry r pe).uses q = s.uses q := by
      intro pe
      unfold Sys.putPendingEntry
      split
      · exact fun _ _ => rfl
      · split
        · exact fun _ _ => rfl
        · exact other _ _ (by split <;> rfl)
    simp only [step] at moved
    split at moved
    · cases moved
      exact .inr (put _)
    · cases moved
      exact .inr (put _)
    · cases moved
  | kfree r =>
    simp only [step] at moved
    split at moved
    · cases moved
      refine .inr ?_
      unfold Sys.kfree
      split
      · exact fun _ _ => rfl
      · split
        · exact fun _ _ => rfl
        · exact other _ _ rfl
    · cases moved
  | foreachPendingEntry word =>
    cases moved
    exact .inr fun q _ => congrFun setRunAll_uses q

theorem step_apart {a : Act Thread} (apart : Apart pid s) (own : OwnId pid s a)
    (moved : step pid s a = some s') : Apart pid s' := by
  rcases step_uses moved with ⟨t, pe, rfl, uses⟩ | fewer
  · intro v w same first second
    rw [uses] at first second
    by_cases hv : v = t
    · by_cases hw : w = t
      · rw [hv, hw]
      · have out := own w (by rw [← same, hv])
        rw [update_of_ne (by simp [hw]), out] at second
        cases second
    · rw [update_of_ne (by simp [hv])] at first
      by_cases hw : w = t
      · have out := own v (by rw [same, hw])
        rw [out] at first
        cases first
      · rw [update_of_ne (by simp [hw])] at second
        exact apart v w same first second
  · refine apart.shrink ?_
    intro t linked
    rwa [fewer (t, .own) linked] at linked

/-- A lookup finds the entry of the thread with that id that is inside, and nothing else. What a
worker has found stays an entry of a thread with the id it looked for, even when the thread has left. -/
theorem found_iff_inside (run : Reach (step pid) (OwnId pid) Sys.init s) :
    (∀ wanted pe, s.search pid wanted s.gPendingHead = some (some pe) ↔
      ∃ t, pid t = wanted ∧ s.uses (t, .own) = .linked pe) ∧
    ∀ r pe p, s.uses r = .found pe p → ∃ x, s.entries pe = some x ∧ pid x.task = p := by
  have both : Inv pid s ∧ Apart pid s := by
    refine run.invariant (P := fun s => Inv pid s ∧ Apart pid s) ⟨init_inv, nofun⟩ ?_
    rintro s a s' ⟨inv, apart⟩ own moved
    exact ⟨step_inv inv moved, step_apart apart own moved⟩
  obtain ⟨inv, apart⟩ := both
  refine ⟨?_, ?_⟩
  · intro wanted pe
    rcases inv.search wanted (fun _ (inside : _ ∈ s.gPendingHead) => inside) with
      ⟨e, inside, x, found, here, -, named⟩ | ⟨missed, others⟩
    · obtain ⟨y, there, -, -, linked⟩ := inv.inside inside
      obtain rfl : x = y := Option.some.inj (here.symm.trans there)
      rw [found]
      constructor
      · intro same
        cases same
        exact ⟨x.task, named, linked⟩
      · rintro ⟨t, mine, at_⟩
        obtain rfl : t = x.task := apart t x.task (mine.trans named.symm) (by rw [at_]; rfl)
          (by rw [linked]; rfl)
        rw [linked] at at_
        cases at_
        rfl
    · rw [missed]
      refine iff_of_false (by simp) ?_
      rintro ⟨t, mine, at_⟩
      obtain ⟨-, inside, x, here, -, rfl⟩ := inv.linked at_
      exact others pe inside x here mine
  · intro r pe p at_
    have ok := inv.frames r
    rw [at_] at ok
    obtain ⟨x, here, -, named⟩ := ok
    exact ⟨x, here, named⟩

theorem found_iff_inside_two_threads : ∃ s : Sys Bool,
    ((∀ wanted pe, s.search threadId wanted s.gPendingHead = some (some pe) ↔
      ∃ t, threadId t = wanted ∧ s.uses (t, .own) = .linked pe) ∧
    ∀ r pe p, s.uses r = .found pe p → ∃ x, s.entries pe = some x ∧ threadId x.task = p) ∧
    s.gPendingHead = [64, 96] ∧ s.uses (true, .inner) = .found 64 10 := by
  obtain ⟨s, run, left⟩ := reach_of_play (step threadId) (OwnId threadId)
    (fun s => decide (s.gPendingHead = [64, 96] ∧ s.uses (true, .inner) = .found 64 10)) Sys.init
    [.initPendingEntry false 64, .initPendingEntry true 96,
      .findPendingEntry (true, .inner) 10] (by decide +kernel)
  exact ⟨s, found_iff_inside run, of_decide_eq_true left⟩

end PendingEntries
