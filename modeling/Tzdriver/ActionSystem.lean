import Mathlib.Logic.Function.Basic
import Mathlib.Logic.Relation

/-!
# Guarded action systems

A system is a partial step function: `step s a` is the state after action `a`, or
`none` when `a` is not enabled. `ok` restricts the actions a run may take. For a total step
function `Along` says that a list of actions meets a condition in every state on its way. Besides
the invariant rules the module has the usual pattern of many threads over one resource:
each thread owns at most one item and no item has two owners.
-/

namespace ActionSystem

open Function

section Runs

variable {σ α : Type*} {step : σ → α → Option σ} {ok : σ → α → Prop}

/-- One action the guard `ok` allows. -/
def Next (step : σ → α → Option σ) (ok : σ → α → Prop) (s s' : σ) : Prop :=
  ∃ a, ok s a ∧ step s a = some s'

def Reach (step : σ → α → Option σ) (ok : σ → α → Prop) : σ → σ → Prop :=
  Relation.ReflTransGen (Next step ok)

theorem Reach.invariant {P : σ → Prop} {s s' : σ} (run : Reach step ok s s')
    (start : P s)
    (kept : ∀ s a s', P s → ok s a → step s a = some s' → P s') : P s' := by
  induction run with
  | refl => exact start
  | tail _ last ih =>
    obtain ⟨a, allowed, moved⟩ := last
    exact kept _ a _ ih allowed moved

theorem Reach.mono {ok' : σ → α → Prop} {s s' : σ} (weaker : ∀ s a, ok s a → ok' s a)
    (run : Reach step ok s s') : Reach step ok' s s' := by
  refine Relation.ReflTransGen.mono ?_ s s' run
  rintro s s' ⟨a, allowed, moved⟩
  exact ⟨a, weaker s a allowed, moved⟩

/-- The steps of a run are allowed by whatever its guard and an invariant allow. -/
theorem Reach.restrict {P : σ → Prop} {ok' : σ → α → Prop} {s s' : σ} (run : Reach step ok s s')
    (start : P s) (kept : ∀ s a s', P s → ok s a → step s a = some s' → P s')
    (allows : ∀ s a, P s → ok s a → ok' s a) : Reach step ok' s s' := by
  have both : Reach step ok' s s' ∧ P s' := by
    induction run with
    | refl => exact ⟨.refl, start⟩
    | tail _ last ih =>
      obtain ⟨a, allowed, moved⟩ := last
      obtain ⟨before, holds⟩ := ih
      exact ⟨.tail before ⟨a, allows _ a holds allowed, moved⟩, kept _ a _ holds allowed moved⟩
  exact both.1

/-- Run a list of actions, each of which the guard has to allow. -/
def play (step : σ → α → Option σ) (ok : σ → α → Prop) [∀ s a, Decidable (ok s a)] (s : σ)
    (acts : List α) : Option σ :=
  acts.foldlM (fun s a => if ok s a then step s a else none) s

/-- A run that was played through and passed a test. -/
theorem reach_of_play (step : σ → α → Option σ) (ok : σ → α → Prop)
    [∀ s a, Decidable (ok s a)] (test : σ → Bool) (s : σ) (acts : List α)
    (passed : (play step ok s acts).any test = true) :
    ∃ s', Reach step ok s s' ∧ test s' = true := by
  induction acts generalizing s with
  | nil => exact ⟨s, .refl, by simpa [play] using passed⟩
  | cons a acts ih =>
    rw [play, List.foldlM_cons] at passed
    split at passed
    · rename_i allowed
      cases moved : step s a with
      | none => simp [moved] at passed
      | some mid =>
        rw [moved] at passed
        obtain ⟨s', run, good⟩ := ih mid passed
        exact ⟨s', .head ⟨a, allowed, moved⟩ run, good⟩
    · simp at passed

end Runs

section Along

variable {σ α : Type*} {step : σ → α → σ} {ok : σ → α → Prop}

/-- Every action of the list meets `ok` in the state in which it is taken. -/
def Along (step : σ → α → σ) (ok : σ → α → Prop) : σ → List α → Prop
  | _, [] => True
  | s, a :: acts => ok s a ∧ Along step ok (step s a) acts

theorem along_const (step : σ → α → σ) {ok : α → Prop} (s : σ) {acts : List α} :
    Along step (fun _ a => ok a) s acts ↔ ∀ a ∈ acts, ok a := by
  induction acts generalizing s with
  | nil => exact iff_of_true trivial nofun
  | cons a acts ih => rw [Along, ih, List.forall_mem_cons]

/-- A property that an invariant gives, and that fails right after the first action without `ok`,
holds in all states of a run exactly when the run has `ok` all along. -/
theorem forall_prefix_iff_along {Inv P : σ → Prop} (holds : ∀ s, Inv s → P s)
    (kept : ∀ s a, Inv s → ok s a → Inv (step s a))
    (needed : ∀ s a, Inv s → P (step s a) → ok s a) {s : σ} (start : Inv s) (acts : List α) :
    (∀ before, before <+: acts → P (before.foldl step s)) ↔ Along step ok s acts := by
  induction acts generalizing s with
  | nil =>
    refine iff_of_true ?_ trivial
    intro before initial
    rw [List.prefix_nil.mp initial]
    exact holds s start
  | cons a acts ih =>
    constructor
    · intro all
      have allowed : ok s a := needed s a start (all [a] ⟨acts, rfl⟩)
      refine ⟨allowed, (ih (kept s a start allowed)).mp fun before initial => ?_⟩
      exact all (a :: before) (List.cons_prefix_cons.mpr ⟨rfl, initial⟩)
    · rintro ⟨allowed, rest⟩ before initial
      cases before with
      | nil => exact holds s start
      | cons b before =>
        obtain ⟨rfl, shorter⟩ := List.cons_prefix_cons.mp initial
        exact (ih (kept s b start allowed)).mpr rest before shorter

end Along

section Owners

variable {T L R : Type*} [DecidableEq T] {owns : L → Option R} {threads : T → L}

def Exclusive (owns : L → Option R) (threads : T → L) : Prop :=
  ∀ t u r, owns (threads t) = some r → owns (threads u) = some r → t = u

/-- A thread may keep what it owns, drop it, or take what nobody else owns. -/
theorem Exclusive.update (exclusive : Exclusive owns threads) {t : T} {l : L}
    (fresh : ∀ r, owns l = some r → ∀ u, u ≠ t → owns (threads u) ≠ some r) :
    Exclusive owns (update threads t l) := by
  intro u v r hu hv
  by_cases hut : u = t
  · by_cases hvt : v = t
    · rw [hut, hvt]
    · rw [hut, update_self] at hu
      rw [update_of_ne hvt] at hv
      exact False.elim (fresh r hu v hvt hv)
  · rw [update_of_ne hut] at hu
    by_cases hvt : v = t
    · rw [hvt, update_self] at hv
      exact False.elim (fresh r hv u hut hu)
    · rw [update_of_ne hvt] at hv
      exact exclusive u v r hu hv

/-- A thread may drop what it owns. -/
theorem Exclusive.shrink (exclusive : Exclusive owns threads) {t : T} {l : L}
    (kept : ∀ r, owns l = some r → owns (threads t) = some r) :
    Exclusive owns (Function.update threads t l) := by
  refine exclusive.update ?_
  intro r hr u other hu
  exact other (exclusive u t r hu (kept r hr))

end Owners

end ActionSystem
