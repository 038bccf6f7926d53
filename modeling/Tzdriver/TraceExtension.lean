import Mathlib.Data.List.Basic

/-!
# Traces that only grow

`Extends ok xs ys` says that `ys` continues `xs` with entries that satisfy `ok`.
-/

namespace TraceExtension

variable {α : Type*} {ok : α → Prop} {xs ys zs : List α}

def Extends (ok : α → Prop) (xs ys : List α) : Prop := ∃ es, ys = xs ++ es ∧ ∀ e ∈ es, ok e

namespace Extends

@[refl] theorem refl (ok : α → Prop) (xs : List α) : Extends ok xs xs :=
  ⟨[], (List.append_nil xs).symm, by simp⟩

theorem trans (h : Extends ok xs ys) (h' : Extends ok ys zs) : Extends ok xs zs := by
  obtain ⟨es, rfl, hes⟩ := h
  obtain ⟨fs, rfl, hfs⟩ := h'
  refine ⟨es ++ fs, List.append_assoc .., ?_⟩
  intro e he
  rcases List.mem_append.mp he with he | he
  · exact hes e he
  · exact hfs e he

theorem snoc {e : α} (h : Extends ok xs ys) (he : ok e) : Extends ok xs (ys ++ [e]) :=
  h.trans ⟨[e], rfl, by simpa using he⟩

theorem mono {ok' : α → Prop} (h : Extends ok xs ys) (weaker : ∀ e, ok e → ok' e) :
    Extends ok' xs ys := by
  obtain ⟨es, rfl, hes⟩ := h
  exact ⟨es, rfl, fun e he => weaker e (hes e he)⟩

end Extends

/-- A fold whose every step extends the trace extends it. -/
theorem extends_foldl {σ ι : Type*} {trace : σ → List α} {f : σ → ι → σ}
    (step : ∀ s i, Extends ok (trace s) (trace (f s i))) (is : List ι) (s : σ) :
    Extends ok (trace s) (trace (is.foldl f s)) := by
  induction is generalizing s with
  | nil => exact Extends.refl ok _
  | cons i is ih => exact (step s i).trans (ih (f s i))

end TraceExtension
