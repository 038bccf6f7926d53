import Mathlib.Data.List.Basic

/-!
# Searches that stop at the first match

`updateFirst p f l` changes the first element of `l` that `p` accepts, as a loop does that
breaks after its first hit.
-/

namespace FirstMatch

variable {α β : Type*} {p : α → Bool} {f : α → α} {l l₁ l₂ : List α} {x : α}

def updateFirst (p : α → Bool) (f : α → α) : List α → List α
  | [] => []
  | x :: l => if p x then f x :: l else x :: updateFirst p f l

theorem updateFirst_of_none (none_ : ∀ x ∈ l, p x = false) : updateFirst p f l = l := by
  induction l with
  | nil => rfl
  | cons x l ih =>
    obtain ⟨here, later⟩ := List.forall_mem_cons.1 none_
    simp [updateFirst, here, ih later]

theorem updateFirst_append_right (none_ : ∀ x ∈ l₁, p x = false) :
    updateFirst p f (l₁ ++ l₂) = l₁ ++ updateFirst p f l₂ := by
  induction l₁ with
  | nil => rfl
  | cons x l₁ ih =>
    obtain ⟨here, later⟩ := List.forall_mem_cons.1 none_
    simp [updateFirst, here, ih later]

theorem updateFirst_append_left (some_ : ∃ x ∈ l₁, p x = true) :
    updateFirst p f (l₁ ++ l₂) = updateFirst p f l₁ ++ l₂ := by
  induction l₁ with
  | nil => simp at some_
  | cons x l₁ ih =>
    by_cases here : p x = true
    · simp [updateFirst, here]
    · obtain ⟨y, hy, hit⟩ := some_
      rcases List.mem_cons.1 hy with rfl | later
      · exact absurd hit here
      · simp [updateFirst, here, ih ⟨y, later, hit⟩]

@[simp] theorem length_updateFirst : (updateFirst p f l).length = l.length := by
  induction l with
  | nil => rfl
  | cons x l ih =>
    simp only [updateFirst]
    split <;> simp [ih]

/-- What the update leaves alone can be read before or after it. -/
theorem map_updateFirst {g : α → β} (same : ∀ x, g (f x) = g x) :
    (updateFirst p f l).map g = l.map g := by
  induction l with
  | nil => rfl
  | cons x l ih =>
    simp only [updateFirst]
    split <;> simp [same, ih]

theorem mem_updateFirst (mem : x ∈ updateFirst p f l) :
    x ∈ l ∨ ∃ y ∈ l, p y = true ∧ x = f y := by
  induction l with
  | nil => simp [updateFirst] at mem
  | cons y l ih =>
    simp only [updateFirst] at mem
    split at mem
    · rename_i hit
      rcases List.mem_cons.1 mem with rfl | later
      · exact Or.inr ⟨y, by simp, hit, rfl⟩
      · exact Or.inl (List.mem_cons_of_mem y later)
    · rcases List.mem_cons.1 mem with rfl | later
      · exact Or.inl (by simp)
      · rcases ih later with old | ⟨z, hz, hit, new⟩
        · exact Or.inl (List.mem_cons_of_mem y old)
        · exact Or.inr ⟨z, List.mem_cons_of_mem y hz, hit, new⟩

/-- Every element is still there or was the one that changed. -/
theorem mem_or_mem_updateFirst (mem : x ∈ l) :
    x ∈ updateFirst p f l ∨ p x = true ∧ f x ∈ updateFirst p f l := by
  induction l with
  | nil => simp at mem
  | cons y l ih =>
    simp only [updateFirst]
    rcases List.mem_cons.1 mem with rfl | later
    · split
      · rename_i hit
        exact Or.inr ⟨hit, by simp⟩
      · exact Or.inl (by simp)
    · split
      · exact Or.inl (List.mem_cons_of_mem (f y) later)
      · rcases ih later with old | ⟨hit, new⟩
        · exact Or.inl (List.mem_cons_of_mem y old)
        · exact Or.inr ⟨hit, List.mem_cons_of_mem y new⟩

theorem mem_updateFirst_of_find (found : l.find? p = some x) : f x ∈ updateFirst p f l := by
  induction l with
  | nil => simp at found
  | cons y l ih =>
    simp only [updateFirst]
    split
    · rename_i hit
      rw [List.find?_cons_of_pos hit] at found
      obtain rfl := Option.some.inj found
      simp
    · rename_i missed
      rw [List.find?_cons_of_neg missed] at found
      exact List.mem_cons_of_mem y (ih found)

theorem find_updateFirst (kept : ∀ x, p x = true → p (f x) = true) (found : l.find? p = some x) :
    (updateFirst p f l).find? p = some (f x) := by
  induction l with
  | nil => simp at found
  | cons y l ih =>
    simp only [updateFirst]
    split
    · rename_i hit
      rw [List.find?_cons_of_pos hit] at found
      obtain rfl := Option.some.inj found
      exact List.find?_cons_of_pos (kept y hit)
    · rename_i missed
      rw [List.find?_cons_of_neg missed] at found ⊢
      exact ih found

/-- What tells the elements apart finds each of them. -/
theorem find_eq_of_nodup [DecidableEq β] {g : α → β} (nodup : (l.map g).Nodup) (mem : x ∈ l) :
    l.find? (fun y => g y = g x) = some x := by
  induction l with
  | nil => simp at mem
  | cons y l ih =>
    rw [List.map_cons, List.nodup_cons] at nodup
    obtain ⟨unlike, nodup⟩ := nodup
    rcases List.mem_cons.1 mem with rfl | later
    · exact List.find?_cons_of_pos (by simp)
    · have other : g y ≠ g x := by
        intro same
        exact unlike (same ▸ List.mem_map_of_mem later)
      rw [List.find?_cons_of_neg (by simpa using other)]
      exact ih nodup later

/-- An update that makes its element fail the test removes one match. -/
theorem countP_updateFirst (off : ∀ x, p (f x) = false) :
    (updateFirst p f l).countP p = l.countP p - 1 := by
  induction l with
  | nil => rfl
  | cons x l ih =>
    by_cases here : p x = true
    · simp [updateFirst, here, off]
    · simp [updateFirst, here, ih]

/-- With one match at most, the others are on neither side of it. -/
theorem split_of_countP_le_one (one : l.countP p ≤ 1) (mem : x ∈ l) (hit : p x = true) :
    ∃ before after, l = before ++ x :: after ∧ (∀ y ∈ before, p y = false) ∧
      ∀ y ∈ after, p y = false := by
  obtain ⟨before, after, rfl⟩ := List.append_of_mem mem
  refine ⟨before, after, rfl, ?_⟩
  simp only [List.countP_append, List.countP_cons, hit, if_true] at one
  have left : before.countP p = 0 := by omega
  have right : after.countP p = 0 := by omega
  rw [List.countP_eq_zero] at left right
  exact ⟨fun y hy => by simpa using left y hy, fun y hy => by simpa using right y hy⟩

end FirstMatch
