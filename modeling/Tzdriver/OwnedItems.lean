import Mathlib.Order.Nat
import Mathlib.Tactic.ByContra

/-!
# Items with one owner

`owns t a` says how many times the owner `t` has the item `a`, and `out a` that the item is handed out.
In a partition an item that is out has one owner, who has it once. Taking an item that is not
out and giving back one's own keep the partition.
-/

namespace OwnedItems

variable {T α : Type*} {owns owns' : T → α → Nat} {out out' : α → Prop} {t u : T} {a : α}

structure Partition (owns : T → α → Nat) (out : α → Prop) : Prop where
  once : ∀ t a, owns t a ≤ 1
  alone : ∀ t u a, 0 < owns t a → 0 < owns u a → t = u
  covered : ∀ a, out a ↔ ∃ t, 0 < owns t a

theorem Partition.empty (nobody : ∀ t a, owns t a = 0) (nothing : ∀ a, ¬ out a) :
    Partition owns out := by
  refine ⟨?_, ?_, ?_⟩
  · intro t a
    rw [nobody]
    omega
  · intro t u a mine
    rw [nobody] at mine
    omega
  · intro a
    refine iff_of_false (nothing a) ?_
    rintro ⟨t, mine⟩
    rw [nobody] at mine
    omega

/-- `t` takes `a`, which is not out. -/
theorem Partition.take (parts : Partition owns out) (fresh : ¬ out a)
    (mine : owns' t a = owns t a + 1)
    (others : ∀ u b, u ≠ t ∨ b ≠ a → owns' u b = owns u b)
    (more : ∀ b, out' b ↔ out b ∨ b = a) : Partition owns' out' := by
  have nobody : ∀ u, owns u a = 0 := by
    intro u
    by_contra some_
    exact fresh ((parts.covered a).2 ⟨u, by omega⟩)
  refine ⟨?_, ?_, ?_⟩
  · intro u b
    by_cases here : u = t ∧ b = a
    · obtain ⟨rfl, rfl⟩ := here
      have none_ := nobody u
      omega
    · rw [others u b (not_and_or.1 here)]
      exact parts.once u b
  · intro u v b first second
    by_cases hb : b = a
    · subst hb
      have owner : ∀ w, 0 < owns' w b → w = t := by
        intro w has
        by_contra other
        rw [others w b (.inl other), nobody] at has
        omega
      rw [owner u first, owner v second]
    · rw [others u b (.inr hb)] at first
      rw [others v b (.inr hb)] at second
      exact parts.alone u v b first second
  · intro b
    rw [more, parts.covered]
    by_cases hb : b = a
    · subst hb
      exact iff_of_true (.inr rfl) ⟨t, by omega⟩
    · constructor
      · rintro (⟨u, has⟩ | same)
        · exact ⟨u, by rwa [others u b (.inr hb)]⟩
        · exact absurd same hb
      · rintro ⟨u, has⟩
        rw [others u b (.inr hb)] at has
        exact .inl ⟨u, has⟩

/-- `t` gives back `a`, which it has. -/
theorem Partition.give (parts : Partition owns out) (has : 0 < owns t a)
    (mine : owns' t a = owns t a - 1)
    (others : ∀ u b, u ≠ t ∨ b ≠ a → owns' u b = owns u b)
    (less : ∀ b, out' b ↔ out b ∧ b ≠ a) : Partition owns' out' := by
  have shrunk : ∀ u b, owns' u b ≤ owns u b := by
    intro u b
    by_cases here : u = t ∧ b = a
    · obtain ⟨rfl, rfl⟩ := here
      omega
    · exact (others u b (not_and_or.1 here)).le
  refine ⟨fun u b => (shrunk u b).trans (parts.once u b), ?_, ?_⟩
  · intro u v b first second
    exact parts.alone u v b (first.trans_le (shrunk u b)) (second.trans_le (shrunk v b))
  · intro b
    rw [less, parts.covered]
    by_cases hb : b = a
    · subst hb
      refine iff_of_false (fun bad => bad.2 rfl) ?_
      rintro ⟨u, left⟩
      have same : u = t := parts.alone u t b (left.trans_le (shrunk u b)) has
      subst same
      have once := parts.once u b
      omega
    · constructor
      · rintro ⟨⟨u, mine⟩, -⟩
        exact ⟨u, by rwa [others u b (.inr hb)]⟩
      · rintro ⟨u, mine⟩
        rw [others u b (.inr hb)] at mine
        exact ⟨⟨u, mine⟩, hb⟩

/-- Ownership that changes neither way. -/
theorem Partition.same (parts : Partition owns out) (owners : ∀ t a, owns' t a = owns t a)
    (outs : ∀ a, out' a ↔ out a) : Partition owns' out' := by
  have eq : owns' = owns := funext fun t => funext fun a => owners t a
  have eq' : out' = out := funext fun a => propext (outs a)
  rw [eq, eq']
  exact parts

end OwnedItems
