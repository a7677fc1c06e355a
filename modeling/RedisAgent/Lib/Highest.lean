/-
  RedisAgent.Lib.Highest — the element with the highest score.

  Choosing the candidate with the highest score is stable: as long as the chosen one is
  still a candidate, taking others away changes nothing, and a new candidate can only
  win for itself.  Both need that no two candidates score the same.

  Main results:
    • `Highest.of_sorted` — the first of a sorted list;
    • `Highest.stays`, `Highest.added` — stability;
    • `rotation_perm` — `n` turns in a row.
-/
import Mathlib.Data.List.Rotate
import Mathlib.Data.Set.Function
import Mathlib.Order.Defs.LinearOrder

namespace RedisAgent

variable {α β : Type*} [LinearOrder β] {score : α → β} {l l' : List α} {x x' y : α}

/-- `x` is one of `l`, and none of `l` scores higher. -/
structure Highest (score : α → β) (l : List α) (x : α) : Prop where
  mem : x ∈ l
  le : ∀ y ∈ l, score y ≤ score x

/-- No two of `l` score the same. -/
def DistinctOn (score : α → β) (l : List α) : Prop := Set.InjOn score {x | x ∈ l}

theorem Highest.unique (hd : DistinctOn score l) (h : Highest score l x) (h' : Highest score l x') :
    x' = x :=
  hd h'.mem h.mem (le_antisymm (h.le x' h'.mem) (h'.le x h.mem))

theorem Highest.subset (h : Highest score l x) (hsub : l' ⊆ l) (hx : x ∈ l') :
    Highest score l' x :=
  ⟨hx, fun y hy => h.le y (hsub hy)⟩

/-- **Others are taken away.** -/
theorem Highest.stays (hd : DistinctOn score l) (h : Highest score l x) (hsub : l' ⊆ l)
    (hx : x ∈ l') (h' : Highest score l' x') : x' = x := by
  have hd' : DistinctOn score l' := fun a ha b hb => hd (hsub ha) (hsub hb)
  exact (h.subset hsub hx).unique hd' h'

/-- **One is added.** -/
theorem Highest.added (hd : DistinctOn score l') (h : Highest score l x) (hsub : l' ⊆ y :: l)
    (hsup : l ⊆ l') (h' : Highest score l' x') : x' = y ∨ x' = x := by
  rcases List.mem_cons.1 (hsub h'.mem) with hy | hold
  · exact Or.inl hy
  · have hx : Highest score l x' := h'.subset hsup hold
    have hd' : DistinctOn score l := fun a ha b hb => hd (hsup ha) (hsup hb)
    exact Or.inr (h.unique hd' hx)

/-- The first of a list in which nobody is followed by a higher score. -/
theorem Highest.of_sorted (h : (x :: l).Pairwise (fun a b => ¬ score a < score b)) :
    Highest score (x :: l) x := by
  refine ⟨List.mem_cons_self, fun y hy => ?_⟩
  rcases List.mem_cons.1 hy with hy | hy
  · exact le_of_eq (congrArg score hy)
  · exact not_lt.1 ((List.pairwise_cons.1 h).1 y hy)

/-- **`n` turns in a row** take each of `n` places once. -/
theorem rotation_perm (n a : Nat) :
    ((List.range n).map (fun j => (a + j) % n)).Perm (List.range n) := by
  have hrotate : (List.range n).map (fun j => (a + j) % n) = (List.range n).rotate a := by
    refine List.ext_getElem ?_ ?_
    · rw [List.length_map, List.length_rotate]
    · intro j h₁ h₂
      rw [List.getElem_map, List.getElem_range, List.getElem_rotate, List.getElem_range,
        List.length_range, Nat.add_comm]
  rw [hrotate]
  exact List.rotate_perm _ _

end RedisAgent
