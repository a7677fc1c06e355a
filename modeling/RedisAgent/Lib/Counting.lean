/-
  RedisAgent.Lib.Counting — counting along a list when a function changes at one
  point, and the places of a filtered list.
-/
import Mathlib.Data.List.Nodup
import Mathlib.Logic.Function.Basic

namespace RedisAgent

/-- An element that is kept comes after fewer kept ones than there are. -/
theorem length_filter_take_lt {α : Type*} {l : List α} {p : α → Bool} {k : Nat} {a : α}
    (hk : l[k]? = some a) (hp : p a = true) : ((l.take k).filter p).length < (l.filter p).length := by
  obtain ⟨hlt, hget⟩ := List.getElem?_eq_some_iff.1 hk
  have hsplit : (l.filter p).length
      = ((l.take k).filter p).length + ((l.drop k).filter p).length := by
    rw [← List.length_append, ← List.filter_append, List.take_append_drop]
  rw [List.drop_eq_getElem_cons hlt, hget, List.filter_cons_of_pos hp, List.length_cons] at hsplit
  omega

/-- Every place of a filtered list is that of an element. -/
theorem exists_filter_take {α : Type*} {p : α → Bool} (l : List α) : ∀ n, n < (l.filter p).length →
    ∃ k a, l[k]? = some a ∧ p a = true ∧ ((l.take k).filter p).length = n := by
  induction l with
  | nil => exact fun n hn => absurd hn (Nat.not_lt_zero n)
  | cons x l ih =>
      intro n hn
      by_cases hx : p x = true
      · rw [List.filter_cons_of_pos hx, List.length_cons] at hn
        cases n with
        | zero => exact ⟨0, x, rfl, hx, rfl⟩
        | succ n =>
            obtain ⟨k, a, hk, ha, hlen⟩ := ih n (Nat.lt_of_succ_lt_succ hn)
            refine ⟨k + 1, a, hk, ha, ?_⟩
            rw [List.take_succ_cons, List.filter_cons_of_pos hx, List.length_cons, hlen]
      · rw [List.filter_cons_of_neg hx] at hn
        obtain ⟨k, a, hk, ha, hlen⟩ := ih n hn
        refine ⟨k + 1, a, hk, ha, ?_⟩
        rw [List.take_succ_cons, List.filter_cons_of_neg hx, hlen]

/-- Numbers that are kept together with every smaller one keep their places. -/
theorem filter_range_downward {p : Nat → Bool} {n : Nat}
    (h : ∀ j, j < n → p j = true → ∀ i, i < j → p i = true) :
    (List.range n).filter p = List.range ((List.range n).filter p).length := by
  induction n with
  | zero => rfl
  | succ n ih =>
      have ih := ih (fun j hj => h j (Nat.lt_succ_of_lt hj))
      rw [List.range_succ, List.filter_append]
      by_cases hn : p n = true
      · -- everything below `n` is kept
        have hall : (List.range n).filter p = List.range n :=
          List.filter_eq_self.2 fun i hi =>
            h n (Nat.lt_succ_self n) hn i (List.mem_range.1 hi)
        rw [hall, List.filter_cons_of_pos hn, List.filter_nil, ← List.range_succ, List.length_range]
      · rw [List.filter_cons_of_neg hn, List.filter_nil, List.append_nil]
        exact ih

variable {α β : Type*} [DecidableEq α]

/-- A change off the list does not matter. -/
theorem countP_update_of_notMem {l : List α} {j : α} (hj : j ∉ l) (f : α → β) (b : β)
    (p : β → Bool) :
    l.countP (fun i => p (Function.update f j b i)) = l.countP (fun i => p (f i)) := by
  apply List.countP_congr
  intro i hi
  have hij : i ≠ j := by
    intro heq
    rw [heq] at hi
    exact hj hi
  rw [Function.update_of_ne hij]

/-- A change on the list exchanges one summand for another. -/
theorem countP_update {l : List α} (hnd : l.Nodup) {j : α} (hj : j ∈ l) (f : α → β) (b : β)
    (p : β → Bool) :
    l.countP (fun i => p (Function.update f j b i)) + (if p (f j) then 1 else 0)
      = l.countP (fun i => p (f i)) + (if p b then 1 else 0) := by
  induction l with
  | nil => cases hj
  | cons a l ih =>
      obtain ⟨hal, hnd⟩ := List.nodup_cons.1 hnd
      rw [List.countP_cons, List.countP_cons]
      by_cases haj : a = j
      · subst haj
        rw [countP_update_of_notMem hal, Function.update_self]
        omega
      · have hjl : j ∈ l := by
          rcases List.mem_cons.1 hj with h | h
          · exact absurd h.symm haj
          · exact h
        have hrest := ih hnd hjl
        rw [Function.update_of_ne haj]
        omega

/-- Erasing takes one summand away. -/
theorem countP_erase_add {l : List α} {j : α} (hj : j ∈ l) (p : α → Bool) :
    (l.erase j).countP p + (if p j then 1 else 0) = l.countP p := by
  rw [(List.perm_cons_erase hj).countP_eq, List.countP_cons]

end RedisAgent
