/-
  RedisAgent.Lib.Shuffle — rearranging a stretch of an array in place.

  An array is a map from indices to elements, as a C pointer sees it.
  `Shuffle a b m m'`: `m'` holds in the stretch `a .. b` what `m` holds there, in
  another order, and is `m` everywhere else.  An algorithm that keeps one element
  in a register and writes the others over the hole it left is followed with
  `moveHole`: fill the hole, and the array is a shuffle at every moment.
-/
import Mathlib.Data.List.Range
import Mathlib.Data.List.Nodup
import Mathlib.Data.List.Perm.Basic
import Mathlib.Logic.Equiv.Basic

namespace RedisAgent

variable {α : Type*}

/-- The elements at `a`, `a + 1`, .., `n` of them. -/
def slice (m : Int → α) (a : Int) (n : Nat) : List α := (List.range n).map (fun i : Nat => m (a + (i : Int)))

@[simp] theorem slice_length (m : Int → α) (a : Int) (n : Nat) : (slice m a n).length = n := by
  simp [slice]

/-- `m'` is `m` with the stretch `a .. b` rearranged. -/
def Shuffle (a b : Int) (m m' : Int → α) : Prop :=
  ∃ e : Equiv.Perm Int, (∀ i, i < a ∨ b < i → e i = i) ∧ m' = m ∘ e

namespace Shuffle

variable {a b : Int} {m m' m'' : Int → α}

theorem refl (a b : Int) (m : Int → α) : Shuffle a b m m := ⟨Equiv.refl Int, fun _ _ => rfl, rfl⟩

theorem trans (h : Shuffle a b m m') (h' : Shuffle a b m' m'') : Shuffle a b m m'' := by
  obtain ⟨e, he, rfl⟩ := h
  obtain ⟨e', he', rfl⟩ := h'
  refine ⟨e'.trans e, ?_, rfl⟩
  intro i hi
  show e (e' i) = i
  rw [he' i hi, he i hi]

/-- A shuffle of a stretch is a shuffle of every longer one. -/
theorem mono {a' b' : Int} (h : Shuffle a b m m') (ha : a' ≤ a) (hb : b ≤ b') :
    Shuffle a' b' m m' := by
  obtain ⟨e, he, rfl⟩ := h
  refine ⟨e, ?_, rfl⟩
  intro i hi
  apply he
  omega

/-- Nothing outside the stretch is touched. -/
theorem eq_off (h : Shuffle a b m m') {i : Int} (hi : i < a ∨ b < i) : m' i = m i := by
  obtain ⟨e, he, rfl⟩ := h
  show m (e i) = m i
  rw [he i hi]

/-- What stands in the stretch afterwards stood there before. -/
theorem source (h : Shuffle a b m m') {i : Int} (ha : a ≤ i) (hb : i ≤ b) :
    ∃ k, a ≤ k ∧ k ≤ b ∧ m' i = m k := by
  obtain ⟨e, he, rfl⟩ := h
  refine ⟨e i, ?_, ?_, rfl⟩
  · by_contra hlt
    have hfix := he (e i) (Or.inl (by omega))
    have := e.injective hfix
    omega
  · by_contra hlt
    have hfix := he (e i) (Or.inr (by omega))
    have := e.injective hfix
    omega

/-- A bound on the stretch survives. -/
theorem forall_of {P : α → Prop} (h : Shuffle a b m m') (hP : ∀ k, a ≤ k → k ≤ b → P (m k)) :
    ∀ i, a ≤ i → i ≤ b → P (m' i) := by
  intro i ha hb
  obtain ⟨k, hka, hkb, hk⟩ := h.source ha hb
  rw [hk]
  exact hP k hka hkb

/-- **The hole moves** from `i` to `j`, taking the element at `j` the other way. -/
theorem moveHole {t : α} {i j : Int} (h : Shuffle a b m (Function.update m' i t))
    (hi : a ≤ i ∧ i ≤ b) (hj : a ≤ j ∧ j ≤ b) :
    Shuffle a b m (Function.update (Function.update m' i (m' j)) j t) := by
  apply h.trans
  refine ⟨Equiv.swap i j, ?_, ?_⟩
  · intro k hk
    exact Equiv.swap_apply_of_ne_of_ne (by omega) (by omega)
  · funext k
    show _ = Function.update m' i t (Equiv.swap i j k)
    by_cases hkj : k = j
    · subst hkj
      rw [Function.update_self, Equiv.swap_apply_right, Function.update_self]
    · rw [Function.update_of_ne hkj]
      by_cases hki : k = i
      · subst hki
        have hjk : j ≠ k := fun he => hkj he.symm
        rw [Function.update_self, Equiv.swap_apply_left, Function.update_of_ne hjk]
      · rw [Function.update_of_ne hki, Equiv.swap_apply_of_ne_of_ne hki hkj,
          Function.update_of_ne hki]

/-- **A shuffle permutes the stretch.** -/
theorem perm {n : Nat} (h : Shuffle a (a + n - 1) m m') : (slice m' a n).Perm (slice m a n) := by
  obtain ⟨e, he, rfl⟩ := h
  have hL : ∀ f : Int → α, slice f a n = ((List.range n).map (fun i : Nat => a + (i : Int))).map f := by
    intro f
    rw [slice, List.map_map]
    rfl
  rw [hL, hL, ← List.map_map]
  apply List.Perm.map
  have hnd : ((List.range n).map (fun i : Nat => a + (i : Int))).Nodup := by
    apply List.nodup_range.map
    intro x y hxy
    have : a + (x : Int) = a + (y : Int) := hxy
    omega
  have hmem : ∀ k, k ∈ (List.range n).map (fun i : Nat => a + (i : Int)) ↔ a ≤ k ∧ k < a + n := by
    intro k
    rw [List.mem_map]
    constructor
    · intro hk
      obtain ⟨i, hi, rfl⟩ := hk
      have := List.mem_range.1 hi
      omega
    · intro hk
      exact ⟨(k - a).toNat, List.mem_range.2 (by omega), by omega⟩
  rw [List.perm_ext_iff_of_nodup (hnd.map e.injective) hnd]
  intro k
  rw [hmem, List.mem_map]
  constructor
  · intro hk
    obtain ⟨i, hi, rfl⟩ := hk
    rw [hmem] at hi
    by_contra hout
    have hfix := he (e i) (by omega)
    have := e.injective hfix
    omega
  · intro hk
    refine ⟨e.symm k, ?_, e.apply_symm_apply k⟩
    rw [hmem]
    by_contra hout
    have hfix := he (e.symm k) (by omega)
    rw [e.apply_symm_apply] at hfix
    omega

end Shuffle

end RedisAgent
