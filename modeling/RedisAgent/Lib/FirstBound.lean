/-
  RedisAgent.Lib.FirstBound — looking a value up by the first bound that is not below it.

  A table with one bound for each of the sets `S 0`, `S 1`, … leads every value to its
  set exactly if the sets ascend and each bound is the greatest value of its set.

  Main results:
    • `firstBound_leads_iff`
-/
import Mathlib.Order.Bounds.Basic

namespace RedisAgent

variable {α : Type*} [LinearOrder α] {bound : Nat → α} {S : Nat → Set α} {n : Nat}

/-- The first bound that is not below `v` is that of `i`. -/
def FirstBound (bound : Nat → α) (v : α) (i : Nat) : Prop := v ≤ bound i ∧ ∀ j < i, bound j < v

/-- All of a set is below all of the sets behind it. -/
def Ascending (S : Nat → Set α) (n : Nat) : Prop :=
  ∀ i j, i < j → j < n → ∀ p ∈ S i, ∀ q ∈ S j, p < q

theorem FirstBound.ascending (h : ∀ i < n, ∀ v ∈ S i, FirstBound bound v i) : Ascending S n := by
  intro i j hij hj p hp q hq
  have hle : p ≤ bound i := (h i (hij.trans hj) p hp).1
  have hlt : bound i < q := (h j hj q hq).2 i hij
  exact hle.trans_lt hlt

/-- A bound that is in one of the sets is in its own. -/
theorem FirstBound.own (h : ∀ i < n, ∀ v ∈ S i, FirstBound bound v i) {i k : Nat} (hi : i < n)
    (hne : (S i).Nonempty) (hk : k < n) (hmem : bound i ∈ S k) : k = i := by
  obtain ⟨hle, hbelow⟩ := h k hk (bound i) hmem
  rcases Nat.lt_trichotomy k i with hlt | heq | hgt
  · -- then the values of `S i` would be above the bound of `k`, and so above their own
    obtain ⟨p, hp⟩ := hne
    obtain ⟨hpi, hpk⟩ := h i hi p hp
    exact absurd ((hpk k hlt).trans_le (hpi.trans hle)) (lt_irrefl _)
  · exact heq
  · exact absurd (hbelow i hgt) (lt_irrefl _)

/-- **When the first bound leads to the right set.** -/
theorem firstBound_leads_iff (hne : ∀ i < n, (S i).Nonempty)
    (hbound : ∀ i < n, ∃ k < n, bound i ∈ S k) :
    (∀ i < n, ∀ v ∈ S i, FirstBound bound v i)
      ↔ Ascending S n ∧ ∀ i < n, IsGreatest (S i) (bound i) := by
  constructor
  · intro h
    refine ⟨FirstBound.ascending h, ?_⟩
    intro i hi
    obtain ⟨k, hk, hmem⟩ := hbound i hi
    have hown : k = i := FirstBound.own h hi (hne i hi) hk hmem
    rw [hown] at hmem
    exact ⟨hmem, fun v hv => (h i hi v hv).1⟩
  · rintro ⟨hasc, hgreat⟩ i hi v hv
    refine ⟨(hgreat i hi).2 hv, ?_⟩
    intro j hj
    have hmem : bound j ∈ S j := (hgreat j (hj.trans hi)).1
    exact hasc j i hj hi (bound j) hmem v hv

end RedisAgent
