/-
  RedisAgent.Lib.Ensures — what every run of a program with a state brings about.

  A program is a `StateM σ α`.  `Ensures m R` relates the state before, the result and
  the state after, for every state to begin with.  A loop is `mapM` or `foldlM`; what
  its passes do to the state is a reflexive and transitive relation.

  Main results:
    • `Ensures.bind` — one program after another;
    • `Ensures.mapM`, `Ensures.foldlM` — a loop from what one pass does.
-/
import Mathlib.Data.List.Forall2

namespace RedisAgent

universe u

variable {σ α β : Type u}

/-- Every run of `m` from `s`, with the result `a` and the state `s'` it leaves, has
`R s a s'`. -/
def Ensures (m : StateM σ α) (R : σ → α → σ → Prop) : Prop := ∀ s, R s (m.run s).1 (m.run s).2

theorem Ensures.mono {m : StateM σ α} {R R' : σ → α → σ → Prop} (h : Ensures m R)
    (himp : ∀ s a s', R s a s' → R' s a s') : Ensures m R' :=
  fun s => himp _ _ _ (h s)

theorem ensures_pure {a : α} {R : σ → α → σ → Prop} (h : ∀ s, R s a s) :
    Ensures (pure a : StateM σ α) R := h

/-- **One program after another.** -/
theorem Ensures.bind {m : StateM σ α} {f : α → StateM σ β} {Q : σ → α → σ → Prop}
    {R : σ → β → σ → Prop} (hm : Ensures m Q)
    (hf : ∀ a, Ensures (f a) (fun s₁ b s₂ => ∀ s, Q s a s₁ → R s b s₂)) :
    Ensures (m >>= f) R :=
  fun s => hf (m.run s).1 (m.run s).2 s (hm s)

/-! ## Loops. -/

variable {S : σ → σ → Prop}

/-- **A loop that turns every element into another.** -/
theorem Ensures.mapM {f : α → StateM σ β} {R : α → β → Prop} (hrefl : ∀ s, S s s)
    (htrans : ∀ s₁ s₂ s₃, S s₁ s₂ → S s₂ s₃ → S s₁ s₃)
    (hf : ∀ a, Ensures (f a) (fun s b s' => R a b ∧ S s s')) (l : List α) :
    Ensures (l.mapM f) (fun s bs s' => List.Forall₂ R l bs ∧ S s s') := by
  induction l with
  | nil => exact fun s => ⟨List.Forall₂.nil, hrefl s⟩
  | cons a l ih =>
      rw [List.mapM_cons]
      refine (hf a).bind fun b => ih.bind fun bs => ensures_pure ?_
      rintro s₂ s₁ ⟨hbs, h₂⟩ s ⟨hb, h₁⟩
      exact ⟨List.Forall₂.cons hb hbs, htrans _ _ _ h₁ h₂⟩

/-- **A loop with an accumulator**, which keeps `I`. -/
theorem Ensures.foldlM {f : β → α → StateM σ β} {I : β → Prop} (hrefl : ∀ s, S s s)
    (htrans : ∀ s₁ s₂ s₃, S s₁ s₂ → S s₂ s₃ → S s₁ s₃) {l : List α}
    (hf : ∀ b, ∀ a ∈ l, I b → Ensures (f b a) (fun s b' s' => I b' ∧ S s s')) {b : β} (hb : I b) :
    Ensures (l.foldlM f b) (fun s b' s' => I b' ∧ S s s') := by
  induction l generalizing b with
  | nil => exact fun s => ⟨hb, hrefl s⟩
  | cons a l ih =>
      rw [List.foldlM_cons]
      intro s
      obtain ⟨hb', h₁⟩ := hf b a List.mem_cons_self hb s
      obtain ⟨hb'', h₂⟩ := ih (fun b x hx => hf b x (List.mem_cons_of_mem _ hx)) hb'
        ((f b a).run s).2
      exact ⟨hb'', htrans _ _ _ h₁ h₂⟩

end RedisAgent
