/-
  RedisAgent.Lib.Returns — programs with a state that may stop in the middle.

  A program is an `EStateM ε σ α`: it runs to its end with a result, or it stops early
  with an `ε` and leaves the state as it stood.  `Returns` says that it runs to its
  end, and each rule here says when a program built from smaller ones does, so that
  `simp only` takes a program apart.

  Main results:
    • `returns_bind` — one program after another;
    • `returns_loop` — a loop that reads something for each element and stores it;
    • `StopsWith.bind`, `StopsWith.forM` — what a program stops early with;
    • `Leaves.bind`, `Keeps.bind`, `Keeps.forM` — what it leaves, whether it stops or not.
-/
import Mathlib.Data.List.Forall2

namespace RedisAgent

universe u

variable {ε σ α β : Type u}

/-- `m`, begun in `s`, runs to its end with the result `a` and leaves `s'`. -/
def Returns (m : EStateM ε σ α) (s : σ) (a : α) (s' : σ) : Prop := m s = .ok a s'

/-- A result is what it is. -/
theorem Returns.unique {m : EStateM ε σ α} {s s₁ s₂ : σ} {a₁ a₂ : α} (h₁ : Returns m s a₁ s₁)
    (h₂ : Returns m s a₂ s₂) : a₁ = a₂ ∧ s₁ = s₂ := by
  unfold Returns at h₁ h₂
  rw [h₁] at h₂
  cases h₂
  exact ⟨rfl, rfl⟩

variable {s s' : σ} {a : α} {b : β}

theorem returns_pure {a' : α} : Returns (pure a' : EStateM ε σ α) s a s' ↔ a = a' ∧ s' = s := by
  show EStateM.Result.ok a' s = EStateM.Result.ok a s' ↔ _
  constructor
  · intro h
    cases h
    exact ⟨rfl, rfl⟩
  · rintro ⟨rfl, rfl⟩
    rfl

theorem returns_throw {e : ε} : ¬ Returns (throw e : EStateM ε σ α) s a s' := by
  intro h
  cases (show EStateM.Result.error e s = EStateM.Result.ok a s' from h)

theorem returns_get {s₁ : σ} : Returns (get : EStateM ε σ σ) s s₁ s' ↔ s₁ = s ∧ s' = s := by
  show EStateM.Result.ok s s = EStateM.Result.ok s₁ s' ↔ _
  constructor
  · intro h
    cases h
    exact ⟨rfl, rfl⟩
  · rintro ⟨rfl, rfl⟩
    rfl

theorem returns_modify {f : σ → σ} {u : PUnit} :
    Returns (modify f : EStateM ε σ PUnit) s u s' ↔ s' = f s := by
  show EStateM.Result.ok PUnit.unit (f s) = EStateM.Result.ok u s' ↔ _
  constructor
  · intro h
    cases h
    rfl
  · rintro rfl
    rfl

/-- **One program after another.** -/
theorem returns_bind {m : EStateM ε σ α} {f : α → EStateM ε σ β} :
    Returns (m >>= f) s b s' ↔ ∃ a s₁, Returns m s a s₁ ∧ Returns (f a) s₁ b s' := by
  unfold Returns
  show EStateM.bind m f s = _ ↔ _
  unfold EStateM.bind
  cases m s with
  | ok a s₁ =>
      constructor
      · exact fun h => ⟨a, s₁, rfl, h⟩
      · rintro ⟨a', s₁', h, h'⟩
        cases h
        exact h'
  | error e s₁ =>
      constructor
      · exact fun h => nomatch h
      · rintro ⟨a', s₁', h, -⟩
        cases h

theorem returns_ite {c : Prop} [Decidable c] {m m' : EStateM ε σ α} :
    Returns (if c then m else m') s a s' ↔ (c ∧ Returns m s a s') ∨ (¬ c ∧ Returns m' s a s') := by
  by_cases h : c
  · rw [if_pos h]
    exact ⟨fun hm => Or.inl ⟨h, hm⟩, fun hm => hm.elim And.right (fun hn => absurd h hn.1)⟩
  · rw [if_neg h]
    exact ⟨fun hm => Or.inr ⟨h, hm⟩, fun hm => hm.elim (fun hn => absurd hn.1 h) And.right⟩

/-! ## Loops. -/

/-- **A loop that reads and stores.**  Each pass reads a `v` for its element, where
`read` says which, and stores it by `store`, which leaves alone what the next passes
read. -/
theorem returns_loop {γ : Type*} {body : α → EStateM ε σ PUnit} (read : σ → α → γ → Prop)
    (store : σ → γ → σ) (hbody : ∀ x s u s', Returns (body x) s u s'
      ↔ ∃ v, read s x v ∧ s' = store s v)
    (hkeep : ∀ s v x w, read (store s v) x w ↔ read s x w) (l : List α) :
    ∀ s s' u, Returns (l.forM body) s u s'
      ↔ ∃ vs, List.Forall₂ (read s) l vs ∧ s' = vs.foldl store s := by
  induction l with
  | nil =>
      intro s s' u
      show Returns (pure PUnit.unit) s u s' ↔ _
      rw [returns_pure]
      constructor
      · rintro ⟨-, rfl⟩
        exact ⟨[], List.Forall₂.nil, rfl⟩
      · rintro ⟨vs, hvs, rfl⟩
        cases hvs
        exact ⟨rfl, rfl⟩
  | cons x l ih =>
      intro s s' u
      show Returns (body x >>= fun _ => l.forM body) s u s' ↔ _
      simp only [returns_bind, hbody, ih]
      constructor
      · rintro ⟨-, s₁, ⟨v, hv, rfl⟩, vs, hvs, rfl⟩
        exact ⟨v :: vs, List.Forall₂.cons hv (hvs.imp fun y w h => (hkeep s v y w).1 h), rfl⟩
      · rintro ⟨vs, hvs, rfl⟩
        cases hvs with
        | cons hv hvs =>
            exact ⟨PUnit.unit, _, ⟨_, hv, rfl⟩, _, hvs.imp fun y w h => (hkeep s _ y w).2 h, rfl⟩

/-! ## What a program stops with. -/

/-- If `m` stops early, it is with `e`. -/
def StopsWith (e : ε) (m : EStateM ε σ α) : Prop := ∀ s e' s', m s = .error e' s' → e' = e

section Stops

variable {e : ε}

theorem stopsWith_pure (a : α) : StopsWith e (pure a : EStateM ε σ α) :=
  fun _ _ _ h => nomatch h

theorem stopsWith_throw : StopsWith e (throw e : EStateM ε σ α) := by
  intro s e' s' h
  have h : (EStateM.Result.error e s : EStateM.Result ε σ α) = .error e' s' := h
  cases h
  rfl

theorem stopsWith_get : StopsWith e (get : EStateM ε σ σ) := fun _ _ _ h => nomatch h

theorem stopsWith_modify (f : σ → σ) : StopsWith e (modify f : EStateM ε σ PUnit) :=
  fun _ _ _ h => nomatch h

/-- **One program after another.** -/
theorem StopsWith.bind {m : EStateM ε σ α} {f : α → EStateM ε σ β} (hm : StopsWith e m)
    (hf : ∀ a, StopsWith e (f a)) : StopsWith e (m >>= f) := by
  intro s e' s' h
  have h : EStateM.bind m f s = .error e' s' := h
  unfold EStateM.bind at h
  cases hr : m s with
  | ok a s₁ =>
      simp only [hr] at h
      exact hf a s₁ e' s' h
  | error e₁ s₁ =>
      simp only [hr] at h
      cases h
      exact hm s e' s' hr

/-- A loop. -/
theorem StopsWith.forM {body : α → EStateM ε σ PUnit} (hbody : ∀ x, StopsWith e (body x))
    (l : List α) : StopsWith e (l.forM body) := by
  induction l with
  | nil => exact stopsWith_pure PUnit.unit
  | cons x l ih => exact (hbody x).bind fun _ => ih

end Stops

/-! ## What a program leaves. -/

/-- `m`, begun in `s`, leaves `s'`: it has run to its end there, or has stopped there. -/
def Leaves (m : EStateM ε σ α) (s s' : σ) : Prop :=
  (∃ a, Returns m s a s') ∨ ∃ e, m s = .error e s'

theorem leaves_pure {a : α} (h : Leaves (pure a : EStateM ε σ α) s s') : s' = s := by
  rcases h with ⟨a', h⟩ | ⟨e, h⟩
  · exact (returns_pure.1 h).2
  · have h : (EStateM.Result.ok a s : EStateM.Result ε σ α) = .error e s' := h
    cases h

theorem leaves_get (h : Leaves (get : EStateM ε σ σ) s s') : s' = s := by
  rcases h with ⟨s₁, h⟩ | ⟨e, h⟩
  · exact (returns_get.1 h).2
  · have h : (EStateM.Result.ok s s : EStateM.Result ε σ σ) = .error e s' := h
    cases h

theorem leaves_modify {f : σ → σ} (h : Leaves (modify f : EStateM ε σ PUnit) s s') : s' = f s := by
  rcases h with ⟨u, h⟩ | ⟨e, h⟩
  · exact returns_modify.1 h
  · have h : (EStateM.Result.ok PUnit.unit (f s) : EStateM.Result ε σ PUnit) = .error e s' := h
    cases h

/-- **One program after another**: the first has stopped, or the second was begun where the
first ended. -/
theorem Leaves.bind {m : EStateM ε σ α} {f : α → EStateM ε σ β} (h : Leaves (m >>= f) s s') :
    Leaves m s s' ∨ ∃ a s₁, Returns m s a s₁ ∧ Leaves (f a) s₁ s' := by
  rcases h with ⟨b, h⟩ | ⟨e, h⟩
  · obtain ⟨a, s₁, hm, hf⟩ := returns_bind.1 h
    exact Or.inr ⟨a, s₁, hm, Or.inl ⟨b, hf⟩⟩
  · have h : EStateM.bind m f s = .error e s' := h
    unfold EStateM.bind at h
    cases hr : m s with
    | ok a s₁ =>
        simp only [hr] at h
        exact Or.inr ⟨a, s₁, hr, Or.inr ⟨e, h⟩⟩
    | error e₁ s₁ =>
        simp only [hr] at h
        cases h
        exact Or.inl (Or.inr ⟨e, hr⟩)

/-- `m` keeps `P`, wherever it stops. -/
def Keeps (P : σ → Prop) (m : EStateM ε σ α) : Prop := ∀ s s', P s → Leaves m s s' → P s'

section Keeps

variable {P : σ → Prop}

theorem Keeps.pure (a : α) : Keeps P (pure a : EStateM ε σ α) := by
  intro s s' hs h
  rw [leaves_pure h]
  exact hs

theorem Keeps.modify {f : σ → σ} (hf : ∀ s, P s → P (f s)) : Keeps P (modify f : EStateM ε σ PUnit) := by
  intro s s' hs h
  rw [leaves_modify h]
  exact hf s hs

/-- A program that reads the state, or stops. -/
theorem Keeps.of_same {m : EStateM ε σ α} (hm : ∀ s s', Leaves m s s' → s' = s) : Keeps P m := by
  intro s s' hs h
  rw [hm s s' h]
  exact hs

theorem Keeps.bind {m : EStateM ε σ α} {f : α → EStateM ε σ β} (hm : Keeps P m)
    (hf : ∀ a, Keeps P (f a)) : Keeps P (m >>= f) := by
  intro s s' hs h
  rcases h.bind with hstop | ⟨a, s₁, hret, hrest⟩
  · exact hm s s' hs hstop
  · exact hf a s₁ s' (hm s s₁ hs (Or.inl ⟨a, hret⟩)) hrest

theorem Keeps.forM {body : α → EStateM ε σ PUnit} (hbody : ∀ x, Keeps P (body x)) (l : List α) :
    Keeps P (l.forM body) := by
  induction l with
  | nil => exact Keeps.pure PUnit.unit
  | cons x l ih => exact (hbody x).bind fun _ => ih

end Keeps

/-- Something for each element. -/
theorem exists_forall₂ {γ : Type*} {R : α → γ → Prop} {l : List α} (h : ∀ x ∈ l, ∃ v, R x v) :
    ∃ vs, List.Forall₂ R l vs := by
  induction l with
  | nil => exact ⟨[], List.Forall₂.nil⟩
  | cons x l ih =>
      obtain ⟨v, hv⟩ := h x List.mem_cons_self
      obtain ⟨vs, hvs⟩ := ih (fun y hy => h y (List.mem_cons_of_mem _ hy))
      exact ⟨v :: vs, List.Forall₂.cons hv hvs⟩

end RedisAgent
