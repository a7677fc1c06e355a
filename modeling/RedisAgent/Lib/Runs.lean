/-
  RedisAgent.Lib.Runs — labelled transition systems and their finite runs.

  A run keeps its history: the list of (state before, label) pairs.  Invariants
  are proved once per step (`Run.invariant`), with the history at hand where the
  statement is about the past (`Run.history`), and a component's invariants are
  inherited by the system around it through `Reachable.simulate`.
-/
import Mathlib.Logic.Basic
import Mathlib.Data.List.Basic

namespace RedisAgent

/-- Initial states and labelled steps. -/
structure Lts (S L : Type*) where
  init : S → Prop
  step : S → L → S → Prop

namespace Lts

variable {S L : Type*}

/-- `M.Run tr s`: some run of `M` ends in `s`, and `tr` lists its steps in order,
each as the state it left and its label. -/
inductive Run (M : Lts S L) : List (S × L) → S → Prop
  | init {s : S} : M.init s → Run M [] s
  | step {tr : List (S × L)} {s : S} {l : L} {s' : S} :
      Run M tr s → M.step s l s' → Run M (tr ++ [(s, l)]) s'

/-- Some run ends in `s`. -/
def Reachable (M : Lts S L) (s : S) : Prop := ∃ tr, M.Run tr s

/-- The same system, taking only the steps that meet `cond`. -/
def restrict (M : Lts S L) (cond : S → L → Prop) : Lts S L where
  init := M.init
  step s l s' := M.step s l s' ∧ cond s l

variable {M : Lts S L}

theorem Reachable.init {s : S} (h : M.init s) : M.Reachable s := ⟨[], .init h⟩

theorem Reachable.step {s s' : S} {l : L} (h : M.Reachable s) (hs : M.step s l s') :
    M.Reachable s' :=
  let ⟨tr, hr⟩ := h
  ⟨tr ++ [(s, l)], hr.step hs⟩

/-- **History rule**: `P` of the steps so far and the state reached. -/
theorem Run.history {P : List (S × L) → S → Prop}
    (h0 : ∀ s, M.init s → P [] s)
    (hstep : ∀ tr s l s', M.Run tr s → P tr s → M.step s l s' → P (tr ++ [(s, l)]) s')
    {tr : List (S × L)} {s : S} (h : M.Run tr s) : P tr s := by
  induction h with
  | init hi => exact h0 _ hi
  | step hr hs ih => exact hstep _ _ _ _ hr ih hs

/-- **Invariant rule.** -/
theorem Reachable.invariant {P : S → Prop} (h0 : ∀ s, M.init s → P s)
    (hstep : ∀ s l s', M.Reachable s → P s → M.step s l s' → P s')
    {s : S} (h : M.Reachable s) : P s := by
  obtain ⟨tr, hr⟩ := h
  exact hr.history (P := fun _ s => P s) h0
    (fun tr s l s' hr hp hs => hstep s l s' ⟨tr, hr⟩ hp hs)

/-- A restricted run is a run of the whole system whose steps all meet `cond`. -/
theorem Run.of_restrict {cond : S → L → Prop} {tr : List (S × L)} {s : S}
    (h : (M.restrict cond).Run tr s) : M.Run tr s ∧ ∀ p ∈ tr, cond p.1 p.2 := by
  induction h with
  | init hi => exact ⟨.init hi, by simp⟩
  | step _ hs ih =>
      refine ⟨ih.1.step hs.1, ?_⟩
      intro p hp
      rcases List.mem_append.1 hp with h | h
      · exact ih.2 p h
      · rw [List.mem_singleton.1 h]
        exact hs.2

/-- And the other way round. -/
theorem Run.to_restrict {cond : S → L → Prop} {tr : List (S × L)} {s : S} (h : M.Run tr s)
    (hcond : ∀ p ∈ tr, cond p.1 p.2) : (M.restrict cond).Run tr s := by
  induction h with
  | init hi => exact .init hi
  | step _ hs ih =>
      have hlast := hcond _ (List.mem_append_right _ (List.mem_singleton_self _))
      exact (ih (fun p hp => hcond p (List.mem_append_left _ hp))).step ⟨hs, hlast⟩

/-- A system that allows more has every run. -/
theorem Run.mono {M' : Lts S L} (h0 : ∀ s, M.init s → M'.init s)
    (hstep : ∀ s l s', M.step s l s' → M'.step s l s') {tr : List (S × L)} {s : S}
    (h : M.Run tr s) : M'.Run tr s := by
  induction h with
  | init hi => exact .init (h0 _ hi)
  | step _ hs ih => exact ih.step (hstep _ _ _ hs)

/-- **Simulation**: if every step of `M` from a reachable state moves the component
`π` by one step of `M'` or leaves it alone, the component only visits reachable
states of `M'`. -/
theorem Reachable.simulate {S' L' : Type*} {M' : Lts S' L'} {π : S → S'}
    (h0 : ∀ s, M.init s → M'.init (π s))
    (hstep : ∀ s l s', M.Reachable s → M.step s l s' →
      π s' = π s ∨ ∃ l', M'.step (π s) l' (π s'))
    {s : S} (h : M.Reachable s) : M'.Reachable (π s) := by
  refine h.invariant (P := fun s => M'.Reachable (π s)) (fun s hi => .init (h0 s hi)) ?_
  intro s l s' hr ih hs
  rcases hstep s l s' hr hs with he | ⟨l', hl⟩
  · rw [he]
    exact ih
  · exact ih.step hl

/-! Runs of a machine, given by their labels. -/

/-- The steps `ls`, one after the other. -/
def execAll (exec : S → L → S) : S → List L → S
  | s, [] => s
  | s, l :: ls => execAll exec (exec s l) ls

/-- The states these steps leave. -/
def traceAll (exec : S → L → S) : S → List L → List (S × L)
  | _, [] => []
  | s, l :: ls => (s, l) :: traceAll exec (exec s l) ls

/-- Each step is enabled when its turn comes. -/
def AllEnabled (exec : S → L → S) (enabled : S → L → Prop) : S → List L → Prop
  | _, [] => True
  | s, l :: ls => enabled s l ∧ AllEnabled exec enabled (exec s l) ls

instance decidableAllEnabled (exec : S → L → S) (enabled : S → L → Prop)
    [∀ s l, Decidable (enabled s l)] :
    ∀ s ls, Decidable (AllEnabled exec enabled s ls)
  | _, [] => inferInstanceAs (Decidable True)
  | s, l :: ls =>
      have := decidableAllEnabled exec enabled (exec s l) ls
      inferInstanceAs (Decidable (enabled s l ∧ AllEnabled exec enabled (exec s l) ls))

theorem Run.execAll {exec : S → L → S} {enabled : S → L → Prop}
    (hstep : ∀ s l, enabled s l → M.step s l (exec s l)) (ls : List L) :
    ∀ {tr : List (S × L)} {s : S}, M.Run tr s → AllEnabled exec enabled s ls →
      M.Run (tr ++ traceAll exec s ls) (Lts.execAll exec s ls) := by
  induction ls with
  | nil =>
      intro tr s h _
      show M.Run (tr ++ []) s
      rw [List.append_nil]
      exact h
  | cons l ls ih =>
      intro tr s h hen
      have hrest := ih (h.step (hstep s l hen.1)) hen.2
      rw [List.append_assoc] at hrest
      exact hrest

end Lts

end RedisAgent
