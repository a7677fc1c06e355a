/-
  RedisAgent.Lib.Lives — objects that live through a common log.

  A log mixes the events of many objects.  Every object follows the same partial
  automaton, `LifeRule.next`; `life log x` is where `x` stands after `log`, and a
  log is `Lawful` if each of its events was allowed when it was made.

  In a lawful log an object's standing tells how many events of a kind it has had
  (`Lawful.countP_eq`), which is how "exactly once" and "only after" follow from
  the shape of the automaton.
-/
import Mathlib.Logic.Function.Basic
import Mathlib.Data.List.Basic

namespace RedisAgent

/-- The automaton of the objects `ι`, with standings `φ` and events `ε`. -/
structure LifeRule (ι φ ε : Type*) where
  start : φ
  about : ε → Option ι
  next : φ → ε → Option φ

namespace LifeRule

variable {ι φ ε : Type*} [DecidableEq ι] (R : LifeRule ι φ ε)

/-- All standings after one more event. -/
def after (f : ι → φ) (e : ε) : ι → φ :=
  match R.about e with
  | none => f
  | some x => Function.update f x ((R.next (f x) e).getD (f x))

/-- The standings after a log. -/
def life (log : List ε) : ι → φ := log.foldl R.after (fun _ => R.start)

/-- Every event of the log was allowed. -/
inductive Lawful : List ε → Prop
  | nil : Lawful []
  | other {log : List ε} {e : ε} : Lawful log → R.about e = none → Lawful (log ++ [e])
  | step {log : List ε} {e : ε} {x : ι} {f : φ} :
      Lawful log → R.about e = some x → R.next (R.life log x) e = some f → Lawful (log ++ [e])

variable {R}

theorem life_nil (x : ι) : R.life [] x = R.start := rfl

theorem life_append_other {log : List ε} {e : ε} (h : R.about e = none) :
    R.life (log ++ [e]) = R.life log := by
  unfold life
  rw [List.foldl_append]
  show R.after _ e = _
  unfold after
  rw [h]

theorem life_append {log : List ε} {e : ε} {x : ι} {f : φ} (h : R.about e = some x)
    (hf : R.next (R.life log x) e = some f) :
    R.life (log ++ [e]) = Function.update (R.life log) x f := by
  have hlife : R.life (log ++ [e]) = R.after (R.life log) e := by
    unfold life
    rw [List.foldl_append]
    rfl
  rw [hlife]
  unfold after
  rw [h]
  show Function.update (R.life log) x ((R.next (R.life log x) e).getD (R.life log x)) = _
  rw [hf]
  rfl

/-- **Counting rule.**  If the weight of a standing grows by one with every event
of the kind `p` and stays with every other, it counts those events. -/
theorem Lawful.countP_eq {log : List ε} (h : R.Lawful log) (x : ι) (p : ε → Bool)
    (weight : φ → Nat) (hx : ∀ e, p e = true → R.about e = some x) (h0 : weight R.start = 0)
    (hstep : ∀ f e f', R.about e = some x → R.next f e = some f' →
      weight f' = weight f + (if p e then 1 else 0)) :
    log.countP p = weight (R.life log x) := by
  -- an event about another object is not of the kind
  have hnot : ∀ e, R.about e ≠ some x → p e = false := by
    intro e he
    rcases hp : p e with _ | _
    · rfl
    · exact absurd (hx e hp) he
  induction h with
  | nil => exact h0.symm
  | other _ he ih =>
      rw [List.countP_append, List.countP_singleton, life_append_other he, ih,
        hnot _ (by rw [he]; exact nofun)]
      rfl
  | @step log e y f _ he hf ih =>
      rw [List.countP_append, List.countP_singleton, life_append he hf, ih]
      by_cases hyx : y = x
      · subst hyx
        rw [Function.update_self, hstep _ e f he hf]
      · have hother : R.about e ≠ some x := by
          rw [he]
          intro heq
          exact hyx (Option.some.inj heq)
        rw [Function.update_of_ne (Ne.symm hyx), hnot e hother]
        rfl

end LifeRule

end RedisAgent
