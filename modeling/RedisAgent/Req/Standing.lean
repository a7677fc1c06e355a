/-
  RedisAgent.Req.Standing — what the standing of a sub-request says about its past.

  In a lawful history each event of a sub-request happens at most once, and its
  fate tells which have happened.  So what is said about histories becomes facts
  about fates, which the invariant knows.
-/
import RedisAgent.Req.Reach

namespace RedisAgent

variable {ν : Type*}

/-! ## §1. Sub-requests. -/

/-- **The steps of a sub-request.** -/
theorem subNext_cases {f : Option (Nat × Fate)} {e : Event} {f' : Option (Nat × Fate)}
    (h : subNext f e = some f') :
    (∃ r x, f = none ∧ e = .issued r x ∧ f' = some (r, .waiting))
      ∨ (∃ r x, f = some (r, .waiting) ∧ e = .fetchFailed r x ∧ f' = some (r, .failed))
      ∨ (∃ r x hd, f = some (r, .waiting) ∧ e = .acquired x hd ∧ f' = some (r, .held hd))
      ∨ (∃ r x, f = some (r, .waiting) ∧ e = .removed x ∧ f' = some (r, .removed))
      ∨ (∃ r x hd, f = some (r, .held hd) ∧ e = .callFailed x ∧ f' = some (r, .refused hd))
      ∨ (∃ r x hd, f = some (r, .held hd) ∧ e = .shardDone x ∧ f' = some (r, .answered hd))
      ∨ (∃ r x c, f = some (r, .answered (some c)) ∧ e = .released x c
        ∧ f' = some (r, .finished c)) := by
  unfold subNext at h
  split at h
  · cases h
    exact Or.inl ⟨_, _, rfl, rfl, rfl⟩
  · split at h
    · rename_i hr
      cases h
      rw [hr]
      exact Or.inr (Or.inl ⟨_, _, rfl, rfl, rfl⟩)
    · cases h
  · cases h
    exact Or.inr (Or.inr (Or.inl ⟨_, _, _, rfl, rfl, rfl⟩))
  · cases h
    exact Or.inr (Or.inr (Or.inr (Or.inl ⟨_, _, rfl, rfl, rfl⟩)))
  · cases h
    exact Or.inr (Or.inr (Or.inr (Or.inr (Or.inl ⟨_, _, _, rfl, rfl, rfl⟩))))
  · cases h
    exact Or.inr (Or.inr (Or.inr (Or.inr (Or.inr (Or.inl ⟨_, _, _, rfl, rfl, rfl⟩)))))
  · split at h
    · rename_i hc
      cases h
      rw [hc]
      exact Or.inr (Or.inr (Or.inr (Or.inr (Or.inr (Or.inr ⟨_, _, _, rfl, rfl, rfl⟩)))))
    · cases h
  · cases h

/-- How often an event of sub-request `x` has happened, told by its standing. -/
theorem count_of_standing {hist : List Event} (h : subLife.Lawful hist) {x : Nat} {e : Event}
    (weight : Option (Nat × Fate) → Nat) (he : subLife.about e = some x) (h0 : weight none = 0)
    (hstep : ∀ f e' f', subLife.about e' = some x → subNext f e' = some f' →
      weight f' = weight f + (if e' = e then 1 else 0)) :
    hist.count e = weight (subLife.life hist x) := by
  have hcount := h.countP_eq x (fun e' => e' = e) weight ?_ h0 ?_
  · exact hcount
  · intro e' he'
    rw [of_decide_eq_true he']
    exact he
  · intro f e' f' hx hf
    rw [hstep f e' f' hx hf]
    simp only [decide_eq_true_eq]

theorem count_issued {hist : List Event} (h : subLife.Lawful hist) (r x : Nat) :
    hist.count (.issued r x) = match subLife.life hist x with
      | some (r', _) => if r' = r then 1 else 0
      | none => 0 := by
  refine count_of_standing h (fun f => match f with
    | some (r', _) => if r' = r then 1 else 0
    | none => 0) rfl rfl ?_
  intro f e f' hx hf
  rcases subNext_cases hf with ⟨r', y, rfl, rfl, rfl⟩ | ⟨r', y, rfl, rfl, rfl⟩ |
    ⟨r', y, hd, rfl, rfl, rfl⟩ | ⟨r', y, rfl, rfl, rfl⟩ | ⟨r', y, hd, rfl, rfl, rfl⟩ |
    ⟨r', y, hd, rfl, rfl, rfl⟩ | ⟨r', y, c, rfl, rfl, rfl⟩
  · obtain rfl : y = x := Option.some.inj hx
    simp
  all_goals simp

theorem count_fetchFailed {hist : List Event} (h : subLife.Lawful hist) (r x : Nat) :
    hist.count (.fetchFailed r x) = match subLife.life hist x with
      | some (r', .failed) => if r' = r then 1 else 0
      | _ => 0 := by
  refine count_of_standing h (fun f => match f with
    | some (r', .failed) => if r' = r then 1 else 0
    | _ => 0) rfl rfl ?_
  intro f e f' hx hf
  rcases subNext_cases hf with ⟨r', y, rfl, rfl, rfl⟩ | ⟨r', y, rfl, rfl, rfl⟩ |
    ⟨r', y, hd, rfl, rfl, rfl⟩ | ⟨r', y, rfl, rfl, rfl⟩ | ⟨r', y, hd, rfl, rfl, rfl⟩ |
    ⟨r', y, hd, rfl, rfl, rfl⟩ | ⟨r', y, c, rfl, rfl, rfl⟩
  case inr.inl =>
    obtain rfl : y = x := Option.some.inj hx
    simp
  all_goals simp

theorem count_callFailed {hist : List Event} (h : subLife.Lawful hist) (x : Nat) :
    hist.count (.callFailed x) = match subLife.life hist x with
      | some (_, .refused _) => 1
      | _ => 0 := by
  refine count_of_standing h (fun f => match f with
    | some (_, .refused _) => 1
    | _ => 0) rfl rfl ?_
  intro f e f' hx hf
  rcases subNext_cases hf with ⟨r', y, rfl, rfl, rfl⟩ | ⟨r', y, rfl, rfl, rfl⟩ |
    ⟨r', y, hd, rfl, rfl, rfl⟩ | ⟨r', y, rfl, rfl, rfl⟩ | ⟨r', y, hd, rfl, rfl, rfl⟩ |
    ⟨r', y, hd, rfl, rfl, rfl⟩ | ⟨r', y, c, rfl, rfl, rfl⟩
  case inr.inr.inr.inr.inl =>
    obtain rfl : y = x := Option.some.inj hx
    simp
  all_goals simp

theorem count_shardDone {hist : List Event} (h : subLife.Lawful hist) (x : Nat) :
    hist.count (.shardDone x) = match subLife.life hist x with
      | some (_, .answered _) | some (_, .finished _) => 1
      | _ => 0 := by
  refine count_of_standing h (fun f => match f with
    | some (_, .answered _) | some (_, .finished _) => 1
    | _ => 0) rfl rfl ?_
  intro f e f' hx hf
  rcases subNext_cases hf with ⟨r', y, rfl, rfl, rfl⟩ | ⟨r', y, rfl, rfl, rfl⟩ |
    ⟨r', y, hd, rfl, rfl, rfl⟩ | ⟨r', y, rfl, rfl, rfl⟩ | ⟨r', y, hd, rfl, rfl, rfl⟩ |
    ⟨r', y, hd, rfl, rfl, rfl⟩ | ⟨r', y, c, rfl, rfl, rfl⟩
  case inr.inr.inr.inr.inr.inl =>
    obtain rfl : y = x := Option.some.inj hx
    simp
  all_goals simp

theorem count_acquired {hist : List Event} (h : subLife.Lawful hist) (x : Nat)
    (hd : Option ConnRef) : hist.count (.acquired x hd) = match subLife.life hist x with
      | some (_, .held hd') | some (_, .refused hd') | some (_, .answered hd') =>
          if hd' = hd then 1 else 0
      | some (_, .finished c) => if some c = hd then 1 else 0
      | _ => 0 := by
  refine count_of_standing h (fun f => match f with
    | some (_, .held hd') | some (_, .refused hd') | some (_, .answered hd') =>
        if hd' = hd then 1 else 0
    | some (_, .finished c) => if some c = hd then 1 else 0
    | _ => 0) rfl rfl ?_
  intro f e f' hx hf
  rcases subNext_cases hf with ⟨r', y, rfl, rfl, rfl⟩ | ⟨r', y, rfl, rfl, rfl⟩ |
    ⟨r', y, hd', rfl, rfl, rfl⟩ | ⟨r', y, rfl, rfl, rfl⟩ | ⟨r', y, hd', rfl, rfl, rfl⟩ |
    ⟨r', y, hd', rfl, rfl, rfl⟩ | ⟨r', y, c, rfl, rfl, rfl⟩
  case inr.inr.inl =>
    obtain rfl : y = x := Option.some.inj hx
    simp
  all_goals simp

theorem count_released {hist : List Event} (h : subLife.Lawful hist) (x : Nat) (c : ConnRef) :
    hist.count (.released x c) = match subLife.life hist x with
      | some (_, .finished c') => if c' = c then 1 else 0
      | _ => 0 := by
  refine count_of_standing h (fun f => match f with
    | some (_, .finished c') => if c' = c then 1 else 0
    | _ => 0) rfl rfl ?_
  intro f e f' hx hf
  rcases subNext_cases hf with ⟨r', y, rfl, rfl, rfl⟩ | ⟨r', y, rfl, rfl, rfl⟩ |
    ⟨r', y, hd, rfl, rfl, rfl⟩ | ⟨r', y, rfl, rfl, rfl⟩ | ⟨r', y, hd, rfl, rfl, rfl⟩ |
    ⟨r', y, hd, rfl, rfl, rfl⟩ | ⟨r', y, c', rfl, rfl, rfl⟩
  case inr.inr.inr.inr.inr.inr =>
    obtain rfl : y = x := Option.some.inj hx
    simp
  all_goals simp

/-! ## §2. Requests. -/

/-- The body of `req_done(r)` ran. -/
def Event.isDone (r : Nat) : Event → Bool
  | .done r' _ => r' = r
  | _ => false

/-- `req_done` has run for a request that stands at `answered`, and once. -/
theorem count_done {hist : List Event} (h : reqLife.Lawful hist) (r : Nat) :
    hist.countP (Event.isDone r) = match reqLife.life hist r with
      | .answered _ => 1
      | _ => 0 := by
  refine h.countP_eq r (Event.isDone r) (fun f => match f with
    | .answered _ => 1
    | _ => 0) ?_ rfl ?_
  · intro e he
    cases e with
    | done r' err => exact congrArg some (of_decide_eq_true he)
    | _ => cases he
  · intro f e f' hr hf
    cases f <;> cases e <;> cases hf <;> cases hr <;> simp [Event.isDone]

/-- Its time was over before that. -/
theorem count_timeout {hist : List Event} (h : reqLife.Lawful hist) (r : Nat) :
    hist.count (.timeout r) = match reqLife.life hist r with
      | .late => 1
      | .answered true => 1
      | _ => 0 := by
  refine h.countP_eq r (fun e => e = .timeout r) (fun f => match f with
    | .late => 1
    | .answered true => 1
    | _ => 0) ?_ rfl ?_
  · intro e he
    rw [of_decide_eq_true he]
    rfl
  · intro f e f' hr hf
    cases f <;> cases e <;> cases hf <;> cases hr <;> simp

theorem count_ready {hist : List Event} (h : reqLife.Lawful hist) (r : Nat) :
    hist.count (.ready r) = match reqLife.life hist r with
      | .unborn => 0
      | _ => 1 := by
  refine h.countP_eq r (fun e => e = .ready r) (fun f => match f with
    | .unborn => 0
    | _ => 1) ?_ rfl ?_
  · intro e he
    rw [of_decide_eq_true he]
    rfl
  · intro f e f' hr hf
    cases f <;> cases e <;> cases hf <;> cases hr <;> simp

/-! ## §3. What the invariant adds. -/

section Invariant

variable {t : ReqTable ν} {L : Nat → List Nat} {v : View}

theorem TableInv.issued_iff (h : TableInv t L v none none) (r x : Nat) :
    .issued r x ∈ t.hist ↔ ∃ f, t.fate x = some (r, f) := by
  rw [← List.count_pos_iff, count_issued h.lawful]
  show 0 < (match t.fate x with
    | some (r', _) => if r' = r then 1 else 0
    | none => 0) ↔ _
  cases hf : t.fate x with
  | none => simp
  | some p =>
      obtain ⟨r', f⟩ := p
      by_cases hr : r' = r
      · simp [hr]
      · simp [hr]

/-- **A request that has been answered** is freed, and its sub-requests are
settled; complete, if its time was not over. -/
theorem TableInv.answered (h : TableInv t L v none none) {r : Nat} {err : Int}
    (hdone : .done r err ∈ t.hist) : ∃ late, t.reqFate r = .answered late ∧ t.reqs r = none
      ∧ t.handler.todo r = 0
      ∧ ∀ x f, t.fate x = some (r, f) → f.Settled ∧ (late = false → f.Complete) := by
  have hpos : 0 < t.hist.countP (Event.isDone r) :=
    List.countP_pos_iff.2 ⟨_, hdone, decide_eq_true rfl⟩
  have hfate := count_done h.reqLawful r
  obtain ⟨late, hlate⟩ : ∃ late, t.reqFate r = .answered late := by
    rw [hfate] at hpos
    cases hcase : reqLife.life t.hist r with
    | answered late => exact ⟨late, hcase⟩
    | _ =>
        rw [hcase] at hpos
        exact absurd hpos (Nat.lt_irrefl 0)
  refine ⟨late, hlate, ?_⟩
  cases h.req r with
  | running q _ _ _ _ h5 _ _ =>
      rw [hlate] at h5
      cases h5
  | late q _ _ _ h4 _ =>
      rw [hlate] at h4
      cases h4
  | gone h1 h2 _ _ =>
      refine ⟨h1, h2, ?_⟩
      intro x f hf
      cases h.sub x with
      | unborn h1' _ _ =>
          rw [hf] at h1'
          cases h1'
      | gone r' f' late' h1' _ h3' _ _ h6' h7' =>
          rw [hf] at h1'
          cases h1'
          rw [hlate] at h3'
          cases h3'
          exact ⟨h6', h7'⟩
      | alive r' f' q h1' h2' _ _ _ _ =>
          rw [hf] at h1'
          cases h1'
          rw [h1] at h2'
          cases h2'

end Invariant

end RedisAgent
