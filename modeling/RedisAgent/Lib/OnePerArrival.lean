/-
  RedisAgent.Lib.OnePerArrival — a server that wakes up only when input arrives,
  and then serves at most one item.

  Items of given sizes come one after the other on a stream, which is cut into
  arrivals in any way.  At each arrival the server serves the next item if all of
  it is there.  It serves them all exactly when, for every item, enough arrivals
  end at or after the item's end: one for it, and one for each item after it.
-/
import Mathlib.Algebra.GroupWithZero.Nat
import Mathlib.Data.List.Basic

namespace RedisAgent

/-- The sizes of the items still to be served and the amount buffered, after an
arrival of size `a`. -/
def onArrival : List Nat × Nat → Nat → List Nat × Nat
  | ([], b), a => ([], b + a)
  | (s :: sizes, b), a => if s ≤ b + a then (sizes, b + a - s) else (s :: sizes, b + a)

/-- How much has arrived by the end of each arrival, when `b` was there before. -/
def arrivalEnds : Nat → List Nat → List Nat
  | _, [] => []
  | b, a :: as => (b + a) :: arrivalEnds (b + a) as

/-- Where item `i` ends on the stream. -/
def itemEnd (sizes : List Nat) (i : Nat) : Nat := (sizes.take (i + 1)).sum

/-- For every item there are enough arrivals at or after its end. -/
def EnoughArrivals (sizes : List Nat) (b : Nat) (arrivals : List Nat) : Prop :=
  ∀ i, i < sizes.length →
    sizes.length - i ≤ (arrivalEnds b arrivals).countP (fun e => itemEnd sizes i ≤ e)

instance (sizes : List Nat) (b : Nat) (arrivals : List Nat) :
    Decidable (EnoughArrivals sizes b arrivals) := by
  unfold EnoughArrivals
  infer_instance

theorem itemEnd_zero (s : Nat) (sizes : List Nat) : itemEnd (s :: sizes) 0 = s := by
  simp [itemEnd]

theorem itemEnd_succ (s : Nat) (sizes : List Nat) (i : Nat) :
    itemEnd (s :: sizes) (i + 1) = s + itemEnd sizes i := by
  simp [itemEnd]

/-- Everything buffered before shifts all ends alike. -/
theorem arrivalEnds_add (s : Nat) (arrivals : List Nat) :
    ∀ b, arrivalEnds (b + s) arrivals = (arrivalEnds b arrivals).map (· + s) := by
  induction arrivals with
  | nil => intro b; rfl
  | cons a as ih =>
      intro b
      have hcomm : b + s + a = b + a + s := by omega
      show (b + s + a) :: arrivalEnds (b + s + a) as
        = (b + a + s) :: (arrivalEnds (b + a) as).map (· + s)
      rw [hcomm, ih (b + a)]

theorem arrivalEnds_length (arrivals : List Nat) :
    ∀ b, (arrivalEnds b arrivals).length = arrivals.length := by
  induction arrivals with
  | nil => intro b; rfl
  | cons a as ih =>
      intro b
      show (arrivalEnds (b + a) as).length + 1 = as.length + 1
      rw [ih]

/-- No arrival ends before what was buffered at the start. -/
theorem le_of_mem_arrivalEnds (arrivals : List Nat) :
    ∀ b, ∀ e ∈ arrivalEnds b arrivals, b ≤ e := by
  induction arrivals with
  | nil =>
      intro b e he
      cases he
  | cons a as ih =>
      intro b e he
      rcases List.mem_cons.1 he with he | he
      · omega
      · have := ih (b + a) e he
        omega

/-- An item that is already there waits for no particular arrival. -/
theorem countP_arrivalEnds_of_le {b e : Nat} (h : e ≤ b) (arrivals : List Nat) :
    (arrivalEnds b arrivals).countP (fun x => e ≤ x) = arrivals.length := by
  rw [← arrivalEnds_length arrivals b, List.countP_eq_length]
  intro x hx
  have := le_of_mem_arrivalEnds arrivals b x hx
  simp only [decide_eq_true_eq]
  omega

/-- What counting from one item further on means. -/
theorem countP_arrivalEnds_shift {s b : Nat} (e : Nat) (h : s ≤ b) (arrivals : List Nat) :
    (arrivalEnds (b - s) arrivals).countP (fun x => e ≤ x)
      = (arrivalEnds b arrivals).countP (fun x => s + e ≤ x) := by
  have hb : b = b - s + s := by omega
  rw [hb, arrivalEnds_add, List.countP_map, ← hb]
  apply List.countP_congr
  intro x _
  simp only [Function.comp_apply, decide_eq_true_eq]
  omega

/-- **All items are served exactly when enough arrivals come.** -/
theorem served_all_iff (arrivals : List Nat) :
    ∀ (sizes : List Nat) (b : Nat),
      (arrivals.foldl onArrival (sizes, b)).1 = [] ↔ EnoughArrivals sizes b arrivals := by
  induction arrivals with
  | nil =>
      intro sizes b
      show sizes = [] ↔ _
      constructor
      · intro hs i hi
        rw [hs] at hi
        cases hi
      · intro hall
        by_contra hne
        have hpos := List.length_pos_of_ne_nil hne
        have h0 := hall 0 hpos
        have hzero : (arrivalEnds b []).countP (fun e => itemEnd sizes 0 ≤ e) = 0 := rfl
        omega
  | cons a as ih =>
      intro sizes b
      rw [List.foldl_cons]
      cases sizes with
      | nil =>
          show (as.foldl onArrival ([], b + a)).1 = [] ↔ _
          rw [ih]
          constructor
          · intro _ i hi
            cases hi
          · intro _ i hi
            cases hi
      | cons s sizes =>
          have hends : arrivalEnds b (a :: as) = (b + a) :: arrivalEnds (b + a) as := rfl
          by_cases hs : s ≤ b + a
          · -- the first item is served now, and the others by later arrivals
            have hstep : onArrival (s :: sizes, b) a = (sizes, b + a - s) := if_pos hs
            rw [hstep, ih]
            have hfirst := countP_arrivalEnds_of_le hs as
            constructor
            · intro hall i hi
              rw [hends, List.countP_cons]
              cases i with
              | zero =>
                  rw [itemEnd_zero, hfirst]
                  simp only [hs, decide_true, if_true, List.length_cons]
                  cases hz : sizes with
                  | nil =>
                      rw [List.length_nil]
                      omega
                  | cons r rest =>
                      have hpos : 0 < sizes.length := by
                        rw [hz]
                        exact Nat.succ_pos _
                      have h1 := hall 0 hpos
                      have hle := List.countP_le_length (p := fun e => decide (itemEnd sizes 0 ≤ e))
                        (l := arrivalEnds (b + a - s) as)
                      rw [arrivalEnds_length] at hle
                      rw [← hz]
                      omega
              | succ i =>
                  rw [List.length_cons] at hi ⊢
                  have h1 := hall i (by omega)
                  rw [countP_arrivalEnds_shift _ hs] at h1
                  rw [itemEnd_succ]
                  omega
            · intro hall i hi
              have h1 := hall (i + 1) (by rw [List.length_cons]; omega)
              have h0 := hall 0 (by rw [List.length_cons]; omega)
              rw [hends, List.countP_cons, itemEnd_zero, hfirst] at h0
              rw [hends, List.countP_cons, itemEnd_succ] at h1
              simp only [hs, decide_true, if_true, List.length_cons] at h0
              rw [List.length_cons] at h1
              rw [countP_arrivalEnds_shift _ hs]
              by_cases hi' : s + itemEnd sizes i ≤ b + a
              · -- item `i` is there already, so every later arrival counts for it
                rw [countP_arrivalEnds_of_le hi']
                omega
              · simp only [hi', decide_false, Bool.false_eq_true, if_false] at h1
                omega
          · -- nothing is served: this arrival ends before every item does
            have hstep : onArrival (s :: sizes, b) a = (s :: sizes, b + a) := if_neg hs
            rw [hstep, ih]
            have hlate : ∀ i, ¬ itemEnd (s :: sizes) i ≤ b + a := by
              intro i hle
              cases i with
              | zero =>
                  rw [itemEnd_zero] at hle
                  exact hs hle
              | succ i =>
                  rw [itemEnd_succ] at hle
                  omega
            constructor
            · intro hall i hi
              rw [hends, List.countP_cons]
              simp only [hlate i, decide_false, Bool.false_eq_true, if_false]
              exact hall i hi
            · intro hall i hi
              have h1 := hall i hi
              rw [hends, List.countP_cons] at h1
              simp only [hlate i, decide_false, Bool.false_eq_true, if_false] at h1
              exact h1

end RedisAgent
