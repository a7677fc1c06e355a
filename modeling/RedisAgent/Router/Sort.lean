/-
  RedisAgent.Router.Sort — `_quicksort` of router.cpp.

  The array `backend_req` is a map from `int` indices to requests, each in the place of
  the pointer to it; `Shuffle` rearranges the indices, so the pointers.  One element,
  `tmp`, is held in a variable while the two inner loops move others over the
  hole it left; `Shuffle.moveHole` follows the hole.  Every loop is a recursion
  on the distance between its two indices, and `_quicksort` on the length of its
  stretch, so all of them are total.

  `quicksortIn` is the same code with every index checked against `start .. end`; it
  fails where one lies outside.

  Main results: `quicksort_shuffle` (a rearrangement of the stretch, nothing else
  touched), `quicksort_sorted`, and `quicksort_in_place` (no index is ever outside).
-/
import RedisAgent.Lib.Shuffle

namespace RedisAgent

/-- `backend_req_t`; the type of what `value` points to is left open. -/
structure BackendReq (ν : Type*) where
  key : List UInt8
  value : ν
  shardKey : Int
  deriving Repr, DecidableEq

variable {ν : Type*}

/-! ## §1. The code. -/

/-- `while (l < r && tmp->shard_key <= backend_req[r]->shard_key) r--;` from
`r = l + n` on: the final `r`. -/
def scanDown (m : Int → BackendReq ν) (t l : Int) : Nat → Int
  | 0 => l
  | n + 1 => if t ≤ (m (l + (n + 1 : Nat))).shardKey then scanDown m t l n else l + (n + 1 : Nat)

/-- `while (l < r && tmp->shard_key >= backend_req[l]->shard_key) l++;` from
`l = r - n` on: the final `l`. -/
def scanUp (m : Int → BackendReq ν) (t r : Int) : Nat → Int
  | 0 => r
  | n + 1 => if (m (r - (n + 1 : Nat))).shardKey ≤ t then scanUp m t r n else r - (n + 1 : Nat)

theorem scanDown_bounds (m : Int → BackendReq ν) (t l : Int) (n : Nat) :
    l ≤ scanDown m t l n ∧ scanDown m t l n ≤ l + n := by
  induction n with
  | zero =>
      show l ≤ l ∧ l ≤ l + (0 : Nat)
      omega
  | succ n ih =>
      unfold scanDown
      split <;> omega

theorem scanUp_bounds (m : Int → BackendReq ν) (t r : Int) (n : Nat) :
    r - n ≤ scanUp m t r n ∧ scanUp m t r n ≤ r := by
  induction n with
  | zero =>
      show r - (0 : Nat) ≤ r ∧ r ≤ r
      omega
  | succ n ih =>
      unfold scanUp
      split <;> omega

/-- Where the downward scan stops above `l`, the element is smaller. -/
theorem scanDown_stop (m : Int → BackendReq ν) (t l : Int) (n : Nat) :
    scanDown m t l n = l ∨ (m (scanDown m t l n)).shardKey < t := by
  induction n with
  | zero => exact Or.inl rfl
  | succ n ih =>
      unfold scanDown
      split
      · exact ih
      · right
        omega

/-- Where the upward scan stops below `r`, the element is greater. -/
theorem scanUp_stop (m : Int → BackendReq ν) (t r : Int) (n : Nat) :
    scanUp m t r n = r ∨ t < (m (scanUp m t r n)).shardKey := by
  induction n with
  | zero => exact Or.inl rfl
  | succ n ih =>
      unfold scanUp
      split
      · exact ih
      · right
        omega

/-- Each pass of the outer loop brings the two indices closer: if `r` does not
move, the element it is on is smaller than `tmp`, so `l` moves past it. -/
theorem partition_decreases (m : Int → BackendReq ν) (t l r : Int) (h : l < r) :
    scanDown m t l (r - l).toNat
        - scanUp (Function.update m l (m (scanDown m t l (r - l).toNat))) t
            (scanDown m t l (r - l).toNat) (scanDown m t l (r - l).toNat - l).toNat
      < r - l := by
  have hd := scanDown_bounds m t l (r - l).toNat
  have hstop := scanDown_stop m t l (r - l).toNat
  generalize scanDown m t l (r - l).toNat = r' at hd hstop ⊢
  have hu := scanUp_bounds (Function.update m l (m r')) t r' (r' - l).toNat
  have hstop' := scanUp_stop (Function.update m l (m r')) t r' (r' - l).toNat
  generalize scanUp (Function.update m l (m r')) t r' (r' - l).toNat = l' at hu hstop' ⊢
  by_cases hll : l' = l
  · subst hll
    rw [Function.update_self] at hstop'
    omega
  · omega

/-- The outer `while (l < r)` loop: the array it leaves, and `r`. -/
def partitionLoop (m : Int → BackendReq ν) (tmp : BackendReq ν) (l r : Int) :
    (Int → BackendReq ν) × Int :=
  if _h : l < r then
    let r' := scanDown m tmp.shardKey l (r - l).toNat
    let m' := Function.update m l (m r')
    let l' := scanUp m' tmp.shardKey r' (r' - l).toNat
    partitionLoop (Function.update m' r' (m' l')) tmp l' r'
  else (m, r)
  termination_by (r - l).toNat
  decreasing_by
    have hdec := partition_decreases m tmp.shardKey l r _h
    have _hd := scanDown_bounds m tmp.shardKey l (r - l).toNat
    omega

/-- The loop goes on after one pass. -/
theorem partitionLoop_pass {m m' : Int → BackendReq ν} {tmp : BackendReq ν} {l r r' l' : Int}
    (h : l < r) (hr' : scanDown m tmp.shardKey l (r - l).toNat = r')
    (hm' : Function.update m l (m r') = m') (hl' : scanUp m' tmp.shardKey r' (r' - l).toNat = l') :
    partitionLoop m tmp l r = partitionLoop (Function.update m' r' (m' l')) tmp l' r' := by
  subst hr' hm' hl'
  rw [partitionLoop, dif_pos h]

/-- What the partition loop leaves of `m₀` in the stretch `a .. b`: `tmp` belongs
at `r`, everything before it is at most as great, everything after it at least. -/
structure Partitioned (m₀ : Int → BackendReq ν) (tmp : BackendReq ν) (a b l r : Int)
    (m : Int → BackendReq ν) (hole : Int) : Prop where
  shuffle : Shuffle a b m₀ (Function.update m hole tmp)
  below : ∀ i, a ≤ i → i < l → (m i).shardKey ≤ tmp.shardKey
  above : ∀ i, r < i → i ≤ b → tmp.shardKey ≤ (m i).shardKey

/-- One pass of the partition loop. -/
theorem Partitioned.pass {m₀ m : Int → BackendReq ν} {tmp : BackendReq ν} {a b l r : Int}
    (h : Partitioned m₀ tmp a b l r m l) (ha : a ≤ l) (hlr : l < r) (hb : r ≤ b) {r' l' : Int}
    {m' : Int → BackendReq ν} (hr' : r' = scanDown m tmp.shardKey l (r - l).toNat)
    (hm' : m' = Function.update m l (m r'))
    (hl' : l' = scanUp m' tmp.shardKey r' (r' - l).toNat) :
    Partitioned m₀ tmp a b l' r' (Function.update m' r' (m' l')) l' := by
  have hd := scanDown_bounds m tmp.shardKey l (r - l).toNat
  have hu := scanUp_bounds m' tmp.shardKey r' (r' - l).toNat
  rw [← hr'] at hd
  rw [← hl'] at hu
  -- what the two scans have passed over
  have hdown : ∀ n : Nat, ∀ i, scanDown m tmp.shardKey l n < i → i ≤ l + n →
      tmp.shardKey ≤ (m i).shardKey := by
    intro n
    induction n with
    | zero =>
        intro i hlo hhi
        have : scanDown m tmp.shardKey l 0 = l := rfl
        omega
    | succ n ih =>
        intro i hlo hhi
        unfold scanDown at hlo
        split at hlo
        · rename_i hle
          by_cases hi : i = l + (n + 1 : Nat)
          · rw [hi]
            exact hle
          · exact ih i hlo (by omega)
        · omega
  have hup : ∀ n : Nat, ∀ i, r' - n ≤ i → i < scanUp m' tmp.shardKey r' n →
      (m' i).shardKey ≤ tmp.shardKey := by
    intro n
    induction n with
    | zero =>
        intro i hlo hhi
        have : scanUp m' tmp.shardKey r' 0 = r' := rfl
        omega
    | succ n ih =>
        intro i hlo hhi
        unfold scanUp at hhi
        split at hhi
        · rename_i hle
          by_cases hi : i = r' - (n + 1 : Nat)
          · rw [hi]
            exact hle
          · exact ih i (by omega) hhi
        · omega
  refine ⟨?_, ?_, ?_⟩
  · have h1 := h.shuffle.moveHole (j := r') ⟨ha, by omega⟩ ⟨by omega, by omega⟩
    rw [← hm'] at h1
    exact h1.moveHole ⟨by omega, by omega⟩ ⟨by omega, by omega⟩
  · intro i hai hil
    have hir : i ≠ r' := by omega
    rw [Function.update_of_ne hir]
    by_cases hil' : i < l
    · have hne : i ≠ l := by omega
      rw [hm', Function.update_of_ne hne]
      exact h.below i hai hil'
    · exact hup (r' - l).toNat i (by omega) (by omega)
  · intro i hri hib
    have hir : i ≠ r' := by omega
    have hil : i ≠ l := by omega
    rw [Function.update_of_ne hir, hm', Function.update_of_ne hil]
    by_cases hir' : r < i
    · exact h.above i hir' hib
    · exact hdown (r - l).toNat i (by omega) (by omega)

/-- The partition loop, run to its end. -/
theorem partitionLoop_spec {m₀ : Int → BackendReq ν} {a b : Int} (tmp : BackendReq ν)
    (m : Int → BackendReq ν) (l r : Int) (ha : a ≤ l) (hlr : l ≤ r) (hb : r ≤ b)
    (h : Partitioned m₀ tmp a b l r m l) :
    l ≤ (partitionLoop m tmp l r).2 ∧ (partitionLoop m tmp l r).2 ≤ r
      ∧ Partitioned m₀ tmp a b (partitionLoop m tmp l r).2 (partitionLoop m tmp l r).2
          (partitionLoop m tmp l r).1 (partitionLoop m tmp l r).2 := by
  induction m, l, r using partitionLoop.induct tmp with
  | case1 m l r hlt r' m' l' ih =>
      have hd := scanDown_bounds m tmp.shardKey l (r - l).toNat
      have hu := scanUp_bounds m' tmp.shardKey r' (r' - l).toNat
      have hr' : r' = scanDown m tmp.shardKey l (r - l).toNat := rfl
      have hl' : l' = scanUp m' tmp.shardKey r' (r' - l).toNat := rfl
      have hpass := h.pass ha hlt hb hr' rfl hl'
      obtain ⟨h1, h2, h3⟩ := ih (by omega) (by omega) (by omega) hpass
      rw [partitionLoop, dif_pos hlt]
      show l ≤ (partitionLoop (Function.update m' r' (m' l')) tmp l' r').2
        ∧ (partitionLoop (Function.update m' r' (m' l')) tmp l' r').2 ≤ r ∧ _
      exact ⟨by omega, by omega, h3⟩
  | case2 m l r hge =>
      have heq : l = r := by omega
      subst heq
      rw [partitionLoop, dif_neg hge]
      exact ⟨Int.le_refl _, Int.le_refl _, h⟩

/-- The loop of `_quicksort` starts with `tmp` at its own place. -/
theorem Partitioned.start (m : Int → BackendReq ν) (a b : Int) :
    Partitioned m (m a) a b a b m a := by
  refine ⟨?_, ?_, ?_⟩
  · rw [Function.update_eq_self]
    exact Shuffle.refl a b m
  · intro i h1 h2
    omega
  · intro i h1 h2
    omega

/-- `_quicksort` -/
def quicksort (m : Int → BackendReq ν) (start stop : Int) : Int → BackendReq ν :=
  if h : start ≥ stop then m
  else
    let tmp := m start
    let p := partitionLoop m tmp start stop
    quicksort (quicksort (Function.update p.1 p.2 tmp) start (p.2 - 1)) (p.2 + 1) stop
  termination_by (stop - start).toNat
  decreasing_by
    all_goals
      have hp := partitionLoop_spec (m start) m start stop (Int.le_refl _) (by omega) (Int.le_refl _)
        (Partitioned.start m start stop)
      omega

/-! ## §2. What it does. -/

/-- `m` is in order from `a` to `b`. -/
def SortedOn (m : Int → BackendReq ν) (a b : Int) : Prop :=
  ∀ i j, a ≤ i → i ≤ j → j ≤ b → (m i).shardKey ≤ (m j).shardKey

/-- `_quicksort` rearranges its stretch and puts it in order. -/
theorem quicksort_spec (m : Int → BackendReq ν) (start stop : Int) :
    Shuffle start stop m (quicksort m start stop) ∧ SortedOn (quicksort m start stop) start stop := by
  induction m, start, stop using quicksort.induct with
  | case1 m start stop hge =>
      rw [quicksort, dif_pos hge]
      refine ⟨Shuffle.refl _ _ m, ?_⟩
      intro i j hi hij hj
      have heq : i = j := by omega
      exact Int.le_of_eq (by rw [heq])
  | case2 m start stop hlt tmp p ih1 _ ih2 =>
      rw [quicksort, dif_neg hlt]
      obtain ⟨hp1, hp2, hpart⟩ := partitionLoop_spec (m start) m start stop (Int.le_refl _) (by omega)
        (Int.le_refl _) (Partitioned.start m start stop)
      have hshuf : Shuffle start stop m (Function.update p.1 p.2 tmp) := hpart.shuffle
      have hbelow : ∀ i, start ≤ i → i < p.2 → (p.1 i).shardKey ≤ tmp.shardKey := hpart.below
      have habove : ∀ i, p.2 < i → i ≤ stop → tmp.shardKey ≤ (p.1 i).shardKey := hpart.above
      have hq1 : start ≤ p.2 := hp1
      have hq2 : p.2 ≤ stop := hp2
      show Shuffle start stop m
          (quicksort (quicksort (Function.update p.1 p.2 tmp) start (p.2 - 1)) (p.2 + 1) stop)
        ∧ SortedOn
          (quicksort (quicksort (Function.update p.1 p.2 tmp) start (p.2 - 1)) (p.2 + 1) stop)
          start stop
      generalize quicksort (Function.update p.1 p.2 tmp) start (p.2 - 1) = m₁ at ih1 ih2 ⊢
      generalize quicksort m₁ (p.2 + 1) stop = m₂ at ih2 ⊢
      obtain ⟨hs1, hsort1⟩ := ih1
      obtain ⟨hs2, hsort2⟩ := ih2
      have hs1' := hs1.mono (Int.le_refl start) (show p.2 - 1 ≤ stop by omega)
      have hs2' := hs2.mono (show start ≤ p.2 + 1 by omega) (Int.le_refl stop)
      refine ⟨(hshuf.trans hs1').trans hs2', ?_⟩
      -- the pivot stays where the partition put it
      have hpivot : m₂ p.2 = tmp := by
        rw [hs2.eq_off (Or.inl (by omega)), hs1.eq_off (Or.inr (by omega)), Function.update_self]
      have hlow : ∀ i, start ≤ i → i < p.2 → m₂ i = m₁ i := fun i _ hi =>
        hs2.eq_off (Or.inl (by omega))
      have hle1 : ∀ i, start ≤ i → i ≤ p.2 - 1 → (m₁ i).shardKey ≤ tmp.shardKey := by
        apply hs1.forall_of (P := fun x => x.shardKey ≤ tmp.shardKey)
        intro k hk1 hk2
        have hne : k ≠ p.2 := by omega
        rw [Function.update_of_ne hne]
        exact hbelow k hk1 (by omega)
      have hge2 : ∀ i, p.2 + 1 ≤ i → i ≤ stop → tmp.shardKey ≤ (m₂ i).shardKey := by
        apply hs2.forall_of (P := fun x => tmp.shardKey ≤ x.shardKey)
        intro k hk1 hk2
        have hne : k ≠ p.2 := by omega
        rw [hs1.eq_off (Or.inr (by omega)), Function.update_of_ne hne]
        exact habove k (by omega) hk2
      intro i j hi hij hj
      rcases Int.lt_trichotomy i p.2 with hip | hip | hip
      · rw [hlow i hi hip]
        rcases Int.lt_trichotomy j p.2 with hjp | hjp | hjp
        · rw [hlow j (by omega) hjp]
          exact hsort1 i j hi hij (by omega)
        · rw [hjp, hpivot]
          exact hle1 i hi (by omega)
        · exact Int.le_trans (hle1 i hi (by omega)) (hge2 j (by omega) hj)
      · rw [hip, hpivot]
        by_cases hjp : j = p.2
        · exact Int.le_of_eq (by rw [hjp, hpivot])
        · exact hge2 j (by omega) hj
      · exact hsort2 i j (by omega) hij hj

theorem quicksort_shuffle (m : Int → BackendReq ν) (start stop : Int) :
    Shuffle start stop m (quicksort m start stop) := (quicksort_spec m start stop).1

theorem quicksort_sorted (m : Int → BackendReq ν) (start stop : Int) :
    SortedOn (quicksort m start stop) start stop := (quicksort_spec m start stop).2

/-! ## §3. Every index is in the stretch. -/

/-- Reading `backend_req[i]`, where `a .. b` may be touched. -/
def readIn (a b : Int) (m : Int → BackendReq ν) (i : Int) : Option (BackendReq ν) :=
  if a ≤ i ∧ i ≤ b then some (m i) else none

/-- Writing `backend_req[i]`, where `a .. b` may be touched. -/
def writeIn (a b : Int) (m : Int → BackendReq ν) (i : Int) (x : BackendReq ν) :
    Option (Int → BackendReq ν) :=
  if a ≤ i ∧ i ≤ b then some (Function.update m i x) else none

/-- `scanDown`, each index checked. -/
def scanDownIn (a b : Int) (m : Int → BackendReq ν) (t l : Int) : Nat → Option Int
  | 0 => some l
  | n + 1 =>
      (readIn a b m (l + (n + 1 : Nat))).bind fun x =>
        if t ≤ x.shardKey then scanDownIn a b m t l n else some (l + (n + 1 : Nat))

/-- `scanUp`, each index checked. -/
def scanUpIn (a b : Int) (m : Int → BackendReq ν) (t r : Int) : Nat → Option Int
  | 0 => some r
  | n + 1 =>
      (readIn a b m (r - (n + 1 : Nat))).bind fun x =>
        if x.shardKey ≤ t then scanUpIn a b m t r n else some (r - (n + 1 : Nat))

/-- The outer `while (l < r)` loop, each index checked, for so many passes. -/
def partitionIn (a b : Int) (tmp : BackendReq ν) :
    Nat → (Int → BackendReq ν) → Int → Int → Option ((Int → BackendReq ν) × Int)
  | 0, m, l, r => if l < r then none else some (m, r)
  | fuel + 1, m, l, r =>
      if l < r then
        (scanDownIn a b m tmp.shardKey l (r - l).toNat).bind fun r' =>
          (readIn a b m r').bind fun x =>
            (writeIn a b m l x).bind fun m =>
              (scanUpIn a b m tmp.shardKey r' (r' - l).toNat).bind fun l' =>
                (readIn a b m l').bind fun x =>
                  (writeIn a b m r' x).bind fun m => partitionIn a b tmp fuel m l' r'
      else some (m, r)

/-- `_quicksort`, each index checked, for so many calls inside each other. -/
def quicksortIn : Nat → (Int → BackendReq ν) → Int → Int → Option (Int → BackendReq ν)
  | 0, m, start, stop => if start ≥ stop then some m else none
  | fuel + 1, m, start, stop =>
      if start ≥ stop then some m
      else
        (readIn start stop m start).bind fun tmp =>
          (partitionIn start stop tmp (stop - start).toNat m start stop).bind fun p =>
            (writeIn start stop p.1 p.2 tmp).bind fun m =>
              (quicksortIn fuel m start (p.2 - 1)).bind fun m => quicksortIn fuel m (p.2 + 1) stop

section Bounds

variable {a b l r : Int} {m : Int → BackendReq ν}

theorem readIn_eq {i : Int} (ha : a ≤ i) (hb : i ≤ b) : readIn a b m i = some (m i) :=
  if_pos ⟨ha, hb⟩

theorem writeIn_eq {i : Int} (ha : a ≤ i) (hb : i ≤ b) (x : BackendReq ν) :
    writeIn a b m i x = some (Function.update m i x) :=
  if_pos ⟨ha, hb⟩

theorem scanDownIn_eq (t : Int) (ha : a ≤ l) : ∀ n : Nat, l + n ≤ b →
    scanDownIn a b m t l n = some (scanDown m t l n) := by
  intro n
  induction n with
  | zero => exact fun _ => rfl
  | succ n ih =>
      intro hb
      unfold scanDownIn scanDown
      rw [readIn_eq (by omega) hb, Option.bind_some]
      split
      · exact ih (by omega)
      · rfl

theorem scanUpIn_eq (t : Int) (hb : r ≤ b) : ∀ n : Nat, a ≤ r - n →
    scanUpIn a b m t r n = some (scanUp m t r n) := by
  intro n
  induction n with
  | zero => exact fun _ => rfl
  | succ n ih =>
      intro ha
      unfold scanUpIn scanUp
      rw [readIn_eq ha (by omega), Option.bind_some]
      split
      · exact ih (by omega)
      · rfl

/-- The partition loop stays in its stretch, and ends after at most `r - l` passes. -/
theorem partitionIn_eq (tmp : BackendReq ν) (fuel : Nat) :
    ∀ (m : Int → BackendReq ν) (l r : Int), a ≤ l → r ≤ b → (r - l).toNat ≤ fuel →
      partitionIn a b tmp fuel m l r = some (partitionLoop m tmp l r) := by
  induction fuel with
  | zero =>
      intro m l r _ _ hfuel
      have hge : ¬ l < r := by omega
      rw [partitionLoop, dif_neg hge, partitionIn, if_neg hge]
  | succ fuel ih =>
      intro m l r ha hb hfuel
      by_cases hlt : l < r
      · have hd := scanDown_bounds m tmp.shardKey l (r - l).toNat
        have hdec := partition_decreases m tmp.shardKey l r hlt
        rw [partitionIn, if_pos hlt, scanDownIn_eq tmp.shardKey ha _ (by omega), Option.bind_some]
        generalize hr' : scanDown m tmp.shardKey l (r - l).toNat = r' at hd hdec ⊢
        generalize hm' : Function.update m l (m r') = m' at hdec
        have hu := scanUp_bounds m' tmp.shardKey r' (r' - l).toNat
        rw [readIn_eq (by omega) (by omega), Option.bind_some, writeIn_eq ha (by omega),
          Option.bind_some, hm', scanUpIn_eq tmp.shardKey (by omega) _ (by omega), Option.bind_some]
        generalize hl' : scanUp m' tmp.shardKey r' (r' - l).toNat = l' at hu hdec ⊢
        rw [readIn_eq (by omega) (by omega), Option.bind_some, writeIn_eq (by omega) (by omega),
          Option.bind_some, partitionLoop_pass hlt hr' hm' hl']
        exact ih _ l' r' (by omega) (by omega) (by omega)
      · rw [partitionLoop, dif_neg hlt, partitionIn, if_neg hlt]

/-- **`_quicksort` stays in its stretch**, and its calls end. -/
theorem quicksortIn_eq (fuel : Nat) : ∀ (m : Int → BackendReq ν) (start stop : Int),
    (stop - start).toNat ≤ fuel → quicksortIn fuel m start stop = some (quicksort m start stop) := by
  induction fuel with
  | zero =>
      intro m start stop hfuel
      have hge : start ≥ stop := by omega
      rw [quicksort, dif_pos hge, quicksortIn, if_pos hge]
  | succ fuel ih =>
      intro m start stop hfuel
      by_cases hge : start ≥ stop
      · rw [quicksort, dif_pos hge, quicksortIn, if_pos hge]
      · obtain ⟨hp, hp', -⟩ := partitionLoop_spec (m start) m start stop (Int.le_refl _) (by omega)
          (Int.le_refl _) (Partitioned.start m start stop)
        rw [quicksort, dif_neg hge, quicksortIn, if_neg hge, readIn_eq (Int.le_refl _) (by omega),
          Option.bind_some,
          partitionIn_eq (m start) _ m start stop (Int.le_refl _) (Int.le_refl _) (Nat.le_refl _),
          Option.bind_some]
        show _ = some (quicksort (quicksort (Function.update (partitionLoop m (m start) start stop).1
          (partitionLoop m (m start) start stop).2 (m start)) start
            ((partitionLoop m (m start) start stop).2 - 1))
          ((partitionLoop m (m start) start stop).2 + 1) stop)
        generalize partitionLoop m (m start) start stop = p at hp hp' ⊢
        rw [writeIn_eq hp hp', Option.bind_some, ih _ start (p.2 - 1) (by omega),
          Option.bind_some]
        exact ih _ (p.2 + 1) stop (by omega)

end Bounds

/-- **The in-place quicksort**: its calls end and touch nothing outside the stretch, and
leave in it what was there, in order. -/
theorem quicksort_in_place (m : Int → BackendReq ν) (start stop : Int) :
    (∀ k, quicksortIn ((stop - start).toNat + k) m start stop = some (quicksort m start stop))
      ∧ (∀ i, i < start ∨ stop < i → quicksort m start stop i = m i)
      ∧ Shuffle start stop m (quicksort m start stop)
      ∧ (slice (quicksort m start stop) start (stop + 1 - start).toNat).Perm
        (slice m start (stop + 1 - start).toNat)
      ∧ SortedOn (quicksort m start stop) start stop := by
  have hshuf := quicksort_shuffle m start stop
  refine ⟨fun k => quicksortIn_eq _ m start stop (Nat.le_add_right _ _),
    fun i hi => hshuf.eq_off hi, hshuf, ?_, quicksort_sorted m start stop⟩
  by_cases hempty : stop + 1 < start
  · have hlen : (stop + 1 - start).toNat = 0 := by omega
    rw [hlen]
    exact List.Perm.refl _
  · apply Shuffle.perm
    have hstop : start + ((stop + 1 - start).toNat : Int) - 1 = stop := by omega
    rw [hstop]
    exact hshuf

end RedisAgent
