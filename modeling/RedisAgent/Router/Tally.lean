/-
  RedisAgent.Router.Tally — `m_serverCount` counts the servers that are there.

  As long as nothing runs at a server that has been torn down, every tear-down
  counts one server off, and the owner is told by the one that leaves none.  So
  `_router_on_destroy` is called exactly when the count reaches zero, and never for
  a pool that was built without servers: nothing ever counts there.

  Main results:
    • `PoolInfo.Counted.onServer` — one operation on one server;
    • `PoolInfo.Untouched.poolDestroy` — `pool_destroy` of a pool in use.
-/
import RedisAgent.Router.Build

namespace RedisAgent

variable {σ : Type*}

/-! ## §1. One operation. -/

/-- `m_serverCount` is the number of the servers below `n` that are there. -/
def PoolInfo.Counted (n : Nat) (pool : PoolInfo σ) : Prop :=
  pool.serverCount = (List.range n).countP (fun i => !(pool.serverArr i).freed)

/-- No server has been torn down, and none is being destroyed. -/
structure PoolInfo.Untouched (n : Nat) (pool : PoolInfo σ) : Prop where
  mem : pool.mem = .allocated
  count : pool.serverCount = n
  flags : ∀ i, (pool.serverArr i).destroyFlag = false ∧ (pool.serverArr i).freed = false

/-- `pool->m_destroy_cb` is among the calls. -/
def OwnerTold (calls : Calls σ) : Prop := calls.any (fun c => c.2.isPoolDestroyed) = true

variable {n : Nat} {pool : PoolInfo σ}

theorem PoolInfo.Untouched.counted (h : pool.Untouched n) : pool.Counted n := by
  have hall : (List.range n).countP (fun i => !(pool.serverArr i).freed) = n := by
    conv => rhs; rw [← List.length_range (n := n)]
    rw [List.countP_eq_length]
    intro i _
    rw [(h.flags i).2]
    rfl
  unfold PoolInfo.Counted
  rw [hall]
  exact h.count

/-- A server that is there is counted. -/
theorem PoolInfo.Counted.pos (h : pool.Counted n) {i : Nat} (hi : i < n)
    (hfreed : (pool.serverArr i).freed = false) : 0 < pool.serverCount := by
  have hpos : 0 < (List.range n).countP (fun i => !(pool.serverArr i).freed) :=
    List.countP_pos_iff.2 ⟨i, List.mem_range.2 hi, by simp [hfreed]⟩
  unfold PoolInfo.Counted at h
  omega

/-- Where the count is zero, all are gone. -/
theorem PoolInfo.Counted.zero_iff (h : pool.Counted n) :
    pool.serverCount = 0 ↔ ∀ i, i < n → (pool.serverArr i).freed = true := by
  constructor
  · intro hz i hi
    cases hfreed : (pool.serverArr i).freed with
    | true => rfl
    | false =>
        have hpos := h.pos hi hfreed
        omega
  · intro hall
    have hz : (List.range n).countP (fun i => !(pool.serverArr i).freed) = 0 := by
      rw [List.countP_eq_zero]
      intro i hi
      rw [hall i (List.mem_range.1 hi)]
      exact Bool.false_ne_true
    unfold PoolInfo.Counted at h
    rw [h, hz]
    rfl

theorem PoolInfo.onServer_conf (i : Nat) (r : Out σ) : (pool.onServer i r).1.conf = pool.conf := by
  unfold PoolInfo.onServer
  split <;> rfl

/-- The owner is told by the tear-down that leaves no server. -/
theorem PoolInfo.onServer_told (i : Nat) {r : Out σ} (h : r.2.countP Call.isPoolDestroyed = 0) :
    OwnerTold (pool.onServer i r).2
      ↔ r.2.any Call.isServerDestroyed = true ∧ (pool.onServer i r).1.serverCount = 0 := by
  have hown : (r.2.map (fun c => (i, c))).any (fun c => c.2.isPoolDestroyed) = false := by
    rw [List.any_map, List.any_eq_false]
    exact List.countP_eq_zero.1 h
  unfold OwnerTold PoolInfo.onServer
  cases htorn : r.2.any Call.isServerDestroyed with
  | false =>
      simp only [Bool.false_eq_true, if_false, false_and, iff_false]
      rw [hown]
      exact Bool.false_ne_true
  | true =>
      simp only [if_true, true_and]
      by_cases hz : pool.serverCount - 1 = 0
      · simp [hz, Call.isPoolDestroyed]
      · rw [if_neg hz, hown]
        exact iff_of_false Bool.false_ne_true hz

/-- **One operation** keeps the count true, and the owner is told when it is zero. -/
theorem PoolInfo.Counted.onServer (h : pool.Counted n) {i : Nat} (hi : i < n)
    (hfreed : (pool.serverArr i).freed = false) (op : SrvOp σ) :
    (pool.onServer i (op.code pool.conf (pool.serverArr i))).1.Counted n
      ∧ (OwnerTold (pool.onServer i (op.code pool.conf (pool.serverArr i))).2
        ↔ (pool.onServer i (op.code pool.conf (pool.serverArr i))).1.serverCount = 0) := by
  have htells := op.code_tells pool.conf (pool.serverArr i)
  have hpos := h.pos hi hfreed
  have hf := htells.freed
  rw [op.mark_freed, hfreed, Bool.false_or] at hf
  have hcount : (pool.onServer i (op.code pool.conf (pool.serverArr i))).1.serverCount
      = if (op.code pool.conf (pool.serverArr i)).2.any Call.isServerDestroyed
        then pool.serverCount - 1 else pool.serverCount := by
    unfold PoolInfo.onServer
    split <;> rfl
  refine ⟨?_, ?_⟩
  · have hupd := countP_update List.nodup_range (List.mem_range.2 hi) pool.serverArr
      (op.code pool.conf (pool.serverArr i)).1 (fun s => !s.freed)
    unfold PoolInfo.Counted at h ⊢
    rw [hcount, PoolInfo.onServer_arr]
    cases htorn : (op.code pool.conf (pool.serverArr i)).2.any Call.isServerDestroyed with
    | false =>
        simp only [hf, htorn, hfreed, Bool.not_false, if_true] at hupd
        simp only [Bool.false_eq_true, if_false]
        omega
    | true =>
        simp only [hf, htorn, hfreed, Bool.not_false, Bool.not_true, Bool.false_eq_true, if_true,
          if_false] at hupd
        simp only [if_true]
        omega
  · rw [PoolInfo.onServer_told i htells.owner]
    refine and_iff_right_of_imp ?_
    intro hz
    rw [hcount] at hz
    cases htorn : (op.code pool.conf (pool.serverArr i)).2.any Call.isServerDestroyed with
    | true => rfl
    | false =>
        rw [htorn] at hz
        simp only [Bool.false_eq_true, if_false] at hz
        omega

/-- A pool in use stays one, whatever runs at one of its servers. -/
theorem PoolInfo.Untouched.onServer (h : pool.Untouched n) (i : Nat) {op : SrvOp σ}
    (hop : op ≠ .destroy) :
    (pool.onServer i (op.code pool.conf (pool.serverArr i))).1.Untouched n
      ∧ ¬ OwnerTold (pool.onServer i (op.code pool.conf (pool.serverArr i))).2 := by
  obtain ⟨hdes, hfreed⟩ := h.flags i
  have hflags := op.code_flags pool.conf (pool.serverArr i) hdes hop
  have hno := SrvOp.code_not_destroyed (hflags.2.2.trans hfreed)
  refine ⟨⟨?_, ?_, ?_⟩, ?_⟩
  · rw [PoolInfo.onServer_mem, hno, h.mem]
    rfl
  · unfold PoolInfo.onServer
    rw [hno]
    exact h.count
  · intro j
    rw [PoolInfo.onServer_arr]
    by_cases hji : j = i
    · subst hji
      rw [Function.update_self]
      exact ⟨hflags.1.trans hdes, hflags.2.2.trans hfreed⟩
    · rw [Function.update_of_ne hji]
      exact h.flags j
  · rw [PoolInfo.onServer_told i (op.code_tells pool.conf (pool.serverArr i)).owner, hno]
    exact fun hx => absurd hx.1 Bool.false_ne_true

/-! ## §2. `pool_destroy`. -/

/-- The loop of `pool_destroy` over servers that are all there. -/
theorem PoolInfo.Counted.destroyLoop (l : List Nat) :
    ∀ {pool : PoolInfo σ} (calls : Calls σ), pool.Counted n → l.Nodup →
      (∀ i ∈ l, i < n ∧ (pool.serverArr i).freed = false) →
      ∃ pool' calls', l.foldl (fun r i =>
            let (pool, calls) := r.1.onServer i (serverDestroy r.1.conf (r.1.serverArr i))
            (pool, r.2 ++ calls)) (pool, calls) = (pool', calls ++ calls')
        ∧ pool'.Counted n ∧ pool'.conf = pool.conf
        ∧ (OwnerTold calls' ↔ l ≠ [] ∧ pool'.serverCount = 0) := by
  induction l with
  | nil =>
      intro pool calls h _ _
      refine ⟨pool, [], by simp, h, rfl, ?_⟩
      simp [OwnerTold]
  | cons i l ih =>
      intro pool calls h hnd hl
      obtain ⟨hil, hnd⟩ := List.nodup_cons.1 hnd
      obtain ⟨hi, hfreed⟩ := hl i (by simp)
      obtain ⟨hc1, htold1⟩ := h.onServer hi hfreed .destroy
      have hrest : ∀ j ∈ l, j < n ∧ ((pool.onServer i (SrvOp.code pool.conf (pool.serverArr i)
          .destroy)).1.serverArr j).freed = false := by
        intro j hj
        have hji : j ≠ i := fun he => hil (he ▸ hj)
        rw [PoolInfo.onServer_arr, Function.update_of_ne hji]
        exact hl j (List.mem_cons_of_mem _ hj)
      obtain ⟨pool', calls', hfold, hc, hconf, htold⟩ :=
        ih (calls ++ (pool.onServer i (SrvOp.code pool.conf (pool.serverArr i) .destroy)).2)
          hc1 hnd hrest
      refine ⟨pool', (pool.onServer i (SrvOp.code pool.conf (pool.serverArr i) .destroy)).2 ++ calls',
        ?_, hc, hconf.trans (PoolInfo.onServer_conf i _), ?_⟩
      · rw [List.append_assoc] at hfold
        exact hfold
      · have hsplit : OwnerTold ((pool.onServer i (SrvOp.code pool.conf (pool.serverArr i)
              .destroy)).2 ++ calls')
            ↔ OwnerTold (pool.onServer i (SrvOp.code pool.conf (pool.serverArr i) .destroy)).2
              ∨ OwnerTold calls' := by
          unfold OwnerTold
          rw [List.any_append, Bool.or_eq_true]
        rw [hsplit, htold1, htold]
        simp only [ne_eq, reduceCtorEq, not_false_eq_true, true_and]
        cases l with
        | nil =>
            -- it was the last server
            rw [List.foldl_nil] at hfold
            have hpool := congrArg Prod.fst hfold
            simp only at hpool
            rw [← hpool]
            simp
        | cons k l =>
            -- the next server is still there, so the count was not zero
            have hpos := hc1.pos (hrest k (by simp)).1 (hrest k (by simp)).2
            constructor
            · rintro (hz | ⟨-, hz⟩)
              · omega
              · exact hz
            · intro hz
              exact Or.inr ⟨by simp, hz⟩

/-- **`pool_destroy` of a pool in use**: the owner is told at once when no server is
left, unless there was none to begin with. -/
theorem PoolInfo.Untouched.poolDestroy (h : pool.Untouched n) :
    (RedisAgent.poolDestroy pool).1.Counted n
      ∧ (OwnerTold (RedisAgent.poolDestroy pool).2
        ↔ n ≠ 0 ∧ (RedisAgent.poolDestroy pool).1.serverCount = 0) := by
  have hn : pool.serverCount.toNat = n := by
    rw [h.count]
    rfl
  obtain ⟨pool', calls', hfold, hc, -, htold⟩ :=
    PoolInfo.Counted.destroyLoop (List.range n) [] h.counted List.nodup_range
      (fun i hi => ⟨List.mem_range.1 hi, (h.flags i).2⟩)
  have heq : RedisAgent.poolDestroy pool = (pool', calls') := by
    unfold RedisAgent.poolDestroy
    rw [hn]
    exact hfold
  rw [heq]
  refine ⟨hc, htold.trans ?_⟩
  rw [ne_eq, List.range_eq_nil]

end RedisAgent
