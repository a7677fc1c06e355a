/-
  RedisAgent.Router.Shards — what `router_acquire_shards` guarantees.

  Main results:
    • `router_groups_exact` — whatever the callback does, it gets the requests of
      each shard once, in one slice, in increasing order of the shards;
    • `router_count_reaches_zero_last` — whichever sub-requests complete inside
      their callback, `r->shard_count` reaches 0 at most once, and not before
      the last callback has begun.
-/
import RedisAgent.Router.Acquire

namespace RedisAgent

variable {ν π ω : Type*}

/-! ## §1. Grouping. -/

/-- Sorting changes nothing outside the array, and permutes it. -/
theorem sortShards_perm (g : Router π) (m : Int → BackendReq ν) (keyNum : Nat) :
    (slice (sortShards g m keyNum) 0 keyNum).Perm (slice (calcShardKeys g m keyNum) 0 keyNum) := by
  apply Shuffle.perm
  have h := quicksort_shuffle (calcShardKeys g m keyNum) 0 (keyNum - 1)
  rw [Int.zero_add]
  exact h

theorem sortShards_eq_off (g : Router π) (m : Int → BackendReq ν) (keyNum : Nat) {i : Int}
    (hi : i < 0 ∨ keyNum ≤ i) : sortShards g m keyNum i = m i := by
  have h := quicksort_shuffle (calcShardKeys g m keyNum) 0 (keyNum - 1)
  unfold sortShards
  rw [h.eq_off (by omega)]
  unfold calcShardKeys
  rw [if_neg (by omega)]

/-- Every request in the sorted array has the shard of its key. -/
theorem sortShards_shardKey (g : Router π) (m : Int → BackendReq ν) (keyNum : Nat)
    (hnn : ∀ i : Int, 0 ≤ i → i < keyNum → 0 ≤ g.shardKeyOf (m i).key) {j : Int} (hlo : 0 ≤ j)
    (hhi : j < keyNum) : 0 ≤ (sortShards g m keyNum j).shardKey := by
  have h := quicksort_shuffle (calcShardKeys g m keyNum) 0 (keyNum - 1)
  apply h.forall_of (P := fun b => 0 ≤ b.shardKey) _ j hlo (by omega)
  intro k hk1 hk2
  unfold calcShardKeys
  rw [if_pos (by omega)]
  exact hnn k hk1 (by omega)

/-- After the first pass of the loop it is inside a run. -/
theorem inRun_first {m : Int → BackendReq ν} {n : Nat} (hsorted : SortedOn m 0 n)
    (hnn : ∀ j : Int, 0 ≤ j → j < n + 1 → 0 ≤ (m j).shardKey) :
    InRun m n (ShardLoop.init.next (m 0).shardKey) := by
  have h0 := hnn 0 (Int.le_refl _) (by omega)
  refine ⟨?_, ?_, ?_, ?_, ?_⟩
  · show (if ShardLoop.init.ends (m 0).shardKey then (0 : Int) else 0) < 0 + 1
    split <;> omega
  · show (m 0).shardKey ≠ -1
    omega
  · intro j hlo hhi
    have hhi' : j < 0 + 1 := hhi
    have hlo' : (if ShardLoop.init.ends (m 0).shardKey then (0 : Int) else 0) ≤ j := hlo
    have hj : j = 0 := by
      split at hlo' <;> omega
    rw [hj]
    rfl
  · intro j hlo hhi
    have hlo' : (0 : Int) + 1 ≤ j := hlo
    have hhi' : j < 0 + 1 + n := hhi
    exact hsorted 0 j (Int.le_refl _) (by omega) (by omega)
  · intro i j hi hij hj
    have hi' : (0 : Int) + 1 ≤ i := hi
    have hj' : j ≤ 0 + 1 + (n : Int) - 1 := hj
    exact hsorted i j (by omega) hij (by omega)

/-- The first pass of the loop calls nothing. -/
theorem acquireLoop_first (g : Router π) (io : CountRef ω) (cb : ShardCall ν π → ω → ω)
    (m : Int → BackendReq ν) (isRead : Bool) (n : Nat) (w : ω) (h0 : 0 ≤ (m 0).shardKey) :
    acquireLoop g io cb m isRead (n + 1) ShardLoop.init w
      = acquireLoop g io cb m isRead n (ShardLoop.init.next (m 0).shardKey) w := by
  have hlast : (m ShardLoop.init.i).shardKey ≠ ShardLoop.init.last := by
    show (m 0).shardKey ≠ -1
    omega
  have hends : ShardLoop.init.ends (m ShardLoop.init.i).shardKey = false := by
    simp [ShardLoop.ends, ShardLoop.init]
  rw [acquireLoop]
  simp only [if_neg hlast, hends, Bool.false_eq_true, if_false]
  rfl

/-- **One event for each key**: the first pass has none, and the call after the
loop makes up for it. -/
theorem shardEvents_length_keyNum (g : Router π) (m : Int → BackendReq ν) (keyNum : Nat)
    (isRead : Bool) (hpos : 1 ≤ keyNum)
    (hnn : ∀ i : Int, 0 ≤ i → i < keyNum → 0 ≤ g.shardKeyOf (m i).key) :
    (shardEvents g (sortShards g m keyNum) isRead keyNum ShardLoop.init).length = keyNum := by
  have hkey : ∀ j : Int, 0 ≤ j → j < keyNum → 0 ≤ (sortShards g m keyNum j).shardKey :=
    fun j hlo hhi => sortShards_shardKey g m keyNum hnn hlo hhi
  obtain ⟨n, rfl⟩ : ∃ n, keyNum = n + 1 := ⟨keyNum - 1, by omega⟩
  have h0 := hkey 0 (Int.le_refl _) (by omega)
  have hfirst : shardEvents g (sortShards g m (n + 1 : Nat)) isRead (n + 1) ShardLoop.init
      = shardEvents g (sortShards g m (n + 1 : Nat)) isRead n
        (ShardLoop.init.next (sortShards g m (n + 1 : Nat) 0).shardKey) := by
    have hlast : ¬ (sortShards g m (n + 1 : Nat) ShardLoop.init.i).shardKey
        = ShardLoop.init.last := by
      show ¬ (sortShards g m (n + 1 : Nat) 0).shardKey = -1
      omega
    have hends : ShardLoop.init.ends (sortShards g m (n + 1 : Nat) ShardLoop.init.i).shardKey
        = false := by
      simp [ShardLoop.ends, ShardLoop.init]
    rw [shardEvents]
    simp only [if_neg hlast, hends, Bool.false_eq_true, if_false, List.nil_append]
    rfl
  rw [hfirst]
  refine shardEvents_length g _ isRead n _ ?_ ?_
  · show (sortShards g m (n + 1 : Nat) 0).shardKey ≠ -1
    omega
  · intro j hlo hhi
    have hlo' : (0 : Int) + 1 ≤ j := hlo
    have hhi' : j < 0 + 1 + n := hhi
    have hj := hkey j (by omega) (by omega)
    omega

/-- The callbacks of the loop, from the first pass on. -/
theorem shardEvents_groups (g : Router π) (m : Int → BackendReq ν) (isRead : Bool) (n : Nat)
    (hsorted : SortedOn m 0 n) (hnn : ∀ j : Int, 0 ≤ j → j < n + 1 → 0 ≤ (m j).shardKey) :
    ∃ ks, CallsOf g isRead (slice m 0 (n + 1))
      (ShardEvent.calls (shardEvents g m isRead n (ShardLoop.init.next (m 0).shardKey))) ks := by
  have hrun := inRun_first hsorted hnn
  obtain ⟨ks, hcalls, -⟩ := shardEvents_calls g m isRead n _ hrun (by
    intro j hlo hhi
    have hlo' : (0 : Int) + 1 ≤ j := hlo
    have hhi' : j < 0 + 1 + n := hhi
    have := hnn j (by omega) (by omega)
    omega)
  have hstart : (ShardLoop.init.next (m 0).shardKey).start = 0 := by
    show (if ShardLoop.init.ends (m 0).shardKey then (0 : Int) else 0) = 0
    split <;> rfl
  have hi : (ShardLoop.init.next (m 0).shardKey).i = 1 := rfl
  have hlen : ((1 : Int) - 0).toNat + n = n + 1 := by omega
  rw [hstart, hi, hlen] at hcalls
  exact ⟨_, hcalls⟩

/-- **The callbacks** are the runs of the sorted array. -/
theorem routerAcquireShards_calls (g : Router π) (io : CountRef ω) (cb : ShardCall ν π → ω → ω)
    (m : Int → BackendReq ν) (keyNum : Nat) (isRead : Bool) (w : ω) (hn : 1 ≤ keyNum)
    (hnn : ∀ i : Int, 0 ≤ i → i < keyNum → 0 ≤ g.shardKeyOf (m i).key) :
    ∃ ks, CallsOf g isRead
      (slice (routerAcquireShards g io.withCalls (recordCalls cb) m keyNum isRead (w, [])).1 0
        keyNum)
      (routerAcquireShards g io.withCalls (recordCalls cb) m keyNum isRead (w, [])).2.2 ks := by
  obtain ⟨n, rfl⟩ : ∃ n, keyNum = n + 1 := ⟨keyNum - 1, by omega⟩
  have hsorted : SortedOn (sortShards g m (n + 1 : Nat)) 0 n := by
    have h := quicksort_sorted (calcShardKeys g m (n + 1 : Nat)) 0 ((n + 1 : Nat) - 1)
    have hlen : ((n + 1 : Nat) : Int) - 1 = n := by omega
    rw [hlen] at h
    unfold sortShards
    rw [hlen]
    exact h
  have hkeys : ∀ j : Int, 0 ≤ j → j < n + 1 → 0 ≤ (sortShards g m (n + 1 : Nat) j).shardKey := by
    intro j hlo hhi
    exact sortShards_shardKey g m (n + 1) hnn hlo (by push_cast; omega)
  obtain ⟨ks, hks⟩ := shardEvents_groups g (sortShards g m (n + 1 : Nat)) isRead n hsorted hkeys
  refine ⟨ks, ?_⟩
  have hcalls : (routerAcquireShards g io.withCalls (recordCalls cb) m (n + 1 : Nat) isRead
      (w, [])).2.2 = ShardEvent.calls (shardEvents g (sortShards g m (n + 1 : Nat)) isRead n
        (ShardLoop.init.next (sortShards g m (n + 1 : Nat) 0).shardKey)) := by
    show (acquireLoop g io.withCalls (recordCalls cb) (sortShards g m (n + 1 : Nat)) isRead
      ((n + 1 : Nat) : Int).toNat ShardLoop.init _).2 = _
    rw [Int.toNat_natCast, acquireLoop_first _ _ _ _ _ _ _ (hkeys 0 (Int.le_refl _) (by omega)),
      acquireLoop_eq_foldl, foldl_recordCalls]
    show [] ++ _ = _
    rw [List.nil_append]
  rw [hcalls]
  exact hks

/-- **One callback**: its requests are all of one shard, and its pool is that shard's. -/
theorem routerAcquireShards_aimed (g : Router π) (io : CountRef ω) (cb : ShardCall ν π → ω → ω)
    (m : Int → BackendReq ν) (keyNum : Nat) (isRead : Bool) (w : ω) (hn : 1 ≤ keyNum)
    (hnn : ∀ i : Int, 0 ≤ i → i < keyNum → 0 ≤ g.shardKeyOf (m i).key) :
    ∀ c ∈ (routerAcquireShards g io.withCalls (recordCalls cb) m keyNum isRead (w, [])).2.2,
      c.reqs ≠ [] ∧ ∃ k, c.pool = g.getShard k isRead ∧ ∀ b ∈ c.reqs, g.shardKeyOf b.key = k := by
  intro c hc
  obtain ⟨ks, hgroup, hpools⟩ := routerAcquireShards_calls g io cb m keyNum isRead w hn hnn
  obtain ⟨n, hlt, rfl⟩ := List.mem_iff_getElem.1 hc
  have hlen := hpools.length_eq
  have hreqs := List.forall₂_iff_get.1 hgroup.exact
  have hpool := (List.forall₂_iff_get.1 hpools).2 n hlt (hlen ▸ hlt)
  have hcut := hreqs.2 n (by rw [List.length_map]; exact hlt) (hlen ▸ hlt)
  rw [List.get_eq_getElem, List.getElem_map] at hcut
  refine ⟨hcut.2, _, hpool.2, ?_⟩
  intro b hb
  rw [hcut.1, List.mem_filter] at hb
  obtain ⟨hmem, hkey⟩ := hb
  -- the request is one of those that learned their shard
  obtain ⟨i, hlo, hhi, rfl⟩ := mem_slice ((sortShards_perm g m keyNum).mem_iff.1 hmem)
  have hin : 0 ≤ i ∧ i < (keyNum : Int) := ⟨hlo, by omega⟩
  rw [decide_eq_true_eq] at hkey
  rw [← hkey]
  unfold calcShardKeys
  rw [if_pos hin]

/-- **Shard grouping is exact.**  Whatever the callback does to the world: the
array ends up a permutation of the requests with their shards, and the callbacks
are its runs: one for each shard, in increasing order, with all requests of the
shard and no others, with their number, and with the pool of that shard. -/
theorem router_groups_exact (g : Router π) (io : CountRef ω) (cb : ShardCall ν π → ω → ω)
    (m : Int → BackendReq ν) (keyNum : Nat) (isRead : Bool) (w : ω) (hn : 1 ≤ keyNum)
    (hnn : ∀ i : Int, 0 ≤ i → i < keyNum → 0 ≤ g.shardKeyOf (m i).key) :
    (slice (routerAcquireShards g io.withCalls (recordCalls cb) m keyNum isRead (w, [])).1 0
        keyNum).Perm (slice (calcShardKeys g m keyNum) 0 keyNum)
      ∧ (∀ i : Int, i < 0 ∨ keyNum ≤ i →
          (routerAcquireShards g io.withCalls (recordCalls cb) m keyNum isRead (w, [])).1 i = m i)
      ∧ ∃ ks, CallsOf g isRead
        (slice (routerAcquireShards g io.withCalls (recordCalls cb) m keyNum isRead (w, [])).1 0
          keyNum)
        (routerAcquireShards g io.withCalls (recordCalls cb) m keyNum isRead (w, [])).2.2 ks := by
  exact ⟨sortShards_perm g m keyNum, fun i hi => sortShards_eq_off g m keyNum hi,
    routerAcquireShards_calls g io cb m keyNum isRead w hn hnn⟩

/-- Three requests, the first and the last for shard 1. -/
def threeKeys : Int → BackendReq Unit := fun i => ⟨[i.toNat.toUInt8], (), 0⟩

/-- A router that sends each key to shard 0 or 1. -/
def parityRouter : Router Int :=
  ⟨0, fun _ pkey => pkey.toInt % 2, fun i => i, fun i => -i - 1⟩

theorem router_groups_exact_witness :
    ∃ ks, CallsOf parityRouter true
      (slice (routerAcquireShards parityRouter (CountRef.withCalls (⟨id, fun v _ => v⟩ : CountRef Int))
        (recordCalls fun _ w => w) threeKeys 3 true (0, [])).1 0 3)
      (routerAcquireShards parityRouter (CountRef.withCalls (⟨id, fun v _ => v⟩ : CountRef Int))
        (recordCalls fun _ w => w) threeKeys 3 true (0, [])).2.2 ks :=
  (router_groups_exact parityRouter ⟨id, fun v _ => v⟩ (fun _ w => w) threeKeys 3 true 0 (by decide)
    (fun i _ _ => Int.emod_nonneg _ (by decide))).2.2

/-! ## §2. Completions inside the callbacks. -/

/-- `r->shard_count` with its history: how many callbacks have begun, how many
sub-requests have completed, and every value written to the counter together
with the number of callbacks begun by then. -/
structure CountLog where
  shardCount : Int
  begun : Nat
  completed : Nat
  log : List (Nat × Int)

def CountLog.ref : CountRef CountLog :=
  ⟨CountLog.shardCount, fun v w => { w with shardCount := v, log := w.log ++ [(w.begun, v)] }⟩

/-- A callback whose sub-request completes inside it if `sync` says so: all
`req_on_shard_done` does to the counter is `r->shard_count--`. -/
def completeSync (sync : Nat → Bool) (_ : ShardCall ν π) (w : CountLog) : CountLog :=
  let w := { w with begun := w.begun + 1 }
  if sync (w.begun - 1) then
    CountLog.ref.set (CountLog.ref.get w - 1) { w with completed := w.completed + 1 }
  else w

/-- While `n` keys are still ahead and a run is open, the counter is the keys
ahead, plus the open run, plus the runs called and not completed. -/
structure CountInv (sync : Nat → Bool) (n : Nat) (w : CountLog) : Prop where
  count : w.shardCount = n + 1 + w.begun - w.completed
  completed : w.completed = (List.range w.begun).countP sync
  positive : ∀ e ∈ w.log, 0 < e.2

theorem CountInv.completed_le {sync : Nat → Bool} {n : Nat} {w : CountLog}
    (h : CountInv sync n w) : w.completed ≤ w.begun := by
  have hle := List.countP_le_length (p := sync) (l := List.range w.begun)
  rw [List.length_range] at hle
  rw [h.completed]
  exact hle

/-- A duplicate key lowers the counter, not to 0. -/
theorem CountInv.duplicate {sync : Nat → Bool} {n : Nat} {w : CountLog}
    (h : CountInv sync (n + 1) w) :
    CountInv sync n (CountLog.ref.set (CountLog.ref.get w - 1) w) := by
  have hle := h.completed_le
  have hcount := h.count
  refine ⟨?_, h.completed, ?_⟩
  · show w.shardCount - 1 = (n : Int) + 1 + (w.begun : Int) - (w.completed : Int)
    omega
  · intro e he
    rcases List.mem_append.1 he with he | he
    · exact h.positive e he
    · rw [List.mem_singleton.1 he]
      show 0 < w.shardCount - 1
      omega

/-- What a callback does, whether or not its sub-request completes. -/
theorem completeSync_spec {sync : Nat → Bool} {n : Nat} {w : CountLog} (c : ShardCall ν π)
    (h : CountInv sync n w) :
    (completeSync sync c w).begun = w.begun + 1
      ∧ (completeSync sync c w).shardCount
          = n + 1 + w.begun - (completeSync sync c w).completed
      ∧ (completeSync sync c w).completed = (List.range (w.begun + 1)).countP sync
      ∧ ((completeSync sync c w).log = w.log
        ∨ (completeSync sync c w).log
          = w.log ++ [((completeSync sync c w).begun, (completeSync sync c w).shardCount)]) := by
  have hcount := h.count
  have hcompleted := h.completed
  have hrange : (List.range (w.begun + 1)).countP sync
      = (List.range w.begun).countP sync + (if sync w.begun then 1 else 0) := by
    rw [List.range_succ, List.countP_append, List.countP_singleton]
  by_cases hs : sync w.begun = true
  · have hw : completeSync sync c w = ⟨w.shardCount - 1, w.begun + 1, w.completed + 1,
        w.log ++ [(w.begun + 1, w.shardCount - 1)]⟩ := by
      simp [completeSync, CountLog.ref, hs]
    rw [hw, hrange, if_pos hs]
    refine ⟨rfl, ?_, ?_, Or.inr rfl⟩
    · show w.shardCount - 1 = (n : Int) + 1 + (w.begun : Int) - ((w.completed + 1 : Nat) : Int)
      omega
    · show w.completed + 1 = _
      omega
  · have hw : completeSync sync c w = { w with begun := w.begun + 1 } := by
      simp [completeSync, hs]
    rw [hw, hrange, if_neg hs]
    exact ⟨rfl, hcount, hcompleted, Or.inl rfl⟩

/-- A run that ends while keys are ahead leaves the counter positive. -/
theorem CountInv.call {sync : Nat → Bool} {n : Nat} {w : CountLog} (c : ShardCall ν π)
    (h : CountInv sync (n + 1) w) : CountInv sync n (completeSync sync c w) := by
  have hle := h.completed_le
  obtain ⟨hbegun, hcount, hcompleted, hlog⟩ := completeSync_spec c h
  have hrange := List.countP_le_length (p := sync) (l := List.range (w.begun + 1))
  rw [List.length_range] at hrange
  refine ⟨?_, ?_, ?_⟩
  · rw [hbegun, hcount]
    push_cast
    omega
  · rw [hbegun, hcompleted]
  · intro e he
    rcases hlog with hlog | hlog
    · rw [hlog] at he
      exact h.positive e he
    · rw [hlog] at he
      rcases List.mem_append.1 he with he | he
      · exact h.positive e he
      · rw [List.mem_singleton.1 he]
        show 0 < (completeSync sync c w).shardCount
        rw [hcount]
        push_cast
        omega

/-- What the loop leaves: only the last write can have been 0, and it came after
the last callback had begun. -/
structure CountDone (sync : Nat → Bool) (calls : Nat) (w : CountLog) : Prop where
  begun : w.begun = calls
  completed : w.completed = (List.range calls).countP sync
  count : w.shardCount = calls - w.completed
  log : ∃ l, (∀ e ∈ l, 0 < e.2) ∧ (w.log = l ∨ w.log = l ++ [(calls, w.shardCount)])

/-- The loop, from inside a run on. -/
theorem acquireLoop_count (g : Router π) (sync : Nat → Bool) (m : Int → BackendReq ν)
    (isRead : Bool) (n : Nat) :
    ∀ (f : ShardLoop) (w : CountLog), f.last ≠ -1 →
      (∀ j, f.i ≤ j → j < f.i + n → (m j).shardKey ≠ -1) → CountInv sync n w →
      CountDone sync (w.begun + (ShardEvent.calls (shardEvents g m isRead n f)).length)
        (acquireLoop g CountLog.ref (completeSync sync) m isRead n f w) := by
  induction n with
  | zero =>
      intro f w _ _ h
      obtain ⟨hbegun, hcount, hcompleted, hlog⟩ := completeSync_spec (g.shardCall m isRead f f.i) h
      have hcalls : (ShardEvent.calls (shardEvents g m isRead 0 f)).length = 1 := rfl
      rw [hcalls]
      refine ⟨hbegun, hcompleted, ?_, w.log, h.positive, ?_⟩
      · show (completeSync sync (g.shardCall m isRead f f.i) w).shardCount
          = ((w.begun + 1 : Nat) : Int) - (completeSync sync (g.shardCall m isRead f f.i) w).completed
        omega
      · rw [hbegun] at hlog
        exact hlog
  | succ n ih =>
      intro f w hlast hnn h
      have hk := hnn f.i (Int.le_refl _) (by push_cast; omega)
      have hnn' : ∀ j, (f.next (m f.i).shardKey).i ≤ j → j < (f.next (m f.i).shardKey).i + n →
          (m j).shardKey ≠ -1 := by
        intro j hlo hhi
        have hlo' : f.i + 1 ≤ j := hlo
        have hhi' : j < f.i + 1 + n := hhi
        exact hnn j (by omega) (by push_cast; omega)
      by_cases hsame : (m f.i).shardKey = f.last
      · -- the run goes on: the counter is corrected
        have hends : f.ends (m f.i).shardKey = false := by simp [ShardLoop.ends, hsame]
        have hev : ShardEvent.calls (shardEvents g m isRead (n + 1) f)
            = ShardEvent.calls (shardEvents g m isRead n (f.next (m f.i).shardKey)) := by
          simp [shardEvents, hsame, ShardLoop.ends, ShardEvent.calls]
        have h1 := ih (f.next (m f.i).shardKey) _ hk hnn' h.duplicate
        rw [hev, acquireLoop]
        simp only [if_pos hsame, hends, Bool.false_eq_true, if_false]
        exact h1
      · -- the run ends: its callback runs
        have hends : f.ends (m f.i).shardKey = true := by simp [ShardLoop.ends, hsame, hlast]
        have hev : ShardEvent.calls (shardEvents g m isRead (n + 1) f)
            = g.shardCall m isRead f f.i
              :: ShardEvent.calls (shardEvents g m isRead n (f.next (m f.i).shardKey)) := by
          simp [shardEvents, hsame, hends, ShardEvent.calls]
        have h1 := ih (f.next (m f.i).shardKey) _ hk hnn' (h.call (g.shardCall m isRead f f.i))
        rw [(completeSync_spec (g.shardCall m isRead f f.i) h).1] at h1
        rw [hev, List.length_cons, acquireLoop]
        simp only [if_neg hsame, hends, if_true]
        have harith : ∀ c : Nat, w.begun + (c + 1) = w.begun + 1 + c := by
          intro c
          omega
        rw [harith]
        exact h1

/-- **Early completions cannot finish a request early.**  For every request and
every choice of the callbacks whose sub-request completes inside them: a write of
0 to `r->shard_count` comes only after the callback of the last group has begun,
there is at most one, and at the end the counter is the number of shards less the
number of completions. -/
theorem router_count_reaches_zero_last (g : Router π) (sync : Nat → Bool)
    (m : Int → BackendReq ν) (keyNum : Nat) (isRead : Bool) (count : Int) (hn : 1 ≤ keyNum)
    (hnn : ∀ i : Int, 0 ≤ i → i < keyNum → 0 ≤ g.shardKeyOf (m i).key) :
    let out := routerAcquireShards g CountLog.ref (completeSync sync) m keyNum isRead
      ⟨count, 0, 0, []⟩
    let shards := ((slice out.1 0 keyNum).map BackendReq.shardKey).dedup.length
    (∀ e ∈ out.2.log, e.2 = 0 → e.1 = shards)
      ∧ out.2.log.countP (fun e => e.2 = 0) ≤ 1
      ∧ out.2.begun = shards
      ∧ out.2.completed = (List.range shards).countP sync
      ∧ out.2.shardCount = shards - out.2.completed := by
  intro out shards
  obtain ⟨n, rfl⟩ : ∃ n, keyNum = n + 1 := ⟨keyNum - 1, by omega⟩
  have hsorted : SortedOn (sortShards g m (n + 1 : Nat)) 0 n := by
    have h := quicksort_sorted (calcShardKeys g m (n + 1 : Nat)) 0 ((n + 1 : Nat) - 1)
    have hlen : ((n + 1 : Nat) : Int) - 1 = n := by omega
    rw [hlen] at h
    unfold sortShards
    rw [hlen]
    exact h
  have hkeys : ∀ j : Int, 0 ≤ j → j < n + 1 → 0 ≤ (sortShards g m (n + 1 : Nat) j).shardKey := by
    intro j hlo hhi
    exact sortShards_shardKey g m (n + 1) hnn hlo (by push_cast; omega)
  obtain ⟨ks, hgroup, -⟩ := shardEvents_groups g (sortShards g m (n + 1 : Nat)) isRead n hsorted hkeys
  have hshards : (ShardEvent.calls (shardEvents g (sortShards g m (n + 1 : Nat)) isRead n
      (ShardLoop.init.next (sortShards g m (n + 1 : Nat) 0).shardKey))).length = shards := by
    rw [← List.length_map (f := ShardCall.reqs), hgroup.length_eq]
    rfl
  have hstart : CountInv sync n (CountLog.ref.set ((n + 1 : Nat) : Int) ⟨count, 0, 0, []⟩) := by
    refine ⟨?_, rfl, ?_⟩
    · show ((n + 1 : Nat) : Int) = n + 1 + (0 : Nat) - (0 : Nat)
      push_cast
      omega
    · intro e he
      rw [List.mem_singleton.1 he]
      show 0 < ((n + 1 : Nat) : Int)
      omega
  have hfirst := hkeys 0 (Int.le_refl _) (by omega)
  have hdone := acquireLoop_count g sync (sortShards g m (n + 1 : Nat)) isRead n
    (ShardLoop.init.next (sortShards g m (n + 1 : Nat) 0).shardKey) _
    (by
      show (sortShards g m (n + 1 : Nat) 0).shardKey ≠ -1
      omega)
    (by
      intro j hlo hhi
      have hlo' : (0 : Int) + 1 ≤ j := hlo
      have hhi' : j < 0 + 1 + n := hhi
      have := hkeys j (by omega) (by omega)
      omega)
    hstart
  have hout : out.2 = acquireLoop g CountLog.ref (completeSync sync) (sortShards g m (n + 1 : Nat))
      isRead n (ShardLoop.init.next (sortShards g m (n + 1 : Nat) 0).shardKey)
      (CountLog.ref.set ((n + 1 : Nat) : Int) ⟨count, 0, 0, []⟩) := by
    show acquireLoop g CountLog.ref (completeSync sync) (sortShards g m (n + 1 : Nat)) isRead
      ((n + 1 : Nat) : Int).toNat ShardLoop.init _ = _
    rw [Int.toNat_natCast, acquireLoop_first _ _ _ _ _ _ _ hfirst]
  have hzero : (CountLog.ref.set ((n + 1 : Nat) : Int) ⟨count, 0, 0, []⟩).begun = 0 := rfl
  rw [hzero, Nat.zero_add, hshards, ← hout] at hdone
  obtain ⟨l, hpos, hlog⟩ := hdone.log
  have hnone : l.countP (fun e => e.2 = 0) = 0 := by
    rw [List.countP_eq_zero]
    intro e he
    have := hpos e he
    simp only [decide_eq_true_eq]
    omega
  refine ⟨?_, ?_, hdone.begun, hdone.completed, hdone.count⟩
  · intro e he hz
    have hpos' : e ∈ l → e.1 = shards := by
      intro hel
      have := hpos e hel
      omega
    rcases hlog with hlog | hlog
    · rw [hlog] at he
      exact hpos' he
    · rw [hlog] at he
      rcases List.mem_append.1 he with he | he
      · exact hpos' he
      · rw [List.mem_singleton.1 he]
  · rcases hlog with hlog | hlog
    · rw [hlog, hnone]
      omega
    · rw [hlog, List.countP_append, hnone, List.countP_singleton]
      split <;> omega

/-- The array and the world the router leaves of these three keys, where every
sub-request completes inside its callback. -/
def threeKeysRouted : (Int → BackendReq Unit) × CountLog :=
  routerAcquireShards parityRouter CountLog.ref (completeSync fun _ => true) threeKeys 3 true
    ⟨0, 0, 0, []⟩

theorem router_count_reaches_zero_last_witness :
    (∀ e ∈ threeKeysRouted.2.log, e.2 = 0 →
        e.1 = ((slice threeKeysRouted.1 0 3).map BackendReq.shardKey).dedup.length)
      ∧ threeKeysRouted.2.log.countP (fun e => e.2 = 0) ≤ 1 := by
  have h := router_count_reaches_zero_last parityRouter (fun _ => true) threeKeys 3 true 0
    (by decide) (fun i _ _ => Int.emod_nonneg _ (by decide))
  exact ⟨h.1, h.2.1⟩

end RedisAgent
