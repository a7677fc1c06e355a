/-
  RedisAgent.Router.Acquire — `router_acquire_shards` of router.cpp.

  The function sorts the requests by shard, then walks the array once: `last` is
  the shard of the run it is in, `start` where that run began, and the callback
  gets a run when the next one begins.  `r->shard_count` starts at the number of
  keys and loses one for every key that is not the first of its run.

  The callback may do anything to the world, `r->shard_count` included, so the
  world `ω` is a parameter and the counter a pair of functions on it
  (`CountRef`).  The sequence of callbacks does not depend on the world:
  `acquireLoop_eq_foldl` separates the two.
-/
import RedisAgent.Lib.Grouping
import RedisAgent.Router.Hash
import RedisAgent.Router.Sort

namespace RedisAgent

variable {ν π ω : Type*}

/-! ## §1. The code. -/

/-- The globals of router.cpp that a request reads; `π` is a pool pointer. -/
structure Router (π : Type*) where
  routerFlag : Int
  shardFunc : Int → Int32 → Int
  poolMapR : Int → π
  poolMapW : Int → π

/-- `PARTITION_MOD_KEY` -/
def partitionModKey : Int := 65536

/-- `_get_shard` -/
def Router.getShard (g : Router π) (shardKey : Int) (isRead : Bool) : π :=
  if isRead then g.poolMapR (partitionModKey * g.routerFlag + shardKey)
  else g.poolMapW (partitionModKey * g.routerFlag + shardKey)

/-- `_shard_func[router_flag](strhash(key))`: the hash is passed as an `int`. -/
def Router.shardKeyOf (g : Router π) (key : List UInt8) : Int :=
  g.shardFunc g.routerFlag (strhash key).toUInt32.toInt32

/-- `r->shard_count` in the world `ω`. -/
structure CountRef (ω : Type*) where
  get : ω → Int
  set : Int → ω → ω

/-- The arguments of one call of `cb`; `reqs` is what `backend_req` points to. -/
structure ShardCall (ν π : Type*) where
  reqs : List (BackendReq ν)
  num : Int
  pool : π

/-- The variables of the loop. -/
structure ShardLoop where
  i : Int
  start : Int
  last : Int
  deriving Repr, DecidableEq

/-- Their values before the first pass. -/
def ShardLoop.init : ShardLoop := ⟨0, 0, -1⟩

/-- A pass over a key of shard `k` finds the run ended. -/
def ShardLoop.ends (f : ShardLoop) (k : Int) : Bool := k ≠ f.last ∧ f.last ≠ -1

/-- The variables after a pass over a key of shard `k`. -/
def ShardLoop.next (f : ShardLoop) (k : Int) : ShardLoop :=
  ⟨f.i + 1, if f.ends k then f.i else f.start, k⟩

/-- The call for the run `start .. stop - 1`. -/
def Router.shardCall (g : Router π) (m : Int → BackendReq ν) (isRead : Bool) (f : ShardLoop)
    (stop : Int) : ShardCall ν π where
  reqs := slice m f.start (stop - f.start).toNat
  num := stop - f.start
  pool := g.getShard f.last isRead

/-- The loop and the call after it, `n` passes from the end. -/
def acquireLoop (g : Router π) (io : CountRef ω) (cb : ShardCall ν π → ω → ω)
    (m : Int → BackendReq ν) (isRead : Bool) : Nat → ShardLoop → ω → ω
  | 0, f, w => cb (g.shardCall m isRead f f.i) w
  | n + 1, f, w =>
      let k := (m f.i).shardKey
      let w := if k = f.last then io.set (io.get w - 1) w else w
      let w := if f.ends k then cb (g.shardCall m isRead f f.i) w else w
      acquireLoop g io cb m isRead n (f.next k) w

/-- The first loop: every request learns its shard. -/
def calcShardKeys (g : Router π) (m : Int → BackendReq ν) (keyNum : Int) : Int → BackendReq ν :=
  fun i => if 0 ≤ i ∧ i < keyNum then { m i with shardKey := g.shardKeyOf (m i).key } else m i

/-- The array once it is sorted. -/
def sortShards (g : Router π) (m : Int → BackendReq ν) (keyNum : Int) : Int → BackendReq ν :=
  quicksort (calcShardKeys g m keyNum) 0 (keyNum - 1)

/-- `router_acquire_shards`: the array it leaves, and the world. -/
def routerAcquireShards (g : Router π) (io : CountRef ω) (cb : ShardCall ν π → ω → ω)
    (m : Int → BackendReq ν) (keyNum : Int) (isRead : Bool) (w : ω) :
    (Int → BackendReq ν) × ω :=
  let m := sortShards g m keyNum
  (m, acquireLoop g io cb m isRead keyNum.toNat ShardLoop.init (io.set keyNum w))

/-! ## §2. The callbacks do not depend on the world. -/

/-- What the loop does to the world. -/
inductive ShardEvent (ν π : Type*)
  /-- `r->shard_count --` -/
  | duplicate
  | call (c : ShardCall ν π)

/-- The events of the loop, `n` passes from the end. -/
def shardEvents (g : Router π) (m : Int → BackendReq ν) (isRead : Bool) :
    Nat → ShardLoop → List (ShardEvent ν π)
  | 0, f => [.call (g.shardCall m isRead f f.i)]
  | n + 1, f =>
      let k := (m f.i).shardKey
      (if k = f.last then [.duplicate] else [])
        ++ (if f.ends k then [.call (g.shardCall m isRead f f.i)] else [])
        ++ shardEvents g m isRead n (f.next k)

/-- One event, done to the world. -/
def ShardEvent.apply (io : CountRef ω) (cb : ShardCall ν π → ω → ω) (w : ω) :
    ShardEvent ν π → ω
  | .duplicate => io.set (io.get w - 1) w
  | .call c => cb c w

/-- **The loop is its events, one after the other.** -/
theorem acquireLoop_eq_foldl (g : Router π) (io : CountRef ω) (cb : ShardCall ν π → ω → ω)
    (m : Int → BackendReq ν) (isRead : Bool) (n : Nat) :
    ∀ (f : ShardLoop) (w : ω), acquireLoop g io cb m isRead n f w
      = (shardEvents g m isRead n f).foldl (ShardEvent.apply io cb) w := by
  induction n with
  | zero => intro f w; rfl
  | succ n ih =>
      intro f w
      unfold acquireLoop shardEvents
      rw [ih, List.foldl_append, List.foldl_append]
      congr 1
      split <;> split <;> rfl

/-- The last event is the call after the loop. -/
theorem shardEvents_last (g : Router π) (m : Int → BackendReq ν) (isRead : Bool) (n : Nat) :
    ∀ f : ShardLoop, ∃ l c, shardEvents g m isRead n f = l ++ [.call c] := by
  induction n with
  | zero =>
      intro f
      exact ⟨[], _, rfl⟩
  | succ n ih =>
      intro f
      obtain ⟨l, c, h⟩ := ih (f.next (m f.i).shardKey)
      refine ⟨(if (m f.i).shardKey = f.last then [.duplicate] else [])
        ++ (if f.ends (m f.i).shardKey then [.call (g.shardCall m isRead f f.i)] else []) ++ l, c, ?_⟩
      rw [List.append_assoc _ l, ← h]
      rfl

/-- Inside a run every pass is one event. -/
theorem shardEvents_length (g : Router π) (m : Int → BackendReq ν) (isRead : Bool) (n : Nat) :
    ∀ f : ShardLoop, f.last ≠ -1 → (∀ j, f.i ≤ j → j < f.i + n → (m j).shardKey ≠ -1) →
      (shardEvents g m isRead n f).length = n + 1 := by
  induction n with
  | zero =>
      intro f _ _
      rfl
  | succ n ih =>
      intro f hlast hkeys
      have hk := hkeys f.i (Int.le_refl _) (by omega)
      have hrest := ih (f.next (m f.i).shardKey) hk (by
        intro j hlo hhi
        have hlo' : f.i + 1 ≤ j := hlo
        have hhi' : j < f.i + 1 + n := hhi
        exact hkeys j (by omega) (by omega))
      show (_ ++ _ ++ shardEvents g m isRead n (f.next (m f.i).shardKey)).length = _
      rw [List.length_append, List.length_append, hrest]
      by_cases hsame : (m f.i).shardKey = f.last
      · have hends : f.ends (m f.i).shardKey = false := by
          unfold ShardLoop.ends
          exact decide_eq_false (fun h => h.1 hsame)
        rw [if_pos hsame, hends]
        show 1 + 0 + (n + 1) = _
        omega
      · have hends : f.ends (m f.i).shardKey = true := by
          unfold ShardLoop.ends
          exact decide_eq_true ⟨hsame, hlast⟩
        rw [if_neg hsame, hends]
        show 0 + 1 + (n + 1) = _
        omega

/-- The calls among the events. -/
def ShardEvent.calls (es : List (ShardEvent ν π)) : List (ShardCall ν π) :=
  es.filterMap (fun e => match e with | .call c => some c | .duplicate => none)

/-- The world `ω` with a record of the calls made. -/
def CountRef.withCalls (io : CountRef ω) : CountRef (ω × List (ShardCall ν π)) :=
  ⟨fun w => io.get w.1, fun v w => (io.set v w.1, w.2)⟩

/-- `cb`, recording its calls. -/
def recordCalls (cb : ShardCall ν π → ω → ω) (c : ShardCall ν π)
    (w : ω × List (ShardCall ν π)) : ω × List (ShardCall ν π) :=
  (cb c w.1, w.2 ++ [c])

theorem foldl_recordCalls (io : CountRef ω) (cb : ShardCall ν π → ω → ω)
    (es : List (ShardEvent ν π)) :
    ∀ w : ω × List (ShardCall ν π), es.foldl (ShardEvent.apply io.withCalls (recordCalls cb)) w
      = (es.foldl (ShardEvent.apply io cb) w.1, w.2 ++ ShardEvent.calls es) := by
  induction es with
  | nil =>
      intro w
      simp [ShardEvent.calls]
  | cons e es ih =>
      intro w
      rw [List.foldl_cons, List.foldl_cons, ih]
      cases e with
      | duplicate => simp [ShardEvent.apply, CountRef.withCalls, ShardEvent.calls]
      | call c => simp [ShardEvent.apply, recordCalls, ShardEvent.calls, List.append_assoc]

/-! ## §3. The runs of a sorted array. -/

/-- The loop is inside a run of shard `f.last` that began at `f.start`. -/
structure InRun (m : Int → BackendReq ν) (n : Nat) (f : ShardLoop) : Prop where
  begun : f.start < f.i
  last : f.last ≠ -1
  run : ∀ j, f.start ≤ j → j < f.i → (m j).shardKey = f.last
  rest : ∀ j, f.i ≤ j → j < f.i + n → f.last ≤ (m j).shardKey
  sorted : SortedOn m f.i (f.i + n - 1)

/-- One pass stays inside a run. -/
theorem InRun.next {m : Int → BackendReq ν} {n : Nat} {f : ShardLoop} (h : InRun m (n + 1) f)
    (hk : (m f.i).shardKey ≠ -1) : InRun m n (f.next (m f.i).shardKey) := by
  have hsorted : SortedOn m (f.i + 1) (f.i + 1 + n - 1) := by
    intro i j hi hij hj
    exact h.sorted i j (by omega) hij (by push_cast; omega)
  have hrest : ∀ j, f.i + 1 ≤ j → j < f.i + 1 + n → (m f.i).shardKey ≤ (m j).shardKey := by
    intro j hlo hhi
    exact h.sorted f.i j (Int.le_refl _) (by omega) (by push_cast; omega)
  refine ⟨?_, hk, ?_, hrest, hsorted⟩
  · show (if f.ends (m f.i).shardKey then f.i else f.start) < f.i + 1
    have := h.begun
    split <;> omega
  · intro j hlo hhi
    have hlo' : (if f.ends (m f.i).shardKey then f.i else f.start) ≤ j := hlo
    have hhi' : j < f.i + 1 := hhi
    show (m j).shardKey = (m f.i).shardKey
    by_cases hji : j = f.i
    · rw [hji]
    · -- an earlier position is in the run only if the run goes on
      split at hlo'
      · omega
      · rename_i hend
        have hsame : (m f.i).shardKey = f.last := by
          by_contra hne
          exact hend (by simp [ShardLoop.ends, hne, h.last])
        rw [hsame]
        exact h.run j hlo' (by omega)

/-- The stretch from `a` on, cut at `b`. -/
theorem slice_append (m : Int → BackendReq ν) (a : Int) (p q : Nat) :
    slice m a (p + q) = slice m a p ++ slice m (a + p) q := by
  unfold slice
  rw [List.range_add, List.map_append, List.map_map]
  congr 1
  apply List.map_congr_left
  intro j _
  show m (a + ((p + j : Nat) : Int)) = m (a + p + j)
  congr 1
  push_cast
  omega

theorem mem_slice {m : Int → BackendReq ν} {a : Int} {n : Nat} {b : BackendReq ν}
    (h : b ∈ slice m a n) : ∃ j, a ≤ j ∧ j < a + n ∧ m j = b := by
  obtain ⟨i, hi, hb⟩ := List.mem_map.1 h
  have := List.mem_range.1 hi
  exact ⟨a + i, by omega, by omega, hb⟩

/-- What the callbacks of one walk must be: the runs of `l`, in order, each with
its length and the pool of its shard. -/
def CallsOf (g : Router π) (isRead : Bool) (l : List (BackendReq ν))
    (calls : List (ShardCall ν π)) (ks : List Int) : Prop :=
  Grouping BackendReq.shardKey l (calls.map ShardCall.reqs) ks
    ∧ List.Forall₂ (fun c k => c.num = c.reqs.length ∧ c.pool = g.getShard k isRead) calls ks

/-- From inside a run, the remaining callbacks are the runs of what is left. -/
theorem shardEvents_calls (g : Router π) (m : Int → BackendReq ν) (isRead : Bool) (n : Nat) :
    ∀ f : ShardLoop, InRun m n f → (∀ j, f.i ≤ j → j < f.i + n → (m j).shardKey ≠ -1) →
      ∃ ks, CallsOf g isRead (slice m f.start ((f.i - f.start).toNat + n))
          (ShardEvent.calls (shardEvents g m isRead n f)) (f.last :: ks)
        ∧ ∀ k ∈ ks, f.last < k := by
  induction n with
  | zero =>
      intro f hf _
      have hbegun := hf.begun
      have hne : slice m f.start (f.i - f.start).toNat ≠ [] := by
        intro hnil
        have hlen := slice_length m f.start (f.i - f.start).toNat
        rw [hnil] at hlen
        simp only [List.length_nil] at hlen
        omega
      have hall : ∀ b ∈ slice m f.start (f.i - f.start).toNat, b.shardKey = f.last := by
        intro b hb
        obtain ⟨j, hlo, hhi, rfl⟩ := mem_slice hb
        exact hf.run j hlo (by omega)
      refine ⟨[], ⟨Grouping.single hne hall, ?_⟩, by simp⟩
      refine .cons ⟨?_, rfl⟩ .nil
      show f.i - f.start = ((slice m f.start (f.i - f.start).toNat).length : Int)
      rw [slice_length]
      omega
  | succ n ih =>
      intro f hf hnn
      have hbegun := hf.begun
      have hk := hnn f.i (Int.le_refl _) (by push_cast; omega)
      have hnext := hf.next hk
      obtain ⟨ks, ⟨hgroup, hcalls⟩, hlt⟩ := ih (f.next (m f.i).shardKey) hnext (by
        intro j hlo hhi
        have hlo' : f.i + 1 ≤ j := hlo
        have hhi' : j < f.i + 1 + n := hhi
        exact hnn j (by omega) (by push_cast; omega))
      by_cases hsame : (m f.i).shardKey = f.last
      · -- the run goes on: nothing is called
        have hends : f.ends (m f.i).shardKey = false := by simp [ShardLoop.ends, hsame]
        have hev : ShardEvent.calls (shardEvents g m isRead (n + 1) f)
            = ShardEvent.calls (shardEvents g m isRead n (f.next (m f.i).shardKey)) := by
          simp [shardEvents, hsame, ShardLoop.ends, ShardEvent.calls]
        have hstart : (f.next (m f.i).shardKey).start = f.start := by
          simp [ShardLoop.next, hends]
        have hlast : (f.next (m f.i).shardKey).last = f.last := hsame
        have hi : (f.next (m f.i).shardKey).i = f.i + 1 := rfl
        rw [hstart, hlast, hi] at hgroup
        rw [hlast] at hcalls hlt
        have hlen : (f.i + 1 - f.start).toNat + n = (f.i - f.start).toNat + (n + 1) := by omega
        rw [hlen] at hgroup
        exact ⟨ks, ⟨by rw [hev]; exact hgroup, by rw [hev]; exact hcalls⟩, hlt⟩
      · -- the run ends: it is called, and the next one begins here
        have hends : f.ends (m f.i).shardKey = true := by
          simp [ShardLoop.ends, hsame, hf.last]
        have hev : ShardEvent.calls (shardEvents g m isRead (n + 1) f)
            = g.shardCall m isRead f f.i
              :: ShardEvent.calls (shardEvents g m isRead n (f.next (m f.i).shardKey)) := by
          simp [shardEvents, hsame, hends, ShardEvent.calls]
        have hstart : (f.next (m f.i).shardKey).start = f.i := by
          simp [ShardLoop.next, hends]
        have hi : (f.next (m f.i).shardKey).i = f.i + 1 := rfl
        have hlast : (f.next (m f.i).shardKey).last = (m f.i).shardKey := rfl
        have hgreater : f.last < (m f.i).shardKey := by
          have := hf.rest f.i (Int.le_refl _) (by push_cast; omega)
          omega
        rw [hstart, hi, hlast] at hgroup
        rw [hlast] at hcalls hlt
        have hlen : (f.i + 1 - f.i).toNat + n = n + 1 := by omega
        rw [hlen] at hgroup
        have hfirst : ∀ b ∈ slice m f.start (f.i - f.start).toNat, b.shardKey = f.last := by
          intro b hb
          obtain ⟨j, hlo, hhi, rfl⟩ := mem_slice hb
          exact hf.run j hlo (by omega)
        have hne : slice m f.start (f.i - f.start).toNat ≠ [] := by
          intro hnil
          have hl := slice_length m f.start (f.i - f.start).toNat
          rw [hnil] at hl
          simp only [List.length_nil] at hl
          omega
        have hrest : ∀ b ∈ slice m f.i (n + 1), f.last < b.shardKey := by
          intro b hb
          obtain ⟨j, hlo, hhi, rfl⟩ := mem_slice hb
          have := hf.sorted f.i j (Int.le_refl _) hlo (by push_cast at hhi ⊢; omega)
          omega
        have hltall : ∀ k ∈ (m f.i).shardKey :: ks, f.last < k := by
          intro k hmem
          rcases List.mem_cons.1 hmem with heq | hmem
          · omega
          · have := hlt k hmem
            omega
        have hsplit : slice m f.start ((f.i - f.start).toNat + (n + 1))
            = slice m f.start (f.i - f.start).toNat ++ slice m f.i (n + 1) := by
          rw [slice_append]
          congr 2
          omega
        refine ⟨(m f.i).shardKey :: ks, ⟨?_, ?_⟩, hltall⟩
        · rw [hev, hsplit]
          exact hgroup.cons hne hfirst hltall hrest
        · rw [hev]
          refine .cons ⟨?_, rfl⟩ hcalls
          show f.i - f.start = ((slice m f.start (f.i - f.start).toNat).length : Int)
          rw [slice_length]
          omega

end RedisAgent
