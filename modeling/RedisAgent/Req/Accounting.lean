/-
  RedisAgent.Req.Accounting — the counter, the list, the waiting queue and the
  connections of a request.

  Main result: `proxy_accounting_iff`.  Between the return of
  `router_acquire_shards` and the timeout they agree if and only if no
  `pool_fetch_connect` of the request has failed: a sub-request whose fetch
  failed is counted off but stays on the list, without a node.
-/
import RedisAgent.Req.Standing

namespace RedisAgent

open Links

variable {ν : Type*} {L : Nat → List Nat}

/-! ## §1. What should agree. -/

namespace Proxy

/-- Sub-request `x` owns a node that is in the waiting queue of its server. -/
def OwnsNode (s : Proxy ν) (x : Nat) (sr : SubReq ν) : Prop :=
  ∃ n W, sr.poolWaitingNode = some n
    ∧ IsQueue (s.server n.pool n.server).info.waitLinks (s.server n.pool n.server).info.waitingQueue
      W
    ∧ n.wq ∈ W ∧ (s.server n.pool n.server).info.waitSub n.wq = some x

/-- Sub-request `x` owns a connection that is in use, and it alone. -/
def OwnsConnection (s : Proxy ν) (x : Nat) (sr : SubReq ν) : Prop :=
  ∃ c, sr.handle = some c
    ∧ ((s.server c.pool c.server).info.connectArr c.handle.poolData).handle = some c.handle
    ∧ ((s.server c.pool c.server).info.connectArr c.handle.poolData).inUse = true
    ∧ (s.server c.pool c.server).ghost.given c.handle.poolData = [(c.handle, x)]

/-- The memory of request `r` agrees with its list `l`.  A `req_on_shard_done(r, ..)`
that is inside `pool_release_connect` has taken its sub-request off the list and
has still to count it down. -/
structure Accounted (s : Proxy ν) (r : Nat) (q : Req) (l : List Nat) : Prop where
  list : IsQueue s.table.links ⟨q.subReqNotDone, l.getLast?⟩ l
  count : q.shardCount = (l.length + s.table.halfDone r : Nat)
  present : ∀ x ∈ l, ∃ sr, s.table.subs x = some sr ∧ sr.r = r
  waiting : ∀ x ∈ l, ∀ sr, s.table.subs x = some sr → sr.state = .beforeRequestPool →
    s.OwnsNode x sr
  held : ∀ x ∈ l, ∀ sr, s.table.subs x = some sr → sr.state = .poolReturned →
    s.OwnsConnection x sr

/-! ## §2. What the invariant gives. -/

/-- Who waits is in the queue of its server. -/
theorem Inv.ownsNode {s : Proxy ν} (h : s.Inv L) {x : Nat} {sr : SubReq ν} {n : WaitNode}
    (hnode : sr.poolWaitingNode = some n) (hn : s.view.wait n = some x) : s.OwnsNode x sr := by
  obtain ⟨d, U, F, W, hinv⟩ := h.pools.servers n.pool n.server
  have hn' : (s.server n.pool n.server).info.waitSub n.wq = some x := hn
  have hmem : n.wq ∈ W := (hinv.waitSub n.wq).1 (by rw [hn']; exact Option.some_ne_none x)
  exact ⟨n, W, hnode, hinv.wait, hmem, hn'⟩

/-- Who was given a connection has it to itself. -/
theorem Inv.ownsConnection {s : Proxy ν} (h : s.Inv L) {x : Nat} {sr : SubReq ν} {c : ConnRef}
    (hc : sr.handle = some c) (hgiven : (c.handle, x) ∈ s.view.given c.slot) :
    s.OwnsConnection x sr := by
  obtain ⟨d, U, F, W, hinv⟩ := h.pools.servers c.pool c.server
  obtain ⟨-, ⟨hhandle, -⟩, huse, hlist, -⟩ :=
    (hinv.slot c.handle.poolData (fun hd => by cases hd)).of_given hgiven
  exact ⟨c, hc, hhandle, huse, hlist⟩

/-- A sub-request has failed exactly if its fetch has. -/
theorem fetchFailed_iff {t : ReqTable ν} {v : View} (h : TableInv t L v none none) (r x : Nat) :
    .fetchFailed r x ∈ t.hist ↔ t.fate x = some (r, .failed) := by
  rw [← List.count_pos_iff, count_fetchFailed h.lawful]
  unfold ReqTable.fate
  constructor
  · intro hpos
    split at hpos
    · rename_i r' hf
      by_cases hr : r' = r
      · rw [hf, hr]
      · rw [if_neg hr] at hpos
        omega
    · omega
  · intro hf
    rw [hf]
    show 0 < if r = r then 1 else 0
    rw [if_pos rfl]
    omega

/-- **Without a failed fetch everything agrees.** -/
theorem Inv.accounted {s : Proxy ν} (h : s.Inv L) {r : Nat} {q : Req}
    (hr : s.table.reqs r = some q) (ht : q.timeout = false)
    (hret : ∀ todo, s.table.handler ≠ .acquireShards r todo)
    (hfetch : ∀ x, .fetchFailed r x ∉ s.table.hist) : s.Accounted r q (L r) := by
  have hlisted : ∀ x ∈ L r, ∃ f, s.table.fate x = some (r, f) ∧ f.Listed ∧ f ≠ .failed
      ∧ SubAt (s.table.subs x) s.view r x f := by
    intro x hx
    obtain ⟨f, hf, hl⟩ := h.table.owner hx
    obtain ⟨hat, -⟩ := h.table.alive hf hr
    refine ⟨f, hf, hl, ?_, hat (fun hc => by cases hc)⟩
    intro hfail
    rw [hfail] at hf
    exact hfetch x ((fetchFailed_iff h.table r x).2 hf)
  have htodo : s.table.handler.todo r = 0 := by
    unfold Handler.todo
    split
    · rename_i r' todo hh
      by_cases hrr : r' = r
      · rw [hrr] at hh
        exact absurd hh (hret todo)
      · rw [if_neg hrr]
    · rfl
  refine ⟨h.table.lists.queue r _ (heads_of hr), ?_, ?_, ?_, ?_⟩
  · -- every listed sub-request counts
    obtain ⟨-, -, -, hcount, -⟩ := h.table.running hr ht
    have hall : (L r).countP (fun x => isCounted (s.table.fate x)) = (L r).length := by
      rw [List.countP_eq_length]
      intro x hx
      obtain ⟨f, hf, hl, hne, -⟩ := hlisted x hx
      rw [hf]
      show decide f.Counted = true
      cases f with
      | failed => exact absurd rfl hne
      | waiting => rfl
      | held _ => rfl
      | refused _ => rfl
      | answered _ => exact hl.elim
      | finished _ => exact hl.elim
      | removed => exact hl.elim
    rw [hcount]
    unfold ReqTable.expected
    rw [hall, htodo]
    rfl
  · intro x hx
    obtain ⟨f, -, hl, -, hat⟩ := hlisted x hx
    cases hat with
    | waiting sr n ho hsr _ _ _ => exact ⟨sr, ho, hsr⟩
    | failed sr ho hsr _ _ => exact ⟨sr, ho, hsr⟩
    | held sr c ho hsr _ _ _ => exact ⟨sr, ho, hsr⟩
    | refused sr handle ho hsr _ => exact ⟨sr, ho, hsr⟩
    | finished _ _ => exact hl.elim
    | removed _ => exact hl.elim
  · intro x hx sr hs hstate
    obtain ⟨f, -, hl, hne, hat⟩ := hlisted x hx
    rw [hs] at hat
    cases hat with
    | waiting sr' n ho _ _ hnode hn =>
        cases ho
        exact h.ownsNode hnode hn
    | failed _ _ _ _ _ => exact absurd rfl hne
    | held sr' c ho _ hst _ _ =>
        cases ho
        rw [hst] at hstate
        cases hstate
    | refused sr' handle ho _ hst =>
        cases ho
        rw [hst] at hstate
        cases hstate
    | finished _ _ => exact hl.elim
    | removed _ => exact hl.elim
  · intro x hx sr hs hstate
    obtain ⟨r', q', c, hf, -, -, hc, hgiven⟩ := h.table.held_of hs hstate
    exact h.ownsConnection hc hgiven

end Proxy

/-- **Sub-request accounting.**  In any state a proxy can reach, for any request
that is there, whose time is not over and for which `router_acquire_shards` has
returned: the counter, the list, the waiting queues and the connections agree if
and only if no `pool_fetch_connect` for the request has returned -1. -/
theorem proxy_accounting_iff {sizes : Nat → Proxy.PoolSize} {s : Proxy ν}
    (h : (proxyLts ν sizes).Reachable s) {r : Nat} {q : Req} (hr : s.table.reqs r = some q)
    (ht : q.timeout = false) (hret : ∀ todo, s.table.handler ≠ .acquireShards r todo) :
    (∃ l, s.Accounted r q l) ↔ ∀ x, .fetchFailed r x ∉ s.table.hist := by
  obtain ⟨L, hinv⟩ := Proxy.reachable_inv h
  constructor
  · intro hacc x hx
    obtain ⟨l, hl⟩ := hacc
    have hq := hinv.table.lists.queue r _ (heads_of hr)
    have hLl : L r = l := hq.chain.unique hl.list.chain (hq.head.symm.trans hl.list.head)
    -- it is still on the list, and has no node
    have hf := (Proxy.fetchFailed_iff hinv.table r x).1 hx
    obtain ⟨hat, -, hlist, -⟩ := hinv.table.alive hf hr
    have hmem : x ∈ L r := by
      rcases hlist trivial with hm | ⟨hlate, -⟩
      · exact hm
      · rw [ht] at hlate
        cases hlate
    cases hat (fun hc => by cases hc) with
    | failed sr ho _ hstate hnode =>
        rw [hLl] at hmem
        obtain ⟨n, W, hn, -⟩ := hl.waiting x hmem sr ho hstate
        rw [hnode] at hn
        cases hn
  · intro hfetch
    exact ⟨L r, hinv.accounted hr ht hret hfetch⟩

/-- The request is issued and waits; the router has returned. -/
def waitingSteps : List (ProxyStep Unit) := [.acquire (firstServer 0), .acquire (firstServer 0)]

theorem waitingSteps_enabled : oneKeyProxy.AllEnabled waitingSteps := by
  refine ⟨⟨nofun, rfl, 0, _, rfl, ?_⟩, ⟨nofun, rfl, 0, _, rfl, nofun⟩, trivial⟩
  intro c i hc hi
  cases hc
  have hi0 : some 0 = some i := hi
  cases hi0
  exact ⟨⟨by decide, rfl⟩, rfl⟩

theorem proxy_accounting_iff_witness :
    ∃ l, (oneKeyProxy.execAll waitingSteps).Accounted 0 ⟨1, some 0, false, false, 0, true⟩ l := by
  refine (proxy_accounting_iff (Proxy.reachable_execAll oneKeyProxy_reachable waitingSteps_enabled)
    rfl rfl nofun).2 ?_
  intro x hx
  have hx' : Event.fetchFailed 0 x ∈ [Event.ready 0, .issued 0 0] := hx
  simp at hx'

/-- Two keys. -/
def twoKeys : Int → BackendReq Unit := fun i => ⟨[i.toNat.toUInt8], (), 0⟩

/-- The first key is in shard 0 and every other in shard 1; pool 0 has no servers. -/
def twoRouter : Router Nat where
  routerFlag := 0
  shardFunc := fun _ h => if h = (strhash [0]).toUInt32.toInt32 then 0 else 1
  poolMapR := Int.toNat
  poolMapW := Int.toNat

/-- The call for shard 0. -/
def firstCall : ShardCall Unit Nat :=
  twoRouter.shardCall (calcShardKeys twoRouter twoKeys 2) true ⟨1, 0, 0⟩ 1

/-- The call for shard 1. -/
def secondCall : ShardCall Unit Nat :=
  twoRouter.shardCall (calcShardKeys twoRouter twoKeys 2) true ⟨2, 1, 1⟩ 2

/-- Two elements in order are left as they are. -/
theorem quicksort_two {m : Int → BackendReq Unit} (h : (m 0).shardKey ≤ (m 1).shardKey) :
    quicksort m 0 1 = m := by
  have hp : partitionLoop m (m 0) 0 1 = (m, 0) := by
    have hloop : partitionLoop m (m 0) 0 1 = partitionLoop m (m 0) 0 0 := by
      rw [partitionLoop]
      simp [scanDown, scanUp, h]
    rw [hloop, partitionLoop, dif_neg (by decide)]
  rw [quicksort, dif_neg (by decide)]
  simp only [hp]
  rw [Function.update_eq_self, quicksort, dif_pos (by decide), quicksort, dif_pos (by decide)]

theorem twoKeys_shardEvents :
    shardEvents twoRouter (sortShards twoRouter twoKeys (2 : Nat)) true 2 ShardLoop.init
      = [.call firstCall, .call secondCall] := by
  have hkey : ∀ i : Int, twoRouter.shardKeyOf (twoKeys i).key
      = if (strhash [i.toNat.toUInt8]).toUInt32.toInt32 = (strhash [0]).toUInt32.toInt32 then 0
        else 1 := fun _ => rfl
  have h0 : (calcShardKeys twoRouter twoKeys 2 0).shardKey = 0 := by
    show twoRouter.shardKeyOf (twoKeys 0).key = 0
    rw [hkey]
    exact if_pos rfl
  have h1 : (calcShardKeys twoRouter twoKeys 2 1).shardKey = 1 := by
    show twoRouter.shardKeyOf (twoKeys 1).key = 1
    rw [hkey]
    exact if_neg (by decide)
  have hle : (calcShardKeys twoRouter twoKeys 2 0).shardKey
      ≤ (calcShardKeys twoRouter twoKeys 2 1).shardKey := by
    rw [h0, h1]
    decide
  have hs : sortShards twoRouter twoKeys (2 : Nat) = calcShardKeys twoRouter twoKeys 2 :=
    quicksort_two hle
  rw [hs]
  simp only [shardEvents, ShardLoop.init, ShardLoop.next, ShardLoop.ends, Int.zero_add, h0, h1]
  rfl

/-- Pool 0 has no server, pool 1 lets the sub-request wait; the router has
returned. -/
def failedFetchSteps : List (ProxyStep Unit) :=
  [.acquire (firstServer 0), .acquire (firstServer 0), .acquire (firstServer 0)]

/-- One sub-request counts, but two are listed. -/
theorem proxy_accounting_fails :
    ¬ ∀ (s : Proxy Unit) (r : Nat) (q : Req), (proxyLts Unit smallPools).Reachable s →
      s.table.reqs r = some q → q.timeout = false →
      (∀ todo, s.table.handler ≠ .acquireShards r todo) → ∃ l, s.Accounted r q l := by
  intro hall
  have hstart : (proxyLts Unit smallPools).Reachable
      (Proxy.afterReady 2 [.call firstCall, .call secondCall]) := by
    refine (Lts.Reachable.init rfl).step
      (Proxy.afterReady_step twoRouter twoKeys (by decide) ?_ twoKeys_shardEvents)
    intro i _ _
    show (0 : Int) ≤ if _ then 0 else 1
    split <;> decide
  have hen : (Proxy.afterReady 2 [.call firstCall, .call secondCall]).AllEnabled
      failedFetchSteps := by
    refine ⟨⟨nofun, rfl, 0, _, rfl, ?_⟩, ⟨nofun, rfl, 0, _, rfl, ?_⟩, ⟨nofun, rfl, 0, _, rfl, nofun⟩,
      trivial⟩
    · intro c i hc hi
      cases hc
      cases hi
    · intro c i hc hi
      cases hc
      have hi0 : some 0 = some i := hi
      cases hi0
      exact ⟨⟨by decide, rfl⟩, rfl⟩
  obtain ⟨l, hl⟩ := hall _ 0 ⟨1, some 1, false, false, 503, true⟩
    (Proxy.reachable_execAll hstart hen) rfl rfl nofun
  have hlen : (1 : Int) = ((l.length + 0 : Nat) : Int) := hl.count
  have hone : l.length = 1 := by omega
  obtain ⟨x, rfl⟩ := List.length_eq_one_iff.1 hone
  -- the list starts with 1, which is not its last
  have hhead : some 1 = some x := hl.list.head
  cases hhead
  have hnext : some 0 = none := hl.list.chain.2.1
  cases hnext

end RedisAgent
