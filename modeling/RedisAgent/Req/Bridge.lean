/-
  RedisAgent.Req.Bridge — where the requests meet the pools.

  `Proxy.view` is what the requests see of the pools.  What an operation of
  pool.cpp does to it is what `Effect` says, and that is what the request table
  has a rule for: `take` and `grant` where a connection came back, `grant` or
  `queue` where one was fetched.
-/
import RedisAgent.Pool.Reach
import RedisAgent.Req.Entries
import RedisAgent.Req.Proxy

namespace RedisAgent

open Links

variable {ν : Type*} {L : Nat → List Nat} {hole owed : Option Nat}

/-! ## §1. The pools after an operation. -/

/-- Server `i` of pool `k`. -/
def Proxy.server (s : Proxy ν) (k i : Nat) : Srv Nat := (s.pools k).srv i

/-- The settings of pool `k`. -/
def Proxy.conf (s : Proxy ν) (k : Nat) : PoolConf := (s.pools k).pool.conf

namespace Proxy

theorem onPool_pools (s : Proxy ν) (k i : Nat) (op : SrvOp Nat) :
    (s.onPool k i op).pools = Function.update s.pools k ((s.pools k).onServer i op).1 := rfl

/-- The operation is done to that server, and to no other. -/
theorem onPool_server (s : Proxy ν) (k i : Nat) (op : SrvOp Nat) (k' i' : Nat) :
    (s.onPool k i op).server k' i'
      = if k = k' ∧ i = i' then (s.server k i).exec (s.conf k) op else s.server k' i' := by
  unfold server
  rw [onPool_pools]
  by_cases hk : k = k'
  · subst hk
    rw [Function.update_self, PoolState.onServer_srv]
    by_cases hi : i = i'
    · subst hi
      rw [if_pos rfl, if_pos ⟨rfl, rfl⟩]
      rfl
    · rw [if_neg hi, if_neg (fun h => hi h.2)]
      rfl
  · rw [Function.update_of_ne (Ne.symm hk), if_neg (fun h => hk h.1)]

theorem onPool_conf (s : Proxy ν) (k i : Nat) (op : SrvOp Nat) (k' : Nat) :
    (s.onPool k i op).conf k' = s.conf k' := by
  unfold conf
  rw [onPool_pools]
  by_cases hk : k' = k
  · rw [hk, Function.update_self, PoolState.onServer_conf]
  · rw [Function.update_of_ne hk]

/-- The callbacks a pool makes are those of the operation. -/
theorem callbacks_onServer {σ : Type*} (p : PoolState σ) (i : Nat) (op : SrvOp σ) :
    callbacks ((p.onServer i op).2.map Prod.snd)
      = callbacks (op.code p.pool.conf (p.pool.serverArr i)).2 := by
  have hmap : ∀ calls : List (Call σ), (calls.map (fun c => (i, c))).map Prod.snd = calls := by
    intro calls
    rw [List.map_map]
    exact List.map_id calls
  unfold PoolState.onServer PoolInfo.onServer
  simp only
  split
  · -- the owner of the pool is told, which is no callback
    show callbacks ((if _ then _ else _ : Calls σ).map Prod.snd) = _
    split
    · unfold callbacks
      rw [List.map_append, hmap, List.filterMap_append]
      exact List.append_nil _
    · rw [hmap]
  · show callbacks (List.map Prod.snd _) = _
    rw [hmap]

theorem onPool_table (s : Proxy ν) (k i : Nat) (op : SrvOp Nat) :
    (s.onPool k i op).table = (callbacks (op.code (s.conf k) (s.server k i).info).2).foldl
      (fun t c => t.reqOnAcquired (c.1.map (ConnRef.mk k i)) c.2) s.table := by
  show (callbacks (((s.pools k).onServer i op).2.map Prod.snd)).foldl _ s.table = _
  rw [callbacks_onServer]
  rfl

/-! ## §2. What the requests see. -/

def view (s : Proxy ν) : View where
  wait n := (s.server n.pool n.server).info.waitSub n.wq
  given sl := (s.server sl.pool sl.server).ghost.given sl.slot

/-- The view once the call of `op` has given up what it returns. -/
def enterView (s : Proxy ν) (k i : Nat) (op : SrvOp Nat) : View :=
  { s.view with
    given := fun sl =>
      if k = sl.pool ∧ i = sl.server then (op.enter (s.server k i).ghost).given sl.slot
      else s.view.given sl }

theorem onPool_wait {s : Proxy ν} {k i a : Nat} {op : SrvOp Nat} {o : Option Nat}
    (h : ((s.server k i).exec (s.conf k) op).info.waitSub
      = Function.update (s.server k i).info.waitSub a o) :
    (s.onPool k i op).view.wait = Function.update s.view.wait ⟨k, i, a⟩ o := by
  funext n
  show ((s.onPool k i op).server n.pool n.server).info.waitSub n.wq = _
  rw [onPool_server]
  by_cases hn : k = n.pool ∧ i = n.server
  · rw [if_pos hn, h]
    by_cases ha : n.wq = a
    · have hnode : n = ⟨k, i, a⟩ := by
        obtain ⟨rfl, rfl⟩ := hn
        rw [← ha]
      rw [ha, hnode, Function.update_self, Function.update_self]
    · have hnode : n ≠ ⟨k, i, a⟩ := fun heq => ha (congrArg WaitNode.wq heq)
      rw [Function.update_of_ne ha, Function.update_of_ne hnode, hn.1, hn.2]
      rfl
  · have hnode : n ≠ ⟨k, i, a⟩ := by
      intro heq
      rw [heq] at hn
      exact hn ⟨rfl, rfl⟩
    rw [if_neg hn, Function.update_of_ne hnode]
    rfl

theorem onPool_wait_same {s : Proxy ν} {k i : Nat} {op : SrvOp Nat}
    (h : ((s.server k i).exec (s.conf k) op).info.waitSub = (s.server k i).info.waitSub) :
    (s.onPool k i op).view.wait = s.view.wait := by
  have hsame : (s.onPool k i op).view.wait
      = Function.update s.view.wait ⟨k, i, 0⟩ ((s.server k i).info.waitSub 0) :=
    onPool_wait (by rw [h, Function.update_eq_self])
  rw [hsame]
  exact Function.update_eq_self (f := s.view.wait) (⟨k, i, 0⟩ : WaitNode)

theorem onPool_given {s : Proxy ν} {k i j : Nat} {op : SrvOp Nat} {l : List (Handle × Nat)}
    (h : ((s.server k i).exec (s.conf k) op).ghost.given
      = Function.update (op.enter (s.server k i).ghost).given j l) :
    (s.onPool k i op).view.given = Function.update (s.enterView k i op).given ⟨k, i, j⟩ l := by
  funext sl
  show ((s.onPool k i op).server sl.pool sl.server).ghost.given sl.slot = _
  rw [onPool_server]
  by_cases hsl : k = sl.pool ∧ i = sl.server
  · rw [if_pos hsl, h]
    by_cases hj : sl.slot = j
    · have hslot : sl = ⟨k, i, j⟩ := by
        obtain ⟨rfl, rfl⟩ := hsl
        rw [← hj]
      rw [hj, hslot, Function.update_self, Function.update_self]
    · have hslot : sl ≠ ⟨k, i, j⟩ := fun heq => hj (congrArg Slot.slot heq)
      rw [Function.update_of_ne hj, Function.update_of_ne hslot]
      show _ = if k = sl.pool ∧ i = sl.server then _ else _
      rw [if_pos hsl]
  · have hslot : sl ≠ ⟨k, i, j⟩ := by
      intro heq
      rw [heq] at hsl
      exact hsl ⟨rfl, rfl⟩
    rw [if_neg hsl, Function.update_of_ne hslot]
    show _ = if k = sl.pool ∧ i = sl.server then _ else _
    rw [if_neg hsl]
    rfl

theorem onPool_given_same {s : Proxy ν} {k i : Nat} {op : SrvOp Nat}
    (h : ((s.server k i).exec (s.conf k) op).ghost.given = (op.enter (s.server k i).ghost).given) :
    (s.onPool k i op).view.given = (s.enterView k i op).given := by
  have hsame : (s.onPool k i op).view.given = Function.update (s.enterView k i op).given ⟨k, i, 0⟩
      ((op.enter (s.server k i).ghost).given 0) :=
    onPool_given (by rw [h, Function.update_eq_self])
  have hat : (op.enter (s.server k i).ghost).given 0 = (s.enterView k i op).given ⟨k, i, 0⟩ := by
    show _ = if k = k ∧ i = i then _ else _
    rw [if_pos ⟨rfl, rfl⟩]
  rw [hsame, hat, Function.update_eq_self]

/-- An operation that returns nothing. -/
theorem enterView_same {s : Proxy ν} {k i : Nat} {op : SrvOp Nat}
    (h : (op.enter (s.server k i).ghost).given = (s.server k i).ghost.given) :
    s.enterView k i op = s.view := by
  have hgiven : (s.enterView k i op).given = s.view.given := by
    funext sl
    show (if k = sl.pool ∧ i = sl.server then _ else _) = _
    by_cases hsl : k = sl.pool ∧ i = sl.server
    · rw [if_pos hsl, h, hsl.1, hsl.2]
      rfl
    · rw [if_neg hsl]
  show View.mk s.view.wait (s.enterView k i op).given = s.view
  rw [hgiven]

/-- `pool_release_connect` gives the connection up. -/
theorem enterView_release {s : Proxy ν} {k i : Nat} (h : Handle) (errclose : Bool)
    (now : Timeval) : s.enterView k i (.release h errclose now)
      = { s.view with given := Function.update s.view.given ⟨k, i, h.poolData⟩ [] } := by
  have hgiven : (s.enterView k i (.release h errclose now)).given
      = Function.update s.view.given ⟨k, i, h.poolData⟩ [] := by
    funext sl
    show (if k = sl.pool ∧ i = sl.server then
      Function.update (s.server k i).ghost.given h.poolData [] sl.slot else _) = _
    by_cases hsl : k = sl.pool ∧ i = sl.server
    · rw [if_pos hsl]
      by_cases hj : sl.slot = h.poolData
      · have hslot : sl = ⟨k, i, h.poolData⟩ := by
          obtain ⟨rfl, rfl⟩ := hsl
          rw [← hj]
        rw [hj, hslot, Function.update_self, Function.update_self]
      · have hslot : sl ≠ ⟨k, i, h.poolData⟩ := fun heq => hj (congrArg Slot.slot heq)
        rw [Function.update_of_ne hj, Function.update_of_ne hslot, hsl.1, hsl.2]
        rfl
    · have hslot : sl ≠ ⟨k, i, h.poolData⟩ := by
        intro heq
        rw [heq] at hsl
        exact hsl ⟨rfl, rfl⟩
      rw [if_neg hsl, Function.update_of_ne hslot]
  show View.mk s.view.wait (s.enterView k i (.release h errclose now)).given = _
  rw [hgiven]

theorem view_of {s : Proxy ν} {w : WaitNode → Option Nat} {g : Slot → List (Handle × Nat)}
    (hw : s.view.wait = w) (hg : s.view.given = g) : s.view = ⟨w, g⟩ := by
  rw [← hw, ← hg]

/-! ## §3. The rules. -/

/-- The servers keep their invariants, and have heard of no sub-request from
`bound` on. -/
structure PoolsInv (s : Proxy ν) (bound : Nat) : Prop where
  servers : ∀ k i, ∃ d U F W, (s.server k i).Inv (s.conf k) d U F W
  known : ∀ k i x, x ∈ (s.server k i).ghost.hist.map WaitEvent.sub → x < bound

end Proxy

/-- A server hears of a sub-request when it is fetched for. -/
theorem Effect.known {s s' : Srv Nat} {op : SrvOp Nat} {calls : List (Call Nat)} {W W' : List Nat}
    (h : Effect s op s' calls W W') {x : Nat} (hx : x ∈ s'.ghost.hist.map WaitEvent.sub) :
    x ∈ s.ghost.hist.map WaitEvent.sub ∨ (∃ a, s.info.waitSub a = some x)
      ∨ ∃ wq now, op = .fetch x wq now := by
  have hadd : ∀ {e : WaitEvent Nat}, s'.ghost.hist = s.ghost.hist ++ [e] →
      x ∈ s.ghost.hist.map WaitEvent.sub ∨ x = e.sub := by
    intro e he
    rw [he, List.map_append, List.mem_append, List.map_singleton, List.mem_singleton] at hx
    exact hx
  cases h with
  | quiet _ _ _ hhist _ =>
      rw [hhist] at hx
      exact Or.inl hx
  | granted a hd y _ hy _ _ _ hhist _ =>
      rcases hadd hhist with hold | heq
      · exact Or.inl hold
      · exact Or.inr (Or.inl ⟨a, by rw [heq]; exact hy⟩)
  | direct hd y wq now _ _ _ hhist _ =>
      rcases hadd hhist with hold | heq
      · exact Or.inl hold
      · exact Or.inr (Or.inr ⟨wq, now, by rw [heq]; rfl⟩)
  | queued y wq now _ _ hhist _ =>
      rcases hadd hhist with hold | heq
      · exact Or.inl hold
      · exact Or.inr (Or.inr ⟨wq, now, by rw [heq]; rfl⟩)
  | removed wq y hy _ _ hhist _ =>
      rcases hadd hhist with hold | heq
      · exact Or.inl hold
      · exact Or.inr (Or.inl ⟨wq, by rw [heq]; exact hy⟩)

namespace Proxy

theorem PoolsInv.onPool {s : Proxy ν} {bound k i : Nat} {op : SrvOp Nat} (h : s.PoolsInv bound)
    (hen : (s.server k i).Enabled op) (hwait : ∀ n x, s.view.wait n = some x → x < bound)
    (hfetch : ∀ x wq now, op = .fetch x wq now → x < bound) : (s.onPool k i op).PoolsInv bound := by
  obtain ⟨d, U, F, W, hinv⟩ := h.servers k i
  obtain ⟨U', F', W', hinv', heff⟩ := Srv.exec_inv hinv hen
  constructor
  · intro k' i'
    rw [onPool_server, onPool_conf]
    by_cases hat : k = k' ∧ i = i'
    · rw [if_pos hat, ← hat.1]
      exact ⟨_, U', F', W', hinv'⟩
    · rw [if_neg hat]
      exact h.servers k' i'
  · intro k' i' x hx
    rw [onPool_server] at hx
    by_cases hat : k = k' ∧ i = i'
    · rw [if_pos hat] at hx
      rcases heff.known hx with hold | ⟨a, ha⟩ | ⟨wq, now, heq⟩
      · exact h.known k i x hold
      · exact hwait ⟨k, i, a⟩ x ha
      · exact hfetch x wq now heq
    · rw [if_neg hat] at hx
      exact h.known k' i' x hx

/-- **A connection may have come back**: if it did, the first that waits has it. -/
theorem onPool_silent {s : Proxy ν} {bound k i : Nat} {op : SrvOp Nat} (hp : s.PoolsInv bound)
    (hen : (s.server k i).Enabled op) (hop : op.Silent)
    (h : TableInv s.table L (s.enterView k i op) none owed) :
    TableInv (s.onPool k i op).table L (s.onPool k i op).view none owed := by
  obtain ⟨d, U, F, W, hinv⟩ := hp.servers k i
  obtain ⟨-, -, W', -, heff⟩ := Srv.exec_inv hinv hen
  have htable := s.onPool_table k i op
  cases heff with
  | quiet _ hws hgiven _ hcalls =>
      rw [hcalls] at htable
      rw [htable, view_of (onPool_wait_same hws) (onPool_given_same hgiven)]
      exact h
  | granted a hd y _ hy hfree hws hgiven _ hcalls =>
      rw [hcalls] at htable
      have hslot : (s.enterView k i op).given ⟨k, i, hd.poolData⟩ = [] := by
        show (if k = k ∧ i = i then _ else _) = _
        rw [if_pos ⟨rfl, rfl⟩]
        exact hfree
      have htaken := h.take (n := ⟨k, i, a⟩) (x := y) hy
      rw [htable, view_of (onPool_wait hws) (onPool_given hgiven)]
      exact htaken.grant ⟨k, i, hd⟩ hslot
  | direct _ _ _ _ _ _ _ _ _ => exact hop.elim
  | queued _ _ _ _ _ _ _ => exact hop.elim
  | removed _ _ _ _ _ _ _ => exact hop.elim

/-- **A waiting node is removed**, which calls nobody; its sub-request is then in
nobody's hands. -/
theorem onPool_waitRm {s : Proxy ν} {bound x : Nat} {n : WaitNode} (hp : s.PoolsInv bound)
    (hn : s.view.wait n = some x) (h : TableInv s.table L s.view none owed) :
    (s.server n.pool n.server).Enabled (.waitRm n.wq)
      ∧ (∀ t : ReqTable ν,
        (onPool { s with table := t } n.pool n.server (.waitRm n.wq)).table = t)
      ∧ TableInv s.table L (s.onPool n.pool n.server (.waitRm n.wq)).view (some x) owed := by
  have hen : (s.server n.pool n.server).Enabled (.waitRm n.wq) := by
    show (s.server n.pool n.server).info.waitSub n.wq ≠ none
    intro hnone
    have hn' : (s.server n.pool n.server).info.waitSub n.wq = some x := hn
    rw [hnone] at hn'
    cases hn'
  obtain ⟨d, U, F, W, hinv⟩ := hp.servers n.pool n.server
  obtain ⟨-, -, W', -, heff⟩ := Srv.exec_inv hinv hen
  refine ⟨hen, ?_⟩
  cases heff with
  | quiet hop _ _ _ _ => exact hop.elim
  | granted _ _ _ hop _ _ _ _ _ _ => exact hop.elim
  | removed _ y hy hws hgiven _ hcalls =>
      have hsame : s.enterView n.pool n.server (.waitRm n.wq) = s.view := enterView_same rfl
      constructor
      · intro t
        rw [onPool_table]
        show (callbacks (SrvOp.code (s.conf n.pool) (s.server n.pool n.server).info
          (.waitRm n.wq)).2).foldl _ t = t
        rw [hcalls]
        rfl
      · rw [view_of (onPool_wait hws) (onPool_given_same hgiven), hsame]
        exact h.take hn

end Proxy

/-- `pool_fetch_connect` sets the waiting node exactly if nobody is called. -/
theorem serverFetchConnect_result {σ : Type*} (pool : PoolConf) (t : ServerInfo σ) (y : σ)
    (wq : Nat) (now : Timeval) : (serverFetchConnect pool t y wq now).1
      = if callbacks (serverFetchConnect pool t y wq now).2.2 = [] then some wq else none := by
  unfold serverFetchConnect
  by_cases hhead : t.connectQueue.head ≠ none
  · rw [if_pos hhead]
    obtain ⟨j, hj⟩ := Option.ne_none_iff_exists'.1 hhead
    have hget : ∃ t', poolConnectQueueGet t = (some j, t') := by
      unfold poolConnectQueueGet popFront
      rw [hj]
      exact ⟨_, rfl⟩
    obtain ⟨t', hget⟩ := hget
    show none = if callbacks (poolFetchConnectFromConnectqueue t y now).2 = [] then _ else _
    unfold poolFetchConnectFromConnectqueue
    rw [hget]
    rfl
  · rw [if_neg hhead]
    have hcalls : callbacks (if t.connectCount < pool.connectPerServer then poolCreateNewConnect t
        else (t, [])).2 = [] := by
      split
      · unfold poolCreateNewConnect
        split <;> rfl
      · rfl
    show some wq = if callbacks (if t.connectCount < pool.connectPerServer then
      poolCreateNewConnect t else (t, [])).2 = [] then _ else _
    rw [if_pos hcalls]

/-- **`pool_fetch_connect`**: the sub-request has a connection, or waits. -/
theorem Proxy.poolFetchConnect_inv {s : Proxy ν} {bound k i sub : Nat} {env : FetchEnv}
    (hp : s.PoolsInv bound) (hen : (s.server k i).Enabled (.fetch sub env.wq env.now))
    (h : TableInv s.table L s.view (some sub) owed) :
    TableInv (s.poolFetchConnect k i sub env).table L (s.poolFetchConnect k i sub env).view none
      owed := by
  obtain ⟨d, U, F, W, hinv⟩ := hp.servers k i
  obtain ⟨-, -, W', -, heff⟩ := Srv.exec_inv hinv hen
  have hresult := serverFetchConnect_result (s.conf k) (s.server k i).info sub env.wq env.now
  obtain ⟨-, -, sr, -, -, hs, -, -⟩ := h.hand
  -- the write to `pool_waiting_node`, done before the operation
  have hnode := h.modNode ((serverFetchConnect (s.conf k) (s.server k i).info sub env.wq
    env.now).1.map (WaitNode.mk k i))
  obtain ⟨s1, hs1⟩ : ∃ s1 : Proxy ν, s1 = { s with
      table := s.table.modSub sub fun sr => { sr with
        poolWaitingNode := (serverFetchConnect (s.conf k) (s.server k i).info sub env.wq
          env.now).1.map (WaitNode.mk k i) } } := ⟨_, rfl⟩
  have hfetch : s.poolFetchConnect k i sub env = s1.onPool k i (.fetch sub env.wq env.now) := by
    rw [hs1]
    rfl
  have hserver : s1.server k i = s.server k i := by rw [hs1]; rfl
  have hconf : s1.conf k = s.conf k := by rw [hs1]; rfl
  have hview : s1.view = s.view := by rw [hs1]; rfl
  have hsub : s1.table.subs sub = some { sr with
      poolWaitingNode := (serverFetchConnect (s.conf k) (s.server k i).info sub env.wq
        env.now).1.map (WaitNode.mk k i) } := by
    rw [hs1]
    show Function.update s.table.subs sub ((s.table.subs sub).map _) sub = _
    rw [Function.update_self, hs]
    rfl
  have h1 : TableInv s1.table L s1.view (some sub) owed := by
    rw [hview, hs1]
    exact hnode
  have htable := s1.onPool_table k i (.fetch sub env.wq env.now)
  have hsame : s1.enterView k i (.fetch sub env.wq env.now) = s1.view := enterView_same rfl
  rw [← hserver, ← hconf] at heff hresult
  rw [hfetch]
  cases heff with
  | quiet hop _ _ _ _ => exact hop.elim
  | granted _ _ _ hop _ _ _ _ _ _ => exact hop.elim
  | direct hd y wq now hfree hws hgiven _ hcalls =>
      rw [hcalls] at htable
      rw [htable, view_of (onPool_wait_same hws) (onPool_given hgiven), hsame]
      exact h1.grant ⟨k, i, hd⟩ hfree
  | queued y wq now hws hgiven _ hcalls =>
      have hcalls' : callbacks (serverFetchConnect (s1.conf k) (s1.server k i).info sub env.wq
          env.now).2.2 = [] := hcalls
      rw [hcalls] at htable
      rw [if_pos hcalls'] at hresult
      rw [← hserver, ← hconf, hresult] at hsub
      have hempty : s1.view.wait ⟨k, i, env.wq⟩ = none := by
        show (s1.server k i).info.waitSub env.wq = none
        rw [hserver]
        exact hen.1
      rw [htable, view_of (onPool_wait hws) (onPool_given_same hgiven), hsame]
      exact h1.queue hsub rfl hempty

end RedisAgent
