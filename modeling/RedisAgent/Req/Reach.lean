/-
  RedisAgent.Req.Reach — one step and a whole run of a proxy.

  `Proxy.Inv` puts the invariant of the request table and those of the servers
  together.  Each step of `ProxyStep` keeps it, so it holds in every state a
  proxy can reach; everything above this file reads it and looks at no step.
-/
import RedisAgent.Req.Bridge

namespace RedisAgent

open Links

variable {ν : Type*} {L : Nat → List Nat}

namespace Proxy

/-! ## §1. The invariant of a proxy. -/

structure Inv (s : Proxy ν) (L : Nat → List Nat) : Prop where
  table : TableInv s.table L s.view none none
  pools : s.PoolsInv s.table.nextSub

theorem PoolsInv.mono {s : Proxy ν} {b b' : Nat} (h : s.PoolsInv b) (hb : b ≤ b') :
    s.PoolsInv b' :=
  ⟨h.servers, fun k i x hx => Nat.lt_of_lt_of_le (h.known k i x hx) hb⟩

/-- Only the table has changed. -/
theorem Inv.ofTable {s : Proxy ν} {L' : Nat → List Nat} {t : ReqTable ν} (h : s.Inv L)
    (ht : TableInv t L' s.view none none) (hn : t.nextSub = s.table.nextSub) :
    ({ s with table := t } : Proxy ν).Inv L' := by
  refine ⟨ht, ⟨h.pools.servers, ?_⟩⟩
  intro k i x hx
  show x < t.nextSub
  rw [hn]
  exact h.pools.known k i x hx

/-- Who waits has been issued. -/
theorem waiting_lt {s : Proxy ν} {t : ReqTable ν} {hole owed : Option Nat}
    (h : TableInv t L s.view hole owed) :
    ∀ n x, s.view.wait n = some x → x < t.nextSub := by
  intro n x hn
  obtain ⟨-, r, sr, hf, -⟩ := h.waits n x hn
  exact h.born hf

theorem onPool_nextSub (s : Proxy ν) (k i : Nat) (op : SrvOp Nat) :
    (s.onPool k i op).table.nextSub = s.table.nextSub := by
  have hall : ∀ (calls : List (Option Handle × Nat)) (t : ReqTable ν),
      (calls.foldl (fun t c => t.reqOnAcquired (c.1.map (ConnRef.mk k i)) c.2) t).nextSub
        = t.nextSub := by
    intro calls
    induction calls with
    | nil => intro t; rfl
    | cons c calls ih =>
        intro t
        rw [List.foldl_cons, ih]
        rfl
  rw [onPool_table, hall]

/-- An operation that returns nothing, with nothing done to the table before. -/
theorem Inv.onPool {s : Proxy ν} {k i : Nat} {op : SrvOp Nat} (h : s.Inv L)
    (hen : (s.server k i).Enabled op) (hop : op.Silent)
    (hsame : (op.enter (s.server k i).ghost).given = (s.server k i).ghost.given) :
    (s.onPool k i op).Inv L := by
  constructor
  · refine onPool_silent h.pools hen hop ?_
    rw [enterView_same hsame]
    exact h.table
  · rw [onPool_nextSub]
    refine h.pools.onPool hen (waiting_lt h.table) ?_
    intro x wq now heq
    rw [heq] at hop
    exact hop.elim

/-! ## §2. The router's loop. -/

theorem shardCountDown_nextSub (t : ReqTable ν) (r : Nat) :
    (t.shardCountDown r).nextSub = t.nextSub := by
  have hdone : ∀ t : ReqTable ν, (t.reqDone r).nextSub = t.nextSub := by
    intro t
    unfold ReqTable.reqDone
    split
    · rfl
    · split <;> rfl
  unfold ReqTable.shardCountDown
  split
  · rfl
  · simp only
    split
    · exact hdone _
    · rfl

/-- **`req_on_getshards`** -/
theorem Inv.getshards {s : Proxy ν} {r : Nat} {env : FetchEnv} {c : ShardCall ν Nat}
    {todo : List (ShardEvent ν Nat)} (h : s.Inv L)
    (hh : s.table.handler = .acquireShards r (.call c :: todo))
    (hpick : ∀ i, (s.pools c.pool).pool.pickServer env.balance env.serverid = some i →
      (s.server c.pool i).info.waitSub env.wq = none) :
    ∃ L', (s.acquireStep r env (.call c :: todo)).Inv L' := by
  obtain ⟨q, hr, ht, -, hnext⟩ := h.table.nextEvent hh
  have hissued := hnext.issue c hr ht rfl
  obtain ⟨t, htable⟩ : ∃ t, t = ({ s.table with handler := .acquireShards r todo } :
      ReqTable ν).issue r q c := ⟨_, rfl⟩
  have hnextSub : t.nextSub = s.table.nextSub + 1 := by rw [htable]; rfl
  have hstep : s.acquireStep r env (.call c :: todo)
      = ({ s with table := { s.table with handler := .acquireShards r todo } } :
        Proxy ν).reqOnGetshards r c env := rfl
  have hnone : (s.pools c.pool).pool.pickServer env.balance env.serverid = none →
      s.acquireStep r env (.call c :: todo)
        = { s with table := t.fetchFailed r s.table.nextSub } := by
    intro hpick
    rw [hstep, htable]
    unfold reqOnGetshards
    simp only [hr, hpick]
  have hsome : ∀ i, (s.pools c.pool).pool.pickServer env.balance env.serverid = some i →
      s.acquireStep r env (.call c :: todo)
        = ({ s with table := t } : Proxy ν).poolFetchConnect c.pool i s.table.nextSub env := by
    intro i hpick
    rw [hstep, htable]
    unfold reqOnGetshards
    simp only [hr, hpick]
  have hissued' : TableInv t (Function.update L r (s.table.nextSub :: L r)) s.view
      (some s.table.nextSub) none := by
    rw [htable]
    exact hissued
  cases hcase : (s.pools c.pool).pool.pickServer env.balance env.serverid with
  | none =>
      rw [hnone hcase]
      have hreq : t.reqs r = some { q with
          subReqNotDone := (reqSubreqQueuePush (s.table.links.clear s.table.nextSub)
            q.subReqNotDone s.table.nextSub).2 } := by
        rw [htable]
        exact Function.update_self ..
      have hsub : t.subs s.table.nextSub
          = some ⟨c.reqs, c.num, r, none, .beforeRequestPool, none⟩ := by
        rw [htable]
        exact Function.update_self ..
      have hfailed := hissued'.fetchFailed storeErrServiceUnavailable hreq ht hsub rfl rfl
      obtain ⟨L', hdown⟩ := hfailed.countDown (modReq_at hreq _)
      refine ⟨L', hdown, ?_⟩
      show PoolsInv _ (ReqTable.shardCountDown _ r).nextSub
      rw [shardCountDown_nextSub]
      show PoolsInv _ t.nextSub
      rw [hnextSub]
      have hmono := h.pools.mono (Nat.le_succ _)
      exact ⟨hmono.servers, hmono.known⟩
  | some i =>
      rw [hsome i hcase]
      have hen : (({ s with table := t } : Proxy ν).server c.pool i).Enabled
          (.fetch s.table.nextSub env.wq env.now) := by
        refine ⟨hpick i hcase, ?_⟩
        intro hmem
        have hlt := h.pools.known c.pool i _ hmem
        omega
      have hmono := h.pools.mono (Nat.le_succ _)
      have hpools : ({ s with table := t } : Proxy ν).PoolsInv (s.table.nextSub + 1) :=
        ⟨hmono.servers, hmono.known⟩
      refine ⟨_, poolFetchConnect_inv hpools hen hissued', ?_⟩
      have hbound : (({ s with table := t } : Proxy ν).poolFetchConnect c.pool i s.table.nextSub
          env).table.nextSub = s.table.nextSub + 1 := by
        show (Proxy.onPool _ _ _ _).table.nextSub = _
        rw [onPool_nextSub]
        exact hnextSub
      rw [hbound]
      refine PoolsInv.onPool ⟨hpools.servers, hpools.known⟩ hen ?_ ?_
      · intro n x hn
        have hlt := waiting_lt (s := s) hissued' n x hn
        omega
      · intro x wq now heq
        cases heq
        exact Nat.lt_succ_self _

/-- **`router_acquire_shards`**, one event further. -/
theorem Inv.acquire {s : Proxy ν} {r : Nat} {env : FetchEnv} {todo : List (ShardEvent ν Nat)}
    (h : s.Inv L) (hh : s.table.handler = .acquireShards r todo)
    (hpick : ∀ c i, todo.head? = some (.call c) →
      (s.pools c.pool).pool.pickServer env.balance env.serverid = some i →
        (s.server c.pool i).info.waitSub env.wq = none) :
    ∃ L', (s.acquireStep r env todo).Inv L' := by
  cases todo with
  | nil => exact ⟨L, h.ofTable (h.table.routerReturn hh) rfl⟩
  | cons e todo =>
      cases e with
      | duplicate => exact ⟨L, h.ofTable (h.table.duplicate hh) rfl⟩
      | call c => exact h.getshards hh (fun i => hpick c i rfl)

/-! ## §3. Completions. -/

/-- **`req_on_shard_done`**, up to the return of `pool_release_connect`. -/
theorem Inv.shardDone {s : Proxy ν} {x : Nat} {sr : SubReq ν} (h : s.Inv L)
    (hs : s.table.subs x = some sr) (hstate : sr.state = .poolReturned) (errNo : Int)
    (now : Timeval) : ∃ L', (s.reqOnShardDone x errNo now).Inv L' := by
  obtain ⟨r, q, c, hf, hr, hsr, hc, hmem⟩ := h.table.held_of hs hstate
  subst hsr
  obtain ⟨d, U, F, W, hinv⟩ := h.pools.servers c.pool c.server
  have hslot := hinv.slot c.handle.poolData (fun hd => by cases hd)
  have hgiven : s.view.given c.slot = [(c.handle, x)] := (hslot.of_given hmem).2.2.2.1
  have hstep : s.reqOnShardDone x errNo now
      = Proxy.onPool { s with table := (s.table.shardDoneBegin x sr q).note (.released x c) }
        c.pool c.server (.release c.handle (errNo ≠ 0) now) := by
    unfold reqOnShardDone
    simp only [hs, hr, hc]
  have hdone := h.table.shardDone hs hstate hr hc hgiven
  have hen : (s.server c.pool c.server).Enabled (.release c.handle (errNo ≠ 0) now) := ⟨x, hmem⟩
  have hpools : PoolsInv { s with
      table := (s.table.shardDoneBegin x sr q).note (.released x c) } s.table.nextSub :=
    ⟨h.pools.servers, h.pools.known⟩
  rw [hstep]
  refine ⟨Function.update L sr.r ((L sr.r).erase x), ?_, ?_⟩
  · refine onPool_silent hpools hen trivial ?_
    rw [enterView_release]
    exact hdone
  · rw [onPool_nextSub]
    refine hpools.onPool hen (fun n y hn => waiting_lt h.table n y hn) ?_
    intro y wq now heq
    cases heq

/-- **The same call, from there on.** -/
theorem Inv.releaseReturn {s : Proxy ν} {r x : Nat} {stack : List CallFrame} (h : s.Inv L)
    (hstack : s.table.stack = .shardDone r x :: stack) :
    ∃ L', ({ s with table := { s.table with stack := stack }.shardDoneEnd r x } : Proxy ν).Inv
      L' := by
  obtain ⟨⟨q, hr⟩, hback⟩ := h.table.shardDoneReturned hstack
  obtain ⟨L', hdown⟩ := hback.countDown hr
  exact ⟨L', h.ofTable hdown (shardCountDown_nextSub _ _)⟩

/-! ## §4. The clean-up loop. -/

/-- **A pass over a sub-request that waits at a node.** -/
theorem Inv.cleanupNode {s : Proxy ν} {r x : Nat} {q : Req} {n : WaitNode} (h : s.Inv L)
    (hh : s.table.handler = .timeoutCleanup r) (hr : s.table.reqs r = some q)
    (ht : q.timeout = true) (hx : q.subReqNotDone = some x) (hn : s.view.wait n = some x) :
    ∃ L', (cleanupWaiting { s with table := s.table.pop r q x } r x (some n)).Inv L' := by
  obtain ⟨hen, htable, htaken⟩ := onPool_waitRm h.pools hn h.table
  have hstep : cleanupWaiting { s with table := s.table.pop r q x } r x (some n)
      = { s.onPool n.pool n.server (.waitRm n.wq) with
          table := ((((s.table.pop r q x).note (.removed x)).note (.absentNode x)).setSub x
            none).modReq r fun q => { q with shardCount := q.shardCount - 1 } } := by
    have hpopped := htable ((s.table.pop r q x).note (.removed x))
    show ({ (Proxy.onPool { s with table := (s.table.pop r q x).note (.removed x) } n.pool n.server
        (.waitRm n.wq)) with
      table := (((Proxy.onPool { s with table := (s.table.pop r q x).note (.removed x) } n.pool n.server
        (.waitRm n.wq)).table.note (.absentNode x)).setSub x none).modReq r
          fun q => { q with shardCount := q.shardCount - 1 } } : Proxy ν) = _
    rw [hpopped]
    rfl
  have hr' : ((((s.table.pop r q x).note (.removed x)).note (.absentNode x)).setSub x none).reqs r
      = some { q with subReqNotDone := s.table.links.next x } := Function.update_self ..
  have hreqs := modReq_reqs hr' (fun q => { q with shardCount := q.shardCount - 1 })
  obtain ⟨L', hpop⟩ := htaken.popWaiting
    { q with subReqNotDone := s.table.links.next x, shardCount := q.shardCount - 1 }
    hr ht hx hh rfl (hreqs.trans (Function.update_idem ..)) rfl rfl rfl ⟨rfl, rfl, rfl, rfl⟩
  rw [hstep]
  refine ⟨L', hpop, ?_⟩
  have hpools := h.pools.onPool hen (waiting_lt h.table) (fun y wq now heq => by cases heq)
  exact ⟨hpools.servers, hpools.known⟩

/-- A pass over a sub-request that is there. -/
theorem cleanupPass_of {s : Proxy ν} {r x : Nat} {q : Req} {sr : SubReq ν}
    (hr : s.table.reqs r = some q) (hx : q.subReqNotDone = some x)
    (hs : s.table.subs x = some sr) : s.cleanupPass r = match sr.state with
      | .beforeRequestPool =>
          cleanupWaiting { s with table := s.table.pop r q x } r x sr.poolWaitingNode
      | .poolReturned =>
          { s with table := { s.table.pop r q x with handler := .backendTimeout r x } }
      | .backendReturned => { s with table := s.table.pop r q x } := by
  have hs' : (s.table.pop r q x).subs x = some sr := hs
  unfold cleanupPass
  cases hstate : sr.state with
  | beforeRequestPool => simp only [hr, hx, hs', hstate]
  | poolReturned => simp only [hr, hx, hs', hstate]
  | backendReturned => simp only [hr, hx, hs', hstate]

/-- **A pass of the clean-up loop.** -/
theorem Inv.cleanup {s : Proxy ν} {r : Nat} (h : s.Inv L) (hstack : s.table.stack = [])
    (hh : s.table.handler = .timeoutCleanup r) : ∃ L', (s.cleanupPass r).Inv L' := by
  have hinv := h.table.handler
  rw [hh] at hinv
  obtain ⟨q, hr, ht⟩ := hinv
  cases hx : q.subReqNotDone with
  | none =>
      obtain ⟨L', hend⟩ := h.table.cleanupEnd hh hstack hr hx
      have hpass : s.cleanupPass r
          = { s with table := { s.table.reqFail r with handler := .eventLoop } } := by
        unfold cleanupPass
        simp only [hr, hx]
      rw [hpass]
      refine ⟨L', h.ofTable hend ?_⟩
      obtain ⟨-, -, -, -, -, -, hnext, -⟩ := reqFail_of hr (h.table.late hr ht).1
      exact hnext
  | some x =>
      obtain ⟨l, f, -, hf, hlisted, -⟩ := h.table.popFront hr hx
      obtain ⟨hat, -⟩ := h.table.alive hf hr
      have hfate : ∀ f', s.table.fate x = some (r, f') → f' = f := by
        intro f' hf'
        rw [hf] at hf'
        cases hf'
        rfl
      cases hsub : s.table.subs x with
      | none =>
          rw [hsub] at hat
          cases hat (fun hc => by cases hc) with
          | waiting _ _ ho _ _ _ _ => cases ho
          | failed _ ho _ _ _ => cases ho
          | held _ _ ho _ _ _ _ => cases ho
          | refused _ _ ho _ _ => cases ho
          | finished _ _ => exact hlisted.elim
          | removed _ => exact hlisted.elim
      | some sr =>
          rw [hsub] at hat
          rw [cleanupPass_of hr hx hsub]
          cases hat (fun hc => by cases hc) with
          | waiting sr' n ho _ hstate hnode hn =>
              cases ho
              rw [hstate, hnode]
              exact h.cleanupNode hh hr ht hx hn
          | failed sr' ho _ hstate hnode =>
              -- no node was ever made: the null pointer is dereferenced
              cases ho
              rw [hstate, hnode]
              obtain ⟨L', hpop⟩ := h.table.pop .crashed hr ht hx hh
                (Or.inr ⟨Or.inr rfl, fun f' hf' hp => by rw [hfate f' hf'] at hp; exact hp⟩)
              exact ⟨L', h.ofTable (hpop.crash rfl) rfl⟩
          | held sr' c ho _ hstate _ _ =>
              cases ho
              rw [hstate]
              obtain ⟨L', hpop⟩ := h.table.pop (.backendTimeout r x) hr ht hx hh (Or.inl rfl)
              exact ⟨L', h.ofTable hpop rfl⟩
          | refused sr' handle ho _ hstate =>
              cases ho
              rw [hstate]
              obtain ⟨L', hpop⟩ := h.table.pop s.table.handler hr ht hx hh
                (Or.inr ⟨Or.inl hh, fun f' hf' hp => by rw [hfate f' hf'] at hp; exact hp⟩)
              exact ⟨L', h.ofTable hpop rfl⟩
          | finished _ _ => exact hlisted.elim
          | removed _ => exact hlisted.elim

/-! ## §5. Every step, and every run. -/

/-- **`pool_destroy`** calls no sub-request. -/
theorem Inv.poolDestroy {s : Proxy ν} {k : Nat} (h : s.Inv L) :
    ({ s with pools := Function.update s.pools k ((s.pools k).exec .destroy) } : Proxy ν).Inv
      L := by
  obtain ⟨s', hs'⟩ : ∃ s' : Proxy ν, s' = { s with
    pools := Function.update s.pools k ((s.pools k).exec .destroy) } := ⟨_, rfl⟩
  -- each server is left alone or destroyed, and the requests see neither
  have hserver : ∀ k' i, s'.conf k' = s.conf k'
      ∧ (s'.server k' i = s.server k' i
        ∨ s'.server k' i = (s.server k' i).exec (s.conf k') .destroy) := by
    intro k' i
    have hpools : s'.pools = Function.update s.pools k ((s.pools k).exec .destroy) := by rw [hs']
    unfold conf server
    rw [hpools]
    by_cases hk : k' = k
    · subst hk
      obtain ⟨h1, h2, -⟩ := (s.pools k').exec_srv .destroy i
      rw [Function.update_self]
      refine ⟨h2, ?_⟩
      rw [h1]
      unfold PoolOp.onto
      by_cases hi : i < (s.pools k').pool.serverCount.toNat
      · simp only [if_pos hi]
        exact Or.inr rfl
      · simp only [if_neg hi]
        exact Or.inl rfl
    · rw [Function.update_of_ne hk]
      exact ⟨rfl, Or.inl rfl⟩
  have hquiet : ∀ k' i, (∃ d U F W, (s'.server k' i).Inv (s.conf k') d U F W)
      ∧ (s'.server k' i).info.waitSub = (s.server k' i).info.waitSub
      ∧ (s'.server k' i).ghost.given = (s.server k' i).ghost.given
      ∧ (s'.server k' i).ghost.hist = (s.server k' i).ghost.hist := by
    intro k' i
    obtain ⟨d, U, F, W, hinv⟩ := h.pools.servers k' i
    rcases (hserver k' i).2 with heq | heq
    · rw [heq]
      exact ⟨⟨d, U, F, W, hinv⟩, rfl, rfl, rfl⟩
    · obtain ⟨F', hinv', hq, -⟩ := serverDestroy_inv hinv
      rw [heq]
      exact ⟨⟨d, U, F', W, hinv'⟩, hq.waitSub, hq.given, hq.hist⟩
  have hview : s'.view = s.view := by
    refine view_of ?_ ?_
    · funext n
      show (s'.server n.pool n.server).info.waitSub n.wq = _
      rw [(hquiet n.pool n.server).2.1]
    · funext sl
      show (s'.server sl.pool sl.server).ghost.given sl.slot = _
      rw [(hquiet sl.pool sl.server).2.2.1]
  have htable : s'.table = s.table := by rw [hs']
  rw [← hs']
  constructor
  · rw [hview, htable]
    exact h.table
  · rw [htable]
    constructor
    · intro k' i
      rw [(hserver k' i).1]
      exact (hquiet k' i).1
    · intro k' i x hx
      rw [(hquiet k' i).2.2.2] at hx
      exact h.pools.known k' i x hx

/-- **One step.** -/
theorem Inv.step {s : Proxy ν} {l : ProxyStep ν} (h : s.Inv L) (hen : s.Enabled l) :
    ∃ L', (s.exec l).Inv L' := by
  cases l with
  | ready g m keyNum isRead =>
      obtain ⟨⟨hh, -⟩, hpos, hnn⟩ := hen
      exact ⟨L, h.ofTable (h.table.ready hh g m keyNum isRead hpos hnn) rfl⟩
  | reject errNo =>
      obtain ⟨hh, -⟩ := hen
      obtain ⟨L', hdone⟩ := h.table.reject hh errNo
      have hq := modReq_at (t := s.table.reqCreate) (Function.update_self ..)
        (fun q => { q with errNo := errNo })
      obtain ⟨-, -, -, -, -, -, hnext, -⟩ := reqFail_of hq rfl
      exact ⟨L', h.ofTable hdone hnext⟩
  | acquire env =>
      obtain ⟨-, r, todo, hh, hpick⟩ := hen
      have hexec : s.exec (.acquire env) = s.acquireStep r env todo := by
        unfold exec
        simp only [hh]
      rw [hexec]
      exact h.acquire hh (fun c i hc hi => (hpick c i hc hi).2)
  | callReturn ret =>
      obtain ⟨x, stack, hstack, hret⟩ := hen
      have hexec : s.exec (.callReturn ret)
          = { s with table := { s.table with stack := stack }.callReturned x ret } := by
        unfold exec
        simp only [hstack]
      have hnext : ({ s.table with stack := stack }.callReturned x ret).nextSub
          = s.table.nextSub := by
        unfold ReqTable.callReturned
        split <;> rfl
      rw [hexec]
      exact ⟨L, h.ofTable (h.table.callReturned hstack hret) hnext⟩
  | shardDone x errNo now =>
      obtain ⟨sr, hs, hstate⟩ := hen
      exact h.shardDone hs hstate errNo now
  | releaseReturn =>
      obtain ⟨r, x, stack, hstack⟩ := hen
      have hexec : s.exec .releaseReturn
          = { s with table := { s.table with stack := stack }.shardDoneEnd r x } := by
        unfold exec
        simp only [hstack]
      rw [hexec]
      exact h.releaseReturn hstack
  | timeout r =>
      obtain ⟨⟨hh, -⟩, q, hr, -⟩ := hen
      exact ⟨L, h.ofTable (h.table.timeout hh hr) rfl⟩
  | cleanup =>
      obtain ⟨hstack, r, hh⟩ := hen
      have hexec : s.exec .cleanup = s.cleanupPass r := by
        unfold exec
        simp only [hh]
      rw [hexec]
      exact h.cleanup hstack hh
  | timeoutReturn =>
      obtain ⟨-, r, x, hh, hx⟩ := hen
      have hexec : s.exec .timeoutReturn = { s with table := s.table.timeoutReturned r } := by
        unfold exec
        simp only [hh]
      rw [hexec]
      exact ⟨L, h.ofTable (h.table.timeoutReturned hh hx) rfl⟩
  | pool k i op =>
      obtain ⟨hout, -, hsen⟩ := hen
      cases op with
      | fetch _ _ _ => exact hout.elim
      | release _ _ _ => exact hout.elim
      | waitRm _ => exact hout.elim
      | destroy => exact hout.elim
      | created hd status now => exact ⟨L, h.onPool hsen trivial rfl⟩
      | destroyed hd => exact ⟨L, h.onPool hsen trivial rfl⟩
      | monitor => exact ⟨L, h.onPool hsen trivial rfl⟩
  | poolDestroy k => exact ⟨L, h.poolDestroy⟩

/-- Before anything has happened. -/
theorem start_inv (sizes : Nat → PoolSize) : (start sizes : Proxy ν).Inv (fun _ => []) := by
  have hsrv : ∀ k i, (start sizes : Proxy ν).server k i
      = ⟨serverBuild (sizes k).connectPerServer, Ghost.start⟩ := fun _ _ => rfl
  have hfate : ∀ x, (start sizes : Proxy ν).table.fate x = none := fun _ => rfl
  constructor
  · refine ⟨⟨?_, fun _ _ => rfl, ?_⟩, ?_, ?_, nofun, ?_, nofun, trivial, .nil, .nil, ?_, ?_, ?_⟩
    · intro r hd hr
      cases hr
    · intro r r' x hx
      cases hx
    · intro x
      exact .unborn rfl rfl (fun _ => List.not_mem_nil)
    · intro r
      exact .gone rfl rfl rfl (Or.inl rfl)
    · intro n x hn
      have hn' : ((start sizes : Proxy ν).server n.pool n.server).info.waitSub n.wq = some x := hn
      have hempty := (serverBuild_inv (σ := Nat) ((start sizes : Proxy ν).conf n.pool)).waitSub n.wq
      rw [hsrv] at hn'
      refine absurd (hempty.1 ?_) List.not_mem_nil
      intro hnone
      have hcontra : none = some x := hnone.symm.trans hn'
      cases hcontra
    · intro x
      exact ⟨fun _ => Nat.zero_le x, fun _ => rfl⟩
    · intro r
      exact ⟨fun _ => Nat.zero_le r, fun _ => rfl⟩
    · intro r
      exact Nat.le_refl _
  · constructor
    · intro k i
      rw [hsrv]
      exact ⟨_, _, _, _, serverBuild_inv ((start sizes : Proxy ν).conf k)⟩
    · intro k i x hx
      cases hx

end Proxy

/-- **Every run.** -/
theorem Proxy.reachable_inv {sizes : Nat → Proxy.PoolSize} {s : Proxy ν}
    (h : (proxyLts ν sizes).Reachable s) : ∃ L, s.Inv L := by
  refine h.invariant (P := fun s => ∃ L, s.Inv L) ?_ ?_
  · intro s hs
    rw [hs]
    exact ⟨_, start_inv sizes⟩
  · intro s l s' _ ih hstep
    obtain ⟨L, hinv⟩ := ih
    obtain ⟨-, hen, rfl⟩ := hstep
    exact hinv.step hen

/-! ## §6. Runs given by their steps. -/

/-- Each step keeps its promises when its turn comes. -/
abbrev Proxy.AllEnabled (s : Proxy ν) (ls : List (ProxyStep ν)) : Prop :=
  Lts.AllEnabled Proxy.exec (fun s l => s.table.handler ≠ .crashed ∧ s.Enabled l) s ls

abbrev Proxy.execAll (s : Proxy ν) (ls : List (ProxyStep ν)) : Proxy ν := Lts.execAll Proxy.exec s ls

theorem Proxy.reachable_execAll {sizes : Nat → Proxy.PoolSize} {s : Proxy ν}
    {ls : List (ProxyStep ν)} (h : (proxyLts ν sizes).Reachable s) (hen : s.AllEnabled ls) :
    (proxyLts ν sizes).Reachable (s.execAll ls) := by
  obtain ⟨tr, hrun⟩ := h
  have hstep : ∀ (s : Proxy ν) l, s.table.handler ≠ .crashed ∧ s.Enabled l →
      (proxyLts ν sizes).step s l (s.exec l) := fun _ _ h => ⟨h.1, h.2, rfl⟩
  exact ⟨_, Lts.Run.execAll hstep ls hrun hen⟩

/-- Pool `k` has `k` servers with one slot each. -/
def smallPools : Nat → Proxy.PoolSize := fun k => ⟨k, 1, 0⟩

/-- A proxy whose first request has `keyNum` keys, for which the router has this to
do. -/
def Proxy.afterReady (keyNum : Nat) (todo : List (ShardEvent ν Nat)) : Proxy ν where
  pools := (Proxy.start smallPools : Proxy ν).pools
  table :=
    { (Proxy.start smallPools : Proxy ν).table.reqCreate.modReq 0
        fun q => { q with shardCount := keyNum } with
      handler := .acquireShards 0 todo }

theorem Proxy.afterReady_step {keyNum : Nat} {todo : List (ShardEvent ν Nat)} (g : Router Nat)
    (m : Int → BackendReq ν) (hpos : 1 ≤ keyNum)
    (hnn : ∀ i : Int, 0 ≤ i → i < keyNum → 0 ≤ g.shardKeyOf (m i).key)
    (htodo : shardEvents g (sortShards g m keyNum) true keyNum ShardLoop.init = todo) :
    (proxyLts ν smallPools).step (Proxy.start smallPools) (.ready g m keyNum true)
      (Proxy.afterReady keyNum todo) := by
  refine ⟨nofun, ⟨⟨rfl, rfl⟩, hpos, hnn⟩, ?_⟩
  subst htodo
  rfl

/-- One key. -/
def oneKey : Int → BackendReq Unit := fun _ => ⟨[], (), 0⟩

/-- Every key is in shard 1, and shard `k` in pool `k`. -/
def oneRouter : Router Nat := ⟨0, fun _ _ => 1, Int.toNat, Int.toNat⟩

/-- The one call the router makes for it. -/
def oneCall : ShardCall Unit Nat :=
  oneRouter.shardCall (calcShardKeys oneRouter oneKey 1) true ⟨1, 0, 1⟩ 1

/-- A proxy that has one request, with one key, in pool 1. -/
def oneKeyProxy : Proxy Unit := Proxy.afterReady 1 [.call oneCall]

theorem oneKeyProxy_step : (proxyLts Unit smallPools).step (Proxy.start smallPools)
    (.ready oneRouter oneKey 1 true) oneKeyProxy := by
  refine Proxy.afterReady_step oneRouter oneKey (Nat.le_refl 1) (fun _ _ _ => Int.one_nonneg) ?_
  have hs : sortShards oneRouter oneKey (1 : Nat) = calcShardKeys oneRouter oneKey 1 := by
    unfold sortShards
    rw [quicksort, dif_pos (by decide)]
    rfl
  rw [hs]
  rfl

theorem oneKeyProxy_reachable : (proxyLts Unit smallPools).Reachable oneKeyProxy :=
  (Lts.Reachable.init rfl).step oneKeyProxy_step

/-- What a fetch gets from outside where the balancer picks server 0. -/
def firstServer (wq : Nat) : Proxy.FetchEnv := ⟨wq, {}, fun _ => 0, 0⟩

end RedisAgent
