/-
  RedisAgent.Pool.Env — runs of a pool that do not stop at a tear-down.

  `poolLts` ends a server's life when `_pool_server_destroyed` runs: no later
  operation is allowed there.  Whether that is so is a question about the code,
  so here the environment keeps the same promises and nothing else is assumed: an
  answer that is still outstanding arrives at a server that is torn down as at
  any other, and is executed on the memory it left.

  Main results:
    • `PoolState.env_srv` — a run of the pool is a run of each of its servers;
    • `PoolState.mem_callsOf` — what server `i` calls, its own step calls;
    • `SrvOp.code_tells` — `_pool_server_destroyed` runs at most once in one
      operation, and sets `freed`;
    • `PoolState.env_flags` — before `pool_destroy` nothing is torn down.
-/
import RedisAgent.Pool.Ownership

namespace RedisAgent

open Links

variable {σ : Type*}

/-! ## §1. The runs. -/

/-- One server, with nothing but the promises of its environment. -/
def srvEnvLts (pool : PoolConf) (σ : Type*) : Lts (Srv σ) (SrvOp σ) where
  init s := s = ⟨serverBuild pool.connectPerServer, Ghost.start⟩
  step s op s' := s.Enabled op ∧ s' = s.exec pool op

/-- What the environment promises about a whole pool: the balancer picks one of
its servers, every `pool_fetch_connect` is for a new sub-request, `pool_destroy`
is called once. -/
def PoolState.Promised (p : PoolState σ) : PoolOp σ → Prop
  | .fetch sub wq _ balance serverid =>
      ∀ i, p.pool.pickServer balance serverid = some i →
        i < p.built ∧ (p.pool.serverArr i).waitSub wq = none
          ∧ ∀ k, sub ∉ (p.ghost k).hist.map WaitEvent.sub
  | .server i op => op.IsCallback ∧ i < p.built ∧ (p.srv i).Enabled op
  | .destroy => ∀ i, i < p.built → (p.pool.serverArr i).monitorEvent = true

/-- Every run of a pool from `pool_build` on, tear-downs included. -/
def poolEnvLts (σ : Type*) (serverCount : Nat) (connectPerServer connectRetry : Int) :
    Lts (PoolState σ) (PoolOp σ) where
  init p := p = PoolState.start serverCount connectPerServer connectRetry
  step p op p' := p.Promised op ∧ p' = p.exec op

/-- **A whole run of a server.** -/
theorem Srv.env_inv {pool : PoolConf} {tr : List (Srv σ × SrvOp σ)} {s : Srv σ}
    (h : (srvEnvLts pool σ).Run tr s) : ∃ U F W, s.Inv pool (driftOf tr) U F W := by
  refine h.history (P := fun tr s => ∃ U F W, s.Inv pool (driftOf tr) U F W) ?_ ?_
  · intro s hs
    rw [hs]
    exact ⟨_, _, _, serverBuild_inv pool⟩
  · intro tr s op s' _ ih hstep
    obtain ⟨U, F, W, hinv⟩ := ih
    obtain ⟨hen, rfl⟩ := hstep
    obtain ⟨U', F', W', h1, -⟩ := Srv.exec_inv hinv hen
    refine ⟨U', F', W', ?_⟩
    unfold driftOf at h1 ⊢
    rw [List.map_append, List.sum_append, List.map_singleton, List.sum_singleton]
    exact h1

/-! ## §2. What one operation tells about a tear-down. -/

/-- The call is `m_destroy_cb` of the pool's owner. -/
def Call.isPoolDestroyed : Call σ → Bool
  | .poolDestroyed => true
  | _ => false

/-- What the result of an operation that started at `t` says about a tear-down:
`_pool_server_destroyed` ran at most once, and whether it ran is seen in `freed`.
The owner is told by `PoolInfo.onServer` alone, and the other two flags stand. -/
structure Tells (t : ServerInfo σ) (r : Out σ) : Prop where
  owner : r.2.countP Call.isPoolDestroyed = 0
  once : r.2.countP Call.isServerDestroyed ≤ 1
  freed : r.1.freed = (t.freed || r.2.any Call.isServerDestroyed)
  flags : r.1.destroyFlag = t.destroyFlag ∧ r.1.monitorEvent = t.monitorEvent

/-- An operation that tears nothing down. -/
theorem Tells.silent {t : ServerInfo σ} {r : Out σ} (hp : r.2.countP Call.isPoolDestroyed = 0)
    (hs : r.2.countP Call.isServerDestroyed = 0) (hf : SameFlags t r.1) : Tells t r := by
  refine ⟨hp, by omega, ?_, hf.1, hf.2.1⟩
  have hany : r.2.any Call.isServerDestroyed = false := by
    rw [List.any_eq_false]
    intro c hc
    exact List.countP_eq_zero.1 hs c hc
  rw [hany, hf.2.2, Bool.or_false]

/-- The flags are all that is told of the state before. -/
theorem Tells.congr {t t' : ServerInfo σ} {r : Out σ} (h : Tells t r) (ht : SameFlags t' t) :
    Tells t' r := by
  refine ⟨h.owner, h.once, ?_, h.flags.1.trans ht.1, h.flags.2.trans ht.2.1⟩
  rw [h.freed, ht.2.2]

/-- A call that is no tear-down, made first. -/
theorem Tells.cons {t : ServerInfo σ} {r : Out σ} {c : Call σ} (h : Tells t r)
    (hc : c.isServerDestroyed = false) (hc' : c.isPoolDestroyed = false) :
    Tells t (r.1, c :: r.2) := by
  refine ⟨?_, ?_, ?_, h.flags⟩
  · rw [List.countP_cons, h.owner, hc']
    rfl
  · have hle := h.once
    rw [List.countP_cons, hc]
    simpa using hle
  · show r.1.freed = _
    rw [h.freed, List.any_cons, hc, Bool.false_or]

/-- `_pool_server_destroyed`, with whatever calls came before it. -/
theorem Tells.destroyed {t : ServerInfo σ} : Tells t (poolServerDestroyed t) :=
  ⟨rfl, Nat.le_refl 1, (Bool.or_true t.freed).symm, rfl, rfl⟩

/-- Queue functions leave the flags alone. -/
theorem poolConnectQueueGet_flags (t : ServerInfo σ) : SameFlags t (poolConnectQueueGet t).2 := by
  unfold poolConnectQueueGet
  rcases t.node.popFront t.connectQueue with ⟨_ | j, k, e⟩ <;> exact ⟨rfl, rfl, rfl⟩

theorem poolServerDestroyLoop_tells (fuel : Nat) :
    ∀ (j : Option Nat) (t : ServerInfo σ), Tells t (poolServerDestroyLoop fuel j t) := by
  induction fuel with
  | zero =>
      intro j t
      exact .silent rfl rfl ⟨rfl, rfl, rfl⟩
  | succ fuel ih =>
      intro j t
      cases j with
      | none => exact .silent rfl rfl ⟨rfl, rfl, rfl⟩
      | some j =>
          rw [poolServerDestroyLoop]
          exact ((ih _ (poolConnectQueueGet t).2).congr (poolConnectQueueGet_flags t)).cons rfl rfl

theorem poolServerDestroy_tells (pool : PoolConf) (t : ServerInfo σ) :
    Tells t (poolServerDestroy pool t) := by
  have hflags := poolConnectQueueGet_flags t
  unfold poolServerDestroy
  rcases hget : poolConnectQueueGet t with ⟨_ | j, t'⟩
  · rw [hget] at hflags
    exact Tells.destroyed.congr hflags
  · rw [hget] at hflags
    exact (poolServerDestroyLoop_tells pool.slots (some j) t').congr hflags

theorem poolPutBackConnect_tells (pool : PoolConf) (t : ServerInfo σ) (j : Nat) (now : Timeval) :
    Tells t (poolPutBackConnect pool t j now) := by
  have hget : SameFlags t (poolWaitingQueueGet t).2 := by
    unfold poolWaitingQueueGet
    cases t.waitingQueue.head <;> exact ⟨rfl, rfl, rfl⟩
  unfold poolPutBackConnect
  rcases hr : poolWaitingQueueGet t with ⟨_ | y, t'⟩
  · rw [hr] at hget
    simp only
    split
    · exact ((poolServerDestroy_tells pool (poolConnectQueuePut t' j)).congr hget).cons rfl rfl
    · exact .silent rfl rfl hget
  · rw [hr] at hget
    exact .silent rfl rfl hget

theorem poolCreateNewConnect_tells (t : ServerInfo σ) : Tells t (poolCreateNewConnect t) := by
  unfold poolCreateNewConnect poolUnconnectQueueGet
  rcases t.node.popFront t.unconnectQueue with ⟨_ | j, k, e⟩ <;>
    exact .silent rfl rfl ⟨rfl, rfl, rfl⟩

/-- What an operation does to the flags before it looks at them. -/
def SrvOp.mark (t : ServerInfo σ) : SrvOp σ → ServerInfo σ
  | .destroy => { t with monitorEvent := false, destroyFlag := true }
  | _ => t

@[simp] theorem SrvOp.mark_freed (t : ServerInfo σ) (op : SrvOp σ) :
    (op.mark t).freed = t.freed := by
  cases op <;> rfl

theorem SrvOp.mark_of_ne (t : ServerInfo σ) {op : SrvOp σ} (h : op ≠ .destroy) : op.mark t = t := by
  cases op with
  | destroy => exact absurd rfl h
  | _ => rfl

/-- **Every operation tells.** -/
theorem SrvOp.code_tells (pool : PoolConf) (t : ServerInfo σ) (op : SrvOp σ) :
    Tells (op.mark t) (op.code pool t) := by
  cases op with
  | fetch y wq now =>
      show Tells t (serverFetchConnect pool t y wq now).2
      unfold serverFetchConnect poolFetchConnectFromConnectqueue poolConnectQueueGet
      split
      · rcases t.node.popFront t.connectQueue with ⟨_ | j, k, e⟩ <;>
          exact .silent rfl rfl ⟨rfl, rfl, rfl⟩
      · simp only
        split
        · have h := poolCreateNewConnect_tells t
          exact ⟨h.owner, h.once, h.freed, h.flags⟩
        · exact .silent rfl rfl ⟨rfl, rfl, rfl⟩
  | release hd errclose now =>
      show Tells t (poolReleaseConnect pool t hd errclose now)
      unfold poolReleaseConnect
      simp only
      split
      · exact ((poolPutBackConnect_tells pool _ hd.poolData now).cons rfl rfl).congr ⟨rfl, rfl, rfl⟩
      · exact .silent rfl rfl ⟨rfl, rfl, rfl⟩
  | created hd status now =>
      show Tells t (poolOnConnectCreated pool t hd status now)
      unfold poolOnConnectCreated
      simp only
      split
      · exact (poolPutBackConnect_tells pool
          { t.setConn hd.poolData
              { t.connectArr hd.poolData with inUse := false, toBeDestroyed := false } with
            connectCount := t.connectCount + 1 } hd.poolData now).congr ⟨rfl, rfl, rfl⟩
      · split
        · exact (poolServerDestroy_tells pool ((poolUnconnectQueuePut (t.setConn hd.poolData
            { t.connectArr hd.poolData with inUse := false, toBeDestroyed := false })
            hd.poolData).setConn hd.poolData
            { (poolUnconnectQueuePut (t.setConn hd.poolData
              { t.connectArr hd.poolData with inUse := false, toBeDestroyed := false })
              hd.poolData).connectArr hd.poolData with handle := none })).congr ⟨rfl, rfl, rfl⟩
        · exact .silent rfl rfl ⟨rfl, rfl, rfl⟩
  | destroyed hd =>
      show Tells t (poolOnConnectDestroyed t hd)
      unfold poolOnConnectDestroyed
      simp only
      split
      · exact .silent rfl rfl ⟨rfl, rfl, rfl⟩
      · generalize hrm : (if (t.connectArr hd.poolData).inUse = true then t
          else poolConnectQueueRm t hd.poolData) = t'
        have hflags : SameFlags t t' := by
          rw [← hrm]
          split <;> exact ⟨rfl, rfl, rfl⟩
        split
        · exact (Tells.destroyed.cons rfl rfl).congr hflags
        · exact .silent rfl rfl hflags
  | waitRm wq =>
      show Tells t (poolWaitingQueueRm pool t wq)
      unfold poolWaitingQueueRm
      simp only
      split
      · exact (poolServerDestroy_tells pool (poolWaitingQueueUnlink t wq)).congr ⟨rfl, rfl, rfl⟩
      · exact .silent rfl rfl ⟨rfl, rfl, rfl⟩
  | monitor =>
      show Tells t (serverConnectMonitor pool t)
      unfold serverConnectMonitor
      split
      · exact poolCreateNewConnect_tells t
      · exact .silent rfl rfl ⟨rfl, rfl, rfl⟩
  | destroy =>
      show Tells { t with monitorEvent := false, destroyFlag := true } (serverDestroy pool t)
      unfold serverDestroy
      simp only
      split
      · exact poolServerDestroy_tells pool { t with monitorEvent := false, destroyFlag := true }
      · exact .silent rfl rfl ⟨rfl, rfl, rfl⟩

/-! ## §3. The calls of a pool. -/

/-- What an entry into the pool calls, and which server calls it. -/
def PoolState.callsOf (p : PoolState σ) : PoolOp σ → Calls σ
  | .fetch sub wq now balance serverid =>
      match p.pool.pickServer balance serverid with
      | some i => (p.onServer i (.fetch sub wq now)).2
      | none => []
  | .server i op => (p.onServer i op).2
  | .destroy => (poolDestroy p.pool).2

/-- All calls of a run, in order. -/
def runCalls (tr : List (PoolState σ × PoolOp σ)) : Calls σ :=
  tr.flatMap (fun q => q.1.callsOf q.2)

/-- The calls of `pool_destroy` over the servers `l`. -/
def PoolState.destroyCalls : List Nat → PoolState σ → Calls σ
  | [], _ => []
  | i :: l, p => (p.onServer i .destroy).2 ++ destroyCalls l (p.onServer i .destroy).1

/-- The loop of `pool_destroy` and its run over servers with histories go through
the same states. -/
theorem poolDestroy_foldl (l : List Nat) :
    ∀ (p : PoolState σ) (calls : Calls σ),
      l.foldl (fun r i =>
          let (pool, calls) := r.1.onServer i (serverDestroy r.1.conf (r.1.serverArr i))
          (pool, r.2 ++ calls)) (p.pool, calls)
        = ((l.foldl (fun p i => (p.onServer i .destroy).1) p).pool,
            calls ++ PoolState.destroyCalls l p) := by
  induction l with
  | nil =>
      intro p calls
      show (p.pool, calls) = (p.pool, calls ++ [])
      rw [List.append_nil]
  | cons i l ih =>
      intro p calls
      have h := ih (p.onServer i .destroy).1 (calls ++ (p.onServer i .destroy).2)
      rw [List.append_assoc] at h
      exact h

theorem PoolState.callsOf_destroy (p : PoolState σ) :
    p.callsOf .destroy = destroyCalls (List.range p.pool.serverCount.toNat) p := by
  have h := congrArg Prod.snd (poolDestroy_foldl (List.range p.pool.serverCount.toNat) p [])
  rw [List.nil_append] at h
  exact h

/-- The calls server `i` made itself. -/
def serverCalls (i : Nat) (calls : Calls σ) : List (Call σ) :=
  calls.filterMap (fun c => if c.1 = i ∧ c.2.isPoolDestroyed = false then some c.2 else none)

theorem mem_serverCalls {i : Nat} {calls : Calls σ} {c : Call σ} (hc : c.isPoolDestroyed = false) :
    c ∈ serverCalls i calls ↔ (i, c) ∈ calls := by
  unfold serverCalls
  rw [List.mem_filterMap]
  constructor
  · rintro ⟨⟨k, c'⟩, hm, he⟩
    simp only [Option.ite_none_right_eq_some, Option.some.injEq] at he
    obtain ⟨⟨rfl, -⟩, rfl⟩ := he
    exact hm
  · intro hm
    exact ⟨(i, c), hm, if_pos ⟨rfl, hc⟩⟩

@[simp] theorem serverCalls_nil (i : Nat) : serverCalls i ([] : Calls σ) = [] := rfl

@[simp] theorem serverCalls_append (i : Nat) (l l' : Calls σ) :
    serverCalls i (l ++ l') = serverCalls i l ++ serverCalls i l' := List.filterMap_append

/-- The calls of one operation, none of which is the owner's. -/
theorem serverCalls_map (k i : Nat) {calls : List (Call σ)}
    (h : calls.countP Call.isPoolDestroyed = 0) :
    serverCalls i (calls.map (fun c => (k, c))) = if k = i then calls else [] := by
  induction calls with
  | nil => simp
  | cons c calls ih =>
      rw [List.countP_cons, Nat.add_eq_zero_iff] at h
      have hc : c.isPoolDestroyed = false := by
        cases hb : c.isPoolDestroyed with
        | false => rfl
        | true => simp [hb] at h
      have ih := ih h.1
      unfold serverCalls at ih ⊢
      rw [List.map_cons, List.filterMap_cons]
      by_cases hki : k = i
      · rw [if_pos hki] at ih ⊢
        simp only [hki, hc, and_self, if_true]
        rw [hki] at ih
        rw [ih]
      · rw [if_neg hki] at ih ⊢
        simp only [hki, false_and, if_false]
        exact ih

/-- What server `i` calls while `op` runs at server `k`. -/
theorem PoolState.onServer_serverCalls (p : PoolState σ) (k i : Nat) (op : SrvOp σ) :
    serverCalls i (p.onServer k op).2
      = if k = i then (op.code p.pool.conf (p.pool.serverArr k)).2 else [] := by
  have hmap := serverCalls_map k i (op.code_tells p.pool.conf (p.pool.serverArr k)).owner
  unfold PoolState.onServer PoolInfo.onServer
  simp only
  split
  · split
    · have hown : serverCalls i [(k, (Call.poolDestroyed : Call σ))] = [] := by
        simp [serverCalls, Call.isPoolDestroyed]
      rw [serverCalls_append, hown, List.append_nil]
      exact hmap
    · exact hmap
  · exact hmap

/-- What server `i` calls during `pool_destroy` over the servers `l`. -/
theorem PoolState.destroyCalls_serverCalls (i : Nat) (l : List Nat) (hnd : l.Nodup) :
    ∀ p : PoolState σ, serverCalls i (destroyCalls l p)
      = if i ∈ l then (SrvOp.code p.pool.conf (p.pool.serverArr i) .destroy).2 else [] := by
  induction l with
  | nil =>
      intro p
      simp [destroyCalls]
  | cons k l ih =>
      obtain ⟨hkl, hnd⟩ := List.nodup_cons.1 hnd
      intro p
      rw [destroyCalls, serverCalls_append, p.onServer_serverCalls, ih hnd,
        PoolState.onServer_conf]
      by_cases hki : k = i
      · subst hki
        simp [hkl]
      · have harr : (p.onServer k .destroy).1.pool.serverArr i = p.pool.serverArr i := by
          have h := congrArg Srv.info (p.onServer_srv k .destroy i)
          rw [if_neg hki] at h
          exact h
        have hik : i ≠ k := fun he => hki he.symm
        rw [harr]
        simp [hki, hik]

/-- **The calls of a server are the calls of its own step.** -/
theorem PoolState.callsOf_serverCalls (p : PoolState σ) (op : PoolOp σ) (i : Nat) :
    serverCalls i (p.callsOf op)
      = match op.onto p i with
        | some sop => (sop.code p.pool.conf (p.pool.serverArr i)).2
        | none => [] := by
  cases op with
  | fetch sub wq now balance serverid =>
      simp only [PoolState.callsOf, PoolOp.onto]
      cases p.pool.pickServer balance serverid with
      | none => simp
      | some k =>
          rw [p.onServer_serverCalls k i]
          by_cases hki : k = i
          · subst hki
            simp
          · simp [hki]
  | server k op =>
      simp only [PoolState.callsOf, PoolOp.onto]
      rw [p.onServer_serverCalls k i]
      by_cases hki : k = i
      · subst hki
        simp
      · simp [hki]
  | destroy =>
      rw [p.callsOf_destroy, destroyCalls_serverCalls i _ List.nodup_range]
      simp only [PoolOp.onto, List.mem_range]
      by_cases hi : i < p.pool.serverCount.toNat
      · simp [hi]
      · simp [hi]

/-- What server `i` calls, its own step calls. -/
theorem PoolState.mem_callsOf (p : PoolState σ) (op : PoolOp σ) (i : Nat) {c : Call σ}
    (hc : c.isPoolDestroyed = false) :
    (i, c) ∈ p.callsOf op
      ↔ ∃ sop, op.onto p i = some sop ∧ c ∈ (sop.code p.pool.conf (p.pool.serverArr i)).2 := by
  rw [← mem_serverCalls hc, p.callsOf_serverCalls]
  cases op.onto p i with
  | none => simp
  | some sop => simp

/-! ## §4. The servers of such a run. -/

/-- A tear-down counts the server off. -/
theorem PoolState.onServer_serverCount (p : PoolState σ) (k : Nat) (op : SrvOp σ) :
    (p.onServer k op).1.pool.serverCount
      = if (op.code p.pool.conf (p.pool.serverArr k)).2.any Call.isServerDestroyed
        then p.pool.serverCount - 1 else p.pool.serverCount := by
  unfold PoolState.onServer PoolInfo.onServer
  simp only
  split <;> rfl

theorem PoolState.onServer_serverCount_le (p : PoolState σ) (k : Nat) (op : SrvOp σ) :
    (p.onServer k op).1.pool.serverCount ≤ p.pool.serverCount := by
  rw [p.onServer_serverCount]
  split <;> omega

theorem PoolState.exec_serverCount_le (p : PoolState σ) (op : PoolOp σ) :
    (p.exec op).pool.serverCount ≤ p.pool.serverCount := by
  cases op with
  | fetch sub wq now balance serverid =>
      simp only [PoolState.exec]
      cases p.pool.pickServer balance serverid with
      | none => exact Int.le_of_eq p.pool.balanced_serverCount
      | some k => exact p.onServer_serverCount_le k _
  | server k op => exact p.onServer_serverCount_le k op
  | destroy =>
      show (p.destroyAll).pool.serverCount ≤ _
      unfold PoolState.destroyAll
      generalize List.range p.pool.serverCount.toNat = l
      induction l generalizing p with
      | nil => exact Int.le_refl _
      | cons i l ih => exact Int.le_trans (ih _) (p.onServer_serverCount_le i .destroy)

/-- What a pool is promised, each of its servers is promised. -/
theorem PoolState.Promised.onto {p : PoolState σ} {op : PoolOp σ} (h : p.Promised op)
    (hcount : p.pool.serverCount ≤ p.built) {i : Nat} {sop : SrvOp σ}
    (hop : op.onto p i = some sop) : i < p.built ∧ (p.srv i).Enabled sop := by
  cases op with
  | fetch sub wq now balance serverid =>
      simp only [PoolOp.onto] at hop
      split at hop
      · rename_i hpick
        cases hop
        obtain ⟨h1, h2, h3⟩ := h i hpick
        exact ⟨h1, h2, h3 i⟩
      · cases hop
  | server k op =>
      simp only [PoolOp.onto] at hop
      split at hop
      · rename_i hk
        subst hk
        cases hop
        exact h.2
      · cases hop
  | destroy =>
      simp only [PoolOp.onto] at hop
      split at hop
      · rename_i hi
        cases hop
        have hib : i < p.built := by omega
        exact ⟨hib, h i hib⟩
      · cases hop

/-- One more step of the pool is at most one more step of server `i`. -/
theorem srvTrace_snoc (i : Nat) (tr : List (PoolState σ × PoolOp σ)) (p : PoolState σ)
    (op : PoolOp σ) :
    srvTrace i (tr ++ [(p, op)])
      = srvTrace i tr ++ ((op.onto p i).map (fun sop => (p.srv i, sop))).toList := by
  unfold srvTrace
  rw [List.filterMap_append]
  cases hop : op.onto p i with
  | none => simp [hop]
  | some sop => simp [hop]

/-- **A run of a pool is a run of each of its servers.** -/
theorem PoolState.env_srv {n : Nat} {N retry : Int} {tr : List (PoolState σ × PoolOp σ)}
    {p : PoolState σ} (h : (poolEnvLts σ n N retry).Run tr p) (i : Nat) :
    (srvEnvLts (buildConf N retry) σ).Run (srvTrace i tr) (p.srv i)
      ∧ p.pool.conf = buildConf N retry ∧ p.built = n ∧ p.pool.serverCount ≤ n := by
  refine h.history (P := fun tr p =>
    (srvEnvLts (buildConf N retry) σ).Run (srvTrace i tr) (p.srv i)
      ∧ p.pool.conf = buildConf N retry ∧ p.built = n ∧ p.pool.serverCount ≤ n) ?_ ?_
  · intro p hp
    rw [hp]
    exact ⟨.init rfl, rfl, rfl, Int.le_refl _⟩
  · intro tr p op p' _ ih hstep
    obtain ⟨hrun, hconf, hbuilt, hcount⟩ := ih
    obtain ⟨hen, rfl⟩ := hstep
    obtain ⟨h1, h2, h3⟩ := p.exec_srv op i
    refine ⟨?_, h2.trans hconf, h3.trans hbuilt, Int.le_trans (p.exec_serverCount_le op) hcount⟩
    rw [h1, hconf, srvTrace_snoc]
    cases hop : op.onto p i with
    | none =>
        show (srvEnvLts _ σ).Run (srvTrace i tr ++ []) (p.srv i)
        rw [List.append_nil]
        exact hrun
    | some sop =>
        rw [← hbuilt] at hcount
        exact hrun.step ⟨(hen.onto hcount hop).2, rfl⟩

/-- The promises let only callbacks through to a server. -/
theorem PoolState.Promised.isCallback {p : PoolState σ} {op : PoolOp σ} (h : p.Promised op)
    (k : Nat) (sop : SrvOp σ) (hop : op = .server k sop) : sop.IsCallback := by
  subst hop
  exact h.1

/-- An operation that leaves `freed` off made no tear-down. -/
theorem SrvOp.code_not_destroyed {pool : PoolConf} {t : ServerInfo σ} {op : SrvOp σ}
    (h : (op.code pool t).1.freed = false) :
    (op.code pool t).2.any Call.isServerDestroyed = false := by
  have hfreed := (op.code_tells pool t).freed
  rw [h, op.mark_freed] at hfreed
  cases hany : (op.code pool t).2.any Call.isServerDestroyed with
  | false => rfl
  | true =>
      rw [hany, Bool.or_true] at hfreed
      cases hfreed

/-- Before `pool_destroy`, no operation counts a server off. -/
theorem PoolState.exec_serverCount {p : PoolState σ} {op : PoolOp σ}
    (hcb : ∀ k sop, op = .server k sop → sop.IsCallback) (hop : op ≠ .destroy)
    (hflags : ∀ i, (p.srv i).info.destroyFlag = false ∧ (p.srv i).info.freed = false) :
    (p.exec op).pool.serverCount = p.pool.serverCount := by
  have hone : ∀ k sop, sop ≠ .destroy →
      (p.onServer k sop).1.pool.serverCount = p.pool.serverCount := by
    intro k sop hsop
    obtain ⟨hdes, hfreed⟩ := hflags k
    have hsame := (sop.code_flags p.pool.conf (p.pool.serverArr k) hdes hsop).2.2
    have hno := SrvOp.code_not_destroyed (hsame.trans hfreed)
    rw [p.onServer_serverCount, hno]
    rfl
  cases op with
  | fetch sub wq now balance serverid =>
      simp only [PoolState.exec]
      cases p.pool.pickServer balance serverid with
      | none => exact p.pool.balanced_serverCount
      | some k => exact hone k _ (by simp)
  | server k sop =>
      refine hone k sop ?_
      intro hdes
      have hcall := hcb k sop rfl
      rw [hdes] at hcall
      exact hcall
  | destroy => exact absurd rfl hop

/-- As long as `pool_destroy` was not called, every server is up, its monitor
timer is set, and none has been counted off. -/
theorem PoolState.env_flags {n : Nat} {N retry : Int} {tr : List (PoolState σ × PoolOp σ)}
    {p : PoolState σ} (h : (poolEnvLts σ n N retry).Run tr p) (hno : ∀ q ∈ tr, q.2 ≠ .destroy) :
    p.pool.serverCount = n ∧ ∀ i, (p.srv i).info.destroyFlag = false
      ∧ (p.srv i).info.monitorEvent = true ∧ (p.srv i).info.freed = false := by
  revert hno
  refine h.history (P := fun tr p => (∀ q ∈ tr, q.2 ≠ .destroy) →
    p.pool.serverCount = (n : Int) ∧ ∀ i, (p.srv i).info.destroyFlag = false
      ∧ (p.srv i).info.monitorEvent = true ∧ (p.srv i).info.freed = false) ?_ ?_
  · intro p hp _
    obtain ⟨k, e, hb, -⟩ := serverBuild_spec (σ := σ) N
    rw [hp]
    refine ⟨rfl, ?_⟩
    intro i
    have hsrv : ((PoolState.start n N retry : PoolState σ).srv i).info = serverBuild N := rfl
    rw [hsrv, hb]
    exact ⟨rfl, rfl, rfl⟩
  · intro tr p op p' _ ih hstep hno
    obtain ⟨hcount, hflags⟩ := ih (fun q hq => hno q (List.mem_append_left _ hq))
    obtain ⟨hen, rfl⟩ := hstep
    have hop : op ≠ .destroy := hno (p, op) (by simp)
    have hcount' := PoolState.exec_serverCount hen.isCallback hop
      (fun i => ⟨(hflags i).1, (hflags i).2.2⟩)
    refine ⟨hcount'.trans hcount, ?_⟩
    intro i
    obtain ⟨hdes, hmon, hfreed⟩ := hflags i
    rw [(p.exec_srv op i).1]
    cases hon : op.onto p i with
    | none => exact ⟨hdes, hmon, hfreed⟩
    | some sop =>
        obtain ⟨h1, h2, h3⟩ := sop.code_flags p.pool.conf (p.srv i).info hdes
          (PoolOp.onto_ne_destroy hen.isCallback hop hon)
        exact ⟨h1.trans hdes, h2.trans hmon, h3.trans hfreed⟩

end RedisAgent
