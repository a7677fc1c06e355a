/-
  RedisAgent.Pool.Served — whom a server hands its connections to.

  A server calls back a sub-request that waits in its own queue, or the one it is asked
  for at that moment; and only a sub-request it was asked for waits there.

  Main results:
    • `SrvOp.code_serves` — what one operation does to the waiting sub-requests;
    • `PoolInfo.onServer_serves` — the same of an entry into a pool;
    • `poolDestroy_serves`, `poolDestroy_silent` — `pool_destroy` hands out nothing.
-/
import RedisAgent.Pool.Env

namespace RedisAgent

variable {σ : Type*}

/-! ## §1. One operation. -/

/-- Where the sub-requests of a result come from: those that wait waited before, those
that are called back did, or they are `new`.  What they are given is a connection of the
server. -/
structure Serves (new : σ → Prop) (t : ServerInfo σ) (r : Out σ) : Prop where
  waits : ∀ wq sub, r.1.waitSub wq = some sub → t.waitSub wq = some sub ∨ new sub
  calls : ∀ h sub, Call.callback h sub ∈ r.2 → (∃ wq, t.waitSub wq = some sub) ∨ new sub
  own : ∀ h sub, Call.callback h sub ∈ r.2 → ∃ j, h = (t.connectArr j).handle

theorem mem_callbacks {calls : List (Call σ)} {h : Option Handle} {sub : σ} :
    (h, sub) ∈ callbacks calls ↔ Call.callback h sub ∈ calls := by
  unfold callbacks
  rw [List.mem_filterMap]
  constructor
  · rintro ⟨c, hc, he⟩
    cases c with
    | callback h' sub' =>
        cases he
        exact hc
    | _ => cases he
  · intro hc
    exact ⟨_, hc, rfl⟩

variable {new : σ → Prop} {t t' : ServerInfo σ} {r : Out σ}

/-- A result that calls nobody back. -/
theorem Serves.silent (hw : r.1.waitSub = t.waitSub) (hc : ∀ h sub, Call.callback h sub ∉ r.2) :
    Serves new t r := by
  refine ⟨?_, fun h sub hmem => absurd hmem (hc h sub), fun h sub hmem => absurd hmem (hc h sub)⟩
  intro wq sub hsub
  rw [hw] at hsub
  exact Or.inl hsub

theorem Serves.congr (h : Serves new t r) (ht : t'.waitSub = t.waitSub)
    (hown : ∀ j, (t.connectArr j).handle = (t'.connectArr j).handle) : Serves new t' r := by
  refine ⟨?_, ?_, ?_⟩
  · rw [ht]
    exact h.waits
  · rw [ht]
    exact h.calls
  · intro hd sub hmem
    obtain ⟨j, hj⟩ := h.own hd sub hmem
    exact ⟨j, hj.trans (hown j)⟩

/-- The flags and the time of a connection change, not its handle. -/
theorem ServerInfo.setConn_handle (t : ServerInfo σ) {j : Nat} {ci : ConnectInfo}
    (hci : ci.handle = (t.connectArr j).handle) (k : Nat) :
    ((t.setConn j ci).connectArr k).handle = (t.connectArr k).handle := by
  show (Function.update t.connectArr j ci k).handle = (t.connectArr k).handle
  by_cases hk : k = j
  · rw [hk, Function.update_self]
    exact hci
  · rw [Function.update_of_ne hk]

/-- A call that is no callback, made first. -/
theorem Serves.cons {c : Call σ} (h : Serves new t r) (hc : ∀ hd sub, Call.callback hd sub ≠ c) :
    Serves new t (r.1, c :: r.2) := by
  have hold : ∀ hd sub, Call.callback hd sub ∈ c :: r.2 → Call.callback hd sub ∈ r.2 := by
    intro hd sub hmem
    exact (List.mem_cons.1 hmem).resolve_left (hc hd sub)
  exact ⟨h.waits, fun hd sub hmem => h.calls hd sub (hold hd sub hmem),
    fun hd sub hmem => h.own hd sub (hold hd sub hmem)⟩

theorem poolConnectQueueGet_waitSub (t : ServerInfo σ) :
    (poolConnectQueueGet t).2.waitSub = t.waitSub := by
  unfold poolConnectQueueGet
  rcases t.node.popFront t.connectQueue with ⟨_ | j, k, e⟩ <;> rfl

/-- Nobody is called back, and who waits still waits. -/
def Idles (t : ServerInfo σ) (r : Out σ) : Prop :=
  r.1.waitSub = t.waitSub ∧ ∀ h sub, Call.callback h sub ∉ r.2

/-- Fewer than at `t` waited before. -/
theorem Idles.serves {u : ServerInfo σ} (h : Idles u r)
    (ht : ∀ wq sub, u.waitSub wq = some sub → t.waitSub wq = some sub) : Serves new t r := by
  refine ⟨?_, fun hd sub hmem => absurd hmem (h.2 hd sub), fun hd sub hmem => absurd hmem (h.2 hd sub)⟩
  intro wq sub hsub
  rw [h.1] at hsub
  exact Or.inl (ht wq sub hsub)

theorem Idles.cons {c : Call σ} (h : Idles t r) (hc : ∀ hd sub, Call.callback hd sub ≠ c) :
    Idles t (r.1, c :: r.2) := by
  refine ⟨h.1, ?_⟩
  intro hd sub hmem
  rcases List.mem_cons.1 hmem with he | hmem
  · exact hc hd sub he
  · exact h.2 hd sub hmem

theorem poolServerDestroyLoop_idles (fuel : Nat) :
    ∀ (j : Option Nat) (t : ServerInfo σ), Idles t (poolServerDestroyLoop fuel j t) := by
  induction fuel with
  | zero => exact fun j t => ⟨rfl, fun _ _ => List.not_mem_nil⟩
  | succ fuel ih =>
      intro j t
      cases j with
      | none => exact ⟨rfl, fun _ _ => List.not_mem_nil⟩
      | some j =>
          obtain ⟨hwait, hno⟩ := ih (poolConnectQueueGet t).1 (poolConnectQueueGet t).2
          rw [poolServerDestroyLoop]
          refine ⟨hwait.trans (poolConnectQueueGet_waitSub t), ?_⟩
          intro h sub hmem
          rcases List.mem_cons.1 hmem with he | hmem
          · cases he
          · exact hno h sub hmem

theorem poolServerDestroyed_idles (t : ServerInfo σ) : Idles t (poolServerDestroyed t) := by
  refine ⟨rfl, ?_⟩
  intro h sub hmem
  cases List.mem_singleton.1 hmem

theorem poolServerDestroy_idles (pool : PoolConf) (t : ServerInfo σ) :
    Idles t (poolServerDestroy pool t) := by
  have hwait := poolConnectQueueGet_waitSub t
  unfold poolServerDestroy
  cases hget : poolConnectQueueGet t with
  | mk j t' =>
      rw [hget] at hwait
      cases j with
      | none =>
          obtain ⟨h1, h2⟩ := poolServerDestroyed_idles t'
          exact ⟨h1.trans hwait, h2⟩
      | some j =>
          obtain ⟨h1, h2⟩ := poolServerDestroyLoop_idles pool.slots (some j) t'
          exact ⟨h1.trans hwait, h2⟩

theorem serverDestroy_idles (pool : PoolConf) (t : ServerInfo σ) :
    Idles t (serverDestroy pool t) := by
  unfold serverDestroy
  simp only
  split
  · exact poolServerDestroy_idles pool { t with monitorEvent := false, destroyFlag := true }
  · exact ⟨rfl, fun _ _ => List.not_mem_nil⟩

/-- Who still waits, waited. -/
theorem poolWaitingQueueGet_rest (t : ServerInfo σ) :
    ∀ wq sub, (poolWaitingQueueGet t).2.waitSub wq = some sub → t.waitSub wq = some sub := by
  intro wq sub hsub
  unfold poolWaitingQueueGet at hsub
  cases hhead : t.waitingQueue.head with
  | none =>
      rw [hhead] at hsub
      exact hsub
  | some head =>
      rw [hhead] at hsub
      simp only at hsub
      by_cases hwq : wq = head
      · rw [hwq, Function.update_self] at hsub
        cases hsub
      · rw [Function.update_of_ne hwq] at hsub
        exact hsub

theorem poolWaitingQueueGet_connectArr (t : ServerInfo σ) :
    (poolWaitingQueueGet t).2.connectArr = t.connectArr := by
  unfold poolWaitingQueueGet
  cases t.waitingQueue.head <;> rfl

/-- The sub-request that is taken out of the queue waited. -/
theorem poolWaitingQueueGet_waited {y : σ} (h : (poolWaitingQueueGet t).1 = some y) :
    ∃ wq, t.waitSub wq = some y := by
  unfold poolWaitingQueueGet at h
  cases hhead : t.waitingQueue.head with
  | none =>
      rw [hhead] at h
      cases h
  | some wq =>
      rw [hhead] at h
      exact ⟨wq, h⟩

theorem poolPutBackConnect_serves (pool : PoolConf) (t : ServerInfo σ) (j : Nat) (now : Timeval) :
    Serves new t (poolPutBackConnect pool t j now) := by
  have hrest := poolWaitingQueueGet_rest t
  have hconn := poolWaitingQueueGet_connectArr t
  unfold poolPutBackConnect
  rcases hget : poolWaitingQueueGet t with ⟨_ | y, t'⟩
  · rw [hget] at hrest hconn
    simp only
    split
    · exact ((poolServerDestroy_idles pool (poolConnectQueuePut t' j)).cons (by simp)).serves hrest
    · refine Idles.serves (u := t') ⟨rfl, ?_⟩ hrest
      intro hd sub hmem
      cases List.mem_singleton.1 hmem
  · have hwaited := poolWaitingQueueGet_waited (t := t) (y := y) (by rw [hget])
    rw [hget] at hrest hconn
    have hcall : ∀ hd sub, Call.callback hd sub ∈
        [Call.argAfterConn 0, .callback (t'.connectArr j).handle y] →
        hd = (t'.connectArr j).handle ∧ sub = y := by
      intro hd sub hmem
      rcases List.mem_cons.1 hmem with he | hmem
      · cases he
      · cases List.mem_singleton.1 hmem
        exact ⟨rfl, rfl⟩
    refine ⟨fun wq sub hsub => Or.inl (hrest wq sub hsub), ?_, ?_⟩
    · intro hd sub hmem
      rw [(hcall hd sub hmem).2]
      exact Or.inl hwaited
    · intro hd sub hmem
      refine ⟨j, (hcall hd sub hmem).1.trans ?_⟩
      rw [hconn]

theorem poolCreateNewConnect_serves (t : ServerInfo σ) : Serves new t (poolCreateNewConnect t) := by
  unfold poolCreateNewConnect poolUnconnectQueueGet
  rcases t.node.popFront t.unconnectQueue with ⟨_ | j, k, e⟩
  · exact .silent rfl (fun _ _ => List.not_mem_nil)
  · refine .silent rfl ?_
    intro hd sub hmem
    cases List.mem_singleton.1 hmem

/-- The operation asks for a connection for `sub`. -/
def SrvOp.Asks (op : SrvOp σ) (sub : σ) : Prop := ∃ wq now, op = .fetch sub wq now

/-- `pool_fetch_connect` serves or queues the one it is called for. -/
theorem serverFetchConnect_serves (pool : PoolConf) (t : ServerInfo σ) (y : σ) (wq : Nat)
    (now : Timeval) : Serves (fun sub => sub = y) t (serverFetchConnect pool t y wq now).2 := by
  unfold serverFetchConnect
  split
  · -- a free connection is handed over at once
    unfold poolFetchConnectFromConnectqueue poolConnectQueueGet
    rcases t.node.popFront t.connectQueue with ⟨_ | j, k, e⟩
    · exact .silent rfl (fun _ _ => List.not_mem_nil)
    · refine ⟨fun _ _ hsub => Or.inl hsub, ?_, ?_⟩
      · intro hd sub hmem
        cases List.mem_singleton.1 hmem
        exact Or.inr rfl
      · intro hd sub hmem
        cases List.mem_singleton.1 hmem
        exact ⟨j, rfl⟩
  · generalize hr : (if t.connectCount < pool.connectPerServer then poolCreateNewConnect t
      else (t, [])) = r
    have hserves : Serves (fun sub => sub = y) t r := by
      rw [← hr]
      split
      · exact poolCreateNewConnect_serves t
      · exact .silent rfl (fun _ _ => List.not_mem_nil)
    refine ⟨?_, hserves.calls, hserves.own⟩
    intro wq' sub hsub
    have hsub : Function.update r.1.waitSub wq (some y) wq' = some sub := hsub
    by_cases hwq : wq' = wq
    · rw [hwq, Function.update_self] at hsub
      exact Or.inr (Option.some_inj.1 hsub).symm
    · rw [Function.update_of_ne hwq] at hsub
      exact hserves.waits wq' sub hsub

/-- **Whom an operation serves.** -/
theorem SrvOp.code_serves (pool : PoolConf) (t : ServerInfo σ) (op : SrvOp σ) :
    Serves op.Asks t (op.code pool t) := by
  cases op with
  | fetch y wq now =>
      have h := serverFetchConnect_serves pool t y wq now
      have hasks : ∀ sub, sub = y → (SrvOp.fetch y wq now).Asks sub := by
        rintro sub rfl
        exact ⟨wq, now, rfl⟩
      exact ⟨fun wq' sub hsub => (h.waits wq' sub hsub).imp_right (hasks sub),
        fun hd sub hmem => (h.calls hd sub hmem).imp_right (hasks sub), h.own⟩
  | release hd errclose now =>
      show Serves _ t (poolReleaseConnect pool t hd errclose now)
      unfold poolReleaseConnect
      simp only
      split
      · exact ((poolPutBackConnect_serves pool _ hd.poolData now).cons (by simp)).congr rfl
          (t.setConn_handle rfl)
      · refine .silent rfl ?_
        intro hd' sub hmem
        rcases List.mem_cons.1 hmem with he | hmem
        · cases he
        · cases List.mem_singleton.1 hmem
  | created hd status now =>
      show Serves _ t (poolOnConnectCreated pool t hd status now)
      unfold poolOnConnectCreated
      simp only
      split
      · exact (poolPutBackConnect_serves pool _ hd.poolData now).congr rfl (t.setConn_handle rfl)
      · split
        · exact (poolServerDestroy_idles pool _).serves (fun _ _ hsub => hsub)
        · exact .silent rfl (fun _ _ => List.not_mem_nil)
  | destroyed hd =>
      show Serves _ t (poolOnConnectDestroyed t hd)
      unfold poolOnConnectDestroyed
      simp only
      split
      · refine .silent rfl ?_
        intro hd' sub hmem
        cases List.mem_singleton.1 hmem
      · generalize hrm : (if (t.connectArr hd.poolData).inUse = true then t
          else poolConnectQueueRm t hd.poolData) = t'
        have hwait : t'.waitSub = t.waitSub := by
          rw [← hrm]
          split <;> rfl
        split
        · refine ((poolServerDestroyed_idles _).cons (by simp)).serves ?_
          rw [← hwait]
          exact fun _ _ hsub => hsub
        · refine .silent hwait ?_
          intro hd' sub hmem
          cases List.mem_singleton.1 hmem
  | waitRm wq =>
      show Serves _ t (poolWaitingQueueRm pool t wq)
      have hrest : ∀ wq' sub, (poolWaitingQueueUnlink t wq).waitSub wq' = some sub →
          t.waitSub wq' = some sub := by
        intro wq' sub hsub
        have hsub : Function.update t.waitSub wq none wq' = some sub := hsub
        by_cases hwq : wq' = wq
        · rw [hwq, Function.update_self] at hsub
          cases hsub
        · rw [Function.update_of_ne hwq] at hsub
          exact hsub
      unfold poolWaitingQueueRm
      simp only
      split
      · exact (poolServerDestroy_idles pool _).serves hrest
      · exact Idles.serves (u := poolWaitingQueueUnlink t wq) ⟨rfl, fun _ _ => List.not_mem_nil⟩ hrest
  | monitor =>
      show Serves _ t (serverConnectMonitor pool t)
      unfold serverConnectMonitor
      split
      · exact poolCreateNewConnect_serves t
      · exact .silent rfl (fun _ _ => List.not_mem_nil)
  | destroy => exact .silent (serverDestroy_idles pool t).1 (serverDestroy_idles pool t).2

/-! ## §2. A whole pool. -/

/-- What an entry into a pool does to those that wait at its servers; `new i sub` says
that `sub` asks server `i` for a connection. -/
structure PoolServes (new : Nat → σ → Prop) (pool : PoolInfo σ) (res : PoolInfo σ × Calls σ) :
    Prop where
  conf : res.1.conf = pool.conf
  count : res.1.serverCount ≤ pool.serverCount
  waits : ∀ i wq sub, (res.1.serverArr i).waitSub wq = some sub →
    (pool.serverArr i).waitSub wq = some sub ∨ new i sub
  calls : ∀ i h sub, (i, Call.callback h sub) ∈ res.2 →
    (∃ wq, (pool.serverArr i).waitSub wq = some sub) ∨ new i sub

/-- The callbacks among the calls of an entry are those of its server. -/
theorem PoolInfo.mem_onServer {pool : PoolInfo σ} {i k : Nat} {r : Out σ} {h : Option Handle}
    {sub : σ} (hmem : (k, Call.callback h sub) ∈ (pool.onServer i r).2) :
    k = i ∧ Call.callback h sub ∈ r.2 := by
  have hmap : (k, Call.callback h sub) ∈ r.2.map (fun c => (i, c)) → k = i ∧ Call.callback h sub ∈ r.2 := by
    intro hm
    obtain ⟨c, hc, he⟩ := List.mem_map.1 hm
    cases he
    exact ⟨rfl, hc⟩
  unfold PoolInfo.onServer at hmem
  simp only at hmem
  split at hmem
  · simp only at hmem
    split at hmem
    · rcases List.mem_append.1 hmem with hm | hm
      · exact hmap hm
      · cases List.mem_singleton.1 hm
    · exact hmap hmem
  · exact hmap hmem

theorem PoolInfo.onServer_count (pool : PoolInfo σ) (i : Nat) (r : Out σ) :
    (pool.onServer i r).1.serverCount ≤ pool.serverCount := by
  unfold PoolInfo.onServer
  split
  · show pool.serverCount - 1 ≤ pool.serverCount
    omega
  · exact Int.le_refl _

/-- **An entry into a pool** serves whom the operation serves at its server. -/
theorem PoolInfo.onServer_serves (pool : PoolInfo σ) (i : Nat) {r : Out σ} {new : σ → Prop}
    (h : Serves new (pool.serverArr i) r) :
    PoolServes (fun k sub => k = i ∧ new sub) pool (pool.onServer i r) := by
  have hconf : (pool.onServer i r).1.conf = pool.conf := by
    unfold PoolInfo.onServer
    split <;> rfl
  have harr : (pool.onServer i r).1.serverArr = Function.update pool.serverArr i r.1 := by
    unfold PoolInfo.onServer
    split <;> rfl
  refine ⟨hconf, pool.onServer_count i r, ?_, ?_⟩
  · intro k wq sub hsub
    rw [harr] at hsub
    by_cases hk : k = i
    · subst hk
      rw [Function.update_self] at hsub
      exact (h.waits wq sub hsub).imp_right fun hnew => ⟨rfl, hnew⟩
    · rw [Function.update_of_ne hk] at hsub
      exact Or.inl hsub
  · intro k hd sub hmem
    obtain ⟨rfl, hcall⟩ := PoolInfo.mem_onServer hmem
    exact (h.calls hd sub hcall).imp_right fun hnew => ⟨rfl, hnew⟩

/-- The loop of `pool_destroy`, over the servers `l`. -/
theorem poolDestroyLoop_idles (l : List Nat) :
    ∀ res : PoolInfo σ × Calls σ,
      (∀ i h sub, (i, Call.callback h sub) ∉ res.2) →
      ∃ res', l.foldl (fun r i =>
          let (pool, calls) := r.1.onServer i (serverDestroy r.1.conf (r.1.serverArr i))
          (pool, r.2 ++ calls)) res = res'
        ∧ PoolServes (fun _ _ => False) res.1 (res'.1, [])
        ∧ ∀ i h sub, (i, Call.callback h sub) ∉ res'.2 := by
  induction l with
  | nil => exact fun res hno => ⟨res, rfl, ⟨rfl, Int.le_refl _, fun _ _ _ => Or.inl, nofun⟩, hno⟩
  | cons i l ih =>
      intro res hno
      obtain ⟨hwait, hsilent⟩ := serverDestroy_idles res.1.conf (res.1.serverArr i)
      have hone : PoolServes (fun k _ => k = i ∧ False) res.1
          (res.1.onServer i (serverDestroy res.1.conf (res.1.serverArr i))) :=
        res.1.onServer_serves i (.silent hwait hsilent)
      have hno₁ : ∀ k h sub, (k, Call.callback h sub) ∉ res.2
          ++ (res.1.onServer i (serverDestroy res.1.conf (res.1.serverArr i))).2 := by
        intro k h sub hmem
        rcases List.mem_append.1 hmem with hm | hm
        · exact hno k h sub hm
        · exact hsilent h sub (PoolInfo.mem_onServer hm).2
      obtain ⟨res', hres', hserves, hno'⟩ :=
        ih ((res.1.onServer i (serverDestroy res.1.conf (res.1.serverArr i))).1, _) hno₁
      refine ⟨res', hres', ⟨hserves.conf.trans hone.conf,
        Int.le_trans hserves.count hone.count, ?_, nofun⟩, hno'⟩
      intro k wq sub hsub
      rcases hserves.waits k wq sub hsub with hold | hnew
      · exact (hone.waits k wq sub hold).imp_right fun hnew => hnew.2
      · exact Or.inr hnew

/-- **`pool_destroy` hands out nothing**, and queues nobody. -/
theorem poolDestroy_silent (pool : PoolInfo σ) :
    ∀ i h sub, (i, Call.callback h sub) ∉ (poolDestroy pool).2 := by
  obtain ⟨res, hres, -, hno⟩ := poolDestroyLoop_idles (List.range pool.serverCount.toNat) (pool, [])
    (fun _ _ _ => List.not_mem_nil)
  unfold poolDestroy
  rw [hres]
  exact hno

theorem poolDestroy_serves (pool : PoolInfo σ) :
    PoolServes (fun _ _ => False) pool (poolDestroy pool) := by
  have hno := poolDestroy_silent pool
  obtain ⟨res, hres, hserves, -⟩ := poolDestroyLoop_idles (List.range pool.serverCount.toNat)
    (pool, []) (fun _ _ _ => List.not_mem_nil)
  unfold poolDestroy at hno ⊢
  rw [hres] at hno ⊢
  exact ⟨hserves.conf, hserves.count, hserves.waits, fun i h sub hmem => absurd hmem (hno i h sub)⟩

end RedisAgent
