/-
  RedisAgent.Pool.Reach — one step and a whole run of a server, and of the
  servers inside a pool.

  `Effect` says what a sub-request can notice of one operation: which callbacks
  ran, how the waiting nodes and the connections handed out changed.
  `Srv.exec_inv` gives it together with the invariant, so that everything above
  this file is an induction over `Effect` and never looks at pointers again.
-/
import RedisAgent.Pool.Steps

namespace RedisAgent

open Links

variable {σ : Type*}

/-! ## §1. What a sub-request notices. -/

/-- Operations that neither take a sub-request nor remove one. -/
def SrvOp.Silent : SrvOp σ → Prop
  | .fetch .. | .waitRm _ => False
  | _ => True

/-- `Effect s op s' calls W W'`: running `op` in `s` led to `s'`, made `calls`,
and took the waiting nodes from `W` to `W'`. -/
inductive Effect (s : Srv σ) : SrvOp σ → Srv σ → List (Call σ) → List Nat → List Nat → Prop
  /-- nobody was served -/
  | quiet {op : SrvOp σ} {s' : Srv σ} {calls : List (Call σ)} {W : List Nat} :
      op.Silent → s'.info.waitSub = s.info.waitSub → s'.ghost.given = (op.enter s.ghost).given →
      s'.ghost.hist = s.ghost.hist → callbacks calls = [] → Effect s op s' calls W W
  /-- a connection came back and went to the first waiting sub-request -/
  | granted {op : SrvOp σ} {s' : Srv σ} {calls : List (Call σ)} {W : List Nat} (a : Nat)
      (hd : Handle) (y : σ) :
      op.Silent → s.info.waitSub a = some y → (op.enter s.ghost).given hd.poolData = [] →
      s'.info.waitSub = Function.update s.info.waitSub a none →
      s'.ghost.given = Function.update (op.enter s.ghost).given hd.poolData [(hd, y)] →
      s'.ghost.hist = s.ghost.hist ++ [.called y] → callbacks calls = [(some hd, y)] →
      Effect s op s' calls (a :: W) W
  /-- a free connection was handed over on the spot, while nobody was waiting -/
  | direct {s' : Srv σ} {calls : List (Call σ)} (hd : Handle) (y : σ) (wq : Nat) (now : Timeval) :
      s.ghost.given hd.poolData = [] → s'.info.waitSub = s.info.waitSub →
      s'.ghost.given = Function.update s.ghost.given hd.poolData [(hd, y)] →
      s'.ghost.hist = s.ghost.hist ++ [.called y] → callbacks calls = [(some hd, y)] →
      Effect s (.fetch y wq now) s' calls [] []
  /-- the sub-request joined the waiting queue -/
  | queued {s' : Srv σ} {calls : List (Call σ)} {W : List Nat} (y : σ) (wq : Nat) (now : Timeval) :
      s'.info.waitSub = Function.update s.info.waitSub wq (some y) →
      s'.ghost.given = s.ghost.given → s'.ghost.hist = s.ghost.hist ++ [.queued y] →
      callbacks calls = [] → Effect s (.fetch y wq now) s' calls W (W ++ [wq])
  /-- a waiting node was removed -/
  | removed {s' : Srv σ} {calls : List (Call σ)} {W : List Nat} (wq : Nat) (y : σ) :
      s.info.waitSub wq = some y → s'.info.waitSub = Function.update s.info.waitSub wq none →
      s'.ghost.given = s.ghost.given → s'.ghost.hist = s.ghost.hist ++ [.removed y] →
      callbacks calls = [] → Effect s (.waitRm wq) s' calls W (W.erase wq)

/-- The invariant of a server in its environment. -/
def Srv.Inv (pool : PoolConf) (d : Nat) (s : Srv σ) (U F W : List Nat) : Prop :=
  SrvInv pool.slots d none s.info s.ghost U F W

theorem Effect.of_served {t : ServerInfo σ} {g : Ghost σ} {op : SrvOp σ} {s' : Srv σ}
    {calls : List (Call σ)} {hd : Handle} {W W' : List Nat} (hop : op.Silent)
    (hhist : (op.enter g).hist = g.hist) (hg : (op.enter g).given hd.poolData = [])
    (h : Served t (op.enter g) s'.info s'.ghost calls hd W W') :
    Effect ⟨t, g⟩ op s' calls W W' := by
  rcases h with ⟨rfl, rfl, hq, hc⟩ | ⟨a, y, rfl, hgr⟩
  · exact .quiet hop hq.waitSub hq.given (hq.hist.trans hhist) hc
  · have hgiven := hgr.given
    have hh := hgr.hist
    rw [hg, List.nil_append] at hgiven
    rw [hhist] at hh
    exact .granted a hd y hop hgr.sub hg hgr.waitSub hgiven hh hgr.callbacks

/-- One more event. -/
def Ghost.note (g : Ghost σ) (e : WaitEvent σ) : Ghost σ := { g with hist := g.hist ++ [e] }

/-- The invariant does not look at the events. -/
theorem SrvInv.note {N d : Nat} {x : Option Nat} {t : ServerInfo σ} {g : Ghost σ}
    {U F W : List Nat} (h : SrvInv N d x t g U F W) (e : WaitEvent σ) :
    SrvInv N d x t (g.note e) U F W :=
  ⟨h.unconn, h.free, h.wait, h.detached, h.slot, h.hand, h.waitSub, h.idle, h.unconnectCount,
    h.freeConnectCount, h.waitingCount, h.connectCount⟩

/-- **One step.** -/
theorem Srv.exec_inv {pool : PoolConf} {d : Nat} {s : Srv σ} {U F W : List Nat}
    (h : s.Inv pool d U F W) {op : SrvOp σ} (hen : s.Enabled op) :
    ∃ U' F' W', (s.exec pool op).Inv pool (d + op.drift s.ghost) U' F' W'
      ∧ Effect s op (s.exec pool op) (op.code pool s.info).2 W W' := by
  obtain ⟨t, g⟩ := s
  cases op with
  | fetch y wq now =>
      obtain ⟨U', F', W', h1, hcase⟩ := serverFetchConnect_inv h y now hen.1
      rcases hcase with ⟨hr, rfl, rfl, hws, hd, hg, hgiven, hhist, hc⟩ |
        ⟨hr, rfl, hws, hgiven, hhist, hc⟩
      · have hexec : Srv.exec pool ⟨t, g⟩ (.fetch y wq now)
            = ⟨(serverFetchConnect pool t y wq now).2.1,
                g.absorbAll (serverFetchConnect pool t y wq now).2.2⟩ := by
          simp only [Srv.exec, SrvOp.leave, hr]
          rfl
        rw [hexec]
        exact ⟨U', F', [], h1, .direct hd y wq now hg hws hgiven hhist hc⟩
      · have hexec : Srv.exec pool ⟨t, g⟩ (.fetch y wq now)
            = ⟨(serverFetchConnect pool t y wq now).2.1,
                (g.absorbAll (serverFetchConnect pool t y wq now).2.2).note (.queued y)⟩ := by
          simp only [Srv.exec, SrvOp.leave, hr]
          rfl
        rw [hexec]
        refine ⟨U', F', W ++ [wq], h1.note (.queued y), .queued y wq now hws hgiven ?_ hc⟩
        show (g.absorbAll (serverFetchConnect pool t y wq now).2.2).hist ++ [.queued y] = _
        rw [hhist]
  | release hd errclose now =>
      obtain ⟨F', W', h1, hcase⟩ := poolReleaseConnect_inv h errclose now hen
      refine ⟨U, F', W', h1, ?_⟩
      rcases hcase with ⟨rfl, hq, hc⟩ | hs
      · exact .quiet trivial hq.waitSub hq.given hq.hist hc
      · exact Effect.of_served trivial rfl (Function.update_self ..) hs
  | created hd status now =>
      obtain ⟨U', F', W', h1, hg, hcase⟩ := poolOnConnectCreated_inv h status now hen
      refine ⟨U', F', W', h1, ?_⟩
      rcases hcase with ⟨-, rfl, hq, hc⟩ | ⟨-, hs⟩
      · exact .quiet trivial hq.waitSub hq.given hq.hist hc
      · exact Effect.of_served trivial rfl hg hs
  | destroyed hd =>
      obtain ⟨U', F', h1, hq, hc⟩ := poolOnConnectDestroyed_inv h hen
      exact ⟨U', F', W, h1, .quiet trivial hq.waitSub hq.given hq.hist hc⟩
  | waitRm wq =>
      obtain ⟨F', h1, hws, hgiven, hhist, hc⟩ := poolWaitingQueueRm_inv h hen
      obtain ⟨y, hy⟩ := Option.ne_none_iff_exists'.1 hen
      have hexec : Srv.exec pool ⟨t, g⟩ (.waitRm wq)
          = ⟨(poolWaitingQueueRm pool t wq).1,
              (g.absorbAll (poolWaitingQueueRm pool t wq).2).note (.removed y)⟩ := by
        have hy' : t.waitSub wq = some y := hy
        simp only [Srv.exec, SrvOp.leave, hy']
        rfl
      rw [hexec]
      refine ⟨U, F', W.erase wq, h1.note (.removed y), .removed wq y hy hws hgiven ?_ hc⟩
      show (g.absorbAll (poolWaitingQueueRm pool t wq).2).hist ++ [.removed y] = _
      rw [hhist]
  | monitor =>
      obtain ⟨U', h1, hq, hc⟩ := serverConnectMonitor_inv h
      exact ⟨U', F, W, h1, .quiet trivial hq.waitSub hq.given hq.hist hc⟩
  | destroy =>
      obtain ⟨F', h1, hq, hc⟩ := serverDestroy_inv h
      exact ⟨U, F', W, h1, .quiet trivial hq.waitSub hq.given hq.hist hc⟩

/-! ## §2. A run of one server. -/

/-- The state the slot loop of `pool_build` has reached after `n` passes. -/
theorem slotLoop_spec (n : Nat) :
    ∃ k e, (List.range n).foldl poolUnconnectQueuePut (serverZero : ServerInfo σ)
        = { serverZero with node := k, unconnectQueue := e, unconnectCount := n }
      ∧ IsQueue k e (List.range n) ∧ SameOff (List.range n) null k := by
  induction n with
  | zero => exact ⟨null, Ends.empty, rfl, isQueue_empty _, SameOff.refl _ _⟩
  | succ n ih =>
      obtain ⟨k, e, hb, hq, hoff⟩ := ih
      obtain ⟨h1, h2⟩ := pushBack_spec hq (a := n) (by simp)
      rw [List.range_succ, List.foldl_append, hb]
      refine ⟨_, _, rfl, h1, ?_⟩
      exact (hoff.mono (fun x hx => List.mem_append_left _ hx)).trans h2

theorem serverBuild_spec (c : Int) :
    ∃ k e, (serverBuild c : ServerInfo σ)
        = { serverZero with node := k, unconnectQueue := e, unconnectCount := c.toNat }
      ∧ IsQueue k e (List.range c.toNat) ∧ SameOff (List.range c.toNat) null k :=
  slotLoop_spec c.toNat

theorem serverBuild_inv (pool : PoolConf) :
    Srv.Inv pool 0 (⟨serverBuild pool.connectPerServer, Ghost.start⟩ : Srv σ)
      (List.range pool.slots) [] [] := by
  obtain ⟨k, e, hb, hq, hoff⟩ := serverBuild_spec (σ := σ) pool.connectPerServer
  unfold Srv.Inv
  rw [hb]
  refine ⟨hq, isQueue_empty _, isQueue_empty _, ?_, ?_, by simp, ?_, Or.inl rfl, ?_, rfl, rfl, ?_⟩
  · intro j hj _
    exact hoff j hj
  · intro j _
    exact ⟨List.mem_range, List.not_mem_nil, rfl, rfl, rfl⟩
  · intro a
    simp [serverZero]
  · show (pool.slots : Int) = _
    rw [List.length_range]
  · show (0 : Int) = _
    simp [Ghost.start]

/-- How often the steps of a run counted off a node that was in no queue. -/
def driftOf (tr : List (Srv σ × SrvOp σ)) : Nat := (tr.map (fun p => p.2.drift p.1.ghost)).sum

/-- **A whole run.** -/
theorem Srv.run_inv {pool : PoolConf} {tr : List (Srv σ × SrvOp σ)} {s : Srv σ}
    (h : (srvLts pool σ).Run tr s) : ∃ U F W, s.Inv pool (driftOf tr) U F W := by
  refine h.history (P := fun tr s => ∃ U F W, s.Inv pool (driftOf tr) U F W) ?_ ?_
  · intro s hs
    rw [hs]
    exact ⟨_, _, _, serverBuild_inv pool⟩
  · intro tr s op s' _ ih hstep
    obtain ⟨U, F, W, hinv⟩ := ih
    obtain ⟨-, hen, rfl⟩ := hstep
    obtain ⟨U', F', W', h1, -⟩ := Srv.exec_inv hinv hen
    refine ⟨U', F', W', ?_⟩
    unfold driftOf at h1 ⊢
    rw [List.map_append, List.sum_append, List.map_singleton, List.sum_singleton]
    exact h1

/-! ## §3. The servers of a pool. -/

/-- The operation an entry into the pool runs at server `i`. -/
def PoolOp.onto (p : PoolState σ) (i : Nat) : PoolOp σ → Option (SrvOp σ)
  | .fetch sub wq now balance serverid =>
      if p.pool.pickServer balance serverid = some i then some (.fetch sub wq now) else none
  | .server k op => if k = i then some op else none
  | .destroy => if i < p.pool.serverCount.toNat then some .destroy else none

/-- Server `i` after `op`, where `none` leaves it alone. -/
def Srv.after (pool : PoolConf) (s : Srv σ) : Option (SrvOp σ) → Srv σ
  | some op => s.exec pool op
  | none => s

@[simp] theorem PoolState.onServer_conf (p : PoolState σ) (i : Nat) (op : SrvOp σ) :
    (p.onServer i op).1.pool.conf = p.pool.conf := by
  unfold PoolState.onServer PoolInfo.onServer
  split <;> rfl

@[simp] theorem PoolState.onServer_built (p : PoolState σ) (i : Nat) (op : SrvOp σ) :
    (p.onServer i op).1.built = p.built := rfl

theorem PoolState.onServer_srv (p : PoolState σ) (i : Nat) (op : SrvOp σ) (k : Nat) :
    (p.onServer i op).1.srv k
      = (p.srv k).after p.pool.conf (if i = k then some op else none) := by
  have harr : (p.onServer i op).1.pool.serverArr
      = Function.update p.pool.serverArr i (op.code p.pool.conf (p.pool.serverArr i)).1 := by
    unfold PoolState.onServer PoolInfo.onServer
    split <;> rfl
  unfold PoolState.srv
  rw [harr]
  by_cases hik : i = k
  · subst hik
    rw [if_pos rfl]
    simp only [PoolState.onServer, Function.update_self]
    rfl
  · have hki : k ≠ i := fun he => hik he.symm
    rw [if_neg hik]
    simp only [PoolState.onServer, Function.update_of_ne hki]
    rfl

/-- `pool_destroy` over the servers `l`, each once. -/
theorem destroyAll_srv (l : List Nat) (hnd : l.Nodup) :
    ∀ (p : PoolState σ) (k : Nat),
      (l.foldl (fun p i => (p.onServer i .destroy).1) p).srv k
          = (p.srv k).after p.pool.conf (if k ∈ l then some .destroy else none)
        ∧ (l.foldl (fun p i => (p.onServer i .destroy).1) p).pool.conf = p.pool.conf
        ∧ (l.foldl (fun p i => (p.onServer i .destroy).1) p).built = p.built := by
  induction l with
  | nil =>
      intro p k
      exact ⟨rfl, rfl, rfl⟩
  | cons i l ih =>
      obtain ⟨hil, hnd⟩ := List.nodup_cons.1 hnd
      intro p k
      obtain ⟨h1, h2, h3⟩ := ih hnd (p.onServer i .destroy).1 k
      rw [PoolState.onServer_conf] at h1 h2
      refine ⟨?_, h2, h3⟩
      rw [List.foldl_cons, h1, PoolState.onServer_srv]
      by_cases hik : i = k
      · subst hik
        simp [hil, Srv.after]
      · have hki : ¬ k = i := fun he => hik he.symm
        simp [hik, hki, Srv.after]

@[simp] theorem PoolState.balanced_srv (p : PoolState σ) (i : Nat) : p.balanced.srv i = p.srv i := by
  unfold PoolState.srv
  rw [show p.balanced.pool.serverArr = p.pool.serverArr from p.pool.balanced_serverArr]
  rfl

/-- **Every server takes its own step.** -/
theorem PoolState.exec_srv (p : PoolState σ) (op : PoolOp σ) (i : Nat) :
    (p.exec op).srv i = (p.srv i).after p.pool.conf (op.onto p i)
      ∧ (p.exec op).pool.conf = p.pool.conf ∧ (p.exec op).built = p.built := by
  cases op with
  | fetch sub wq now balance serverid =>
      simp only [PoolState.exec, PoolOp.onto]
      cases p.pool.pickServer balance serverid with
      | none => exact ⟨p.balanced_srv i, p.pool.balanced_conf, rfl⟩
      | some k =>
          simp only [Option.some.injEq]
          exact ⟨p.onServer_srv k _ i, p.onServer_conf k _, rfl⟩
  | server k op => exact ⟨p.onServer_srv k op i, p.onServer_conf k op, rfl⟩
  | destroy =>
      have h := destroyAll_srv (List.range p.pool.serverCount.toNat) List.nodup_range p i
      simp only [List.mem_range] at h
      exact h

/-- What a pool is promised, each of its servers is promised. -/
theorem PoolState.Enabled.onto {p : PoolState σ} {op : PoolOp σ} (h : p.Enabled op) {i : Nat}
    {sop : SrvOp σ} (hop : op.onto p i = some sop) : p.Live i ∧ (p.srv i).Enabled sop := by
  cases op with
  | fetch sub wq now balance serverid =>
      simp only [PoolOp.onto] at hop
      split at hop
      · rename_i hpick
        cases hop
        obtain ⟨h1, h2, h3⟩ := h i hpick
        exact ⟨h1, h2, h3 i⟩
      · cases hop
  | server k op =>
      simp only [PoolOp.onto] at hop
      split at hop
      · rename_i hk
        subst hk
        cases hop
        exact h.2
      · cases hop
  | destroy =>
      simp only [PoolOp.onto] at hop
      split at hop
      · rename_i hi
        cases hop
        have hib : i < p.built := by
          have := h.1
          omega
        exact h.2 i hib
      · cases hop

/-- The steps of server `i` in a run of its pool. -/
def srvTrace (i : Nat) (tr : List (PoolState σ × PoolOp σ)) : List (Srv σ × SrvOp σ) :=
  tr.filterMap (fun p => (p.2.onto p.1 i).map (fun op => (p.1.srv i, op)))

/-- The settings `pool_build` derives from its arguments. -/
def buildConf (connectPerServer connectRetry : Int) : PoolConf :=
  (poolBuild 0 connectPerServer connectRetry : PoolInfo Unit).conf

/-- **A run of a pool is a run of each of its servers.** -/
theorem PoolState.run_srv {serverCount : Nat} {connectPerServer connectRetry : Int}
    {tr : List (PoolState σ × PoolOp σ)} {p : PoolState σ}
    (h : (poolLts σ serverCount connectPerServer connectRetry).Run tr p) (i : Nat) :
    (srvLts (buildConf connectPerServer connectRetry) σ).Run (srvTrace i tr) (p.srv i)
      ∧ p.pool.conf = buildConf connectPerServer connectRetry ∧ p.built = serverCount := by
  refine h.history (P := fun tr p =>
    (srvLts (buildConf connectPerServer connectRetry) σ).Run (srvTrace i tr) (p.srv i)
      ∧ p.pool.conf = buildConf connectPerServer connectRetry ∧ p.built = serverCount) ?_ ?_
  · intro p hp
    rw [hp]
    exact ⟨.init rfl, rfl, rfl⟩
  · intro tr p op p' _ ih hstep
    obtain ⟨hrun, hconf, hbuilt⟩ := ih
    obtain ⟨hen, rfl⟩ := hstep
    obtain ⟨h1, h2, h3⟩ := p.exec_srv op i
    refine ⟨?_, h2.trans hconf, h3.trans hbuilt⟩
    rw [h1, hconf]
    unfold srvTrace
    rw [List.filterMap_append]
    cases hop : op.onto p i with
    | none =>
        have : [(p, op)].filterMap
            (fun p => (p.2.onto p.1 i).map (fun op => (p.1.srv i, op))) = [] := by
          simp [hop]
        rw [this, List.append_nil]
        exact hrun
    | some sop =>
        have : [(p, op)].filterMap
            (fun p => (p.2.onto p.1 i).map (fun op => (p.1.srv i, op))) = [(p.srv i, sop)] := by
          simp [hop]
        rw [this]
        obtain ⟨⟨-, hfreed⟩, hsen⟩ := hen.onto hop
        exact hrun.step ⟨hfreed, hsen, rfl⟩

/-! ## §4. Runs given by their entries. -/

/-- The state the entries `ops` lead to. -/
abbrev PoolState.execAll (p : PoolState σ) (ops : List (PoolOp σ)) : PoolState σ :=
  Lts.execAll PoolState.exec p ops

/-- Each entry keeps its promises when its turn comes. -/
abbrev PoolState.AllEnabled (p : PoolState σ) (ops : List (PoolOp σ)) : Prop :=
  Lts.AllEnabled PoolState.exec PoolState.Enabled p ops

/-- The run from `pool_build` on. -/
theorem PoolState.run_of_allEnabled {n : Nat} {N r : Int} {ops : List (PoolOp σ)}
    (h : (PoolState.start n N r : PoolState σ).AllEnabled ops) :
    (poolLts σ n N r).Run (Lts.traceAll PoolState.exec (PoolState.start n N r) ops)
      ((PoolState.start n N r).execAll ops) := by
  have hstep : ∀ (p : PoolState σ) op, p.Enabled op → (poolLts σ n N r).step p op (p.exec op) :=
    fun _ _ hen => ⟨hen, rfl⟩
  exact Lts.Run.execAll hstep ops (.init rfl) h

end RedisAgent
