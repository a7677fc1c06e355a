/-
  RedisAgent.Pool.Reports — how often is a connection failure reported?

  `setServerArgAfterConn(server, -1)` tells the balancer that a connection to the
  server failed.  `_pool_on_connect_destroyed` is the one place that says so, and
  it says so every time it runs (`SrvOp.code_reports`).  That is once for a
  connection, as long as its slot was not already marked `to_be_destroyed` by an
  earlier report: the mark is how the pool remembers a report (`Reported`).

  A connection that is lost in use is therefore reported again when its release
  has closed it, and a creation that fails is not reported at all.  In the runs
  where neither happens the balancer hears of every failure once.  A pool of two
servers or more must not have been torn down in part besides: from there on the
counting runs on memory that is not the pool's.

  Main result: `pool_failures_reported_once`.
-/
import Mathlib.Data.List.Dedup
import RedisAgent.Pool.Handles
import RedisAgent.Pool.Teardown

namespace RedisAgent

open Links

variable {σ : Type*}

/-! ## §1. What is counted. -/

/-- The call is `setServerArgAfterConn(server, -1)`. -/
def Call.isFailureReport : Call σ → Bool
  | .argAfterConn ret => decide (ret = -1)
  | _ => false

/-- The plugin answers that the connection could not be made. -/
def SrvOp.isFailedCreation : SrvOp σ → Bool
  | .created _ status _ => decide (status ≠ 0)
  | _ => false

/-- The connection the plugin reports gone: lost, or destroyed on request. -/
def SrvOp.gone : SrvOp σ → Option Handle
  | .destroyed hd => some hd
  | _ => none

/-- How often server `i` reported a failure in the run `tr`. -/
def failureReports (i : Nat) (tr : List (PoolState σ × PoolOp σ)) : Nat :=
  (serverCalls i (runCalls tr)).countP Call.isFailureReport

/-- How many creations failed at server `i`. -/
def failedCreations (i : Nat) (tr : List (PoolState σ × PoolOp σ)) : Nat :=
  (srvTrace i tr).countP (fun q => q.2.isFailedCreation)

/-- The connections of server `i` the plugin reported gone, as often as it did. -/
def goneConnections (i : Nat) (tr : List (PoolState σ × PoolOp σ)) : List Handle :=
  (srvTrace i tr).filterMap (fun q => q.2.gone)

/-! ## §2. What an operation does to the marks. -/

/-- The marks `to_be_destroyed` are those of `t`, and nothing is reported. -/
structure Unmarked (t : ServerInfo σ) (r : Out σ) : Prop where
  mark : ∀ j, (r.1.connectArr j).toBeDestroyed = (t.connectArr j).toBeDestroyed
  silent : r.2.countP Call.isFailureReport = 0

/-- Nothing was called. -/
theorem Unmarked.quiet {t t' : ServerInfo σ}
    (h : ∀ j, (t'.connectArr j).toBeDestroyed = (t.connectArr j).toBeDestroyed) :
    Unmarked t (t', []) := ⟨h, rfl⟩

/-- The marks are all that is told of the state before. -/
theorem Unmarked.congr {t t' : ServerInfo σ} {r : Out σ} (h : Unmarked t r)
    (ht : ∀ j, (t.connectArr j).toBeDestroyed = (t'.connectArr j).toBeDestroyed) :
    Unmarked t' r := ⟨fun j => (h.mark j).trans (ht j), h.silent⟩

/-- A call that is no report, made first. -/
theorem Unmarked.cons {t : ServerInfo σ} {r : Out σ} (h : Unmarked t r) (c : Call σ)
    (hc : c.isFailureReport = false) : Unmarked t (r.1, c :: r.2) := by
  refine ⟨h.mark, ?_⟩
  show (c :: r.2).countP _ = 0
  rw [List.countP_cons, h.silent, hc]
  rfl

/-- Writing a slot back with its mark. -/
theorem ServerInfo.setConn_mark (t : ServerInfo σ) (j : Nat) (ci : ConnectInfo)
    (h : ci.toBeDestroyed = (t.connectArr j).toBeDestroyed) (i : Nat) :
    ((t.setConn j ci).connectArr i).toBeDestroyed = (t.connectArr i).toBeDestroyed := by
  by_cases hij : i = j
  · subst hij
    simpa only [ServerInfo.setConn, Function.update_self] using h
  · simp only [ServerInfo.setConn, Function.update_of_ne hij]

/-- Taking a free connection out of its queue writes no slot. -/
theorem poolConnectQueueGet_slots (t : ServerInfo σ) :
    (poolConnectQueueGet t).2.connectArr = t.connectArr := by
  unfold poolConnectQueueGet
  rcases t.node.popFront t.connectQueue with ⟨_ | j, k, e⟩ <;> rfl

/-- Nor does taking a request out of the waiting queue. -/
theorem poolWaitingQueueGet_slots (t : ServerInfo σ) :
    (poolWaitingQueueGet t).2.connectArr = t.connectArr := by
  unfold poolWaitingQueueGet
  cases t.waitingQueue.head <;> rfl

theorem poolServerDestroyLoop_unmarked (fuel : Nat) :
    ∀ (j : Option Nat) (t : ServerInfo σ), Unmarked t (poolServerDestroyLoop fuel j t) := by
  induction fuel with
  | zero =>
      intro j t
      exact .quiet (fun _ => rfl)
  | succ fuel ih =>
      intro j t
      cases j with
      | none => exact .quiet (fun _ => rfl)
      | some j =>
          have hrest := ih (poolConnectQueueGet t).1 (poolConnectQueueGet t).2
          rw [poolServerDestroyLoop]
          refine (hrest.congr ?_).cons (.destroyCb _) rfl
          intro i
          rw [poolConnectQueueGet_slots]

theorem poolServerDestroy_unmarked (pool : PoolConf) (t : ServerInfo σ) :
    Unmarked t (poolServerDestroy pool t) := by
  have hslots := poolConnectQueueGet_slots t
  unfold poolServerDestroy
  cases hget : poolConnectQueueGet t with
  | mk j t' =>
      rw [hget] at hslots
      cases j with
      | none =>
          refine ⟨?_, rfl⟩
          intro i
          show (t'.connectArr i).toBeDestroyed = _
          rw [hslots]
      | some j =>
          refine (poolServerDestroyLoop_unmarked pool.slots (some j) t').congr ?_
          intro i
          rw [hslots]

theorem poolPutBackConnect_unmarked (pool : PoolConf) (t : ServerInfo σ) (j : Nat)
    (now : Timeval) : Unmarked t (poolPutBackConnect pool t j now) := by
  have hslots := poolWaitingQueueGet_slots t
  unfold poolPutBackConnect
  cases hget : poolWaitingQueueGet t with
  | mk y t' =>
      rw [hget] at hslots
      have hmark : ∀ i, (t'.connectArr i).toBeDestroyed = (t.connectArr i).toBeDestroyed := by
        intro i
        rw [hslots]
      cases y with
      | none =>
          simp only
          split
          · have hdes := poolServerDestroy_unmarked pool (poolConnectQueuePut t' j)
            exact (hdes.congr hmark).cons (.argAfterConn 0) rfl
          · exact ⟨hmark, rfl⟩
      | some y =>
          have hset : ∀ i, ((t'.setConn j { t'.connectArr j with
              timestamp := now, inUse := true }).connectArr i).toBeDestroyed
                = (t'.connectArr i).toBeDestroyed :=
            t'.setConn_mark j _ rfl
          exact (((Unmarked.quiet hset).congr hmark).cons (.callback _ y) rfl).cons
            (.argAfterConn 0) rfl

theorem poolCreateNewConnect_unmarked (t : ServerInfo σ) : Unmarked t (poolCreateNewConnect t) := by
  unfold poolCreateNewConnect poolUnconnectQueueGet
  rcases t.node.popFront t.unconnectQueue with ⟨_ | j, k, e⟩
  · exact .quiet (fun _ => rfl)
  · have hset := t.setConn_mark j { t.connectArr j with handle := some ⟨j, t.serial⟩ } rfl
    exact ⟨hset, rfl⟩

/-- **An operation that is no answer of the plugin** marks nothing and reports
nothing. -/
theorem SrvOp.code_cases (pool : PoolConf) (t : ServerInfo σ) (op : SrvOp σ) :
    (∃ hd status now, op = .created hd status now) ∨ (∃ hd, op = .destroyed hd)
      ∨ op.gone = none ∧ Unmarked t (op.code pool t) := by
  cases op with
  | created hd status now => exact Or.inl ⟨hd, status, now, rfl⟩
  | destroyed hd => exact Or.inr (Or.inl ⟨hd, rfl⟩)
  | fetch y wq now =>
      refine Or.inr (Or.inr ⟨rfl, ?_⟩)
      show Unmarked t (serverFetchConnect pool t y wq now).2
      unfold serverFetchConnect poolFetchConnectFromConnectqueue
      split
      · have hslots := poolConnectQueueGet_slots t
        cases hget : poolConnectQueueGet t with
        | mk j t' =>
            rw [hget] at hslots
            have hmark : ∀ i, (t'.connectArr i).toBeDestroyed = (t.connectArr i).toBeDestroyed := by
              intro i
              rw [hslots]
            cases j with
            | none => exact .quiet hmark
            | some j =>
                have hset := t'.setConn_mark j
                  { t'.connectArr j with timestamp := now, inUse := true } rfl
                exact ((Unmarked.quiet hset).congr hmark).cons (.callback _ y) rfl
      · simp only
        split
        · have hnew := poolCreateNewConnect_unmarked t
          exact ⟨hnew.mark, hnew.silent⟩
        · exact .quiet (fun _ => rfl)
  | release h errclose now =>
      refine Or.inr (Or.inr ⟨rfl, ?_⟩)
      show Unmarked t (poolReleaseConnect pool t h errclose now)
      have hset := t.setConn_mark h.poolData
        { t.connectArr h.poolData with inUse := false } rfl
      unfold poolReleaseConnect
      simp only
      split
      · have hput := poolPutBackConnect_unmarked pool
          (t.setConn h.poolData { t.connectArr h.poolData with inUse := false }) h.poolData now
        exact (hput.congr hset).cons (.serverArg _) rfl
      · exact ((Unmarked.quiet hset).cons (.destroyCb _) rfl).cons (.serverArg _) rfl
  | waitRm wq =>
      refine Or.inr (Or.inr ⟨rfl, ?_⟩)
      show Unmarked t (poolWaitingQueueRm pool t wq)
      unfold poolWaitingQueueRm
      simp only
      split
      · exact (poolServerDestroy_unmarked pool (poolWaitingQueueUnlink t wq)).congr (fun _ => rfl)
      · exact .quiet (fun _ => rfl)
  | monitor =>
      refine Or.inr (Or.inr ⟨rfl, ?_⟩)
      show Unmarked t (serverConnectMonitor pool t)
      unfold serverConnectMonitor
      split
      · exact poolCreateNewConnect_unmarked t
      · exact .quiet (fun _ => rfl)
  | destroy =>
      refine Or.inr (Or.inr ⟨rfl, ?_⟩)
      show Unmarked t (serverDestroy pool t)
      unfold serverDestroy
      simp only
      split
      · exact (poolServerDestroy_unmarked pool
          { t with monitorEvent := false, destroyFlag := true }).congr (fun _ => rfl)
      · exact .quiet (fun _ => rfl)

/-- The answer to a creation clears the mark of its own slot, and reports nothing,
whether or not the creation failed. -/
theorem poolOnConnectCreated_unmarked (pool : PoolConf) (t : ServerInfo σ) (hd : Handle)
    (status : Int) (now : Timeval) :
    Unmarked (t.setConn hd.poolData
        { t.connectArr hd.poolData with inUse := false, toBeDestroyed := false })
      (poolOnConnectCreated pool t hd status now) := by
  unfold poolOnConnectCreated
  simp only
  generalize t.setConn hd.poolData
    { t.connectArr hd.poolData with inUse := false, toBeDestroyed := false } = t1
  split
  · exact (poolPutBackConnect_unmarked pool
      { t1 with connectCount := t1.connectCount + 1 } hd.poolData now).congr (fun _ => rfl)
  · have hset := (poolUnconnectQueuePut t1 hd.poolData).setConn_mark hd.poolData
      { (poolUnconnectQueuePut t1 hd.poolData).connectArr hd.poolData with
        handle := none } rfl
    split
    · exact (poolServerDestroy_unmarked pool ((poolUnconnectQueuePut t1 hd.poolData).setConn
        hd.poolData { (poolUnconnectQueuePut t1 hd.poolData).connectArr hd.poolData with
          handle := none })).congr hset
    · exact .quiet hset

/-- What the plugin's report that a connection is gone writes: the mark, where a
request holds the connection and the slot is not marked yet; else the slot is
emptied. -/
theorem poolOnConnectDestroyed_slots (t : ServerInfo σ) (hd : Handle) :
    (poolOnConnectDestroyed t hd).1.connectArr = Function.update t.connectArr hd.poolData
      (if (t.connectArr hd.poolData).inUse ∧ ¬ (t.connectArr hd.poolData).toBeDestroyed then
        { t.connectArr hd.poolData with toBeDestroyed := true }
      else { t.connectArr hd.poolData with handle := none }) := by
  unfold poolOnConnectDestroyed
  simp only
  split
  · rfl
  · generalize hrm : (if (t.connectArr hd.poolData).inUse = true then t
      else poolConnectQueueRm t hd.poolData) = t1
    have hslots : t1.connectArr = t.connectArr := by
      rw [← hrm]
      split <;> rfl
    rw [← hslots]
    split <;> rfl

/-- Afterwards the slot is marked, or holds no connection. -/
theorem poolOnConnectDestroyed_own (t : ServerInfo σ) (hd : Handle) :
    ((poolOnConnectDestroyed t hd).1.connectArr hd.poolData).toBeDestroyed = true
      ∨ ((poolOnConnectDestroyed t hd).1.connectArr hd.poolData).handle = none := by
  rw [poolOnConnectDestroyed_slots, Function.update_self]
  split
  · left
    rfl
  · right
    rfl

/-- A slot that is marked stays marked. -/
theorem poolOnConnectDestroyed_keeps (t : ServerInfo σ) (hd : Handle) {j : Nat}
    (h : (t.connectArr j).toBeDestroyed = true) :
    ((poolOnConnectDestroyed t hd).1.connectArr j).toBeDestroyed = true := by
  by_cases hj : j = hd.poolData
  · subst hj
    rw [poolOnConnectDestroyed_slots, Function.update_self]
    split
    · rfl
    · exact h
  · rw [poolOnConnectDestroyed_slots, Function.update_of_ne hj]
    exact h

/-- It is passed on to the balancer every time it comes. -/
theorem poolOnConnectDestroyed_reports (t : ServerInfo σ) (hd : Handle) :
    (poolOnConnectDestroyed t hd).2.countP Call.isFailureReport = 1 := by
  unfold poolOnConnectDestroyed
  simp only
  split
  · rfl
  · generalize (if (t.connectArr hd.poolData).inUse = true then t
      else poolConnectQueueRm t hd.poolData) = t1
    split <;> rfl

/-- **How often an operation reports a failure**: once if the plugin says that a
connection is gone, and never otherwise. -/
theorem SrvOp.code_reports (pool : PoolConf) (t : ServerInfo σ) (op : SrvOp σ) :
    (op.code pool t).2.countP Call.isFailureReport = op.gone.toList.length := by
  rcases op.code_cases pool t with ⟨hd, status, now, rfl⟩ | ⟨hd, rfl⟩ | ⟨hgone, hun⟩
  · exact (poolOnConnectCreated_unmarked pool t hd status now).silent
  · exact poolOnConnectDestroyed_reports t hd
  · rw [hun.silent, hgone]
    rfl

/-! ## §3. The marks remember the reports. -/

/-- A connection that was reported gone and still has its slot has it marked. -/
def Reported (tr : List (Srv σ × SrvOp σ)) (s : Srv σ) : Prop :=
  ∀ q ∈ tr, ∀ hd, q.2 = .destroyed hd → (s.info.connectArr hd.poolData).handle = some hd →
    (s.info.connectArr hd.poolData).toBeDestroyed = true

/-- A handle that was allocated before and is in a slot after an operation was
there before. -/
theorem SrvOp.code_handle (pool : PoolConf) (t : ServerInfo σ) (op : SrvOp σ) {j : Nat}
    {hd : Handle} (hlt : hd.serial < t.serial)
    (h : ((op.code pool t).1.connectArr j).handle = some hd) :
    (t.connectArr j).handle = some hd := by
  rcases (op.code_fresh pool t).handle j hd h with hold | ⟨hnew, -⟩
  · exact hold
  · omega

/-- **Step.**  Only the answer to a creation clears a mark, and the slot it
answers for holds a connection that was never reported. -/
theorem Reported.step {pool : PoolConf} {d : Nat} {tr : List (Srv σ × SrvOp σ)} {s : Srv σ}
    {U F W : List Nat} (h : Reported tr s) (hhand : HandleInv tr s) (hinv : s.Inv pool d U F W)
    {op : SrvOp σ} (hen : s.Enabled op) :
    Reported (tr ++ [(s, op)]) (s.exec pool op) := by
  intro q hq hd hop hhandle
  rcases List.mem_append.1 hq with hq | hq
  · obtain ⟨hlt, -, hcr⟩ := hhand.reported q hq hd hop
    have hold := op.code_handle pool s.info hlt hhandle
    have hmark := h q hq hd hop hold
    rcases op.code_cases pool s.info with ⟨h', status, now, rfl⟩ | ⟨h', rfl⟩ | ⟨-, hun⟩
    · show ((poolOnConnectCreated pool s.info h' status now).1.connectArr hd.poolData).toBeDestroyed
        = true
      rw [(poolOnConnectCreated_unmarked pool s.info h' status now).mark]
      by_cases hj : hd.poolData = h'.poolData
      · -- then `hd` is the connection being created, and that was never reported
        exfalso
        have hslot := hinv.slot h'.poolData (by simp)
        have hc : s.ghost.conn h'.poolData = .creating h' := hen
        rw [hc] at hslot
        obtain ⟨-, ⟨hh, -⟩, -, -⟩ := hslot
        rw [hj, hh] at hold
        cases hold
        exact hcr hc
      · simpa only [ServerInfo.setConn, Function.update_of_ne hj] using hmark
    · exact poolOnConnectDestroyed_keeps s.info h' hmark
    · exact (hun.mark hd.poolData).trans hmark
  · -- the report just made
    rw [List.mem_singleton.1 hq] at hop
    subst hop
    rcases poolOnConnectDestroyed_own s.info hd with hmark | hnone
    · exact hmark
    · have hhandle : ((poolOnConnectDestroyed s.info hd).1.connectArr hd.poolData).handle = some hd :=
        hhandle
      rw [hnone] at hhandle
      cases hhandle

/-- **Run.** -/
theorem Reported.of_run {pool : PoolConf} {tr : List (Srv σ × SrvOp σ)} {s : Srv σ}
    (h : (srvEnvLts pool σ).Run tr s) : Reported tr s := by
  refine h.history (P := Reported) ?_ ?_
  · intro s _ q hq
    cases hq
  · intro tr s op s' hrun ih hstep
    obtain ⟨hen, rfl⟩ := hstep
    obtain ⟨U, F, W, hinv⟩ := Srv.env_inv hrun
    exact ih.step (HandleInv.of_run hrun) hinv hen

/-! ## §4. Reports and failures. -/

/-- The steps that are reported as the failures they are: a creation does not
fail, and a connection that is gone has no mark on its slot. -/
def Srv.ReportsOnce (s : Srv σ) : SrvOp σ → Prop
  | .created _ status _ => status = 0
  | .destroyed hd => (s.info.connectArr hd.poolData).toBeDestroyed = false
  | _ => True

/-- The entry is such a step of the server it is for. -/
def PoolState.ReportsOnce (p : PoolState σ) : PoolOp σ → Prop
  | .server i op => (p.srv i).ReportsOnce op
  | _ => True

/-- In every run, the balancer hears of a failure as often as the plugin reports a
connection gone. -/
theorem srvCalls_reports (pool : PoolConf) (tr : List (Srv σ × SrvOp σ)) :
    (srvCalls pool tr).countP Call.isFailureReport
      = (tr.filterMap (fun q => q.2.gone)).length := by
  induction tr with
  | nil => rfl
  | cons q tr ih =>
      have hcons : srvCalls pool (q :: tr) = (q.2.code pool q.1.info).2 ++ srvCalls pool tr :=
        List.flatMap_cons
      rw [hcons, List.countP_append, ih, q.2.code_reports pool q.1.info, List.filterMap_cons]
      cases q.2.gone with
      | none => exact Nat.zero_add _
      | some hd => exact Nat.add_comm _ _

/-- A report on a slot without a mark is the first on its connection. -/
theorem Srv.gone_nodup {pool : PoolConf} {tr : List (Srv σ × SrvOp σ)} {s : Srv σ}
    (h : (srvEnvLts pool σ).Run tr s) (honce : ∀ q ∈ tr, q.1.ReportsOnce q.2) :
    (tr.filterMap (fun q => q.2.gone)).Nodup := by
  revert honce
  refine h.history (P := fun tr _ => (∀ q ∈ tr, q.1.ReportsOnce q.2) →
    (tr.filterMap (fun q => q.2.gone)).Nodup) ?_ ?_
  · intro s _ _
    exact List.nodup_nil
  · intro tr s op s' hrun ih hstep honce
    have hold := ih (fun q hq => honce q (List.mem_append_left _ hq))
    have hlast := honce (s, op) (List.mem_append_right _ (List.mem_singleton_self _))
    rw [List.filterMap_append, List.nodup_append]
    refine ⟨hold, ?_, ?_⟩
    · cases hgone : op.gone <;> simp [hgone]
    · intro hd hm hd' hm' heq
      subst heq
      -- `op` reports `hd`, and so did an earlier step: then the slot was marked
      have hop : op = .destroyed hd := by
        cases op with
        | destroyed h' =>
            have hh : hd ∈ [h'] := hm'
            rw [List.mem_singleton.1 hh]
        | _ => cases hm'
      subst hop
      obtain ⟨q, hq, hgone⟩ := List.mem_filterMap.1 hm
      have hearlier : q.2 = .destroyed hd := by
        cases hq2 : q.2 with
        | destroyed h' =>
            rw [hq2] at hgone
            cases hgone
            rfl
        | _ =>
            rw [hq2] at hgone
            cases hgone
      have hhandle : (s.info.connectArr hd.poolData).handle = some hd := by
        obtain ⟨U, F, W, hinv⟩ := Srv.env_inv hrun
        have hslot := hinv.slot hd.poolData (by simp)
        rcases hstep.1 with hc | hc
        · rw [hc] at hslot
          exact hslot.2.1.1
        · rw [hc] at hslot
          exact hslot.2.1.1
      have hmark := Reported.of_run hrun q hq hd hearlier hhandle
      have hunmarked : (s.info.connectArr hd.poolData).toBeDestroyed = false := hlast
      rw [hunmarked] at hmark
      cases hmark

/-- No creation fails in such a run. -/
theorem Srv.no_failedCreation {tr : List (Srv σ × SrvOp σ)}
    (honce : ∀ q ∈ tr, q.1.ReportsOnce q.2) : tr.countP (fun q => q.2.isFailedCreation) = 0 := by
  rw [List.countP_eq_zero]
  intro q hq
  have hstep := honce q hq
  cases hop : q.2 with
  | created hd status now =>
      rw [hop] at hstep
      have hst : status = 0 := hstep
      simp [SrvOp.isFailedCreation, hst]
  | _ => simp [SrvOp.isFailedCreation]

/-- What is asked of the steps of a pool is asked of each server's steps. -/
theorem PoolState.ReportsOnce.onto {p : PoolState σ} {op : PoolOp σ} (h : p.ReportsOnce op)
    {i : Nat} {sop : SrvOp σ} (hon : op.onto p i = some sop) : (p.srv i).ReportsOnce sop := by
  cases op with
  | fetch y wq now balance serverid =>
      simp only [PoolOp.onto] at hon
      split at hon <;> cases hon
      trivial
  | server k kop =>
      simp only [PoolOp.onto] at hon
      split at hon
      · rename_i hk
        cases hon
        rw [← hk]
        exact h
      · cases hon
  | destroy =>
      simp only [PoolOp.onto] at hon
      split at hon <;> cases hon
      trivial

/-- The step is reported as the failure it is, in memory that is the pool's. -/
def PoolState.ReportsSoundly (p : PoolState σ) (op : PoolOp σ) : Prop :=
  p.ReportsOnce op ∧ ¬ p.Faults op

/-- **Each connection failure is reported once**, in every run of a pool where no
creation fails, no report comes for a slot that is marked `to_be_destroyed`, and no
server of several is torn down: the pool is in memory of its own, and server `i`
reports `-1` as often as creations failed and connections were lost or destroyed,
each connection counted once. -/
theorem pool_failures_reported_once {n : Nat} {c retry : Int}
    {tr : List (PoolState σ × PoolOp σ)} {p : PoolState σ}
    (h : ((poolEnvLts σ n c retry).restrict PoolState.ReportsSoundly).Run tr p) (i : Nat) :
    p.pool.Intact n
      ∧ failureReports i tr = failedCreations i tr + (goneConnections i tr).dedup.length := by
  obtain ⟨hrun, hsound⟩ := h.of_restrict
  refine ⟨(PoolState.intact_iff hrun).2 (fun q hq => (hsound q hq).2), ?_⟩
  have honce : ∀ q ∈ tr, q.1.ReportsOnce q.2 := fun q hq => (hsound q hq).1
  have hsrv := (PoolState.env_srv hrun i).1
  have hsteps : ∀ q ∈ srvTrace i tr, q.1.ReportsOnce q.2 := by
    intro q hq
    obtain ⟨q', hq', hon, hs⟩ := mem_srvTrace.1 hq
    rw [hs]
    exact (honce q' hq').onto hon
  have hfailed : failedCreations i tr = 0 := Srv.no_failedCreation hsteps
  have hnodup : (goneConnections i tr).Nodup := Srv.gone_nodup hsrv hsteps
  unfold failureReports
  rw [serverCalls_runCalls i (PoolState.env_conf hrun), srvCalls_reports, hfailed,
    List.dedup_eq_self.2 hnodup, Nat.zero_add]
  rfl

/-- The steps of a run given by its entries. -/
abbrev oneSlotTrace (ops : List (PoolOp Nat)) : List (PoolState Nat × PoolOp Nat) :=
  Lts.traceAll PoolState.exec (PoolState.start 1 1 0) ops

theorem errorReleaseOps_reportsSoundly :
    ((poolEnvLts Nat 1 1 0).restrict PoolState.ReportsSoundly).Run (oneSlotTrace errorReleaseOps)
      (oneSlotPool errorReleaseOps) := by
  have hrun : (poolEnvLts Nat 1 1 0).Run (oneSlotTrace errorReleaseOps)
      (oneSlotPool errorReleaseOps) :=
    PoolState.run_env (PoolState.run_of_allEnabled errorReleaseOps_enabled)
  -- the server is never torn down
  have hup : (oneSlotPool errorReleaseOps).pool.Intact 1 :=
    ⟨(fun hf => by cases hf), fun _ _ _ => rfl⟩
  refine hrun.to_restrict ?_
  intro q hq
  refine ⟨?_, (PoolState.intact_iff hrun).1 hup q hq⟩
  simp only [oneSlotTrace, Lts.traceAll, errorReleaseOps, List.mem_cons, List.not_mem_nil,
    or_false] at hq
  rcases hq with rfl | rfl | rfl | rfl | rfl
  · trivial
  · rfl
  · trivial
  · trivial
  · rfl

/-- A connection that is released with an error and destroyed is one failure, and
one report. -/
theorem pool_failures_reported_once_witness :
    (oneSlotPool errorReleaseOps).pool.Intact 1
      ∧ failureReports 0 (oneSlotTrace errorReleaseOps)
        = failedCreations 0 (oneSlotTrace errorReleaseOps)
          + (goneConnections 0 (oneSlotTrace errorReleaseOps)).dedup.length :=
  pool_failures_reported_once errorReleaseOps_reportsSoundly 0

/-- The only slot is to be connected, and the creation fails. -/
def failedCreationOps : List (PoolOp Nat) :=
  [.server 0 .monitor, .server 0 (.created ⟨0, 0⟩ (-1) {})]

/-- A connection is lost while a request holds it; the request gives it back, and
the plugin reports it destroyed. -/
def lostInUseOps : List (PoolOp Nat) :=
  [.server 0 .monitor, .server 0 (.created ⟨0, 0⟩ 0 {}), .fetch 7 0 {} (fun _ => 0) 0,
    .server 0 (.destroyed ⟨0, 0⟩), .server 0 (.release ⟨0, 0⟩ false {}),
    .server 0 (.destroyed ⟨0, 0⟩)]

theorem failedCreationOps_promised :
    (PoolState.start 1 1 0 : PoolState Nat).AllPromised failedCreationOps :=
  ⟨⟨trivial, by decide, rfl⟩, ⟨trivial, by decide, rfl⟩, trivial⟩

theorem lostInUseOps_promised :
    (PoolState.start 1 1 0 : PoolState Nat).AllPromised lostInUseOps := by
  refine ⟨⟨trivial, by decide, rfl⟩, ⟨trivial, by decide, rfl⟩, ?_,
    ⟨trivial, by decide, Or.inl rfl⟩, ⟨trivial, by decide, 7, List.mem_singleton_self _⟩,
    ⟨trivial, by decide, Or.inr rfl⟩, trivial⟩
  intro i hi
  have hi0 : some 0 = some i := hi
  cases hi0
  refine ⟨by decide, rfl, ?_⟩
  intro k hk
  cases k <;> cases hk

/-- **Failures are missed, and failures are counted twice.**  The failed creation
is reported to nobody; the connection that was lost in use is reported when it is
lost and again when it is destroyed. -/
theorem pool_failures_misreported :
    (∃ tr p, (poolEnvLts Nat 1 1 0).Run tr p ∧
      failureReports 0 tr < failedCreations 0 tr + (goneConnections 0 tr).dedup.length)
    ∧ ∃ tr p, (poolEnvLts Nat 1 1 0).Run tr p ∧
      failedCreations 0 tr + (goneConnections 0 tr).dedup.length < failureReports 0 tr := by
  refine ⟨⟨_, _, PoolState.envRun_of_allPromised failedCreationOps_promised, ?_⟩,
    ⟨_, _, PoolState.envRun_of_allPromised lostInUseOps_promised, ?_⟩⟩
  · show 0 < 1 + 0
    decide
  · show 0 + 1 < 2
    decide

end RedisAgent
