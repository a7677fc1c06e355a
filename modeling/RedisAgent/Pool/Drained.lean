/-
  RedisAgent.Pool.Drained — does the tear-down always come to its end?

  A server is stuck when `pool_destroy` was called, it is at rest, and it has not
  been torn down: nothing is outstanding that could still do it.  `SrvOp.Stalls`
  names the steps that leave a server stuck, on the state before them.  They are
  of two kinds.  In the first, `m_freeConnectCount` has drifted from its queue
  and so no sum of counters adds up any more; in the second, the last answer of
  the plugin is that to an `m_destroyCb`, and free connections are left which
  nobody closes.

  §3 counts the tear-downs of a pool against `m_serverCount`.
-/
import RedisAgent.Pool.Teardown

namespace RedisAgent

open Links

variable {σ : Type*}

/-! ## §1. One server. -/

/-- Nothing is outstanding, and the server is still there. -/
structure Srv.Stuck (N : Nat) (s : Srv σ) : Prop where
  flag : s.info.destroyFlag = true
  rest : s.AtRest N
  freed : s.info.freed = false

/-- The operation leads a server that is being destroyed to rest without tearing
it down or closing what is free. -/
def SrvOp.Stalls (N : Nat) (s : Srv σ) : SrvOp σ → Prop
  | .fetch .. | .monitor => False
  | .release hd errclose now =>
      s.info.destroyFlag = true ∧ SrvOp.RestsAfter N s (.release hd errclose now)
        ∧ ¬ s.info.CountersAgree
  | .created hd status now =>
      s.info.destroyFlag = true ∧ SrvOp.RestsAfter N s (.created hd status now)
        ∧ ¬ s.info.CountersAgree
  | .waitRm wq =>
      s.info.destroyFlag = true ∧ SrvOp.RestsAfter N s (.waitRm wq) ∧ ¬ s.info.CountersAgree
  | .destroy => s.AtRest N ∧ ¬ s.info.CountersAgree
  | .destroyed hd =>
      s.info.destroyFlag = true ∧ SrvOp.RestsAfter N s (.destroyed hd)
        ∧ s.ghost.conn hd.poolData = .destroying hd ∧ s.info.connectQueue.head ≠ none

variable {pool : PoolConf} {d : Nat} {s : Srv σ} {U F W : List Nat}

/-- The counters of a server say how far they have drifted. -/
theorem Srv.Inv.counts (h : s.Inv pool d U F W) :
    s.info.freeConnectCount + s.info.unconnectCount = U.length + F.length - d := by
  have hfree := h.freeConnectCount
  have hunconn := h.unconnectCount
  omega

/-- The last busy slot is about to rest: the sum is one short, and more by the
drift. -/
theorem Srv.Inv.others_agree (h : s.Inv pool d U F W) {j : Nat}
    (hj : j < pool.slots ∧ j ∉ U ∧ j ∉ F)
    (hrest : s.OthersRest pool.slots j) :
    s.info.freeConnectCount + s.info.unconnectCount + 1 = pool.connectPerServer
      ↔ s.info.CountersAgree := by
  have hlen := h.others_length hj hrest
  have hcounts := h.counts
  have hpos : j < pool.slots := hj.1
  have hslots : pool.slots = pool.connectPerServer.toNat := rfl
  rw [h.countersAgree_iff]
  omega

/-- At rest, the sum is complete but for the drift. -/
theorem Srv.Inv.rest_agree (h : s.Inv pool d U F W) (hpool : 0 ≤ pool.connectPerServer)
    (hrest : ∀ j, j < pool.slots → s.RestsAt j) :
    s.info.freeConnectCount + s.info.unconnectCount = pool.connectPerServer
      ↔ s.info.CountersAgree := by
  have hlen := h.rest_length hrest
  have hcounts := h.counts
  have hslots : pool.slots = pool.connectPerServer.toNat := rfl
  rw [h.countersAgree_iff]
  omega

/-- At rest, the free connections are all there are. -/
theorem Srv.Inv.rest_connectCount (h : s.Inv pool d U F W)
    (hrest : ∀ j, j < pool.slots → s.RestsAt j) :
    s.info.connectCount = F.length := by
  have hF : ∀ j ∈ F, j < pool.slots :=
    fun j hj => h.queues.2 j (List.mem_append_right U hj)
  rw [h.connectCount, ← countP_mem_range h.free.nodup hF]
  refine congrArg Nat.cast (List.countP_congr ?_)
  intro j hj
  rw [decide_eq_true_iff]
  have hslot := h.slot j (by simp)
  rcases hslot.rests (List.mem_range.1 hj) (hrest j (List.mem_range.1 hj)) with
    ⟨hU, hc⟩ | ⟨hF, hd, hc⟩
  · simp [hc, h.disjoint hU]
  · simp [hc, hF]

/-- With one connection being closed and the others at rest, it is one more. -/
theorem Srv.Inv.closing_connectCount (h : s.Inv pool d U F W) {hd : Handle}
    (hc : s.ghost.conn hd.poolData = .destroying hd)
    (hrest : s.OthersRest pool.slots hd.poolData) :
    s.info.connectCount = F.length + 1 := by
  have hslot := h.slot hd.poolData (by simp)
  rw [hc] at hslot
  obtain ⟨⟨hjN, -, hjF⟩, -⟩ := hslot
  have hF : ∀ j ∈ hd.poolData :: F, j < pool.slots := by
    intro j hj
    rcases List.mem_cons.1 hj with rfl | hj
    · exact hjN
    · exact h.queues.2 j (List.mem_append_right U hj)
  have hcard := countP_mem_range (List.nodup_cons.2 ⟨hjF, h.free.nodup⟩) hF
  rw [List.length_cons] at hcard
  have hsame : (List.range pool.slots).countP (fun j => (s.ghost.conn j).connected)
      = (List.range pool.slots).countP
        (fun j => decide (j ∈ hd.poolData :: F)) := by
    apply List.countP_congr
    intro j hj
    rw [decide_eq_true_iff, List.mem_cons]
    by_cases hjj : j = hd.poolData
    · subst hjj
      simp [hc]
    · rcases (h.slot j (by simp)).rests (List.mem_range.1 hj)
        (hrest j (List.mem_range.1 hj) hjj) with ⟨hU, hi⟩ | ⟨hF, hd', hi⟩
      · simp [hi, hjj, h.disjoint hU]
      · simp [hi, hF]
  rw [h.connectCount, hsame, hcard]
  rfl

/-- **What `Stalls` says**: the operation leads to rest, and its own test fails. -/
theorem Srv.Inv.stalls_iff (h : s.Inv pool d U F W) (hpool : 0 ≤ pool.connectPerServer)
    {op : SrvOp σ} (hen : s.Enabled op) (hop : op ≠ .monitor) (hstuck : ¬ s.Stuck pool.slots)
    (hfreed : s.info.freed = false) :
    (op.mark s.info).destroyFlag = true ∧ op.RestsAfter pool.slots s
        ∧ ¬ op.Closes pool.connectPerServer s
      ↔ op.Stalls pool.slots s := by
  cases op with
  | monitor => exact absurd rfl hop
  | fetch y wq now => exact iff_of_false (fun hx => hx.2.1) (fun hx => hx)
  | release hd errclose now =>
      obtain ⟨y, hy⟩ := hen
      obtain ⟨hj, -⟩ := (h.slot hd.poolData (by simp)).of_given hy
      refine and_congr_right (fun hflag => and_congr_right (fun hr => not_congr ?_))
      rw [← h.others_agree hj hr.2.2.2]
      exact ⟨fun hc => hc.2, fun hc => ⟨hflag, hc⟩⟩
  | created hd status now =>
      have hcr : s.ghost.conn hd.poolData = .creating hd := hen
      have hslot := h.slot hd.poolData (by simp)
      rw [hcr] at hslot
      refine and_congr_right (fun hflag => and_congr_right (fun hr => not_congr ?_))
      rw [← h.others_agree hslot.1 hr.2]
      exact ⟨fun hc => hc.2, fun hc => ⟨hflag, hc⟩⟩
  | waitRm wq =>
      refine and_congr_right (fun hflag => and_congr_right (fun hr => not_congr ?_))
      rw [← h.rest_agree hpool hr.2]
      exact ⟨fun hc => hc.2.2, fun hc => ⟨hflag, hr.1, hc⟩⟩
  | destroy =>
      have hmark : (SrvOp.mark s.info (.destroy : SrvOp σ)).destroyFlag = true := rfl
      rw [and_iff_right hmark]
      refine and_congr_right (fun hr => not_congr ?_)
      -- all three parts of the test say that there is no drift
      have hlen := h.waitingCount
      rw [h.wait.head_eq_none.1 hr.wait] at hlen
      have hcon := h.rest_connectCount hr.slots
      have hfree := h.freeConnectCount
      constructor
      · intro hc
        exact (h.rest_agree hpool hr.slots).1 hc.2.1
      · intro hagree
        refine ⟨?_, (h.rest_agree hpool hr.slots).2 hagree, hlen⟩
        have hd := h.countersAgree_iff.1 hagree
        omega
  | destroyed hd =>
      refine and_congr_right (fun hflag => and_congr_right (fun hr => ?_))
      have hflag : s.info.destroyFlag = true := hflag
      rcases hen with hup | hdes
      · -- a free connection was at rest: the server was stuck before
        refine absurd ⟨hflag, ⟨hr.2.1, ?_⟩, hfreed⟩ hstuck
        intro j hj
        by_cases hjj : j = hd.poolData
        · rw [hjj]
          exact ⟨hr.1, by simp [hup], by simp [hup]⟩
        · exact hr.2.2 j hj hjj
      · rw [and_iff_right hdes]
        refine not_congr ?_
        have hcount := h.closing_connectCount hdes hr.2.2
        rw [h.free.head_eq_none, ← List.length_eq_zero_iff]
        constructor
        · intro hc
          have hone : s.info.connectCount = 1 := hc.2
          omega
        · intro hF
          refine ⟨hflag, ?_⟩
          omega

/-- **One step** leaves a server stuck exactly when it stalls. -/
theorem Srv.stuck_iff {tr : List (Srv σ × SrvOp σ)} (hrun : (srvEnvLts pool σ).Run tr s)
    (h : s.Inv pool d U F W) (hpool : 0 ≤ pool.connectPerServer) {op : SrvOp σ}
    (hen : s.Enabled op) (hstuck : ¬ s.Stuck pool.slots) :
    (s.exec pool op).Stuck pool.slots
      ↔ s.info.freed = false ∧ op.Stalls pool.slots s := by
  have htells := op.code_tells pool s.info
  have hflag : (s.exec pool op).info.destroyFlag = (op.mark s.info).destroyFlag := htells.flags.1
  have hfreed : (s.exec pool op).info.freed
      = (s.info.freed || (op.code pool s.info).2.any Call.isServerDestroyed) := by
    have hf := htells.freed
    rw [op.mark_freed] at hf
    exact hf
  by_cases hop : op = .monitor
  · -- the monitor runs no more once the flag is set
    subst hop
    refine iff_of_false ?_ (fun hx => hx.2)
    intro hs
    have hmon : s.info.monitorEvent = true := hen
    rw [Srv.env_monitor hrun (hflag.symm.trans hs.flag)] at hmon
    cases hmon
  · have hout := (Srv.exec_outcome h hen hop).stalls
    constructor
    · intro hs
      have hboth := hs.freed
      rw [hfreed, Bool.or_eq_false_iff] at hboth
      refine ⟨hboth.1, (h.stalls_iff hpool hen hop hstuck hboth.1).1 ⟨hflag ▸ hs.flag, ?_⟩⟩
      refine hout.1 ⟨?_, hs.rest⟩
      intro ht
      exact absurd (hboth.2.symm.trans ht) Bool.false_ne_true
    · intro hs
      obtain ⟨hm, hr⟩ := (h.stalls_iff hpool hen hop hstuck hs.1).2 hs.2
      obtain ⟨ht, hrest⟩ := hout.2 hr
      refine ⟨hflag.trans hm, hrest, ?_⟩
      rw [hfreed, hs.1, Bool.false_or]
      exact Bool.eq_false_iff.2 ht

/-- **Run**: without a stall, no state of the run is stuck. -/
theorem Srv.not_stuck {tr : List (Srv σ × SrvOp σ)} (h : (srvEnvLts pool σ).Run tr s)
    (hpool : 0 ≤ pool.connectPerServer)
    (hno : ∀ q ∈ tr, q.1.info.freed = false → ¬ q.2.Stalls pool.slots q.1) :
    ¬ s.Stuck pool.slots := by
  revert hno
  refine h.history (P := fun tr s =>
    (∀ q ∈ tr, q.1.info.freed = false → ¬ q.2.Stalls pool.slots q.1) →
      ¬ s.Stuck pool.slots) ?_ ?_
  · intro s hs _ hstuck
    obtain ⟨k, e, hb, -⟩ := serverBuild_spec (σ := σ) pool.connectPerServer
    have hflag := hstuck.flag
    rw [hs, hb] at hflag
    cases hflag
  · intro tr s op s' hrun ih hstep hno hstuck
    obtain ⟨hen, rfl⟩ := hstep
    obtain ⟨U, F, W, hinv⟩ := Srv.env_inv hrun
    have hold := ih (fun q hq => hno q (List.mem_append_left _ hq))
    obtain ⟨hfreed, hst⟩ := (Srv.stuck_iff hrun hinv hpool hen hold).1 hstuck
    exact hno (s, op) (by simp) hfreed hst

/-! ## §2. The tear-downs of a pool. -/

/-- How often `pool->m_destroy_cb` is among the calls. -/
def ownerTold (calls : Calls σ) : Nat := calls.countP (fun c => c.2.isPoolDestroyed)

/-- The tear-downs counted: against `m_serverCount`, and in what the owner heard. -/
structure TellInv (n : Nat) (calls : Calls σ) (p : PoolState σ) : Prop where
  owner : ownerTold calls = if p.pool.serverCount ≤ 0 ∧ 0 < n then 1 else 0
  freed : p.pool.serverCount + (List.range n).countP (fun i => (p.pool.serverArr i).freed) ≤ n

/-- The owner hears of the tear-down that takes the count from one to zero. -/
theorem PoolState.onServer_owner (p : PoolState σ) (k : Nat) (op : SrvOp σ) :
    ownerTold (p.onServer k op).2
      = if (op.code p.pool.conf (p.pool.serverArr k)).2.any Call.isServerDestroyed = true
          ∧ p.pool.serverCount = 1 then 1 else 0 := by
  have hown : ownerTold ((op.code p.pool.conf (p.pool.serverArr k)).2.map (fun c => (k, c))) = 0 := by
    unfold ownerTold
    rw [List.countP_map]
    exact (op.code_tells p.pool.conf (p.pool.serverArr k)).owner
  unfold PoolState.onServer PoolInfo.onServer
  simp only
  by_cases htorn : (op.code p.pool.conf (p.pool.serverArr k)).2.any Call.isServerDestroyed = true
  · rw [if_pos htorn]
    by_cases hone : p.pool.serverCount = 1
    · have hz : p.pool.serverCount - 1 = 0 := by omega
      simp only [hz, if_true]
      rw [if_pos ⟨htorn, hone⟩]
      unfold ownerTold at hown ⊢
      rw [List.countP_append, hown]
      rfl
    · have hz : ¬ p.pool.serverCount - 1 = 0 := by omega
      simp only [hz, if_false]
      rw [if_neg (fun hx => hone hx.2)]
      exact hown
  · rw [if_neg htorn, if_neg (fun hx => htorn hx.1)]
    exact hown

/-- **One operation.** -/
theorem TellInv.onServer {n : Nat} {calls : Calls σ} {p : PoolState σ} (h : TellInv n calls p)
    (k : Nat) (op : SrvOp σ) : TellInv n (calls ++ (p.onServer k op).2) (p.onServer k op).1 := by
  have hcount := p.onServer_serverCount k op
  have howner := p.onServer_owner k op
  have hold := h.freed
  have hfreed : (List.range n).countP (fun i => ((p.onServer k op).1.pool.serverArr i).freed)
      ≤ (List.range n).countP (fun i => (p.pool.serverArr i).freed)
        + (if (op.code p.pool.conf (p.pool.serverArr k)).2.any Call.isServerDestroyed
          then 1 else 0) := by
    have harr : (p.onServer k op).1.pool.serverArr
        = Function.update p.pool.serverArr k (op.code p.pool.conf (p.pool.serverArr k)).1 := by
      unfold PoolState.onServer PoolInfo.onServer
      split <;> rfl
    have hf := (op.code_tells p.pool.conf (p.pool.serverArr k)).freed
    rw [op.mark_freed] at hf
    rw [harr]
    by_cases hk : k ∈ List.range n
    · have hupd := countP_update List.nodup_range hk p.pool.serverArr
        (op.code p.pool.conf (p.pool.serverArr k)).1 ServerInfo.freed
      rw [hf] at hupd
      cases h1 : (p.pool.serverArr k).freed <;>
        cases h2 : (op.code p.pool.conf (p.pool.serverArr k)).2.any Call.isServerDestroyed <;>
        simp only [h1, h2, Bool.or_self, Bool.or_true, Bool.or_false, Bool.false_eq_true, if_true,
          if_false] at hupd ⊢ <;> omega
    · rw [countP_update_of_notMem hk]
      omega
  have happ : ownerTold (calls ++ (p.onServer k op).2)
      = ownerTold calls + ownerTold (p.onServer k op).2 := List.countP_append
  refine ⟨?_, ?_⟩
  · rw [happ, h.owner, howner, hcount]
    cases htorn : (op.code p.pool.conf (p.pool.serverArr k)).2.any Call.isServerDestroyed with
    | false => simp
    | true =>
        -- the count passes zero once, and only in a pool that had a server
        simp only [true_and, if_true]
        by_cases hone : p.pool.serverCount = 1
        · have hn : 0 < n := by omega
          rw [if_neg (by omega), if_pos hone, if_pos ⟨by omega, hn⟩]
        · rw [if_neg hone, Nat.add_zero]
          by_cases hc : p.pool.serverCount ≤ 0 ∧ 0 < n
          · rw [if_pos hc, if_pos ⟨by omega, hc.2⟩]
          · rw [if_neg hc, if_neg (by omega)]
  · rw [hcount]
    cases htorn : (op.code p.pool.conf (p.pool.serverArr k)).2.any Call.isServerDestroyed with
    | false =>
        rw [htorn] at hfreed
        simp only [Bool.false_eq_true, if_false] at hfreed ⊢
        omega
    | true =>
        rw [htorn] at hfreed
        simp only [if_true] at hfreed ⊢
        omega

/-- Looking at the servers tears none down. -/
theorem TellInv.balanced {n : Nat} {calls : Calls σ} {p : PoolState σ} (h : TellInv n calls p) :
    TellInv n calls p.balanced := by
  refine ⟨?_, ?_⟩
  · show ownerTold calls = if p.pool.balanced.serverCount ≤ 0 ∧ 0 < n then 1 else 0
    rw [p.pool.balanced_serverCount, h.owner]
  · show p.pool.balanced.serverCount
      + (List.range n).countP (fun i => (p.pool.balanced.serverArr i).freed) ≤ n
    rw [p.pool.balanced_serverCount, p.pool.balanced_serverArr]
    exact h.freed

/-- **`pool_destroy`**, server after server. -/
theorem TellInv.destroy {n : Nat} (l : List Nat) :
    ∀ {calls : Calls σ} {p : PoolState σ}, TellInv n calls p →
      TellInv n (calls ++ PoolState.destroyCalls l p)
        (l.foldl (fun p i => (p.onServer i .destroy).1) p) := by
  induction l with
  | nil =>
      intro calls p h
      show TellInv n (calls ++ []) p
      rw [List.append_nil]
      exact h
  | cons i l ih =>
      intro calls p h
      have h1 := ih (h.onServer i .destroy)
      rw [List.append_assoc] at h1
      exact h1

/-- **Run.** -/
theorem TellInv.of_run {n : Nat} {N retry : Int} {tr : List (PoolState σ × PoolOp σ)}
    {p : PoolState σ} (h : (poolEnvLts σ n N retry).Run tr p) : TellInv n (runCalls tr) p := by
  refine h.history (P := fun tr p => TellInv n (runCalls tr) p) ?_ ?_
  · intro p hp
    obtain ⟨k, e, hb, -⟩ := serverBuild_spec (σ := σ) N
    have hcount : p.pool.serverCount = n := by
      rw [hp]
      rfl
    have hfreed : ∀ i, (p.pool.serverArr i).freed = false := by
      intro i
      have hsrv : p.pool.serverArr i = serverBuild N := by
        rw [hp]
        rfl
      rw [hsrv, hb]
      rfl
    refine ⟨?_, ?_⟩
    · rw [hcount, if_neg (by omega)]
      rfl
    · simp [hcount, hfreed]
  · intro tr p op p' _ ih hstep
    obtain ⟨-, rfl⟩ := hstep
    have hcalls : runCalls (tr ++ [(p, op)]) = runCalls tr ++ p.callsOf op := by
      unfold runCalls
      rw [List.flatMap_append, List.flatMap_singleton]
    rw [hcalls]
    cases op with
    | fetch y wq now balance serverid =>
        simp only [PoolState.callsOf, PoolState.exec]
        cases p.pool.pickServer balance serverid with
        | none =>
            rw [List.append_nil]
            exact ih.balanced
        | some k => exact ih.onServer k _
    | server k op => exact ih.onServer k op
    | destroy =>
        rw [p.callsOf_destroy]
        exact ih.destroy (List.range p.pool.serverCount.toNat)

/-- When every server is gone, the owner was told once, if there was a server. -/
theorem TellInv.told {n : Nat} {calls : Calls σ} {p : PoolState σ} (h : TellInv n calls p)
    (hall : ∀ i, i < n → (p.pool.serverArr i).freed = true) :
    ownerTold calls = if 0 < n then 1 else 0 := by
  have hfull : (List.range n).countP (fun i => (p.pool.serverArr i).freed) = n := by
    have hlen : (List.range n).countP (fun i => (p.pool.serverArr i).freed)
        = (List.range n).length :=
      List.countP_eq_length.2 (fun i hi => hall i (List.mem_range.1 hi))
    rw [hlen, List.length_range]
  have hle := h.freed
  have hz : p.pool.serverCount ≤ 0 := by omega
  rw [h.owner]
  simp [hz]

/-! ## §3. The pool. -/

/-- The entry runs an operation that stalls, at a server that is still there. -/
def PoolState.Stalls (N : Nat) (p : PoolState σ) (op : PoolOp σ) : Prop :=
  ∃ i sop, op.onto p i = some sop ∧ (p.srv i).info.freed = false ∧ sop.Stalls N (p.srv i)

/-- `pool_destroy` has been called for each of the servers. -/
theorem PoolState.env_destroyFlag {n : Nat} {N retry : Int} {tr : List (PoolState σ × PoolOp σ)}
    {p : PoolState σ} (h : (poolEnvLts σ n N retry).Run tr p) (hdes : ∃ q ∈ tr, q.2 = .destroy)
    {i : Nat} (hi : i < n) : (p.srv i).info.destroyFlag = true := by
  revert hdes
  refine h.history (P := fun tr p => (∃ q ∈ tr, q.2 = .destroy) →
    (p.srv i).info.destroyFlag = true) ?_ ?_
  · rintro p _ ⟨q, hq, -⟩
    cases hq
  · intro tr p op p' hrun ih hstep hdes
    obtain ⟨hen, rfl⟩ := hstep
    rw [(p.exec_srv op i).1]
    by_cases hold : ∃ q ∈ tr, q.2 = .destroy
    · -- the flag stays
      cases hon : op.onto p i with
      | none => exact ih hold
      | some sop =>
          have hflag := (sop.code_tells p.pool.conf (p.srv i).info).flags.1
          refine hflag.trans ?_
          cases sop with
          | destroy => rfl
          | _ => exact ih hold
    · -- this is `pool_destroy`, and no server has been counted off yet
      have hno : ∀ q ∈ tr, q.2 ≠ .destroy := fun q hq hqd => hold ⟨q, hq, hqd⟩
      obtain ⟨hcount, -⟩ := PoolState.env_flags hrun hno
      obtain ⟨q, hq, hqd⟩ := hdes
      rcases List.mem_append.1 hq with hq | hq
      · exact absurd hqd (hno q hq)
      · rw [List.mem_singleton.1 hq] at hqd
        have hop : op = .destroy := hqd
        subst hop
        have hon : (PoolOp.destroy : PoolOp σ).onto p i = some .destroy := by
          simp only [PoolOp.onto]
          rw [if_pos (by omega)]
        rw [hon]
        exact (SrvOp.code_tells p.pool.conf (p.srv i).info .destroy).flags.1

/-- What no step of the pool does, no step of server `i` does. -/
theorem PoolState.env_not_stuck {n : Nat} {c retry : Int} {tr : List (PoolState σ × PoolOp σ)}
    {p : PoolState σ} (h : (poolEnvLts σ n c retry).Run tr p) (hc : 0 ≤ c)
    (hno : ∀ q ∈ tr, ¬ q.1.Stalls c.toNat q.2) (i : Nat) : ¬ (p.srv i).Stuck c.toNat := by
  refine Srv.not_stuck (PoolState.env_srv h i).1 hc ?_
  intro q hq hfreed hst
  obtain ⟨q', hq', hon, hs⟩ := mem_srvTrace.1 hq
  rw [hs] at hfreed hst
  exact hno q' hq' ⟨i, q.2, hon, hfreed, hst⟩

/-- A step that stalls, the first in its run, does leave a server stuck. -/
theorem PoolState.stuck_of_stalls {n : Nat} {c retry : Int} {tr : List (PoolState σ × PoolOp σ)}
    {p : PoolState σ} (h : (poolEnvLts σ n c retry).Run tr p) (hc : 0 ≤ c)
    (hno : ∀ q ∈ tr, ¬ q.1.Stalls c.toNat q.2) {op : PoolOp σ} (hen : p.Promised op)
    (hst : p.Stalls c.toNat op) : ∃ i, i < n ∧ ((p.exec op).srv i).Stuck c.toNat := by
  obtain ⟨i, sop, hon, hfreed, hst⟩ := hst
  obtain ⟨hrun, hconf, hbuilt, hcount⟩ := PoolState.env_srv h i
  rw [← hbuilt] at hcount
  obtain ⟨hi, hsen⟩ := hen.onto hcount hon
  obtain ⟨U, F, W, hinv⟩ := Srv.env_inv hrun
  refine ⟨i, hbuilt ▸ hi, ?_⟩
  rw [(p.exec_srv op i).1, hon, hconf]
  exact (Srv.stuck_iff hrun hinv hc hsen (PoolState.env_not_stuck h hc hno i)).2 ⟨hfreed, hst⟩

/-- **The tear-down comes to its end**, in every run of a pool that has a server, does
not count its connections below zero, and takes no step that stalls or goes wrong
(in a pool of several servers the first tear-down does): the pool is in memory of
its own, once `pool_destroy` was called a server at rest has been torn down, and
when all servers are gone the owner was told, once. -/
theorem pool_drains {n : Nat} {c retry : Int} {tr : List (PoolState σ × PoolOp σ)}
    {p : PoolState σ} (h : (poolEnvLts σ n c retry).Run tr p) (hn : 0 < n) (hc : 0 ≤ c)
    (hno : ∀ q ∈ tr, ¬ q.1.Stalls c.toNat q.2 ∧ ¬ q.1.Faults q.2)
    (hdes : ∃ q ∈ tr, q.2 = .destroy) :
    p.pool.Intact n
      ∧ (∀ i, i < n → (p.srv i).AtRest c.toNat → (p.pool.serverArr i).freed = true)
      ∧ ((∀ i, i < n → (p.pool.serverArr i).freed = true) → ownerTold (runCalls tr) = 1) := by
  refine ⟨(PoolState.intact_iff h).2 (fun q hq => (hno q hq).2), ?_, ?_⟩
  · intro i hi hrest
    by_contra hfreed
    exact PoolState.env_not_stuck h hc (fun q hq => (hno q hq).1) i
      ⟨PoolState.env_destroyFlag h hdes hi, hrest, Bool.eq_false_iff.2 hfreed⟩
  · intro hall
    rw [(TellInv.of_run h).told hall, if_pos hn]

/-- A connection was released with an error and closed; then `pool_destroy` is
called. -/
def driftedDestroyOps : List (PoolOp Nat) := errorReleaseOps ++ [.destroy]

theorem driftedDestroyOps_promised :
    (PoolState.start 1 1 0 : PoolState Nat).AllPromised driftedDestroyOps := by
  refine ⟨⟨trivial, by decide, rfl⟩, ⟨trivial, by decide, rfl⟩, ?_,
    ⟨trivial, by decide, 7, List.mem_singleton_self _⟩, ⟨trivial, by decide, Or.inr rfl⟩, ?_,
    trivial⟩
  · intro i hi
    have hi0 : some 0 = some i := hi
    cases hi0
    refine ⟨by decide, rfl, ?_⟩
    intro k hk
    cases k <;> cases hk
  · intro i hi
    have hi0 : i = 0 := Nat.lt_one_iff.1 hi
    rw [hi0]
    rfl

/-- The pool is at rest, and its server is never torn down. -/
theorem pool_destroy_stuck :
    ¬ ∀ (tr : List (PoolState Nat × PoolOp Nat)) (p : PoolState Nat),
      (poolEnvLts Nat 1 1 0).Run tr p → (∃ q ∈ tr, q.2 = .destroy) →
        ∀ i, i < 1 → (p.srv i).AtRest 1 → (p.pool.serverArr i).freed = true := by
  intro hall
  have hrest : ((oneSlotPool driftedDestroyOps).srv 0).AtRest 1 := by
    refine ⟨rfl, ?_⟩
    intro j hj
    have hj0 : j = 0 := Nat.lt_one_iff.1 hj
    subst hj0
    exact ⟨rfl, (fun _ hc => by cases hc), (fun _ hc => by cases hc)⟩
  have hfreed := hall _ _ (PoolState.envRun_of_allPromised driftedDestroyOps_promised)
    ⟨(oneSlotPool errorReleaseOps, .destroy), by simp [Lts.traceAll, driftedDestroyOps,
      errorReleaseOps, oneSlotPool, Lts.execAll], rfl⟩ 0 (by decide) hrest
  cases hfreed

/-- A server with nothing outstanding is torn down at once, and the owner told. -/
theorem pool_drains_witness :
    (oneSlotPool [.destroy]).pool.Intact 1
      ∧ (∀ i, i < 1 → ((oneSlotPool [.destroy]).srv i).AtRest 1 →
        ((oneSlotPool [.destroy]).pool.serverArr i).freed = true)
      ∧ ((∀ i, i < 1 → ((oneSlotPool [.destroy]).pool.serverArr i).freed = true) →
        ownerTold (runCalls [((PoolState.start 1 1 0 : PoolState Nat), .destroy)]) = 1) := by
  have hall : (PoolState.start 1 1 0 : PoolState Nat).AllPromised [.destroy] :=
    ⟨fun _ _ => rfl, trivial⟩
  refine pool_drains (PoolState.envRun_of_allPromised hall) (by decide) (by decide) ?_
    ⟨_, List.mem_singleton_self _, rfl⟩
  intro q hq
  rw [List.mem_singleton.1 hq]
  refine ⟨?_, ?_⟩
  · rintro ⟨i, sop, hon, -, hst⟩
    simp only [PoolOp.onto] at hon
    split at hon
    · cases hon
      refine hst.2 ⟨[0], [], [], ?_, isQueue_empty _, isQueue_empty _, rfl, rfl, rfl⟩
      obtain ⟨k, e, hb, hq, -⟩ := serverBuild_spec (σ := Nat) 1
      have hsrv : ((PoolState.start 1 1 0 : PoolState Nat).srv i).info = serverBuild 1 := rfl
      rw [hsrv, hb]
      exact hq
    · cases hon
  · exact PoolState.not_faults (Nat.le_refl 1) (fun _ => rfl) _

end RedisAgent
