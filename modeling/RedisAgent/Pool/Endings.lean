/-
  RedisAgent.Pool.Endings — how an operation ends on a server that is being
  destroyed.

  Four of the operations do their own work first, which leads to some state `t`,
  and then test a condition; if it holds, `_pool_server_destroy` closes the free
  connections of `t`, or tears the server down when there are none.  `Ending`
  says this once, with the condition as a parameter, and §2 gives the condition
  and the state `t` for a failed creation and for a connection that is put back.
-/
import RedisAgent.Pool.Handles

namespace RedisAgent

open Links

variable {σ : Type*}

/-! ## §1. The common ending. -/

/-- An operation has led to `t`, `g` with the free connections `F`, and tested
`cond`: the server is torn down, or its free connections are being closed, or
nothing more happened. -/
inductive Ending (N : Nat) (cond : Prop) (t : ServerInfo σ) (g : Ghost σ) (F : List Nat)
    (s' : Srv σ) (calls : List (Call σ)) : Prop
  | torn : cond → F = [] → s' = ⟨{ t with freed := true }, g⟩ → TornBy calls →
      Ending N cond t g F s' calls
  | closing (j : Nat) (hd : Handle) : cond → F ≠ [] → j < N → s'.ghost.conn j = .destroying hd →
      ¬ TornBy calls → Ending N cond t g F s' calls
  | plain : ¬ cond → s' = ⟨t, g⟩ → ¬ TornBy calls → Ending N cond t g F s' calls

/-- **`_pool_server_destroy`** with free connections asks for the first of them to
be closed, and the plugin's answer is outstanding when it returns. -/
theorem poolServerDestroy_ending {pool : PoolConf} {d : Nat} {t : ServerInfo σ} {g : Ghost σ}
    {U F W : List Nat} (h : SrvInv pool.slots d none t g U F W) :
    (F = [] ∧ poolServerDestroy pool t = ({ t with freed := true }, [.serverDestroyed]))
      ∨ (F ≠ [] ∧ ¬ TornBy (poolServerDestroy pool t).2 ∧ ∃ j, j < pool.slots ∧ ∃ hd,
          (g.absorbAll (poolServerDestroy pool t).2).conn j = .destroying hd) := by
  cases F with
  | nil =>
      refine Or.inl ⟨rfl, ?_⟩
      unfold poolServerDestroy
      rw [poolConnectQueueGet_nil h.free]
      rfl
  | cons j F =>
      right
      obtain ⟨h2, hq, -, hfreed⟩ := poolServerDestroy_inv h
      obtain ⟨hd, hup, hjN, -, -, -, -, -, hg⟩ :=
        (h.slot j (by simp)).of_mem_free List.mem_cons_self
      refine ⟨List.cons_ne_nil j F, ?_, j, hjN, ?_⟩
      · obtain ⟨k, e, hget, -, -⟩ := poolConnectQueueGet_inv h
        unfold poolServerDestroy
        rw [hget]
        exact poolServerDestroyLoop_not_torn _ _ _
      · -- slot `j` is free no more, and nobody got it
        rcases Ghost.absorbAll_conn (poolServerDestroy pool t).2 j g with
          hsame | ⟨hd', hm, -⟩ | hdes
        · have hslot := h2.slot j (by simp)
          rw [hsame, hup, hq.given, hg] at hslot
          obtain ⟨-, -, -, ⟨hF, -⟩ | ⟨-, -, y, hy⟩⟩ := hslot
          · cases hF
          · cases hy
        · exact absurd hm ((poolServerDestroy_keeps pool t).2 hd')
        · exact hdes

/-- The test and the call after it. -/
theorem ending_of_test {pool : PoolConf} {d : Nat} {t : ServerInfo σ} {g : Ghost σ}
    {U F W : List Nat} (h : SrvInv pool.slots d none t g U F W) (cond : Prop)
    [Decidable cond] :
    Ending pool.slots cond t g F
      ⟨(if cond then poolServerDestroy pool t else (t, [])).1,
        g.absorbAll (if cond then poolServerDestroy pool t else (t, [])).2⟩
      (if cond then poolServerDestroy pool t else (t, [])).2 := by
  by_cases hc : cond
  · simp only [if_pos hc]
    rcases poolServerDestroy_ending h with ⟨hF, hr⟩ | ⟨hF, hnot, j, hj, hd, hdes⟩
    · rw [hr]
      exact .torn hc hF rfl rfl
    · exact .closing j hd hc hF hj hdes hnot
  · simp only [if_neg hc]
    exact .plain hc rfl (by simp [TornBy])

/-! ## §2. The ending of every operation. -/

/-- A call that is no tear-down, made first, changes nothing here. -/
theorem Ending.cons {N : Nat} {cond : Prop} {t : ServerInfo σ} {g : Ghost σ} {F : List Nat}
    {s' : Srv σ} {calls : List (Call σ)} (h : Ending N cond t g F s' calls) {c : Call σ}
    (hc : c.isServerDestroyed = false) : Ending N cond t g F s' (c :: calls) := by
  have hiff : TornBy (c :: calls) ↔ TornBy calls := by simp [TornBy, hc]
  cases h with
  | torn h1 h2 h3 h4 => exact .torn h1 h2 h3 (hiff.2 h4)
  | closing j hd h1 h2 h3 h4 h5 => exact .closing j hd h1 h2 h3 h4 (mt hiff.1 h5)
  | plain h1 h2 h3 => exact .plain h1 h2 (mt hiff.1 h3)

/-- The test of `_pool_put_back_connect` and `_pool_on_connect_created`. -/
def ServerInfo.ClosesNow (pool : PoolConf) (t : ServerInfo σ) : Prop :=
  t.destroyFlag = true ∧ t.freeConnectCount + t.unconnectCount = pool.connectPerServer

instance (pool : PoolConf) (t : ServerInfo σ) : Decidable (t.ClosesNow pool) :=
  inferInstanceAs (Decidable (_ ∧ _))

/-- The server once the failed creation of `hd` has returned its slot. -/
def ServerInfo.failedCreate (t : ServerInfo σ) (hd : Handle) : ServerInfo σ :=
  poolUnconnectQueuePut (t.setConn hd.poolData { t.connectArr hd.poolData with
    inUse := false, toBeDestroyed := false, handle := none }) hd.poolData

/-- A failed creation returns its slot and tests.  The handle is cleared after the
slot is queued, which the queue does not see. -/
theorem poolOnConnectCreated_fail {pool : PoolConf} (t : ServerInfo σ) (hd : Handle) {status : Int}
    (now : Timeval) (hst : status ≠ 0) :
    poolOnConnectCreated pool t hd status now
      = if (t.failedCreate hd).ClosesNow pool then poolServerDestroy pool (t.failedCreate hd)
        else (t.failedCreate hd, []) := by
  have hcomm : (poolUnconnectQueuePut (t.setConn hd.poolData
        { t.connectArr hd.poolData with inUse := false, toBeDestroyed := false })
        hd.poolData).setConn hd.poolData
        { (poolUnconnectQueuePut (t.setConn hd.poolData
          { t.connectArr hd.poolData with inUse := false, toBeDestroyed := false })
          hd.poolData).connectArr hd.poolData with handle := none }
      = t.failedCreate hd := by
    simp only [ServerInfo.failedCreate, poolUnconnectQueuePut, ServerInfo.setConn,
      Function.update_self, Function.update_idem]
  unfold poolOnConnectCreated
  rw [if_neg hst]
  simp only [hcomm]
  rfl

/-- A failed creation. -/
theorem Srv.created_fail_ending {pool : PoolConf} {d : Nat} {s : Srv σ} {U F W : List Nat}
    (h : s.Inv pool d U F W) {hd : Handle} {status : Int} {now : Timeval}
    (hen : s.Enabled (.created hd status now)) (hst : status ≠ 0) :
    SrvInv pool.slots d none (s.info.failedCreate hd)
        (SrvOp.enter s.ghost (.created hd status now)) (U ++ [hd.poolData]) F W
      ∧ Ending pool.slots ((s.info.failedCreate hd).ClosesNow pool)
        (s.info.failedCreate hd) (SrvOp.enter s.ghost (.created hd status now)) F
        (s.exec pool (.created hd status now))
        (SrvOp.code pool s.info (.created hd status now)).2 := by
  have hcr : s.ghost.conn hd.poolData = .creating hd := hen
  have hslot := h.slot hd.poolData (by simp)
  rw [hcr] at hslot
  obtain ⟨hj, -, -, hg⟩ := hslot
  have h1 := SrvInv.takeInHand h (n := s.info.connectCount) (by simp) hj
    { s.info.connectArr hd.poolData with inUse := false, toBeDestroyed := false, handle := none }
    .idle (s.ghost.given hd.poolData) (by simp [hcr])
  rw [Function.update_eq_self] at h1
  have h2 := poolUnconnectQueuePut_inv h1 (by simp) (by simp [ServerInfo.setConn])
    (by simp [ServerInfo.setConn]) hg
  have hent : SrvOp.enter s.ghost (.created hd status now)
      = { s.ghost with conn := Function.update s.ghost.conn hd.poolData .idle } := by
    simp only [SrvOp.enter, if_neg hst]
  rw [hent]
  refine ⟨h2, ?_⟩
  have hend := ending_of_test h2 ((s.info.failedCreate hd).ClosesNow pool)
  have hcode : poolOnConnectCreated pool s.info hd status now
      = if (s.info.failedCreate hd).ClosesNow pool then poolServerDestroy pool (s.info.failedCreate hd)
        else (s.info.failedCreate hd, []) := poolOnConnectCreated_fail s.info hd now hst
  have hexec : s.exec pool (.created hd status now)
      = ⟨(poolOnConnectCreated pool s.info hd status now).1,
          (SrvOp.enter s.ghost (.created hd status now)).absorbAll
            (poolOnConnectCreated pool s.info hd status now).2⟩ := rfl
  rw [hexec, hent]
  show Ending _ _ _ _ _ _ (poolOnConnectCreated pool s.info hd status now).2
  rw [hcode]
  exact hend

/-- `_pool_put_back_connect` of the slot in hand: somebody waiting gets it, or it
joins the free ones and the test is made. -/
theorem poolPutBackConnect_ending {pool : PoolConf} {d : Nat} {t : ServerInfo σ} {g : Ghost σ}
    {U F W : List Nat} {j : Nat} {hd : Handle} (now : Timeval)
    (h : SrvInv pool.slots d (some j) t g U F W)
    (hc : g.conn j = .up hd) (hh : (t.connectArr j).handle = some hd ∧ hd.poolData = j)
    (hb : (t.connectArr j).toBeDestroyed = false) (hu : (t.connectArr j).inUse = false)
    (hg : g.given j = []) :
    (W ≠ [] ∧ ((poolPutBackConnect pool t j now).1.connectArr j).inUse = true
        ∧ ¬ TornBy (poolPutBackConnect pool t j now).2)
      ∨ W = [] ∧ SrvInv pool.slots d none (poolConnectQueuePut t j) g U (F ++ [j]) []
        ∧ Ending pool.slots ((poolConnectQueuePut t j).ClosesNow pool)
          (poolConnectQueuePut t j) g (F ++ [j])
          ⟨(poolPutBackConnect pool t j now).1, g.absorbAll (poolPutBackConnect pool t j now).2⟩
          (poolPutBackConnect pool t j now).2 := by
  cases W with
  | nil =>
      have hput := poolConnectQueuePut_inv h hc hh hb hu hg
      have hend := (ending_of_test hput ((poolConnectQueuePut t j).ClosesNow pool)).cons
        (c := .argAfterConn 0) rfl
      have hcode : poolPutBackConnect pool t j now
          = ((if (poolConnectQueuePut t j).ClosesNow pool
                then poolServerDestroy pool (poolConnectQueuePut t j)
                else (poolConnectQueuePut t j, [])).1,
              .argAfterConn 0 :: (if (poolConnectQueuePut t j).ClosesNow pool
                then poolServerDestroy pool (poolConnectQueuePut t j)
                else (poolConnectQueuePut t j, [])).2) := by
        unfold poolPutBackConnect
        rw [poolWaitingQueueGet_nil h.wait]
        by_cases hn : (poolConnectQueuePut t j).ClosesNow pool
        · simp only [if_pos hn]
          exact if_pos hn
        · simp only [if_neg hn]
          exact if_neg hn
      refine Or.inr ⟨rfl, hput, ?_⟩
      rw [hcode]
      exact hend
  | cons a W =>
      obtain ⟨-, y, k, e, hy, hget, -⟩ := poolWaitingQueueGet_inv h
      refine Or.inl ⟨List.cons_ne_nil a W, ?_⟩
      unfold poolPutBackConnect
      rw [hget]
      simp [ServerInfo.setConn, TornBy, Call.isServerDestroyed]

end RedisAgent
