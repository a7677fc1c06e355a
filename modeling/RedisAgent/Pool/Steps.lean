/-
  RedisAgent.Pool.Steps — what every operation does to the invariant of a server,
  and with it the run lemma.

  One rule per operation.  Each says which queues the pointers spell afterwards
  and, through `Quiet` or `Granted`, everything a sub-request can notice: waiting
  nodes, connections handed out, callbacks.
-/
import RedisAgent.Pool.Invariant

namespace RedisAgent

open Links

variable {σ : Type*}

/-! ## §1. Putting a slot back. -/

/-- The sub-request `y` waiting in node `a` was handed the connection `hd`. -/
structure Granted (t : ServerInfo σ) (g : Ghost σ) (t' : ServerInfo σ) (g' : Ghost σ)
    (calls : List (Call σ)) (a : Nat) (hd : Handle) (y : σ) : Prop where
  sub : t.waitSub a = some y
  waitSub : t'.waitSub = Function.update t.waitSub a none
  given : g'.given = Function.update g.given hd.poolData (g.given hd.poolData ++ [(hd, y)])
  hist : g'.hist = g.hist ++ [.called y]
  callbacks : callbacks calls = [(some hd, y)]

/-- What becomes of the waiting nodes `W` when the connection `hd` is put back:
the first of them gets it, or there is none. -/
def Served (t : ServerInfo σ) (g : Ghost σ) (t' : ServerInfo σ) (g' : Ghost σ)
    (calls : List (Call σ)) (hd : Handle) (W W' : List Nat) : Prop :=
  (W = [] ∧ W' = [] ∧ Quiet t g t' g' ∧ callbacks calls = [])
    ∨ ∃ a y, W = a :: W' ∧ Granted t g t' g' calls a hd y

/-- Only the waiting fields changed, and they spell `W'`. -/
theorem SrvInv.setWait {N d : Nat} {x : Option Nat} {t : ServerInfo σ} {g : Ghost σ}
    {U F W W' : List Nat} (h : SrvInv N d x t g U F W) {k : Links Nat} {e : Ends Nat}
    {ws : Nat → Option σ} {n : Int} (hW : IsQueue k e W') (hws : ∀ a, ws a ≠ none ↔ a ∈ W')
    (hidle : W' = [] ∨ F = []) (hn : n = W'.length) :
    SrvInv N d x { t with waitLinks := k, waitingQueue := e, waitSub := ws, waitingCount := n }
      g U F W' :=
  ⟨h.unconn, h.free, hW, h.detached, h.slot, h.hand, hws, hidle, h.unconnectCount,
    h.freeConnectCount, hn, h.connectCount⟩

/-- `_pool_waiting_queue_get` takes the first waiting node. -/
theorem poolWaitingQueueGet_inv {N d : Nat} {x : Option Nat} {t : ServerInfo σ} {g : Ghost σ}
    {U F W : List Nat} {a : Nat} (h : SrvInv N d x t g U F (a :: W)) :
    F = [] ∧ ∃ y k e, t.waitSub a = some y
      ∧ poolWaitingQueueGet t
        = (some y, { t with waitLinks := k, waitingQueue := e,
                            waitSub := Function.update t.waitSub a none,
                            waitingCount := t.waitingCount - 1 })
      ∧ SrvInv N d x { t with waitLinks := k, waitingQueue := e,
                              waitSub := Function.update t.waitSub a none,
                              waitingCount := t.waitingCount - 1 } g U F W := by
  have hF : F = [] := by
    rcases h.idle with hw | hf
    · exact absurd hw (List.cons_ne_nil a W)
    · exact hf
  have haW : a ∉ W := (List.nodup_cons.1 h.wait.nodup).1
  obtain ⟨k, e, hget, hq⟩ := poolWaitingQueueGet_cons h.wait
  obtain ⟨y, hy⟩ := Option.ne_none_iff_exists'.1 ((h.waitSub a).2 List.mem_cons_self)
  refine ⟨hF, y, k, e, hy, ?_, ?_⟩
  · rw [hget, hy]
  · apply h.setWait hq
    · intro b
      by_cases hba : b = a
      · subst hba
        simp [haW]
      · simp [hba, h.waitSub b]
    · exact Or.inr hF
    · have hlen := h.waitingCount
      rw [List.length_cons] at hlen
      omega

/-- `_pool_connect_queue_put` of the slot in hand. -/
theorem poolConnectQueuePut_inv {N d : Nat} {t : ServerInfo σ} {g : Ghost σ} {U F : List Nat}
    {j : Nat} {hd : Handle} (h : SrvInv N d (some j) t g U F [])
    (hc : g.conn j = .up hd) (hh : (t.connectArr j).handle = some hd ∧ hd.poolData = j)
    (hb : (t.connectArr j).toBeDestroyed = false) (hu : (t.connectArr j).inUse = false)
    (hg : g.given j = []) :
    SrvInv N d none (poolConnectQueuePut t j) g U (F ++ [j]) [] := by
  obtain ⟨hjN, hjU, hjF⟩ := h.hand j rfl
  obtain ⟨k, e, hput, hF, hoff⟩ := poolConnectQueuePut_spec h.free hjF
  rw [hput]
  apply h.move j
  · intro i hij
    simpa using hij.symm
  · simp
  · apply h.unconn.of_sameOff hoff
    intro i hi
    have hij : i ≠ j := by
      intro he
      exact hjU (he ▸ hi)
    simp [hij, h.disjoint hi]
  · exact hF
  · intro i hij
    simp [hij]
  · intro i hij _ hiF
    exact hoff i (by simp [hij, hiF])
  · intro _ hj
    exact absurd (by simp) hj
  · intro i _
    exact ⟨rfl, rfl, rfl⟩
  · intro _
    rw [hc]
    exact ⟨⟨hjN, hjU⟩, hh, hb, Or.inl ⟨by simp, hu, hg⟩⟩
  · simp
  · exact ⟨rfl, rfl, rfl, rfl⟩
  · exact Or.inl rfl
  · exact h.unconnectCount
  · have hlen := h.freeConnectCount
    show t.freeConnectCount + 1 = _
    rw [List.length_append, List.length_singleton]
    push_cast
    omega
  · exact h.connectCount

/-- Handing the connection in hand to a sub-request. -/
theorem callback_inv {N d : Nat} {t : ServerInfo σ} {g : Ghost σ} {U F W : List Nat}
    {j : Nat} {hd : Handle} (h : SrvInv N d (some j) t g U F W) (y : σ) (now : Timeval)
    (hc : g.conn j = .up hd) (hh : (t.connectArr j).handle = some hd ∧ hd.poolData = j)
    (hb : (t.connectArr j).toBeDestroyed = false) (hg : g.given j = []) :
    SrvInv N d none (t.setConn j { t.connectArr j with timestamp := now, inUse := true })
      (g.absorb (.callback (some hd) y)) U F W := by
  obtain ⟨hjN, hjU, hjF⟩ := h.hand j rfl
  obtain ⟨hh, rfl⟩ := hh
  apply h.move hd.poolData
  · intro i hij
    simpa using hij.symm
  · simp
  · exact h.unconn
  · exact h.free
  · intro i _
    exact ⟨Iff.rfl, Iff.rfl⟩
  · intro i _ _ _
    exact ⟨rfl, rfl⟩
  · exact h.detached _
  · intro i hij
    simp [Ghost.absorb, ServerInfo.setConn, hij]
  · intro _
    simp only [Ghost.absorb, ServerInfo.setConn, Function.update_self, hc, hg, List.nil_append]
    exact ⟨⟨hjN, hjU⟩, ⟨hh, rfl⟩, hb, Or.inr ⟨hjF, rfl, y, rfl⟩⟩
  · simp
  · exact ⟨rfl, rfl, rfl, rfl⟩
  · exact h.idle
  · exact h.unconnectCount
  · exact h.freeConnectCount
  · exact h.connectCount

/-- `_pool_put_back_connect` of the slot in hand: the first waiting sub-request
gets the connection, else it joins the free ones. -/
theorem poolPutBackConnect_inv {pool : PoolConf} {d : Nat} {t : ServerInfo σ} {g : Ghost σ}
    {U F W : List Nat} {j : Nat} {hd : Handle} (now : Timeval)
    (h : SrvInv pool.slots d (some j) t g U F W)
    (hc : g.conn j = .up hd) (hh : (t.connectArr j).handle = some hd ∧ hd.poolData = j)
    (hb : (t.connectArr j).toBeDestroyed = false) (hu : (t.connectArr j).inUse = false)
    (hg : g.given j = []) :
    ∃ F' W', SrvInv pool.slots d none (poolPutBackConnect pool t j now).1
        (g.absorbAll (poolPutBackConnect pool t j now).2) U F' W'
      ∧ Served t g (poolPutBackConnect pool t j now).1
        (g.absorbAll (poolPutBackConnect pool t j now).2)
        (poolPutBackConnect pool t j now).2 hd W W' := by
  cases W with
  | nil =>
      have hput := poolConnectQueuePut_inv h hc hh hb hu hg
      have hq : Quiet t g (poolConnectQueuePut t j) g := ⟨rfl, rfl, rfl⟩
      unfold poolPutBackConnect
      rw [poolWaitingQueueGet_nil h.wait]
      by_cases hdes : (poolConnectQueuePut t j).destroyFlag
          ∧ (poolConnectQueuePut t j).freeConnectCount + (poolConnectQueuePut t j).unconnectCount
            = pool.connectPerServer
      · obtain ⟨h1, hq1, hc1, -⟩ := poolServerDestroy_inv hput
        simp only [if_pos hdes]
        exact ⟨_, _, h1, Or.inl ⟨rfl, rfl, hq.trans hq1, hc1⟩⟩
      · simp only [if_neg hdes]
        exact ⟨_, _, hput, Or.inl ⟨rfl, rfl, hq, rfl⟩⟩
  | cons a W =>
      obtain ⟨-, y, k, e, hy, hget, h1⟩ := poolWaitingQueueGet_inv h
      have h2 := callback_inv h1 y now hc hh hb hg
      obtain ⟨hh, rfl⟩ := hh
      have hput : poolPutBackConnect pool t hd.poolData now
          = (({ t with waitLinks := k, waitingQueue := e,
                       waitSub := Function.update t.waitSub a none,
                       waitingCount := t.waitingCount - 1 }).setConn hd.poolData
              { t.connectArr hd.poolData with timestamp := now, inUse := true },
            [.argAfterConn 0, .callback (some hd) y]) := by
        unfold poolPutBackConnect
        rw [hget, ← hh]
      rw [hput]
      exact ⟨_, _, h2, Or.inr ⟨a, y, rfl, hy, rfl, rfl, rfl, rfl⟩⟩

/-! ## §2. One rule per operation. -/

/-- `_pool_add_req_into_waitingqueue` with a fresh node, when no connection is
free. -/
theorem poolAddReqIntoWaitingqueue_inv {N d : Nat} {t : ServerInfo σ} {g : Ghost σ}
    {U W : List Nat} {wq : Nat} (h : SrvInv N d none t g U [] W) (y : σ)
    (hwq : t.waitSub wq = none) :
    SrvInv N d none (poolAddReqIntoWaitingqueue t y wq) g U [] (W ++ [wq])
      ∧ (poolAddReqIntoWaitingqueue t y wq).waitSub = Function.update t.waitSub wq (some y) := by
  have haW : wq ∉ W := by
    intro hm
    exact (h.waitSub wq).2 hm hwq
  have hclear : IsQueue (t.waitLinks.clear wq) t.waitingQueue W := by
    apply h.wait.of_sameOff (clear_sameOff t.waitLinks (List.mem_singleton_self wq))
    intro b hb hbw
    rw [List.mem_singleton] at hbw
    exact haW (hbw ▸ hb)
  obtain ⟨k, e, hput, hq⟩ := poolWaitingQueuePut_spec
    (s := { t with waitSub := Function.update t.waitSub wq (some y),
                   waitLinks := t.waitLinks.clear wq }) hclear haW
  unfold poolAddReqIntoWaitingqueue
  rw [hput]
  refine ⟨?_, rfl⟩
  apply h.setWait hq
  · intro b
    by_cases hb : b = wq
    · subst hb
      simp
    · simp [hb, h.waitSub b]
  · exact Or.inr rfl
  · have hlen := h.waitingCount
    show t.waitingCount + 1 = _
    rw [List.length_append, List.length_singleton]
    push_cast
    omega

/-- **`pool_fetch_connect` at a server.**  A free connection is handed over on
the spot, and then nobody was waiting; else the sub-request queues up last. -/
theorem serverFetchConnect_inv {pool : PoolConf} {d : Nat} {t : ServerInfo σ} {g : Ghost σ}
    {U F W : List Nat} (h : SrvInv pool.slots d none t g U F W) (y : σ) {wq : Nat}
    (now : Timeval) (hwq : t.waitSub wq = none) :
    ∃ U' F' W', SrvInv pool.slots d none (serverFetchConnect pool t y wq now).2.1
        (g.absorbAll (serverFetchConnect pool t y wq now).2.2) U' F' W'
      ∧ (((serverFetchConnect pool t y wq now).1 = none ∧ W = [] ∧ W' = []
          ∧ (serverFetchConnect pool t y wq now).2.1.waitSub = t.waitSub
          ∧ ∃ hd, g.given hd.poolData = []
            ∧ (g.absorbAll (serverFetchConnect pool t y wq now).2.2).given
              = Function.update g.given hd.poolData [(hd, y)]
            ∧ (g.absorbAll (serverFetchConnect pool t y wq now).2.2).hist = g.hist ++ [.called y]
            ∧ callbacks (serverFetchConnect pool t y wq now).2.2 = [(some hd, y)])
        ∨ ((serverFetchConnect pool t y wq now).1 = some wq ∧ W' = W ++ [wq]
          ∧ (serverFetchConnect pool t y wq now).2.1.waitSub = Function.update t.waitSub wq (some y)
          ∧ (g.absorbAll (serverFetchConnect pool t y wq now).2.2).given = g.given
          ∧ (g.absorbAll (serverFetchConnect pool t y wq now).2.2).hist = g.hist
          ∧ callbacks (serverFetchConnect pool t y wq now).2.2 = [])) := by
  cases F with
  | nil =>
      have hhead : t.connectQueue.head = none := h.free.head
      have hf : serverFetchConnect pool t y wq now
          = (some wq, poolAddReqIntoWaitingqueue
              (if t.connectCount < pool.connectPerServer then poolCreateNewConnect t
                else (t, [])).1 y wq,
              (if t.connectCount < pool.connectPerServer then poolCreateNewConnect t
                else (t, [])).2) := by
        unfold serverFetchConnect
        rw [if_neg (by simp [hhead])]
      by_cases hlt : t.connectCount < pool.connectPerServer
      · rw [if_pos hlt] at hf
        rw [hf]
        obtain ⟨h1, hq, hc, -⟩ := poolCreateNewConnect_inv h
        have hwq' : (poolCreateNewConnect t).1.waitSub wq = none := by
          rw [hq.waitSub]
          exact hwq
        obtain ⟨h2, hw⟩ := poolAddReqIntoWaitingqueue_inv h1 y hwq'
        refine ⟨_, _, _, h2, Or.inr ⟨rfl, rfl, ?_, hq.given, hq.hist, hc⟩⟩
        rw [hw, hq.waitSub]
      · rw [if_neg hlt] at hf
        rw [hf]
        obtain ⟨h2, hw⟩ := poolAddReqIntoWaitingqueue_inv h y hwq
        exact ⟨_, _, _, h2, Or.inr ⟨rfl, rfl, hw, rfl, rfl, rfl⟩⟩
  | cons j F =>
      have hhead : t.connectQueue.head = some j := h.free.head
      have hW : W = [] := by
        rcases h.idle with hw | hf
        · exact hw
        · exact absurd hf (List.cons_ne_nil j F)
      obtain ⟨k, e, hget, h1, hslot⟩ := poolConnectQueueGet_inv h
      obtain ⟨hd, hup, hjN, hjU, hh, hp, hb, hu, hg⟩ := hslot.of_mem_free List.mem_cons_self
      have h2 := callback_inv h1 y now hup ⟨hh, hp⟩ hb hg
      subst hp
      have hf : serverFetchConnect pool t y wq now
          = (none, ({ t with node := k, connectQueue := e,
                             freeConnectCount := t.freeConnectCount - 1 }).setConn hd.poolData
                { t.connectArr hd.poolData with timestamp := now, inUse := true },
              [.callback (some hd) y]) := by
        unfold serverFetchConnect poolFetchConnectFromConnectqueue
        rw [if_pos (by simp [hhead]), hget, ← hh]
      rw [hf]
      refine ⟨_, _, _, h2, Or.inl ⟨rfl, hW, hW, rfl, hd, hg, ?_, rfl, rfl⟩⟩
      show Function.update g.given hd.poolData (g.given hd.poolData ++ [(hd, y)]) = _
      rw [hg, List.nil_append]

/-- A slot some sub-request holds: established, or reported lost. -/
theorem SlotOk.of_given {N : Nat} {U F : List Nat} {j : Nat} {c : Conn} {ci : ConnectInfo}
    {given : List (Handle × σ)} (h : SlotOk N U F j c ci given) {hd : Handle} {y : σ}
    (hy : (hd, y) ∈ given) :
    (j < N ∧ j ∉ U ∧ j ∉ F) ∧ (ci.handle = some hd ∧ hd.poolData = j) ∧ ci.inUse = true
      ∧ given = [(hd, y)]
      ∧ ((c = .up hd ∧ ci.toBeDestroyed = false) ∨ (c = .lost hd ∧ ci.toBeDestroyed = true)) := by
  cases c with
  | idle => rw [h.2.2.2.2] at hy; cases hy
  | creating h' => rw [h.2.2.2] at hy; cases hy
  | destroying h' => rw [h.2.2.2] at hy; cases hy
  | up h' =>
      obtain ⟨⟨hN, hU⟩, hh, hb, hcase⟩ := h
      rcases hcase with ⟨_, _, hg⟩ | ⟨hF, hu, z, hg⟩
      · rw [hg] at hy; cases hy
      · rw [hg, List.mem_singleton, Prod.mk.injEq] at hy
        obtain ⟨rfl, rfl⟩ := hy
        exact ⟨⟨hN, hU, hF⟩, hh, hu, hg, Or.inl ⟨rfl, hb⟩⟩
  | lost h' =>
      obtain ⟨hNUF, hh, hb, hu, z, hg⟩ := h
      rw [hg, List.mem_singleton, Prod.mk.injEq] at hy
      obtain ⟨rfl, rfl⟩ := hy
      exact ⟨hNUF, hh, hu, hg, Or.inr ⟨rfl, hb⟩⟩

/-- Taking slot `j` in hand: its record, its history and the plugin's view of it
may change, its place in the queues may not. -/
theorem SrvInv.takeInHand {N d : Nat} {x : Option Nat} {t : ServerInfo σ} {g : Ghost σ}
    {U F W : List Nat} {j : Nat} (h : SrvInv N d x t g U F W)
    (hx : ∀ i, i ≠ j → x ≠ some i) (hj : j < N ∧ j ∉ U ∧ j ∉ F) (ci : ConnectInfo)
    (c : Conn) (gv : List (Handle × σ)) {n : Int}
    (hn : n + (if (g.conn j).connected then 1 else 0)
      = t.connectCount + (if c.connected then 1 else 0)) :
    SrvInv N d (some j) { t.setConn j ci with connectCount := n }
      { g with conn := Function.update g.conn j c, given := Function.update g.given j gv }
      U F W := by
  apply h.move j
  · exact hx
  · intro i hij
    simpa using hij.symm
  · exact h.unconn
  · exact h.free
  · intro i _
    exact ⟨Iff.rfl, Iff.rfl⟩
  · intro i _ _ _
    exact ⟨rfl, rfl⟩
  · exact h.detached j
  · intro i hij
    simp [ServerInfo.setConn, hij]
  · intro hne
    exact absurd rfl hne
  · intro _
    exact hj
  · exact ⟨rfl, rfl, rfl, rfl⟩
  · exact h.idle
  · exact h.unconnectCount
  · exact h.freeConnectCount
  · have hcount := countP_range_update N g.conn j c hj.1
    have hold := h.connectCount
    show n = ((List.range N).countP (fun i => (Function.update g.conn j c i).connected) : Nat)
    cases h1 : (g.conn j).connected <;> cases h2 : c.connected <;>
      simp only [h1, h2, if_true, if_false, Bool.false_eq_true] at hn hcount <;> omega

/-- The slot in hand stays out of both queues. -/
theorem SrvInv.drop {N d : Nat} {t : ServerInfo σ} {g : Ghost σ} {U F W : List Nat} {j : Nat}
    (h : SrvInv N d (some j) t g U F W)
    (hj : SlotOk N U F j (g.conn j) (t.connectArr j) (g.given j)) :
    SrvInv N d none t g U F W := by
  refine ⟨h.unconn, h.free, h.wait, h.detached, ?_, by simp, h.waitSub, h.idle,
    h.unconnectCount, h.freeConnectCount, h.waitingCount, h.connectCount⟩
  intro i _
  by_cases hij : j = i
  · subst hij
    exact hj
  · exact h.slot i (by simpa using hij)

/-- The three flags of a server are not part of the invariant. -/
theorem SrvInv.setFlags {N d : Nat} {x : Option Nat} {t : ServerInfo σ} {g : Ghost σ}
    {U F W : List Nat} (h : SrvInv N d x t g U F W) (df me fr : Bool) :
    SrvInv N d x { t with destroyFlag := df, monitorEvent := me, freed := fr } g U F W :=
  ⟨h.unconn, h.free, h.wait, h.detached, h.slot, h.hand, h.waitSub, h.idle, h.unconnectCount,
    h.freeConnectCount, h.waitingCount, h.connectCount⟩

/-- `_pool_unconnect_queue_put` of the slot in hand. -/
theorem poolUnconnectQueuePut_inv {N d : Nat} {t : ServerInfo σ} {g : Ghost σ}
    {U F W : List Nat} {j : Nat} (h : SrvInv N d (some j) t g U F W)
    (hc : g.conn j = .idle) (hh : (t.connectArr j).handle = none)
    (hu : (t.connectArr j).inUse = false) (hg : g.given j = []) :
    SrvInv N d none (poolUnconnectQueuePut t j) g (U ++ [j]) F W := by
  obtain ⟨hjN, hjU, hjF⟩ := h.hand j rfl
  obtain ⟨k, e, hput, hU, hoff⟩ := poolUnconnectQueuePut_spec h.unconn hjU
  rw [hput]
  apply h.move j
  · intro i hij
    simpa using hij.symm
  · simp
  · exact hU
  · apply h.free.of_sameOff hoff
    intro i hi hiU
    rcases List.mem_append.1 hiU with hm | hm
    · exact h.disjoint hm hi
    · exact hjF (List.mem_singleton.1 hm ▸ hi)
  · intro i hij
    simp [hij]
  · intro i hij hiU _
    exact hoff i (by simp [hij, hiU])
  · intro hj _
    exact absurd (by simp) hj
  · intro i _
    exact ⟨rfl, rfl, rfl⟩
  · intro _
    rw [hc]
    exact ⟨by simp [hjN], hjF, hh, hu, hg⟩
  · simp
  · exact ⟨rfl, rfl, rfl, rfl⟩
  · exact h.idle
  · have hlen := h.unconnectCount
    show t.unconnectCount + 1 = _
    rw [List.length_append, List.length_singleton]
    push_cast
    omega
  · exact h.freeConnectCount
  · exact h.connectCount

/-- `_pool_connect_queue_rm` of a free connection takes it in hand. -/
theorem poolConnectQueueRm_inv_mem {N d : Nat} {t : ServerInfo σ} {g : Ghost σ}
    {U F W : List Nat} {j : Nat} (h : SrvInv N d none t g U F W) (hj : j ∈ F) :
    SrvInv N d (some j) (poolConnectQueueRm t j) g U (F.erase j) W := by
  obtain ⟨hd, hup, hjN, hjU, -⟩ := (h.slot j (by simp)).of_mem_free hj
  obtain ⟨k, e, hrm, hF, hoff, hn, hp⟩ := poolConnectQueueRm_mem h.free hj
  rw [hrm]
  apply h.move j
  · simp
  · intro i hij
    simpa using hij.symm
  · exact h.unconn.of_sameOff hoff (fun i hi => h.disjoint hi)
  · exact hF
  · intro i hij
    exact ⟨Iff.rfl, List.mem_erase_of_ne hij⟩
  · intro i _ _ hiF
    exact hoff i hiF
  · intro _ _
    exact ⟨hn, hp⟩
  · intro i _
    exact ⟨rfl, rfl, rfl⟩
  · intro hne
    exact absurd rfl hne
  · intro _
    exact ⟨hjN, hjU, h.free.nodup.not_mem_erase⟩
  · exact ⟨rfl, rfl, rfl, rfl⟩
  · rcases h.idle with hw | hf
    · exact Or.inl hw
    · rw [hf] at hj
      cases hj
  · exact h.unconnectCount
  · have hlen := h.freeConnectCount
    have hpos := List.length_pos_of_mem hj
    show t.freeConnectCount - 1 = _
    rw [List.length_erase_of_mem hj]
    omega
  · exact h.connectCount

/-- `_pool_connect_queue_rm` of a slot in no queue: the drift grows. -/
theorem poolConnectQueueRm_inv_out {N d : Nat} {t : ServerInfo σ} {g : Ghost σ}
    {U F W : List Nat} {j : Nat} (h : SrvInv N d none t g U F W)
    (hj : j < N ∧ j ∉ U ∧ j ∉ F) :
    SrvInv N (d + 1) (some j) (poolConnectQueueRm t j) g U F W := by
  obtain ⟨hjN, hjU, hjF⟩ := hj
  obtain ⟨h1, h2⟩ := h.detached j hjU hjF
  obtain ⟨k, hrm, hoff, hn, hp⟩ := poolConnectQueueRm_detached h.free hjF h1 h2
  rw [hrm]
  apply h.move j
  · simp
  · intro i hij
    simpa using hij.symm
  · apply h.unconn.of_sameOff hoff
    intro i hi hij
    exact hjU (List.mem_singleton.1 hij ▸ hi)
  · apply h.free.of_sameOff hoff
    intro i hi hij
    exact hjF (List.mem_singleton.1 hij ▸ hi)
  · intro i _
    exact ⟨Iff.rfl, Iff.rfl⟩
  · intro i hij _ _
    exact hoff i (by simpa using hij)
  · intro _ _
    exact ⟨hn, hp⟩
  · intro i _
    exact ⟨rfl, rfl, rfl⟩
  · intro hne
    exact absurd rfl hne
  · intro _
    exact ⟨hjN, hjU, hjF⟩
  · exact ⟨rfl, rfl, rfl, rfl⟩
  · exact h.idle
  · exact h.unconnectCount
  · have hlen := h.freeConnectCount
    show t.freeConnectCount - 1 = _
    push_cast
    omega
  · exact h.connectCount

/-- **`pool_release_connect`.**  The holder's entry is cleared; then the
connection is put back, or the plugin is asked to close it. -/
theorem poolReleaseConnect_inv {pool : PoolConf} {d : Nat} {t : ServerInfo σ} {g : Ghost σ}
    {U F W : List Nat} (h : SrvInv pool.slots d none t g U F W) {hd : Handle}
    (errclose : Bool) (now : Timeval) (hheld : ∃ y, (hd, y) ∈ g.given hd.poolData) :
    ∃ F' W', SrvInv pool.slots d none (poolReleaseConnect pool t hd errclose now).1
        ((SrvOp.enter g (.release hd errclose now)).absorbAll
          (poolReleaseConnect pool t hd errclose now).2) U F' W'
      ∧ ((W' = W ∧ Quiet t (SrvOp.enter g (.release hd errclose now))
            (poolReleaseConnect pool t hd errclose now).1
            ((SrvOp.enter g (.release hd errclose now)).absorbAll
              (poolReleaseConnect pool t hd errclose now).2)
            ∧ callbacks (poolReleaseConnect pool t hd errclose now).2 = [])
        ∨ Served t (SrvOp.enter g (.release hd errclose now))
            (poolReleaseConnect pool t hd errclose now).1
            ((SrvOp.enter g (.release hd errclose now)).absorbAll
              (poolReleaseConnect pool t hd errclose now).2)
            (poolReleaseConnect pool t hd errclose now).2 hd W W') := by
  obtain ⟨y, hy⟩ := hheld
  obtain ⟨hj, ⟨hh, -⟩, hu, hg, hc⟩ := (h.slot hd.poolData (by simp)).of_given hy
  have h1 := h.takeInHand (by simp) hj { t.connectArr hd.poolData with inUse := false }
    (g.conn hd.poolData) [] rfl
  rw [Function.update_eq_self] at h1
  unfold poolReleaseConnect
  simp only [ServerInfo.setConn, Function.update_self]
  by_cases hput : errclose = false ∧ ¬ (t.connectArr hd.poolData).toBeDestroyed = true
  · rw [if_pos hput]
    rcases hc with ⟨hup, hb⟩ | ⟨-, hb⟩
    · obtain ⟨F', W', h2, hs⟩ := poolPutBackConnect_inv now h1 hup
        (by simp [ServerInfo.setConn, hh]) (by simp [ServerInfo.setConn, hb])
        (by simp [ServerInfo.setConn]) (by simp)
      refine ⟨F', W', h2, Or.inr ?_⟩
      rcases hs with ⟨hW, hW', hq, hcb⟩ | ⟨a, z, hW, hgr⟩
      · exact Or.inl ⟨hW, hW', ⟨hq.waitSub, hq.given, hq.hist⟩, hcb⟩
      · exact Or.inr ⟨a, z, hW, hgr.sub, hgr.waitSub, hgr.given, hgr.hist, hgr.callbacks⟩
    · exact absurd hb hput.2
  · rw [if_neg hput]
    have hcon : (g.conn hd.poolData).connected = true := by
      rcases hc with ⟨he, -⟩ | ⟨he, -⟩ <;> rw [he] <;> rfl
    have h2 := destroyCb_inv h1 hcon (by simp [ServerInfo.setConn, hh]) rfl
      (by simp [ServerInfo.setConn]) (by simp)
    simp only [ServerInfo.setConn, Function.update_self] at h2
    refine ⟨F, W, h2, Or.inl ⟨rfl, ?_, rfl⟩⟩
    rw [hh]
    exact ⟨rfl, rfl, rfl⟩

/-- **`_pool_on_connect_created`.**  A new connection is put back like a released
one; a failed creation returns the slot to the unconnected ones. -/
theorem poolOnConnectCreated_inv {pool : PoolConf} {d : Nat} {t : ServerInfo σ} {g : Ghost σ}
    {U F W : List Nat} (h : SrvInv pool.slots d none t g U F W) {hd : Handle}
    (status : Int) (now : Timeval) (hcr : g.conn hd.poolData = .creating hd) :
    ∃ U' F' W', SrvInv pool.slots d none (poolOnConnectCreated pool t hd status now).1
        ((SrvOp.enter g (.created hd status now)).absorbAll
          (poolOnConnectCreated pool t hd status now).2) U' F' W'
      ∧ g.given hd.poolData = []
      ∧ ((status ≠ 0 ∧ W' = W ∧ Quiet t (SrvOp.enter g (.created hd status now))
            (poolOnConnectCreated pool t hd status now).1
            ((SrvOp.enter g (.created hd status now)).absorbAll
              (poolOnConnectCreated pool t hd status now).2)
            ∧ callbacks (poolOnConnectCreated pool t hd status now).2 = [])
        ∨ (status = 0 ∧ Served t (SrvOp.enter g (.created hd status now))
            (poolOnConnectCreated pool t hd status now).1
            ((SrvOp.enter g (.created hd status now)).absorbAll
              (poolOnConnectCreated pool t hd status now).2)
            (poolOnConnectCreated pool t hd status now).2 hd W W')) := by
  have hslot := h.slot hd.poolData (by simp)
  rw [hcr] at hslot
  obtain ⟨hj, ⟨hh, -⟩, hu, hg⟩ := hslot
  unfold poolOnConnectCreated
  by_cases hst : status = 0
  · have h1 := h.takeInHand (n := t.connectCount + 1) (by simp) hj
      { t.connectArr hd.poolData with inUse := false, toBeDestroyed := false } (.up hd)
      (g.given hd.poolData) (by simp [hcr])
    rw [Function.update_eq_self] at h1
    obtain ⟨F', W', h2, hs⟩ := poolPutBackConnect_inv now h1 (Function.update_self ..)
      (by simp [ServerInfo.setConn, hh]) (by simp [ServerInfo.setConn])
      (by simp [ServerInfo.setConn]) hg
    have hent : SrvOp.enter g (.created hd status now)
        = { g with conn := Function.update g.conn hd.poolData (.up hd) } := by
      show { g with conn := Function.update g.conn hd.poolData (if status = 0 then .up hd else .idle) }
        = _
      rw [if_pos hst]
    rw [if_pos hst, hent]
    refine ⟨U, F', W', h2, hg, Or.inr ⟨hst, ?_⟩⟩
    rcases hs with ⟨hW, hW', hq, hcb⟩ | ⟨a, z, hW, hgr⟩
    · exact Or.inl ⟨hW, hW', ⟨hq.waitSub, hq.given, hq.hist⟩, hcb⟩
    · exact Or.inr ⟨a, z, hW, hgr.sub, hgr.waitSub, hgr.given, hgr.hist, hgr.callbacks⟩
  · have h1 := h.takeInHand (n := t.connectCount) (by simp) hj
      { t.connectArr hd.poolData with inUse := false, toBeDestroyed := false, handle := none }
      .idle (g.given hd.poolData) (by simp [hcr])
    rw [Function.update_eq_self] at h1
    have h2 := poolUnconnectQueuePut_inv h1 (by simp) (by simp [ServerInfo.setConn])
      (by simp [ServerInfo.setConn]) hg
    -- the handle is cleared after the slot is queued, which the queue does not see
    have hcomm : (poolUnconnectQueuePut (t.setConn hd.poolData
          { t.connectArr hd.poolData with inUse := false, toBeDestroyed := false })
          hd.poolData).setConn hd.poolData
          { (poolUnconnectQueuePut (t.setConn hd.poolData
            { t.connectArr hd.poolData with inUse := false, toBeDestroyed := false })
            hd.poolData).connectArr hd.poolData with handle := none }
        = poolUnconnectQueuePut (t.setConn hd.poolData { t.connectArr hd.poolData with
            inUse := false, toBeDestroyed := false, handle := none }) hd.poolData := by
      simp only [poolUnconnectQueuePut, ServerInfo.setConn, Function.update_self,
        Function.update_idem]
    have hent : SrvOp.enter g (.created hd status now)
        = { g with conn := Function.update g.conn hd.poolData .idle } := by
      show { g with conn := Function.update g.conn hd.poolData (if status = 0 then .up hd else .idle) }
        = _
      rw [if_neg hst]
    rw [if_neg hst, hent]
    simp only [hcomm]
    by_cases hdes : (poolUnconnectQueuePut (t.setConn hd.poolData { t.connectArr hd.poolData with
            inUse := false, toBeDestroyed := false, handle := none }) hd.poolData).destroyFlag = true
        ∧ (poolUnconnectQueuePut (t.setConn hd.poolData { t.connectArr hd.poolData with
            inUse := false, toBeDestroyed := false, handle := none }) hd.poolData).freeConnectCount
          + (poolUnconnectQueuePut (t.setConn hd.poolData { t.connectArr hd.poolData with
            inUse := false, toBeDestroyed := false, handle := none }) hd.poolData).unconnectCount
          = pool.connectPerServer
    · obtain ⟨h3, hq, hcb, -⟩ := poolServerDestroy_inv h2
      rw [if_pos hdes]
      exact ⟨_, _, W, h3, hg, Or.inl ⟨hst, rfl, ⟨hq.waitSub, hq.given, hq.hist⟩, hcb⟩⟩
    · rw [if_neg hdes]
      exact ⟨_, _, W, h2, hg, Or.inl ⟨hst, rfl, ⟨rfl, rfl, rfl⟩, rfl⟩⟩

/-- The second half of `_pool_on_connect_destroyed`: the slot in hand becomes
unconnected. -/
theorem SrvInv.unconnect {N d : Nat} {t : ServerInfo σ} {g : Ghost σ} {U F W : List Nat}
    {j : Nat} (h : SrvInv N d (some j) t g U F W) (ci : ConnectInfo)
    (hc : (g.conn j).connected = true) (hh : ci.handle = none) (hu : ci.inUse = false)
    (hg : g.given j = []) :
    SrvInv N d none
      { poolUnconnectQueuePut (t.setConn j ci) j with connectCount := t.connectCount - 1 }
      { g with conn := Function.update g.conn j .idle } (U ++ [j]) F W := by
  have h1 := h.takeInHand (n := t.connectCount - 1) (fun i hij => by simpa using hij.symm)
    (h.hand j rfl) ci .idle (g.given j) (by simp [hc])
  rw [Function.update_eq_self] at h1
  exact poolUnconnectQueuePut_inv h1 (by simp) (by simp [ServerInfo.setConn, hh])
    (by simp [ServerInfo.setConn, hu]) hg

/-- How often an operation counts off a node that is in no queue. -/
def SrvOp.drift (g : Ghost σ) : SrvOp σ → Nat
  | .destroyed h => if g.conn h.poolData = .destroying h then 1 else 0
  | _ => 0

/-- `_pool_on_connect_destroyed` of a slot nobody holds, once `_pool_connect_queue_rm`
has it in hand. -/
theorem poolOnConnectDestroyed_inv_of_hand {N d : Nat} {t : ServerInfo σ} {g : Ghost σ}
    {U F W : List Nat} {hd : Handle} (hu : (t.connectArr hd.poolData).inUse = false)
    (h : SrvInv N d (some hd.poolData) (poolConnectQueueRm t hd.poolData) g U F W)
    (hc : (g.conn hd.poolData).connected = true) (hg : g.given hd.poolData = [])
    (hent : SrvOp.enter g (.destroyed hd)
      = { g with conn := Function.update g.conn hd.poolData .idle }) :
    SrvInv N d none (poolOnConnectDestroyed t hd).1
        ((SrvOp.enter g (.destroyed hd)).absorbAll (poolOnConnectDestroyed t hd).2)
        (U ++ [hd.poolData]) F W
      ∧ Quiet t g (poolOnConnectDestroyed t hd).1
        ((SrvOp.enter g (.destroyed hd)).absorbAll (poolOnConnectDestroyed t hd).2)
      ∧ callbacks (poolOnConnectDestroyed t hd).2 = [] := by
  have h1 := h.unconnect { t.connectArr hd.poolData with handle := none } hc rfl hu hg
  have h2 := h1.setFlags t.destroyFlag t.monitorEvent true
  unfold poolOnConnectDestroyed
  rw [if_neg (by simp [hu]), hent]
  have hrm : (if (t.connectArr hd.poolData).inUse then t else poolConnectQueueRm t hd.poolData)
      = poolConnectQueueRm t hd.poolData := if_neg (by simp [hu])
  simp only [hrm]
  split
  · exact ⟨h2, ⟨rfl, rfl, rfl⟩, rfl⟩
  · exact ⟨h1, ⟨rfl, rfl, rfl⟩, rfl⟩

/-- **`_pool_on_connect_destroyed`.**  A connection in use is only marked; a free
one leaves its queue; one that was being closed is in no queue, and the counter
of free connections goes down all the same. -/
theorem poolOnConnectDestroyed_inv {N d : Nat} {t : ServerInfo σ} {g : Ghost σ}
    {U F W : List Nat} (h : SrvInv N d none t g U F W) {hd : Handle}
    (hen : g.conn hd.poolData = .up hd ∨ g.conn hd.poolData = .destroying hd) :
    ∃ U' F', SrvInv N (d + SrvOp.drift g (.destroyed hd)) none (poolOnConnectDestroyed t hd).1
        ((SrvOp.enter g (.destroyed hd)).absorbAll (poolOnConnectDestroyed t hd).2) U' F' W
      ∧ Quiet t g (poolOnConnectDestroyed t hd).1
        ((SrvOp.enter g (.destroyed hd)).absorbAll (poolOnConnectDestroyed t hd).2)
      ∧ callbacks (poolOnConnectDestroyed t hd).2 = [] := by
  have hslot := h.slot hd.poolData (by simp)
  have hent : SrvOp.enter g (.destroyed hd)
      = { g with
          conn := Function.update g.conn hd.poolData
            (if g.conn hd.poolData = .up hd ∧ g.given hd.poolData ≠ [] then .lost hd else .idle) } :=
    rfl
  rcases hen with hup | hde
  · have hdrift : SrvOp.drift g (.destroyed hd) = 0 := by
      show (if g.conn hd.poolData = .destroying hd then 1 else 0) = 0
      rw [hup, if_neg (by simp)]
    rw [hdrift]
    rw [hup] at hslot
    obtain ⟨⟨hN, hU⟩, ⟨hh, -⟩, hb, ⟨hF, hu, hg⟩ | ⟨hF, hu, y, hg⟩⟩ := hslot
    · -- free: it leaves the queue
      rw [if_neg (by simp [hg])] at hent
      exact ⟨_, _, poolOnConnectDestroyed_inv_of_hand hu (poolConnectQueueRm_inv_mem h hF)
        (by rw [hup]; rfl) hg hent⟩
    · -- in use: it is marked and stays where it is
      rw [if_pos ⟨hup, by simp [hg]⟩] at hent
      have h1 := h.takeInHand (n := t.connectCount) (by simp) ⟨hN, hU, hF⟩
        { t.connectArr hd.poolData with toBeDestroyed := true } (.lost hd) (g.given hd.poolData)
        (by simp [hup])
      rw [Function.update_eq_self] at h1
      have h2 := h1.drop (by
        simp only [ServerInfo.setConn, Function.update_self]
        exact ⟨⟨hN, hU, hF⟩, ⟨hh, rfl⟩, rfl, hu, y, hg⟩)
      unfold poolOnConnectDestroyed
      rw [if_pos (by simp [hu, hb]), hent]
      exact ⟨_, _, h2, ⟨rfl, rfl, rfl⟩, rfl⟩
  · -- being closed: it is in no queue
    have hdrift : SrvOp.drift g (.destroyed hd) = 1 := by
      show (if g.conn hd.poolData = .destroying hd then 1 else 0) = 1
      rw [if_pos hde]
    rw [hdrift]
    rw [hde] at hslot
    obtain ⟨hj, -, hu, hg⟩ := hslot
    rw [if_neg (by simp [hde])] at hent
    exact ⟨_, _, poolOnConnectDestroyed_inv_of_hand hu (poolConnectQueueRm_inv_out h hj)
      (by rw [hde]; rfl) hg hent⟩

/-- The list surgery of `_pool_waiting_queue_rm` on a live node. -/
theorem poolWaitingQueueUnlink_inv {N d : Nat} {t : ServerInfo σ} {g : Ghost σ}
    {U F W : List Nat} (h : SrvInv N d none t g U F W) {wq : Nat} (hwq : t.waitSub wq ≠ none) :
    SrvInv N d none (poolWaitingQueueUnlink t wq) g U F (W.erase wq) := by
  have hm : wq ∈ W := (h.waitSub wq).1 hwq
  obtain ⟨k, e, hun, hq⟩ := poolWaitingQueueUnlink_spec h.wait hm
  rw [hun]
  apply h.setWait hq
  · intro a
    by_cases ha : a = wq
    · subst ha
      simp [h.wait.nodup.not_mem_erase]
    · simp [ha, h.waitSub a, List.mem_erase_of_ne ha]
  · rcases h.idle with hw | hf
    · rw [hw] at hm
      cases hm
    · exact Or.inr hf
  · have hlen := h.waitingCount
    have hpos := List.length_pos_of_mem hm
    rw [List.length_erase_of_mem hm]
    omega

/-- **`_pool_waiting_queue_rm`** of a live node. -/
theorem poolWaitingQueueRm_inv {pool : PoolConf} {d : Nat} {t : ServerInfo σ} {g : Ghost σ}
    {U F W : List Nat} (h : SrvInv pool.slots d none t g U F W) {wq : Nat}
    (hwq : t.waitSub wq ≠ none) :
    ∃ F', SrvInv pool.slots d none (poolWaitingQueueRm pool t wq).1
        (g.absorbAll (poolWaitingQueueRm pool t wq).2) U F' (W.erase wq)
      ∧ (poolWaitingQueueRm pool t wq).1.waitSub = Function.update t.waitSub wq none
      ∧ (g.absorbAll (poolWaitingQueueRm pool t wq).2).given = g.given
      ∧ (g.absorbAll (poolWaitingQueueRm pool t wq).2).hist = g.hist
      ∧ callbacks (poolWaitingQueueRm pool t wq).2 = [] := by
  have h1 := poolWaitingQueueUnlink_inv h hwq
  have hws : (poolWaitingQueueUnlink t wq).waitSub = Function.update t.waitSub wq none := rfl
  unfold poolWaitingQueueRm
  by_cases hdes : (poolWaitingQueueUnlink t wq).destroyFlag = true
      ∧ (poolWaitingQueueUnlink t wq).waitingCount = 0
      ∧ (poolWaitingQueueUnlink t wq).freeConnectCount + (poolWaitingQueueUnlink t wq).unconnectCount
        = pool.connectPerServer
  · obtain ⟨h2, hq2, hc2, -⟩ := poolServerDestroy_inv h1
    rw [if_pos hdes]
    exact ⟨_, h2, hq2.waitSub.trans hws, hq2.given, hq2.hist, hc2⟩
  · rw [if_neg hdes]
    exact ⟨_, h1, hws, rfl, rfl, rfl⟩

/-- **`_server_connect_monitor`.** -/
theorem serverConnectMonitor_inv {pool : PoolConf} {N d : Nat} {t : ServerInfo σ} {g : Ghost σ}
    {U F W : List Nat} (h : SrvInv N d none t g U F W) :
    ∃ U', SrvInv N d none (serverConnectMonitor pool t).1
        (g.absorbAll (serverConnectMonitor pool t).2) U' F W
      ∧ Quiet t g (serverConnectMonitor pool t).1 (g.absorbAll (serverConnectMonitor pool t).2)
      ∧ callbacks (serverConnectMonitor pool t).2 = [] := by
  unfold serverConnectMonitor
  by_cases hlow : t.connectCount < pool.lowConnectPerServer
  · rw [if_pos hlow]
    obtain ⟨h1, hq, hc, -⟩ := poolCreateNewConnect_inv h
    exact ⟨_, h1, hq, hc⟩
  · rw [if_neg hlow]
    exact ⟨_, h, Quiet.refl t g, rfl⟩

/-- **`pool_destroy`** at one server. -/
theorem serverDestroy_inv {pool : PoolConf} {d : Nat} {t : ServerInfo σ} {g : Ghost σ}
    {U F W : List Nat} (h : SrvInv pool.slots d none t g U F W) :
    ∃ F', SrvInv pool.slots d none (serverDestroy pool t).1
        (g.absorbAll (serverDestroy pool t).2) U F' W
      ∧ Quiet t g (serverDestroy pool t).1 (g.absorbAll (serverDestroy pool t).2)
      ∧ callbacks (serverDestroy pool t).2 = [] := by
  have h1 := h.setFlags true false t.freed
  unfold serverDestroy
  by_cases hdes : t.connectCount = t.freeConnectCount
      ∧ t.freeConnectCount + t.unconnectCount = pool.connectPerServer
      ∧ t.waitingCount = 0
  · obtain ⟨h2, hq, hc, -⟩ := poolServerDestroy_inv h1
    simp only [if_pos hdes]
    exact ⟨_, h2, ⟨hq.waitSub, hq.given, hq.hist⟩, hc⟩
  · simp only [if_neg hdes]
    exact ⟨_, h1, ⟨rfl, rfl, rfl⟩, rfl⟩

end RedisAgent
