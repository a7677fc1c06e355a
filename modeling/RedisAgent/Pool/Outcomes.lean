/-
  RedisAgent.Pool.Outcomes — when an operation leaves a server at rest, and when
  it tears the server down.

  A server is at rest when nobody waits and every slot is unconnected or free.
  `_pool_server_destroyed` is meant to run there and only there.  For every
  operation, §1 names on the state BEFORE it: the test it makes (`Closes`), the
  states it leads to rest from (`RestsAfter`), and the states it tears down too
  early (`Early`).  §2 counts the slots of a server at rest; §3 has one rule per
  operation; `Srv.exec_outcome` puts them together.
-/
import RedisAgent.Pool.Endings

namespace RedisAgent

open Links

variable {σ : Type*}

/-! ## §1. At rest. -/

/-- Slot `j` is neither in use, nor being created, nor being closed. -/
structure Srv.RestsAt (s : Srv σ) (j : Nat) : Prop where
  notInUse : (s.info.connectArr j).inUse = false
  notCreating : ∀ hd, s.ghost.conn j ≠ .creating hd
  notDestroying : ∀ hd, s.ghost.conn j ≠ .destroying hd

/-- Nobody waits, and every slot rests. -/
structure Srv.AtRest (N : Nat) (s : Srv σ) : Prop where
  wait : s.info.waitingQueue.head = none
  slots : ∀ j, j < N → s.RestsAt j

/-- Every slot but `j` rests. -/
def Srv.OthersRest (N : Nat) (s : Srv σ) (j : Nat) : Prop := ∀ i, i < N → i ≠ j → s.RestsAt i

/-- The test an operation makes before it closes the free connections or tears
the server down, read on the state before it; `c` is `m_connectPerServer`. -/
def SrvOp.Closes (c : Int) (s : Srv σ) : SrvOp σ → Prop
  | .fetch .. | .monitor => False
  | .release .. | .created .. =>
      s.info.destroyFlag = true ∧ s.info.freeConnectCount + s.info.unconnectCount + 1 = c
  | .destroyed _ => s.info.destroyFlag = true ∧ s.info.connectCount = 1
  | .waitRm _ =>
      s.info.destroyFlag = true ∧ s.info.waitingCount = 1
        ∧ s.info.freeConnectCount + s.info.unconnectCount = c
  | .destroy =>
      s.info.connectCount = s.info.freeConnectCount
        ∧ s.info.freeConnectCount + s.info.unconnectCount = c ∧ s.info.waitingCount = 0

/-- Left to itself, the operation leads to rest: the slot it is about was the
last one busy, and nobody waits. -/
def SrvOp.RestsAfter (N : Nat) (s : Srv σ) : SrvOp σ → Prop
  | .fetch .. | .monitor => False
  | .release hd errclose _ =>
      errclose = false ∧ (s.info.connectArr hd.poolData).toBeDestroyed = false
        ∧ s.info.waitingQueue.head = none ∧ s.OthersRest N hd.poolData
  | .created hd _ _ => s.info.waitingQueue.head = none ∧ s.OthersRest N hd.poolData
  | .destroyed hd =>
      (s.info.connectArr hd.poolData).inUse = false ∧ s.info.waitingQueue.head = none
        ∧ s.OthersRest N hd.poolData
  | .waitRm _ => s.info.waitingCount = 1 ∧ ∀ j, j < N → s.RestsAt j
  | .destroy => s.AtRest N

/-- The operation tears down a server that is not at rest: a failed creation with
somebody waiting, or the report on the last connection with somebody waiting or
another connection still being created. -/
def SrvOp.Early (c : Int) (s : Srv σ) : SrvOp σ → Prop
  | .created _ status _ =>
      status ≠ 0 ∧ s.info.destroyFlag = true
        ∧ s.info.freeConnectCount + s.info.unconnectCount + 1 = c
        ∧ s.info.waitingQueue.head ≠ none
  | .destroyed hd =>
      (s.info.connectArr hd.poolData).inUse = false ∧ s.info.destroyFlag = true
        ∧ s.info.connectCount = 1
        ∧ (s.info.waitingQueue.head ≠ none ∨ ∃ j, j < c.toNat ∧ ∃ h, s.ghost.conn j = .creating h)
  | _ => False

/-- How an operation that made `calls` left the server, against what the state
before it says. -/
structure Outcome (c : Int) (s : Srv σ) (op : SrvOp σ) (s' : Srv σ) (calls : List (Call σ)) :
    Prop where
  early : TornBy calls ∧ ¬ s'.AtRest c.toNat ↔ op.Early c s
  stalls : ¬ TornBy calls ∧ s'.AtRest c.toNat ↔ op.RestsAfter c.toNat s ∧ ¬ op.Closes c s
  down : TornBy calls → ∀ j, j < c.toNat → (s'.ghost.conn j).connected = false

variable {N : Nat} {c : Int} {s s' : Srv σ} {op : SrvOp σ} {calls : List (Call σ)}

/-- Rest is a matter of the waiting queue, the flags in use and the plugin's side. -/
theorem Srv.atRest_congr (hwait : s'.info.waitingQueue = s.info.waitingQueue)
    (harr : s'.info.connectArr = s.info.connectArr) (hconn : s'.ghost.conn = s.ghost.conn) :
    s'.AtRest N ↔ s.AtRest N := by
  have hslot : ∀ j, s'.RestsAt j ↔ s.RestsAt j := by
    intro j
    constructor
    · rintro ⟨h1, h2, h3⟩
      rw [harr] at h1
      rw [hconn] at h2 h3
      exact ⟨h1, h2, h3⟩
    · rintro ⟨h1, h2, h3⟩
      rw [← harr] at h1
      rw [← hconn] at h2 h3
      exact ⟨h1, h2, h3⟩
  constructor
  · intro h
    exact ⟨hwait ▸ h.wait, fun j hj => (hslot j).1 (h.slots j hj)⟩
  · intro h
    exact ⟨hwait ▸ h.wait, fun j hj => (hslot j).2 (h.slots j hj)⟩

/-- Something is still going on. -/
theorem Outcome.busy (hrest : ¬ s'.AtRest c.toNat) (htorn : ¬ TornBy calls) (hearly : ¬ op.Early c s)
    (hstall : op.RestsAfter c.toNat s → op.Closes c s) : Outcome c s op s' calls where
  early := iff_of_false (fun h => htorn h.1) hearly
  stalls := iff_of_false (fun h => hrest h.2) (fun h => h.2 (hstall h.1))
  down h := absurd h htorn

/-- The test failed, and nothing more happened. -/
theorem Outcome.plain (htorn : ¬ TornBy calls) (hearly : ¬ op.Early c s)
    (hclose : ¬ op.Closes c s) (hrest : s'.AtRest c.toNat ↔ op.RestsAfter c.toNat s) :
    Outcome c s op s' calls where
  early := iff_of_false (fun h => htorn h.1) hearly
  stalls := by
    rw [hrest]
    exact ⟨fun h => ⟨h.2, hclose⟩, fun h => ⟨htorn, h.1⟩⟩
  down h := absurd h htorn

/-- Only the tear-downs among the calls matter. -/
theorem Outcome.of_calls {calls' : List (Call σ)} (h : Outcome c s op s' calls)
    (hcalls : TornBy calls' ↔ TornBy calls) : Outcome c s op s' calls' where
  early := by
    rw [hcalls]
    exact h.early
  stalls := by
    rw [hcalls]
    exact h.stalls
  down ht := h.down (hcalls.1 ht)

/-- Only the plugin's side of the history matters. -/
theorem Outcome.of_conn {s'' : Srv σ} (h : Outcome c s op s' calls)
    (hinfo : s''.info = s'.info) (hconn : s''.ghost.conn = s'.ghost.conn) :
    Outcome c s op s'' calls := by
  have hat : s''.AtRest c.toNat ↔ s'.AtRest c.toNat :=
    Srv.atRest_congr (by rw [hinfo]) (by rw [hinfo]) hconn
  refine ⟨?_, ?_, ?_⟩
  · rw [hat]
    exact h.early
  · rw [hat]
    exact h.stalls
  · rw [hconn]
    exact h.down

/-- The server was torn down. -/
theorem Outcome.torn (htorn : TornBy calls) (hclose : op.Closes c s)
    (hdown : ∀ j, j < c.toNat → (s'.ghost.conn j).connected = false)
    (hrest : s'.AtRest c.toNat ↔ ¬ op.Early c s) : Outcome c s op s' calls where
  early := by
    rw [hrest, not_not]
    exact ⟨fun h => h.2, fun h => ⟨htorn, h⟩⟩
  stalls := iff_of_false (fun h => h.1 htorn) (fun h => h.2 hclose)
  down _ := hdown

/-! ## §2. The slots of a server at rest. -/

/-- A resting slot is unconnected or free. -/
theorem SlotOk.rests {U F : List Nat} {j : Nat}
    (h : SlotOk N U F j (s.ghost.conn j) (s.info.connectArr j) (s.ghost.given j)) (hj : j < N)
    (hrest : s.RestsAt j) :
    (j ∈ U ∧ s.ghost.conn j = .idle) ∨ (j ∈ F ∧ ∃ hd, s.ghost.conn j = .up hd) := by
  cases hc : s.ghost.conn j with
  | idle =>
      rw [hc] at h
      exact Or.inl ⟨h.1.2 hj, rfl⟩
  | creating hd => exact absurd hc (hrest.notCreating hd)
  | destroying hd => exact absurd hc (hrest.notDestroying hd)
  | up hd =>
      rw [hc] at h
      obtain ⟨-, -, -, ⟨hF, -, -⟩ | ⟨-, hu, -⟩⟩ := h
      · exact Or.inr ⟨hF, hd, rfl⟩
      · rw [hrest.notInUse] at hu
        cases hu
  | lost hd =>
      rw [hc] at h
      obtain ⟨-, -, -, hu, -⟩ := h
      rw [hrest.notInUse] at hu
      cases hu

/-- Lists without repetition that hold every slot, and slots only. -/
theorem length_of_slots {l : List Nat} (hnd : l.Nodup) (h : ∀ j, j ∈ l ↔ j < N) : l.length = N := by
  have hperm : l.Perm (List.range N) := by
    rw [List.perm_ext_iff_of_nodup hnd List.nodup_range]
    intro j
    rw [h, List.mem_range]
  rw [hperm.length_eq, List.length_range]

variable {pool : PoolConf} {d : Nat} {t : ServerInfo σ} {g : Ghost σ} {U F W : List Nat}

/-- Both slot queues together hold slots only, none twice. -/
theorem SrvInv.queues {x : Option Nat} (h : SrvInv N d x t g U F W) :
    (U ++ F).Nodup ∧ ∀ j, j ∈ U ++ F → j < N := by
  refine ⟨List.nodup_append.2 ⟨h.unconn.nodup, h.free.nodup, ?_⟩, ?_⟩
  · intro i hi j hj hij
    subst hij
    exact h.disjoint hi hj
  · intro j hj
    by_cases hx : x = some j
    · exact (h.hand j hx).1
    · rcases List.mem_append.1 hj with hm | hm
      · exact ((h.slot j hx).of_mem_unconn hm).2.1
      · obtain ⟨-, -, hjN, -⟩ := (h.slot j hx).of_mem_free hm
        exact hjN

/-- At rest, every slot is in one of the queues. -/
theorem Srv.Inv.rest_length (h : s.Inv pool d U F W)
    (hrest : ∀ j, j < pool.slots → s.RestsAt j) :
    U.length + F.length = pool.slots := by
  have hall := length_of_slots (N := pool.slots) h.queues.1 (by
    intro j
    refine ⟨h.queues.2 j, ?_⟩
    intro hj
    rcases (h.slot j (by simp)).rests hj (hrest j hj) with ⟨hm, -⟩ | ⟨hm, -⟩
    · exact List.mem_append_left F hm
    · exact List.mem_append_right U hm)
  rw [List.length_append] at hall
  exact hall

/-- With one slot out of the queues and the others at rest, one is missing. -/
theorem Srv.Inv.others_length (h : s.Inv pool d U F W) {j : Nat}
    (hj : j < pool.slots ∧ j ∉ U ∧ j ∉ F)
    (hrest : s.OthersRest pool.slots j) :
    U.length + F.length + 1 = pool.slots := by
  have hnd : (j :: (U ++ F)).Nodup := by
    refine List.nodup_cons.2 ⟨?_, h.queues.1⟩
    intro hm
    rcases List.mem_append.1 hm with hm | hm
    · exact hj.2.1 hm
    · exact hj.2.2 hm
  have hall := length_of_slots (N := pool.slots) hnd (by
    intro i
    rw [List.mem_cons]
    constructor
    · rintro (rfl | hm)
      · exact hj.1
      · exact h.queues.2 i hm
    · intro hi
      by_cases hij : i = j
      · exact Or.inl hij
      · right
        rcases (h.slot i (by simp)).rests hi (hrest i hi hij) with ⟨hm, -⟩ | ⟨hm, -⟩
        · exact List.mem_append_left F hm
        · exact List.mem_append_right U hm)
  rw [List.length_cons, List.length_append] at hall
  exact hall

/-- The unconnected slots are all of them when the counters say so. -/
theorem SrvInv.all_idle (h : SrvInv c.toNat d none t g U [] W)
    (hcount : t.freeConnectCount + t.unconnectCount = c) :
    ∀ j, j < c.toNat → g.conn j = .idle := by
  intro j hj
  have hfree := h.freeConnectCount
  have hunconn := h.unconnectCount
  rw [List.length_nil] at hfree
  have hU : ∀ j ∈ U, j < c.toNat := fun j hj => ((h.slot j (by simp)).of_mem_unconn hj).2.1
  have hcard := countP_mem_range h.unconn.nodup hU
  have hle := List.countP_le_length (p := fun j => decide (j ∈ U)) (l := List.range c.toNat)
  have hfull : (List.range c.toNat).countP (fun j => decide (j ∈ U)) = (List.range c.toNat).length := by
    rw [List.length_range] at hle ⊢
    omega
  have hm := List.countP_eq_length.1 hfull j (List.mem_range.2 hj)
  exact ((h.slot j (by simp)).of_mem_unconn (of_decide_eq_true hm)).1

/-- No slot is connected when the counter says so. -/
theorem SrvInv.none_connected {x : Option Nat} (h : SrvInv N d x t g U F W)
    (hcount : t.connectCount = 0) : ∀ j, j < N → (g.conn j).connected = false := by
  have hzero := h.connectCount
  rw [hcount] at hzero
  intro j hj
  have hno := List.countP_eq_zero.1 (Int.ofNat_eq_zero.1 hzero.symm) j (List.mem_range.2 hj)
  exact Bool.eq_false_iff.2 hno

/-! ## §3. One rule per operation. -/

/-- Only slot `j` has moved, and it rests now. -/
theorem Srv.atRest_iff_others {j : Nat} (hwait : s'.info.waitingQueue = s.info.waitingQueue)
    (hother : ∀ i, i ≠ j → s'.info.connectArr i = s.info.connectArr i
      ∧ s'.ghost.conn i = s.ghost.conn i)
    (hj : s'.RestsAt j) :
    s'.AtRest N ↔ s.info.waitingQueue.head = none ∧ s.OthersRest N j := by
  constructor
  · intro h
    refine ⟨hwait ▸ h.wait, ?_⟩
    intro i hi hij
    obtain ⟨h1, h2, h3⟩ := h.slots i hi
    obtain ⟨ha, hc⟩ := hother i hij
    rw [ha] at h1
    rw [hc] at h2 h3
    exact ⟨h1, h2, h3⟩
  · intro h
    refine ⟨hwait ▸ h.1, ?_⟩
    intro i hi
    by_cases hij : i = j
    · subst hij
      exact hj
    · obtain ⟨h1, h2, h3⟩ := h.2 i hi hij
      obtain ⟨ha, hc⟩ := hother i hij
      rw [← ha] at h1
      rw [← hc] at h2 h3
      exact ⟨h1, h2, h3⟩

/-- **The common ending**, read as an outcome: the test is the one `Closes` names,
and `t` is at rest when `RestsAfter` says so. -/
theorem Outcome.of_ending {cond : Prop} (h : SrvInv c.toNat d none t g U F W)
    (hend : Ending c.toNat cond t g F s' calls) (hcond : cond ↔ op.Closes c s)
    (hcount : cond → t.freeConnectCount + t.unconnectCount = c)
    (hrest : (⟨t, g⟩ : Srv σ).AtRest c.toNat ↔ op.RestsAfter c.toNat s)
    (hearly : op.Early c s → cond ∧ F = []) (htorn : cond → F = [] →
      (op.RestsAfter c.toNat s ↔ ¬ op.Early c s)) : Outcome c s op s' calls := by
  cases hend with
  | torn hc hF hs ht =>
      subst hF
      have hidle := h.all_idle (hcount hc)
      refine .torn ht (hcond.1 hc) ?_ ?_
      · intro j hj
        rw [hs]
        show (g.conn j).connected = false
        rw [hidle j hj]
        rfl
      · have hsame : s'.AtRest c.toNat ↔ (⟨t, g⟩ : Srv σ).AtRest c.toNat := by
          rw [hs]
          exact Srv.atRest_congr rfl rfl rfl
        rw [hsame, hrest]
        exact htorn hc rfl
  | closing j hd hc hF hj hdes ht =>
      refine .busy ?_ ht (fun he => hF (hearly he).2) (fun _ => hcond.1 hc)
      intro hat
      exact (hat.slots j hj).notDestroying hd hdes
  | plain hc hs ht =>
      rw [hs]
      exact .plain ht (fun he => hc (hearly he).1) (mt hcond.2 hc) hrest

/-- A failed creation. -/
theorem Srv.created_fail_outcome (h : s.Inv pool d U F W) {hd : Handle} {status : Int}
    {now : Timeval} (hen : s.Enabled (.created hd status now)) (hst : status ≠ 0) :
    Outcome pool.connectPerServer s (.created hd status now) (s.exec pool (.created hd status now))
      (SrvOp.code pool s.info (.created hd status now)).2 := by
  obtain ⟨hinv, hend⟩ := Srv.created_fail_ending h hen hst
  have hcond : (s.info.failedCreate hd).ClosesNow pool
      ↔ SrvOp.Closes pool.connectPerServer s (.created hd status now) := by
    show s.info.destroyFlag = true ∧ s.info.freeConnectCount + (s.info.unconnectCount + 1) = _ ↔ _
    rw [← Int.add_assoc]
    exact Iff.rfl
  have hconn : (SrvOp.enter s.ghost (.created hd status now)).conn
      = Function.update s.ghost.conn hd.poolData .idle := by
    simp only [SrvOp.enter, if_neg hst]
  have hrest : (⟨s.info.failedCreate hd, SrvOp.enter s.ghost (.created hd status now)⟩ :
        Srv σ).AtRest pool.slots
      ↔ SrvOp.RestsAfter pool.slots s (.created hd status now) := by
    refine Srv.atRest_iff_others (s := s) (j := hd.poolData) rfl ?_ ?_
    · intro i hij
      rw [hconn]
      simp [ServerInfo.failedCreate, poolUnconnectQueuePut, ServerInfo.setConn, hij]
    · refine ⟨?_, ?_, ?_⟩
      · simp [ServerInfo.failedCreate, poolUnconnectQueuePut, ServerInfo.setConn]
      · simp [hconn]
      · simp [hconn]
  refine .of_ending hinv hend hcond (fun hc => hc.2) hrest ?_ ?_
  · -- somebody waits, so no connection is free
    intro he
    refine ⟨hcond.2 ⟨he.2.1, he.2.2.1⟩, ?_⟩
    rcases h.idle with hW | hF
    · exact absurd (h.wait.head_eq_none.2 hW) he.2.2.2
    · exact hF
  · -- nothing free and the counters full: all slots are idle, so only waiters count
    intro hc hF
    subst hF
    have hidle := hinv.all_idle hc.2
    rw [← hrest]
    constructor
    · intro hat he
      exact he.2.2.2 hat.wait
    · intro hne
      refine ⟨?_, ?_⟩
      · by_contra hwait
        exact hne ⟨hst, (hcond.1 hc).1, (hcond.1 hc).2, hwait⟩
      · intro j hj
        have hslot := hinv.slot j (by simp)
        have hj := hidle j hj
        rw [hj] at hslot
        exact ⟨hslot.2.2.2.1, by simp [hj], by simp [hj]⟩

/-- A connection that is put back, by whichever operation: slot `j` is in hand at
`t`, and `t` differs from the server before the operation at `j` alone. -/
theorem Outcome.of_putBack {j : Nat} {hd : Handle} {now : Timeval}
    (h : SrvInv pool.slots d (some j) t g U F W)
    (hc : g.conn j = .up hd) (hh : (t.connectArr j).handle = some hd ∧ hd.poolData = j)
    (hb : (t.connectArr j).toBeDestroyed = false) (hu : (t.connectArr j).inUse = false)
    (hg : g.given j = [])
    (hwait : t.waitingQueue = s.info.waitingQueue)
    (hother : ∀ i, i ≠ j → t.connectArr i = s.info.connectArr i ∧ g.conn i = s.ghost.conn i)
    (hclose : t.destroyFlag = true
        ∧ t.freeConnectCount + 1 + t.unconnectCount = pool.connectPerServer
      ↔ op.Closes pool.connectPerServer s)
    (hrest : s.info.waitingQueue.head = none ∧ s.OthersRest pool.slots j
      ↔ op.RestsAfter pool.slots s)
    (hearly : ¬ op.Early pool.connectPerServer s)
    (hs : s' = ⟨(poolPutBackConnect pool t j now).1,
      g.absorbAll (poolPutBackConnect pool t j now).2⟩)
    (hcalls : TornBy calls ↔ TornBy (poolPutBackConnect pool t j now).2) :
    Outcome pool.connectPerServer s op s' calls := by
  have hj := (h.hand j rfl).1
  suffices hput : Outcome pool.connectPerServer s op s' (poolPutBackConnect pool t j now).2 from
    hput.of_calls hcalls
  rcases poolPutBackConnect_ending now h hc hh hb hu hg with ⟨hW, huse, ht⟩ | ⟨-, hinv, hend⟩
  · refine .busy ?_ ht hearly ?_
    · intro hat
      have hno := (hat.slots j hj).notInUse
      rw [hs] at hno
      rw [huse] at hno
      cases hno
    · -- nobody waited, so the connection would have joined the free ones
      intro hr
      exact absurd (h.wait.head_eq_none.1 (hwait ▸ (hrest.2 hr).1)) hW
  · rw [← hs] at hend
    refine .of_ending hinv hend hclose (fun hcl => hcl.2) ?_ (fun he => absurd he hearly) ?_
    · rw [← hrest]
      refine Srv.atRest_iff_others (s := s) (j := j) hwait hother ⟨hu, ?_, ?_⟩
      · simp [hc]
      · simp [hc]
    · intro _ hF
      exact absurd hF (by simp)

/-- What a creation that succeeded runs. -/
theorem Srv.created_ok_exec (pool : PoolConf) (s : Srv σ) (hd : Handle) (now : Timeval) :
    s.exec pool (.created hd 0 now)
      = ⟨(poolPutBackConnect pool { s.info.setConn hd.poolData
            { s.info.connectArr hd.poolData with inUse := false, toBeDestroyed := false } with
            connectCount := s.info.connectCount + 1 } hd.poolData now).1,
          Ghost.absorbAll { s.ghost with
              conn := Function.update s.ghost.conn hd.poolData (.up hd) }
            (poolPutBackConnect pool { s.info.setConn hd.poolData
              { s.info.connectArr hd.poolData with inUse := false, toBeDestroyed := false } with
              connectCount := s.info.connectCount + 1 } hd.poolData now).2⟩ := rfl

/-- A creation that succeeded. -/
theorem Srv.created_ok_outcome (h : s.Inv pool d U F W) {hd : Handle} {now : Timeval}
    (hen : s.Enabled (.created hd 0 now)) :
    Outcome pool.connectPerServer s (.created hd 0 now) (s.exec pool (.created hd 0 now))
      (SrvOp.code pool s.info (.created hd 0 now)).2 := by
  have hcr : s.ghost.conn hd.poolData = .creating hd := hen
  have hslot := h.slot hd.poolData (by simp)
  rw [hcr] at hslot
  obtain ⟨hj, ⟨hh, -⟩, -, hg⟩ := hslot
  have h1 := SrvInv.takeInHand h (n := s.info.connectCount + 1) (by simp) hj
    { s.info.connectArr hd.poolData with inUse := false, toBeDestroyed := false } (.up hd)
    (s.ghost.given hd.poolData) (by simp [hcr])
  rw [Function.update_eq_self] at h1
  refine Outcome.of_putBack h1 (Function.update_self ..) (by simp [ServerInfo.setConn, hh])
    (by simp [ServerInfo.setConn]) (by simp [ServerInfo.setConn]) hg rfl ?_ ?_ Iff.rfl ?_
    (Srv.created_ok_exec pool s hd now) Iff.rfl
  · intro i hij
    simp [ServerInfo.setConn, hij]
  · show s.info.destroyFlag = true
      ∧ s.info.freeConnectCount + 1 + s.info.unconnectCount = pool.connectPerServer ↔ _
    rw [Int.add_right_comm]
    exact Iff.rfl
  · intro he
    exact he.1 rfl

/-- A connection given back. -/
theorem Srv.release_outcome (h : s.Inv pool d U F W) {hd : Handle} {errclose : Bool}
    {now : Timeval} (hen : s.Enabled (.release hd errclose now)) :
    Outcome pool.connectPerServer s (.release hd errclose now)
      (s.exec pool (.release hd errclose now))
      (SrvOp.code pool s.info (.release hd errclose now)).2 := by
  obtain ⟨y, hy⟩ := hen
  obtain ⟨hj, ⟨hh, -⟩, hu, hg, hc⟩ := (h.slot hd.poolData (by simp)).of_given hy
  have hexec : s.exec pool (.release hd errclose now)
      = ⟨(poolReleaseConnect pool s.info hd errclose now).1,
          (SrvOp.enter s.ghost (.release hd errclose now)).absorbAll
            (poolReleaseConnect pool s.info hd errclose now).2⟩ := rfl
  rw [hexec]
  show Outcome _ _ _ _ (poolReleaseConnect pool s.info hd errclose now).2
  unfold poolReleaseConnect
  simp only [ServerInfo.setConn, Function.update_self]
  by_cases hput : errclose = false ∧ ¬ (s.info.connectArr hd.poolData).toBeDestroyed = true
  · rw [if_pos hput]
    rcases hc with ⟨hup, hb⟩ | ⟨-, hb⟩
    · have h1 := SrvInv.takeInHand h (n := s.info.connectCount) (by simp) hj
        { s.info.connectArr hd.poolData with inUse := false } (s.ghost.conn hd.poolData) [] rfl
      rw [Function.update_eq_self] at h1
      refine Outcome.of_putBack h1 hup (by simp [ServerInfo.setConn, hh])
        (by simp [ServerInfo.setConn, hb]) (by simp [ServerInfo.setConn]) (by simp) rfl ?_ ?_ ?_
        (fun he => he) rfl (by simp [TornBy, Call.isServerDestroyed, ServerInfo.setConn])
      · intro i hij
        simp [ServerInfo.setConn, hij]
      · show s.info.destroyFlag = true
          ∧ s.info.freeConnectCount + 1 + s.info.unconnectCount = pool.connectPerServer ↔ _
        rw [Int.add_right_comm]
        exact Iff.rfl
      · exact ⟨fun hr => ⟨hput.1, hb, hr⟩, fun hr => hr.2.2⟩
    · exact absurd hb hput.2
  · -- the plugin is asked to close the connection
    rw [if_neg hput]
    refine .busy ?_ (by simp [TornBy, Call.isServerDestroyed]) (fun he => he) ?_
    · intro hat
      apply (hat.slots hd.poolData hj.1).notDestroying hd
      simp [hh, Ghost.absorb]
    · intro hr
      exact absurd ⟨hr.1, by simp [hr.2.1]⟩ hput

/-- A slot that is not connected is idle or being created. -/
theorem Conn.of_not_connected {c : Conn} (h : c.connected = false) (hno : ∀ hd, c ≠ .creating hd) :
    c = .idle := by
  cases c with
  | idle => rfl
  | creating hd => exact absurd rfl (hno hd)
  | up hd => cases h
  | lost hd => cases h
  | destroying hd => cases h

/-- The server once the slot of `hd`, which nobody holds, is unconnected. -/
def ServerInfo.goneConnect (t : ServerInfo σ) (hd : Handle) : ServerInfo σ :=
  { poolUnconnectQueuePut ((poolConnectQueueRm t hd.poolData).setConn hd.poolData
      { t.connectArr hd.poolData with handle := none }) hd.poolData with
    connectCount := t.connectCount - 1 }

/-- `_pool_on_connect_destroyed` of a slot nobody holds. -/
theorem poolOnConnectDestroyed_free (t : ServerInfo σ) {hd : Handle}
    (hu : (t.connectArr hd.poolData).inUse = false) :
    poolOnConnectDestroyed t hd
      = if t.destroyFlag = true ∧ t.connectCount = 1
        then ({ t.goneConnect hd with freed := true }, [.argAfterConn (-1), .serverDestroyed])
        else (t.goneConnect hd, [.argAfterConn (-1)]) := by
  have hrm : (if (t.connectArr hd.poolData).inUse then t else poolConnectQueueRm t hd.poolData)
      = poolConnectQueueRm t hd.poolData := if_neg (by simp [hu])
  have htest : (t.destroyFlag = true ∧ t.connectCount - 1 = 0)
      ↔ (t.destroyFlag = true ∧ t.connectCount = 1) := by
    rw [Int.sub_eq_zero]
  unfold poolOnConnectDestroyed
  rw [if_neg (by simp [hu])]
  simp only [hrm]
  by_cases hc : t.destroyFlag = true ∧ t.connectCount = 1
  · rw [if_pos hc]
    exact if_pos (htest.2 hc)
  · rw [if_neg hc]
    exact if_neg (mt htest.1 hc)

/-- **A report from the plugin.** -/
theorem Srv.destroyed_outcome (h : s.Inv pool d U F W) {hd : Handle}
    (hen : s.Enabled (.destroyed hd)) :
    Outcome pool.connectPerServer s (.destroyed hd) (s.exec pool (.destroyed hd))
      (SrvOp.code pool s.info (.destroyed hd)).2 := by
  obtain ⟨U', F', W', hinv, -⟩ := Srv.exec_inv h hen
  have hexec : s.exec pool (.destroyed hd)
      = ⟨(poolOnConnectDestroyed s.info hd).1, (SrvOp.enter s.ghost (.destroyed hd)).absorbAll
          (poolOnConnectDestroyed s.info hd).2⟩ := rfl
  have hslot := h.slot hd.poolData (by simp)
  have hj : hd.poolData < pool.slots := by
    rcases hen with hc | hc
    · rw [hc] at hslot
      exact hslot.1.1
    · rw [hc] at hslot
      exact hslot.1.1
  cases hu : (s.info.connectArr hd.poolData).inUse with
  | true =>
      -- somebody holds it: it is marked, and stays in use
      have hb : (s.info.connectArr hd.poolData).toBeDestroyed = false := by
        rcases hen with hc | hc
        · rw [hc] at hslot
          exact hslot.2.2.1
        · rw [hc] at hslot
          rw [hslot.2.2.1] at hu
          cases hu
      have hmark : poolOnConnectDestroyed s.info hd
          = (s.info.setConn hd.poolData
              { s.info.connectArr hd.poolData with toBeDestroyed := true }, [.argAfterConn (-1)]) := by
        unfold poolOnConnectDestroyed
        exact if_pos ⟨hu, by simp [hb]⟩
      refine .busy ?_ ?_ ?_ ?_
      · intro hat
        have hno := (hat.slots hd.poolData hj).notInUse
        rw [hexec, hmark] at hno
        simp [ServerInfo.setConn, hu] at hno
      · show ¬ TornBy (poolOnConnectDestroyed s.info hd).2
        rw [hmark]
        simp [TornBy, Call.isServerDestroyed]
      · intro he
        rw [he.1] at hu
        cases hu
      · intro hr
        rw [hr.1] at hu
        cases hu
  | false =>
      have hcode := poolOnConnectDestroyed_free s.info hu
      have hconn : (s.exec pool (.destroyed hd)).ghost.conn
          = Function.update s.ghost.conn hd.poolData .idle := by
        have hg := hslot.holder.2 hu
        have hnl : ¬ (s.ghost.conn hd.poolData = .up hd ∧ s.ghost.given hd.poolData ≠ []) :=
          fun hx => hx.2 hg
        rw [hexec, hcode]
        split <;> simp only [Ghost.absorbAll_cons, Ghost.absorbAll_nil, Ghost.absorb,
          SrvOp.enter, if_neg hnl]
      have hinfo : (s.exec pool (.destroyed hd)).info.connectArr
            = Function.update s.info.connectArr hd.poolData
              { s.info.connectArr hd.poolData with handle := none }
          ∧ (s.exec pool (.destroyed hd)).info.waitingQueue = s.info.waitingQueue
          ∧ (s.exec pool (.destroyed hd)).info.connectCount = s.info.connectCount - 1 := by
        rw [hexec, hcode]
        split <;> exact ⟨rfl, rfl, rfl⟩
      have hrest : (s.exec pool (.destroyed hd)).AtRest pool.slots
          ↔ s.info.waitingQueue.head = none ∧ s.OthersRest pool.slots hd.poolData := by
        refine Srv.atRest_iff_others (s := s) (j := hd.poolData) hinfo.2.1 ?_ ⟨?_, ?_, ?_⟩
        · intro i hij
          rw [hinfo.1, hconn]
          exact ⟨Function.update_of_ne hij _ _, Function.update_of_ne hij _ _⟩
        · rw [hinfo.1, Function.update_self]
          exact hu
        · simp [hconn]
        · simp [hconn]
      by_cases hc : s.info.destroyFlag = true ∧ s.info.connectCount = 1
      · have hdown := SrvInv.none_connected hinv (by rw [hinfo.2.2, hc.2]; rfl)
        refine .torn ?_ hc hdown ?_
        · show TornBy (poolOnConnectDestroyed s.info hd).2
          rw [hcode, if_pos hc]
          simp [TornBy, Call.isServerDestroyed]
        · rw [hrest]
          constructor
          · intro hr he
            rcases he.2.2.2 with hw | ⟨i, hi, hd', hcr⟩
            · exact hw hr.1
            · by_cases hij : i = hd.poolData
              · rw [hij] at hcr
                rcases hen with hx | hx
                · rw [hcr] at hx
                  cases hx
                · rw [hcr] at hx
                  cases hx
              · exact (hr.2 i hi hij).notCreating hd' hcr
          · intro hne
            refine ⟨?_, ?_⟩
            · by_contra hw
              exact hne ⟨hu, hc.1, hc.2, Or.inl hw⟩
            · intro i hi hij
              have hno : ∀ hd', s.ghost.conn i ≠ .creating hd' :=
                fun hd' hcr => hne ⟨hu, hc.1, hc.2, Or.inr ⟨i, hi, hd', hcr⟩⟩
              have hdi := hdown i hi
              rw [hconn, Function.update_of_ne hij] at hdi
              have hidle := Conn.of_not_connected hdi hno
              have hsi := h.slot i (by simp)
              rw [hidle] at hsi
              exact ⟨hsi.2.2.2.1, by simp [hidle], by simp [hidle]⟩
      · refine .plain ?_ (fun he => hc ⟨he.2.1, he.2.2.1⟩) hc ?_
        · show ¬ TornBy (poolOnConnectDestroyed s.info hd).2
          rw [hcode, if_neg hc]
          simp [TornBy, Call.isServerDestroyed]
        · rw [hrest]
          exact ⟨fun hr => ⟨hu, hr⟩, fun hr => hr.2⟩

/-- A waiting node removed. -/
theorem Srv.waitRm_outcome (h : s.Inv pool d U F W) {wq : Nat} (hen : s.Enabled (.waitRm wq)) :
    Outcome pool.connectPerServer s (.waitRm wq) (s.exec pool (.waitRm wq))
      (SrvOp.code pool s.info (.waitRm wq)).2 := by
  have hm : wq ∈ W := (h.waitSub wq).1 hen
  have hinv := poolWaitingQueueUnlink_inv h hen
  have hend := ending_of_test hinv ((poolWaitingQueueUnlink s.info wq).destroyFlag = true
    ∧ (poolWaitingQueueUnlink s.info wq).waitingCount = 0
    ∧ (poolWaitingQueueUnlink s.info wq).freeConnectCount
      + (poolWaitingQueueUnlink s.info wq).unconnectCount = pool.connectPerServer)
  have hcount : s.info.waitingCount - 1 = 0 ↔ s.info.waitingCount = 1 := Int.sub_eq_zero
  -- the node was the last one when the counter stands at one
  have hlast : W.erase wq = [] ↔ s.info.waitingCount = 1 := by
    have hlen := hinv.waitingCount
    have hun : (poolWaitingQueueUnlink s.info wq).waitingCount = s.info.waitingCount - 1 := rfl
    rw [hun] at hlen
    rw [← List.length_eq_zero_iff, ← hcount, hlen]
    exact Int.ofNat_eq_zero.symm
  suffices hrun : Outcome pool.connectPerServer s (.waitRm wq)
      ⟨(poolWaitingQueueRm pool s.info wq).1, s.ghost.absorbAll (poolWaitingQueueRm pool s.info wq).2⟩
      (SrvOp.code pool s.info (.waitRm wq)).2 from
    hrun.of_conn rfl (Srv.exec_conn pool s _)
  refine Outcome.of_ending hinv hend ?_ (fun hc => hc.2.2) ?_ (fun he => absurd he id) ?_
  · show s.info.destroyFlag = true ∧ s.info.waitingCount - 1 = 0 ∧ _ ↔ _
    rw [hcount]
    exact Iff.rfl
  · constructor
    · intro hat
      refine ⟨hlast.1 (hinv.wait.head_eq_none.1 hat.wait), ?_⟩
      intro j hj
      exact ⟨(hat.slots j hj).1, (hat.slots j hj).2, (hat.slots j hj).3⟩
    · intro hr
      refine ⟨hinv.wait.head_eq_none.2 (hlast.2 hr.1), ?_⟩
      intro j hj
      exact ⟨(hr.2 j hj).1, (hr.2 j hj).2, (hr.2 j hj).3⟩
  · intro hc hF
    subst hF
    have hidle := hinv.all_idle hc.2.2
    refine iff_of_true ⟨hcount.1 hc.2.1, ?_⟩ id
    intro j hj
    have hslot := h.slot j (by simp)
    rw [hidle j hj] at hslot
    exact ⟨hslot.2.2.2.1, by simp [hidle j hj], by simp [hidle j hj]⟩

/-- `pool_destroy` at one server. -/
theorem Srv.destroy_outcome (h : s.Inv pool d U F W) :
    Outcome pool.connectPerServer s .destroy (s.exec pool .destroy)
      (SrvOp.code pool s.info .destroy).2 := by
  have hinv := SrvInv.setFlags h true false s.info.freed
  have hend := ending_of_test hinv (s.info.connectCount = s.info.freeConnectCount
    ∧ s.info.freeConnectCount + s.info.unconnectCount = pool.connectPerServer
    ∧ s.info.waitingCount = 0)
  refine Outcome.of_ending hinv hend Iff.rfl (fun hc => hc.2.1) (Srv.atRest_congr rfl rfl rfl)
    (fun he => absurd he id) ?_
  · intro hc hF
    subst hF
    have hidle := SrvInv.all_idle h hc.2.1
    refine iff_of_true ⟨?_, ?_⟩ id
    · have hlen := h.waitingCount
      rw [hc.2.2] at hlen
      exact h.wait.head_eq_none.2 (List.length_eq_zero_iff.1 (Int.ofNat_eq_zero.1 hlen.symm))
    · intro j hj
      have hslot := h.slot j (by simp)
      rw [hidle j hj] at hslot
      exact ⟨hslot.2.2.2.1, by simp [hidle j hj], by simp [hidle j hj]⟩

/-- A fetch leaves a connection in use, or somebody waiting. -/
theorem Srv.fetch_outcome (h : s.Inv pool d U F W) {y : σ} {wq : Nat} {now : Timeval}
    (hen : s.Enabled (.fetch y wq now)) :
    Outcome pool.connectPerServer s (.fetch y wq now) (s.exec pool (.fetch y wq now))
      (SrvOp.code pool s.info (.fetch y wq now)).2 := by
  refine .busy ?_ (serverFetchConnect_not_torn pool s.info y wq now) (fun he => he)
    (fun hr => absurd hr id)
  intro hat
  obtain ⟨U', F', W', hinv, heff⟩ := Srv.exec_inv h hen
  have hW := hinv.wait.head_eq_none.1 hat.wait
  cases heff with
  | quiet hop _ _ _ _ => exact hop
  | granted _ _ _ hop _ _ _ _ _ _ => exact hop
  | direct hd _ _ _ _ _ hgiven _ _ =>
      have hg : (s.exec pool (.fetch y wq now)).ghost.given hd.poolData = [(hd, y)] := by
        rw [hgiven, Function.update_self]
      obtain ⟨hj, -, hu, -⟩ := (hinv.slot hd.poolData (by simp)).of_given
        (y := y) (by rw [hg]; exact List.mem_singleton_self _)
      rw [(hat.slots hd.poolData hj.1).notInUse] at hu
      cases hu
  | queued _ _ _ _ _ _ _ => simp at hW

/-- **Every operation** that the environment can bring while `pool_destroy` is under
way, and `pool_destroy` itself. -/
theorem Srv.exec_outcome (h : s.Inv pool d U F W) (hen : s.Enabled op) (hop : op ≠ .monitor) :
    Outcome pool.connectPerServer s op (s.exec pool op) (op.code pool s.info).2 := by
  cases op with
  | fetch y wq now => exact Srv.fetch_outcome h hen
  | release hd errclose now => exact Srv.release_outcome h hen
  | created hd status now =>
      by_cases hst : status = 0
      · subst hst
        exact Srv.created_ok_outcome h hen
      · exact Srv.created_fail_outcome h hen hst
  | destroyed hd => exact Srv.destroyed_outcome h hen
  | waitRm wq => exact Srv.waitRm_outcome h hen
  | monitor => exact absurd rfl hop
  | destroy => exact Srv.destroy_outcome h

end RedisAgent
