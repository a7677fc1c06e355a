/-
  RedisAgent.Pool.Machine — runs of a pool.

  The code of `Ops` runs inside an environment: the plugin, which answers
  `m_createCb` and `m_destroyCb` and may report a connection lost, and the callers,
  which hold the connections handed out.  The environment is a history next to
  the code's state (`Ghost`); the code never reads it.  What the plugin and the
  callers promise is the guard `Srv.Enabled`:

    • a created callback answers an `m_createCb`, once;
    • a destroyed callback answers an `m_destroyCb`, once, or reports an
      established connection lost, once and with no `m_destroyCb` pending;
    • a connection is released by the sub-request it was handed to, once;
    • a waiting node is removed only while it is allocated.

  **Nesting.**  `cb(ci->handle, sub_req)` is the last act of the function that
  calls it: what a callback does to the pool, to any depth, it does to the state
  its caller leaves behind.  So a nested run passes through exactly the states of
  the run that lists the same operations one after the other, and `poolLts`
  allows every operation after every other.
-/
import RedisAgent.Lib.FifoLog
import RedisAgent.Lib.Runs
import RedisAgent.Pool.Ops

namespace RedisAgent

/-! ## §1. The environment of one server. -/

/-- Where the plugin stands with the connection of one slot. -/
inductive Conn
  /-- no connection and none being made -/
  | idle
  /-- `m_createCb` not answered yet -/
  | creating (h : Handle)
  /-- established -/
  | up (h : Handle)
  /-- reported destroyed while a sub-request holds it -/
  | lost (h : Handle)
  /-- `m_destroyCb` not answered yet -/
  | destroying (h : Handle)
  deriving Repr, DecidableEq

/-- The slot counts in `m_connectCount`. -/
def Conn.connected : Conn → Bool
  | .up _ | .lost _ | .destroying _ => true
  | .idle | .creating _ => false

@[simp] theorem Conn.connected_idle : Conn.idle.connected = false := rfl
@[simp] theorem Conn.connected_creating (h : Handle) : (Conn.creating h).connected = false := rfl
@[simp] theorem Conn.connected_up (h : Handle) : (Conn.up h).connected = true := rfl
@[simp] theorem Conn.connected_lost (h : Handle) : (Conn.lost h).connected = true := rfl
@[simp] theorem Conn.connected_destroying (h : Handle) : (Conn.destroying h).connected = true := rfl

/-- The history of one server: the plugin's side of every slot, the sub-request
callbacks each slot was handed to since it was last put back, and what happened
to the sub-requests. -/
structure Ghost (σ : Type*) where
  conn : Nat → Conn
  given : Nat → List (Handle × σ)
  hist : List (WaitEvent σ)

def Ghost.start {σ : Type*} : Ghost σ := ⟨fun _ => .idle, fun _ => [], []⟩

/-- A server in its environment. -/
structure Srv (σ : Type*) where
  info : ServerInfo σ
  ghost : Ghost σ

variable {σ : Type*}

/-- What the environment learns from one call of the pool. -/
def Ghost.absorb (g : Ghost σ) : Call σ → Ghost σ
  | .createCb h => { g with conn := Function.update g.conn h.poolData (.creating h) }
  | .destroyCb (some h) => { g with conn := Function.update g.conn h.poolData (.destroying h) }
  | .callback (some h) sub =>
      { g with
        given := Function.update g.given h.poolData (g.given h.poolData ++ [(h, sub)])
        hist := g.hist ++ [.called sub] }
  | _ => g

/-! ## §2. Operations on one server. -/

/-- An entry into the pool, as far as it concerns one server. -/
inductive SrvOp (σ : Type*)
  | fetch (sub : σ) (wq : Nat) (now : Timeval)
  | release (h : Handle) (errclose : Bool) (now : Timeval)
  | created (h : Handle) (status : Int) (now : Timeval)
  | destroyed (h : Handle)
  | waitRm (wq : Nat)
  | monitor
  | destroy

/-- The code an operation runs. -/
def SrvOp.code (pool : PoolConf) (s : ServerInfo σ) : SrvOp σ → Out σ
  | .fetch sub wq now => (serverFetchConnect pool s sub wq now).2
  | .release h errclose now => poolReleaseConnect pool s h errclose now
  | .created h status now => poolOnConnectCreated pool s h status now
  | .destroyed h => poolOnConnectDestroyed s h
  | .waitRm wq => poolWaitingQueueRm pool s wq
  | .monitor => serverConnectMonitor pool s
  | .destroy => serverDestroy pool s

/-- What the call itself tells about the environment: the plugin's answer, the
holder giving the connection up. -/
def SrvOp.enter (g : Ghost σ) : SrvOp σ → Ghost σ
  | .release h _ _ => { g with given := Function.update g.given h.poolData [] }
  | .created h status _ =>
      { g with conn := Function.update g.conn h.poolData (if status = 0 then .up h else .idle) }
  | .destroyed h =>
      { g with
        conn := Function.update g.conn h.poolData
          (if g.conn h.poolData = .up h ∧ g.given h.poolData ≠ [] then .lost h else .idle) }
  | _ => g

/-- What the operation did to the waiting queue, read off its result. -/
def SrvOp.leave (pool : PoolConf) (s : ServerInfo σ) (g : Ghost σ) : SrvOp σ → Ghost σ
  | .fetch sub wq now =>
      match (serverFetchConnect pool s sub wq now).1 with
      | some _ => { g with hist := g.hist ++ [.queued sub] }
      | none => g
  | .waitRm wq =>
      match s.waitSub wq with
      | some sub => { g with hist := g.hist ++ [.removed sub] }
      | none => g
  | _ => g

/-- One operation, with the history it leaves. -/
def Srv.exec (pool : PoolConf) (s : Srv σ) (op : SrvOp σ) : Srv σ where
  info := (op.code pool s.info).1
  ghost := op.leave pool s.info ((op.code pool s.info).2.foldl Ghost.absorb (op.enter s.ghost))

/-- What the plugin and the callers promise. -/
def Srv.Enabled (s : Srv σ) : SrvOp σ → Prop
  | .fetch sub wq _ => s.info.waitSub wq = none ∧ sub ∉ s.ghost.hist.map WaitEvent.sub
  | .release h _ _ => ∃ sub, (h, sub) ∈ s.ghost.given h.poolData
  | .created h _ _ => s.ghost.conn h.poolData = .creating h
  | .destroyed h => s.ghost.conn h.poolData = .up h ∨ s.ghost.conn h.poolData = .destroying h
  | .waitRm wq => s.info.waitSub wq ≠ none
  | .monitor => s.info.monitorEvent = true
  | .destroy => s.info.monitorEvent = true

/-- One server, up to its tear-down. -/
def srvLts (pool : PoolConf) (σ : Type*) : Lts (Srv σ) (SrvOp σ) where
  init s := s = ⟨serverBuild pool.connectPerServer, Ghost.start⟩
  step s op s' := s.info.freed = false ∧ s.Enabled op ∧ s' = s.exec pool op

/-! ## §3. The whole pool. -/

/-- A pool of `built` servers with their histories. -/
structure PoolState (σ : Type*) where
  pool : PoolInfo σ
  built : Nat
  ghost : Nat → Ghost σ

/-- Server `i` in its environment. -/
def PoolState.srv (p : PoolState σ) (i : Nat) : Srv σ := ⟨p.pool.serverArr i, p.ghost i⟩

/-- An entry into the pool. -/
inductive PoolOp (σ : Type*)
  | fetch (sub : σ) (wq : Nat) (now : Timeval) (balance : Nat → Int) (serverid : Int)
  | server (i : Nat) (op : SrvOp σ)
  | destroy

/-- The calls back into one server: everything but the two entries that choose
the server themselves. -/
def SrvOp.IsCallback : SrvOp σ → Prop
  | .fetch .. | .destroy => False
  | _ => True

/-- Run `op` at server `i`. -/
def PoolState.onServer (p : PoolState σ) (i : Nat) (op : SrvOp σ) : PoolState σ × Calls σ :=
  let r := p.pool.onServer i (op.code p.pool.conf (p.pool.serverArr i))
  ({ p with
      pool := r.1
      ghost := Function.update p.ghost i ((p.srv i).exec p.pool.conf op).ghost }, r.2)

/-- What the balancing loop of `pool_fetch_connect` does alone. -/
def PoolState.balanced (p : PoolState σ) : PoolState σ := { p with pool := p.pool.balanced }

/-- `pool_destroy` as a run of its loop body over the servers. -/
def PoolState.destroyAll (p : PoolState σ) : PoolState σ :=
  (List.range p.pool.serverCount.toNat).foldl (fun p i => (p.onServer i .destroy).1) p

/-- The state after one entry. -/
def PoolState.exec (p : PoolState σ) : PoolOp σ → PoolState σ
  | .fetch sub wq now balance serverid =>
      match p.pool.pickServer balance serverid with
      | some i => (p.onServer i (.fetch sub wq now)).1
      | none => p.balanced
  | .server i op => (p.onServer i op).1
  | .destroy => p.destroyAll

/-- Server `i` exists and is not torn down. -/
def PoolState.Live (p : PoolState σ) (i : Nat) : Prop :=
  i < p.built ∧ (p.pool.serverArr i).freed = false

/-- What the environment promises about a whole pool.  The balancer picks an
existing server; every `pool_fetch_connect` is for a new sub-request, as
`req_on_getshards` allocates one for each call. -/
def PoolState.Enabled (p : PoolState σ) : PoolOp σ → Prop
  | .fetch sub wq _ balance serverid =>
      ∀ i, p.pool.pickServer balance serverid = some i →
        p.Live i ∧ (p.pool.serverArr i).waitSub wq = none
          ∧ ∀ i, sub ∉ (p.ghost i).hist.map WaitEvent.sub
  | .server i op => op.IsCallback ∧ p.Live i ∧ (p.srv i).Enabled op
  | .destroy => p.pool.serverCount = p.built
      ∧ ∀ i, i < p.built → p.Live i ∧ (p.pool.serverArr i).monitorEvent = true

/-- What `pool_build` returns. -/
def PoolState.start (serverCount : Nat) (connectPerServer connectRetry : Int) : PoolState σ :=
  ⟨poolBuild serverCount connectPerServer connectRetry, serverCount, fun _ => Ghost.start⟩

/-- Every run of a pool from `pool_build` on. -/
def poolLts (σ : Type*) (serverCount : Nat) (connectPerServer connectRetry : Int) :
    Lts (PoolState σ) (PoolOp σ) where
  init p := p = PoolState.start serverCount connectPerServer connectRetry
  step p op p' := p.Enabled op ∧ p' = p.exec op

end RedisAgent
