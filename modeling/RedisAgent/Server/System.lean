/-
  RedisAgent.Server.System — client connections over requests over pools.

  server.cpp and connection.cpp (Conn.Replies) with req.cpp, router.cpp and pool.cpp
  (Req.Proxy) under them.  The two meet at two calls: `read_done_cb` gives a frame to
  `req_ready`, which sets `r->conn`, and `req_done` writes to `r->conn` and calls
  `server_process_done` on it.  A request may be answered inside the callback that read
  it, or in any later event.

  The plugin's part of a request is an input: what `backend_parse` and the checks of
  `req_process` make of a frame is the step `req` of `arrive`, and `writebuf r` is
  `r->writebuf` when `req_done(r)` runs.
-/
import RedisAgent.Conn.Replies
import RedisAgent.Req.Growth

namespace RedisAgent

variable {ν : Type*}

/-- The client connections that were ever accepted, and the requests.  `conn r` is
`r->conn`; `place r` says which frame of that connection the request was read from. -/
structure Server (ν : Type*) where
  proxy : Proxy ν
  clients : Nat → Option Client
  conn : Nat → Nat
  place : Nat → Nat

/-- A step of the server. -/
inductive ServerOp (ν : Type*)
  /-- `accept_cb` makes the connection `k` -/
  | accept (k : Nat)
  /-- bytes arrive at `k`; `req` is the `req_ready` of the frame they complete, if they do -/
  | arrive (k : Nat) (bytes : List UInt8) (req : ProxyStep ν)
  /-- `connection_event_cb` of `k` with an error -/
  | error (k : Nat)
  /-- a step of a request or a pool -/
  | proxy (l : ProxyStep ν)

namespace Server

variable (fmt : NsheadFormat) (writebuf : Nat → Option (List UInt8))

/-- `req_done(r)` works on its connection. -/
def reqDone (s : Server ν) (r : Nat) : Server ν :=
  match s.clients (s.conn r) with
  | none => s
  | some c =>
      { s with
        clients := Function.update s.clients (s.conn r)
          (some (c.exec fmt (.finish (writebuf r)))) }

/-- A step of a request or a pool, with every `req_done` in it. -/
def runProxy (s : Server ν) (l : ProxyStep ν) : Server ν :=
  let proxy := s.proxy.exec l
  (answeredBetween s.proxy.table.hist proxy.table.hist).foldl (reqDone fmt writebuf)
    { s with proxy := proxy }

/-- The state after one step. -/
def exec (s : Server ν) : ServerOp ν → Server ν
  | .accept k => { s with clients := Function.update s.clients k (some Client.accepted) }
  | .arrive k bytes req =>
      match s.clients k with
      | none => s
      | some c =>
          let c' := c.exec fmt (.arrive bytes)
          let s := { s with clients := Function.update s.clients k (some c') }
          if c'.active then
            let r := s.proxy.table.nextReq
            { s with
              conn := Function.update s.conn r k
              place := Function.update s.place r c.exchanges.length }.runProxy fmt writebuf req
          else s
  | .error k =>
      match s.clients k with
      | none => s
      | some c => { s with clients := Function.update s.clients k (some (c.exec fmt .error)) }
  | .proxy l => s.runProxy fmt writebuf l

/-- When a step can be taken.  libevent's callbacks run one after the other, and a frame
makes one request. -/
def Enabled (s : Server ν) : ServerOp ν → Prop
  | .accept k => s.proxy.Waiting ∧ s.clients k = none
  | .arrive k bytes req => s.proxy.Waiting ∧ ∃ c, s.clients k = some c ∧ c.Enabled (.arrive bytes)
      ∧ ((c.exec fmt (.arrive bytes)).active = true → req.Creates ∧ s.proxy.Enabled req)
  | .error k => s.proxy.Waiting ∧ ∃ c, s.clients k = some c ∧ c.Enabled .error
  | .proxy l => ¬ l.Creates ∧ s.proxy.Enabled l

/-- Nobody is connected. -/
def start (sizes : Nat → Proxy.PoolSize) : Server ν where
  proxy := Proxy.start sizes
  clients := fun _ => none
  conn := fun _ => 0
  place := fun _ => 0

end Server

/-- No statement has written through a null pointer. -/
structure Server.Alive (s : Server ν) : Prop where
  handler : s.proxy.table.handler ≠ .crashed
  clients : ∀ k c, s.clients k = some c → c.conn.faulted = false

/-- Every run of a server with the pools `sizes`, up to the step in which the process dies, if
there is one. -/
def serverLts (fmt : NsheadFormat) (writebuf : Nat → Option (List UInt8)) (ν : Type*)
    (sizes : Nat → Proxy.PoolSize) : Lts (Server ν) (ServerOp ν) where
  init s := s = Server.start sizes
  step s op s' := s.Alive ∧ s.Enabled fmt op ∧ s' = s.exec fmt writebuf op

end RedisAgent
