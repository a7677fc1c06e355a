/-
  RedisAgent.Event.Queue — the list between `event_trigger` and `custom_event_cb`.

  Any number of threads call `list_produce`, one thread calls `list_consume`.  The
  threads take turns statement by statement: `ProduceStmt` and `ConsumeStmt` name the
  statement a thread is about to run, and `TsList.exec` runs one.  What `malloc`
  returns, and what the block it returns holds, is an input of the step.

  A statement that reaches into a node that is not allocated has no result (`none`).
-/
import Mathlib.Logic.Function.Basic
import RedisAgent.Lib.Runs

namespace RedisAgent

/-- `(key, data)` -/
abbrev ListPair := UInt64 × Nat

/-- `ts_list_node_t` -/
structure TsListNode where
  next : Option Nat
  key : UInt64
  data : Nat
  isPlaceholder : Bool
  deriving Repr, DecidableEq

/-- The statements of `list_produce`, after `malloc`. -/
inductive ProduceStmt
  /-- `pthread_mutex_lock(&list_wlock);` -/
  | lock
  /-- `cur_tail = ts_list.tail;` -/
  | readTail
  /-- `cur_tail->key = key;` -/
  | setKey
  /-- `cur_tail->data = data;` -/
  | setData
  /-- `cur_tail->next = new_tail;` -/
  | setNext
  /-- `new_tail->next = NULL;` -/
  | newNext
  /-- `new_tail->is_placeholder = true;` -/
  | newPlaceholder
  /-- `cur_tail->is_placeholder = false;` -/
  | flip
  /-- `ts_list.tail = new_tail;` -/
  | setTail
  /-- `pthread_mutex_unlock(&list_wlock); return 0;` -/
  | unlock
  deriving Repr, DecidableEq

/-- A call of `list_produce`; `curTail` is set by `readTail`. -/
structure ProduceCall where
  key : UInt64
  data : Nat
  newTail : Nat
  curTail : Nat
  stmt : ProduceStmt
  deriving Repr, DecidableEq

/-- The statements of `list_consume`. -/
inductive ConsumeStmt
  /-- `if (ts_list.head->is_placeholder) return -1;` -/
  | check
  /-- `node = ts_list.head;` -/
  | readHead
  /-- `*key = node->key;` -/
  | readKey
  /-- `*data = node->data;` -/
  | readData
  /-- `ts_list.head = node->next;` -/
  | setHead
  /-- `free(node);` -/
  | free
  /-- `return 0;` -/
  | ret
  deriving Repr, DecidableEq

/-- The consumer; between two calls it is in front of `check`. -/
structure ConsumeCall where
  node : Nat
  key : UInt64
  data : Nat
  stmt : ConsumeStmt
  deriving Repr, DecidableEq

/-- The list, the lock and the threads.  The last three fields are what happened so
far: the pairs in the order in which their producers took the lock, those whose
`list_produce` has returned, and those `list_consume` has returned. -/
structure TsList where
  nodes : Nat → Option TsListNode
  head : Option Nat
  tail : Nat
  wlock : Option Nat
  producers : Nat → Option ProduceCall
  consumer : ConsumeCall
  produced : List ListPair
  finished : List ListPair
  consumed : List ListPair

namespace TsList

/-- A store to the node at `a`. -/
def store (s : TsList) (a : Nat) (f : TsListNode → TsListNode) : Option TsList :=
  (s.nodes a).map (fun n => { s with nodes := Function.update s.nodes a (some (f n)) })

/-- Producer `p` goes on to `stmt`. -/
def goto (s : TsList) (p : Nat) (c : ProduceCall) (stmt : ProduceStmt) : TsList :=
  { s with producers := Function.update s.producers p (some { c with stmt := stmt }) }

/-- The next statement of producer `p`, which is in the call `c`. -/
def produce (s : TsList) (p : Nat) (c : ProduceCall) : Option TsList :=
  match c.stmt with
  | .lock =>
      some ({ s with
        wlock := some p
        produced := s.produced ++ [(c.key, c.data)] }.goto p c .readTail)
  | .readTail => some (s.goto p { c with curTail := s.tail } .setKey)
  | .setKey =>
      (s.store c.curTail (fun n => { n with key := c.key })).map (fun s => s.goto p c .setData)
  | .setData =>
      (s.store c.curTail (fun n => { n with data := c.data })).map (fun s => s.goto p c .setNext)
  | .setNext =>
      (s.store c.curTail (fun n => { n with next := some c.newTail })).map
        (fun s => s.goto p c .newNext)
  | .newNext =>
      (s.store c.newTail (fun n => { n with next := none })).map
        (fun s => s.goto p c .newPlaceholder)
  | .newPlaceholder =>
      (s.store c.newTail (fun n => { n with isPlaceholder := true })).map
        (fun s => s.goto p c .flip)
  | .flip =>
      (s.store c.curTail (fun n => { n with isPlaceholder := false })).map
        (fun s => s.goto p c .setTail)
  | .setTail => some ({ s with tail := c.newTail }.goto p c .unlock)
  | .unlock =>
      some { s with
        wlock := none
        producers := Function.update s.producers p none
        finished := s.finished ++ [(c.key, c.data)] }

/-- The next statement of the consumer. -/
def consume (s : TsList) : Option TsList :=
  let c := s.consumer
  match c.stmt with
  | .check =>
      (s.head.bind s.nodes).map (fun n =>
        if n.isPlaceholder then s else { s with consumer := { c with stmt := .readHead } })
  | .readHead =>
      s.head.map (fun a => { s with consumer := { c with node := a, stmt := .readKey } })
  | .readKey =>
      (s.nodes c.node).map (fun n =>
        { s with consumer := { c with key := n.key, stmt := .readData } })
  | .readData =>
      (s.nodes c.node).map (fun n =>
        { s with consumer := { c with data := n.data, stmt := .setHead } })
  | .setHead =>
      (s.nodes c.node).map (fun n =>
        { s with head := n.next, consumer := { c with stmt := .free } })
  | .free =>
      (s.nodes c.node).map (fun _ =>
        { s with
          nodes := Function.update s.nodes c.node none
          consumer := { c with stmt := .ret } })
  | .ret =>
      some { s with
        consumed := s.consumed ++ [(c.key, c.data)]
        consumer := { c with stmt := .check } }

end TsList

/-- Who runs next. -/
inductive ListOp
  /-- producer `p` calls `list_produce(key, data)`, and `malloc` returns `new` -/
  | start (p : Nat) (key : UInt64) (data : Nat) (new : Option (Nat × TsListNode))
  /-- producer `p` runs a statement -/
  | produce (p : Nat)
  /-- the consumer runs a statement -/
  | consume

/-- One step; without memory `list_produce` returns -1 at once. -/
def TsList.exec (s : TsList) : ListOp → Option TsList
  | .start _ _ _ none => some s
  | .start p key data (some (a, raw)) =>
      some { s with
        nodes := Function.update s.nodes a (some raw)
        producers := Function.update s.producers p (some ⟨key, data, a, a, .lock⟩) }
  | .produce p => (s.producers p).bind (fun c => s.produce p c)
  | .consume => s.consume

/-- When a step may come: `malloc` returns a block that is not in use, and the lock
lets one producer in at a time. -/
def TsList.Enabled (s : TsList) : ListOp → Prop
  | .start p _ _ new => s.producers p = none ∧ ∀ x ∈ new, s.nodes x.1 = none
  | .produce p => ∃ c, s.producers p = some c ∧ (c.stmt = .lock → s.wlock = none)
  | .consume => True

/-- `list_init`: a placeholder at `a` is all there is. -/
structure TsList.Initial (s : TsList) (a : Nat) : Prop where
  nodes : ∃ n : TsListNode, n.isPlaceholder = true ∧ n.next = none
    ∧ s.nodes = Function.update (fun _ => none) a (some n)
  head : s.head = some a
  tail : s.tail = a
  wlock : s.wlock = none
  producers : s.producers = fun _ => none
  consumer : s.consumer.stmt = .check
  produced : s.produced = []
  finished : s.finished = []
  consumed : s.consumed = []

/-- Every interleaving. -/
def listLts : Lts TsList ListOp where
  init s := ∃ a, s.Initial a
  step s op s' := s.Enabled op ∧ s.exec op = some s'

end RedisAgent
