/-
  RedisAgent.Req.Invariant — the invariant of the request table.

  The history says where every request and sub-request stands (`reqFate`,
  `fate`).  `TableInv t L v hole owed` says that the memory agrees with it:

    • `L r` is the list of request `r`;
    • `v` is what the requests see of the pools: who waits at a node, and who was
      given the connection of a slot;
    • `hole` is a sub-request in the hands of pool.cpp, neither waiting at a node
      nor given a connection;
    • `owed` is a request whose `shard_count` is about to go down by one.

  The counter is the point: as long as its time is not over, `shard_count` of a
  request is the number of listed sub-requests that `req_on_shard_done` has not
  been called for, plus the calls of it that have not returned, plus what
  `router_acquire_shards` still has to do, and it is not zero.
-/
import RedisAgent.Lib.ListFamily
import RedisAgent.Req.Table

namespace RedisAgent

open Links

variable {ν : Type*}

/-! ## §1. Reading the history. -/

/-- Where the sub-requests stand. -/
def ReqTable.fate (t : ReqTable ν) : Nat → Option (Nat × Fate) := subLife.life t.hist

/-- Where the requests stand. -/
def ReqTable.reqFate (t : ReqTable ν) : Nat → ReqFate := reqLife.life t.hist

/-- `hist'` goes on from `hist` and moves sub-request `x` to `f`, and nothing else. -/
structure Moves (hist hist' : List Event) (x : Nat) (f : Option (Nat × Fate)) : Prop where
  fate : subLife.life hist' = Function.update (subLife.life hist) x f
  lawful : subLife.Lawful hist'
  reqFate : reqLife.life hist' = reqLife.life hist
  reqLawful : reqLife.Lawful hist'

/-- Nobody has moved. -/
theorem Moves.refl {hist : List Event} (h : subLife.Lawful hist) (hr : reqLife.Lawful hist)
    (x : Nat) : Moves hist hist x (subLife.life hist x) :=
  ⟨by rw [Function.update_eq_self], h, rfl, hr⟩

/-- One more event about the same sub-request. -/
theorem Moves.step {hist hist' : List Event} {x : Nat} {f f' : Option (Nat × Fate)} {e : Event}
    (h : Moves hist hist' x f) (he : subLife.about e = some x) (hr : reqLife.about e = none)
    (hf : subNext f e = some f') : Moves hist (hist' ++ [e]) x f' := by
  have hnext : subLife.next (subLife.life hist' x) e = some f' := by
    rw [h.fate, Function.update_self]
    exact hf
  refine ⟨?_, h.lawful.step he hnext, ?_, h.reqLawful.other hr⟩
  · rw [LifeRule.life_append he hnext, h.fate, Function.update_idem]
  · rw [LifeRule.life_append_other hr, h.reqFate]

/-- An event about nobody. -/
theorem Moves.other {hist hist' : List Event} {x : Nat} {f : Option (Nat × Fate)} {e : Event}
    (h : Moves hist hist' x f) (he : subLife.about e = none) (hr : reqLife.about e = none) :
    Moves hist (hist' ++ [e]) x f := by
  refine ⟨?_, h.lawful.other he, ?_, h.reqLawful.other hr⟩
  · rw [LifeRule.life_append_other he, h.fate]
  · rw [LifeRule.life_append_other hr, h.reqFate]

/-! ## §2. The invariant. -/

/-- A slot of some server of some pool. -/
structure Slot where
  pool : Nat
  server : Nat
  slot : Nat
  deriving DecidableEq

def ConnRef.slot (c : ConnRef) : Slot := ⟨c.pool, c.server, c.handle.poolData⟩

/-- What the requests see of the pools. -/
structure View where
  wait : WaitNode → Option Nat
  given : Slot → List (Handle × Nat)

/-- What is in memory of sub-request `x` of request `r` at each fate. -/
inductive SubAt (o : Option (SubReq ν)) (v : View) (r x : Nat) : Fate → Prop
  | waiting (sr : SubReq ν) (n : WaitNode) : o = some sr → sr.r = r →
      sr.state = .beforeRequestPool → sr.poolWaitingNode = some n → v.wait n = some x →
      SubAt o v r x .waiting
  | failed (sr : SubReq ν) : o = some sr → sr.r = r → sr.state = .beforeRequestPool →
      sr.poolWaitingNode = none → SubAt o v r x .failed
  | held (sr : SubReq ν) (c : ConnRef) : o = some sr → sr.r = r → sr.state = .poolReturned →
      sr.handle = some c → (c.handle, x) ∈ v.given c.slot → SubAt o v r x (.held (some c))
  | refused (sr : SubReq ν) (c : ConnRef) : o = some sr → sr.r = r →
      sr.state = .backendReturned → SubAt o v r x (.refused (some c))
  | finished (c : ConnRef) : (∀ sr, o = some sr → sr.r = r ∧ sr.state = .backendReturned) →
      SubAt o v r x (.finished c)
  | removed : o = none → SubAt o v r x .removed

/-- Nothing more will happen to it. -/
def Fate.Settled : Fate → Prop
  | .failed | .refused (some _) | .finished _ | .removed => True
  | _ => False

/-- Sub-request `x`. -/
inductive SubInv (t : ReqTable ν) (L : Nat → List Nat) (v : View) (hole : Option Nat) (x : Nat) :
    Prop
  | unborn : t.fate x = none → t.subs x = none → (∀ r, x ∉ L r) → SubInv t L v hole x
  /-- its request has been answered -/
  | gone (r : Nat) (f : Fate) (late : Bool) : t.fate x = some (r, f) → t.reqs r = none →
      t.reqFate r = .answered late → t.subs x = none → (∀ r', x ∉ L r') → f.Settled →
      (late = false → f.Complete) → SubInv t L v hole x
  | alive (r : Nat) (f : Fate) (q : Req) : t.fate x = some (r, f) → t.reqs r = some q →
      (hole ≠ some x → SubAt (t.subs x) v r x f) → (∀ r', x ∈ L r' → r' = r ∧ f.Listed) →
      (f.Listed → x ∈ L r ∨ (q.timeout = true ∧ (f.Pending → t.handler = .backendTimeout r x))) →
      (f = .removed → q.timeout = true) → SubInv t L v hole x

/-- `req_timeout` of `r` is running, or has crashed. -/
def Handler.Cleans (r : Nat) : Handler ν → Prop
  | .timeoutCleanup r' | .backendTimeout r' _ => r' = r
  | .crashed => True
  | _ => False

/-- What `router_acquire_shards` has left to do for `r`. -/
def Handler.todo (r : Nat) : Handler ν → Nat
  | .acquireShards r' todo => if r' = r then todo.length else 0
  | _ => 0

def CallFrame.isShardDoneOf (r : Nat) : CallFrame → Bool
  | .shardDone r' _ => r' = r
  | .backendCall _ => false

/-- How many `req_on_shard_done(r, ..)` are inside `pool_release_connect`. -/
def ReqTable.halfDone (t : ReqTable ν) (r : Nat) : Nat := t.stack.countP (CallFrame.isShardDoneOf r)

/-- `req_on_shard_done` has not been called for a sub-request that stands here. -/
def isCounted : Option (Nat × Fate) → Bool
  | some (_, f) => f.Counted
  | none => false

/-- What `shard_count` of `r` should be. -/
def ReqTable.expected (t : ReqTable ν) (L : Nat → List Nat) (owed : Option Nat) (r : Nat) : Nat :=
  (L r).countP (fun x => isCounted (t.fate x)) + t.halfDone r + t.handler.todo r
    + (if owed = some r then 1 else 0)

/-- Request `r`. -/
inductive ReqInv (t : ReqTable ν) (L : Nat → List Nat) (owed : Option Nat) (r : Nat) : Prop
  | gone : t.reqs r = none → t.handler.todo r = 0 → t.halfDone r = 0 →
      (t.reqFate r = .unborn ∨ ∃ late, t.reqFate r = .answered late) → ReqInv t L owed r
  | running (q : Req) : t.reqs r = some q → q.reqDoneCalled = false → q.timeoutEvent = true →
      q.timeout = false → t.reqFate r = .running → q.shardCount = t.expected L owed r →
      0 < q.shardCount → ReqInv t L owed r
  | late (q : Req) : t.reqs r = some q → q.reqDoneCalled = false → q.timeout = true →
      t.reqFate r = .late → t.handler.Cleans r → ReqInv t L owed r

/-- The head pointers of the lists. -/
def ReqTable.heads (t : ReqTable ν) (r : Nat) : Option (Option Nat) :=
  (t.reqs r).map Req.subReqNotDone

/-- The handler works on a request that is there. -/
def HandlerInv (t : ReqTable ν) (L : Nat → List Nat) : Handler ν → Prop
  | .acquireShards r todo => (todo = [] ∨ ∃ l c, todo = l ++ [.call c])
      ∧ (todo ≠ [] → ∃ q, t.reqs r = some q ∧ q.timeout = false)
  | .timeoutCleanup r => ∃ q, t.reqs r = some q ∧ q.timeout = true
  | .backendTimeout r x => (∃ q, t.reqs r = some q ∧ q.timeout = true) ∧ Stale t.links L r x
  | _ => True

def Event.isIssued (r : Nat) : Event → Bool
  | .issued r' _ => r' = r
  | _ => false

def Event.isPopped (r : Nat) : Event → Bool
  | .popped r' _ => r' = r
  | _ => false

/-- The invariant; see the head of the file. -/
structure TableInv (t : ReqTable ν) (L : Nat → List Nat) (v : View) (hole owed : Option Nat) :
    Prop where
  lists : Family t.heads t.links L
  sub : ∀ x, SubInv t L v hole x
  req : ∀ r, ReqInv t L owed r
  inHand : ∀ x, hole = some x → ∃ r sr, t.fate x = some (r, .waiting) ∧ t.subs x = some sr
    ∧ sr.r = r ∧ sr.state = .beforeRequestPool
  waits : ∀ n x, v.wait n = some x → hole ≠ some x
    ∧ ∃ r sr, t.fate x = some (r, .waiting) ∧ t.subs x = some sr ∧ sr.poolWaitingNode = some n
  frames : ∀ r x, .shardDone r x ∈ t.stack → ∃ c, t.fate x = some (r, .finished c)
  handler : HandlerInv t L t.handler
  lawful : subLife.Lawful t.hist
  reqLawful : reqLife.Lawful t.hist
  subFresh : ∀ x, t.fate x = none ↔ t.nextSub ≤ x
  reqFresh : ∀ r, t.reqFate r = .unborn ↔ t.nextReq ≤ r
  passes : ∀ r, t.hist.countP (Event.isPopped r) + (L r).length ≤ t.hist.countP (Event.isIssued r)

variable {t t' : ReqTable ν} {L L' : Nat → List Nat} {v v' : View}
  {hole hole' owed owed' : Option Nat}

/-! ## §3. What a change elsewhere leaves alone. -/

theorem SubAt.congr {o o' : Option (SubReq ν)} {r x : Nat} {f : Fate} (h : SubAt o v r x f)
    (ho : o' = o) (hw : ∀ n, v.wait n = some x → v'.wait n = some x)
    (hg : ∀ c hd, (hd, x) ∈ v.given c → (hd, x) ∈ v'.given c) : SubAt o' v' r x f := by
  subst ho
  cases h with
  | waiting sr n h1 h2 h3 h4 h5 => exact .waiting sr n h1 h2 h3 h4 (hw n h5)
  | failed sr h1 h2 h3 h4 => exact .failed sr h1 h2 h3 h4
  | held sr c h1 h2 h3 h4 h5 => exact .held sr c h1 h2 h3 h4 (hg _ _ h5)
  | refused sr c h1 h2 h3 => exact .refused sr c h1 h2 h3
  | finished c h1 => exact .finished c h1
  | removed h1 => exact .removed h1

/-- A sub-request that nothing was done to. -/
theorem SubInv.congr {x : Nat} (h : SubInv t L v hole x) (hf : t'.fate x = t.fate x)
    (hs : t'.subs x = t.subs x)
    (hr : ∀ r f, t.fate x = some (r, f) →
      (t'.reqs r).map Req.timeout = (t.reqs r).map Req.timeout ∧ t'.reqFate r = t.reqFate r)
    (hL : ∀ r, x ∈ L' r ↔ x ∈ L r) (hw : ∀ n, v.wait n = some x → v'.wait n = some x)
    (hg : ∀ c hd, (hd, x) ∈ v.given c → (hd, x) ∈ v'.given c)
    (hh : ∀ r, t.handler = .backendTimeout r x → t'.handler = .backendTimeout r x)
    (hhole : hole = some x → hole' = some x) : SubInv t' L' v' hole' x := by
  cases h with
  | unborn h1 h2 h3 =>
      exact .unborn (hf.trans h1) (hs.trans h2) (fun r hm => h3 r ((hL r).1 hm))
  | gone r f late h1 h2 h3 h4 h5 h6 h7 =>
      obtain ⟨hreq, hfate⟩ := hr r f h1
      rw [h2, Option.map_none, Option.map_eq_none_iff] at hreq
      exact .gone r f late (hf.trans h1) hreq (hfate.trans h3) (hs.trans h4)
        (fun r' hm => h5 r' ((hL r').1 hm)) h6 h7
  | alive r f q h1 h2 h3 h4 h5 h6 =>
      obtain ⟨hreq, -⟩ := hr r f h1
      rw [h2, Option.map_some] at hreq
      obtain ⟨q', hq', htime⟩ := Option.map_eq_some_iff.1 hreq
      refine .alive r f q' (hf.trans h1) hq' ?_ (fun r' hm => h4 r' ((hL r').1 hm)) ?_
        (fun heq => htime.trans (h6 heq))
      · intro hne
        exact (h3 (fun heq => hne (hhole heq))).congr hs hw hg
      · intro hlisted
        rcases h5 hlisted with hm | ⟨hlate, hpending⟩
        · exact Or.inl ((hL r).2 hm)
        · exact Or.inr ⟨htime.trans hlate, fun hp => hh r (hpending hp)⟩

/-- A request that nothing was done to. -/
theorem ReqInv.congr {r : Nat} (h : ReqInv t L owed r) (hr : t'.reqs r = t.reqs r)
    (hf : t'.reqFate r = t.reqFate r) (hL : L' r = L r)
    (hc : ∀ x ∈ L r, isCounted (t'.fate x) = isCounted (t.fate x))
    (htodo : t'.handler.todo r = t.handler.todo r) (hhalf : t'.halfDone r = t.halfDone r)
    (howed : owed' = some r ↔ owed = some r) (hh : t.handler.Cleans r → t'.handler.Cleans r) :
    ReqInv t' L' owed' r := by
  have hexp : t'.expected L' owed' r = t.expected L owed r := by
    unfold ReqTable.expected
    rw [hL, htodo, hhalf, List.countP_congr (fun x hx => by rw [hc x hx])]
    simp only [howed]
  cases h with
  | gone h1 h2 h3 h4 =>
      exact .gone (hr.trans h1) (htodo.trans h2) (hhalf.trans h3) (by rw [hf]; exact h4)
  | running q h1 h2 h3 h4 h5 h6 h7 =>
      exact .running q (hr.trans h1) h2 h3 h4 (hf.trans h5) (by rw [hexp]; exact h6) h7
  | late q h1 h2 h3 h4 h5 => exact .late q (hr.trans h1) h2 h3 (hf.trans h4) (hh h5)

end RedisAgent
