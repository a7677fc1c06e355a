/-
  RedisAgent.Req.SubMoves — the functions of req.cpp that work on one sub-request.

  Each is an instance of `TableInv.move`.  A sub-request goes from hand to hand:
  `issue` puts it into the pool's hand, `queue` leaves it at a node, `take` takes it
  from there, `grant` gives it a connection.
-/
import RedisAgent.Lib.Counting
import RedisAgent.Req.Rules

namespace RedisAgent

open Links

variable {ν : Type*} {t t' : ReqTable ν} {L L' : Nat → List Nat} {v v' : View}
  {hole hole' owed owed' : Option Nat}

/-! ## §1. Getting a connection. -/

/-- **`req_on_getshards` makes a sub-request.** -/
theorem TableInv.issue {r : Nat} {q : Req} {todo : List (ShardEvent ν Nat)}
    (h : TableInv t L v none (some r)) (c : ShardCall ν Nat) (hr : t.reqs r = some q)
    (ht : q.timeout = false) (hh : t.handler = .acquireShards r todo) :
    TableInv (t.issue r q c) (Function.update L r (t.nextSub :: L r)) v (some t.nextSub) none := by
  have hfresh : t.fate t.nextSub = none := (h.subFresh _).2 (Nat.le_refl _)
  have hmoves : Moves t.hist (t.hist ++ [.issued r t.nextSub]) t.nextSub
      (some (r, .waiting)) :=
    (h.still hfresh).step rfl rfl rfl
  have hlists := h.lists.push (heads_of hr) h.nextSub_off
  obtain ⟨-, -, -, hcount, hpos⟩ := h.running hr ht
  refine h.move
    { req := hr
      reqs := rfl
      timeout := rfl
      called := rfl
      timeoutEvent := rfl
      moves := hmoves
      nextReq := rfl
      nextSub := ?_
      born := Nat.lt_succ_self _
      subs := fun y hy => Function.update_of_ne hy _ _
      lists := by rw [heads_update rfl]; exact hlists
      onList := ?_
      otherLists := fun r' hrr => Function.update_of_ne hrr _ _
      wait := fun _ _ _ => Iff.rfl
      given := fun _ _ _ _ hm => hm
      holeBefore := Or.inl rfl
      holeAfter := Or.inr rfl
      inMemory := fun hne => absurd rfl hne
      ownList := ?_
      listed := fun _ => Or.inl (by rw [Function.update_self]; exact List.mem_cons_self)
      removed := fun hf => nomatch hf
      inHand := fun _ => ⟨rfl, _, Function.update_self .., rfl, rfl⟩
      waits := ?_
      owes := ?_
      todo := fun _ _ => rfl
      halfDone := fun _ _ => rfl
      cleans := fun _ hc => hc
      inTimeout := fun _ _ _ hb => hb
      frames := ?_
      handler := ?_
      count := fun _ => ⟨?_, hpos⟩
      passes := ?_ }
  · intro y hy
    show t.nextSub + 1 ≤ y ↔ t.nextSub ≤ y
    omega
  · intro r' y hy
    by_cases hrr : r' = r
    · rw [hrr, Function.update_self, List.mem_cons]
      exact ⟨fun hm => hm.resolve_left hy, Or.inr⟩
    · rw [Function.update_of_ne hrr]
  · intro r' hm
    by_cases hrr : r' = r
    · exact ⟨hrr, trivial⟩
    · rw [Function.update_of_ne hrr] at hm
      exact absurd hm (h.nextSub_off r')
  · intro n hn
    obtain ⟨-, r', sr, hf, -⟩ := h.waits n _ hn
    rw [hfresh] at hf
    cases hf
  · intro r' hrr
    constructor
    · intro heq
      cases heq
    · intro heq
      exact absurd (Option.some.inj heq).symm hrr
  · intro r' y hy
    refine Or.inl ⟨?_, hy⟩
    intro heq
    obtain ⟨c, hf⟩ := h.frames r' y hy
    rw [heq, hfresh] at hf
    cases hf
  · have hinv := h.handler
    rw [hh] at hinv
    show HandlerInv (t.issue r q c) _ t.handler
    rw [hh]
    exact ⟨hinv.1, fun _ => ⟨_, Function.update_self .., ht⟩⟩
  · have hfate : (t.issue r q c).fate
        = Function.update t.fate t.nextSub (some (r, .waiting)) := hmoves.fate
    have hold := countP_update_of_notMem (h.nextSub_off r) t.fate (some (r, .waiting)) isCounted
    show q.shardCount = _
    rw [hcount]
    unfold ReqTable.expected
    rw [Function.update_self, hfate, List.countP_cons, hold, Function.update_self, if_pos rfl]
    show _ = (((L r).countP (fun i => isCounted (t.fate i)) + 1 + t.halfDone r
      + t.handler.todo r + 0 : Nat) : Int)
    push_cast
    omega
  · intro r'
    have hp := h.passes r'
    show (t.hist ++ [Event.issued r t.nextSub]).countP (Event.isPopped r') + _
      ≤ (t.hist ++ [Event.issued r t.nextSub]).countP (Event.isIssued r')
    rw [List.countP_append, List.countP_append, List.countP_singleton, List.countP_singleton]
    by_cases hrr : r' = r
    · subst hrr
      rw [Function.update_self, List.length_cons]
      simp only [Event.isPopped, Event.isIssued, decide_true, if_true, Bool.false_eq_true, if_false]
      omega
    · rw [Function.update_of_ne hrr]
      simp only [Event.isPopped, Bool.false_eq_true, if_false]
      omega

/-- A listed sub-request that moves to a fate that counts alike. -/
theorem expected_same (t' : ReqTable ν) {x r : Nat} {f₀ f : Fate} {l : List Nat} (hnd : l.Nodup)
    (hf₀ : t.fate x = some (r, f₀)) (hfate : t'.fate = Function.update t.fate x (some (r, f)))
    (hsame : f.Counted ↔ f₀.Counted) :
    l.countP (fun y => isCounted (t'.fate y)) = l.countP (fun y => isCounted (t.fate y)) := by
  rw [hfate]
  by_cases hx : x ∈ l
  · have hc := countP_update hnd hx t.fate (some (r, f)) isCounted
    rw [hf₀] at hc
    have heq : isCounted (some (r, f)) = isCounted (some (r, f₀)) := by
      simp only [isCounted, hsame]
    rw [heq] at hc
    omega
  · exact countP_update_of_notMem hx t.fate (some (r, f)) isCounted

/-- **A waiting sub-request is taken from its node** into the pool's hands. -/
theorem TableInv.take (h : TableInv t L v none owed) {x : Nat} {n : WaitNode}
    (hn : v.wait n = some x) :
    TableInv t L { v with wait := Function.update v.wait n none } (some x) owed := by
  obtain ⟨-, r, sr, hf, hs, hnode⟩ := h.waits n x hn
  obtain ⟨q, hr⟩ := h.req_of_unsettled hf (fun hset => hset)
  obtain ⟨hat, -⟩ := h.alive hf hr
  have hmoves : Moves t.hist t.hist x (some (r, .waiting)) := h.still hf
  refine h.moveInPlace hf hr (by rw [← hr, Function.update_eq_self]) ⟨rfl, rfl, rfl, rfl⟩ hmoves
    ⟨rfl, rfl⟩ (fun _ _ => rfl) ⟨rfl, rfl⟩ ?_ (fun _ _ _ _ hm => hm) ⟨Or.inl rfl, Or.inr rfl⟩
    (fun hne => absurd rfl hne) Iff.rfl (fun hp => hp) (fun _ hc => by cases hc) (fun hf => by cases hf) ?_ ?_
    ?_ (fun _ _ hm => hm) (fun _ _ => rfl) ?_ (fun _ => ⟨rfl, rfl⟩)
  · intro m y hy
    show Function.update v.wait n none m = some y ↔ _
    by_cases hmn : m = n
    · rw [hmn, Function.update_self, hn]
      constructor
      · intro heq
        cases heq
      · intro heq
        exact absurd (Option.some.inj heq).symm hy
    · rw [Function.update_of_ne hmn]
  · intro _
    cases hat (fun hc => by cases hc) with
    | waiting sr' n' h1 h2 h3 _ _ => exact ⟨rfl, sr', h1, h2, h3⟩
  · intro m hm
    have hm' : Function.update v.wait n none m = some x := hm
    by_cases hmn : m = n
    · rw [hmn, Function.update_self] at hm'
      cases hm'
    · -- no other node holds it
      rw [Function.update_of_ne hmn] at hm'
      obtain ⟨-, r', sr', -, hs', hnode'⟩ := h.waits m x hm'
      rw [hs] at hs'
      cases hs'
      rw [hnode] at hnode'
      exact absurd (Option.some.inj hnode').symm hmn
  · intro r' _
    exact Iff.rfl
  · intro ht
    obtain ⟨-, -, -, hcount, hpos⟩ := h.running hr ht
    exact ⟨hcount, hpos⟩

/-- The node a sub-request waits at is written. -/
theorem TableInv.modNode {x : Nat} (h : TableInv t L v (some x) owed) (node : Option WaitNode) :
    TableInv (t.modSub x fun sr => { sr with poolWaitingNode := node }) L v (some x) owed := by
  obtain ⟨r, q, sr, hf, hr, hs, hsr, hstate⟩ := h.hand
  have hmoves : Moves t.hist t.hist x (some (r, .waiting)) := h.still hf
  have hsub : (t.modSub x fun sr => { sr with poolWaitingNode := node }).subs x
      = some { sr with poolWaitingNode := node } := by
    show Function.update t.subs x ((t.subs x).map _) x = _
    rw [Function.update_self, hs]
    rfl
  refine h.moveInPlace hf hr (by rw [← hr, Function.update_eq_self]; rfl) ⟨rfl, rfl, rfl, rfl⟩
    hmoves ⟨rfl, rfl⟩ (fun y hy => Function.update_of_ne hy _ _) ⟨rfl, rfl⟩
    (fun _ _ _ => Iff.rfl) (fun _ _ _ _ hm => hm) ⟨Or.inr rfl, Or.inr rfl⟩
    (fun hne => absurd rfl hne) Iff.rfl (fun hp => hp) (fun _ hc => by cases hc) (fun hf => nomatch hf)
    (fun _ => ⟨rfl, _, hsub, hsr, hstate⟩) (fun n hn => absurd hn (h.hand_off n))
    (fun _ _ => Iff.rfl) (fun _ _ hm => hm) (fun _ _ => rfl) ?_ (fun _ => ⟨rfl, rfl⟩)
  intro ht
  obtain ⟨-, -, -, hcount, hpos⟩ := h.running hr ht
  exact ⟨hcount, hpos⟩

/-- **The sub-request in hand joins a waiting queue.** -/
theorem TableInv.queue {x : Nat} (h : TableInv t L v (some x) owed) {n : WaitNode}
    {sr : SubReq ν} (hs : t.subs x = some sr) (hnode : sr.poolWaitingNode = some n)
    (hn : v.wait n = none) :
    TableInv t L { v with wait := Function.update v.wait n (some x) } none owed := by
  obtain ⟨r, q, sr', hf, hr, hs', hsr, hstate⟩ := h.hand
  rw [hs] at hs'
  cases hs'
  have hmoves : Moves t.hist t.hist x (some (r, .waiting)) := h.still hf
  refine h.moveInPlace hf hr (by rw [← hr, Function.update_eq_self]) ⟨rfl, rfl, rfl, rfl⟩ hmoves
    ⟨rfl, rfl⟩ (fun _ _ => rfl) ⟨rfl, rfl⟩ ?_ (fun _ _ _ _ hm => hm) ⟨Or.inr rfl, Or.inl rfl⟩
    (fun _ => .waiting sr n hs hsr hstate hnode (Function.update_self ..)) Iff.rfl
    (fun hp => hp) (fun _ hc => by cases hc) (fun hf => by cases hf) (fun hne => by cases hne) ?_ (fun _ _ => Iff.rfl)
    (fun _ _ hm => hm) (fun _ _ => rfl) ?_ (fun _ => ⟨rfl, rfl⟩)
  · intro m y hy
    show Function.update v.wait n (some x) m = some y ↔ _
    by_cases hmn : m = n
    · rw [hmn, Function.update_self, hn]
      constructor
      · intro heq
        exact absurd (Option.some.inj heq).symm hy
      · intro heq
        cases heq
    · rw [Function.update_of_ne hmn]
  · intro m hm
    have hm' : Function.update v.wait n (some x) m = some x := hm
    by_cases hmn : m = n
    · exact ⟨fun hc => (by cases hc), rfl, sr, hs, by rw [hnode, hmn]⟩
    · rw [Function.update_of_ne hmn] at hm'
      exact absurd hm' (h.hand_off m)
  · intro ht
    obtain ⟨-, -, -, hcount, hpos⟩ := h.running hr ht
    exact ⟨hcount, hpos⟩

/-- **The sub-request in hand is given a connection.** -/
theorem TableInv.grant {x : Nat} (h : TableInv t L v (some x) owed) (c : ConnRef)
    (hc : v.given c.slot = []) :
    TableInv (t.reqOnAcquired (some c) x) L
      { v with given := Function.update v.given c.slot [(c.handle, x)] } none owed := by
  obtain ⟨r, q, sr, hf, hr, hs, hsr, hstate⟩ := h.hand
  have hmoves : Moves t.hist (t.hist ++ [.acquired x (some c)]) x (some (r, .held (some c))) :=
    (h.still hf).step rfl rfl rfl
  have hsub : (t.reqOnAcquired (some c) x).subs x
      = some { sr with handle := some c, state := .poolReturned } := by
    show Function.update t.subs x ((t.subs x).map _) x = _
    rw [Function.update_self, hs]
    rfl
  have hmem : (c.handle, x) ∈ Function.update v.given c.slot [(c.handle, x)] c.slot := by
    rw [Function.update_self]
    exact List.mem_cons_self
  refine h.moveInPlace hf hr (by rw [← hr, Function.update_eq_self]; rfl) ⟨rfl, rfl, rfl, rfl⟩
    hmoves ⟨rfl, rfl⟩ (fun y hy => Function.update_of_ne hy _ _) ⟨rfl, rfl⟩
    (fun _ _ _ => Iff.rfl) ?_ ⟨Or.inr rfl, Or.inl rfl⟩
    (fun _ => .held _ c hsub hsr rfl rfl hmem) Iff.rfl (fun _ => trivial)
    (fun _ hc => by cases hc) (fun hf => by cases hf) (fun hne => by cases hne) (fun n hn => absurd hn (h.hand_off n))
    (fun _ _ => Iff.rfl) ?_ ?_ ?_ ?_
  · intro slot hd y _ hm
    show (hd, y) ∈ Function.update v.given c.slot _ slot
    by_cases hslot : slot = c.slot
    · rw [hslot, hc] at hm
      cases hm
    · rw [Function.update_of_ne hslot]
      exact hm
  · intro r' y hy
    rcases List.mem_cons.1 hy with heq | hold
    · cases heq
    · exact hold
  · intro r' _
    show (CallFrame.backendCall x :: t.stack).countP _ = _
    rw [List.countP_cons]
    rfl
  · intro ht
    obtain ⟨-, -, -, hcount, hpos⟩ := h.running hr ht
    refine ⟨?_, hpos⟩
    rw [hcount]
    unfold ReqTable.expected
    rw [expected_same (t.reqOnAcquired (some c) x) (h.nodup hr) hf hmoves.fate Iff.rfl]
    rfl
  · intro r'
    show (t.hist ++ [Event.acquired x (some c)]).countP (Event.isPopped r') = _
      ∧ (t.hist ++ [Event.acquired x (some c)]).countP (Event.isIssued r') = _
    rw [List.countP_append, List.countP_append]
    exact ⟨rfl, rfl⟩

/-- **`pool_fetch_connect` has failed**: the sub-request stays on the list, and the
counter is about to go down. -/
theorem TableInv.fetchFailed {x r : Nat} {q : Req} {sr : SubReq ν}
    (h : TableInv t L v (some x) none) (err : Int) (hr : t.reqs r = some q) (ht : q.timeout = false)
    (hs : t.subs x = some sr) (hsr : sr.r = r) (hnode : sr.poolWaitingNode = none) :
    TableInv ((t.modReq r fun q => { q with errNo := err }).note (.fetchFailed r x)) L v none
      (some r) := by
  obtain ⟨r', q', sr', hf, hr', hs', hsr', hstate⟩ := h.hand
  rw [hs] at hs'
  cases hs'
  obtain rfl : r = r' := hsr.symm.trans hsr'
  obtain ⟨-, -, hlist, -⟩ := h.alive hf hr
  have hmoves : Moves t.hist (t.hist ++ [.fetchFailed r x]) x (some (r, .failed)) := by
    refine (h.still hf).step rfl rfl ?_
    show (if r = r then _ else _) = _
    rw [if_pos rfl]
  have hreqs : ((t.modReq r fun q => { q with errNo := err }).note (.fetchFailed r x)).reqs
      = Function.update t.reqs r (some { q with errNo := err }) := by
    show Function.update t.reqs r ((t.reqs r).map _) = _
    rw [hr]
    rfl
  refine h.moveInPlace hf hr hreqs ⟨rfl, rfl, rfl, rfl⟩ hmoves ⟨rfl, rfl⟩ (fun _ _ => rfl)
    ⟨rfl, rfl⟩ (fun _ _ _ => Iff.rfl) (fun _ _ _ _ hm => hm) ⟨Or.inr rfl, Or.inl rfl⟩
    (fun _ => .failed sr hs hsr hstate hnode) Iff.rfl (fun hp => hp.elim)
    (fun _ hc => by cases hc) (fun hf => by cases hf) (fun hne => by cases hne) (fun n hn => absurd hn (h.hand_off n))
    ?_ (fun _ _ hm => hm) (fun _ _ => rfl) ?_ ?_
  · intro r' hrr
    constructor
    · intro heq
      exact absurd (Option.some.inj heq).symm hrr
    · intro heq
      cases heq
  · intro _
    obtain ⟨-, -, -, hcount, hpos⟩ := h.running hr ht
    refine ⟨?_, hpos⟩
    have hx : x ∈ L r := by
      rcases hlist trivial with hm | ⟨hlate, -⟩
      · exact hm
      · rw [ht] at hlate
        cases hlate
    have hc := countP_update (h.nodup hr) hx t.fate (some (r, .failed)) isCounted
    rw [hf] at hc
    have hc' : (L r).countP (fun i => isCounted (Function.update t.fate x (some (r, .failed)) i)) + 1
        = (L r).countP (fun i => isCounted (t.fate i)) + 0 := hc
    have hfate : ((t.modReq r fun q => { q with errNo := err }).note (.fetchFailed r x)).fate
        = Function.update t.fate x (some (r, .failed)) := hmoves.fate
    show q.shardCount = _
    rw [hcount]
    unfold ReqTable.expected
    rw [hfate, if_pos rfl]
    show (((L r).countP (fun i => isCounted (t.fate i)) + t.halfDone r + t.handler.todo r + 0 : Nat)
      : Int) = (((L r).countP (fun i =>
        isCounted (Function.update t.fate x (some (r, .failed)) i)) + t.halfDone r
          + t.handler.todo r + 1 : Nat) : Int)
    omega
  · intro r'
    show (t.hist ++ [Event.fetchFailed r x]).countP (Event.isPopped r') = _
      ∧ (t.hist ++ [Event.fetchFailed r x]).countP (Event.isIssued r') = _
    rw [List.countP_append, List.countP_append]
    exact ⟨rfl, rfl⟩

/-- **`backend_call` has failed**: the sub-request stays on the list. -/
theorem TableInv.callFailed {x : Nat} {sr : SubReq ν} (h : TableInv t L v none none)
    (hs : t.subs x = some sr) (hstate : sr.state = .poolReturned) :
    TableInv ((t.modSub x fun sr => { sr with state := .backendReturned }).note (.callFailed x)) L v
      none none := by
  obtain ⟨r, q, c, hf, hr, hsr, -, -⟩ := h.held_of hs hstate
  have hmoves : Moves t.hist (t.hist ++ [.callFailed x]) x (some (r, .refused (some c))) :=
    (h.still hf).step rfl rfl rfl
  have hsub : (t.modSub x fun sr => { sr with state := .backendReturned }).subs x
      = some { sr with state := .backendReturned } := by
    show Function.update t.subs x ((t.subs x).map _) x = _
    rw [Function.update_self, hs]
    rfl
  refine h.moveInPlace hf hr (by rw [← hr, Function.update_eq_self]; rfl) ⟨rfl, rfl, rfl, rfl⟩
    hmoves ⟨rfl, rfl⟩ (fun y hy => Function.update_of_ne hy _ _) ⟨rfl, rfl⟩
    (fun _ _ _ => Iff.rfl) (fun _ _ _ _ hm => hm) ⟨Or.inl rfl, Or.inl rfl⟩
    (fun _ => .refused _ c hsub hsr rfl) Iff.rfl (fun hp => hp.elim)
    (fun _ hc => by cases hc) (fun hf => by cases hf) (fun hne => by cases hne) ?_
    (fun _ _ => Iff.rfl) (fun _ _ hm => hm) (fun _ _ => rfl) ?_ ?_
  · intro n hn
    obtain ⟨-, r', sr', hf', -⟩ := h.waits n x hn
    rw [hf] at hf'
    cases hf'
  · intro ht
    obtain ⟨-, -, -, hcount, hpos⟩ := h.running hr ht
    refine ⟨?_, hpos⟩
    rw [hcount]
    unfold ReqTable.expected
    rw [expected_same ((t.modSub x fun sr => { sr with state := .backendReturned }).note
      (.callFailed x)) (h.nodup hr) hf hmoves.fate Iff.rfl]
    rfl
  · intro r'
    show (t.hist ++ [Event.callFailed x]).countP (Event.isPopped r') = _
      ∧ (t.hist ++ [Event.callFailed x]).countP (Event.isIssued r') = _
    rw [List.countP_append, List.countP_append]
    exact ⟨rfl, rfl⟩

/-! ## §2. Giving it back. -/

/-- **Taking a sub-request off its list** works also when the clean-up loop has
taken it off already. -/
theorem TableInv.rm {x r : Nat} {f : Fate} {q : Req} (h : TableInv t L v none owed)
    (hf : t.fate x = some (r, f)) (hp : f.Pending) (hl : f.Listed) (hr : t.reqs r = some q) :
    Family (Function.update t.heads r
        (some (reqSubreqQueueRm t.links q.subReqNotDone x).2))
        (t.links.unlink x) (Function.update L r ((L r).erase x))
      ∧ ∀ r' y, t.handler = .backendTimeout r' y →
        Stale (t.links.unlink x) (Function.update L r ((L r).erase x)) r' y := by
  obtain ⟨-, -, hlist, -⟩ := h.alive hf hr
  have hinv := h.handler
  by_cases hx : x ∈ L r
  · obtain ⟨hfam, hstale⟩ := h.lists.rm (heads_of hr) hx
    refine ⟨hfam, ?_⟩
    intro r' y hy
    rw [hy] at hinv
    exact hstale r' y hinv.2
  · have hbt := ((hlist hl).resolve_left hx).2 hp
    rw [hbt] at hinv
    obtain ⟨hne, hfam, hstale⟩ := h.lists.rm_stale (heads_of hr) hinv.2
    have hhead : (reqSubreqQueueRm t.links q.subReqNotDone x).2 = q.subReqNotDone := by
      show (if q.subReqNotDone = some x then _ else _) = _
      rw [if_neg hne]
    rw [hhead, ← heads_of hr, Function.update_eq_self, List.erase_of_not_mem hx,
      Function.update_eq_self]
    refine ⟨hfam, ?_⟩
    intro r' y hy
    rw [hbt] at hy
    cases hy
    exact hstale

/-- **`req_on_shard_done` has released the connection.** -/
theorem TableInv.shardDone {x : Nat} {sr : SubReq ν} {q : Req} {c : ConnRef}
    (h : TableInv t L v none none) (hs : t.subs x = some sr) (hstate : sr.state = .poolReturned)
    (hr : t.reqs sr.r = some q) (hc : sr.handle = some c)
    (hgiven : v.given c.slot = [(c.handle, x)]) :
    TableInv ((t.shardDoneBegin x sr q).note (.released x c))
      (Function.update L sr.r ((L sr.r).erase x))
      { v with given := Function.update v.given c.slot [] } none none := by
  obtain ⟨r, q', c', hf, hr', hsr, hc', -⟩ := h.held_of hs hstate
  subst hsr
  rw [hr] at hr'
  cases hr'
  rw [hc] at hc'
  cases hc'
  obtain ⟨-, hown, hlist, -⟩ := h.alive hf hr
  obtain ⟨hfam, hstale⟩ := h.rm hf trivial trivial hr
  have hmoves : Moves t.hist (t.hist ++ [.shardDone x] ++ [.released x c]) x
      (some (sr.r, .finished c)) := by
    refine ((h.still hf).step (e := .shardDone x) rfl rfl rfl).step rfl rfl ?_
    show (if some c = some c then _ else _) = _
    rw [if_pos rfl]
  have hreqs : ((t.shardDoneBegin x sr q).note (.released x c)).reqs = Function.update t.reqs sr.r
      (some { q with subReqNotDone := (reqSubreqQueueRm t.links q.subReqNotDone x).2 }) := rfl
  have hxoff : ∀ r', x ∉ Function.update L sr.r ((L sr.r).erase x) r' := by
    intro r' hm
    by_cases hrr : r' = sr.r
    · rw [hrr, Function.update_self] at hm
      exact (h.nodup hr).not_mem_erase hm
    · rw [Function.update_of_ne hrr] at hm
      exact hrr (hown r' hm).1
  refine h.move
    { req := hr
      reqs := hreqs
      timeout := rfl
      called := rfl
      timeoutEvent := rfl
      moves := hmoves
      nextReq := rfl
      nextSub := fun _ _ => Iff.rfl
      born := ?_
      subs := fun y hy => Function.update_of_ne hy _ _
      lists := by rw [heads_update hreqs]; exact hfam
      onList := ?_
      otherLists := fun r' hrr => Function.update_of_ne hrr _ _
      wait := fun _ _ _ => Iff.rfl
      given := ?_
      holeBefore := Or.inl rfl
      holeAfter := Or.inl rfl
      inMemory := fun _ => .finished c ?_
      ownList := fun r' hm => absurd hm (hxoff r')
      listed := fun hl => hl.elim
      removed := fun hf' => by cases hf'
      inHand := fun hne => by cases hne
      waits := ?_
      owes := fun _ _ => Iff.rfl
      todo := fun _ _ => rfl
      halfDone := ?_
      cleans := fun _ hcl => hcl
      inTimeout := fun _ _ _ hb => hb
      frames := ?_
      handler := ?_
      count := ?_
      passes := ?_ }
  · exact h.born hf
  · intro r' y hy
    by_cases hrr : r' = sr.r
    · rw [hrr, Function.update_self, List.mem_erase_of_ne hy]
    · rw [Function.update_of_ne hrr]
  · intro slot hd y hy hm
    show (hd, y) ∈ Function.update v.given c.slot [] slot
    by_cases hslot : slot = c.slot
    · -- the connection was this sub-request's alone
      rw [hslot, hgiven, List.mem_singleton] at hm
      exact absurd (congrArg Prod.snd hm) hy
    · rw [Function.update_of_ne hslot]
      exact hm
  · intro sr' hsr'
    have hsub : some { sr with state := SubReqState.backendReturned } = some sr' :=
      (Function.update_self (f := t.subs) ..).symm.trans hsr'
    cases hsub
    exact ⟨rfl, rfl⟩
  · intro n hn
    obtain ⟨-, r', sr', hf', -⟩ := h.waits n x hn
    rw [hf] at hf'
    cases hf'
  · intro r' hrr
    show (CallFrame.shardDone sr.r x :: t.stack).countP _ = _
    rw [List.countP_cons]
    have hother : CallFrame.isShardDoneOf r' (.shardDone sr.r x) = false :=
      decide_eq_false (fun heq => hrr heq.symm)
    rw [hother]
    rfl
  · intro r' y hy
    rcases List.mem_cons.1 hy with heq | hold
    · cases heq
      exact Or.inr ⟨rfl, rfl, c, rfl⟩
    · refine Or.inl ⟨?_, hold⟩
      intro hyx
      obtain ⟨c', hc'⟩ := h.frames r' y hold
      rw [hyx, hf] at hc'
      cases hc'
  · exact h.handler.congr (reqs_update_timeout hr hreqs rfl) (fun r' y hb _ => hstale r' y hb)
  · intro ht
    obtain ⟨-, -, -, hcount, hpos⟩ := h.running hr ht
    refine ⟨?_, hpos⟩
    have hx : x ∈ L sr.r := by
      rcases hlist trivial with hm | ⟨hlate, -⟩
      · exact hm
      · rw [ht] at hlate
        cases hlate
    have hnot : x ∉ (L sr.r).erase x := (h.nodup hr).not_mem_erase
    have hsame := countP_update_of_notMem hnot t.fate (some (sr.r, .finished c)) isCounted
    have herase := countP_erase_add hx (fun y => isCounted (t.fate y))
    rw [hf] at herase
    have herase' : ((L sr.r).erase x).countP (fun y => isCounted (t.fate y)) + 1
        = (L sr.r).countP (fun y => isCounted (t.fate y)) := herase
    have hfate : ((t.shardDoneBegin x sr q).note (.released x c)).fate
        = Function.update t.fate x (some (sr.r, .finished c)) := hmoves.fate
    have hhalf : ((t.shardDoneBegin x sr q).note (.released x c)).halfDone sr.r
        = t.halfDone sr.r + 1 := by
      show (CallFrame.shardDone sr.r x :: t.stack).countP _ = _
      rw [List.countP_cons]
      have hown' : CallFrame.isShardDoneOf sr.r (.shardDone sr.r x) = true := decide_eq_true rfl
      rw [hown']
      rfl
    show q.shardCount = _
    rw [hcount]
    unfold ReqTable.expected
    rw [hfate, Function.update_self, hsame, hhalf]
    show (((L sr.r).countP (fun y => isCounted (t.fate y)) + t.halfDone sr.r
        + t.handler.todo sr.r + 0 : Nat) : Int)
      = (((L sr.r).erase x).countP (fun y => isCounted (t.fate y)) + (t.halfDone sr.r + 1)
        + t.handler.todo sr.r + 0 : Nat)
    omega
  · intro r'
    have hp := h.passes r'
    show (t.hist ++ [Event.shardDone x] ++ [Event.released x c]).countP (Event.isPopped r') + _
      ≤ (t.hist ++ [Event.shardDone x] ++ [Event.released x c]).countP (Event.isIssued r')
    rw [List.countP_append, List.countP_append, List.countP_append, List.countP_append]
    have hlen : (Function.update L sr.r ((L sr.r).erase x) r').length ≤ (L r').length := by
      by_cases hrr : r' = sr.r
      · rw [hrr, Function.update_self]
        exact List.length_erase_le
      · rw [Function.update_of_ne hrr]
    have h1 : [Event.shardDone x].countP (Event.isPopped r') = 0 := rfl
    have h2 : [Event.released x c].countP (Event.isPopped r') = 0 := rfl
    omega

/-- **`pool_release_connect` has returned**: the sub-request is freed, and the
counter is about to go down. -/
theorem TableInv.shardDoneReturned {x r : Nat} {stack : List CallFrame}
    (h : TableInv t L v none none) (hstack : t.stack = .shardDone r x :: stack) :
    (∃ q, t.reqs r = some q)
      ∧ TableInv ({ t with stack := stack }.setSub x none) L v none (some r) := by
  obtain ⟨c, hf⟩ := h.frames r x (by rw [hstack]; exact List.mem_cons_self)
  have hcons : ∀ r', t.halfDone r'
      = stack.countP (CallFrame.isShardDoneOf r') + (if r = r' then 1 else 0) := by
    intro r'
    unfold ReqTable.halfDone
    rw [hstack, List.countP_cons]
    simp only [CallFrame.isShardDoneOf, decide_eq_true_eq]
  obtain ⟨q, hr⟩ : ∃ q, t.reqs r = some q := by
    cases h.req r with
    | gone _ _ h3 _ =>
        have hhalf := hcons r
        rw [h3, if_pos rfl] at hhalf
        omega
    | running q h1 _ _ _ _ _ _ => exact ⟨q, h1⟩
    | late q h1 _ _ _ _ => exact ⟨q, h1⟩
  refine ⟨⟨q, hr⟩, ?_⟩
  refine h.moveInPlace hf hr (by rw [← hr, Function.update_eq_self]; rfl) ⟨rfl, rfl, rfl, rfl⟩
    (h.still hf) ⟨rfl, rfl⟩ (fun y hy => Function.update_of_ne hy _ _) ⟨rfl, rfl⟩
    (fun _ _ _ => Iff.rfl) (fun _ _ _ _ hm => hm) ⟨Or.inl rfl, Or.inl rfl⟩
    (fun _ => .finished c ?_) Iff.rfl (fun hp => hp) (fun _ _ => rfl) (fun hf' => hf')
    (fun hne => by cases hne) ?_ ?_ ?_ ?_ ?_ (fun _ => ⟨rfl, rfl⟩)
  · intro sr hsr
    have hnone : (none : Option (SubReq ν)) = some sr :=
      (Function.update_self (f := t.subs) ..).symm.trans hsr
    cases hnone
  · intro n hn
    obtain ⟨-, r', sr', hf', -⟩ := h.waits n x hn
    rw [hf] at hf'
    cases hf'
  · intro r' hrr
    constructor
    · intro heq
      exact absurd (Option.some.inj heq).symm hrr
    · intro heq
      cases heq
  · intro r' y hy
    show _ ∈ t.stack
    rw [hstack]
    exact List.mem_cons_of_mem _ hy
  · intro r' hrr
    rw [hcons r', if_neg (fun heq => hrr heq.symm)]
    rfl
  · intro ht
    obtain ⟨-, -, -, hcount, hpos⟩ := h.running hr ht
    refine ⟨?_, hpos⟩
    have hhalf := hcons r
    rw [if_pos rfl] at hhalf
    rw [hcount]
    unfold ReqTable.expected
    rw [hhalf, if_pos rfl]
    show (((L r).countP (fun y => isCounted (t.fate y)) + (stack.countP (CallFrame.isShardDoneOf r)
        + 1) + t.handler.todo r + 0 : Nat) : Int)
      = ((L r).countP (fun y => isCounted (t.fate y)) + stack.countP (CallFrame.isShardDoneOf r)
        + t.handler.todo r + 1 : Nat)
    omega

end RedisAgent
