/-
  RedisAgent.Req.Rules — reading the invariant of the request table, and the two
  general rules for keeping it.

  `TableInv.move` is for a function that works on one sub-request, `TableInv.moveReq`
  for one that works on a request only.  Every function of req.cpp is an instance
  of one of them, except `req_done`, which frees a request.
-/
import RedisAgent.Req.Invariant

namespace RedisAgent

open Links

variable {ν : Type*} {t t' : ReqTable ν} {L L' : Nat → List Nat} {v v' : View}
  {hole hole' owed owed' : Option Nat}

/-! ## §1. Reading the invariant. -/

theorem heads_of {r : Nat} {q : Req} (hr : t.reqs r = some q) :
    t.heads r = some q.subReqNotDone := by
  unfold ReqTable.heads
  rw [hr]
  rfl

/-- A sub-request of a request that is there. -/
theorem TableInv.alive (h : TableInv t L v hole owed) {x r : Nat} {f : Fate} {q : Req}
    (hf : t.fate x = some (r, f)) (hr : t.reqs r = some q) :
    (hole ≠ some x → SubAt (t.subs x) v r x f) ∧ (∀ r', x ∈ L r' → r' = r ∧ f.Listed)
      ∧ (f.Listed → x ∈ L r
        ∨ (q.timeout = true ∧ (f.Pending → t.handler = .backendTimeout r x)))
      ∧ (f = .removed → q.timeout = true) := by
  cases h.sub x with
  | unborn h1 _ _ =>
      rw [hf] at h1
      cases h1
  | gone r' f' late h1 h2 _ _ _ _ _ =>
      rw [hf] at h1
      cases h1
      rw [hr] at h2
      cases h2
  | alive r' f' q' h1 h2 h3 h4 h5 h6 =>
      rw [hf] at h1
      cases h1
      rw [hr] at h2
      cases h2
      exact ⟨h3, h4, h5, h6⟩

/-- The request of a sub-request that is not settled is there. -/
theorem TableInv.req_of_unsettled (h : TableInv t L v hole owed) {x r : Nat} {f : Fate}
    (hf : t.fate x = some (r, f)) (hs : ¬ f.Settled) : ∃ q, t.reqs r = some q := by
  cases h.sub x with
  | unborn h1 _ _ =>
      rw [hf] at h1
      cases h1
  | gone r' f' late h1 _ _ _ _ h6 _ =>
      rw [hf] at h1
      cases h1
      exact absurd h6 hs
  | alive r' f' q' h1 h2 _ _ _ _ =>
      rw [hf] at h1
      cases h1
      exact ⟨q', h2⟩

/-- Only a sub-request of `r` is on the list of `r`. -/
theorem TableInv.owner (h : TableInv t L v hole owed) {x r : Nat} (hx : x ∈ L r) :
    ∃ f, t.fate x = some (r, f) ∧ f.Listed := by
  cases h.sub x with
  | unborn _ _ h3 => exact absurd hx (h3 r)
  | gone r' f' late _ _ _ _ h5 _ _ => exact absurd hx (h5 r)
  | alive r' f' q' h1 _ _ h4 _ _ =>
      obtain ⟨rfl, hl⟩ := h4 r hx
      exact ⟨f', h1, hl⟩

/-- A request whose time is not over. -/
theorem TableInv.running (h : TableInv t L v hole owed) {r : Nat} {q : Req}
    (hr : t.reqs r = some q) (ht : q.timeout = false) :
    q.reqDoneCalled = false ∧ q.timeoutEvent = true ∧ t.reqFate r = .running
      ∧ q.shardCount = t.expected L owed r ∧ 0 < q.shardCount := by
  cases h.req r with
  | gone h1 _ _ _ =>
      rw [hr] at h1
      cases h1
  | running q' h1 h2 h3 _ h5 h6 h7 =>
      rw [hr] at h1
      cases h1
      exact ⟨h2, h3, h5, h6, h7⟩
  | late q' h1 _ h3 _ _ =>
      rw [hr] at h1
      cases h1
      rw [ht] at h3
      cases h3

/-- A request whose time is over. -/
theorem TableInv.late (h : TableInv t L v hole owed) {r : Nat} {q : Req}
    (hr : t.reqs r = some q) (ht : q.timeout = true) :
    q.reqDoneCalled = false ∧ t.reqFate r = .late ∧ t.handler.Cleans r := by
  cases h.req r with
  | gone h1 _ _ _ =>
      rw [hr] at h1
      cases h1
  | running q' h1 _ _ h4 _ _ _ =>
      rw [hr] at h1
      cases h1
      rw [ht] at h4
      cases h4
  | late q' h1 h2 _ h4 h5 =>
      rw [hr] at h1
      cases h1
      exact ⟨h2, h4, h5⟩

/-- A sub-request in the state `POOL_RETURNED` holds a connection. -/
theorem TableInv.held_of (h : TableInv t L v none owed) {x : Nat} {sr : SubReq ν}
    (hs : t.subs x = some sr) (hstate : sr.state = .poolReturned) :
    ∃ r q c, t.fate x = some (r, .held (some c)) ∧ t.reqs r = some q ∧ sr.r = r
      ∧ sr.handle = some c ∧ (c.handle, x) ∈ v.given c.slot := by
  cases h.sub x with
  | unborn _ h2 _ =>
      rw [hs] at h2
      cases h2
  | gone _ _ _ _ _ _ h4 _ _ _ =>
      rw [hs] at h4
      cases h4
  | alive r f q h1 h2 h3 _ _ _ =>
      have hat := h3 (fun hc => by cases hc)
      rw [hs] at hat
      cases hat with
      | waiting sr' n ho _ hst _ _ =>
          cases ho
          rw [hst] at hstate
          cases hstate
      | failed sr' ho _ hst _ =>
          cases ho
          rw [hst] at hstate
          cases hstate
      | held sr' c ho hr _ hh hg =>
          cases ho
          exact ⟨r, q, c, h1, h2, hr, hh, hg⟩
      | refused sr' handle ho _ hst =>
          cases ho
          rw [hst] at hstate
          cases hstate
      | finished c hall =>
          rw [(hall sr rfl).2] at hstate
          cases hstate
      | removed ho => cases ho

/-- The list of a request has no repetition. -/
theorem TableInv.nodup (h : TableInv t L v hole owed) {r : Nat} {q : Req}
    (hr : t.reqs r = some q) : (L r).Nodup := (h.lists.queue r _ (heads_of hr)).nodup

/-- No list has a sub-request that was not issued yet. -/
theorem TableInv.nextSub_off (h : TableInv t L v hole owed) (r : Nat) : t.nextSub ∉ L r := by
  intro hm
  obtain ⟨f, hf, -⟩ := h.owner hm
  rw [(h.subFresh t.nextSub).2 (Nat.le_refl _)] at hf
  cases hf

/-- A sub-request with a fate has been issued. -/
theorem TableInv.born (h : TableInv t L v hole owed) {x : Nat} {f : Nat × Fate}
    (hf : t.fate x = some f) : x < t.nextSub := by
  by_contra hge
  have hnone := (h.subFresh x).2 (Nat.not_lt.1 hge)
  rw [hf] at hnone
  cases hnone

/-- The owner of the sub-request in hand is there. -/
theorem TableInv.hand {x : Nat} (h : TableInv t L v (some x) owed) :
    ∃ r q sr, t.fate x = some (r, .waiting) ∧ t.reqs r = some q ∧ t.subs x = some sr ∧ sr.r = r
      ∧ sr.state = .beforeRequestPool := by
  obtain ⟨r, sr, hf, hs, hsr, hstate⟩ := h.inHand x rfl
  obtain ⟨q, hq⟩ := h.req_of_unsettled hf (fun hset => hset)
  exact ⟨r, q, sr, hf, hq, hs, hsr, hstate⟩

/-- No node holds the sub-request in hand. -/
theorem TableInv.hand_off {x : Nat} (h : TableInv t L v (some x) owed) (n : WaitNode) :
    v.wait n ≠ some x :=
  fun hn => (h.waits n x hn).1 rfl

/-! ## §2. The parts of a move. -/

theorem heads_update {r : Nat} {q' : Req} (h : t'.reqs = Function.update t.reqs r (some q')) :
    t'.heads = Function.update t.heads r (some q'.subReqNotDone) := by
  funext r'
  unfold ReqTable.heads
  rw [h]
  by_cases hrr : r' = r
  · rw [hrr, Function.update_self, Function.update_self]
    rfl
  · rw [Function.update_of_ne hrr, Function.update_of_ne hrr]

theorem modReq_reqs {r : Nat} {q : Req} (hr : t.reqs r = some q) (f : Req → Req) :
    (t.modReq r f).reqs = Function.update t.reqs r (some (f q)) := by
  unfold ReqTable.modReq
  rw [hr]
  rfl

theorem modReq_at {r : Nat} {q : Req} (hr : t.reqs r = some q) (f : Req → Req) :
    (t.modReq r f).reqs r = some (f q) := by
  rw [modReq_reqs hr, Function.update_self]

/-- The lists are the same if the head pointer of `r` is. -/
theorem Family.of_sameHead (h : Family t.heads t.links L) {r : Nat} {q q' : Req}
    (hr : t.reqs r = some q) (hreqs : t'.reqs = Function.update t.reqs r (some q'))
    (hhead : q'.subReqNotDone = q.subReqNotDone) (hlinks : t'.links = t.links) :
    Family t'.heads t'.links L := by
  have hsame : t'.heads = t.heads := by
    rw [heads_update hreqs, hhead, ← heads_of hr, Function.update_eq_self]
  rw [hsame, hlinks]
  exact h

/-- The handler's request and its stale sub-request are as they were. -/
theorem HandlerInv.congr {hd : Handler ν} (h : HandlerInv t L hd)
    (hreqs : ∀ r q, t.reqs r = some q → ∃ q', t'.reqs r = some q' ∧ q'.timeout = q.timeout)
    (hstale : ∀ r x, hd = .backendTimeout r x → Stale t.links L r x → Stale t'.links L' r x) :
    HandlerInv t' L' hd := by
  cases hd with
  | eventLoop => trivial
  | crashed => trivial
  | acquireShards r todo =>
      refine ⟨h.1, ?_⟩
      intro hne
      obtain ⟨q, hq, ht⟩ := h.2 hne
      obtain ⟨q', hq', ht'⟩ := hreqs r q hq
      exact ⟨q', hq', ht'.trans ht⟩
  | timeoutCleanup r =>
      obtain ⟨q, hq, ht⟩ := h
      obtain ⟨q', hq', ht'⟩ := hreqs r q hq
      exact ⟨q', hq', ht'.trans ht⟩
  | backendTimeout r x =>
      obtain ⟨⟨q, hq, ht⟩, hs⟩ := h
      obtain ⟨q', hq', ht'⟩ := hreqs r q hq
      exact ⟨⟨q', hq', ht'.trans ht⟩, hstale r x rfl hs⟩

/-- A write to one request that leaves its `timeout` alone. -/
theorem reqs_update_timeout {r : Nat} {q q' : Req} (hr : t.reqs r = some q)
    (hreqs : t'.reqs = Function.update t.reqs r (some q')) (ht : q'.timeout = q.timeout) :
    ∀ r' q0, t.reqs r' = some q0 → ∃ q0', t'.reqs r' = some q0' ∧ q0'.timeout = q0.timeout := by
  intro r' q0 hq0
  rw [hreqs]
  by_cases hrr : r' = r
  · subst hrr
    rw [hr] at hq0
    cases hq0
    exact ⟨q', Function.update_self .., ht⟩
  · exact ⟨q0, by rw [Function.update_of_ne hrr]; exact hq0, rfl⟩

/-- No event has happened yet. -/
theorem TableInv.still (h : TableInv t L v hole owed) {x : Nat} {f : Option (Nat × Fate)}
    (hf : t.fate x = f) : Moves t.hist t.hist x f := by
  have h0 := Moves.refl h.lawful h.reqLawful x
  have hfx : subLife.life t.hist x = f := hf
  rw [hfx] at h0
  exact h0

/-! ## §3. One sub-request moves. -/

/-- Sub-request `x` of request `r` moves to `f`, and `q` becomes `q'`; nothing is
done to any other. -/
structure SubMove (t t' : ReqTable ν) (L L' : Nat → List Nat) (v v' : View)
    (hole hole' owed owed' : Option Nat) (x r : Nat) (q q' : Req) (f : Fate) : Prop where
  req : t.reqs r = some q
  reqs : t'.reqs = Function.update t.reqs r (some q')
  timeout : q'.timeout = q.timeout
  called : q'.reqDoneCalled = q.reqDoneCalled
  timeoutEvent : q'.timeoutEvent = q.timeoutEvent
  moves : Moves t.hist t'.hist x (some (r, f))
  nextReq : t'.nextReq = t.nextReq
  nextSub : ∀ y, y ≠ x → (t'.nextSub ≤ y ↔ t.nextSub ≤ y)
  born : x < t'.nextSub
  subs : ∀ y, y ≠ x → t'.subs y = t.subs y
  lists : Family t'.heads t'.links L'
  onList : ∀ r' y, y ≠ x → (y ∈ L' r' ↔ y ∈ L r')
  otherLists : ∀ r', r' ≠ r → L' r' = L r'
  wait : ∀ n y, y ≠ x → (v'.wait n = some y ↔ v.wait n = some y)
  given : ∀ c hd y, y ≠ x → (hd, y) ∈ v.given c → (hd, y) ∈ v'.given c
  holeBefore : hole = none ∨ hole = some x
  holeAfter : hole' = none ∨ hole' = some x
  inMemory : hole' ≠ some x → SubAt (t'.subs x) v' r x f
  ownList : ∀ r', x ∈ L' r' → r' = r ∧ f.Listed
  listed : f.Listed →
    x ∈ L' r ∨ (q.timeout = true ∧ (f.Pending → t'.handler = .backendTimeout r x))
  removed : f = .removed → q.timeout = true
  inHand : hole' = some x → f = .waiting
    ∧ ∃ sr, t'.subs x = some sr ∧ sr.r = r ∧ sr.state = .beforeRequestPool
  waits : ∀ n, v'.wait n = some x → hole' ≠ some x ∧ f = .waiting
    ∧ ∃ sr, t'.subs x = some sr ∧ sr.poolWaitingNode = some n
  owes : ∀ r', r' ≠ r → (owed' = some r' ↔ owed = some r')
  todo : ∀ r', r' ≠ r → t'.handler.todo r' = t.handler.todo r'
  halfDone : ∀ r', r' ≠ r → t'.halfDone r' = t.halfDone r'
  cleans : ∀ r', t.handler.Cleans r' → t'.handler.Cleans r'
  inTimeout : ∀ r' y, y ≠ x → t.handler = .backendTimeout r' y → t'.handler = .backendTimeout r' y
  frames : ∀ r' y, .shardDone r' y ∈ t'.stack →
    (y ≠ x ∧ .shardDone r' y ∈ t.stack) ∨ (y = x ∧ r' = r ∧ ∃ c, f = .finished c)
  handler : HandlerInv t' L' t'.handler
  count : q.timeout = false → q'.shardCount = t'.expected L' owed' r ∧ 0 < q'.shardCount
  passes : ∀ r', t'.hist.countP (Event.isPopped r') + (L' r').length
    ≤ t'.hist.countP (Event.isIssued r')

/-- **The general rule** for a function that works on one sub-request. -/
theorem TableInv.move (h : TableInv t L v hole owed) {x r : Nat} {q q' : Req} {f : Fate}
    (m : SubMove t t' L L' v v' hole hole' owed owed' x r q q' f) :
    TableInv t' L' v' hole' owed' := by
  have hfate : t'.fate = Function.update t.fate x (some (r, f)) := m.moves.fate
  have hfx : t'.fate x = some (r, f) := by rw [hfate, Function.update_self]
  have hfy : ∀ y, y ≠ x → t'.fate y = t.fate y := by
    intro y hy
    rw [hfate, Function.update_of_ne hy]
  have hrf : t'.reqFate = t.reqFate := m.moves.reqFate
  have hr' : t'.reqs r = some q' := by rw [m.reqs, Function.update_self]
  have hry : ∀ r', r' ≠ r → t'.reqs r' = t.reqs r' := by
    intro r' hne
    rw [m.reqs, Function.update_of_ne hne]
  have hholeBefore : ∀ y, y ≠ x → hole ≠ some y := by
    intro y hy heq
    rcases m.holeBefore with hn | hs
    · rw [hn] at heq
      cases heq
    · rw [hs] at heq
      exact hy (Option.some.inj heq).symm
  have hholeAfter : ∀ y, hole' = some y → y = x := by
    intro y hy
    rcases m.holeAfter with hn | hs
    · rw [hn] at hy
      cases hy
    · rw [hs] at hy
      exact (Option.some.inj hy).symm
  refine ⟨m.lists, ?_, ?_, ?_, ?_, ?_, m.handler, m.moves.lawful, m.moves.reqLawful, ?_, ?_,
    m.passes⟩
  · intro y
    by_cases hy : y = x
    · subst hy
      refine .alive r f q' hfx hr' m.inMemory m.ownList ?_ (fun hf => m.timeout.trans (m.removed hf))
      rw [m.timeout]
      exact m.listed
    · refine (h.sub y).congr (hfy y hy) (m.subs y hy) ?_ (fun r' => m.onList r' y hy)
        (fun n => (m.wait n y hy).2) (fun c hd => m.given c hd y hy)
        (fun r' => m.inTimeout r' y hy) (fun heq => absurd heq (hholeBefore y hy))
      intro r' f' _
      refine ⟨?_, by rw [hrf]⟩
      by_cases hrr : r' = r
      · rw [hrr, hr', m.req, Option.map_some, Option.map_some, m.timeout]
      · rw [hry r' hrr]
  · intro r'
    by_cases hrr : r' = r
    · subst hrr
      rcases ht : q.timeout with _ | _
      · obtain ⟨h1, h2, h3, -, -⟩ := h.running m.req ht
        obtain ⟨h4, h5⟩ := m.count ht
        exact .running q' hr' (m.called.trans h1) (m.timeoutEvent.trans h2) (m.timeout.trans ht)
          ((congrFun hrf r').trans h3) h4 h5
      · obtain ⟨h1, h2, h3⟩ := h.late m.req ht
        exact .late q' hr' (m.called.trans h1) (m.timeout.trans ht) ((congrFun hrf r').trans h2)
          (m.cleans r' h3)
    · refine (h.req r').congr (hry r' hrr) (congrFun hrf r') (m.otherLists r' hrr) ?_
        (m.todo r' hrr) (m.halfDone r' hrr) (m.owes r' hrr) (m.cleans r')
      intro y hy
      by_cases hyx : y = x
      · subst hyx
        rw [← m.otherLists r' hrr] at hy
        exact absurd (m.ownList r' hy).1 hrr
      · rw [hfy y hyx]
  · intro y hy
    obtain rfl := hholeAfter y hy
    obtain ⟨hf, sr, h1, h2, h3⟩ := m.inHand hy
    exact ⟨r, sr, by rw [hfx, hf], h1, h2, h3⟩
  · intro n y hy
    by_cases hyx : y = x
    · subst hyx
      obtain ⟨h1, hf, sr, h2, h3⟩ := m.waits n hy
      exact ⟨h1, r, sr, by rw [hfx, hf], h2, h3⟩
    · obtain ⟨-, r', sr, h2, h3, h4⟩ := h.waits n y ((m.wait n y hyx).1 hy)
      exact ⟨fun heq => hyx (hholeAfter y heq), r', sr, by rw [hfy y hyx]; exact h2,
        by rw [m.subs y hyx]; exact h3, h4⟩
  · intro r' y hy
    rcases m.frames r' y hy with ⟨hyx, hold⟩ | ⟨hyx, hrr, c, hf⟩
    · obtain ⟨c, hc⟩ := h.frames r' y hold
      exact ⟨c, by rw [hfy y hyx]; exact hc⟩
    · exact ⟨c, by rw [hyx, hfx, hf, hrr]⟩
  · intro y
    by_cases hyx : y = x
    · subst hyx
      have hborn := m.born
      rw [hfx]
      constructor
      · intro hn
        cases hn
      · intro hle
        omega
    · rw [hfy y hyx, m.nextSub y hyx]
      exact h.subFresh y
  · intro r'
    rw [hrf, m.nextReq]
    exact h.reqFresh r'

/-- **The rule in place**: the lists stay, and so does the handler. -/
theorem TableInv.moveInPlace (h : TableInv t L v hole owed) {x r : Nat} {q q' : Req}
    {f₀ f : Fate} (hf₀ : t.fate x = some (r, f₀)) (hr : t.reqs r = some q)
    (hreqs : t'.reqs = Function.update t.reqs r (some q'))
    (hq : q'.timeout = q.timeout ∧ q'.reqDoneCalled = q.reqDoneCalled
      ∧ q'.timeoutEvent = q.timeoutEvent ∧ q'.subReqNotDone = q.subReqNotDone)
    (hmoves : Moves t.hist t'.hist x (some (r, f)))
    (hnext : t'.nextReq = t.nextReq ∧ t'.nextSub = t.nextSub)
    (hsubs : ∀ y, y ≠ x → t'.subs y = t.subs y)
    (hcontrol : t'.links = t.links ∧ t'.handler = t.handler)
    (hwait : ∀ n y, y ≠ x → (v'.wait n = some y ↔ v.wait n = some y))
    (hgiven : ∀ c hd y, y ≠ x → (hd, y) ∈ v.given c → (hd, y) ∈ v'.given c)
    (hholes : (hole = none ∨ hole = some x) ∧ (hole' = none ∨ hole' = some x))
    (hmem : hole' ≠ some x → SubAt (t'.subs x) v' r x f)
    (hlisted : f.Listed ↔ f₀.Listed) (hpending : f.Pending → f₀.Pending)
    (hfinished : ∀ c, f₀ = .finished c → f = f₀) (hremoved : f = .removed → f₀ = .removed)
    (hhand : hole' = some x → f = .waiting
      ∧ ∃ sr, t'.subs x = some sr ∧ sr.r = r ∧ sr.state = .beforeRequestPool)
    (hwaits : ∀ n, v'.wait n = some x → hole' ≠ some x ∧ f = .waiting
      ∧ ∃ sr, t'.subs x = some sr ∧ sr.poolWaitingNode = some n)
    (howes : ∀ r', r' ≠ r → (owed' = some r' ↔ owed = some r'))
    (hframes : ∀ r' y, .shardDone r' y ∈ t'.stack → .shardDone r' y ∈ t.stack)
    (hhalf : ∀ r', r' ≠ r → t'.halfDone r' = t.halfDone r')
    (hcount : q.timeout = false → q'.shardCount = t'.expected L owed' r ∧ 0 < q'.shardCount)
    (hpasses : ∀ r', t'.hist.countP (Event.isPopped r') = t.hist.countP (Event.isPopped r')
      ∧ t'.hist.countP (Event.isIssued r') = t.hist.countP (Event.isIssued r')) :
    TableInv t' L v' hole' owed' := by
  obtain ⟨-, hown, hlist, hrem⟩ := h.alive hf₀ hr
  obtain ⟨hlinks, hhandler⟩ := hcontrol
  refine h.move
    { req := hr
      reqs := hreqs
      timeout := hq.1
      called := hq.2.1
      timeoutEvent := hq.2.2.1
      moves := hmoves
      nextReq := hnext.1
      nextSub := fun y _ => by rw [hnext.2]
      born := ?_
      subs := hsubs
      lists := h.lists.of_sameHead hr hreqs hq.2.2.2 hlinks
      onList := fun _ _ _ => Iff.rfl
      otherLists := fun _ _ => rfl
      wait := hwait
      given := hgiven
      holeBefore := hholes.1
      holeAfter := hholes.2
      inMemory := hmem
      ownList := fun r' hm => ⟨(hown r' hm).1, hlisted.2 (hown r' hm).2⟩
      listed := ?_
      removed := fun hf => hrem (hremoved hf)
      inHand := hhand
      waits := hwaits
      owes := howes
      todo := fun r' _ => by rw [hhandler]
      halfDone := hhalf
      cleans := fun r' hc => by rw [hhandler]; exact hc
      inTimeout := fun r' y _ hb => hhandler.trans hb
      frames := ?_
      handler := ?_
      count := hcount
      passes := fun r' => by rw [(hpasses r').1, (hpasses r').2]; exact h.passes r' }
  · rw [hnext.2]
    exact h.born hf₀
  · intro hl
    rw [hhandler]
    rcases hlist (hlisted.1 hl) with hm | ⟨hlate, hp⟩
    · exact Or.inl hm
    · exact Or.inr ⟨hlate, fun hpf => hp (hpending hpf)⟩
  · intro r' y hy
    have hold := hframes r' y hy
    by_cases hyx : y = x
    · obtain ⟨c, hc⟩ := h.frames r' y hold
      rw [hyx, hf₀] at hc
      cases hc
      exact Or.inr ⟨hyx, rfl, c, hfinished c rfl⟩
    · exact Or.inl ⟨hyx, hold⟩
  · rw [hhandler]
    refine h.handler.congr (reqs_update_timeout hr hreqs hq.1) ?_
    intro r' y _ hs
    rw [hlinks]
    exact hs

/-! ## §4. A request moves, or only the control does. -/

/-- Request `r` becomes `q'`; nothing is done to any other request, nor to a
sub-request. -/
structure ReqMove (t t' : ReqTable ν) (L : Nat → List Nat) (owed owed' : Option Nat) (r : Nat)
    (q' : Req) : Prop where
  reqs : t'.reqs = Function.update t.reqs r (some q')
  subs : t'.subs = t.subs
  nextSub : t'.nextSub = t.nextSub
  fate : t'.fate = t.fate
  lawful : subLife.Lawful t'.hist
  reqLawful : reqLife.Lawful t'.hist
  reqFate : ∀ r', r' ≠ r → t'.reqFate r' = t.reqFate r'
  reqFresh : ∀ r', t'.reqFate r' = .unborn ↔ t'.nextReq ≤ r'
  lists : Family t'.heads t'.links L
  own : ∀ x f, t.fate x = some (r, f) →
    ∃ q, t.reqs r = some q ∧ (q.timeout = true → q'.timeout = true)
  inTimeout : ∀ r' x f, t.fate x = some (r', f) → f.Pending →
    t.handler = .backendTimeout r' x → t'.handler = .backendTimeout r' x
  inv : ReqInv t' L owed' r
  owes : ∀ r', r' ≠ r → (owed' = some r' ↔ owed = some r')
  todo : ∀ r', r' ≠ r → t'.handler.todo r' = t.handler.todo r'
  halfDone : ∀ r', r' ≠ r → t'.halfDone r' = t.halfDone r'
  cleans : ∀ r', r' ≠ r → t.handler.Cleans r' → t'.handler.Cleans r'
  frames : ∀ r' y, .shardDone r' y ∈ t'.stack → .shardDone r' y ∈ t.stack
  handler : HandlerInv t' L t'.handler
  passes : ∀ r', t'.hist.countP (Event.isPopped r') = t.hist.countP (Event.isPopped r')
    ∧ t'.hist.countP (Event.isIssued r') = t.hist.countP (Event.isIssued r')

/-- **The general rule** for a function that works on a request. -/
theorem TableInv.moveReq (h : TableInv t L v hole owed) {r : Nat} (q' : Req)
    (m : ReqMove t t' L owed owed' r q') : TableInv t' L v hole owed' := by
  have hr' : t'.reqs r = some q' := by rw [m.reqs, Function.update_self]
  have hry : ∀ r', r' ≠ r → t'.reqs r' = t.reqs r' := by
    intro r' hne
    rw [m.reqs, Function.update_of_ne hne]
  refine ⟨m.lists, ?_, ?_, ?_, ?_, ?_, m.handler, m.lawful, m.reqLawful, ?_, m.reqFresh, ?_⟩
  · intro x
    by_cases howner : ∃ f, t.fate x = some (r, f)
    · obtain ⟨f, hf⟩ := howner
      obtain ⟨q, hr, htime⟩ := m.own x f hf
      obtain ⟨hat, hown, hlist, hrem⟩ := h.alive hf hr
      refine .alive r f q' (by rw [m.fate]; exact hf) hr' ?_ hown ?_ (fun hfr => htime (hrem hfr))
      · rw [m.subs]
        exact hat
      · intro hl
        rcases hlist hl with hm | ⟨hlate, hp⟩
        · exact Or.inl hm
        · exact Or.inr ⟨htime hlate, fun hpf => m.inTimeout r x f hf hpf (hp hpf)⟩
    · -- the rule for a sub-request of another request, whatever its fate
      cases h.sub x with
      | unborn h1 h2 h3 => exact .unborn (by rw [m.fate]; exact h1) (by rw [m.subs]; exact h2) h3
      | gone r' f late h1 h2 h3 h4 h5 h6 h7 =>
          have hne : r' ≠ r := fun heq => howner ⟨f, by rw [← heq]; exact h1⟩
          exact .gone r' f late (by rw [m.fate]; exact h1) ((hry r' hne).trans h2)
            ((m.reqFate r' hne).trans h3) (by rw [m.subs]; exact h4) h5 h6 h7
      | alive r' f q h1 h2 h3 h4 h5 h6 =>
          have hne : r' ≠ r := fun heq => howner ⟨f, by rw [← heq]; exact h1⟩
          refine .alive r' f q (by rw [m.fate]; exact h1) ((hry r' hne).trans h2) ?_ h4 ?_ h6
          · rw [m.subs]
            exact h3
          · intro hl
            rcases h5 hl with hm | ⟨hlate, hp⟩
            · exact Or.inl hm
            · exact Or.inr ⟨hlate, fun hpf => m.inTimeout r' x f h1 hpf (hp hpf)⟩
  · intro r'
    by_cases hrr : r' = r
    · rw [hrr]
      exact m.inv
    · exact (h.req r').congr (hry r' hrr) (m.reqFate r' hrr) rfl (fun x _ => by rw [m.fate])
        (m.todo r' hrr) (m.halfDone r' hrr) (m.owes r' hrr) (m.cleans r' hrr)
  · rw [m.fate, m.subs]
    exact h.inHand
  · rw [m.fate, m.subs]
    exact h.waits
  · intro r' y hy
    rw [m.fate]
    exact h.frames r' y (m.frames r' y hy)
  · rw [m.fate, m.nextSub]
    exact h.subFresh
  · intro r'
    rw [(m.passes r').1, (m.passes r').2]
    exact h.passes r'

/-- **A change of the control only**, and events about nobody. -/
theorem TableInv.control (h : TableInv t L v hole owed) {hd : Handler ν} {stack : List CallFrame}
    {hist : List Event} (hfate : subLife.life hist = subLife.life t.hist)
    (hreqFate : reqLife.life hist = reqLife.life t.hist) (hlawful : subLife.Lawful hist)
    (hreqLawful : reqLife.Lawful hist)
    (htimeout : ∀ r x, t.handler = .backendTimeout r x → hd = .backendTimeout r x)
    (htodo : ∀ r, hd.todo r = t.handler.todo r)
    (hhalf : ∀ r, stack.countP (CallFrame.isShardDoneOf r) = t.halfDone r)
    (hcleans : ∀ r, t.handler.Cleans r → hd.Cleans r)
    (hframes : ∀ r y, .shardDone r y ∈ stack → .shardDone r y ∈ t.stack)
    (hhandler : HandlerInv t L hd)
    (hpasses : ∀ r, hist.countP (Event.isPopped r) = t.hist.countP (Event.isPopped r)
      ∧ hist.countP (Event.isIssued r) = t.hist.countP (Event.isIssued r)) :
    TableInv { t with handler := hd, stack := stack, hist := hist } L v hole owed := by
  have hfate' : ({ t with handler := hd, stack := stack, hist := hist } : ReqTable ν).fate = t.fate :=
    hfate
  refine ⟨h.lists, ?_, ?_, ?_, ?_, ?_, ?_, hlawful, hreqLawful, ?_, ?_, ?_⟩
  · intro x
    exact (h.sub x).congr (congrFun hfate x) rfl (fun r f _ => ⟨rfl, congrFun hreqFate r⟩)
      (fun r => Iff.rfl) (fun _ hn => hn) (fun _ _ hm => hm) (fun r => htimeout r x)
      (fun heq => heq)
  · intro r
    exact (h.req r).congr rfl (congrFun hreqFate r) rfl (fun x _ => by rw [hfate']) (htodo r)
      (hhalf r) Iff.rfl (hcleans r)
  · rw [hfate']
    exact h.inHand
  · rw [hfate']
    exact h.waits
  · intro r y hy
    rw [hfate']
    exact h.frames r y (hframes r y hy)
  · exact hhandler.congr (fun r q hq => ⟨q, hq, rfl⟩) (fun _ _ _ hs => hs)
  · rw [hfate']
    exact h.subFresh
  · intro r
    show reqLife.life hist r = _ ↔ _
    rw [hreqFate]
    exact h.reqFresh r
  · intro r
    rw [(hpasses r).1, (hpasses r).2]
    exact h.passes r

end RedisAgent
