/-
  RedisAgent.Server.Accept — how connections come and go.

  `accept_cb` takes a connection from the listening socket, and keeps it if the whitelist
  that is consulted at that moment admits its address.  When the process is out of file
  descriptors it takes `listen_ev` out of the loop, and a timer calls `enable_accept`, which
  puts it back in and frees the timer.  The socket of a connection is closed with
  `connection_free`, by the `bufferevent`.

  The connections are those of Conn/Replies, the whitelist is that of Whitelist/Live.  What the
  system calls return is an input of the step.  The other descriptors of the process (logs,
  backends) only decide when `accept` says that there are none left.  A step that reads a whitelist
  that was released, or writes through a null pointer, has no result.

  Main result:
    • `accept_sound` — in every run: the process accepts, or one timer is about to make it;
      every connection was admitted; the sockets that are open are those of the connections
      that are not freed, each of one; and which step makes the process die.
-/
import RedisAgent.Conn.Replies
import RedisAgent.Whitelist.Live
import Mathlib.Data.Finset.Basic

namespace RedisAgent

/-! ## §1. The code. -/

/-- The listening socket, the timers, the whitelist and the connections.  `timers` says of
each `event_timer_t` that is allocated whether it is pending; `fd` is the socket of a
connection. -/
structure Acceptor where
  /-- `exit` was not called -/
  running : Bool
  /-- `listen_ev` is in the loop -/
  listening : Bool
  /-- the second argument of the last `listen` -/
  backlog : Int
  enableTimer : Option Nat
  timers : Nat → Option Bool
  nextTimer : Nat
  whitelist : WlState
  fds : Finset Nat
  fd : Nat → Nat
  clients : Nat → Option Client

/-- What `accept` returns. -/
inductive AcceptResult
  | ok (fd : Nat) (addr : UInt32)
  | eintr
  /-- `ENFILE` or `EMFILE`; does `listen(listenfd, 0)` work? -/
  | full (listens : Bool)
  | failed
  deriving Repr, DecidableEq

inductive AcceptorOp
  /-- `listen_ev` fires; `k` is the connection, if there is one -/
  | accept (result : AcceptResult) (k : Nat)
  /-- the timer `t` fires: do `listen` and `event_add` work? -/
  | timer (t : Nat) (listens adds : Bool)
  | whitelist (op : WlOp)
  /-- an event of a connection -/
  | client (k : Nat) (op : ClientOp)

namespace Acceptor

/-- `exit(-1)` -/
def exit (s : Acceptor) : Acceptor := { s with running := false }

/-- `event_timer_new` -/
def eventTimerNew (s : Acceptor) : Nat × Acceptor :=
  (s.nextTimer, { s with
    timers := Function.update s.timers s.nextTimer (some true)
    nextTimer := s.nextTimer + 1 })

/-- `event_timer_free` -/
def eventTimerFree (s : Acceptor) (t : Nat) : Option Acceptor :=
  (s.timers t).map (fun _ => { s with timers := Function.update s.timers t none })

/-- `enable_accept` -/
def enableAccept (s : Acceptor) (listens adds : Bool) : Option Acceptor :=
  if !listens then some s.exit
  else
    let s := { s with backlog := -1 }
    if !adds then some s.exit
    else
      let s := { s with listening := true }
      match s.enableTimer with
      | none => some s
      | some t => (s.eventTimerFree t).map (fun s => { s with enableTimer := none })

/-- `accept_cb` -/
def acceptCb (s : Acceptor) (k : Nat) : AcceptResult → Option Acceptor
  | .eintr => some s
  | .full listens =>
      if !listens then some s.exit
      else
        let (t, s) := { s with backlog := 0, listening := false }.eventTimerNew
        some { s with enableTimer := some t }
  | .failed => some s.exit
  | .ok fd addr =>
      let s := { s with fds := insert fd s.fds }
      (inWhitelistU s.whitelist addr).map (fun admitted =>
        if !admitted then { s with fds := s.fds.erase fd }
        else
          { s with
            fd := Function.update s.fd k fd
            clients := Function.update s.clients k (some Client.accepted) })

/-- `my_timer_cb`; the timer is not a repeating one. -/
def myTimerCb (s : Acceptor) (t : Nat) (listens adds : Bool) : Option Acceptor :=
  { s with timers := Function.update s.timers t (some false) }.enableAccept listens adds

/-- An event of a connection; `connection_free` closes the socket. -/
def clientEvent (fmt : NsheadFormat) (s : Acceptor) (k : Nat) (op : ClientOp) : Option Acceptor :=
  match s.clients k with
  | none => some s
  | some c =>
      let c := c.exec fmt op
      if c.conn.faulted then none
      else
        some { s with
          clients := Function.update s.clients k (some c)
          fds := if c.conn.freed then s.fds.erase (s.fd k) else s.fds }

/-- The state after one step; freeing a timer twice has no result either. -/
def exec (fmt : NsheadFormat) (s : Acceptor) : AcceptorOp → Option Acceptor
  | .accept result k => s.acceptCb k result
  | .timer t listens adds => s.myTimerCb t listens adds
  | .whitelist op => some { s with whitelist := s.whitelist.exec op }
  | .client k op => s.clientEvent fmt k op

/-- When a step can be taken; the system does not hand out a descriptor that is in use. -/
def Enabled (s : Acceptor) : AcceptorOp → Prop
  | .accept result k => s.running = true ∧ s.listening = true ∧ s.clients k = none
      ∧ ∀ fd addr, result = .ok fd addr → fd ∉ s.fds
  | .timer t _ _ => s.running = true ∧ s.timers t = some true
  | .whitelist op => s.running = true ∧ s.whitelist.Enabled op
  | .client k op => s.running = true ∧ ∃ c, s.clients k = some c ∧ c.Enabled op

/-- What makes the process exit. -/
def Fatal : AcceptorOp → Prop
  | .accept result _ => result = .failed ∨ result = .full false
  | .timer _ listens adds => listens = false ∨ adds = false
  | _ => False

/-- What makes it die: an address is looked up in a whitelist that was released, or a client
announces what Conn/Lifecycle calls `Connection.BodyIntoNull`. -/
def Dies (fmt : NsheadFormat) (s : Acceptor) : AcceptorOp → Prop
  | .accept (.ok _ _) _ => s.whitelist.Dangling
  | .client k op => ∃ c, s.clients k = some c ∧ c.Dies fmt op
  | _ => False

end Acceptor

/-- Every run, from `enable_accept` in `server_run` on; `server_init` is through. -/
def acceptorLts (fmt : NsheadFormat) : Lts Acceptor AcceptorOp where
  init s := s.running = true ∧ s.listening = true ∧ s.backlog = -1 ∧ s.enableTimer = none
    ∧ s.timers = (fun _ => none) ∧ wlLts.Reachable s.whitelist ∧ s.whitelist.main = .running
    ∧ s.fds = ∅ ∧ s.clients = fun _ => none
  step s op s' := s.Enabled op ∧ s.exec fmt op = some s'

/-! ## §2. The listening socket. -/

namespace Acceptor

variable {fmt : NsheadFormat} {s s' : Acceptor}

/-- The process accepts, and there is no timer. -/
structure Open (s : Acceptor) : Prop where
  listening : s.listening = true
  backlog : s.backlog = -1
  enableTimer : s.enableTimer = none
  timers : ∀ t, s.timers t = none

/-- It does not, and `enable_timer` is the only timer, and pending. -/
structure Suspended (s : Acceptor) (t : Nat) : Prop where
  listening : s.listening = false
  backlog : s.backlog = 0
  enableTimer : s.enableTimer = some t
  timers : ∀ t', s.timers t' = if t' = t then some true else none

/-- Where the listening socket stands. -/
def Gate (s : Acceptor) : Prop := s.Open ∨ ∃ t, s.Suspended t

/-- Only these four fields are looked at. -/
theorem Gate.congr (h : s.Gate) (hlistening : s'.listening = s.listening)
    (hbacklog : s'.backlog = s.backlog) (henable : s'.enableTimer = s.enableTimer)
    (htimers : s'.timers = s.timers) : s'.Gate := by
  rcases h with ⟨hl, hb, he, ht⟩ | ⟨t, hl, hb, he, ht⟩
  · refine Or.inl ⟨hlistening.trans hl, hbacklog.trans hb, henable.trans he, ?_⟩
    rw [htimers]
    exact ht
  · refine Or.inr ⟨t, hlistening.trans hl, hbacklog.trans hb, henable.trans he, ?_⟩
    rw [htimers]
    exact ht

/-- A timer that is pending is `enable_timer`. -/
theorem Gate.pending (h : s.Gate) {t : Nat} (ht : s.timers t = some true) : s.Suspended t := by
  rcases h with hopen | ⟨t', hsus⟩
  · rw [hopen.timers] at ht
    cases ht
  · obtain rfl : t = t' := by
      by_contra hne
      rw [hsus.timers, if_neg hne] at ht
      cases ht
    exact hsus

/-- **Out of descriptors**: the one timer is made. -/
theorem Open.full (h : s.Open) (k : Nat) : ∃ s', s.acceptCb k (.full true) = some s'
    ∧ s'.Suspended s.nextTimer ∧ s'.fds = s.fds ∧ s'.fd = s.fd ∧ s'.clients = s.clients
    ∧ s'.whitelist = s.whitelist := by
  refine ⟨_, rfl, ⟨rfl, rfl, rfl, fun t' => ?_⟩, rfl, rfl, rfl, rfl⟩
  show Function.update s.timers s.nextTimer (some true) t' = _
  by_cases ht : t' = s.nextTimer
  · rw [ht, Function.update_self, if_pos rfl]
  · rw [Function.update_of_ne ht, if_neg ht]
    exact h.timers t'

/-- **The timer fires**: it is freed, and the process accepts again. -/
theorem Suspended.fires {t : Nat} (h : s.Suspended t) :
    ∃ s', s.myTimerCb t true true = some s' ∧ s'.Open ∧ s'.running = s.running := by
  unfold myTimerCb enableAccept eventTimerFree
  simp only [Bool.not_true, Bool.false_eq_true, if_false, h.enableTimer, Function.update_self,
    Option.map_some]
  refine ⟨_, rfl, ⟨rfl, rfl, rfl, fun t' => ?_⟩, rfl⟩
  show Function.update (Function.update s.timers t (some false)) t none t' = none
  rw [Function.update_idem]
  by_cases ht : t' = t
  · rw [ht, Function.update_self]
  · rw [Function.update_of_ne ht, h.timers t', if_neg ht]

/-! ## §3. The sockets. -/

/-- The open sockets are those of the connections that are not freed. -/
structure Sockets (fmt : NsheadFormat) (s : Acceptor) : Prop where
  client : ∀ k c, s.clients k = some c → c.Inv fmt
  opened : ∀ f, f ∈ s.fds ↔ ∃ k c, s.clients k = some c ∧ c.conn.freed = false ∧ s.fd k = f
  own : ∀ k c k' c', s.clients k = some c → s.clients k' = some c' → c.conn.freed = false →
    c'.conn.freed = false → s.fd k = s.fd k' → k = k'

theorem Sockets.congr (h : s.Sockets fmt) (hclients : s'.clients = s.clients) (hfd : s'.fd = s.fd)
    (hfds : s'.fds = s.fds) : s'.Sockets fmt := by
  obtain ⟨hclient, hopened, hown⟩ := h
  refine ⟨?_, ?_, ?_⟩
  · rw [hclients]
    exact hclient
  · rw [hclients, hfd, hfds]
    exact hopened
  · rw [hclients, hfd]
    exact hown

/-- The connection `k` and the others, after `k` was written to. -/
theorem clients_update {clients : Nat → Option Client} {k x : Nat} {c c' : Client}
    (hx : Function.update clients k (some c) x = some c') :
    (x = k ∧ c' = c) ∨ (x ≠ k ∧ clients x = some c') := by
  by_cases hxk : x = k
  · rw [hxk, Function.update_self] at hx
    exact Or.inl ⟨hxk, (Option.some.inj hx).symm⟩
  · rw [Function.update_of_ne hxk] at hx
    exact Or.inr ⟨hxk, hx⟩

/-- **A connection is made** on a socket of its own. -/
theorem Sockets.accepted (h : s.Sockets fmt) {k fd : Nat} (hk : s.clients k = none)
    (hfd : fd ∉ s.fds) :
    Sockets fmt { s with
      fds := insert fd s.fds
      fd := Function.update s.fd k fd
      clients := Function.update s.clients k (some Client.accepted) } := by
  have hother : ∀ x c, s.clients x = some c → x ≠ k := by
    rintro x c hx rfl
    rw [hk] at hx
    cases hx
  -- the sockets in use are others
  have hnot : ∀ x c, s.clients x = some c → c.conn.freed = false → s.fd x ≠ fd :=
    fun x c hx hfree he => hfd ((h.opened fd).2 ⟨x, c, hx, hfree, he⟩)
  constructor
  case client =>
    intro x c hx
    rcases clients_update hx with ⟨-, rfl⟩ | ⟨-, hx⟩
    · exact Client.accepted_inv
    · exact h.client x c hx
  case opened =>
    intro f
    show f ∈ insert fd s.fds ↔ _
    rw [Finset.mem_insert, h.opened]
    constructor
    · rintro (rfl | ⟨x, c, hx, hfree, hf⟩)
      · exact ⟨k, Client.accepted, Function.update_self _ _ _, rfl, Function.update_self _ _ _⟩
      · have hxk := hother x c hx
        refine ⟨x, c, (Function.update_of_ne hxk _ _).trans hx, hfree, ?_⟩
        exact (Function.update_of_ne hxk _ _).trans hf
    · rintro ⟨x, c, hx, hfree, hf⟩
      have hf' : Function.update s.fd k fd x = f := hf
      rcases clients_update hx with ⟨rfl, -⟩ | ⟨hxk, hx⟩
      · rw [Function.update_self] at hf'
        exact Or.inl hf'.symm
      · rw [Function.update_of_ne hxk] at hf'
        exact Or.inr ⟨x, c, hx, hfree, hf'⟩
  case own =>
    intro x c x' c' hx hx' hfree hfree' he
    have he' : Function.update s.fd k fd x = Function.update s.fd k fd x' := he
    rcases clients_update hx with ⟨hxk, -⟩ | ⟨hxk, hx⟩
    · rcases clients_update hx' with ⟨hxk', -⟩ | ⟨hxk', hx'⟩
      · exact hxk.trans hxk'.symm
      · rw [hxk, Function.update_self, Function.update_of_ne hxk'] at he'
        exact absurd he'.symm (hnot x' c' hx' hfree')
    · rcases clients_update hx' with ⟨hxk', -⟩ | ⟨hxk', hx'⟩
      · rw [hxk', Function.update_self, Function.update_of_ne hxk] at he'
        exact absurd he' (hnot x c hx hfree)
      · rw [Function.update_of_ne hxk, Function.update_of_ne hxk'] at he'
        exact h.own x c x' c' hx hx' hfree hfree' he'

/-- A connection on which something happens is not freed yet. -/
theorem not_freed {c : Client} (h : c.Inv fmt) {op : ClientOp} (hen : c.Enabled op) :
    c.conn.freed = false := by
  cases op with
  | arrive bytes => exact hen.2.2.1
  | error => exact hen.2
  | finish writebuf => exact (h.standing hen.2).2

/-- **An event of a connection** closes its socket, if it frees the connection. -/
theorem Sockets.event (h : s.Sockets fmt) {k : Nat} {c : Client} (hk : s.clients k = some c)
    {op : ClientOp} (hen : c.Enabled op) : Sockets fmt { s with
      clients := Function.update s.clients k (some (c.exec fmt op))
      fds := if (c.exec fmt op).conn.freed then s.fds.erase (s.fd k) else s.fds } := by
  have hfree := not_freed (h.client k c hk) hen
  have hinv := (h.client k c hk).exec hen
  -- the sockets of the others are not that of `k`
  have hnot : ∀ x d, s.clients x = some d → d.conn.freed = false → x ≠ k → s.fd x ≠ s.fd k :=
    fun x d hx hd hxk he => hxk (h.own x d k c hx hk hd hfree he)
  constructor
  case client =>
    intro x d hx
    rcases clients_update hx with ⟨-, rfl⟩ | ⟨-, hx⟩
    · exact hinv
    · exact h.client x d hx
  case own =>
    intro x d x' d' hx hx' hd hd' he
    rcases clients_update hx with ⟨hxk, -⟩ | ⟨hxk, hx⟩
    · rcases clients_update hx' with ⟨hxk', -⟩ | ⟨hxk', hx'⟩
      · exact hxk.trans hxk'.symm
      · rw [hxk] at he
        exact absurd he.symm (hnot x' d' hx' hd' hxk')
    · rcases clients_update hx' with ⟨hxk', -⟩ | ⟨hxk', hx'⟩
      · rw [hxk'] at he
        exact absurd he (hnot x d hx hd hxk)
      · exact h.own x d x' d' hx hx' hd hd' he
  case opened =>
    intro f
    cases hclosed : (c.exec fmt op).conn.freed with
    | true =>
        simp only [if_true, Finset.mem_erase, h.opened]
        constructor
        · rintro ⟨hne, x, d, hx, hd, hf⟩
          have hxk : x ≠ k := by
            rintro rfl
            exact hne hf.symm
          exact ⟨x, d, (Function.update_of_ne hxk _ _).trans hx, hd, hf⟩
        · rintro ⟨x, d, hx, hd, hf⟩
          rcases clients_update hx with ⟨-, rfl⟩ | ⟨hxk, hx⟩
          · rw [hclosed] at hd
            cases hd
          · exact ⟨hf ▸ hnot x d hx hd hxk, x, d, hx, hd, hf⟩
    | false =>
        simp only [Bool.false_eq_true, if_false, h.opened]
        constructor
        · rintro ⟨x, d, hx, hd, hf⟩
          by_cases hxk : x = k
          · exact ⟨k, c.exec fmt op, Function.update_self _ _ _, hclosed, hxk ▸ hf⟩
          · exact ⟨x, d, (Function.update_of_ne hxk _ _).trans hx, hd, hf⟩
        · rintro ⟨x, d, hx, hd, hf⟩
          rcases clients_update hx with ⟨rfl, -⟩ | ⟨hxk, hx⟩
          · exact ⟨x, c, hk, hfree, hf⟩
          · exact ⟨x, d, hx, hd, hf⟩

/-! ## §4. Runs. -/

/-- What holds between two steps. -/
structure Inv (fmt : NsheadFormat) (s : Acceptor) : Prop where
  gate : s.running = true → s.Gate
  sockets : s.Sockets fmt
  whitelist : WlInv s.whitelist

/-- **What a step does**: the process dies of it, or it keeps the invariant. -/
inductive Outcome (fmt : NsheadFormat) (s : Acceptor) (op : AcceptorOp) : Prop
  | dies : s.exec fmt op = none → s.Dies fmt op → Outcome fmt s op
  | goes {s' : Acceptor} : s.exec fmt op = some s' → ¬ s.Dies fmt op → s'.Inv fmt →
      Outcome fmt s op

theorem Outcome.inv {op : AcceptorOp} (h : s.Outcome fmt op) (hexec : s.exec fmt op = some s') :
    s'.Inv fmt := by
  cases h with
  | dies hnone =>
      rw [hexec] at hnone
      cases hnone
  | goes hs _ hinv =>
      rw [hexec] at hs
      cases hs
      exact hinv

/-- A step has no result exactly when it makes the process die. -/
theorem Outcome.dies_iff {op : AcceptorOp} (h : s.Outcome fmt op) :
    s.exec fmt op = none ↔ s.Dies fmt op := by
  cases h with
  | dies hnone hd => exact iff_of_true hnone hd
  | goes hs hd =>
      rw [hs]
      exact iff_of_false (Option.some_ne_none _) hd

/-- `accept_cb`, whatever `accept` returns. -/
theorem Inv.accept (hi : s.Inv fmt) {result : AcceptResult} {k : Nat}
    (hen : s.Enabled (.accept result k)) : s.Outcome fmt (.accept result k) := by
  obtain ⟨hrun, hlisten, hk, hfd⟩ := hen
  -- the callback runs only while the process accepts
  have hopen : s.Open := by
    rcases hi.gate hrun with hopen | ⟨t, hsus⟩
    · exact hopen
    · have := hsus.listening
      rw [hlisten] at this
      cases this
  have hexit : s.exit.Inv fmt :=
    ⟨(fun h => by cases h), hi.sockets.congr rfl rfl rfl, hi.whitelist⟩
  cases result with
  | eintr => exact .goes rfl id hi
  | failed => exact .goes rfl id hexit
  | full listens =>
      cases listens with
      | false => exact .goes rfl id hexit
      | true =>
          obtain ⟨s', hs, hsus, hfds, hfd', hclients, hwl⟩ := hopen.full k
          refine .goes hs id ⟨fun _ => Or.inr ⟨_, hsus⟩, hi.sockets.congr hclients hfd' hfds, ?_⟩
          rw [hwl]
          exact hi.whitelist
  | ok fd addr =>
      have hfree := hfd fd addr rfl
      have hdangling := (hi.whitelist.dangling_iff 0 addr).2
      cases hin : inWhitelistU s.whitelist addr with
      | none =>
          refine .dies ?_ (hdangling.1 hin)
          show s.acceptCb k (.ok fd addr) = none
          unfold acceptCb
          simp only [hin, Option.map_none]
      | some admitted =>
          have hnot : ¬ s.whitelist.Dangling := by
            intro hd
            rw [hdangling.2 hd] at hin
            cases hin
          have hexec : s.exec fmt (.accept (.ok fd addr) k) = some (if !admitted then
                { s with fds := (insert fd s.fds).erase fd }
              else
                { s with
                  fds := insert fd s.fds
                  fd := Function.update s.fd k fd
                  clients := Function.update s.clients k (some Client.accepted) }) := by
            show s.acceptCb k (.ok fd addr) = _
            unfold acceptCb
            simp only [hin, Option.map_some]
          refine .goes hexec hnot ?_
          cases admitted with
          | true =>
              exact ⟨fun _ => (hi.gate hrun).congr rfl rfl rfl rfl, hi.sockets.accepted hk hfree,
                hi.whitelist⟩
          | false =>
              refine ⟨fun _ => (hi.gate hrun).congr rfl rfl rfl rfl, ?_, hi.whitelist⟩
              exact hi.sockets.congr rfl rfl (Finset.erase_insert hfree)

/-- The timer, whatever `listen` and `event_add` return. -/
theorem Inv.timer (hi : s.Inv fmt) {t : Nat} {listens adds : Bool}
    (hen : s.Enabled (.timer t listens adds)) : s.Outcome fmt (.timer t listens adds) := by
  obtain ⟨hrun, harmed⟩ := hen
  have hsus := (hi.gate hrun).pending harmed
  cases listens with
  | false =>
      exact .goes rfl id ⟨fun h => (by cases h), hi.sockets.congr rfl rfl rfl, hi.whitelist⟩
  | true =>
      cases adds with
      | false =>
          exact .goes rfl id ⟨fun h => (by cases h), hi.sockets.congr rfl rfl rfl, hi.whitelist⟩
      | true =>
          obtain ⟨s', hs, hopen, -⟩ := hsus.fires
          refine .goes hs id ?_
          unfold myTimerCb enableAccept eventTimerFree at hs
          simp only [Bool.not_true, Bool.false_eq_true, if_false, hsus.enableTimer,
            Function.update_self, Option.map_some] at hs
          cases hs
          exact ⟨fun _ => Or.inl hopen, hi.sockets.congr rfl rfl rfl, hi.whitelist⟩

/-- An event of a connection. -/
theorem Inv.client (hi : s.Inv fmt) {k : Nat} {op : ClientOp} (hen : s.Enabled (.client k op)) :
    s.Outcome fmt (.client k op) := by
  obtain ⟨hrun, c, hk, hen⟩ := hen
  have hfault := (hi.sockets.client k c hk).exec_faulted hen
  have hdies : s.Dies fmt (.client k op) ↔ c.Dies fmt op := by
    constructor
    · rintro ⟨c', hk', hd⟩
      rw [hk] at hk'
      cases hk'
      exact hd
    · exact fun hd => ⟨c, hk, hd⟩
  rw [← hdies] at hfault
  have hexec : s.exec fmt (.client k op) = if (c.exec fmt op).conn.faulted then none
      else some { s with
        clients := Function.update s.clients k (some (c.exec fmt op))
        fds := if (c.exec fmt op).conn.freed then s.fds.erase (s.fd k) else s.fds } := by
    show s.clientEvent fmt k op = _
    unfold clientEvent
    simp only [hk]
  cases hf : (c.exec fmt op).conn.faulted with
  | true =>
      refine .dies ?_ (hfault.1 hf)
      rw [hexec, if_pos hf]
  | false =>
      rw [hf, if_neg Bool.false_ne_true] at hexec
      refine .goes hexec (fun hd => ?_) ?_
      · rw [hfault.2 hd] at hf
        cases hf
      · exact ⟨fun _ => (hi.gate hrun).congr rfl rfl rfl rfl, hi.sockets.event hk hen,
          hi.whitelist⟩

/-- **A step.** -/
theorem Inv.step (hi : s.Inv fmt) {op : AcceptorOp} (hen : s.Enabled op) : s.Outcome fmt op := by
  cases op with
  | accept result k => exact hi.accept hen
  | timer t listens adds => exact hi.timer hen
  | whitelist op =>
      exact .goes rfl id ⟨fun h => (hi.gate h).congr rfl rfl rfl rfl, hi.sockets.congr rfl rfl rfl,
        hi.whitelist.step hen.2⟩
  | client k op => exact hi.client hen

/-- The connection `k` was admitted in a step of `tr`, by the whitelist consulted then. -/
def Admitted (tr : List (Acceptor × AcceptorOp)) (k : Nat) : Prop :=
  ∃ s₀ fd addr, (s₀, AcceptorOp.accept (.ok fd addr) k) ∈ tr ∧ inWhitelistU s₀.whitelist addr = some true

theorem Admitted.mono {tr tr' : List (Acceptor × AcceptorOp)} {k : Nat} (h : Admitted tr k) :
    Admitted (tr ++ tr') k := by
  obtain ⟨s₀, fd, addr, hmem, hin⟩ := h
  exact ⟨s₀, fd, addr, List.mem_append_left _ hmem, hin⟩

/-- A connection that was accepted and looked up. -/
theorem acceptCb_ok {k fd : Nat} {addr : UInt32} (h : s.acceptCb k (.ok fd addr) = some s') :
    s'.running = s.running ∧ (s'.clients = s.clients
      ∨ inWhitelistU s.whitelist addr = some true
        ∧ s'.clients = Function.update s.clients k (some Client.accepted)) := by
  unfold acceptCb at h
  obtain ⟨admitted, hin, hs⟩ := Option.map_eq_some_iff.1 h
  cases admitted with
  | true =>
      rw [← hs]
      exact ⟨rfl, Or.inr ⟨hin, rfl⟩⟩
  | false =>
      rw [← hs]
      exact ⟨rfl, Or.inl rfl⟩

/-- An event makes no connection. -/
theorem clientEvent_some {k : Nat} {op : ClientOp} (h : s.clientEvent fmt k op = some s') :
    s'.running = s.running ∧ ∀ x c, s'.clients x = some c → ∃ c, s.clients x = some c := by
  unfold clientEvent at h
  cases hk : s.clients k with
  | none =>
      simp only [hk] at h
      cases h
      exact ⟨rfl, fun x c hx => ⟨c, hx⟩⟩
  | some d =>
      simp only [hk] at h
      split at h
      · cases h
      · cases h
        refine ⟨rfl, fun x c hx => ?_⟩
        rcases clients_update hx with ⟨rfl, -⟩ | ⟨-, hx⟩
        · exact ⟨d, hk⟩
        · exact ⟨c, hx⟩

/-- **A connection is made** by an admitting step, or was there before. -/
theorem exec_clients {op : AcceptorOp} (hexec : s.exec fmt op = some s') {k : Nat} {c : Client}
    (hk : s'.clients k = some c) : (∃ c, s.clients k = some c)
      ∨ ∃ fd addr, op = .accept (.ok fd addr) k ∧ inWhitelistU s.whitelist addr = some true := by
  cases op with
  | accept result x =>
      cases result with
      | eintr =>
          obtain rfl := Option.some.inj hexec
          exact Or.inl ⟨c, hk⟩
      | failed =>
          obtain rfl := Option.some.inj hexec
          exact Or.inl ⟨c, hk⟩
      | full listens =>
          cases listens with
          | false =>
              obtain rfl := Option.some.inj hexec
              exact Or.inl ⟨c, hk⟩
          | true =>
              obtain rfl := Option.some.inj hexec
              exact Or.inl ⟨c, hk⟩
      | ok fd addr =>
          rcases (acceptCb_ok hexec).2 with hsame | ⟨hin, hmade⟩
          · rw [hsame] at hk
            exact Or.inl ⟨c, hk⟩
          · rw [hmade] at hk
            rcases clients_update hk with ⟨rfl, -⟩ | ⟨-, hk⟩
            · exact Or.inr ⟨fd, addr, rfl, hin⟩
            · exact Or.inl ⟨c, hk⟩
  | timer t listens adds =>
      refine Or.inl ⟨c, ?_⟩
      -- `enable_accept` does not touch the connections
      have hsame : s'.clients = s.clients := by
        have hexec' : s.myTimerCb t listens adds = some s' := hexec
        unfold myTimerCb enableAccept eventTimerFree at hexec'
        cases listens with
        | false =>
            rw [← Option.some.inj hexec']
            rfl
        | true =>
            cases adds with
            | false =>
                rw [← Option.some.inj hexec']
                rfl
            | true =>
                simp only [Bool.not_true, Bool.false_eq_true, if_false] at hexec'
                cases henable : s.enableTimer with
                | none =>
                    simp only [henable] at hexec'
                    rw [← Option.some.inj hexec']
                | some t' =>
                    simp only [henable, Option.map_map] at hexec'
                    obtain ⟨armed, -, rfl⟩ := Option.map_eq_some_iff.1 hexec'
                    rfl
      rw [← hsame]
      exact hk
  | whitelist op =>
      obtain rfl := Option.some.inj hexec
      exact Or.inl ⟨c, hk⟩
  | client x op => exact Or.inl ((clientEvent_some hexec).2 k c hk)

/-- Only a fatal step makes the process exit. -/
theorem exec_running {op : AcceptorOp} (hexec : s.exec fmt op = some s') (hrun : s.running = true)
    (hgate : s.Gate) (hen : s.Enabled op) (hexit : s'.running ≠ true) : Fatal op := by
  cases op with
  | accept result x =>
      cases result with
      | eintr =>
          obtain rfl := Option.some.inj hexec
          exact absurd hrun hexit
      | failed => exact Or.inl rfl
      | full listens =>
          cases listens with
          | false => exact Or.inr rfl
          | true =>
              obtain rfl := Option.some.inj hexec
              exact absurd hrun hexit
      | ok fd addr => exact absurd ((acceptCb_ok hexec).1.trans hrun) hexit
  | timer t listens adds =>
      cases listens with
      | false => exact Or.inl rfl
      | true =>
          cases adds with
          | false => exact Or.inr rfl
          | true =>
              obtain ⟨s'', hs, -, hsame⟩ := (hgate.pending hen.2).fires
              have hs' : s.myTimerCb t true true = some s' := hexec
              rw [hs] at hs'
              cases hs'
              exact absurd (hsame.trans hrun) hexit
  | whitelist op =>
      obtain rfl := Option.some.inj hexec
      exact absurd hrun hexit
  | client x op => exact absurd ((clientEvent_some hexec).1.trans hrun) hexit

/-- **Every run**, by induction on it. -/
theorem Inv.of_run {tr : List (Acceptor × AcceptorOp)} {s : Acceptor} (h : (acceptorLts fmt).Run tr s) :
    s.Inv fmt ∧ (∀ k c, s.clients k = some c → Admitted tr k)
      ∧ (s.running ≠ true → ∃ q ∈ tr, Fatal q.2) := by
  induction h with
  | init hinit =>
      obtain ⟨hrun, hlisten, hback, henable, htimers, ⟨tr, hwl⟩, -, hfds, hclients⟩ := hinit
      rename_i s₀
      have hnone : ∀ k c, s₀.clients k ≠ some c := by
        intro k c hk
        rw [hclients] at hk
        cases hk
      refine ⟨⟨fun _ => Or.inl ⟨hlisten, hback, henable, fun t => ?_⟩, ⟨?_, ?_, ?_⟩,
        WlInv.of_run hwl⟩, ?_, ?_⟩
      · rw [htimers]
      · exact fun k c hk => absurd hk (hnone k c)
      · intro f
        rw [hfds]
        refine iff_of_false (Finset.notMem_empty f) ?_
        rintro ⟨k, c, hk, -⟩
        exact hnone k c hk
      · exact fun k c k' c' hk => absurd hk (hnone k c)
      · exact fun k c hk => absurd hk (hnone k c)
      · exact fun hexit => absurd hrun hexit
  | step hrun hstep ih =>
      obtain ⟨hi, hadmitted, hfatal⟩ := ih
      obtain ⟨hen, hexec⟩ := hstep
      have hi' : Inv fmt _ := (hi.step hen).inv hexec
      refine ⟨hi', fun k c hk => ?_, fun hexit => ?_⟩
      · rcases exec_clients hexec hk with ⟨c, hk⟩ | ⟨fd, addr, rfl, hin⟩
        · exact (hadmitted k c hk).mono
        · exact ⟨_, fd, addr, List.mem_append_right _ (List.mem_singleton_self _), hin⟩
      · rename_i tr s₀ op s₁
        by_cases hbefore : s₀.running = true
        · exact ⟨_, List.mem_append_right _ (List.mem_singleton_self _),
            exec_running hexec hbefore (hi.gate hbefore) hen hexit⟩
        · obtain ⟨q, hq, hf⟩ := hfatal hbefore
          exact ⟨q, List.mem_append_left _ hq, hf⟩

/-- **How connections come and go**, in the state `s` a run has reached by the steps `tr`. -/
structure Sound (fmt : NsheadFormat) (tr : List (Acceptor × AcceptorOp)) (s : Acceptor) : Prop where
  /-- the process accepts and has no timer, or it has one, which is pending -/
  gate : s.running = true → s.Open ∨ ∃ t, s.Suspended t
  /-- and which makes it accept again -/
  resumes : ∀ t, s.Suspended t → ∃ s', s.exec fmt (.timer t true true) = some s' ∧ s'.Open
  /-- the open sockets are those of the connections that are not freed, each of one -/
  sockets : ∀ f, f ∈ s.fds ↔ ∃ k c, s.clients k = some c ∧ c.conn.freed = false ∧ s.fd k = f
  own : ∀ k c k' c', s.clients k = some c → s.clients k' = some c' → c.conn.freed = false →
    c'.conn.freed = false → s.fd k = s.fd k' → k = k'
  /-- every connection was admitted by the whitelist consulted when it was accepted -/
  admitted : ∀ k c, s.clients k = some c → Admitted tr k
  /-- the process exits only if `accept`, `listen` or `event_add` fails -/
  exits : s.running ≠ true → ∃ q ∈ tr, Fatal q.2
  /-- no timer is freed twice: a step makes the process die only if it looks an address up in
  a whitelist that was released, or reads a body into a null pointer -/
  dies : ∀ op, s.Enabled op → (s.exec fmt op = none ↔ s.Dies fmt op)

end Acceptor

/-- **The listening side of the server**, whatever the system calls return, whichever addresses
connect, however the whitelist is reloaded and whatever the connections do, up to the step the
process dies of, if there is one. -/
theorem accept_sound {fmt : NsheadFormat} {tr : List (Acceptor × AcceptorOp)} {s : Acceptor}
    (h : (acceptorLts fmt).Run tr s) : s.Sound fmt tr := by
  obtain ⟨hi, hadmitted, hfatal⟩ := Acceptor.Inv.of_run h
  constructor
  case gate => exact hi.gate
  case resumes =>
    intro t hsus
    obtain ⟨s', hs, hopen, -⟩ := hsus.fires
    exact ⟨s', hs, hopen⟩
  case sockets => exact hi.sockets.opened
  case own => exact hi.sockets.own
  case admitted => exact hadmitted
  case exits => exact hfatal
  case dies => exact fun op hen => (hi.step hen).dies_iff

/-- `server_run`, without a whitelist. -/
def acceptorStart : Acceptor where
  running := true
  listening := true
  backlog := -1
  enableTimer := none
  timers := fun _ => none
  nextTimer := 0
  whitelist := WlState.start.exec (.initLoad ⟨-1, false, false, []⟩) |>.exec .initAssign
  fds := ∅
  fd := fun _ => 0
  clients := fun _ => none

/-- A connection, and then no descriptor is left. -/
theorem accept_sound_witness : ∃ s₁ s₂ : Acceptor,
    acceptorStart.acceptCb 0 (.ok 5 77) = some s₁ ∧ s₁.acceptCb 1 (.full true) = some s₂
      ∧ s₂.Sound nsheadLayout [(acceptorStart, .accept (.ok 5 77) 0), (s₁, .accept (.full true) 1)]
      ∧ 5 ∈ s₂.fds ∧ s₂.enableTimer = some 0 := by
  have hwl : wlLts.Reachable acceptorStart.whitelist := by
    have hload : wlLts.step WlState.start (.initLoad ⟨-1, false, false, []⟩)
        (WlState.start.exec (.initLoad ⟨-1, false, false, []⟩)) := by
      refine ⟨?_, rfl⟩
      rfl
    have hassign : wlLts.step (WlState.start.exec (.initLoad ⟨-1, false, false, []⟩)) .initAssign
        acceptorStart.whitelist := ⟨⟨none, rfl⟩, rfl⟩
    exact (Lts.Reachable.init rfl |>.step hload).step hassign
  have hstart : (acceptorLts nsheadLayout).Run [] acceptorStart :=
    .init ⟨rfl, rfl, rfl, rfl, rfl, hwl, rfl, rfl, rfl⟩
  have hone : (acceptorLts nsheadLayout).step acceptorStart (.accept (.ok 5 77) 0) _ :=
    ⟨⟨rfl, rfl, rfl, fun fd _ _ => Finset.notMem_empty fd⟩, rfl⟩
  have htwo := (hstart.step hone).step (l := AcceptorOp.accept (.full true) 1)
    ⟨⟨rfl, rfl, rfl, fun _ _ he => by cases he⟩, rfl⟩
  exact ⟨_, _, rfl, rfl, accept_sound htwo, Finset.mem_insert_self 5 _, rfl⟩

end RedisAgent
