/-
  RedisAgent.Slb.Turns — what `RoundRobin` and `Consistency` do over many requests.

  With only `Balance` configured, no rank is disabled, and `SelectFilter` takes the
  `nthRetry`-th rank of the sorted array.  `RoundRobinBalance` gives one server more
  than any `rand() % serverNum`, so that whatever is drawn for the others it comes first;
  `ConsistencyBalance` scores a server by its own text and the key alone.

  Main results:
    • `round_robin_turns` — request after request, the servers take turns;
    • `consistency_hashing` — the choice is the server with the highest score, and other
      servers that come or go do not move it.
-/
import RedisAgent.Lib.Highest
import RedisAgent.Slb.Strategy

namespace RedisAgent

/-! ## §1. The filters when nothing is disabled. -/

/-- Only `Balance` is configured. -/
structure Strategy.BalanceOnly (t : Strategy) (balance : Balance) : Prop where
  balance : t.balance = some balance
  connect : t.connect.loadSucc = false
  healthy : t.healthy.loadSucc = false

/-- In this room, and not disabled. -/
structure ServerRank.Plain (sr : ServerRank) : Prop where
  here : sr.crossRoom = false
  enabled : sr.disabled = false

theorem ServerRank.Plain.choice {sr : ServerRank} (h : sr.Plain) : sr.choice = some sr.serverId := by
  unfold ServerRank.choice
  rw [h.here, h.enabled]
  rfl

/-- **`SelectFilter`** takes the `r`-th rank: by induction on the ranks. -/
theorem selectLoop_plain (r : Nat) (ranks : List ServerRank) :
    ∀ count, (∀ sr ∈ ranks, sr.Plain) →
      selectLoop ((count + r : Nat) : Int) count ranks = ranks[r]?.map ServerRank.serverId := by
  induction ranks generalizing r with
  | nil => exact fun count _ => rfl
  | cons sr ranks ih =>
      intro count h
      have hchoice := (h sr List.mem_cons_self).choice
      have hrest : ∀ sr' ∈ ranks, sr'.Plain := fun sr' hsr' => h sr' (List.mem_cons_of_mem _ hsr')
      unfold selectLoop
      simp only [hchoice]
      cases r with
      | zero =>
          rw [if_pos (by omega)]
          rfl
      | succ r =>
          rw [if_neg (by omega), List.getElem?_cons_succ, ← ih r (count + 1) hrest]
          congr 1
          omega

variable {std : StdSort} {md5 : Md5} {β : Type} {copyCall : β → SlbServer} {s : SlbState}

theorem connectFilter_off (h : s.strategy.connect.loadSucc = false) (ranks : List ServerRank) :
    (connectFilter ranks).run s = (ranks, s) := by
  unfold connectFilter
  show (if s.strategy.connect.loadSucc = true then ranks.mapM (connectRank s.strategy.connect)
    else pure ranks).run s = _
  rw [h]
  rfl

theorem healthyFilter_off (h : s.strategy.healthy.loadSucc = false) (need : Bool)
    (ranks : List ServerRank) : (healthyFilter std need ranks).run s = (ranks, s) := by
  unfold healthyFilter
  show (if (s.strategy.healthy.loadSucc && need) = true then healthyLoops std ranks
    else pure ranks).run s = _
  rw [h]
  rfl

/-- The filters after `BalanceFilter` choose the rank at place `nthRetry`. -/
theorem filtersAfterBalance_plain (hconnect : s.strategy.connect.loadSucc = false)
    (hhealthy : s.strategy.healthy.loadSucc = false) {request : SlbRequest} {r : Nat}
    (hretry : request.nthRetry = r) {ranks : List ServerRank} (hplain : ∀ sr ∈ ranks, sr.Plain)
    {sr : ServerRank} (hsr : ranks[r]? = some sr) :
    (filtersAfterBalance std request ranks).run s = ((some sr.serverId, ranks), s) := by
  have hcross : crossRoomFilter s.strategy.crossRoom request.nthRetry ranks = ranks :=
    crossRoomFilter_here _ _ (fun sr hsr => (hplain sr hsr).here)
  have hselect : (selectFilter request ranks).run s = (some sr.serverId, s) := by
    have hloop := selectLoop_plain r ranks 0 hplain
    rw [hsr, Nat.zero_add] at hloop
    unfold selectFilter
    rw [hretry, hloop]
    rfl
  have hrun : (filtersAfterBalance std request ranks).run s
      = ((fun id => (id, ranks)) ((selectFilter request ranks).run s).1,
          ((selectFilter request ranks).run s).2) := by
    unfold filtersAfterBalance
    rw [StateT.run_bind, connectFilter_off hconnect]
    show (do
      let ranks ← healthyFilter std request.needHealthyFilter ranks
      let ranks := crossRoomFilter (← get).strategy.crossRoom request.nthRetry ranks
      let id ← selectFilter request ranks
      return (id, ranks) : SlbM (Option Nat × List ServerRank)).run s = _
    rw [StateT.run_bind, healthyFilter_off hhealthy]
    show (do
      let id ← selectFilter request
        (crossRoomFilter s.strategy.crossRoom request.nthRetry ranks)
      return (id, crossRoomFilter s.strategy.crossRoom request.nthRetry ranks) :
        SlbM (Option Nat × List ServerRank)).run s = _
    rw [hcross]
    rfl
  rw [hrun, hselect]

/-- What `fetchServer` makes of a request. -/
def SlbFetch.request (copyCall : β → SlbServer) (req : SlbFetch β) : SlbRequest where
  key := req.key
  nthRetry := req.nthRetry
  server := req.svr.map copyCall
  currentMachineRoom := req.currentMachineRoom
  mustSelectOneServer := true
  needHealthyFilter := true

/-- The rank at place `i` of the array that `PrepareFilter` leaves. -/
theorem prepareFilter_getElem? (request : SlbRequest) (i : Nat) :
    (prepareFilter request)[i]? = request.server[i]?.map
      (fun server => prepareRank request.currentMachineRoom i server {}) := by
  unfold prepareFilter
  rw [List.getElem?_mapIdx]

theorem prepareFilter_length (request : SlbRequest) :
    (prepareFilter request).length = request.server.length := by
  unfold prepareFilter
  rw [List.length_mapIdx]

theorem prepareFilter_plain {request : SlbRequest} (hfresh : ∀ server ∈ request.server, server.Fresh) :
    ∀ sr ∈ prepareFilter request, sr.Plain := by
  intro sr hsr
  obtain ⟨i, hi⟩ := List.getElem?_of_mem hsr
  rw [prepareFilter_getElem?] at hi
  obtain ⟨server, hserver, rfl⟩ := Option.map_eq_some_iff.1 hi
  obtain ⟨henable, hhealthy, htag⟩ := hfresh server (List.mem_of_getElem? hserver)
  constructor
  · unfold prepareRank
    simp only [htag]
  · unfold prepareRank
    simp only [henable, hhealthy]
    rfl

/-- **`fetchServer`**, with nothing but a balance: the rank at place `nthRetry` of the
array that the balance has scored. -/
theorem fetchServer_plain {req : SlbFetch β} (hfew : req.svr.length ≤ maxServerSize)
    {balance : Balance} (hbal : s.strategy.balance = some balance) {ranks : List ServerRank}
    {s₁ : SlbState}
    (hserver : (balanceServer md5 req.key balance (prepareFilter (req.request copyCall))).run s
      = (some ranks, s₁))
    (hconnect : s₁.strategy.connect.loadSucc = false)
    (hhealthy : s₁.strategy.healthy.loadSucc = false) (hplain : ∀ sr ∈ ranks, sr.Plain) {r : Nat}
    (hretry : req.nthRetry = r) {sr : ServerRank} (hsr : (std.sort cmpRank ranks)[r]? = some sr) :
    (fetchServer std md5 copyCall req).run s = ((sr.serverId : Int), s₁) := by
  have hsorted : ∀ sr ∈ std.sort cmpRank ranks, sr.Plain :=
    fun sr hsr => hplain sr ((std.perm cmpRank ranks).subset hsr)
  have hbalance : (balanceFilter std md5 (req.request copyCall).key
      (prepareFilter (req.request copyCall))).run s = (some (std.sort cmpRank ranks), s₁) := by
    rw [balanceFilter_run, hbal]
    simp only
    have hserver' : (balanceServer md5 (req.request copyCall).key balance
        (prepareFilter (req.request copyCall))).run s = (some ranks, s₁) := hserver
    rw [hserver']
    rfl
  have hchain : (chainFilter std md5 (req.request copyCall)).run s
      = ((some sr.serverId, std.sort cmpRank ranks), s₁) := by
    unfold chainFilter
    rw [StateT.run_bind, hbalance]
    exact filtersAfterBalance_plain hconnect hhealthy hretry hsorted hsr
  have hany : (std.sort cmpRank ranks).any (fun sr' => sr'.serverId == sr.serverId) = true :=
    List.any_eq_true.2 ⟨sr, List.mem_of_getElem? hsr, beq_self_eq_true _⟩
  unfold fetchServer
  rw [if_neg (Nat.not_lt.2 hfew)]
  show (chainFilter std md5 (req.request copyCall) >>= _ : SlbM Int).run s = _
  rw [StateT.run_bind, hchain]
  show (if (std.sort cmpRank ranks).any (fun sr' => sr'.serverId == sr.serverId) = true
    then (sr.serverId : Int) else -1, s₁) = _
  rw [if_pos hany]

/-! ## §2. `std::sort` by rank. -/

/-- The ranks in the order `_cmp_rank` puts them. -/
theorem sort_cmpRank (std : StdSort) (ranks : List ServerRank) :
    (std.sort cmpRank ranks).Pairwise
      (fun a b => ¬ a.balanceRank.toNat < b.balanceRank.toNat) := by
  have hsorted := std.sorted cmpRank ranks ?_ ?_
  · refine hsorted.imp (fun {a b} h => ?_)
    unfold cmpRank at h
    rw [← UInt64.lt_iff_toNat_lt]
    exact of_decide_eq_false h
  · intro a b h
    unfold cmpRank at h ⊢
    have hlt := of_decide_eq_true h
    exact decide_eq_false (fun h' => (UInt64.lt_asymm hlt h'))
  · intro a b c hab hbc
    unfold cmpRank at hab hbc ⊢
    have hab' := of_decide_eq_false hab
    have hbc' := of_decide_eq_false hbc
    refine decide_eq_false (fun h => ?_)
    rw [UInt64.lt_iff_toNat_lt] at hab' hbc' h
    omega

/-- The first of them has the highest rank. -/
theorem sort_head {ranks : List ServerRank} {sr : ServerRank}
    (h : (std.sort cmpRank ranks)[0]? = some sr) : Highest (fun sr => sr.balanceRank.toNat) ranks sr := by
  cases hsort : std.sort cmpRank ranks with
  | nil =>
      rw [hsort] at h
      cases h
  | cons sr' rest =>
      rw [hsort] at h
      cases h
      have hpair := sort_cmpRank std ranks
      rw [hsort] at hpair
      have htop := Highest.of_sorted hpair
      have hperm := std.perm cmpRank ranks
      rw [hsort] at hperm
      exact ⟨hperm.subset htop.mem, fun y hy => htop.le y (hperm.symm.subset hy)⟩

/-! ## §3. `RoundRobinBalance`. -/

/-- The server whose turn it is. -/
def turnOf (lastId : Int32) (serverNum : Nat) : Nat :=
  ((if lastId < 0 then -1 else lastId) + 1).toUInt32.toNat % serverNum

/-- The rank of the server at place `p.2`: more than all others have, if it is its turn. -/
structure TurnRank (cur serverNum : Nat) (p : ServerRank × Nat) (sr : ServerRank) : Prop where
  rescored : Rescored p.1 sr
  disabled : sr.disabled = p.1.disabled
  turn : p.2 = cur → sr.balanceRank = UInt64.ofNat (serverNum + 1)
  other : p.2 ≠ cur → ∃ rnd, sr.balanceRank = UInt64.ofNat (rnd % serverNum)

/-- **`RoundRobinBalance::balanceServer`** -/
theorem balanceServer_roundRobin (md5 : Md5) (key : Int) (lastId : Int32) {ranks : List ServerRank}
    (hne : ranks.length ≠ 0) (s : SlbState) :
    ∃ ranks' s', (balanceServer md5 key (.roundRobin lastId) ranks).run s = (some ranks', s')
      ∧ List.Forall₂ (TurnRank (turnOf lastId ranks.length) ranks.length) ranks.zipIdx ranks'
      ∧ s'.strategy = { s.strategy with balance := some (.roundRobin (lastId + 1)) } := by
  have hloop := Ensures.mapM (S := fun s s' : SlbState => s'.strategy = s.strategy)
    (f := fun p : ServerRank × Nat =>
      if p.2 = turnOf lastId ranks.length then
        return { p.1 with balanceRank := UInt64.ofNat (ranks.length + 1) }
      else do
        let rnd ← rand
        return { p.1 with balanceRank := UInt64.ofNat (rnd % ranks.length) })
    (R := TurnRank (turnOf lastId ranks.length) ranks.length)
    (fun _ => rfl) (fun _ _ _ h h' => h'.trans h) (by
      intro p s
      by_cases hp : p.2 = turnOf lastId ranks.length
      · simp only [if_pos hp]
        exact ⟨⟨⟨rfl, rfl, rfl, rfl, rfl⟩, rfl, fun _ => rfl, fun hno => absurd hp hno⟩, rfl⟩
      · simp only [if_neg hp]
        exact ⟨⟨⟨rfl, rfl, rfl, rfl, rfl⟩, rfl, fun h => absurd h hp, fun _ => ⟨_, rfl⟩⟩, rfl⟩)
    ranks.zipIdx { s with strategy := { s.strategy with balance := some (.roundRobin (lastId + 1)) } }
  refine ⟨_, _, ?_, hloop.1, hloop.2⟩
  unfold balanceServer
  rw [if_neg hne]
  rfl

/-- `_lastId++` counts the requests, until it overflows. -/
theorem lastId_next {lastId : Int32} {t : Nat} (h : lastId.toInt = (t : Int) - 1)
    (ht : t < 2 ^ 31) : (lastId + 1).toInt = t := by
  have hone : (1 : Int32).toInt = 1 := rfl
  have hsum : (t : Int) - 1 + 1 = t := by omega
  rw [Int32.toInt_add, h, hone, hsum]
  exact Int.bmod_eq_of_le (by omega) (by omega)

/-- Request number `t` is for server `t % serverNum`. -/
theorem turnOf_eq {lastId : Int32} {t : Nat} (h : lastId.toInt = (t : Int) - 1) (ht : t < 2 ^ 31)
    (serverNum : Nat) : turnOf lastId serverNum = t % serverNum := by
  have hnext := lastId_next h ht
  have hsame : (if lastId < 0 then (-1 : Int32) else lastId) = lastId := by
    split
    · rename_i hneg
      have hneg' : lastId.toInt < 0 := Int32.lt_iff_toInt_lt.1 hneg
      refine Int32.toInt_inj.1 ?_
      show (-1 : Int) = lastId.toInt
      omega
    · rfl
  have hnonneg : (0 : Int32) ≤ lastId + 1 := by
    refine Int32.le_iff_toInt_le.2 ?_
    rw [hnext]
    show (0 : Int) ≤ t
    omega
  unfold turnOf
  rw [hsame, Int32.toNat_toUInt32_of_le hnonneg]
  show (lastId + 1).toInt.toNat % serverNum = _
  rw [hnext]
  rfl

/-- The places of the array are the numbers of the servers. -/
theorem prepareFilter_zipIdx {request : SlbRequest} {p : ServerRank × Nat}
    (hp : p ∈ (prepareFilter request).zipIdx) :
    p.1.serverId = p.2 ∧ p.2 < request.server.length := by
  have hget := List.mem_zipIdx_iff_getElem?.1 hp
  have hlt := (List.getElem?_eq_some_iff.1 hget).1
  rw [prepareFilter_length] at hlt
  rw [prepareFilter_getElem?] at hget
  obtain ⟨server, -, hserver⟩ := Option.map_eq_some_iff.1 hget
  rw [← hserver]
  exact ⟨rfl, hlt⟩

/-- In a relation of two lists, every element of the second has its partner. -/
theorem forall₂_partner {α γ : Type*} {R : α → γ → Prop} {l : List α} {l' : List γ}
    (h : List.Forall₂ R l l') {b : γ} (hb : b ∈ l') : ∃ a ∈ l, R a b := by
  induction h with
  | nil => cases hb
  | cons hr _ ih =>
      rcases List.mem_cons.1 hb with hb | hb
      · rw [hb]
        exact ⟨_, List.mem_cons_self, hr⟩
      · obtain ⟨a, ha, hr'⟩ := ih hb
        exact ⟨a, List.mem_cons_of_mem _ ha, hr'⟩

/-- **One request.** -/
theorem fetchServer_roundRobin (std : StdSort) (md5 : Md5) {lastId : Int32}
    (hs : s.strategy.BalanceOnly (.roundRobin lastId)) (hfresh : ∀ x, (copyCall x).Fresh)
    {req : SlbFetch β} (hne : req.svr ≠ []) (hfew : req.svr.length ≤ maxServerSize)
    (hretry : req.nthRetry = 0) : ∃ s',
      (fetchServer std md5 copyCall req).run s = (((turnOf lastId req.svr.length : Nat) : Int), s')
      ∧ s'.strategy.BalanceOnly (.roundRobin (lastId + 1)) := by
  have hfresh' : ∀ server ∈ (req.request copyCall).server, server.Fresh := by
    intro server hserver
    obtain ⟨x, -, rfl⟩ := List.mem_map.1 hserver
    exact hfresh x
  have hlen : (prepareFilter (req.request copyCall)).length = req.svr.length := by
    rw [prepareFilter_length]
    exact List.length_map _
  have hpos : req.svr.length ≠ 0 := fun hz => hne (List.length_eq_zero_iff.1 hz)
  obtain ⟨ranks, s', hserver, hranks, hstrategy⟩ :=
    balanceServer_roundRobin md5 req.key lastId (by rw [hlen]; exact hpos) s
  rw [hlen] at hranks
  -- every rank comes from a place of the array
  have hpartner : ∀ sr ∈ ranks, ∃ p ∈ (prepareFilter (req.request copyCall)).zipIdx,
      TurnRank (turnOf lastId req.svr.length) req.svr.length p sr :=
    fun sr hsr => forall₂_partner hranks hsr
  have hplain : ∀ sr ∈ ranks, sr.Plain := by
    intro sr hsr
    obtain ⟨p, hp, hrank⟩ := hpartner sr hsr
    have hmem : p.1 ∈ prepareFilter (req.request copyCall) := List.fst_mem_of_mem_zipIdx hp
    have hp' := prepareFilter_plain hfresh' p.1 hmem
    exact ⟨hrank.rescored.crossRoom.trans hp'.here, hrank.disabled.trans hp'.enabled⟩
  have hlen' : ranks.length = req.svr.length := by
    rw [← hranks.length_eq, List.length_zipIdx, hlen]
  have hsortLen : 0 < (std.sort cmpRank ranks).length := by
    rw [(std.perm cmpRank ranks).length_eq, hlen']
    omega
  have hget := List.getElem?_eq_getElem hsortLen
  generalize (std.sort cmpRank ranks)[0] = sr at hget
  have htop := sort_head hget
  refine ⟨s', ?_, ?_⟩
  · have hconnect : s'.strategy.connect.loadSucc = false := by
      rw [hstrategy]
      exact hs.connect
    have hhealthy : s'.strategy.healthy.loadSucc = false := by
      rw [hstrategy]
      exact hs.healthy
    have hrun := fetchServer_plain hfew hs.balance hserver hconnect hhealthy hplain (r := 0) hretry
      hget
    rw [hrun]
    -- whose turn it is has a rank above all others
    obtain ⟨p, hp, hrank⟩ := hpartner sr htop.mem
    obtain ⟨hid, -⟩ := prepareFilter_zipIdx hp
    have hturn : p.2 = turnOf lastId req.svr.length := by
      by_contra hother
      have hcur : turnOf lastId req.svr.length
          < (prepareFilter (req.request copyCall)).length := by
        rw [hlen]
        exact Nat.mod_lt _ (Nat.pos_of_ne_zero hpos)
      have hmem : ((prepareFilter (req.request copyCall))[turnOf lastId req.svr.length],
          turnOf lastId req.svr.length) ∈ (prepareFilter (req.request copyCall)).zipIdx :=
        List.mem_zipIdx_iff_getElem?.2 (List.getElem?_eq_getElem hcur)
      obtain ⟨sr', hsr', hrank'⟩ := forall₂_partner hranks.flip hmem
      have hle := htop.le sr' hsr'
      obtain ⟨rnd, hrnd⟩ := hrank.other hother
      have hlow : rnd % req.svr.length < req.svr.length := Nat.mod_lt _ (Nat.pos_of_ne_zero hpos)
      have hmax : req.svr.length ≤ 64 := hfew
      have hsmall : ∀ m, m ≤ 65 → (UInt64.ofNat m).toNat = m := by
        intro m hm
        rw [UInt64.toNat_ofNat']
        exact Nat.mod_eq_of_lt (by omega)
      rw [hrank'.turn rfl, hrnd, hsmall _ (by omega), hsmall _ (by omega)] at hle
      omega
    rw [hrank.rescored.serverId, hid, hturn]
  · rw [hstrategy]
    exact ⟨rfl, hs.connect, hs.healthy⟩

/-- A request that `_pool_get_balance_server` makes: its first try, with servers to choose
from and no more of them than there is room for. -/
structure SlbFetch.FirstTry (req : SlbFetch β) : Prop where
  nonempty : req.svr ≠ []
  few : req.svr.length ≤ maxServerSize
  retry : req.nthRetry = 0

/-- **Request after request**, by induction on them. -/
theorem fetchServers_roundRobin (std : StdSort) (md5 : Md5) (hfresh : ∀ x, (copyCall x).Fresh) (fetches : List (SlbFetch β)) :
    ∀ {s : SlbState} {lastId : Int32} {t : Nat}, s.strategy.BalanceOnly (.roundRobin lastId) →
      lastId.toInt = (t : Int) - 1 → t + fetches.length ≤ 2 ^ 31 → (∀ f ∈ fetches, f.FirstTry) →
      ((fetches.mapM (fetchServer std md5 copyCall)).run s).1
        = fetches.mapIdx (fun k f => (((t + k) % f.svr.length : Nat) : Int)) := by
  induction fetches with
  | nil => exact fun _ _ _ _ => rfl
  | cons f fetches ih =>
      intro s lastId t hs hlast hfit hfirst
      rw [List.length_cons] at hfit
      obtain ⟨hne, hfew, hretry⟩ := hfirst f List.mem_cons_self
      obtain ⟨s', hone, hs'⟩ :=
        fetchServer_roundRobin std md5 hs hfresh hne hfew hretry
      have hnext : (lastId + 1).toInt = ((t + 1 : Nat) : Int) - 1 := by
        rw [lastId_next hlast (by omega)]
        omega
      have hrest := ih hs' hnext (by omega) (fun f' hf' => hfirst f' (List.mem_cons_of_mem _ hf'))
      rw [turnOf_eq hlast (by omega)] at hone
      rw [List.mapM_cons, List.mapIdx_cons, StateT.run_bind, hone]
      show _ :: ((fetches.mapM (fetchServer std md5 copyCall)).run s').1 = _
      rw [hrest]
      congr 1
      refine List.mapIdx_eq_mapIdx_iff.2 (fun k hk => ?_)
      rw [Nat.add_assoc, Nat.add_comm 1 k]

/-- What is promised of the servers chosen for these requests, from the `t`-th one on. -/
structure TakeTurns (t : Nat) (fetches : List (SlbFetch β)) (ids : List Int) : Prop where
  /-- one after the other -/
  turn : ids = fetches.mapIdx (fun k f => (((t + k) % f.svr.length : Nat) : Int))
  /-- any `n` requests in a row with `n` servers to choose from go to each of them once -/
  fair : ∀ before window after, fetches = before ++ window ++ after →
    (∀ f ∈ window, f.svr.length = window.length) →
    (((ids.drop before.length).take window.length)).Perm
      ((List.range window.length).map Int.ofNat)

theorem TakeTurns.of_turn {t : Nat} {fetches : List (SlbFetch β)} {ids : List Int}
    (h : ids = fetches.mapIdx (fun k f => (((t + k) % f.svr.length : Nat) : Int))) :
    TakeTurns t fetches ids := by
  refine ⟨h, ?_⟩
  intro before window after hsplit hlen
  have hwindow : (ids.drop before.length).take window.length
      = ((List.range window.length).map (fun j => (t + before.length + j) % window.length)).map
        Int.ofNat := by
    refine List.ext_getElem ?_ ?_
    · rw [h, List.length_take, List.length_drop, List.length_mapIdx, hsplit, List.length_append,
        List.length_append, List.length_map, List.length_map, List.length_range]
      omega
    · intro j h₁ h₂
      have hj : j < window.length := by
        rw [List.length_map, List.length_map, List.length_range] at h₂
        exact h₂
      have hget : fetches[before.length + j]? = some window[j] := by
        rw [hsplit, List.append_assoc, List.getElem?_append_right (Nat.le_add_right _ _),
          Nat.add_sub_cancel_left, List.getElem?_append_left hj, List.getElem?_eq_getElem hj]
      obtain ⟨hk, hfetch⟩ := List.getElem?_eq_some_iff.1 hget
      simp only [h, List.getElem_take, List.getElem_drop, List.getElem_mapIdx, List.getElem_map,
        List.getElem_range, hfetch, hlen _ (List.getElem_mem hj), Nat.add_assoc]
      rfl
  rw [hwindow]
  exact (rotation_perm _ _).map _

/-- **The servers take turns.**  With `Balance: RoundRobin` and neither statistics filter
configured, for every sequence of requests (each with between one and 64 servers to choose
from, as many or as few as are in order at the time), whatever `rand()` returns and however
`std::sort` breaks ties: request number `k` after `t` others goes to server `(t + k) % n` of its
`n`, so that `n` requests in a row with the same `n` servers go to each of them once; up to the
2^31 requests after which `_lastId` overflows. -/
theorem round_robin_turns (hfresh : ∀ x, (copyCall x).Fresh) {lastId : Int32} {t : Nat}
    (hs : s.strategy.BalanceOnly (.roundRobin lastId)) (hlast : lastId.toInt = (t : Int) - 1)
    {fetches : List (SlbFetch β)} (hfirst : ∀ f ∈ fetches, f.FirstTry)
    (hfit : t + fetches.length ≤ 2 ^ 31) :
    TakeTurns t fetches ((fetches.mapM (fetchServer std md5 copyCall)).run s).1 :=
  TakeTurns.of_turn (fetchServers_roundRobin std md5 hfresh fetches hs hlast hfit hfirst)

/-! ## §4. `ConsistencyBalance`. -/

/-- The score of a server for a key. -/
def consistencyScore (md5 : Md5) (key : Int) (server : SlbServer) : UInt64 :=
  consistencyRank md5 key { server := some server }

/-- **`ConsistencyBalance::balanceServer`**: every rank has the score of its server. -/
theorem balanceServer_consistency (md5 : Md5) (key : Int) (ranks : List ServerRank)
    (hne : ranks.length ≠ 0) (s : SlbState) :
    (balanceServer md5 key .consistency ranks).run s
      = (some (ranks.map (fun sr => { sr with balanceRank := consistencyRank md5 key sr })), s) := by
  unfold balanceServer
  rw [if_neg hne]
  rfl

/-- `fetchServer` chooses `x` from the servers of the request. -/
def Fetches (std : StdSort) (md5 : Md5) (copyCall : β → SlbServer) (s : SlbState)
    (req : SlbFetch β) (x : β) : Prop :=
  ∃ i : Nat, ((fetchServer std md5 copyCall req).run s).1 = i ∧ req.svr[i]? = some x

/-- **One request**: its `nthRetry`-th try is the `nthRetry`-th rank of the sorted array, which
is the same for every try. -/
theorem fetchServer_consistency (std : StdSort) (md5 : Md5) (hs : s.strategy.BalanceOnly .consistency)
    (hfresh : ∀ x, (copyCall x).Fresh) {req : SlbFetch β} (hne : req.svr ≠ [])
    (hfew : req.svr.length ≤ maxServerSize) {r : Nat} (hretry : req.nthRetry = r)
    (hr : r < req.svr.length) :
    ∃ sr, (std.sort cmpRank ((prepareFilter (req.request copyCall)).map
        (fun sr => { sr with balanceRank := consistencyRank md5 req.key sr })))[r]? = some sr
      ∧ (fetchServer std md5 copyCall req).run s = ((sr.serverId : Int), s)
      ∧ ∃ x, req.svr[sr.serverId]? = some x
        ∧ sr.balanceRank = consistencyScore md5 req.key (copyCall x) := by
  have hfresh' : ∀ server ∈ (req.request copyCall).server, server.Fresh := by
    intro server hserver
    obtain ⟨x, -, rfl⟩ := List.mem_map.1 hserver
    exact hfresh x
  have hlen : (prepareFilter (req.request copyCall)).length = req.svr.length := by
    rw [prepareFilter_length]
    exact List.length_map _
  have hserver := balanceServer_consistency md5 req.key (prepareFilter (req.request copyCall))
    (by rw [hlen]; exact fun hz => hne (List.length_eq_zero_iff.1 hz)) s
  generalize hranks : (prepareFilter (req.request copyCall)).map
    (fun sr => { sr with balanceRank := consistencyRank md5 req.key sr }) = ranks at hserver
  -- where a rank comes from
  have hfrom : ∀ sr ∈ ranks, sr.Plain ∧ ∃ x, req.svr[sr.serverId]? = some x
      ∧ sr.balanceRank = consistencyScore md5 req.key (copyCall x) := by
    intro sr hsr
    rw [← hranks] at hsr
    obtain ⟨sr₀, hsr₀, rfl⟩ := List.mem_map.1 hsr
    have hplain := prepareFilter_plain hfresh' sr₀ hsr₀
    obtain ⟨i, hi⟩ := List.getElem?_of_mem hsr₀
    rw [prepareFilter_getElem?] at hi
    obtain ⟨server, hserver, rfl⟩ := Option.map_eq_some_iff.1 hi
    have hserver' : (req.svr.map copyCall)[i]? = some server := hserver
    rw [List.getElem?_map] at hserver'
    obtain ⟨x, hx, rfl⟩ := Option.map_eq_some_iff.1 hserver'
    exact ⟨⟨hplain.here, hplain.enabled⟩, x, hx, rfl⟩
  have hlt : r < (std.sort cmpRank ranks).length := by
    rw [(std.perm cmpRank ranks).length_eq, ← hranks, List.length_map, hlen]
    exact hr
  have hget := List.getElem?_eq_getElem hlt
  generalize (std.sort cmpRank ranks)[r] = sr at hget
  have hmem : sr ∈ ranks := (std.perm cmpRank ranks).subset (List.mem_of_getElem? hget)
  exact ⟨sr, hget, fetchServer_plain hfew hs.balance hserver hs.connect hs.healthy
    (fun sr hsr => (hfrom sr hsr).1) hretry hget, (hfrom sr hmem).2⟩

/-- The score by which the candidates `β` are compared. -/
def scoreOf (md5 : Md5) (copyCall : β → SlbServer) (key : Int) (x : β) : Nat :=
  (consistencyScore md5 key (copyCall x)).toNat

/-- **The highest score wins.** -/
theorem fetches_highest (std : StdSort) (md5 : Md5) (hs : s.strategy.BalanceOnly .consistency)
    (hfresh : ∀ x, (copyCall x).Fresh) {req : SlbFetch β} (hfirst : req.FirstTry) :
    ∃ x, Fetches std md5 copyCall s req x ∧ Highest (scoreOf md5 copyCall req.key) req.svr x := by
  obtain ⟨hne, hfew, hretry⟩ := hfirst
  obtain ⟨sr, hsr, hrun, x, hx, hscore⟩ := fetchServer_consistency std md5 hs
    hfresh hne hfew (r := 0) hretry (List.length_pos_of_ne_nil hne)
  have htop := sort_head hsr
  refine ⟨x, ⟨sr.serverId, by rw [hrun], hx⟩, List.mem_of_getElem? hx, fun y hy => ?_⟩
  obtain ⟨j, hj⟩ := List.getElem?_of_mem hy
  -- the rank of `y`
  have hprep : (prepareFilter (req.request copyCall))[j]?
      = some (prepareRank req.currentMachineRoom j (copyCall y) {}) := by
    rw [prepareFilter_getElem?]
    show (req.svr.map copyCall)[j]?.map _ = _
    rw [List.getElem?_map, hj]
    rfl
  have hle := htop.le _ (List.mem_map_of_mem (List.mem_of_getElem? hprep))
  have hle' : (consistencyScore md5 req.key (copyCall y)).toNat ≤ sr.balanceRank.toNat := hle
  rw [hscore] at hle'
  exact hle'

/-- The ranks of different servers have different numbers, in whatever order they are. -/
theorem sorted_ids_nodup (std : StdSort) (request : SlbRequest) (score : ServerRank → UInt64) :
    ((std.sort cmpRank ((prepareFilter request).map
      (fun sr => { sr with balanceRank := score sr }))).map ServerRank.serverId).Nodup := by
  have hperm := (std.perm cmpRank ((prepareFilter request).map
    (fun sr => { sr with balanceRank := score sr }))).map ServerRank.serverId
  refine hperm.nodup_iff.2 ?_
  have hids : ((prepareFilter request).map (fun sr => { sr with balanceRank := score sr })).map
      ServerRank.serverId = List.range request.server.length := by
    refine List.ext_getElem ?_ ?_
    · rw [List.length_map, List.length_map, prepareFilter_length, List.length_range]
    · intro i h₁ h₂
      rw [List.length_range] at h₂
      have hget : (prepareFilter request)[i]?
          = some (prepareRank request.currentMachineRoom i request.server[i] {}) := by
        rw [prepareFilter_getElem?, List.getElem?_eq_getElem h₂]
        rfl
      obtain ⟨_, hi⟩ := List.getElem?_eq_some_iff.1 hget
      rw [List.getElem_map, List.getElem_map, List.getElem_range, hi]
      rfl
  rw [hids]
  exact List.nodup_range

/-- **Two tries** of one request go to different servers. -/
theorem fetchServer_retry (hs : s.strategy.BalanceOnly .consistency)
    (hfresh : ∀ x, (copyCall x).Fresh) {req : SlbFetch β} (hne : req.svr ≠ [])
    (hfew : req.svr.length ≤ maxServerSize) {r r' : Nat} (hr : r < req.svr.length)
    (hr' : r' < req.svr.length)
    (hsame : ((fetchServer std md5 copyCall { req with nthRetry := r }).run s).1
      = ((fetchServer std md5 copyCall { req with nthRetry := r' }).run s).1) : r = r' := by
  have htry : ∀ r, r < req.svr.length → ∃ sr,
      (std.sort cmpRank ((prepareFilter (req.request copyCall)).map
        (fun sr => { sr with balanceRank := consistencyRank md5 req.key sr })))[r]? = some sr
      ∧ (fetchServer std md5 copyCall { req with nthRetry := r }).run s = ((sr.serverId : Int), s) := by
    intro r hr
    have hneR : ({ req with nthRetry := r } : SlbFetch β).svr ≠ [] := hne
    obtain ⟨sr, hsr, hrun, -⟩ := fetchServer_consistency std md5 hs hfresh hneR hfew rfl hr
    exact ⟨sr, hsr, hrun⟩
  obtain ⟨sr, hsorted, hrun⟩ := htry r hr
  obtain ⟨sr', hsorted', hrun'⟩ := htry r' hr'
  have hid : sr.serverId = sr'.serverId := by
    rw [hrun, hrun'] at hsame
    exact Int.ofNat_inj.1 hsame
  have hnodup := sorted_ids_nodup std (req.request copyCall) (consistencyRank md5 req.key)
  generalize std.sort cmpRank ((prepareFilter (req.request copyCall)).map
    (fun sr => { sr with balanceRank := consistencyRank md5 req.key sr })) = sorted
    at hnodup hsorted hsorted'
  obtain ⟨hlt, hget⟩ := List.getElem?_eq_some_iff.1 hsorted
  obtain ⟨hlt', hget'⟩ := List.getElem?_eq_some_iff.1 hsorted'
  have hi : r < (sorted.map ServerRank.serverId).length := by
    rw [List.length_map]
    exact hlt
  have hj : r' < (sorted.map ServerRank.serverId).length := by
    rw [List.length_map]
    exact hlt'
  have heq : (sorted.map ServerRank.serverId)[r] = (sorted.map ServerRank.serverId)[r'] := by
    rw [List.getElem_map, List.getElem_map, hget, hget']
    exact hid
  exact hnodup.getElem_inj_iff.1 heq

/-- What is promised of a choice by hash. -/
structure ConsistentChoice (std : StdSort) (md5 : Md5) (copyCall : β → SlbServer)
    (req : SlbFetch β) (x : β) : Prop where
  best : Highest (scoreOf md5 copyCall req.key) req.svr x
  /-- other servers may drop out -/
  stays : ∀ (s : SlbState) (req' : SlbFetch β), s.strategy.BalanceOnly .consistency →
    req'.key = req.key → req'.FirstTry → req'.svr ⊆ req.svr → x ∈ req'.svr →
    DistinctOn (scoreOf md5 copyCall req.key) req.svr → Fetches std md5 copyCall s req' x
  /-- a server that comes in takes the key over, or leaves it where it is -/
  added : ∀ (s : SlbState) (req' : SlbFetch β) (y : β), s.strategy.BalanceOnly .consistency →
    req'.key = req.key → req'.FirstTry → req'.svr ⊆ y :: req.svr → req.svr ⊆ req'.svr →
    DistinctOn (scoreOf md5 copyCall req.key) req'.svr →
    Fetches std md5 copyCall s req' y ∨ Fetches std md5 copyCall s req' x
  /-- no try of the same request goes to a server that an earlier one went to -/
  retries : ∀ (s : SlbState) (r r' : Nat), s.strategy.BalanceOnly .consistency →
    r < req.svr.length → r' < req.svr.length →
    ((fetchServer std md5 copyCall { req with nthRetry := r }).run s).1
      = ((fetchServer std md5 copyCall { req with nthRetry := r' }).run s).1 → r = r'

/-- **A key stays with its server.**  With `Balance: Consistency` and neither statistics filter
configured, whatever MD5 is and however `std::sort` breaks ties: a request goes to the
server with the highest score for its key, and as long as no two servers score the same, every
later request with that key, in whatever order its servers are listed and from whatever state of
the balancer, goes to the same server when others have dropped out, and to that one or
the new one when one has come in; and the tries of one request go to different servers. -/
theorem consistency_hashing (hs : s.strategy.BalanceOnly .consistency)
    (hfresh : ∀ x, (copyCall x).Fresh) {req : SlbFetch β} (hfirst : req.FirstTry) :
    ∃ x, Fetches std md5 copyCall s req x ∧ ConsistentChoice std md5 copyCall req x := by
  obtain ⟨x, hx, hbest⟩ := fetches_highest std md5 hs hfresh hfirst
  refine ⟨x, hx, hbest, ?_, ?_, fun s' r r' hs' hr hr' hsame =>
    fetchServer_retry hs' hfresh hfirst.nonempty hfirst.few hr hr' hsame⟩
  · intro s' req' hs' hkey hfirst' hsub hmem hdistinct
    obtain ⟨x', hx', hbest'⟩ := fetches_highest std md5 hs' hfresh hfirst'
    rw [hkey] at hbest'
    rw [← hbest.stays hdistinct hsub hmem hbest']
    exact hx'
  · intro s' req' y hs' hkey hfirst' hsub hsup hdistinct
    obtain ⟨x', hx', hbest'⟩ := fetches_highest std md5 hs' hfresh hfirst'
    rw [hkey] at hbest'
    rcases hbest.added hdistinct hsub hsup hbest' with hy | hold
    · rw [hy] at hx'
      exact Or.inl hx'
    · rw [hold] at hx'
      exact Or.inr hx'

/-! ## §5. Two servers. -/

/-- A strategy with `balance` and nothing else, before any record. -/
def strategyWith (balance : Balance) : Strategy where
  balance := some balance
  connect := ⟨fun _ => ConnectStatus.create 100, 0, 0, 0, 0, false⟩
  healthy := ⟨0, 0, 0, fun _ => HealthyStatus.create 100, 0, false⟩
  crossRoom := false

theorem strategyWith_balanceOnly (balance : Balance) :
    (strategyWith balance).BalanceOnly balance := ⟨rfl, rfl, rfl⟩

/-- A server that is known by its port. -/
def serverAt (port : Nat) : SlbServer := ⟨true, true, 0, port, [49], none⟩

theorem serverAt_fresh (port : Nat) : (serverAt port).Fresh := ⟨rfl, rfl, rfl⟩

/-- A request with two servers to choose from. -/
def fetchOfTwo : SlbFetch Nat := ⟨7, 0, [6379, 6380], []⟩

theorem fetchOfTwo_firstTry : fetchOfTwo.FirstTry := ⟨by decide, by decide, rfl⟩

/-- A hash that is the last digit but two, so the port's last digit counts. -/
def toyMd5 : Md5 := fun text => (UInt32.ofNat (text.getD 5 0).toNat, 0, 0, 0)

theorem round_robin_turns_witness :
    TakeTurns 0 [fetchOfTwo, fetchOfTwo, fetchOfTwo]
      (([fetchOfTwo, fetchOfTwo, fetchOfTwo].mapM
        (fetchServer StdSort.mergeSort toyMd5 serverAt)).run
          ⟨strategyWith (.roundRobin (-1)), fun k => k, fun _ => 0⟩).1 := by
  refine round_robin_turns serverAt_fresh (strategyWith_balanceOnly _) (t := 0) rfl ?_ (by decide)
  intro f hf
  have hall : f = fetchOfTwo := by
    simp only [List.mem_cons, List.not_mem_nil, or_false, or_self] at hf
    exact hf
  rw [hall]
  exact fetchOfTwo_firstTry

theorem consistency_hashing_witness :
    ∃ x, Fetches StdSort.mergeSort toyMd5 serverAt
        ⟨strategyWith .consistency, fun k => k, fun _ => 0⟩ fetchOfTwo x
      ∧ ConsistentChoice StdSort.mergeSort toyMd5 serverAt fetchOfTwo x :=
  consistency_hashing (strategyWith_balanceOnly _) serverAt_fresh fetchOfTwo_firstTry

end RedisAgent
