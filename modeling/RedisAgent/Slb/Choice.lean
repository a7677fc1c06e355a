/-
  RedisAgent.Slb.Choice — which servers the load balancer can choose at all.

  Every filter of the chain may disable a server or appoint a backup for it: ConnectFilter
  and HealthyFilter draw numbers against the recorded failures and times, and
  CrossRoomFilter looks into the other machine rooms.  Slb/Strategy has what they do where
  every server is in use and in this room, as pool.cpp makes them.  Here the servers are
  any: with `enable` and `isHealthy` off, and of other machine rooms.

  `RanksFor` is what the chain keeps: a rank that is not disabled has a server that is in
  order, and a backup is one that may stand in.  Until CrossRoomFilter those are the
  servers of this room; it may add one of another.

  Main result:
    • `server_choice_sound` — whatever was recorded and drawn, the server chosen is in
      order, and of this room unless CrossRoomFilter is on, the try is the first, and this
      room has an enabled server; and one in order in this room is enough to choose.
-/
import RedisAgent.Slb.Strategy

namespace RedisAgent

/-! ## §1. The servers of a request. -/

/-- `PrepareFilter::doFilter` does not disable it. -/
def SlbServer.InOrder (server : SlbServer) : Prop := server.enable = true ∧ server.isHealthy = true

/-- It is of another machine room: the `crossRoom` of its rank. -/
def SlbServer.elsewhere (currentMachineRoom : List UInt8) (server : SlbServer) : Bool :=
  (prepareRank currentMachineRoom 0 server {}).crossRoom

namespace SlbRequest

/-- The server at place `i` is in order, and of this room. -/
def Here (request : SlbRequest) (i : Nat) : Prop :=
  ∃ server, request.server[i]? = some server ∧ server.InOrder
    ∧ server.elsewhere request.currentMachineRoom = false

/-- The server at place `i` is in order, and of another room. -/
def Away (request : SlbRequest) (i : Nat) : Prop :=
  ∃ server, request.server[i]? = some server ∧ server.InOrder
    ∧ server.elsewhere request.currentMachineRoom = true

/-- Some server of this room is enabled. -/
def EnabledHere (request : SlbRequest) : Prop :=
  ∃ server ∈ request.server, server.enable = true
    ∧ server.elsewhere request.currentMachineRoom = false

/-- A server of another room may stand in. -/
def MayCross (request : SlbRequest) (crossRoom : Bool) : Prop :=
  crossRoom = true ∧ request.nthRetry ≤ 0 ∧ request.EnabledHere

/-- The server at place `i` may be chosen. -/
def Choosable (request : SlbRequest) (crossRoom : Bool) (i : Nat) : Prop :=
  request.Here i ∨ (request.Away i ∧ request.MayCross crossRoom)

end SlbRequest

variable {request : SlbRequest} {crossRoom : Bool} {P : Nat → Prop}
variable {ranks ranks' : List ServerRank}

theorem SlbRequest.Here.lt {i : Nat} (h : request.Here i) : i < request.server.length := by
  obtain ⟨server, hget, -⟩ := h
  exact (List.getElem?_eq_some_iff.1 hget).1

theorem SlbRequest.Choosable.lt {i : Nat} (h : request.Choosable crossRoom i) :
    i < request.server.length := by
  rcases h with hhere | ⟨⟨server, hget, -⟩, -⟩
  · exact hhere.lt
  · exact (List.getElem?_eq_some_iff.1 hget).1

/-! ## §2. What the ranks know of them. -/

/-- One rank; `P` says of a place that its server may stand in. -/
structure RankFor (request : SlbRequest) (P : Nat → Prop) (sr : ServerRank) : Prop where
  seat : ∃ server, request.server[sr.serverId]? = some server ∧ sr.server = some server
    ∧ sr.crossRoom = server.elsewhere request.currentMachineRoom
    ∧ (sr.disabled = false → server.InOrder)
  backup : sr.useBackup = true → P sr.backupServerId

/-- See the head of the file. -/
structure RanksFor (request : SlbRequest) (P : Nat → Prop) (ranks : List ServerRank) : Prop where
  ids : (ranks.map ServerRank.serverId).Perm (List.range request.server.length)
  each : ∀ sr ∈ ranks, RankFor request P sr

/-- A rank that is not disabled, of this room. -/
theorem RankFor.here {sr : ServerRank} (h : RankFor request P sr) (hcross : sr.crossRoom = false)
    (hdis : sr.disabled = false) : request.Here sr.serverId := by
  obtain ⟨server, hget, -, hroom, hok⟩ := h.seat
  exact ⟨server, hget, hok hdis, hroom.symm.trans hcross⟩

/-- A rank that is not disabled, of another room. -/
theorem RankFor.away {sr : ServerRank} (h : RankFor request P sr) (hcross : sr.crossRoom = true)
    (hdis : sr.disabled = false) : request.Away sr.serverId := by
  obtain ⟨server, hget, -, hroom, hok⟩ := h.seat
  exact ⟨server, hget, hok hdis, hroom.symm.trans hcross⟩

/-- What a filter may do to a rank: score it, disable it, and appoint a backup that may
stand in. -/
structure Marked (P : Nat → Prop) (sr sr' : ServerRank) : Prop where
  serverId : sr'.serverId = sr.serverId
  crossRoom : sr'.crossRoom = sr.crossRoom
  server : sr'.server = sr.server
  disabled : sr'.disabled = false → sr.disabled = false
  backup : sr'.useBackup = true →
    P sr'.backupServerId ∨ (sr.useBackup = true ∧ sr'.backupServerId = sr.backupServerId)

theorem Marked.refl (sr : ServerRank) : Marked P sr sr :=
  ⟨rfl, rfl, rfl, id, fun huse => Or.inr ⟨huse, rfl⟩⟩

/-- A filter that appoints nobody. -/
theorem Rescored.marked {sr sr' : ServerRank} (h : Rescored sr sr')
    (hdis : sr'.disabled = false → sr.disabled = false) : Marked P sr sr' :=
  ⟨h.serverId, h.crossRoom, h.server, hdis,
    fun huse => Or.inr ⟨h.useBackup.symm.trans huse, h.backupServerId⟩⟩

theorem RankFor.marked {sr sr' : ServerRank} (h : RankFor request P sr) (hm : Marked P sr sr') :
    RankFor request P sr' := by
  obtain ⟨server, hget, hserver, hroom, hok⟩ := h.seat
  refine ⟨⟨server, ?_, ?_, ?_, fun hdis => hok (hm.disabled hdis)⟩, ?_⟩
  · rw [hm.serverId]
    exact hget
  · rw [hm.server]
    exact hserver
  · rw [hm.crossRoom]
    exact hroom
  · intro huse
    rcases hm.backup huse with hp | ⟨huse', hsame⟩
    · exact hp
    · rw [hsame]
      exact h.backup huse'

/-- **What is done to each rank keeps `RanksFor`**: by induction on the two lists. -/
theorem RanksFor.marked (h : RanksFor request P ranks)
    (hm : List.Forall₂ (Marked P) ranks ranks') : RanksFor request P ranks' := by
  have hids : ranks'.map ServerRank.serverId = ranks.map ServerRank.serverId := by
    clear h
    induction hm with
    | nil => rfl
    | cons hsr _ ih => rw [List.map_cons, List.map_cons, hsr.serverId, ih]
  refine ⟨hids ▸ h.ids, ?_⟩
  have heach := h.each
  clear hids h
  induction hm with
  | nil => exact fun sr hsr => absurd hsr List.not_mem_nil
  | cons hsr _ ih =>
      intro sr' hsr'
      rcases List.mem_cons.1 hsr' with rfl | hsr'
      · exact (heach _ List.mem_cons_self).marked hsr
      · exact ih (fun sr hmem => heach sr (List.mem_cons_of_mem _ hmem)) sr' hsr'

theorem RanksFor.mono {Q : Nat → Prop} (h : RanksFor request P ranks) (hpq : ∀ i, P i → Q i) :
    RanksFor request Q ranks :=
  ⟨h.ids, fun sr hsr => ⟨(h.each sr hsr).seat, fun huse => hpq _ ((h.each sr hsr).backup huse)⟩⟩

theorem RanksFor.perm (h : RanksFor request P ranks) (hp : ranks'.Perm ranks) :
    RanksFor request P ranks' :=
  ⟨(hp.map _).trans h.ids, fun sr hsr => h.each sr (hp.subset hsr)⟩

/-- Every place has a rank. -/
theorem RanksFor.exists_rank (h : RanksFor request P ranks) {i : Nat}
    (hi : i < request.server.length) : ∃ sr ∈ ranks, sr.serverId = i :=
  List.mem_map.1 (h.ids.symm.subset (List.mem_range.2 hi))

theorem RanksFor.any_serverId (h : RanksFor request P ranks) {i : Nat}
    (hi : i < request.server.length) : ranks.any (fun sr => sr.serverId == i) = true := by
  obtain ⟨sr, hsr, rfl⟩ := h.exists_rank hi
  exact List.any_eq_true.2 ⟨sr, hsr, beq_self_eq_true _⟩

/-! One rank of the list is changed: by induction on the list. -/

section OneRank

variable {α : Type} {R : α → α → Prop}

theorem forall₂_set (hrefl : ∀ x, R x x) {a b : α} (hab : R a b) (l : List α) :
    ∀ i, l[i]? = some a → List.Forall₂ R l (l.set i b) := by
  induction l with
  | nil => exact fun i hi => by cases hi
  | cons x l ih =>
      intro i hi
      cases i with
      | zero =>
          cases hi
          exact List.Forall₂.cons hab (List.forall₂_same.2 fun y _ => hrefl y)
      | succ i => exact List.Forall₂.cons (hrefl x) (ih i hi)

theorem forall₂_modify (hrefl : ∀ x, R x x) {f : α → α} (hf : ∀ x, R x (f x)) (l : List α) :
    ∀ i, List.Forall₂ R l (l.modify i f) := by
  induction l with
  | nil => exact fun i => by cases i <;> exact List.Forall₂.nil
  | cons x l ih =>
      intro i
      cases i with
      | zero => exact List.Forall₂.cons (hf x) (List.forall₂_same.2 fun y _ => hrefl y)
      | succ i => exact List.Forall₂.cons (hrefl x) (ih i)

end OneRank

/-- What a rank of this room offers to `SelectFilter` may be chosen. -/
theorem RankFor.choice {sr : ServerRank} (h : RankFor request P sr) {id : Nat}
    (hid : sr.choice = some id) : request.Here id ∨ P id := by
  unfold ServerRank.choice at hid
  split at hid
  · cases hid
  · rename_i hcross
    have hcross' : sr.crossRoom = false := Bool.not_eq_true _ ▸ hcross
    split at hid
    · rename_i hdis
      cases hid
      exact Or.inl (h.here hcross' (Bool.not_eq_true _ ▸ hdis))
    · split at hid
      · rename_i huse
        cases hid
        exact Or.inr (h.backup huse)
      · cases hid

/-! ## §3. The filters. -/

/-- What the filters do to the strategy leaves `CrossRoomFilter` as it is. -/
def SameCross (s s' : SlbState) : Prop := s'.strategy.crossRoom = s.strategy.crossRoom

theorem SameCross.refl (s : SlbState) : SameCross s s := rfl

theorem SameCross.trans (s₁ s₂ s₃ : SlbState) (h : SameCross s₁ s₂) (h' : SameCross s₂ s₃) :
    SameCross s₁ s₃ := Eq.trans h' h

theorem prepareFilter_for (P : Nat → Prop) (request : SlbRequest) :
    RanksFor request P (prepareFilter request) := by
  refine ⟨?_, ?_⟩
  · unfold prepareFilter
    refine List.Perm.of_eq (List.ext_getElem ?_ ?_)
    · rw [List.length_map, List.length_mapIdx, List.length_range]
    · intro i h₁ h₂
      rw [List.getElem_map, List.getElem_mapIdx, List.getElem_range]
      rfl
  · intro sr hsr
    obtain ⟨i, hi, rfl⟩ := List.mem_mapIdx.1 hsr
    refine ⟨⟨request.server[i], List.getElem?_eq_getElem hi, rfl, rfl, ?_⟩, ?_⟩
    · intro hdis
      have hdis' : (if ¬ request.server[i].enable ∨ ¬ request.server[i].isHealthy then true
          else false) = false := hdis
      by_cases hbad : ¬ request.server[i].enable ∨ ¬ request.server[i].isHealthy
      · rw [if_pos hbad] at hdis'
        cases hdis'
      · exact ⟨not_not.1 fun hn => hbad (Or.inl hn), not_not.1 fun hn => hbad (Or.inr hn)⟩
    · intro huse
      exact absurd huse Bool.false_ne_true

/-- A score, and nothing else. -/
theorem Marked.balanced (sr : ServerRank) (rank : UInt64) :
    Marked P sr { sr with balanceRank := rank } :=
  Rescored.marked ⟨rfl, rfl, rfl, rfl, rfl⟩ id

/-- `balanceServer` of each of the three classes. -/
theorem balanceServer_marked (md5 : Md5) (key : Int) (balance : Balance)
    (ranks : List ServerRank) :
    Ensures (balanceServer md5 key balance ranks) (fun s r s' => SameCross s s'
      ∧ (ranks ≠ [] → r ≠ none)
      ∧ ∀ ranks', r = some ranks' → List.Forall₂ (Marked P) ranks ranks') := by
  intro s
  unfold balanceServer
  by_cases hempty : ranks.length = 0
  · rw [if_pos hempty]
    exact ⟨SameCross.refl s, fun hne => absurd (List.length_eq_zero_iff.1 hempty) hne,
      fun _ hr => by cases hr⟩
  · rw [if_neg hempty]
    have hsome : ∀ {s' : SlbState} {ranks₁ : List ServerRank},
        List.Forall₂ (Marked P) ranks ranks₁ ∧ SameCross s s' → SameCross s s'
          ∧ (ranks ≠ [] → some ranks₁ ≠ none)
          ∧ ∀ ranks', some ranks₁ = some ranks' → List.Forall₂ (Marked P) ranks ranks' := by
      intro s' ranks₁ h
      refine ⟨h.2, (fun _ hn => by cases hn), ?_⟩
      intro ranks' hr
      cases hr
      exact h.1
    cases balance with
    | random =>
        apply hsome
        exact Ensures.mapM SameCross.refl SameCross.trans (f := fun sr => do
            let rnd ← rand
            return { sr with balanceRank := UInt64.ofNat rnd })
          (fun sr s => ⟨Marked.balanced sr _, rfl⟩) ranks s
    | consistency =>
        apply hsome
        refine ⟨?_, SameCross.refl s⟩
        show List.Forall₂ (Marked P) ranks (ranks.map _)
        rw [List.forall₂_map_right_iff]
        exact List.forall₂_same.2 fun sr _ => Marked.balanced sr _
    | roundRobin lastId =>
        let curId := ((if lastId < 0 then -1 else lastId) + 1).toUInt32.toNat % ranks.length
        have hloop := Ensures.mapM (R := fun (p : ServerRank × Nat) sr' => Marked P p.1 sr')
          SameCross.refl SameCross.trans (f := fun p =>
            if p.2 = curId then
              return { p.1 with balanceRank := UInt64.ofNat (ranks.length + 1) }
            else do
              let rnd ← rand
              return { p.1 with balanceRank := UInt64.ofNat (rnd % ranks.length) }) (by
          intro p s
          by_cases hi : p.2 = curId
          · simp only [if_pos hi]
            exact ⟨Marked.balanced p.1 _, rfl⟩
          · simp only [if_neg hi]
            exact ⟨Marked.balanced p.1 _, rfl⟩) ranks.zipIdx
          { s with strategy := { s.strategy with balance := some (.roundRobin (lastId + 1)) } }
        have hres := List.forall₂_map_left_iff.2 hloop.1
        rw [List.zipIdx_map_fst] at hres
        exact hsome ⟨hres, hloop.2⟩

/-- `BalanceFilter` fails without a balance, or without servers. -/
theorem balanceFilter_for (std : StdSort) (md5 : Md5) (key : Int) (h : RanksFor request P ranks) :
    Ensures (balanceFilter std md5 key ranks) (fun s r s' => SameCross s s'
      ∧ (s.strategy.balance ≠ none → ranks ≠ [] → r ≠ none)
      ∧ ∀ ranks', r = some ranks' → RanksFor request P ranks') := by
  intro s
  rw [balanceFilter_run]
  cases hbal : s.strategy.balance with
  | none => exact ⟨SameCross.refl s, fun hb => absurd rfl hb, fun _ hr => by cases hr⟩
  | some balance =>
      obtain ⟨hsame, hsucc, hmarked⟩ := balanceServer_marked (P := P) md5 key balance ranks s
      refine ⟨hsame, fun _ hne hr => hsucc hne (Option.map_eq_none_iff.1 hr), ?_⟩
      intro ranks' hr
      obtain ⟨ranks₁, h₁, rfl⟩ := Option.map_eq_some_iff.1 hr
      exact (h.marked (hmarked ranks₁ h₁)).perm (std.perm cmpRank ranks₁)

/-- The body of `ConnectFilter`'s loop. -/
theorem connectRank_marked (f : ConnectFilter) (sr : ServerRank) :
    Ensures (connectRank f sr) (fun s sr' s' => Marked P sr sr' ∧ SameCross s s') := by
  intro s
  unfold connectRank
  split
  · exact ⟨Marked.refl sr, SameCross.refl s⟩
  · refine ⟨Rescored.marked ⟨rfl, rfl, rfl, rfl, rfl⟩ ?_, rfl⟩
    intro hdis
    have hdis' : (if f.rate (f.connectStatus sr.serverId).failedCount
        < Float.ofNat (s.rands 0 % 100) then true else sr.disabled) = false := hdis
    split at hdis'
    · cases hdis'
    · exact hdis'

theorem connectFilter_for (h : RanksFor request P ranks) : Ensures (connectFilter ranks)
    (fun s ranks' s' => RanksFor request P ranks' ∧ SameCross s s') := by
  intro s
  show (fun s ranks' s' => RanksFor request P ranks' ∧ SameCross s s') s
    ((if s.strategy.connect.loadSucc then ranks.mapM (connectRank s.strategy.connect)
      else pure ranks).run s).1
    ((if s.strategy.connect.loadSucc then ranks.mapM (connectRank s.strategy.connect)
      else pure ranks).run s).2
  split
  · have hloop := Ensures.mapM SameCross.refl SameCross.trans
      (connectRank_marked (P := P) s.strategy.connect) ranks s
    exact ⟨h.marked hloop.1, hloop.2⟩
  · exact ⟨h, SameCross.refl s⟩

/-- The body of the first loop of `HealthyFilter`. -/
theorem healthyRank_marked (sr : ServerRank) :
    Ensures (healthyRank sr) (fun s sr' s' => Marked P sr sr' ∧ SameCross s s') := by
  intro s
  unfold healthyRank
  split
  · exact ⟨Marked.refl sr, SameCross.refl s⟩
  · refine ⟨Rescored.marked ⟨rfl, rfl, rfl, rfl, rfl⟩ ?_, rfl⟩
    intro hdis
    by_contra hsr
    rw [Bool.not_eq_false] at hsr
    have hdis' : (if _ < Float.ofNat (s.rands 0 % 100) then true else sr.disabled) = false := hdis
    rw [hsr, ite_self] at hdis'
    cases hdis'

/-- The third loop of `HealthyFilter`. -/
theorem HealthyFilter.speedRank_marked (f : HealthyFilter) (totalServerNum : Nat)
    (sumSpeed : Float) (sr : ServerRank) : Marked P sr (f.speedRank totalServerNum sumSpeed sr) := by
  refine (f.speedRank_rescored totalServerNum sumSpeed sr).marked ?_
  unfold HealthyFilter.speedRank
  split <;> exact id

/-- A backup is a rank of this room that is not disabled. -/
theorem RanksFor.backup_here (h : RanksFor request P ranks) (f : HealthyFilter) (i : Nat)
    (avgTime : Float) {bu : BackupMachineInfo} (hbu : bu ∈ f.backup ranks i avgTime) :
    request.Here bu.serverId := by
  obtain ⟨p, hmem, hsome⟩ := List.mem_filterMap.1 hbu
  have hsr : p.1 ∈ ranks := List.fst_mem_of_mem_zipIdx hmem
  simp only at hsome
  split at hsome
  · cases hsome
  · rename_i hskip
    split at hsome
    · cases hsome
      apply (h.each p.1 hsr).here
      · exact Bool.not_eq_true _ ▸ fun hcross => hskip (Or.inr (Or.inl hcross))
      · exact Bool.not_eq_true _ ▸ fun hdis => hskip (Or.inl hdis)
    · cases hsome

/-- The body of the fourth loop. -/
theorem RanksFor.divert (h : RanksFor request request.Here ranks) (std : StdSort)
    (f : HealthyFilter) {i : Nat} {sr : ServerRank} (hsr : ranks[i]? = some sr) (rnd : Nat) :
    RanksFor request request.Here (divert std f ranks i sr rnd) := by
  unfold RedisAgent.divert
  split
  · cases hsort : std.sort backupCmp (f.backup ranks i (f.status sr.serverId).getTotalAvgTime) with
    | nil => simpa only [hsort] using h
    | cons bu rest =>
        simp only [hsort]
        have hmem : bu ∈ std.sort backupCmp
            (f.backup ranks i (f.status sr.serverId).getTotalAvgTime) := by
          rw [hsort]
          exact List.mem_cons_self
        have hbu := h.backup_here f i _ ((std.perm backupCmp _).subset hmem)
        refine h.marked (forall₂_set Marked.refl ?_ ranks i hsr)
        exact ⟨rfl, rfl, rfl, (fun hdis => by cases hdis), fun _ => Or.inl hbu⟩
  · exact h

theorem divertRank_for (std : StdSort) (f : HealthyFilter)
    (h : RanksFor request request.Here ranks) (i : Nat) : Ensures (divertRank std f ranks i)
      (fun s ranks' s' => RanksFor request request.Here ranks' ∧ SameCross s s') := by
  intro s
  unfold divertRank
  split
  · exact ⟨h, SameCross.refl s⟩
  · exact ⟨h.divert std f ‹_› _, rfl⟩

/-- **`HealthyFilter`** appoints servers of this room only. -/
theorem healthyFilter_for (std : StdSort) (needHealthyFilter : Bool)
    (h : RanksFor request request.Here ranks) : Ensures (healthyFilter std needHealthyFilter ranks)
      (fun s ranks' s' => RanksFor request request.Here ranks' ∧ SameCross s s') := by
  have hloops : Ensures (healthyLoops std ranks)
      (fun s ranks' s' => RanksFor request request.Here ranks' ∧ SameCross s s') := by
    intro s
    obtain ⟨hmarked, hs₁⟩ := Ensures.mapM SameCross.refl SameCross.trans
      (healthyRank_marked (P := request.Here)) ranks s
    let s₁ := ((ranks.mapM healthyRank).run s).2
    let t := s₁.strategy.healthy.sumSpeed ((ranks.mapM healthyRank).run s).1
    let ranks₁ := ((ranks.mapM healthyRank).run s).1.map (s₁.strategy.healthy.speedRank t.1 t.2)
    have h₂ : RanksFor request request.Here ranks₁ := by
      refine (h.marked hmarked).marked ?_
      rw [List.forall₂_map_right_iff]
      exact List.forall₂_same.2 fun sr _ => s₁.strategy.healthy.speedRank_marked t.1 t.2 sr
    have hloop := Ensures.foldlM (S := SameCross) (I := RanksFor request request.Here)
      (l := List.range ranks₁.length) SameCross.refl SameCross.trans
      (fun b i _ hb => divertRank_for std s₁.strategy.healthy hb i) h₂ s₁
    exact ⟨hloop.1, SameCross.trans _ _ _ hs₁ hloop.2⟩
  intro s
  show (fun s ranks' s' => RanksFor request request.Here ranks' ∧ SameCross s s') s
    ((if s.strategy.healthy.loadSucc && needHealthyFilter then healthyLoops std ranks
      else pure ranks).run s).1
    ((if s.strategy.healthy.loadSucc && needHealthyFilter then healthyLoops std ranks
      else pure ranks).run s).2
  split
  · exact hloops s
  · exact ⟨h, SameCross.refl s⟩

/-- The last loop of `CrossRoomFilter` disables, and nothing else. -/
theorem RanksFor.crossOff (h : RanksFor request P ranks) (cross : Option ServerRank) :
    RanksFor request P (ranks.map (fun r =>
      if cross.any (fun c => r.serverId == c.serverId) then r
      else if r.crossRoom ∧ ¬ r.disabled then { r with disabled := true } else r)) := by
  refine h.marked ?_
  rw [List.forall₂_map_right_iff]
  apply List.forall₂_same.2
  intro r _
  split
  · exact Marked.refl r
  · split
    · exact ⟨rfl, rfl, rfl, (fun hdis => by cases hdis), fun huse => Or.inr ⟨huse, rfl⟩⟩
    · exact Marked.refl r

/-- **`CrossRoomFilter`** appoints a server of another room for the first enabled one of this
room. -/
theorem crossRoomFilter_for (crossRoom : Bool) (h : RanksFor request request.Here ranks) :
    RanksFor request (request.Choosable crossRoom)
      (crossRoomFilter crossRoom request.nthRetry ranks) := by
  have hsame : RanksFor request (request.Choosable crossRoom) ranks := h.mono fun _ hi => Or.inl hi
  unfold crossRoomFilter
  split
  · exact hsame
  · rename_i hon
    have hload : crossRoom = true := by
      by_contra hoff
      exact hon (Or.inl hoff)
    have hfirst : request.nthRetry ≤ 0 := by
      have hn : ¬ 0 < request.nthRetry := fun hpos => hon (Or.inr hpos)
      omega
    split
    · exact hsame
    · rename_i i hi
      obtain ⟨hlt, hp, -⟩ := List.findIdx?_eq_some_iff_getElem.1 hi
      -- the rank at place `i` is the enabled server of this room
      have hhere : request.EnabledHere := by
        obtain ⟨server, hget, hserver, hroom, -⟩ := (h.each _ (List.getElem_mem hlt)).seat
        rw [Bool.and_eq_true, Bool.not_eq_true'] at hp
        refine ⟨server, List.mem_of_getElem? hget, ?_, hroom.symm.trans hp.1⟩
        have hen := hp.2
        unfold ServerRank.enabled at hen
        rw [hserver] at hen
        exact hen
      split
      · cases hcross : ranks.find? (fun r => r.crossRoom && r.enabled && !r.disabled) with
        | none =>
            simp only
            exact hsame.crossOff none
        | some c =>
            simp only
            have hc := List.find?_some hcross
            rw [Bool.and_eq_true, Bool.and_eq_true, Bool.not_eq_true'] at hc
            have haway := (h.each c (List.mem_of_find?_eq_some hcross)).away hc.1.1 hc.2
            refine (hsame.marked (forall₂_modify Marked.refl ?_ ranks i)).crossOff (some c)
            intro sr
            exact ⟨rfl, rfl, rfl, id, fun _ => Or.inl (Or.inr ⟨haway, hload, hfirst, hhere⟩)⟩
      · exact hsame

/-! ## §4. The choice. -/

/-- A rank that the second loop of `SelectFilter` takes, when one must be selected. -/
theorem RankFor.selectable {sr : ServerRank} (h : RankFor request P sr) :
    sr.selectable true = true ↔ request.Here sr.serverId := by
  obtain ⟨server, hget, hserver, hroom, -⟩ := h.seat
  have hsel : sr.selectable true
      = ((server.enable && server.isHealthy) && !server.elsewhere request.currentMachineRoom) := by
    unfold ServerRank.selectable
    rw [if_pos rfl, hserver, hroom]
    rfl
  rw [hsel, Bool.and_eq_true, Bool.and_eq_true, Bool.not_eq_true']
  constructor
  · intro hall
    exact ⟨server, hget, hall.1, hall.2⟩
  · intro hhere
    obtain ⟨server', hget', hok, hroom'⟩ := hhere
    rw [hget] at hget'
    cases hget'
    exact ⟨hok, hroom'⟩

/-- A loop that starts anywhere in a circle comes to every place. -/
theorem exists_turn {n i : Nat} (hi : i < n) (rd : Nat) : ∃ j < n, (j + rd) % n = i := by
  have hrd := Nat.mod_add_div rd n
  have hr := Nat.mod_lt rd (Nat.zero_lt_of_lt hi)
  by_cases hle : rd % n ≤ i
  · refine ⟨i - rd % n, by omega, ?_⟩
    have hsum : i - rd % n + rd = i + n * (rd / n) := by omega
    rw [hsum, Nat.add_mul_mod_self_left, Nat.mod_eq_of_lt hi]
  · refine ⟨i + n - rd % n, by omega, ?_⟩
    have hsum : i + n - rd % n + rd = i + n * (rd / n + 1) := by
      rw [Nat.mul_succ]
      omega
    rw [hsum, Nat.add_mul_mod_self_left, Nat.mod_eq_of_lt hi]

/-- The second loop takes a server of this room. -/
theorem RanksFor.selectAny_here (h : RanksFor request P ranks) {rd id : Nat}
    (hid : selectAny true rd ranks = some id) : request.Here id := by
  obtain ⟨i, -, hi⟩ := List.exists_of_findSome?_eq_some hid
  cases hget : ranks[(i + rd) % ranks.length]? with
  | none =>
      simp only [hget] at hi
      cases hi
  | some sr =>
      simp only [hget] at hi
      have hsr := h.each sr (List.mem_of_getElem? hget)
      split at hi
      · rename_i hsel
        cases hi
        exact hsr.selectable.1 hsel
      · cases hi

/-- And it takes one where there is one. -/
theorem RanksFor.selectAny_some (h : RanksFor request P ranks) {i : Nat} (hi : request.Here i)
    (rd : Nat) : selectAny true rd ranks ≠ none := by
  obtain ⟨sr, hsr, hid⟩ := h.exists_rank hi.lt
  obtain ⟨k, hk, hat⟩ := List.getElem_of_mem hsr
  obtain ⟨j, hj, hturn⟩ := exists_turn hk rd
  intro hnone
  have hpass := List.findSome?_eq_none_iff.1 hnone j (List.mem_range.2 hj)
  have hsel : sr.selectable true = true := (h.each sr hsr).selectable.2 (hid ▸ hi)
  simp only [hturn, List.getElem?_eq_getElem hk, hat, if_pos hsel] at hpass
  cases hpass

/-- What `SelectFilter` brings about, when one must be selected. -/
structure Selected (request : SlbRequest) (crossRoom : Bool) (r : Option Nat) : Prop where
  choosable : ∀ id, r = some id → request.Choosable crossRoom id
  chooses : ∀ i, request.Here i → r ≠ none

/-- **`SelectFilter`**: the first loop takes what a rank of this room offers, the second a server
of this room. -/
theorem selectFilter_for (h : RanksFor request (request.Choosable crossRoom) ranks)
    (hmust : request.mustSelectOneServer = true) :
    Ensures (selectFilter request ranks) (fun _ r _ => Selected request crossRoom r) := by
  intro s
  unfold selectFilter
  cases hloop : selectLoop request.nthRetry 0 ranks with
  | some id =>
      obtain ⟨sr, hsr, hid⟩ := selectLoop_choice _ ranks 0 hloop
      refine ⟨?_, fun _ _ hn => by cases hn⟩
      intro id' he
      cases he
      rcases (h.each sr hsr).choice hid with hhere | hp
      · exact Or.inl hhere
      · exact hp
  | none =>
      rw [hmust]
      exact ⟨fun id hid => Or.inl (h.selectAny_here hid), fun i hi => h.selectAny_some hi _⟩

/-- The filters after `BalanceFilter`. -/
theorem filtersAfterBalance_for (std : StdSort) (h : RanksFor request request.Here ranks)
    (hmust : request.mustSelectOneServer = true) :
    Ensures (filtersAfterBalance std request ranks) (fun s r _ =>
      RanksFor request (request.Choosable s.strategy.crossRoom) r.2
        ∧ Selected request s.strategy.crossRoom r.1) := by
  intro s
  obtain ⟨h₁, hs₁⟩ := connectFilter_for h s
  obtain ⟨h₂, hs₂⟩ := healthyFilter_for std request.needHealthyFilter h₁
    ((connectFilter ranks).run s).2
  let s₂ := ((healthyFilter std request.needHealthyFilter ((connectFilter ranks).run s).1).run
    ((connectFilter ranks).run s).2).2
  have hcross : s₂.strategy.crossRoom = s.strategy.crossRoom := SameCross.trans _ _ _ hs₁ hs₂
  have h₃ := crossRoomFilter_for s₂.strategy.crossRoom h₂
  have hselected := selectFilter_for h₃ hmust s₂
  rw [← hcross]
  exact ⟨h₃, hselected⟩

/-- **The chain of filters.** -/
theorem chainFilter_for (std : StdSort) (md5 : Md5) (hmust : request.mustSelectOneServer = true) :
    Ensures (chainFilter std md5 request) (fun s r _ =>
      (∀ id, r.1 = some id → request.Choosable s.strategy.crossRoom id
        ∧ r.2.any (fun sr => sr.serverId == id) = true)
      ∧ (s.strategy.balance ≠ none → ∀ i, request.Here i → r.1 ≠ none)) := by
  have hprep := prepareFilter_for request.Here request
  unfold chainFilter
  refine (balanceFilter_for std md5 request.key hprep).bind ?_
  intro r s₁ s hbal
  obtain ⟨hsame, hsucc, hranks⟩ := hbal
  cases r with
  | none =>
      refine ⟨(fun _ hid => by cases hid), ?_⟩
      intro hb i hi
      obtain ⟨sr, hsr, -⟩ := hprep.exists_rank hi.lt
      exact absurd rfl (hsucc hb (List.ne_nil_of_mem hsr))
  | some ranks =>
      obtain ⟨hr, hselected⟩ := filtersAfterBalance_for std (hranks ranks rfl) hmust s₁
      rw [hsame] at hr hselected
      refine ⟨?_, fun _ i hi => hselected.chooses i hi⟩
      intro id hid
      have hch := hselected.choosable id hid
      exact ⟨hch, hr.any_serverId hch.lt⟩

/-! ## §5. `fetchServer`. -/

/-- What is promised of the place that `fetchServer` returns for `req`; `-1` is none. -/
structure SoundChoice {β : Type} (s : SlbState) (copyCall : β → SlbServer) (req : SlbFetch β)
    (id : Int) : Prop where
  /-- a server that is enabled and healthy; one of another machine room only on the first
  try, with CrossRoomFilter on, and where this room has an enabled server -/
  chosen : id = -1 ∨ ∃ (i : Nat) (x : β), id = i ∧ req.svr[i]? = some x ∧ (copyCall x).InOrder
    ∧ ((copyCall x).elsewhere req.currentMachineRoom = true → s.strategy.crossRoom = true
      ∧ req.nthRetry ≤ 0 ∧ ∃ y ∈ req.svr, (copyCall y).enable = true
        ∧ (copyCall y).elsewhere req.currentMachineRoom = false)
  /-- and some server, where one of this room is enabled and healthy -/
  found : s.strategy.balance ≠ none → req.svr.length ≤ maxServerSize →
    ∀ x ∈ req.svr, (copyCall x).InOrder →
      (copyCall x).elsewhere req.currentMachineRoom = false → id ≠ -1

variable {β : Type} {copyCall : β → SlbServer} {req : SlbFetch β}

/-- The servers of the request are the copies. -/
theorem server_getElem? {i : Nat} {server : SlbServer}
    (h : (req.svr.map copyCall)[i]? = some server) : ∃ x, req.svr[i]? = some x ∧ copyCall x = server := by
  rw [List.getElem?_map] at h
  exact Option.map_eq_some_iff.1 h

/-- **The server chosen is in order.**  For every list of servers, whatever failures and times
were recorded, whatever `rand()` and the clock return and however `std::sort` breaks ties: the
server `fetchServer` chooses is enabled and healthy; it is of another machine room only on the
first try, with CrossRoomFilter on and an enabled server in this room; and it chooses one
whenever this room has a server that is enabled and healthy. -/
theorem server_choice_sound (std : StdSort) (md5 : Md5) (copyCall : β → SlbServer)
    (req : SlbFetch β) (s : SlbState) :
    SoundChoice s copyCall req ((fetchServer std md5 copyCall req).run s).1 := by
  unfold fetchServer
  by_cases hmany : maxServerSize < req.svr.length
  · rw [if_pos hmany]
    exact ⟨Or.inl rfl, fun _ hfew => absurd hmany (Nat.not_lt.2 hfew)⟩
  · rw [if_neg hmany]
    refine Ensures.bind (R := fun s id _ => SoundChoice s copyCall req id)
      (chainFilter_for std md5 rfl) ?_ s
    intro r s₁ s hchain
    obtain ⟨hchosen, hfound⟩ := hchain
    have hsome : s.strategy.balance ≠ none → ∀ x ∈ req.svr, (copyCall x).InOrder →
        (copyCall x).elsewhere req.currentMachineRoom = false → r.1 ≠ none := by
      intro hb x hx hok hroom
      obtain ⟨i, hi, hat⟩ := List.getElem_of_mem hx
      refine hfound hb i ⟨copyCall x, ?_, hok, hroom⟩
      rw [List.getElem?_map, List.getElem?_eq_getElem hi, hat]
      rfl
    cases hr : r.1 with
    | none =>
        simp only [hr]
        exact ⟨Or.inl rfl, fun hb _ x hx hok hroom _ => hsome hb x hx hok hroom hr⟩
    | some id =>
        simp only [hr]
        obtain ⟨hch, hany⟩ := hchosen id hr
        rw [if_pos hany]
        refine ⟨Or.inr ?_, fun _ _ x _ _ _ hneg => by cases hneg⟩
        rcases hch with ⟨server, hget, hok, hroom⟩ | ⟨⟨server, hget, hok, -⟩, hload, hfirst, hhere⟩
        · obtain ⟨x, hx, rfl⟩ := server_getElem? hget
          refine ⟨id, x, rfl, hx, hok, ?_⟩
          intro haway
          rw [hroom] at haway
          cases haway
        · obtain ⟨x, hx, rfl⟩ := server_getElem? hget
          refine ⟨id, x, rfl, hx, hok, fun _ => ⟨hload, hfirst, ?_⟩⟩
          obtain ⟨local', hmem, hen, hroom⟩ := hhere
          obtain ⟨y, hy, rfl⟩ := List.mem_map.1 hmem
          exact ⟨y, hy, hen, hroom⟩

end RedisAgent
