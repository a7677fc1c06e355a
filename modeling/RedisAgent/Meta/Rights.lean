/-
  RedisAgent.Meta.Rights — who may send what, whatever is reloaded.

  `meta_auth_check` looks the name up in the index of the configuration that was accepted
  last, and the user in the table that was loaded last.  These belong together until a
  reload fails with the old table gone.  Then the index is the old one, and a name leads to
  the user at the same place in the file that failed, as far as that was read; what lies
  behind is not there at all.

  `accepted` and `failed` are history: the configuration accepted last, and the one that has
  replaced its table since and failed.

  The runs are those in which nothing undefined happens (`definedLts`).  A file can fill a
  table past its end, with 65 services of one partition, with the slot 65536 or with more
  partitions than slots; and a reload that replaces a partition of several services frees
  the memory of its pool's servers with the first of them.

  Main results:
    • `metaLoadConf_users` — the users a load leaves, wherever it stops;
    • `MetaState.confReload_tables` — what a reload does to the table and the index;
    • `requests_authorised` — whom `req_process` lets through, in every run.
-/
import RedisAgent.Meta.Reload

namespace RedisAgent

variable {σ : Type*}

/-! ## §1. The rights of a configuration. -/

/-- The section is that of the user `uname`. -/
def ConfUser.named (x : ConfUser) (uname : CString) : Bool :=
  decide (x.userName.map (getCstr maxNameLen) = some uname)

/-- The section admits a request with the token `tk`: the tokens have one hash, the power is
positive, and a user who may only read does not write. -/
structure ConfUser.Admits (x : ConfUser) (tk : CString) (isWrite : Bool) : Prop where
  token : ∃ t, x.userTk = some t ∧ strhash tk = strhash (getCstr maxNameLen t)
  power : ∃ p : Int32, x.userPower = some p ∧ 0 < p.toInt
    ∧ ¬ (p.toInt = authReadOnly ∧ isWrite = true)

/-- `backend_req_init` and `backend_parse` have succeeded. -/
def AuthRequest.Parsed (r : AuthRequest) : Prop := 0 ≤ r.backendReqInit ∧ 0 ≤ r.backendParse

/-- **The configuration authorises the request**: the first section with its user name
admits it. -/
def Configure.Authorises (conf : Configure) (r : AuthRequest) : Prop :=
  ∃ uname tk x, r.uname = some uname ∧ r.tk = some tk
    ∧ (conf.users.getD []).find? (fun x => x.named uname) = some x ∧ x.Admits tk r.isWrite

/-- What `req_process` asks of the user it has found. -/
def MetaUserInfo.Admits (user : MetaUserInfo) (tk : CString) (isWrite : Bool) : Prop :=
  strhash tk = strhash user.tk ∧ 0 < user.power ∧ ¬ (user.power = authReadOnly ∧ isWrite = true)

variable {x : ConfUser} {user : MetaUserInfo} {tk : CString} {isWrite : Bool}

/-- A user who was read admits what the section admits. -/
theorem UserOf.admits_iff (h : UserOf x user) : user.Admits tk isWrite ↔ x.Admits tk isWrite := by
  obtain ⟨uname, t, p, -, ht, hp, rfl⟩ := h
  constructor
  · intro hadmits
    exact ⟨⟨t, ht, hadmits.1⟩, p, hp, hadmits.2⟩
  · intro hadmits
    obtain ⟨t', ht', hhash⟩ := hadmits.token
    obtain ⟨p', hp', hpower⟩ := hadmits.power
    obtain rfl := Option.some_inj.1 (ht.symm.trans ht')
    obtain rfl := Option.some_inj.1 (hp.symm.trans hp')
    exact ⟨hhash, hpower⟩

theorem UserOf.named_iff (h : UserOf x user) (uname : CString) :
    x.named uname = decide (user.uname = uname) := by
  obtain ⟨name, t, p, hname, -, -, rfl⟩ := h
  unfold ConfUser.named
  rw [hname, Option.map_some, decide_eq_decide, Option.some_inj]

/-! ### The two lists. -/

variable {sections : List ConfUser} {users : List MetaUserInfo}

/-- The users are those of the sections, so a name is at the same place in both. -/
theorem findIdx?_sections (h : List.Forall₂ UserOf sections users) (uname : CString) :
    sections.findIdx? (fun x => x.named uname)
      = users.findIdx? (fun user => decide (user.uname = uname)) := by
  induction h with
  | nil => rfl
  | cons hx _ ih => rw [List.findIdx?_cons, List.findIdx?_cons, hx.named_iff uname, ih]

theorem UserOf.getElem? (h : List.Forall₂ UserOf sections users) {i : Nat} (hi : users[i]? = some user) :
    ∃ x, sections[i]? = some x ∧ UserOf x user := by
  obtain ⟨hlt, rfl⟩ := List.getElem?_eq_some_iff.1 hi
  have hlen := h.length_eq
  exact ⟨_, List.getElem?_eq_getElem (hlen ▸ hlt), (List.forall₂_iff_get.1 h).2 i (hlen ▸ hlt) hlt⟩

/-! ### `req_process` -/

variable {auth : HashMapAuth}

/-- `meta_auth_check` reads inside the table. -/
theorem metaAuthCheck_found {uname ip : CString} {id : Nat} (hid : auth uname = some id)
    (huser : users[id]? = some user) : metaAuthCheck auth users (some uname) (some tk) (some ip)
      = some (if strhash tk ≠ strhash user.tk then -2 else user.power) := by
  unfold metaAuthCheck
  simp only [hid, huser, Option.map_some]

/-- **Whom `req_process` lets through**, with an index and a table that need not belong
together. -/
theorem reqProcess_acquires (auth : HashMapAuth) (users : List MetaUserInfo) (r : AuthRequest) :
    reqProcess auth users r = some .acquire ↔ r.Parsed ∧ ∃ uname tk id user, r.uname = some uname
      ∧ r.tk = some tk ∧ auth uname = some id ∧ users[id]? = some user ∧ user.Admits tk r.isWrite := by
  unfold reqProcess AuthRequest.Parsed
  by_cases hinit : r.backendReqInit < 0
  · rw [if_pos hinit]
    exact iff_of_false (fun h => by cases h) (fun h => absurd h.1.1 (Int.not_le.2 hinit))
  by_cases hparse : r.backendParse < 0
  · rw [if_neg hinit, if_pos hparse]
    exact iff_of_false (fun h => by cases h) (fun h => absurd h.1.2 (Int.not_le.2 hparse))
  rw [if_neg hinit, if_neg hparse, and_iff_right ⟨Int.not_lt.1 hinit, Int.not_lt.1 hparse⟩]
  constructor
  · intro hacq
    obtain ⟨ret, hret, hacq⟩ := Option.map_eq_some_iff.1 hacq
    have hpos : ¬ (ret ≤ 0 ∨ (ret = authReadOnly ∧ r.isWrite = true)) := by
      intro hno
      rw [if_pos hno] at hacq
      cases hacq
    -- a positive answer is the power of a user that was found
    cases hu : r.uname with
    | none =>
        rw [hu] at hret
        cases hret
        exact absurd (Or.inl (by decide)) hpos
    | some uname =>
        cases ht : r.tk with
        | none =>
            rw [hu, ht] at hret
            cases hret
            exact absurd (Or.inl (by decide)) hpos
        | some tk =>
            rw [hu, ht] at hret
            cases hid : auth uname with
            | none =>
                unfold metaAuthCheck at hret
                simp only [hid, Option.some_inj] at hret
                exact absurd (Or.inl (by omega)) hpos
            | some id =>
                cases huser : users[id]? with
                | none =>
                    unfold metaAuthCheck at hret
                    simp only [hid, huser] at hret
                    cases hret
                | some user =>
                    rw [metaAuthCheck_found hid huser, Option.some_inj] at hret
                    have hhash : strhash tk = strhash user.tk := by
                      by_contra hne
                      rw [if_pos hne] at hret
                      exact hpos (Or.inl (by omega))
                    rw [if_neg (not_not.2 hhash)] at hret
                    refine ⟨uname, tk, id, user, rfl, rfl, hid, huser, hhash, ?_, ?_⟩
                    · rw [hret]
                      exact Int.not_le.1 (fun h => hpos (Or.inl h))
                    · rw [hret]
                      exact fun h => hpos (Or.inr h)
  · rintro ⟨uname, tk, id, user, hu, ht, hid, huser, hhash, hpower, hwrite⟩
    rw [hu, ht, metaAuthCheck_found hid huser, if_neg (not_not.2 hhash), Option.map_some, if_neg]
    exact not_or.2 ⟨Int.not_le.2 hpower, hwrite⟩

/-- With an index into the table, `req_process` stays inside it. -/
theorem reqProcess_total (hid : ∀ uname id, auth uname = some id → id < users.length) (r : AuthRequest) :
    reqProcess auth users r ≠ none := by
  have hcheck : ∃ ret, metaAuthCheck auth users r.uname r.tk (some r.reqip) = some ret := by
    cases hu : r.uname with
    | none => exact ⟨-1, rfl⟩
    | some uname =>
        cases ht : r.tk with
        | none => exact ⟨-1, rfl⟩
        | some tk =>
            cases hget : auth uname with
            | none =>
                refine ⟨-1, ?_⟩
                unfold metaAuthCheck
                simp only [hget]
            | some id => exact ⟨_, metaAuthCheck_found hget (List.getElem?_eq_getElem (hid uname id hget))⟩
  obtain ⟨ret, hret⟩ := hcheck
  unfold reqProcess
  rw [hret, Option.map_some]
  split
  · exact Option.some_ne_none _
  · split <;> exact Option.some_ne_none _

/-! ## §2. What a load leaves. -/

variable {conf : Configure}

/-- The users are those of the file, as far as they have a power. -/
def UsersFrom (conf : Configure) (users : List MetaUserInfo) : Prop :=
  ∀ (i : Nat) (user : MetaUserInfo), users[i]? = some user → user.power ≠ 0 →
    ∃ x, (conf.users.getD [])[i]? = some x ∧ UserOf x user

/-- A value that is fetched: the state is as it was, and the value is there if it goes on. -/
theorem leaves_fetch {α : Type} {o : Option α} {db db' : MetaDbInfo} (h : Leaves (fetch o) db db') :
    db' = db := by
  cases o with
  | some a => exact leaves_pure h
  | none =>
      rcases h with ⟨a, h⟩ | ⟨e, h⟩
      · exact absurd h returns_throw
      · have h : (EStateM.Result.error (-1) db : EStateM.Result Int MetaDbInfo α) = .error e db' := h
        cases h
        rfl

theorem fetch_keeps {α : Type} (P : MetaDbInfo → Prop) (o : Option α) : Keeps P (fetch o) :=
  Keeps.of_same fun _ _ => leaves_fetch

/-- **One user**: it is appended at once, and gets its power last. -/
theorem loadUser_leaves {x : ConfUser} {db db' : MetaDbInfo} (h : Leaves (loadUser x) db db') :
    ∃ user, db' = { db with users := db.users ++ [user] } ∧ (user.power ≠ 0 → UserOf x user) := by
  unfold loadUser at h
  rcases h.bind with h | ⟨u, db₁, h₁, h⟩
  · exact ⟨_, leaves_modify h, fun hp => absurd rfl hp⟩
  obtain rfl := returns_modify.1 h₁
  rcases h.bind with h | ⟨uname, db₂, h₂, h⟩
  · exact ⟨_, leaves_fetch h, fun hp => absurd rfl hp⟩
  obtain ⟨hname, rfl⟩ := returns_fetch.1 h₂
  rcases h.bind with h | ⟨u, db₃, h₃, h⟩
  · exact ⟨_, (leaves_modify h).trans (db.setUser_concat _ _), fun hp => absurd rfl hp⟩
  obtain rfl := returns_modify.1 h₃
  rw [MetaDbInfo.setUser_concat] at h
  rcases h.bind with h | ⟨tk, db₄, h₄, h⟩
  · exact ⟨_, leaves_fetch h, fun hp => absurd rfl hp⟩
  obtain ⟨htk, rfl⟩ := returns_fetch.1 h₄
  rcases h.bind with h | ⟨u, db₅, h₅, h⟩
  · exact ⟨_, (leaves_modify h).trans (db.setUser_concat _ _), fun hp => absurd rfl hp⟩
  obtain rfl := returns_modify.1 h₅
  rw [MetaDbInfo.setUser_concat] at h
  rcases h.bind with h | ⟨power, db₆, h₆, h⟩
  · exact ⟨_, leaves_fetch h, fun hp => absurd rfl hp⟩
  obtain ⟨hpower, rfl⟩ := returns_fetch.1 h₆
  exact ⟨_, (leaves_modify h).trans (db.setUser_concat _ _), fun _ => ⟨uname, tk, power, hname, htk, hpower, rfl⟩⟩

/-- **The loop over the users**, wherever it stops. -/
theorem loadUsers_leave (l : List ConfUser) : ∀ {db db' : MetaDbInfo}, Leaves (l.forM loadUser) db db' →
    ∃ us, db'.users = db.users ++ us ∧ ∀ (i : Nat) (user : MetaUserInfo), us[i]? = some user →
      user.power ≠ 0 → ∃ x, l[i]? = some x ∧ UserOf x user := by
  induction l with
  | nil =>
      intro db db' h
      rw [leaves_pure h]
      refine ⟨[], (List.append_nil _).symm, fun i user hi => ?_⟩
      cases hi
  | cons x l ih =>
      intro db db' h
      rcases Leaves.bind h with hstop | ⟨u, db₁, hfirst, hrest⟩
      · -- it stops at this user
        obtain ⟨user, rfl, huser⟩ := loadUser_leaves hstop
        refine ⟨[user], rfl, fun i user' hi hp => ?_⟩
        cases i with
        | zero =>
            cases hi
            exact ⟨x, rfl, huser hp⟩
        | succ i => cases hi
      · obtain ⟨user, rfl, huser⟩ := loadUser_leaves (Or.inl ⟨u, hfirst⟩)
        obtain ⟨us, hus, hfrom⟩ := ih hrest
        refine ⟨user :: us, ?_, fun i user' hi hp => ?_⟩
        · rw [hus, List.append_assoc, List.singleton_append]
        · cases i with
          | zero =>
              cases hi
              exact ⟨x, rfl, huser hp⟩
          | succ i => exact hfrom i user' hi hp

/-! ### The stages before. -/

/-- No user yet. -/
def NoUsers (db : MetaDbInfo) : Prop := db.users = []

/-- A value is fetched, and stored elsewhere. -/
theorem fetchInto_keeps {α β : Type} (o : Option α) {f : α → MetaDbInfo → MetaDbInfo}
    (hf : ∀ a db, (f a db).users = db.users) {k : LoadM β} (hk : Keeps NoUsers k) :
    Keeps NoUsers (fetch o >>= fun a => modify (f a) >>= fun _ => k) :=
  (fetch_keeps _ o).bind fun a => (Keeps.modify fun db h => (hf a db).trans h).bind fun _ => hk

theorem loadBasic_keeps (conf : Configure) : Keeps NoUsers (loadBasic conf) := by
  unfold loadBasic
  refine fetchInto_keeps _ ?_ (fetchInto_keeps _ ?_ (fetchInto_keeps _ ?_ ?_))
  rotate_left 3
  · refine (fetch_keeps _ _).bind fun isLong => ?_
    refine fetchInto_keeps _ ?_ (fetchInto_keeps _ ?_ (fetchInto_keeps _ ?_
      (fetchInto_keeps _ ?_ (fetchInto_keeps _ ?_ (Keeps.pure _)))))
    all_goals exact fun _ _ => rfl
  all_goals exact fun _ _ => rfl

theorem loadRoomAndIdc_keeps (conf : Configure) : Keeps NoUsers (loadRoomAndIdc conf) := by
  unfold loadRoomAndIdc
  refine Keeps.bind (Keeps.modify ?_) fun _ => ?_
  · exact fun _ h => h
  by_cases hroom : conf.dbConnectReadRoomOnly.getD 0 ≠ 0
  · simp only [if_pos hroom]
    refine fetchInto_keeps _ ?_ (Keeps.bind (Keeps.modify ?_) fun _ => ?_)
    · exact fun _ _ => rfl
    · exact fun _ h => h
    split
    · refine (fetch_keeps _ _).bind fun _ => Keeps.modify ?_
      exact fun _ h => h
    · exact Keeps.pure _
  · simp only [if_neg hroom]
    refine Keeps.bind (Keeps.modify ?_) fun _ => ?_
    · exact fun _ h => h
    split
    · refine (fetch_keeps _ _).bind fun _ => Keeps.modify ?_
      exact fun _ h => h
    · exact Keeps.pure _

theorem MetaDbInfo.addService_users (db : MetaDbInfo) (service : MetaServiceInfo) :
    (db.addService service).users = db.users := by
  rw [addService_eq]

theorem loadPartition_keeps (conf : Configure) (j : Nat) : Keeps NoUsers (loadPartition conf j) := by
  refine (fetch_keeps _ _).bind fun _ => Keeps.modify ?_
  exact fun _ h => h

theorem loadService_keeps (y : ConfService × Nat) : Keeps NoUsers (loadService y) := by
  refine (Keeps.of_same fun _ _ => leaves_get).bind fun _ => (fetch_keeps _ _).bind fun service => ?_
  exact Keeps.modify fun db h => (db.addService_users service).trans h

/-- **The users a load leaves.** -/
theorem metaLoadConf_users {db : MetaDbInfo} (h : Leaves (metaLoadConf conf) {} db) :
    UsersFrom conf db.users := by
  have hnone : ∀ {db : MetaDbInfo}, NoUsers db → UsersFrom conf db.users := by
    intro db hdb i user hi
    rw [show db.users = [] from hdb] at hi
    cases hi
  have hstart : NoUsers {} := rfl
  unfold metaLoadConf at h
  rcases h.bind with hstop | ⟨l, db₁, h₁, r₁⟩
  · exact hnone (loadBasic_keeps conf _ _ hstart hstop)
  have hk₁ := loadBasic_keeps conf _ _ hstart (Or.inl ⟨_, h₁⟩)
  rcases r₁.bind with hstop | ⟨u, db₂, h₂, r₂⟩
  · exact hnone (loadRoomAndIdc_keeps conf _ _ hk₁ hstop)
  have hk₂ := loadRoomAndIdc_keeps conf _ _ hk₁ (Or.inl ⟨_, h₂⟩)
  rcases r₂.bind with hstop | ⟨u, db₃, h₃, r₃⟩
  · rw [leaves_modify hstop]
    exact hnone hk₂
  have hk₃ : NoUsers db₃ := (congrArg MetaDbInfo.users (returns_modify.1 h₃)).trans hk₂
  rcases r₃.bind with hstop | ⟨db₄, db₅, h₄, r₄⟩
  · rw [leaves_get hstop]
    exact hnone hk₃
  have hk₅ : NoUsers db₅ := (congrArg MetaDbInfo.users (returns_get.1 h₄).2).trans hk₃
  rcases r₄.bind with hstop | ⟨u, db₆, h₆, r₆⟩
  · exact hnone (Keeps.forM (loadPartition_keeps conf) _ _ _ hk₅ hstop)
  have hk₆ := Keeps.forM (loadPartition_keeps conf) _ _ _ hk₅ (Or.inl ⟨_, h₆⟩)
  rcases r₆.bind with hstop | ⟨services, db₇, h₇, r₇⟩
  · rw [leaves_fetch hstop]
    exact hnone hk₆
  have hk₇ : NoUsers db₇ := (congrArg MetaDbInfo.users (returns_fetch.1 h₇).2).trans hk₆
  rcases r₇.bind with hstop | ⟨u, db₈, h₈, r₈⟩
  · exact hnone (Keeps.forM loadService_keeps _ _ _ hk₇ hstop)
  have hk₈ := Keeps.forM loadService_keeps _ _ _ hk₇ (Or.inl ⟨_, h₈⟩)
  rcases r₈.bind with hstop | ⟨sections, db₉, h₉, r₉⟩
  · rw [leaves_fetch hstop]
    exact hnone hk₈
  obtain ⟨hsections, hsame⟩ := returns_fetch.1 h₉
  -- the loop over the users is all that is left
  obtain ⟨us, hus, hfrom⟩ := loadUsers_leave sections r₉
  intro i user hi hp
  rw [hus, hsame, show db₈.users = [] from hk₈, List.nil_append] at hi
  rw [hsections]
  exact hfrom i user hi hp

/-! ## §3. Runs. -/

/-- `req_process`, with the tables as they are. -/
def MetaState.reqProcess (s : MetaState σ) (r : AuthRequest) : Option ReqExit :=
  RedisAgent.reqProcess s.metaAuth s.db.users r

/-- The file for which a reload drops the old table. -/
def MetaState.takes (s : MetaState σ) (t : Int) (file : Option Configure) : Option Configure :=
  if s.confLastmodify < t ∧ s.router.routerSwitching = false then
    file.filter (fun conf => conf.dbs = some 1)
  else none

/-- The tables and the router, and where they are from. -/
structure Governed (σ : Type*) where
  tables : MetaState σ
  accepted : Configure
  failed : Option Configure

/-- The configuration that was loaded last. -/
def Governed.loaded (s : Governed σ) : Configure := s.failed.getD s.accepted

/-- The state after one operation. -/
def Governed.exec (s : Governed σ) : MetaOp σ → Governed σ
  | .reload t file =>
      match s.tables.confReload t file with
      | none => s
      | some (ret, tables) =>
          match s.tables.takes t file with
          | none => { s with tables := tables }
          | some conf => if ret = 0 then ⟨tables, conf, none⟩ else ⟨tables, s.accepted, some conf⟩
  | .pool a i op => { s with tables := s.tables.exec (.pool a i op) }

/-- The runs of Meta/Reload, with their history. -/
def governedLts (σ : Type*) : Lts (Governed σ) (MetaOp σ) where
  init s := (∃ t, 0 < t ∧ metaStart.confReload t (some s.accepted) = some (0, s.tables))
    ∧ s.failed = none
  step s op s' := s.tables.Enabled op ∧ s' = s.exec op

/-- **The file stays inside the arrays** it is read into: `service[64]`, the two halves of
`_pool_map_r` and `_pool_map_w`, `partitions[65536]`, and the two of `_shard_init_part`. -/
structure Configure.Fits (conf : Configure) : Prop where
  copies : ∀ m j, conf.copies m j ≤ maxCopyNum
  partitions : ∀ n, conf.dbShardPartitionNum = some n → n.toNat ≤ partitionModKeyNat
  slots : ∀ j partitionStr, conf.dbShardPartition (partitionKey j) = some partitionStr →
    (metaLoadPartition j (getCstr partitionInfoSize partitionStr)).2.partitions.length
        ≤ partitionModKeyNat
      ∧ ∀ p ∈ (metaLoadPartition j (getCstr partitionInfoSize partitionStr)).2.partitions,
        p < partitionModKeyNat

/-- `router_build` of the table a file that fits is loaded into. -/
theorem Configure.Fits.build_defined {conf : Configure} (h : conf.Fits) {db : MetaDbInfo}
    (hdb : Returns (metaLoadConf conf) {} () db) {r : RouterState σ} (hflag : IsFlag r.routerNextFlag)
    (table : Nat) : ∃ res, r.build table db = some res := by
  have hload := metaLoadConf_loaded hdb
  have hle := h.partitions _ hload.partitionNum
  refine RouterState.build_defined hflag ?_ ?_ table
  · intro i hi p hp
    have hlt : i < db.partitionNum.toNat := Nat.lt_of_lt_of_le hi db.passes_le
    obtain ⟨partitionStr, hstr, hpart⟩ := hload.partition i hlt
    refine (h.slots i partitionStr hstr).2 p ?_
    rw [← hpart]
    exact hp
  · exact Nat.le_trans db.passes_le hle

/-- **A file that fits is read to an end**, whatever comes of it. -/
theorem MetaState.confReload_defined (s : MetaState σ) (hflag : IsFlag s.router.routerNextFlag)
    (t : Int) {file : Option Configure} (hfits : ∀ conf, file = some conf → conf.Fits) :
    ∃ res, s.confReload t file = some res := by
  unfold MetaState.confReload
  split
  · cases file with
    | none => exact ⟨_, rfl⟩
    | some conf =>
        by_cases hone : conf.dbs ≠ some 1
        · exact ⟨_, if_pos hone⟩
        · simp only [if_neg hone]
          unfold MetaState.buildRouter
          cases hload : metaLoadConf conf {} with
          | error e db => exact ⟨_, rfl⟩
          | ok u db =>
              obtain ⟨res, hres⟩ := (hfits conf rfl).build_defined hload hflag (s.table + 1)
              simp only [hres, Option.map_some]
              exact ⟨_, rfl⟩
  · exact ⟨_, rfl⟩

/-- Every file that is read fits. -/
def MetaOp.Fits : MetaOp σ → Prop
  | .reload _ file => ∀ conf, file = some conf → conf.Fits
  | .pool .. => True

/-- The operation tears down a server of a pool that was built with two or more, or enters
one that is torn down.  A reload does so when it is accepted, with the pools in force. -/
def MetaState.Faults (s : MetaState σ) : MetaOp σ → Prop
  | .reload t file => (∃ conf tables, s.takes t file = some conf
      ∧ s.confReload t file = some (0, tables)) ∧ ¬ s.router.DestroysSafely
  | .pool a i op => ∃ pool, s.router.heap a = some pool
      ∧ pool.info.FaultsAt pool.servers.length i op

/-- **The runs in which nothing undefined happens.** -/
def definedLts (σ : Type*) : Lts (Governed σ) (MetaOp σ) where
  init s := (governedLts σ).init s ∧ s.accepted.Fits
  step s op s' := (governedLts σ).step s op s' ∧ op.Fits ∧ ¬ s.tables.Faults op

theorem governed_of_defined {s : Governed σ} (h : (definedLts σ).Reachable s) :
    (governedLts σ).Reachable s :=
  h.invariant (fun _ hi => .init hi.1) fun _ _ _ _ ih hs => ih.step hs.1

/-- **A reload**, seen from the table and the index: nothing is taken, or the file is loaded,
and the index follows if it is accepted. -/
theorem MetaState.confReload_tables {s s' : MetaState σ} {t ret : Int} {file : Option Configure}
    (h : s.confReload t file = some (ret, s')) :
    (s.takes t file = none ∧ s'.table = s.table ∧ s'.db = s.db ∧ s'.metaAuth = s.metaAuth
        ∧ ¬ (s.confLastmodify < t ∧ s.router.routerSwitching = false ∧ ret = 0))
      ∨ ∃ conf, s.takes t file = some conf ∧ file = some conf ∧ Leaves (metaLoadConf conf) {} s'.db
        ∧ ((ret = 0 ∧ Returns (metaLoadConf conf) {} () s'.db ∧ s'.metaAuth = metaAuthLoad s'.db.users)
          ∨ (ret ≠ 0 ∧ s'.metaAuth = s.metaAuth)) := by
  unfold MetaState.confReload at h
  unfold MetaState.takes
  by_cases hgo : s.confLastmodify < t ∧ s.router.routerSwitching = false
  · rw [if_pos hgo] at h ⊢
    cases file with
    | none =>
        cases h
        exact Or.inl ⟨rfl, rfl, rfl, rfl, fun hx => absurd hx.2.2 (by decide)⟩
    | some conf =>
        by_cases hone : conf.dbs = some 1
        · simp only [if_neg (not_not.2 hone)] at h
          obtain ⟨⟨ret₁, s₁⟩, hs₁, he⟩ := Option.map_eq_some_iff.1 h
          refine Or.inr ⟨conf, Option.filter_some_pos (decide_eq_true hone), rfl, ?_⟩
          unfold MetaState.buildRouter at hs₁
          cases hload : metaLoadConf conf {} with
          | error e db =>
              have hminus : e = -1 := metaLoadConf_stops conf {} e db hload
              subst hminus
              simp only [hload] at hs₁
              cases hs₁
              simp only [if_pos (show (-1 : Int) ≠ 0 by decide)] at he
              cases he
              exact ⟨Or.inr ⟨-1, hload⟩, Or.inr ⟨by decide, rfl⟩⟩
          | ok u db =>
              simp only [hload] at hs₁
              obtain ⟨⟨ret', r'⟩, -, he'⟩ := Option.map_eq_some_iff.1 hs₁
              cases he'
              by_cases hret : ret' = 0
              · simp only [if_neg (not_not.2 hret)] at he
                cases he
                exact ⟨Or.inl ⟨u, hload⟩, Or.inl ⟨rfl, hload, rfl⟩⟩
              · simp only [if_pos hret] at he
                cases he
                exact ⟨Or.inl ⟨u, hload⟩, Or.inr ⟨by decide, rfl⟩⟩
        · simp only [if_pos (show conf.dbs ≠ some 1 from hone)] at h
          cases h
          exact Or.inl ⟨Option.filter_some_neg (by simp [hone]), rfl, rfl, rfl, fun hx => absurd hx.2.2 (by decide)⟩
  · rw [if_neg hgo] at h ⊢
    cases h
    exact Or.inl ⟨rfl, rfl, rfl, rfl, fun hx => hgo ⟨hx.1, hx.2.1⟩⟩

/-! ## §4. The invariant. -/

/-- **The invariant**: the index is that of the configuration accepted last, and the users are
from the file loaded last. -/
structure GovernedInv (s : Governed σ) : Prop where
  index : ∃ db, Returns (metaLoadConf s.accepted) {} () db ∧ s.tables.metaAuth = metaAuthLoad db.users
    ∧ (s.failed = none → s.tables.db = db)
  table : UsersFrom s.loaded s.tables.db.users

variable {s : Governed σ}

theorem GovernedInv.init (h : (governedLts σ).init s) : GovernedInv s := by
  obtain ⟨⟨t, ht, hload⟩, hfailed⟩ := h
  have hloaded : s.loaded = s.accepted := by
    unfold Governed.loaded
    rw [hfailed]
    rfl
  rcases MetaState.confReload_tables hload with ⟨-, -, -, -, hno⟩ | ⟨conf, -, hfile, hleaves, hcase⟩
  · exact absurd ⟨ht, rfl, rfl⟩ hno
  · obtain rfl := Option.some_inj.1 hfile
    rcases hcase with ⟨-, hret, hauth⟩ | ⟨hne, -⟩
    · exact ⟨⟨s.tables.db, hret, hauth, fun _ => rfl⟩, hloaded ▸ metaLoadConf_users hleaves⟩
    · exact absurd rfl hne

theorem GovernedInv.step (h : GovernedInv s) {op : MetaOp σ} (hen : s.tables.Enabled op) :
    GovernedInv (s.exec op) := by
  cases op with
  | pool a i op =>
      -- an entry into a pool looks at neither
      have hsame : (s.tables.exec (.pool a i op)).db = s.tables.db
          ∧ (s.tables.exec (.pool a i op)).metaAuth = s.tables.metaAuth := by
        unfold MetaState.exec
        simp only
        split <;> exact ⟨rfl, rfl⟩
      obtain ⟨db, hdb, hauth, htable⟩ := h.index
      refine ⟨⟨db, hdb, hsame.2.trans hauth, fun hf => hsame.1.trans (htable hf)⟩, ?_⟩
      show UsersFrom s.loaded (s.tables.exec (.pool a i op)).db.users
      rw [hsame.1]
      exact h.table
  | reload t file =>
      obtain ⟨⟨ret, tables⟩, hload⟩ := hen
      unfold Governed.exec
      simp only [hload]
      rcases MetaState.confReload_tables hload with
        ⟨htakes, -, hdb, hauth, -⟩ | ⟨conf, htakes, -, hleaves, hcase⟩
      · simp only [htakes]
        obtain ⟨db, hdb', hauth', htable⟩ := h.index
        refine ⟨⟨db, hdb', hauth.trans hauth', fun hf => hdb.trans (htable hf)⟩, ?_⟩
        show UsersFrom s.loaded tables.db.users
        rw [hdb]
        exact h.table
      · simp only [htakes]
        rcases hcase with ⟨hret, hreturns, hauth⟩ | ⟨hret, hauth⟩
        · rw [if_pos hret]
          exact ⟨⟨tables.db, hreturns, hauth, fun _ => rfl⟩, metaLoadConf_users hleaves⟩
        · rw [if_neg hret]
          obtain ⟨db, hdb', hauth', -⟩ := h.index
          exact ⟨⟨db, hdb', hauth.trans hauth', fun hf => by cases hf⟩, metaLoadConf_users hleaves⟩

theorem GovernedInv.of_reachable (h : (governedLts σ).Reachable s) : GovernedInv s :=
  h.invariant (fun _ hi => .init hi) fun _ _ _ _ ih hstep => by
    obtain ⟨hen, rfl⟩ := hstep
    exact ih.step hen

/-! ## §5. Whom `req_process` lets through. -/

/-- The index of a table is that of the sections it was loaded from. -/
theorem Loaded.index (h : Loaded conf db) (uname : CString) : metaAuthLoad db.users uname
    = (conf.users.getD []).findIdx? (fun x => x.named uname) := by
  obtain ⟨sections, hsections, husers⟩ := h.users
  rw [metaAuthLoad_eq, hsections, Option.getD_some, findIdx?_sections husers]

/-- Whom the table of a configuration lets through. -/
theorem Loaded.acquires_iff (h : Loaded conf db) (r : AuthRequest) :
    reqProcess (metaAuthLoad db.users) db.users r = some .acquire ↔ r.Parsed ∧ conf.Authorises r := by
  rw [reqProcess_acquires]
  refine and_congr_right fun _ => ?_
  obtain ⟨sections, hsections, husers⟩ := h.users
  have hindex := h.index
  unfold Configure.Authorises
  simp only [hsections, Option.getD_some, List.find?_eq_bind_findIdx?_getElem?,
    Option.bind_eq_some_iff] at hindex ⊢
  constructor
  · rintro ⟨uname, tk, id, user, hu, ht, hid, huser, hadmits⟩
    obtain ⟨x, hx, hof⟩ := UserOf.getElem? husers huser
    exact ⟨uname, tk, x, hu, ht, ⟨id, (hindex uname).symm.trans hid, hx⟩, hof.admits_iff.1 hadmits⟩
  · rintro ⟨uname, tk, x, hu, ht, ⟨id, hid, hx⟩, hadmits⟩
    obtain ⟨hlt, rfl⟩ := List.getElem?_eq_some_iff.1 hx
    have hlen := husers.length_eq
    have hof := (List.forall₂_iff_get.1 husers).2 id hlt (hlen ▸ hlt)
    exact ⟨uname, tk, id, _, hu, ht, (hindex uname).trans hid, List.getElem?_eq_getElem (hlen ▸ hlt),
      hof.admits_iff.2 hadmits⟩

/-- **Whom `req_process` lets through**, whatever was reloaded.  Always: the request shows the
token of a section of the file loaded last, with the power for it, and that section stands
where the configuration accepted last has the request's user.  As long as no reload has
failed half-way, whom that configuration authorises, and all of them. -/
theorem requests_authorised (h : (definedLts σ).Reachable s) (r : AuthRequest) :
    (s.tables.reqProcess r = some .acquire → r.Parsed ∧ ∃ uname tk i x, r.uname = some uname
        ∧ r.tk = some tk ∧ (s.accepted.users.getD []).findIdx? (fun x => x.named uname) = some i
        ∧ (s.loaded.users.getD [])[i]? = some x ∧ x.Admits tk r.isWrite)
      ∧ (s.failed = none → s.tables.reqProcess r ≠ none
        ∧ (s.tables.reqProcess r = some .acquire ↔ r.Parsed ∧ s.accepted.Authorises r)) := by
  obtain ⟨⟨db, hdb, hauth, htable⟩, hfrom⟩ := GovernedInv.of_reachable (governed_of_defined h)
  have hloaded := metaLoadConf_loaded hdb
  unfold MetaState.reqProcess
  rw [hauth]
  constructor
  · intro hacq
    obtain ⟨hparsed, uname, tk, id, user, hu, ht, hid, huser, hadmits⟩ :=
      (reqProcess_acquires _ _ r).1 hacq
    -- only a user that was read to its end has a power
    have hpower : user.power ≠ 0 := by
      have hpos := hadmits.2.1
      omega
    obtain ⟨x, hx, hof⟩ := hfrom id user huser hpower
    exact ⟨hparsed, uname, tk, id, x, hu, ht, (hloaded.index uname).symm.trans hid, hx,
      hof.admits_iff.1 hadmits⟩
  · intro hnone
    rw [htable hnone]
    refine ⟨reqProcess_total (fun uname id hid => ?_) r, hloaded.acquires_iff r⟩
    rw [metaAuthLoad_eq] at hid
    exact (List.findIdx?_eq_some_iff_getElem.1 hid).1

/-- One user `u`, who may write, and whose token is `0123456789abcdef`. -/
def oneUserConf : Configure :=
  { timedConf 100 with users := some [⟨some [117], some hexToken, some 1⟩] }

theorem oneUserConf_returns : ∃ db, Returns (metaLoadConf oneUserConf) {} () db ∧ db.Covers
    ∧ db.shardMode = 0 ∧ db.passes ≤ partitionModKeyNat := by
  have hread : Readable oneUserConf := by
    refine ⟨rfl, rfl, rfl, rfl, rfl, rfl, rfl, rfl, rfl, fun h => absurd rfl h, fun _ => rfl, ?_,
      ⟨[], rfl, fun _ _ x hx => absurd hx List.not_mem_nil⟩, ⟨_, rfl, fun user huser => ?_⟩⟩
    · exact fun _ _ _ _ => rfl
    · rw [List.mem_singleton.1 huser]
      exact ⟨_, [117], hexToken, 1, rfl, rfl, rfl, rfl⟩
  obtain ⟨db, hdb⟩ := metaLoadConf_returns hread
  have hloaded := metaLoadConf_loaded hdb
  have hnum : db.partitionNum = 1 := (Option.some_inj.1 hloaded.partitionNum).symm
  refine ⟨db, hdb, ?_, (Option.some_inj.1 hloaded.shardMode).symm, ?_⟩
  · exact hloaded.covers_single (oneString_short (by decide) (by decide)) hnum slotsRead_wholeRange
  · refine Nat.le_trans db.passes_le ?_
    rw [hnum]
    decide

/-- It stays inside the arrays, and so does the file with another timeout. -/
theorem timedConf_fits (ms : UInt32) (users : Option (List ConfUser)) :
    ({ timedConf ms with users := users } : Configure).Fits := by
  refine ⟨fun _ _ => Nat.zero_le _, ?_, ?_⟩
  · intro n hn
    cases hn
    decide
  · intro j partitionStr hstr
    have hstr : some wholeRange = some partitionStr := hstr
    cases hstr
    have hshort : getCstr partitionInfoSize wholeRange = wholeRange :=
      getCstr_short (by decide) (by decide)
    have hslots : (metaLoadPartition j (getCstr partitionInfoSize wholeRange)).2.partitions
        = List.range partitionModKeyNat := by
      rw [hshort, metaLoadPartition_eq j (by decide)]
      exact slotsRead_wholeRange
    rw [hslots, List.length_range]
    exact ⟨Nat.le_refl _, fun p hp => List.mem_range.1 hp⟩

/-- A file that is taken and accepted. -/
theorem MetaState.confReload_accepts {s : MetaState σ} {t : Int} {db : MetaDbInfo}
    (hgo : s.confLastmodify < t ∧ s.router.routerSwitching = false)
    (hflag : IsFlag s.router.routerNextFlag) (hone : conf.dbs = some 1)
    (hdb : Returns (metaLoadConf conf) {} () db) (hcov : db.Covers) (hmode : db.shardMode = 0)
    (hle : db.passes ≤ partitionModKeyNat) : ∃ r, s.router.build (s.table + 1) db = some (0, r)
      ∧ s.confReload t (some conf)
        = some (0, ⟨some conf, t, s.table + 1, db, metaAuthLoad db.users, r⟩) := by
  obtain ⟨r, hr⟩ := RouterState.build_of_covers hflag hmode hcov hle (s.table + 1)
  have hload : metaLoadConf conf {} = .ok () db := hdb
  refine ⟨r, hr, ?_⟩
  unfold MetaState.confReload MetaState.buildRouter
  simp only [if_pos hgo, if_neg (not_not.2 hone), hload, hr, Option.map_some]
  rfl

theorem oneUserConf_starts : ∃ s : Governed σ, (definedLts σ).Reachable s
    ∧ s.accepted = oneUserConf ∧ s.failed = none ∧ s.tables.confLastmodify = 1 := by
  obtain ⟨db, hdb, hcov, hmode, hle⟩ := oneUserConf_returns
  obtain ⟨r, -, hstart⟩ := MetaState.confReload_accepts (s := (metaStart : MetaState σ))
    ⟨Int.one_pos, rfl⟩ (Or.inl rfl) rfl hdb hcov hmode hle
  exact ⟨⟨_, oneUserConf, none⟩, .init ⟨⟨⟨1, Int.one_pos, hstart⟩, rfl⟩, timedConf_fits 100 _⟩,
    rfl, rfl, rfl⟩

/-- With it, `u` writes with the token, and not with another. -/
theorem requests_authorised_witness : ∃ s : Governed Nat,
    s.tables.reqProcess ⟨0, 0, some [117], some hexToken, [], true⟩ = some .acquire
      ∧ s.tables.reqProcess ⟨0, 0, some [117], some [120], [], true⟩ ≠ some .acquire := by
  obtain ⟨s, hreach, haccepted, hfailed, -⟩ := oneUserConf_starts (σ := Nat)
  refine ⟨s, ?_, ?_⟩
  · refine ((requests_authorised hreach _).2 hfailed).2.2 ⟨⟨by decide, by decide⟩, ?_⟩
    rw [haccepted]
    exact ⟨[117], hexToken, _, rfl, rfl, rfl, ⟨hexToken, rfl, by decide⟩, 1, rfl, by decide, by decide⟩
  · intro hacq
    obtain ⟨-, hauth⟩ := ((requests_authorised hreach _).2 hfailed).2.1 hacq
    rw [haccepted] at hauth
    obtain ⟨uname, tk, x, hu, ht, hx, hadmits⟩ := hauth
    cases hu
    cases ht
    cases hx
    obtain ⟨t, htk, hhash⟩ := hadmits.token
    cases htk
    revert hhash
    decide

end RedisAgent
