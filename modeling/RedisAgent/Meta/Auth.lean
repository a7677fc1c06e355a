/-
  RedisAgent.Meta.Auth — who may send which request.

  The user index of meta.cpp (`meta_auth`), the check of a user name and token
  against it, and the part of `req_process` that decides on the answer.

  A C string is the list of bytes `strlen` sees, a `NULL` pointer is `none`.
  `bsl::hashmap` is a map in which `set` without overwrite keeps the first entry.
  What the plugin's `backend_req_init` and `backend_parse` return, and what they
  leave in the request, is input.
-/
import Mathlib.Logic.Function.Basic
import RedisAgent.Router.Hash

namespace RedisAgent

/-! ## §1. The records. -/

/-- The bytes before the terminating zero. -/
abbrev CString := List UInt8

/-- `meta_user_info_t` -/
structure MetaUserInfo where
  uname : CString
  tk : CString
  power : Int
  deriving Repr, DecidableEq

/-- `hash_map_auth` -/
abbrev HashMapAuth := CString → Option Nat

/-- `AUTH_READ_ONLY` -/
def authReadOnly : Int := 2

/-- What `req_process` knows of a request when it authenticates it. -/
structure AuthRequest where
  backendReqInit : Int
  backendParse : Int
  uname : Option CString
  tk : Option CString
  reqip : CString
  isWrite : Bool
  deriving Repr, DecidableEq

/-- How far `req_process` gets. -/
inductive ReqExit
  /-- "backend_req_init error" -/
  | backendReqInitError
  /-- "backend_parse error" -/
  | backendParseError
  /-- "Unauthorized access!" -/
  | unauthorized
  /-- `router_acquire_shards` is called -/
  | acquire
  deriving Repr, DecidableEq

/-! ## §2. The code. -/

/-- `hashmap::set(k, v)` without overwrite. -/
def hashmapSet (auth : HashMapAuth) (k : CString) (v : Nat) : HashMapAuth :=
  if auth k = none then Function.update auth k (some v) else auth

/-- `_meta_auth_load` of a table of users. -/
def metaAuthLoad (users : List MetaUserInfo) : HashMapAuth :=
  users.zipIdx.foldl (fun auth user => hashmapSet auth user.1.uname user.2) (fun _ => none)

/-- `meta_auth_check`; `none` when the index names a user the table does not
have. -/
def metaAuthCheck (auth : HashMapAuth) (users : List MetaUserInfo) (uname tk ip : Option CString) :
    Option Int :=
  match uname, tk, ip with
  | some uname, some tk, some _ =>
      match auth uname with
      | none => some (-1)
      | some id =>
          (users[id]?).map (fun user => if strhash tk ≠ strhash user.tk then -2 else user.power)
  | _, _, _ => some (-1)

/-- `req_process`, up to `router_acquire_shards`. -/
def reqProcess (auth : HashMapAuth) (users : List MetaUserInfo) (r : AuthRequest) :
    Option ReqExit :=
  if r.backendReqInit < 0 then some .backendReqInitError
  else if r.backendParse < 0 then some .backendParseError
  else
    (metaAuthCheck auth users r.uname r.tk (some r.reqip)).map (fun ret =>
      if ret ≤ 0 ∨ (ret = authReadOnly ∧ r.isWrite = true) then .unauthorized else .acquire)

/-! ## §3. The user index. -/

/-- Indexing some more users, numbered from `k` on, behind those indexed already. -/
theorem metaAuthLoad_foldl (users : List MetaUserInfo) (uname : CString) :
    ∀ (k : Nat) (auth : HashMapAuth),
      (users.zipIdx k).foldl (fun auth user => hashmapSet auth user.1.uname user.2) auth uname
        = (auth uname).or ((users.findIdx? (fun u => decide (u.uname = uname))).map (· + k)) := by
  induction users with
  | nil =>
      intro k auth
      simp
  | cons u users ih =>
      intro k auth
      rw [List.zipIdx_cons, List.foldl_cons, ih (k + 1), List.findIdx?_cons]
      have hshift : ((users.findIdx? (fun u => decide (u.uname = uname))).map (· + 1)).map (· + k)
          = (users.findIdx? (fun u => decide (u.uname = uname))).map (· + (k + 1)) := by
        rw [Option.map_map]
        congr 1
        funext i
        show i + 1 + k = i + (k + 1)
        omega
      by_cases hu : u.uname = uname
      · -- `u` is indexed unless somebody of its name was before
        subst hu
        unfold hashmapSet
        cases ha : auth u.uname with
        | none => simp
        | some id => simp [ha]
      · have hne : uname ≠ u.uname := fun h => hu h.symm
        have hset : hashmapSet auth u.uname k uname = auth uname := by
          unfold hashmapSet
          split
          · exact Function.update_of_ne hne _ _
          · rfl
        rw [hset]
        simp only [hu, decide_false, Bool.false_eq_true, if_false]
        rw [hshift]

/-- **The index**: a name leads to the first user that has it. -/
theorem metaAuthLoad_eq (users : List MetaUserInfo) (uname : CString) :
    metaAuthLoad users uname = users.findIdx? (fun u => decide (u.uname = uname)) := by
  have h := metaAuthLoad_foldl users uname 0 (fun _ => none)
  simp only [Option.none_or, Nat.add_zero, Option.map_id'] at h
  exact h

/-- The user an index built from the same table leads to. -/
theorem metaAuthLoad_getElem? (users : List MetaUserInfo) (uname : CString) :
    (metaAuthLoad users uname).bind (fun id => users[id]?)
      = users.find? (fun u => decide (u.uname = uname)) := by
  rw [metaAuthLoad_eq]
  induction users with
  | nil => rfl
  | cons u users ih =>
      rw [List.findIdx?_cons, List.find?_cons]
      by_cases hu : u.uname = uname
      · simp [hu]
      · simp only [hu, decide_false, Bool.false_eq_true, if_false]
        rw [← ih, Option.bind_map]
        rfl

/-- `meta_auth_check` of a name and token that are there. -/
theorem metaAuthCheck_eq (users : List MetaUserInfo) (uname tk ip : CString) :
    metaAuthCheck (metaAuthLoad users) users (some uname) (some tk) (some ip)
      = some (match users.find? (fun u => decide (u.uname = uname)) with
          | none => -1
          | some user => if strhash tk ≠ strhash user.tk then -2 else user.power) := by
  unfold metaAuthCheck
  have hget := metaAuthLoad_getElem? users uname
  simp only
  cases hid : metaAuthLoad users uname with
  | none =>
      rw [hid] at hget
      rw [← hget]
      rfl
  | some id =>
      rw [hid] at hget
      -- the index is that of a user of the table
      have hlt : ∃ user, users[id]? = some user := by
        rw [metaAuthLoad_eq] at hid
        obtain ⟨h, -⟩ := List.findIdx?_eq_some_iff_getElem.1 hid
        exact ⟨_, List.getElem?_eq_getElem h⟩
      obtain ⟨user, huser⟩ := hlt
      have hfind : users.find? (fun u => decide (u.uname = uname)) = some user := by
        rw [← hget]
        exact huser
      simp only [hfind, huser, Option.map_some]

/-! ## §4. Who gets through. -/

/-- **Who gets through.**  `req_process` reaches `router_acquire_shards` exactly for
a parsed request whose user name is configured and whose token has the hash of the
token of the first user of that name, if that user's power is positive and not
that of a read-only user on a write. -/
theorem req_process_acquires_iff (users : List MetaUserInfo) (r : AuthRequest) :
    reqProcess (metaAuthLoad users) users r = some .acquire
      ↔ 0 ≤ r.backendReqInit ∧ 0 ≤ r.backendParse ∧ ∃ uname tk user,
          r.uname = some uname ∧ r.tk = some tk
            ∧ users.find? (fun u => decide (u.uname = uname)) = some user
            ∧ strhash tk = strhash user.tk ∧ 0 < user.power
            ∧ ¬ (user.power = authReadOnly ∧ r.isWrite = true) := by
  unfold reqProcess
  by_cases hinit : r.backendReqInit < 0
  · rw [if_pos hinit]
    refine iff_of_false (by simp) ?_
    intro hx
    omega
  rw [if_neg hinit]
  by_cases hparse : r.backendParse < 0
  · rw [if_pos hparse]
    refine iff_of_false (by simp) ?_
    intro hx
    omega
  rw [if_neg hparse]
  rw [and_iff_right (Int.not_lt.1 hinit), and_iff_right (Int.not_lt.1 hparse)]
  cases hu : r.uname with
  | none =>
      refine iff_of_false (by simp [metaAuthCheck]) ?_
      rintro ⟨uname, tk, user, h, -⟩
      cases h
  | some uname =>
      cases ht : r.tk with
      | none =>
          refine iff_of_false (by simp [metaAuthCheck]) ?_
          rintro ⟨uname', tk, user, -, h, -⟩
          cases h
      | some tk =>
          rw [metaAuthCheck_eq, Option.map_some]
          cases hfind : users.find? (fun u => decide (u.uname = uname)) with
          | none =>
              refine iff_of_false (by simp) ?_
              rintro ⟨uname', tk', user, h1, -, h3, -⟩
              cases h1
              rw [hfind] at h3
              cases h3
          | some user =>
              simp only [Option.some.injEq]
              by_cases htk : strhash tk = strhash user.tk
              · have hret : (if strhash tk ≠ strhash user.tk then (-2 : Int) else user.power)
                    = user.power := if_neg (by simp [htk])
                simp only [hret]
                constructor
                · intro hacq
                  refine ⟨uname, tk, user, rfl, rfl, hfind, htk, ?_⟩
                  split at hacq
                  · cases hacq
                  · rename_i hno
                    exact ⟨Int.not_le.1 (fun h => hno (Or.inl h)), fun h => hno (Or.inr h)⟩
                · rintro ⟨uname', tk', user', rfl, rfl, h3, -, h5, h6⟩
                  rw [hfind] at h3
                  cases h3
                  refine if_neg ?_
                  rintro (h | h)
                  · omega
                  · exact h6 h
              · refine iff_of_false (by simp [htk]) ?_
                rintro ⟨uname', tk', user', rfl, rfl, h3, h4, -⟩
                rw [hfind] at h3
                cases h3
                exact htk h4

/-- `0123456789abcdef` -/
def hexToken : CString :=
  [48, 49, 50, 51, 52, 53, 54, 55, 56, 57, 97, 98, 99, 100, 101, 102]

/-- `cdph5l910XfjWSRC`, which has the same hash. -/
def otherToken : CString :=
  [99, 100, 112, 104, 53, 108, 57, 49, 48, 88, 102, 106, 87, 83, 82, 67]

/-- A token that is not the user's gets through, and so does a write of a user
whose power is neither 1 nor 2. -/
theorem req_process_not_exact :
    (¬ ∀ (users : List MetaUserInfo) (r : AuthRequest),
      reqProcess (metaAuthLoad users) users r = some .acquire →
        ∃ user ∈ users, r.uname = some user.uname ∧ r.tk = some user.tk)
    ∧ ¬ ∀ (users : List MetaUserInfo) (r : AuthRequest),
      reqProcess (metaAuthLoad users) users r = some .acquire →
        ∃ user ∈ users, r.uname = some user.uname
          ∧ (user.power = 1 ∨ (user.power = 2 ∧ r.isWrite = false)) := by
  constructor
  · intro hall
    obtain ⟨user, hm, -, htk⟩ := hall [⟨[117], hexToken, 1⟩]
      ⟨0, 0, some [117], some otherToken, [], true⟩ (by decide)
    rw [List.mem_singleton.1 hm] at htk
    revert htk
    decide
  · intro hall
    obtain ⟨user, hm, -, hpower⟩ := hall [⟨[117], hexToken, 3⟩]
      ⟨0, 0, some [117], some hexToken, [], true⟩ (by decide)
    rw [List.mem_singleton.1 hm] at hpower
    revert hpower
    decide

end RedisAgent
