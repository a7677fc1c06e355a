/-
  RedisAgent.Req.Memory — the memory of the requests, and what they log.

  A request is the first block of a chain of mem.cpp; `req_ready` makes it, and hangs the
  list of its log fields on it with `e_set_data`.  Every block taken from a block of
  the request copies that pointer, so that `LD(x)` — `e_get_data` — finds the list from any of
  them, wherever `erealloc` has put it.  `req_cleanup` frees the list and then the chain.

  A step is one call.  Which fields were pushed for which request is recorded beside the
  memory: it is what the callers mean, and not in the code.  The allocator may refuse any
  block, that of a new request too; the `malloc` of `log_data_new` returns a chunk.

  Main result:
    • `request_log_data` — in every run, whatever blocks are taken, moved and given back: from
      every block of a request the log prints the fields pushed for that request, no list is
      freed too early, twice, or not at all, and the only call with a fault is a `req_ready`
      that gets no memory.
-/
import RedisAgent.Log.Lists
import RedisAgent.Mem.Pointers

namespace RedisAgent

variable {δ : Type}

/-! ## §1. The code. -/

/-- The blocks of the requests and the chunks of their logs; `pushed` is what was pushed for
each request. -/
structure ReqMemory (δ : Type) where
  arena : ArenaState
  log : LogHeap δ
  pushed : Nat → List (LogField δ)

/-- The calls. -/
inductive ReqMemOp (δ : Type)
  /-- `req_ready`; `calloc` returns `a` -/
  | ready (a : Option Nat)
  /-- a request takes, moves or gives back a block -/
  | alloc (op : MemOp)
  /-- `ADD_LOG_DATA(b, ..)` -/
  | push (b : Nat) (p : LogPush δ)
  /-- `req_cleanup(r)` -/
  | cleanup (r : Nat)

namespace ReqMemory

/-- `req_ready`, as far as memory goes. -/
def ready (s : ReqMemory δ) (a : Option Nat) : Option (ReqMemory δ) := do
  let (r, heap) ← ecallocNew s.arena.heap a
  -- `r->conn = c` comes before the test of `r`
  let r ← r
  let (ld, log) := logDataNew s.log
  let heap ← eSetData heap r ld
  return {
    arena := ⟨heap, s.arena.meaning (.ecallocNew a), s.arena.chains + 1⟩
    log := log
    pushed := Function.update s.pushed s.arena.chains [] }

/-- A call of mem.cpp. -/
def alloc (s : ReqMemory δ) (op : MemOp) : Option (ReqMemory δ) := do
  let (_, heap) ← s.arena.heap.call op
  return { s with arena := ⟨heap, s.arena.meaning op, s.arena.chains + op.starts⟩ }

/-- `log_data_push_*(LD(b), ..)` -/
def push (s : ReqMemory δ) (b : Nat) (p : LogPush δ) : Option (ReqMemory δ) := do
  let ld ← eGetData s.arena.heap b
  let log ← p.run s.log ld
  return { s with
    log := log
    pushed := fun c => if s.arena.chainOf b = some c then s.pushed c ++ [p.field] else s.pushed c }

/-- `req_cleanup`, once the timer is gone; 0 is the null pointer. -/
def cleanup (s : ReqMemory δ) (r : Nat) : Option (ReqMemory δ) := do
  let ld ← eGetData s.arena.heap r
  let log ← logDataFree s.log (if ld = 0 then none else some ld)
  let (_, heap) ← s.arena.heap.call (.efreeAll r)
  return { s with
    arena := ⟨heap, s.arena.meaning (.efreeAll r), s.arena.chains⟩
    log := log }

/-- One call; a fault has no result. -/
def exec (s : ReqMemory δ) : ReqMemOp δ → Option (ReqMemory δ)
  | .ready a => s.ready a
  | .alloc op => s.alloc op
  | .push b p => s.push b p
  | .cleanup r => s.cleanup r

/-- The calls are made on live blocks, the allocator returns what is not in use, and `efree` is
not called on the last block of a request: the request itself goes with `req_cleanup`. -/
def Enabled (s : ReqMemory δ) : ReqMemOp δ → Prop
  | .ready a => ∀ x ∈ a, x ∉ s.arena.heap.live
  | .alloc op => op.InRequest ∧ s.arena.Enabled op
      ∧ ∀ mem, op = .efree mem → ∃ b, b ≠ mem ∧ s.arena.chainOf b = s.arena.chainOf mem
  | .push b _ => s.arena.chainOf b ≠ none
  | .cleanup r => s.arena.chainOf r ≠ none

end ReqMemory

/-- Every run of calls, from an empty memory on; `malloc` never returns the null pointer. -/
def reqMemoryLts (δ : Type) : Lts (ReqMemory δ) (ReqMemOp δ) where
  init s := s.arena.heap.live = ∅ ∧ s.arena.chainOf = (fun _ => none)
    ∧ s.log.node = (fun _ => none) ∧ 0 < s.log.brk
  step s op s' := s.Enabled op ∧ s.exec op = some s'

/-! ## §2. The invariant, one lemma for each call. -/

namespace ReqMemory

/-- Every block of request `c` carries the address `ld c`, where the chunks `ps c` begin. -/
structure Inv (s : ReqMemory δ) (ld : Nat → Nat) (ps : Nat → List Nat) : Prop where
  arena : ∃ L, ArenaInv s.arena L
  data : ∀ b c, s.arena.chainOf b = some c → s.arena.heap.data b = ld c
  list : ∀ b c, s.arena.chainOf b = some c → s.log.ListAt (ld c) (ps c) (s.pushed c)
  apart : ∀ b c b' c', s.arena.chainOf b = some c → s.arena.chainOf b' = some c' → c ≠ c' →
    ∀ q ∈ ps c, q ∉ ps c'
  owned : ∀ q, (s.log.node q).isSome → ∃ b c, s.arena.chainOf b = some c ∧ q ∈ ps c
  notNull : ∀ b c, s.arena.chainOf b = some c → ld c ≠ 0
  bounded : s.log.Bounded
  brk : 0 < s.log.brk

variable {s : ReqMemory δ} {ld : Nat → Nat} {ps : Nat → List Nat}

/-- `LD(b)` -/
theorem Inv.eGetData (hi : s.Inv ld ps) {b c : Nat} (hb : s.arena.chainOf b = some c) :
    eGetData s.arena.heap b = some (ld c) := by
  obtain ⟨L, ha⟩ := hi.arena
  have hlive : b ∈ s.arena.heap.live := by
    rw [ha.live, hb]
    exact Option.some_ne_none c
  unfold RedisAgent.eGetData
  rw [if_pos hlive, hi.data b c hb]

/-- The state that `req_ready` leaves. -/
def afterReady (s : ReqMemory δ) (a : Nat) : ReqMemory δ where
  arena := {
    heap := { s.arena.heap.afterNew a zeroPre with
      data := Function.update s.arena.heap.data a s.log.brk }
    chainOf := Function.update s.arena.chainOf a (some s.arena.chains)
    chains := s.arena.chains + 1 }
  log := (logDataNew s.log).2
  pushed := Function.update s.pushed s.arena.chains []

/-- Without memory `req_ready` writes through the null pointer. -/
theorem ready_none (s : ReqMemory δ) : s.ready none = none := rfl

theorem ready_eq (s : ReqMemory δ) (a : Nat) : s.ready (some a) = some (s.afterReady a) := by
  have hnew : ecallocNew s.arena.heap (some a) = some (some a, s.arena.heap.afterNew a zeroPre) :=
    emallocNew_eq zeroPre
  have hset : eSetData (s.arena.heap.afterNew a zeroPre) a s.log.brk
      = some (s.afterReady a).arena.heap := by
    refine (MemHeap.setData_ok (Finset.mem_insert_self a _)).trans ?_
    show some { s.arena.heap.afterNew a zeroPre with
      data := Function.update (Function.update s.arena.heap.data a 0) a s.log.brk } = _
    rw [Function.update_idem]
    rfl
  unfold ReqMemory.ready
  simp only [hnew, logDataNew, hset, Option.bind_eq_bind, Option.bind_some]
  rfl

/-- **`req_ready`** hangs a list of its own on a request of its own. -/
theorem Inv.ready (hi : s.Inv ld ps) {a : Nat} (hen : s.Enabled (.ready (some a))) :
    (s.afterReady a).Inv (Function.update ld s.arena.chains s.log.brk)
      (Function.update ps s.arena.chains [s.log.brk]) := by
  obtain ⟨L, ha⟩ := hi.arena
  have hfree : a ∉ s.arena.heap.live := hen a rfl
  -- a block is one of before, or the new request
  have hblock : ∀ b c, (s.afterReady a).arena.chainOf b = some c →
      (b = a ∧ c = s.arena.chains) ∨ (b ≠ a ∧ c ≠ s.arena.chains ∧ s.arena.chainOf b = some c) := by
    intro b c hb
    have hb' : Function.update s.arena.chainOf a (some s.arena.chains) b = some c := hb
    by_cases hba : b = a
    · rw [hba, Function.update_self] at hb'
      exact Or.inl ⟨hba, (Option.some.inj hb').symm⟩
    · rw [Function.update_of_ne hba] at hb'
      exact Or.inr ⟨hba, Nat.ne_of_lt (ha.fresh b c hb'), hb'⟩
  -- the chunk `malloc` returns is on no list yet
  have hlt : ∀ b c, s.arena.chainOf b = some c → ∀ q ∈ ps c, q < s.log.brk :=
    fun b c hb q hq => (hi.list b c hb).lt hq
  constructor
  case arena =>
    obtain ⟨ret, h', hcall, L', ha'⟩ := ha.leads (show s.arena.Enabled (.ecallocNew (some a)) from
      ⟨(fun b hb => by cases hb), fun x hx => Or.inl (Option.some.inj hx ▸ hfree)⟩)
    rw [show s.arena.heap.call (.ecallocNew (some a)) = _ from emallocNew_eq zeroPre] at hcall
    cases hcall
    exact ⟨L', ha'.setData _⟩
  case data =>
    intro b c hb
    show Function.update s.arena.heap.data a s.log.brk b = _
    rcases hblock b c hb with ⟨rfl, rfl⟩ | ⟨hba, hc, hb'⟩
    · rw [Function.update_self, Function.update_self]
    · rw [Function.update_of_ne hba, Function.update_of_ne hc]
      exact hi.data b c hb'
  case list =>
    intro b c hb
    show (logDataNew s.log).2.ListAt _ _ (Function.update s.pushed s.arena.chains [] c)
    rcases hblock b c hb with ⟨rfl, rfl⟩ | ⟨hba, hc, hb'⟩
    · simp only [Function.update_self]
      exact LogHeap.ListAt.new s.log
    · simp only [Function.update_of_ne hc]
      refine (hi.list b c hb').congr (fun q hq => ?_) (Nat.le_succ _)
      exact LogHeap.logDataNew_node s.log (Nat.ne_of_lt (hlt b c hb' q hq))
  case apart =>
    intro b c b' c' hb hb' hne q hq hq'
    rcases hblock b c hb with ⟨-, hc⟩ | ⟨-, hc, hold⟩
    · rcases hblock b' c' hb' with ⟨-, hc'⟩ | ⟨-, hc', hold'⟩
      · exact hne (hc.trans hc'.symm)
      · rw [hc, Function.update_self, List.mem_singleton] at hq
        rw [Function.update_of_ne hc'] at hq'
        have := hlt b' c' hold' q hq'
        omega
    · rw [Function.update_of_ne hc] at hq
      rcases hblock b' c' hb' with ⟨-, hc'⟩ | ⟨-, hc', hold'⟩
      · rw [hc', Function.update_self, List.mem_singleton] at hq'
        have := hlt b c hold q hq
        omega
      · rw [Function.update_of_ne hc'] at hq'
        exact hi.apart b c b' c' hold hold' hne q hq hq'
  case owned =>
    intro q hq
    by_cases hqb : q = s.log.brk
    · refine ⟨a, s.arena.chains, Function.update_self _ _ _, ?_⟩
      rw [Function.update_self, hqb]
      exact List.mem_singleton_self _
    · obtain ⟨b, c, hb, hqc⟩ := hi.owned q (LogHeap.logDataNew_node s.log hqb ▸ hq)
      have hba : b ≠ a := by
        rintro rfl
        refine hfree ((ha.live b).2 ?_)
        rw [hb]
        exact Option.some_ne_none c
      refine ⟨b, c, (Function.update_of_ne hba _ _).trans hb, ?_⟩
      rw [Function.update_of_ne (Nat.ne_of_lt (ha.fresh b c hb))]
      exact hqc
  case notNull =>
    intro b c hb
    rcases hblock b c hb with ⟨rfl, rfl⟩ | ⟨hba, hc, hb'⟩
    · rw [Function.update_self]
      exact Nat.ne_of_gt hi.brk
    · rw [Function.update_of_ne hc]
      exact hi.notNull b c hb'
  case bounded => exact hi.bounded.logDataNew
  case brk => exact Nat.succ_pos _

/-- **A call of mem.cpp** leaves the lists alone, and every request its pointer. -/
theorem Inv.alloc (hi : s.Inv ld ps) {op : MemOp} (hen : s.Enabled (.alloc op)) :
    ∃ s', s.alloc op = some s' ∧ s'.Inv ld ps := by
  obtain ⟨hop, hmem, hlast⟩ := hen
  obtain ⟨L, ha⟩ := hi.arena
  obtain ⟨ret, h', hcall, hleads⟩ := ha.leads hmem
  refine ⟨{ s with arena := ⟨h', s.arena.meaning op, s.arena.chains + op.starts⟩ }, ?_, ?_⟩
  · unfold ReqMemory.alloc
    rw [hcall]
    rfl
  -- every block is of a request from before, and carries its pointer
  have hblock : ∀ x c, s.arena.meaning op x = some c →
      ∃ b, s.arena.chainOf b = some c ∧ h'.data x = s.arena.heap.data b :=
    fun x c hx => ha.carried hmem hop hcall hx
  constructor
  case arena => exact hleads
  case data =>
    intro x c hx
    obtain ⟨b, hb, hdata⟩ := hblock x c hx
    exact hdata.trans (hi.data b c hb)
  case list =>
    intro x c hx
    obtain ⟨b, hb, -⟩ := hblock x c hx
    exact hi.list b c hb
  case apart =>
    intro x c x' c' hx hx'
    obtain ⟨b, hb, -⟩ := hblock x c hx
    obtain ⟨b', hb', -⟩ := hblock x' c' hx'
    exact hi.apart b c b' c' hb hb'
  case owned =>
    intro q hq
    obtain ⟨b, c, hb, hqc⟩ := hi.owned q hq
    obtain ⟨x, hx⟩ := ha.outlives hmem hop hlast hb
    exact ⟨x, c, hx, hqc⟩
  case notNull =>
    intro x c hx
    obtain ⟨b, hb, -⟩ := hblock x c hx
    exact hi.notNull b c hb
  case bounded => exact hi.bounded
  case brk => exact hi.brk

/-- **`ADD_LOG_DATA`** pushes onto the list of the request, whichever of its blocks it is
given. -/
theorem Inv.push (hi : s.Inv ld ps) {b : Nat} {p : LogPush δ} (hen : s.Enabled (.push b p)) :
    ∃ s', s.push b p = some s' ∧ ∃ ps', s'.Inv ld ps' := by
  obtain ⟨c, hc⟩ := Option.ne_none_iff_exists'.1 hen
  obtain ⟨log, chunks, hpush, hlist, hkeeps, hfrom, hgrown, hother⟩ := (hi.list b c hc).push p.field
  obtain ⟨hbrk, halloc⟩ := LogHeap.pushField_allocates hpush
  refine ⟨{ s with
    log := log
    pushed := fun d => if s.arena.chainOf b = some d then s.pushed d ++ [p.field] else s.pushed d },
    ?_, Function.update ps c chunks, ?_⟩
  · unfold ReqMemory.push
    rw [hi.eGetData hc, Option.bind_eq_bind, Option.bind_some, p.run_eq, hpush]
    rfl
  -- what the chunks of another request have to do with those of this one
  have hapart : ∀ b' c', s.arena.chainOf b' = some c' → c' ≠ c → ∀ q ∈ ps c', q ∉ chunks := by
    intro b' c' hb' hne q hq hq'
    have hlt := (hi.list b' c' hb').lt hq
    rcases hfrom q hq' with hq' | hq'
    · exact hi.apart b' c' b c hb' hc hne q hq hq'
    · omega
  constructor
  case arena => exact hi.arena
  case data => exact hi.data
  case list =>
    intro b' c' hb'
    show log.ListAt (ld c') _ (if s.arena.chainOf b = some c' then _ else _)
    by_cases hcc : c' = c
    · rw [hcc, Function.update_self, if_pos hc]
      exact hlist
    · rw [Function.update_of_ne hcc, if_neg]
      · refine (hi.list b' c' hb').congr (fun q hq => ?_) hbrk
        refine hother q (fun hqc => ?_) ((hi.list b' c' hb').lt hq)
        exact hi.apart b' c' b c hb' hc hcc q hq hqc
      · intro hbc
        rw [hc] at hbc
        exact hcc (Option.some.inj hbc).symm
  case apart =>
    intro b₁ c₁ b₂ c₂ hb₁ hb₂ hne q hq hq'
    by_cases hc₁ : c₁ = c
    · have hc₂ : c₂ ≠ c := fun he => hne (hc₁.trans he.symm)
      rw [hc₁, Function.update_self] at hq
      rw [Function.update_of_ne hc₂] at hq'
      exact hapart b₂ c₂ hb₂ hc₂ q hq' hq
    · rw [Function.update_of_ne hc₁] at hq
      by_cases hc₂ : c₂ = c
      · rw [hc₂, Function.update_self] at hq'
        exact hapart b₁ c₁ hb₁ hc₁ q hq hq'
      · rw [Function.update_of_ne hc₂] at hq'
        exact hi.apart b₁ c₁ b₂ c₂ hb₁ hb₂ hne q hq hq'
  case owned =>
    intro q hq
    rcases halloc q hq with hq | ⟨rfl, hlt⟩
    · obtain ⟨b', c', hb', hqc⟩ := hi.owned q hq
      refine ⟨b', c', hb', ?_⟩
      by_cases hcc : c' = c
      · rw [hcc, Function.update_self]
        exact hkeeps q (hcc ▸ hqc)
      · rw [Function.update_of_ne hcc]
        exact hqc
    · refine ⟨b, c, hc, ?_⟩
      rw [Function.update_self]
      exact hgrown hlt
  case notNull => exact hi.notNull
  case bounded =>
    intro q hq
    rcases halloc q hq with hq | ⟨rfl, hlt⟩
    · exact Nat.lt_of_lt_of_le (hi.bounded q hq) hbrk
    · exact hlt
  case brk => exact Nat.lt_of_lt_of_le hi.brk hbrk

/-- **`req_cleanup`** frees the list of its request, and none of the others. -/
theorem Inv.cleanup (hi : s.Inv ld ps) {r : Nat} (hen : s.Enabled (.cleanup r)) :
    ∃ s', s.cleanup r = some s' ∧ s'.Inv ld ps := by
  obtain ⟨c, hc⟩ := Option.ne_none_iff_exists'.1 hen
  obtain ⟨L, ha⟩ := hi.arena
  obtain ⟨log, hfree, hbrk, hnode⟩ := (hi.list r c hc).free
  obtain ⟨ret, h', hcall, hleads⟩ := ha.leads
    (show s.arena.Enabled (.efreeAll r) from ⟨fun b hb => Option.some.inj hb ▸ hen, fun a hx => by cases hx⟩)
  have hdata : h'.data = s.arena.heap.data := efreeAll_data hcall
  refine ⟨{ s with
    arena := ⟨h', s.arena.meaning (.efreeAll r), s.arena.chains⟩
    log := log }, ?_, ?_⟩
  · unfold ReqMemory.cleanup
    rw [hi.eGetData hc, Option.bind_eq_bind, Option.bind_some, if_neg (hi.notNull r c hc), hfree,
      Option.bind_eq_bind, Option.bind_some, hcall]
    rfl
  -- the blocks that are left are those of the other requests
  have hblock : ∀ x d, s.arena.meaning (.efreeAll r) x = some d → s.arena.chainOf x = some d ∧ d ≠ c := by
    intro x d hx
    have hx' : (if s.arena.chainOf x = s.arena.chainOf r then none else s.arena.chainOf x) = some d := hx
    obtain ⟨hne, hx''⟩ := Option.ite_none_left_eq_some.1 hx'
    refine ⟨hx'', ?_⟩
    rintro rfl
    exact hne (hx''.trans hc.symm)
  constructor
  case arena => exact hleads
  case data =>
    intro x d hx
    show h'.data x = _
    rw [hdata]
    exact hi.data x d (hblock x d hx).1
  case list =>
    intro x d hx
    obtain ⟨hx, hne⟩ := hblock x d hx
    refine (hi.list x d hx).congr (fun q hq => ?_) (Nat.le_of_eq hbrk.symm)
    exact (hnode q).trans (if_neg (hi.apart x d r c hx hc hne q hq))
  case apart =>
    intro x d x' d' hx hx'
    exact hi.apart x d x' d' (hblock x d hx).1 (hblock x' d' hx').1
  case owned =>
    intro q hq
    have hq' : (if q ∈ ps c then none else s.log.node q).isSome := hnode q ▸ hq
    split at hq'
    · cases hq'
    · rename_i hqc
      obtain ⟨x, d, hx, hqd⟩ := hi.owned q hq'
      have hne : d ≠ c := fun he => hqc (he ▸ hqd)
      refine ⟨x, d, ?_, hqd⟩
      show (if s.arena.chainOf x = s.arena.chainOf r then none else s.arena.chainOf x) = some d
      rw [if_neg, hx]
      rw [hx, hc]
      exact fun he => hne (Option.some.inj he)
  case notNull => exact fun x d hx => hi.notNull x d (hblock x d hx).1
  case bounded =>
    intro q hq
    have hq' : (if q ∈ ps c then none else s.log.node q).isSome := hnode q ▸ hq
    show q < log.brk
    rw [hbrk]
    split at hq'
    · cases hq'
    · exact hi.bounded q hq'
  case brk => exact hbrk ▸ hi.brk

/-- **A step** with memory for its request has a result, and keeps the invariant. -/
theorem Inv.step (hi : s.Inv ld ps) {op : ReqMemOp δ} (hen : s.Enabled op) (hop : op ≠ .ready none) :
    ∃ s', s.exec op = some s' ∧ ∃ ld' ps', s'.Inv ld' ps' := by
  cases op with
  | ready a =>
      cases a with
      | none => exact absurd rfl hop
      | some a => exact ⟨_, s.ready_eq a, _, _, hi.ready hen⟩
  | alloc op =>
      obtain ⟨s', hs, hi'⟩ := hi.alloc hen
      exact ⟨s', hs, ld, ps, hi'⟩
  | push b p =>
      obtain ⟨s', hs, ps', hi'⟩ := hi.push hen
      exact ⟨s', hs, ld, ps', hi'⟩
  | cleanup r =>
      obtain ⟨s', hs, hi'⟩ := hi.cleanup hen
      exact ⟨s', hs, ld, ps, hi'⟩

/-- **Every reachable state**, by induction on the run. -/
theorem Inv.of_run {tr : List (ReqMemory δ × ReqMemOp δ)} {s : ReqMemory δ}
    (h : (reqMemoryLts δ).Run tr s) : ∃ ld ps, s.Inv ld ps := by
  induction h with
  | init hinit =>
      rename_i s₀
      obtain ⟨hlive, hchain, hnode, hbrk⟩ := hinit
      have hnone : ∀ b c, s₀.arena.chainOf b ≠ some c := by
        intro b c hb
        rw [hchain] at hb
        cases hb
      have hempty : ∀ q, ¬ (s₀.log.node q).isSome := by
        intro q hq
        rw [hnode] at hq
        cases hq
      refine ⟨fun _ => 0, fun _ => [], ?_⟩
      constructor
      case arena => exact ArenaInv.of_run (.init ⟨hlive, hchain⟩)
      case data => exact fun b c hb => absurd hb (hnone b c)
      case list => exact fun b c hb => absurd hb (hnone b c)
      case apart => exact fun b c b' c' hb => absurd hb (hnone b c)
      case owned => exact fun q hq => absurd hq (hempty q)
      case notNull => exact fun b c hb => absurd hb (hnone b c)
      case bounded => exact fun q hq => absurd hq (hempty q)
      case brk => exact hbrk
  | step _ hstep ih =>
      rename_i s₀ op s₁ _
      obtain ⟨ld, ps, hi⟩ := ih
      obtain ⟨hen, hexec⟩ := hstep
      -- a step of the run has a result, so its request got its memory
      have hop : op ≠ .ready none := by
        intro hnone
        rw [hnone] at hexec
        cases hexec
      obtain ⟨s', hs, hi'⟩ := hi.step hen hop
      rw [hexec] at hs
      cases hs
      exact hi'

/-! ## §3. What the requests log. -/

/-- **The log of the requests.** -/
structure RequestLog (s : ReqMemory δ) : Prop where
  /-- from every block of a request, `log_printf` prints what was pushed for the request: a
  text as it then stands at the address that was pushed -/
  prints : ∀ b c, s.arena.chainOf b = some c → ∃ ld, RedisAgent.eGetData s.arena.heap b = some ld
    ∧ ∀ env fileline levelstr message temp, ∃ out,
      logPrintf env s.log (some ld) fileline levelstr message temp = some out
        ∧ out.line = cutLine (logTempSize - 1)
          (printedText (logParts env fileline levelstr message (s.pushed c)))
  /-- two blocks lead to one list if and only if they are of one request -/
  own : ∀ b c b' c', s.arena.chainOf b = some c → s.arena.chainOf b' = some c' →
    (RedisAgent.eGetData s.arena.heap b = RedisAgent.eGetData s.arena.heap b' ↔ c = c')
  /-- every chunk is on a list that a block leads to -/
  owned : ∀ q, (s.log.node q).isSome → ∃ b c ld chunks, s.arena.chainOf b = some c
    ∧ RedisAgent.eGetData s.arena.heap b = some ld ∧ s.log.ListAt ld chunks (s.pushed c) ∧ q ∈ chunks
  /-- a call writes to, frees, or follows a pointer to what is not allocated if and only if it
  is a `req_ready` for whose request there is no memory -/
  answered : ∀ op, s.Enabled op → (s.exec op = none ↔ op = .ready none)

end ReqMemory

/-- **What a request logs**: in every state of every run of calls. -/
theorem request_log_data {tr : List (ReqMemory δ × ReqMemOp δ)} {s : ReqMemory δ}
    (h : (reqMemoryLts δ).Run tr s) : s.RequestLog := by
  obtain ⟨ld, ps, hi⟩ := ReqMemory.Inv.of_run h
  constructor
  case prints =>
    intro b c hb
    refine ⟨ld c, hi.eGetData hb, fun env fileline levelstr message temp => ?_⟩
    obtain ⟨front, last, -, hh⟩ := (hi.list b c hb).holds
    obtain ⟨out, hout, hline, -⟩ := logPrintf_holds env hh fileline levelstr message temp
    exact ⟨out, hout, hline⟩
  case own =>
    intro b c b' c' hb hb'
    rw [hi.eGetData hb, hi.eGetData hb']
    refine ⟨fun he => ?_, fun he => by rw [he]⟩
    -- the two lists would share their first chunk
    by_contra hne
    have hmem := (hi.list b c hb).mem
    refine hi.apart b c b' c' hb hb' hne (ld c) hmem ?_
    rw [Option.some.inj he]
    exact (hi.list b' c' hb').mem
  case owned =>
    intro q hq
    obtain ⟨b, c, hb, hqc⟩ := hi.owned q hq
    exact ⟨b, c, ld c, ps c, hb, hi.eGetData hb, hi.list b c hb, hqc⟩
  case answered =>
    intro op hen
    refine ⟨fun hnone => ?_, fun hop => ?_⟩
    · by_contra hop
      obtain ⟨s', hs, -⟩ := hi.step hen hop
      rw [hnone] at hs
      cases hs
    · rw [hop]
      exact s.ready_none

/-- No request yet. -/
def reqMemStart : ReqMemory Unit := ⟨arenaStart, ⟨fun _ => none, 1⟩, fun _ => []⟩

/-- A request at 10, and a block for it at 20. -/
def reqMemTwo : ReqMemory Unit :=
  { reqMemStart.afterReady 10 with
    arena := ⟨(reqMemStart.afterReady 10).arena.heap.afterEmalloc 10 20 zeroPre,
      (reqMemStart.afterReady 10).arena.meaning (.ecalloc 10 (some 20)), 1⟩ }

theorem request_log_data_witness : ∃ s, reqMemTwo.push 20 (.uint 105 7) = some s
    ∧ s.arena.chainOf 10 = some 0 ∧ s.pushed 0 = [⟨105, .uint 7⟩] ∧ s.RequestLog := by
  have hone : (reqMemoryLts Unit).step reqMemStart (.ready (some 10)) (reqMemStart.afterReady 10) :=
    ⟨fun x _ => Finset.notMem_empty x, reqMemStart.ready_eq 10⟩
  have htwo : (reqMemoryLts Unit).step (reqMemStart.afterReady 10) (.alloc (.ecalloc 10 (some 20)))
      reqMemTwo := by
    refine ⟨⟨trivial, ⟨?_, ?_⟩, fun mem hm => by cases hm⟩, ?_⟩
    · rintro b ⟨⟩
      decide
    · rintro a ⟨⟩
      exact Or.inl (by decide)
    · have hcall : (reqMemStart.afterReady 10).arena.heap.call (.ecalloc 10 (some 20))
          = some (some 20, reqMemTwo.arena.heap) :=
        emalloc_eq zeroPre rfl (by decide) (by decide) (by decide)
      show ReqMemory.alloc _ _ = _
      unfold ReqMemory.alloc
      rw [hcall]
      rfl
  have hthree : (reqMemoryLts Unit).step reqMemTwo (.push 20 (.uint 105 7))
      ((reqMemTwo.push 20 (.uint 105 7)).get rfl) :=
    ⟨(show reqMemTwo.arena.chainOf 20 ≠ none by decide), rfl⟩
  have hstart : (reqMemoryLts Unit).Run [] reqMemStart := .init ⟨rfl, rfl, rfl, by decide⟩
  exact ⟨_, rfl, rfl, rfl, request_log_data (((hstart.step hone).step htwo).step hthree)⟩

end RedisAgent
