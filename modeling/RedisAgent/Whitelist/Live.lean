/-
  RedisAgent.Whitelist.Live — is the whitelist that is consulted still allocated?

  ip_whitelist.cpp and the three functions of server.cpp that concern it.  Each of
  the two files has a `static` pointer named `whitelist`: that of ip_whitelist.cpp
  is set by `load_whitelist` and consulted by `in_whitelist_u`; that of server.cpp
  is set by `assign_whitelist`, which frees what it held.  Between them are the
  checking thread and the list of triggered events, which event.cpp consumes in
  the order they were produced.

  Objects are named in the order they are allocated, so no name comes back; what is
  released is no longer in the heap, and reading it gives nothing.  The two threads interleave between any two accesses to shared data: `check` ends
  with the assignment in `load_whitelist`, `trigger` is `event_trigger`, `deliver`
  one event handled.

  The ledger of the proof: every object loaded so far is in exactly one place —
  released, held by server.cpp, on its way there, or lost with an event that could
  not be produced — and what is consulted can only be the last of them.
-/
import Mathlib.Data.List.Nodup
import Mathlib.Logic.Function.Basic
import RedisAgent.Lib.Runs

namespace RedisAgent

/-! ## §1. The records. -/

/-- `whitelist_t` -/
structure Whitelist where
  set : List UInt32
  mtime : Int
  deriving Repr, DecidableEq

/-- What `load_whitelist` finds in the file system: the modification time
(`-1` if there is no file), whether `fopen` and `assign` succeed, and the addresses
that the lines spell. -/
structure WhitelistFile where
  mtime : Int
  opens : Bool
  assigns : Bool
  ipSet : List UInt32
  deriving Repr, DecidableEq

/-- Where `server_init` stands. -/
inductive InitState
  | starting
  /-- `load_whitelist` has returned, `assign_whitelist` is next -/
  | loaded (w : Option Nat)
  | running
  deriving Repr, DecidableEq

/-- Where `whitelist_loop` stands. -/
inductive LoopState
  | checking
  /-- `load_whitelist` has returned, `event_trigger` is next -/
  | loaded (w : Option Nat)
  deriving Repr, DecidableEq

/-- The two pointers, the event list, and both threads.  `consulted` is `whitelist`
of ip_whitelist.cpp, `held` is `whitelist` of server.cpp; `released` lists what
`free_whitelist` was called on. -/
structure WlState where
  heap : Nat → Option Whitelist
  fresh : Nat
  consulted : Option Nat
  held : Option Nat
  events : List (Option Nat)
  main : InitState
  loop : LoopState
  released : List Nat

/-! ## §2. The code. -/

/-- `load_whitelist` -/
def loadWhitelist (s : WlState) (f : WhitelistFile) : Option Nat × WlState :=
  if f.mtime < 0 ∨ f.opens = false ∨ f.assigns = false then (none, s)
  else
    (some s.fresh, { s with
      heap := Function.update s.heap s.fresh (some ⟨f.ipSet, f.mtime⟩)
      fresh := s.fresh + 1
      consulted := some s.fresh })

/-- `is_whitelist_changed`, with the modification time it finds; nothing if it reads a
whitelist that was released. -/
def isWhitelistChanged (s : WlState) (mtime : Int) : Option Bool :=
  match s.consulted with
  | none => some false
  | some w => (s.heap w).map (fun wl => decide (mtime > wl.mtime))

/-- `free_whitelist` -/
def freeWhitelist (s : WlState) (w : Option Nat) : WlState :=
  { s with
    heap := fun x => if w = some x then none else s.heap x
    released := s.released ++ w.toList }

/-- `in_whitelist_u`; nothing if it reads a whitelist that was released. -/
def inWhitelistU (s : WlState) (ip : UInt32) : Option Bool :=
  match s.consulted with
  | none => some true
  | some w => (s.heap w).map (fun wl => decide (ip ∈ wl.set))

/-- `assign_whitelist`, which is also all that `whitelist_changed_event` does. -/
def assignWhitelist (s : WlState) (w : Option Nat) : WlState :=
  freeWhitelist { s with held := w } s.held

inductive WlOp
  /-- `load_whitelist()` in `server_init` -/
  | initLoad (f : WhitelistFile)
  /-- `assign_whitelist` of its result -/
  | initAssign
  /-- a pass of `whitelist_loop`: the check sees one modification time, the load
  that follows it a file that may have changed again -/
  | check (mtime : Int) (f : WhitelistFile)
  /-- `event_trigger`, which fails when `malloc` does -/
  | trigger (produced : Bool)
  /-- `custom_event_cb` consumes an event -/
  | deliver
  deriving Repr, DecidableEq

/-- The state after one step. -/
def WlState.exec (s : WlState) : WlOp → WlState
  | .initLoad f =>
      let (w, s) := loadWhitelist s f
      { s with main := .loaded w }
  | .initAssign =>
      match s.main with
      | .loaded w => { assignWhitelist s w with main := .running }
      | _ => s
  | .check mtime f =>
      if isWhitelistChanged s mtime = some true then
        let (w, s) := loadWhitelist s f
        { s with loop := .loaded w }
      else s
  | .trigger produced =>
      match s.loop with
      | .loaded w => { s with events := if produced then s.events ++ [w] else s.events, loop := .checking }
      | .checking => s
  | .deliver =>
      match s.events with
      | w :: events => assignWhitelist { s with events := events } w
      | [] => s

/-- Whose turn it can be.  Events are consumed once `server_init` is over; the checking
thread does not get past a whitelist that was released. -/
def WlState.Enabled (s : WlState) : WlOp → Prop
  | .initLoad _ => s.main = .starting
  | .initAssign => ∃ w, s.main = .loaded w
  | .check mtime _ => s.loop = .checking ∧ isWhitelistChanged s mtime ≠ none
  | .trigger _ => ∃ w, s.loop = .loaded w
  | .deliver => s.main = .running ∧ s.events ≠ []

/-- The process as it starts: `whitelist_init` has started the thread. -/
def WlState.start : WlState where
  heap := fun _ => none
  fresh := 0
  consulted := none
  held := none
  events := []
  main := .starting
  loop := .checking
  released := []

/-- Every run of the two threads. -/
def wlLts : Lts WlState WlOp where
  init s := s = WlState.start
  step s op s' := s.Enabled op ∧ s' = s.exec op

/-! ## §3. The ledger. -/

/-- The object a thread has loaded and not handed on. -/
def InitState.pending : InitState → Option Nat
  | .loaded w => w
  | .starting | .running => none

def LoopState.pending : LoopState → Option Nat
  | .loaded w => w
  | .checking => none

/-- The objects that are not released and will still pass through server.cpp, in
the order they were loaded. -/
def WlState.chain (s : WlState) : List Nat :=
  s.held.toList ++ s.main.pending.toList ++ s.events.filterMap id ++ s.loop.pending.toList

/-- The ledger. -/
structure WlInv (s : WlState) : Prop where
  /-- the objects that are no longer in the heap are those released -/
  gone : ∀ w < s.fresh, (s.heap w = none ↔ w ∈ s.released)
  /-- no object is in two places -/
  once : (s.released ++ s.chain).Nodup
  bound : ∀ w ∈ s.released ++ s.chain, w < s.fresh
  /-- before `assign_whitelist` in `server_init`, server.cpp holds nothing -/
  early : s.main ≠ .running → s.held = none
  quiet : s.main = .starting → s.consulted = none ∧ s.events = [] ∧ s.loop = .checking
  known : ∀ w, s.consulted = some w → w < s.fresh

/-- The consulted object is allocated, and nothing loaded before it is consulted
again: in the chain it can only come last. -/
structure WlState.Live (s : WlState) : Prop where
  notReleased : ∀ w, s.consulted = some w → w ∉ s.released
  last : ∀ w, s.consulted = some w → w ∉ s.chain.dropLast

/-- The consulted object was released. -/
def WlState.Dangling (s : WlState) : Prop := ∃ w, s.consulted = some w ∧ w ∈ s.released

/-- An event that `load_whitelist` failed for reaches server.cpp while it holds the
object that is consulted. -/
def WlState.FreesConsulted (s : WlState) : WlOp → Prop
  | .deliver => s.events.head? = some none ∧ s.held ≠ none ∧ s.held = s.consulted
  | _ => False

/-- **A read of what was released.** -/
theorem WlInv.dangling_iff {s : WlState} (h : WlInv s) (mtime : Int) (ip : UInt32) :
    (isWhitelistChanged s mtime = none ↔ s.Dangling) ∧ (inWhitelistU s ip = none ↔ s.Dangling) := by
  unfold isWhitelistChanged inWhitelistU WlState.Dangling
  cases hcon : s.consulted with
  | none => simp
  | some w => simp [h.gone w (h.known w hcon)]

/-- What one step does to the ledger. -/
inductive LedgerStep (s : WlState) (op : WlOp) (s' : WlState) : Prop
  /-- nothing moves, or only along the chain -/
  | same : s'.heap = s.heap → s'.released = s.released → s'.chain = s.chain →
      s'.fresh = s.fresh → s'.consulted = s.consulted → op ≠ .deliver → LedgerStep s op s'
  /-- a file was loaded -/
  | loaded (wl : Whitelist) : s'.heap = Function.update s.heap s.fresh (some wl) →
      s'.released = s.released → s'.chain = s.chain ++ [s.fresh] → s'.fresh = s.fresh + 1 →
      s'.consulted = some s.fresh → op ≠ .deliver → LedgerStep s op s'
  /-- the last object was lost with its event -/
  | lost : s'.heap = s.heap → s'.released = s.released → s'.chain = s.chain.dropLast →
      s'.fresh = s.fresh → s'.consulted = s.consulted → op ≠ .deliver → LedgerStep s op s'
  /-- server.cpp released what it held, the first of the chain -/
  | delivered (x : Option Nat) (rest : List Nat) : s.events.head? = some x →
      s'.heap = (fun y => if s.held = some y then none else s.heap y) → s'.released = s.released ++ s.held.toList → s.chain = s.held.toList ++ (x.toList ++ rest) →
      s'.chain = x.toList ++ rest → s'.fresh = s.fresh → s'.consulted = s.consulted →
      op = .deliver → LedgerStep s op s'

/-- `load_whitelist` fails, or installs a new object. -/
theorem loadWhitelist_cases (s : WlState) (f : WhitelistFile) :
    loadWhitelist s f = (none, s)
      ∨ ∃ wl, loadWhitelist s f = (some s.fresh, { s with
          heap := Function.update s.heap s.fresh (some wl)
          fresh := s.fresh + 1
          consulted := some s.fresh }) := by
  unfold loadWhitelist
  split
  · exact Or.inl rfl
  · exact Or.inr ⟨_, rfl⟩

/-- **One step of the ledger.** -/
theorem WlInv.exec {s : WlState} (h : WlInv s) {op : WlOp} (hen : s.Enabled op) :
    LedgerStep s op (s.exec op) := by
  cases op with
  | initLoad f =>
      have hmain : s.main = .starting := hen
      obtain ⟨-, hev, hloop⟩ := h.quiet hmain
      have hheld := h.early (by simp [hmain])
      rcases loadWhitelist_cases s f with hl | ⟨wl, hl⟩
      · have he : s.exec (.initLoad f) = { s with main := .loaded none } := by
          simp only [WlState.exec, hl]
        rw [he]
        refine .same rfl rfl ?_ rfl rfl (by simp)
        simp [WlState.chain, hmain, InitState.pending]
      · have he : s.exec (.initLoad f) = { s with
            heap := Function.update s.heap s.fresh (some wl), fresh := s.fresh + 1, consulted := some s.fresh,
            main := .loaded (some s.fresh) } := by
          simp only [WlState.exec, hl]
        rw [he]
        refine .loaded wl rfl rfl ?_ rfl rfl (by simp)
        simp [WlState.chain, hmain, hev, hloop, hheld, InitState.pending, LoopState.pending]
  | initAssign =>
      obtain ⟨w, hmain⟩ := hen
      have hheld := h.early (by simp [hmain])
      have he : s.exec .initAssign = { s with held := w, main := .running } := by
        simp only [WlState.exec, hmain, assignWhitelist, freeWhitelist, hheld, Option.toList_none,
          List.append_nil, reduceCtorEq, if_false]
      rw [he]
      refine .same rfl rfl ?_ rfl rfl (by simp)
      simp [WlState.chain, hmain, hheld, InitState.pending]
  | check mtime f =>
      have hloop : s.loop = .checking := hen.1
      by_cases hch : isWhitelistChanged s mtime = some true
      · rcases loadWhitelist_cases s f with hl | ⟨wl, hl⟩
        · have he : s.exec (.check mtime f) = { s with loop := .loaded none } := by
            simp only [WlState.exec, if_pos hch, hl]
          rw [he]
          refine .same rfl rfl ?_ rfl rfl (by simp)
          simp [WlState.chain, hloop, LoopState.pending]
        · have he : s.exec (.check mtime f) = { s with
              heap := Function.update s.heap s.fresh (some wl), fresh := s.fresh + 1, consulted := some s.fresh,
              loop := .loaded (some s.fresh) } := by
            simp only [WlState.exec, if_pos hch, hl]
          rw [he]
          refine .loaded wl rfl rfl ?_ rfl rfl (by simp)
          simp [WlState.chain, hloop, LoopState.pending]
      · have he : s.exec (.check mtime f) = s := by
          simp only [WlState.exec, if_neg hch]
        rw [he]
        exact .same rfl rfl rfl rfl rfl (by simp)
  | trigger produced =>
      obtain ⟨w, hloop⟩ := hen
      cases produced with
      | true =>
          have he : s.exec (.trigger true)
              = { s with events := s.events ++ [w], loop := .checking } := by
            simp only [WlState.exec, hloop, if_true]
          rw [he]
          refine .same rfl rfl ?_ rfl rfl (by simp)
          cases w <;> simp [WlState.chain, hloop, LoopState.pending]
      | false =>
          have he : s.exec (.trigger false) = { s with loop := .checking } := by
            simp only [WlState.exec, hloop, Bool.false_eq_true, if_false]
          rw [he]
          cases w with
          | none =>
              refine .same rfl rfl ?_ rfl rfl (by simp)
              simp [WlState.chain, hloop, LoopState.pending]
          | some w =>
              refine .lost rfl rfl ?_ rfl rfl (by simp)
              simp [WlState.chain, hloop, LoopState.pending]
  | deliver =>
      obtain ⟨hmain, hne⟩ := hen
      obtain ⟨x, events, hev⟩ := List.exists_cons_of_ne_nil hne
      have he : s.exec .deliver = { s with
          heap := fun x => if s.held = some x then none else s.heap x
          events := events
          held := x
          released := s.released ++ s.held.toList } := by
        simp only [WlState.exec, hev, assignWhitelist, freeWhitelist]
      have hcons : (x :: events).filterMap id = x.toList ++ events.filterMap id := by
        cases x <;> simp
      rw [he]
      refine .delivered x (events.filterMap id ++ s.loop.pending.toList) ?_ rfl rfl ?_ ?_ rfl rfl rfl
      · rw [hev]
        rfl
      · simp only [WlState.chain, hmain, InitState.pending, hev, hcons, Option.toList_none,
          List.append_nil, List.append_assoc]
      · simp only [WlState.chain, hmain, InitState.pending, Option.toList_none, List.append_nil,
          List.append_assoc]

/-- The flags of `server_init` after a step. -/
theorem WlInv.exec_main {s : WlState} (h : WlInv s) {op : WlOp} (hen : s.Enabled op) :
    ((s.exec op).main ≠ .running → (s.exec op).held = none)
      ∧ ((s.exec op).main = .starting → (s.exec op).consulted = none ∧ (s.exec op).events = []
        ∧ (s.exec op).loop = .checking) := by
  cases op with
  | initLoad f =>
      have hheld := h.early (by
        have hmain : s.main = .starting := hen
        simp [hmain])
      rcases loadWhitelist_cases s f with hl | ⟨wl, hl⟩ <;>
        simp [WlState.exec, hl, hheld]
  | initAssign =>
      obtain ⟨w, hmain⟩ := hen
      simp [WlState.exec, hmain]
  | check mtime f =>
      simp only [WlState.exec]
      by_cases hch : isWhitelistChanged s mtime = some true
      · -- something is consulted, so `server_init` has loaded
        have hstart : s.main ≠ .starting := by
          intro hmain
          unfold isWhitelistChanged at hch
          rw [(h.quiet hmain).1] at hch
          cases hch
        rw [if_pos hch]
        rcases loadWhitelist_cases s f with hl | ⟨wl, hl⟩
        · simp only [hl]
          exact ⟨h.early, fun hm => absurd hm hstart⟩
        · simp only [hl]
          exact ⟨h.early, fun hm => absurd hm hstart⟩
      · rw [if_neg hch]
        exact ⟨h.early, h.quiet⟩
  | trigger produced =>
      obtain ⟨w, hloop⟩ := hen
      simp only [WlState.exec, hloop]
      refine ⟨h.early, ?_⟩
      intro hmain
      have hq := (h.quiet hmain).2.2
      rw [hloop] at hq
      cases hq
  | deliver =>
      obtain ⟨hmain, hne⟩ := hen
      obtain ⟨x, events, hev⟩ := List.exists_cons_of_ne_nil hne
      simp [WlState.exec, hev, assignWhitelist, freeWhitelist, hmain]

/-- **Step**: the ledger balances, whatever is freed. -/
theorem WlInv.step {s : WlState} (h : WlInv s) {op : WlOp} (hen : s.Enabled op) :
    WlInv (s.exec op) := by
  obtain ⟨hearly, hquiet⟩ := h.exec_main hen
  have hl := h.exec hen
  generalize hs' : s.exec op = s' at hl hearly hquiet ⊢
  cases hl with
  | same hh hr hc hf hcon _ =>
      refine ⟨?_, ?_, ?_, hearly, hquiet, ?_⟩
      · rw [hh, hr, hf]
        exact h.gone
      · rw [hr, hc]
        exact h.once
      · rw [hr, hc, hf]
        exact h.bound
      · rw [hcon, hf]
        exact h.known
  | loaded wl hh hr hc hf hcon _ =>
      have hfresh : s.fresh ∉ s.released ++ s.chain := by
        intro hm
        exact absurd (h.bound _ hm) (Nat.lt_irrefl _)
      refine ⟨?_, ?_, ?_, hearly, hquiet, ?_⟩
      · rw [hh, hr, hf]
        intro w hw
        by_cases hnew : w = s.fresh
        · subst hnew
          rw [Function.update_self]
          exact iff_of_false (Option.some_ne_none _)
            (fun hm => hfresh (List.mem_append_left _ hm))
        · rw [Function.update_of_ne hnew]
          exact h.gone w (by omega)
      · rw [hr, hc, ← List.append_assoc]
        refine List.nodup_append.2 ⟨h.once, by simp, ?_⟩
        intro a ha b hb hab
        rw [List.mem_singleton.1 hb] at hab
        exact hfresh (hab ▸ ha)
      · intro w hw
        rw [hr, hc, ← List.append_assoc] at hw
        rw [hf]
        rcases List.mem_append.1 hw with hw | hw
        · exact Nat.lt_succ_of_lt (h.bound w hw)
        · rw [List.mem_singleton.1 hw]
          exact Nat.lt_succ_self _
      · intro w hw
        rw [hcon] at hw
        cases hw
        rw [hf]
        exact Nat.lt_succ_self _
  | lost hh hr hc hf hcon _ =>
      have hsub : (s.released ++ s.chain.dropLast).Sublist (s.released ++ s.chain) :=
        (List.Sublist.refl _).append (List.dropLast_sublist _)
      refine ⟨?_, ?_, ?_, hearly, hquiet, ?_⟩
      · rw [hh, hr, hf]
        exact h.gone
      · rw [hr, hc]
        exact h.once.sublist hsub
      · intro w hw
        rw [hr, hc] at hw
        rw [hf]
        exact h.bound w (hsub.subset hw)
      · rw [hcon, hf]
        exact h.known
  | delivered x rest _ hh hr hch hc hf hcon _ =>
      have heq : s'.released ++ s'.chain = s.released ++ s.chain := by
        rw [hr, hc, hch, List.append_assoc]
      refine ⟨?_, ?_, ?_, hearly, hquiet, ?_⟩
      · rw [hh, hr, hf]
        intro w hw
        rw [List.mem_append, Option.mem_toList, ← h.gone w hw]
        show (if s.held = some w then none else s.heap w) = none ↔ _
        by_cases hheld : s.held = some w
        · rw [if_pos hheld]
          exact iff_of_true rfl (Or.inr hheld)
        · rw [if_neg hheld]
          exact (or_iff_left hheld).symm
      · rw [heq]
        exact h.once
      · rw [heq, hf]
        exact h.bound
      · rw [hcon, hf]
        exact h.known

/-- **One step**: the consulted object stays allocated unless the step frees it. -/
theorem WlState.Live.step {s : WlState} (hlive : s.Live) (h : WlInv s) {op : WlOp}
    (hen : s.Enabled op) :
    (¬ s.FreesConsulted op → (s.exec op).Live)
      ∧ (s.FreesConsulted op → ∃ w, (s.exec op).consulted = some w ∧ w ∈ (s.exec op).released) := by
  have hl := h.exec hen
  generalize hs' : s.exec op = s' at hl ⊢
  have hno : op ≠ .deliver → ¬ s.FreesConsulted op := by
    intro hop hb
    cases op with
    | deliver => exact hop rfl
    | _ => exact hb
  cases hl with
  | same _ hr hc hf hcon hop =>
      refine ⟨fun _ => ⟨?_, ?_⟩, fun hb => absurd hb (hno hop)⟩
      · rw [hr, hcon]
        exact hlive.notReleased
      · rw [hc, hcon]
        exact hlive.last
  | loaded _ _ hr hc hf hcon hop =>
      have hfresh : s.fresh ∉ s.released ++ s.chain := by
        intro hm
        exact absurd (h.bound _ hm) (Nat.lt_irrefl _)
      refine ⟨fun _ => ⟨?_, ?_⟩, fun hb => absurd hb (hno hop)⟩
      · intro w hw hm
        rw [hcon] at hw
        cases hw
        rw [hr] at hm
        exact hfresh (List.mem_append_left _ hm)
      · intro w hw hm
        rw [hcon] at hw
        cases hw
        rw [hc, List.dropLast_concat] at hm
        exact hfresh (List.mem_append_right _ hm)
  | lost _ hr hc hf hcon hop =>
      refine ⟨fun _ => ⟨?_, ?_⟩, fun hb => absurd hb (hno hop)⟩
      · rw [hr, hcon]
        exact hlive.notReleased
      · intro w hw hm
        rw [hcon] at hw
        rw [hc] at hm
        exact hlive.last w hw (List.dropLast_subset _ hm)
  | delivered x rest hhead _ hr hch hc hf hcon hop =>
      have hbad : s.FreesConsulted op ↔ x = none ∧ s.held ≠ none ∧ s.held = s.consulted := by
        subst hop
        simp only [WlState.FreesConsulted, hhead, Option.some.injEq]
      rw [hbad]
      constructor
      · intro hok
        -- what is held and consulted can only be replaced by something newer
        have hheld : ∀ w, s.consulted = some w → s.held ≠ some w := by
          intro w hw hw'
          cases x with
          | none => exact hok ⟨rfl, by simp [hw'], hw'.trans hw.symm⟩
          | some y =>
              apply hlive.last w hw
              rw [hch, hw']
              simp
        refine ⟨?_, ?_⟩
        · intro w hw hm
          rw [hcon] at hw
          rw [hr] at hm
          rcases List.mem_append.1 hm with hm | hm
          · exact hlive.notReleased w hw hm
          · exact hheld w hw (Option.mem_toList.1 hm)
        · intro w hw hm
          rw [hcon] at hw
          rw [hc] at hm
          apply hlive.last w hw
          rw [hch]
          cases hne : x.toList ++ rest with
          | nil =>
              rw [hne] at hm
              cases hm
          | cons a l =>
              rw [hne] at hm
              rw [List.dropLast_append_of_ne_nil (List.cons_ne_nil a l)]
              exact List.mem_append_right _ hm
      · rintro ⟨-, hsome, heq⟩
        obtain ⟨w, hw⟩ := Option.ne_none_iff_exists'.1 hsome
        refine ⟨w, ?_, ?_⟩
        · rw [hcon, ← heq, hw]
        · rw [hr, hw]
          simp

/-! ## §4. Runs. -/

/-- **The ledger of a run.** -/
theorem WlInv.of_run {tr : List (WlState × WlOp)} {s : WlState} (h : wlLts.Run tr s) : WlInv s := by
  refine h.history (P := fun _ s => WlInv s) ?_ ?_
  · intro s hs
    rw [hs]
    refine ⟨(fun w hw => absurd hw (Nat.not_lt_zero w)), List.nodup_nil, (fun _ hw => by cases hw), (fun _ => rfl), (fun _ => ⟨rfl, rfl, rfl⟩), ?_⟩
    intro w hw
    cases hw
  · intro tr s op s' _ ih hstep
    obtain ⟨hen, rfl⟩ := hstep
    exact ih.step hen

/-- **The whitelist that is consulted is a live one**, in every state of a run, if and
only if no step of the run delivers the failure of a load while server.cpp holds
the consulted object; and no object is released twice in any run. -/
theorem whitelist_live_iff {tr : List (WlState × WlOp)} {s : WlState} (h : wlLts.Run tr s) :
    ((∀ q ∈ tr, ∀ w, (q.1.exec q.2).consulted = some w → w ∉ (q.1.exec q.2).released)
        ↔ ∀ q ∈ tr, ¬ q.1.FreesConsulted q.2)
      ∧ s.released.Nodup := by
  refine ⟨?_, (List.nodup_append.1 (WlInv.of_run h).once).1⟩
  have key : ((∀ q ∈ tr, ∀ w, (q.1.exec q.2).consulted = some w → w ∉ (q.1.exec q.2).released)
        ↔ ∀ q ∈ tr, ¬ q.1.FreesConsulted q.2)
      ∧ ((∀ q ∈ tr, ¬ q.1.FreesConsulted q.2) → s.Live) := by
    refine h.history (P := fun tr s =>
      ((∀ q ∈ tr, ∀ w, (q.1.exec q.2).consulted = some w → w ∉ (q.1.exec q.2).released)
          ↔ ∀ q ∈ tr, ¬ q.1.FreesConsulted q.2)
        ∧ ((∀ q ∈ tr, ¬ q.1.FreesConsulted q.2) → s.Live)) ?_ ?_
    · intro s hs
      rw [hs]
      refine ⟨iff_of_true (fun _ hq => by cases hq) (fun _ hq => by cases hq), fun _ => ⟨?_, ?_⟩⟩
      · intro w hw
        cases hw
      · intro w hw
        cases hw
    · intro tr s op s' hrun ih hstep
      obtain ⟨hen, rfl⟩ := hstep
      obtain ⟨hiff, hlive⟩ := ih
      have hinv := WlInv.of_run hrun
      simp only [List.forall_mem_append, List.forall_mem_singleton]
      refine ⟨?_, fun hno => ((hlive hno.1).step hinv hen).1 hno.2⟩
      constructor
      · intro hall
        have hno := hiff.1 hall.1
        refine ⟨hno, ?_⟩
        intro hbad
        obtain ⟨w, hw, hm⟩ := ((hlive hno).step hinv hen).2 hbad
        exact hall.2 w hw hm
      · intro hno
        exact ⟨hiff.2 hno.1, (((hlive hno.1).step hinv hen).1 hno.2).notReleased⟩
  exact key.1

/-- The file is there at first, then touched and unreadable. -/
def unreadableOps : List WlOp :=
  [.initLoad ⟨1, true, true, [7]⟩, .initAssign, .check 2 ⟨2, false, true, []⟩, .trigger true, .deliver]

theorem unreadableOps_run : wlLts.Run (Lts.traceAll WlState.exec WlState.start unreadableOps)
    (Lts.execAll WlState.exec WlState.start unreadableOps) := by
  have hen : Lts.AllEnabled WlState.exec WlState.Enabled WlState.start unreadableOps :=
    ⟨rfl, ⟨some 0, rfl⟩, ⟨rfl, by decide⟩, ⟨none, rfl⟩, ⟨rfl, by decide⟩, trivial⟩
  have hstep : ∀ (s : WlState) op, s.Enabled op → wlLts.step s op (s.exec op) := fun _ _ h => ⟨h, rfl⟩
  exact Lts.Run.execAll hstep unreadableOps (.init rfl) hen

/-- The first whitelist is released and consulted ever after. -/
theorem whitelist_consulted_released :
    ¬ ∀ (tr : List (WlState × WlOp)) (s : WlState), wlLts.Run tr s →
      ∀ q ∈ tr, ∀ w, (q.1.exec q.2).consulted = some w → w ∉ (q.1.exec q.2).released := by
  intro hall
  refine hall _ _ unreadableOps_run
    (Lts.execAll WlState.exec WlState.start (unreadableOps.take 4), .deliver) ?_ 0 rfl ?_
  · simp [unreadableOps, Lts.traceAll, Lts.execAll]
  · exact List.mem_singleton_self _

/-- The same run, read by the theorem. -/
theorem whitelist_live_iff_witness :
    ((∀ q ∈ Lts.traceAll WlState.exec WlState.start unreadableOps, ∀ w,
        (q.1.exec q.2).consulted = some w → w ∉ (q.1.exec q.2).released)
        ↔ ∀ q ∈ Lts.traceAll WlState.exec WlState.start unreadableOps, ¬ q.1.FreesConsulted q.2)
      ∧ (Lts.execAll WlState.exec WlState.start unreadableOps).released.Nodup :=
  whitelist_live_iff unreadableOps_run

end RedisAgent
