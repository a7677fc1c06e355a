/-
  RedisAgent.Mem.Arena — request-scoped memory: mem.cpp.

  Every block has a header, `struct _mem_pre`, which links it with the other blocks of
  its request.  The pointer a caller holds is the address behind the header, and stands
  for the address of the header here.

  A store through a pointer that leads to no allocated block, a failing `ASSERT` and
  a `free` of what is not allocated have no result (`none`).  Where `malloc` and
  `realloc` put a block, what it holds, and whether they fail at all, is an input of
  the step.  The size of a block matters to them only; the callers pass `sizeof`s.
-/
import Mathlib.Data.Finset.Basic
import Mathlib.Data.Finset.Card
import RedisAgent.Lib.LinkEdits
import RedisAgent.Lib.Runs

namespace RedisAgent

open Links

/-! ## §1. The heap. -/

/-- `struct _mem_pre` -/
structure MemPre where
  prev : Option Nat
  next : Option Nat
  data : Nat
  sig : UInt32
  deriving Repr, DecidableEq

/-- What `calloc` leaves. -/
def zeroPre : MemPre := ⟨none, none, 0, 0⟩

/-- `_SIG` -/
def memSig : UInt32 := 0xba1da5b3

/-- The headers of all blocks, by field; `live` are the allocated ones. -/
structure MemHeap where
  live : Finset Nat
  links : Links Nat
  data : Nat → Nat
  sig : Nat → UInt32

namespace MemHeap

/-- `ASSERT(mem->sig == _SIG)` -/
def assertSig (h : MemHeap) (a : Nat) : Option Unit :=
  if a ∈ h.live ∧ h.sig a = memSig then some () else none

/-- `p->next = v`, skipped where the source skips a null `p`. -/
def setNext (h : MemHeap) (p v : Option Nat) : Option MemHeap :=
  if ∀ a ∈ p, a ∈ h.live then some { h with links := h.links.setNext p v } else none

/-- `p->prev = v`, likewise. -/
def setPrev (h : MemHeap) (p v : Option Nat) : Option MemHeap :=
  if ∀ a ∈ p, a ∈ h.live then some { h with links := h.links.setPrev p v } else none

/-- `a->data = v` -/
def setData (h : MemHeap) (a v : Nat) : Option MemHeap :=
  if a ∈ h.live then some { h with data := Function.update h.data a v } else none

/-- `a->sig = v` -/
def setSig (h : MemHeap) (a : Nat) (v : UInt32) : Option MemHeap :=
  if a ∈ h.live then some { h with sig := Function.update h.sig a v } else none

/-- `malloc` returns the block at `a`, which holds `raw`. -/
def alloc (h : MemHeap) (a : Nat) (raw : MemPre) : MemHeap where
  live := insert a h.live
  links := (h.links.setNext (some a) raw.next).setPrev (some a) raw.prev
  data := Function.update h.data a raw.data
  sig := Function.update h.sig a raw.sig

/-- `free(a)` -/
def free (h : MemHeap) (a : Nat) : Option MemHeap :=
  if a ∈ h.live then some { h with live := h.live.erase a } else none

/-- `realloc` moves the block at `a` to `b`, or leaves it where it is. -/
def realloc (h : MemHeap) (a b : Nat) : MemHeap :=
  let pre : MemPre := ⟨h.links.prev a, h.links.next a, h.data a, h.sig a⟩
  { h with live := h.live.erase a }.alloc b pre

end MemHeap

/-! ## §2. The functions. -/

/-- `emalloc`, where `malloc` returns `new`. -/
def emalloc (h : MemHeap) (base : Nat) (new : Option (Nat × MemPre)) :
    Option (Option Nat × MemHeap) := do
  h.assertSig base
  match new with
  | none => return (none, h)
  | some (newmem, raw) =>
      let h := h.alloc newmem raw
      let h ← h.setNext (some newmem) (h.links.next base)
      let h ← h.setNext (some base) (some newmem)
      let h ← h.setPrev (some newmem) (some base)
      let h ← h.setPrev (h.links.next newmem) (some newmem)
      let h ← h.setSig newmem memSig
      let h ← h.setData newmem (h.data base)
      return (some newmem, h)

/-- `ecalloc` is `emalloc` on a block of zeros. -/
def ecalloc (h : MemHeap) (base : Nat) (new : Option Nat) : Option (Option Nat × MemHeap) :=
  emalloc h base (new.map (fun a => (a, zeroPre)))

/-- `erealloc`, where `realloc` returns `new`; if that is `NULL` the block is as it
was. -/
def erealloc (h : MemHeap) (base : Nat) (new : Option Nat) : Option (Option Nat × MemHeap) := do
  h.assertSig base
  match new with
  | none => return (none, h)
  | some mem =>
      let h := h.realloc base mem
      let h ← h.setPrev (h.links.next mem) (some mem)
      let h ← h.setNext (h.links.prev mem) (some mem)
      return (some mem, h)

/-- `emalloc_new`; `data` is not set. -/
def emallocNew (h : MemHeap) (new : Option (Nat × MemPre)) : Option (Option Nat × MemHeap) :=
  match new with
  | none => some (none, h)
  | some (newmem, raw) => do
      let h := h.alloc newmem raw
      let h ← h.setNext (some newmem) none
      let h ← h.setPrev (some newmem) none
      let h ← h.setSig newmem memSig
      return (some newmem, h)

/-- `ecalloc_new` -/
def ecallocNew (h : MemHeap) (new : Option Nat) : Option (Option Nat × MemHeap) :=
  emallocNew h (new.map (fun a => (a, zeroPre)))

/-- `efree` -/
def efree (h : MemHeap) (cur : Nat) : Option MemHeap := do
  h.assertSig cur
  let h ← h.setPrev (h.links.next cur) (h.links.prev cur)
  let h ← h.setNext (h.links.prev cur) (h.links.next cur)
  h.free cur

/-- One of the two loops of `efree_all`, along `dir`: the blocks it frees, in order.
Every pass frees a block, so the loop ends. -/
def freeLoop (dir : Links Nat → Nat → Option Nat) (h : MemHeap) (p : Option Nat) :
    Option (List Nat × MemHeap) :=
  match p with
  | none => some ([], h)
  | some n =>
      if _hn : n ∈ h.live then
        if h.sig n = memSig then
          (freeLoop dir { h with live := h.live.erase n } (dir h.links n)).map
            (fun out => (n :: out.1, out.2))
        else none
      else none
  termination_by h.live.card
  decreasing_by exact Finset.card_erase_lt_of_mem _hn

/-- `efree_all` -/
def efreeAll (h : MemHeap) (cur : Nat) : Option (List Nat × MemHeap) := do
  h.assertSig cur
  let (nexts, h) ← freeLoop Links.next h (h.links.next cur)
  let (prevs, h) ← freeLoop Links.prev h (h.links.prev cur)
  let h ← h.free cur
  return (nexts ++ prevs ++ [cur], h)

/-- `e_set_data` -/
def eSetData (h : MemHeap) (base data : Nat) : Option MemHeap := h.setData base data

/-- `e_get_data` -/
def eGetData (h : MemHeap) (base : Nat) : Option Nat :=
  if base ∈ h.live then some (h.data base) else none

/-! ## §3. Runs. -/

/-- The heap, and which request each live block was allocated for: `chainOf` is what
the callers mean, it is not in the code.  `chains` requests were started. -/
structure ArenaState where
  heap : MemHeap
  chainOf : Nat → Option Nat
  chains : Nat

/-- The calls, each with what the allocator returns in it. -/
inductive MemOp
  | emallocNew (new : Option (Nat × MemPre))
  | ecallocNew (new : Option Nat)
  | emalloc (base : Nat) (new : Option (Nat × MemPre))
  | ecalloc (base : Nat) (new : Option Nat)
  | erealloc (base : Nat) (new : Option Nat)
  | efree (mem : Nat)
  | efreeAll (mem : Nat)

/-- The address the allocator returns. -/
def MemOp.new : MemOp → Option Nat
  | .emallocNew new => new.map Prod.fst
  | .ecallocNew new => new
  | .emalloc _ new => new.map Prod.fst
  | .ecalloc _ new => new
  | .erealloc _ new => new
  | .efree _ => none
  | .efreeAll _ => none

/-- The block a call is given. -/
def MemOp.base : MemOp → Option Nat
  | .emallocNew _ => none
  | .ecallocNew _ => none
  | .emalloc base _ => some base
  | .ecalloc base _ => some base
  | .erealloc base _ => some base
  | .efree mem => some mem
  | .efreeAll mem => some mem

/-- What the call returns, and the heap. -/
def MemHeap.call (h : MemHeap) : MemOp → Option (Option Nat × MemHeap)
  | .emallocNew new => RedisAgent.emallocNew h new
  | .ecallocNew new => RedisAgent.ecallocNew h new
  | .emalloc base new => RedisAgent.emalloc h base new
  | .ecalloc base new => RedisAgent.ecalloc h base new
  | .erealloc base new => RedisAgent.erealloc h base new
  | .efree mem => (RedisAgent.efree h mem).map (fun h => (none, h))
  | .efreeAll mem => (RedisAgent.efreeAll h mem).map (fun out => (none, out.2))

/-- What the call means for the requests, where the allocator succeeds. -/
def ArenaState.meaning (s : ArenaState) : MemOp → Nat → Option Nat
  | .emallocNew (some (a, _)) => Function.update s.chainOf a (some s.chains)
  | .ecallocNew (some a) => Function.update s.chainOf a (some s.chains)
  | .emalloc base (some (a, _)) => Function.update s.chainOf a (s.chainOf base)
  | .ecalloc base (some a) => Function.update s.chainOf a (s.chainOf base)
  | .erealloc base (some a) =>
      Function.update (Function.update s.chainOf base none) a (s.chainOf base)
  | .efree mem => Function.update s.chainOf mem none
  | .efreeAll mem => fun a => if s.chainOf a = s.chainOf mem then none else s.chainOf a
  | _ => s.chainOf

def MemOp.starts : MemOp → Nat
  | .emallocNew (some _) => 1
  | .ecallocNew (some _) => 1
  | _ => 0

/-- The call is made on a live block, and what the allocator returns was not in use;
`realloc` may return the block itself. -/
def ArenaState.Enabled (s : ArenaState) (op : MemOp) : Prop :=
  (∀ b ∈ op.base, s.chainOf b ≠ none)
    ∧ ∀ a ∈ op.new, a ∉ s.heap.live ∨ ∃ b, op = .erealloc b (some b) ∧ a = b

/-- Every run of calls, from an empty heap on. -/
def arenaLts : Lts ArenaState MemOp where
  init s := s.heap.live = ∅ ∧ s.chainOf = fun _ => none
  step s op s' := s.Enabled op ∧ ∃ ret, s.heap.call op = some (ret, s'.heap)
    ∧ s'.chainOf = s.meaning op ∧ s'.chains = s.chains + op.starts

end RedisAgent
