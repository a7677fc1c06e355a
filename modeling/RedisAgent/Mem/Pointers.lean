/-
  RedisAgent.Mem.Pointers — the pointer that the blocks of a chain carry.

  `e_set_data` writes it to one block; `emalloc` and `ecalloc` copy it from the block
  they are given, and `erealloc` takes it along.

  Main results:
    • `ArenaInv.carried` — a call on a block hands out no pointer but those of the
      request;
    • `ArenaInv.outlives` — and the request is still there after it.
-/
import RedisAgent.Mem.Chains

namespace RedisAgent

open Links

/-! ## §1. What each call writes. -/

section Data

variable {h h' : MemHeap}

theorem MemHeap.setNext_data {p v : Option Nat} (hs : h.setNext p v = some h') :
    h'.data = h.data := by
  obtain ⟨-, he⟩ := Option.ite_none_right_eq_some.1 hs
  rw [← Option.some.inj he]

theorem MemHeap.setPrev_data {p v : Option Nat} (hs : h.setPrev p v = some h') :
    h'.data = h.data := by
  obtain ⟨-, he⟩ := Option.ite_none_right_eq_some.1 hs
  rw [← Option.some.inj he]

theorem MemHeap.setSig_data {a : Nat} {v : UInt32} (hs : h.setSig a v = some h') :
    h'.data = h.data := by
  obtain ⟨-, he⟩ := Option.ite_none_right_eq_some.1 hs
  rw [← Option.some.inj he]

theorem MemHeap.setData_data {a v : Nat} (hs : h.setData a v = some h') :
    h'.data = Function.update h.data a v := by
  obtain ⟨-, he⟩ := Option.ite_none_right_eq_some.1 hs
  rw [← Option.some.inj he]

/-- **`emalloc`** copies the pointer of the block it is given. -/
theorem emalloc_data {base a : Nat} {raw : MemPre} {ret : Option Nat} (hne : base ≠ a)
    (hcall : emalloc h base (some (a, raw)) = some (ret, h')) :
    h'.data = Function.update h.data a (h.data base) := by
  unfold emalloc at hcall
  simp only [Option.bind_eq_bind, Option.bind_eq_some_iff] at hcall
  obtain ⟨-, -, h₁, hs₁, h₂, hs₂, h₃, hs₃, h₄, hs₄, h₅, hs₅, h₆, hs₆, he⟩ := hcall
  cases he
  have hbefore : h₅.data = Function.update h.data a raw.data := by
    rw [MemHeap.setSig_data hs₅, MemHeap.setPrev_data hs₄, MemHeap.setPrev_data hs₃,
      MemHeap.setNext_data hs₂, MemHeap.setNext_data hs₁]
    rfl
  rw [MemHeap.setData_data hs₆, hbefore, Function.update_of_ne hne, Function.update_idem]

/-- **`erealloc`** takes it along. -/
theorem erealloc_data {base a : Nat} {ret : Option Nat}
    (hcall : erealloc h base (some a) = some (ret, h')) :
    h'.data = Function.update h.data a (h.data base) := by
  unfold erealloc at hcall
  simp only [Option.bind_eq_bind, Option.bind_eq_some_iff] at hcall
  obtain ⟨-, -, h₁, hs₁, h₂, hs₂, he⟩ := hcall
  cases he
  rw [MemHeap.setNext_data hs₂, MemHeap.setPrev_data hs₁]
  rfl

theorem efree_data {a : Nat} (hcall : efree h a = some h') : h'.data = h.data := by
  unfold efree at hcall
  simp only [Option.bind_eq_bind, Option.bind_eq_some_iff] at hcall
  obtain ⟨-, -, h₁, hs₁, h₂, hs₂, hfree⟩ := hcall
  obtain ⟨-, he⟩ := Option.ite_none_right_eq_some.1 hfree
  rw [← Option.some.inj he]
  show h₂.data = _
  rw [MemHeap.setNext_data hs₂, MemHeap.setPrev_data hs₁]

/-- The loops of **`efree_all`** write to no block. -/
theorem freeLoop_data (dir : Links Nat → Nat → Option Nat) (h : MemHeap) (p : Option Nat) :
    ∀ out, freeLoop dir h p = some out → out.2.data = h.data := by
  induction h, p using freeLoop.induct dir with
  | case1 h =>
      intro out hout
      unfold freeLoop at hout
      rw [← Option.some.inj hout]
  | case2 h n hn hsig ih =>
      intro out hout
      unfold freeLoop at hout
      rw [dif_pos hn, if_pos hsig] at hout
      obtain ⟨out', hout', rfl⟩ := Option.map_eq_some_iff.1 hout
      exact ih out' hout'
  | case3 h n hn hsig =>
      intro out hout
      unfold freeLoop at hout
      rw [dif_pos hn, if_neg hsig] at hout
      cases hout
  | case4 h n hn =>
      intro out hout
      unfold freeLoop at hout
      rw [dif_neg hn] at hout
      cases hout

theorem efreeAll_data {a : Nat} {ret : Option Nat} (hcall : h.call (.efreeAll a) = some (ret, h')) :
    h'.data = h.data := by
  obtain ⟨out, hout, he⟩ := Option.map_eq_some_iff.1 hcall
  cases he
  unfold efreeAll at hout
  simp only [Option.bind_eq_bind, Option.bind_eq_some_iff] at hout
  obtain ⟨-, -, nexts, hnexts, prevs, hprevs, h₁, hfree, he⟩ := hout
  obtain ⟨-, he'⟩ := Option.ite_none_right_eq_some.1 hfree
  cases he
  rw [← Option.some.inj he', ← freeLoop_data _ _ _ _ hnexts, ← freeLoop_data _ _ _ _ hprevs]

end Data

/-! ## §2. A call on a block of a request. -/

/-- `emalloc`, `ecalloc`, `erealloc` or `efree` -/
def MemOp.InRequest : MemOp → Prop
  | .emalloc .. | .ecalloc .. | .erealloc .. | .efree _ => True
  | _ => False

section Carried

variable {s : ArenaState} {L : Nat → List Nat}

/-- The block that `emalloc` adds carries the pointer of the block it is given. -/
theorem ArenaInv.emalloc_carried (hi : ArenaInv s L) {base a : Nat} {raw : MemPre}
    {ret : Option Nat} {h' : MemHeap} (hb : s.chainOf base ≠ none) (ha : a ∉ s.heap.live)
    (hcall : RedisAgent.emalloc s.heap base (some (a, raw)) = some (ret, h')) {x c : Nat}
    (hx : Function.update s.chainOf a (s.chainOf base) x = some c) :
    ∃ b, s.chainOf b = some c ∧ h'.data x = s.heap.data b := by
  have hne : base ≠ a := by
    rintro rfl
    exact ha ((hi.live base).2 hb)
  rw [emalloc_data hne hcall]
  by_cases hxa : x = a
  · rw [hxa, Function.update_self] at hx
    refine ⟨base, hx, ?_⟩
    rw [hxa, Function.update_self]
  · rw [Function.update_of_ne hxa] at hx
    exact ⟨x, hx, Function.update_of_ne hxa _ _⟩

/-- **Every block after a call** belongs to a request that was there before, and carries the
pointer of one of its blocks. -/
theorem ArenaInv.carried (hi : ArenaInv s L) {op : MemOp} (hen : s.Enabled op) (hop : op.InRequest)
    {ret : Option Nat} {h' : MemHeap} (hcall : s.heap.call op = some (ret, h')) {x c : Nat}
    (hx : s.meaning op x = some c) : ∃ b, s.chainOf b = some c ∧ h'.data x = s.heap.data b := by
  -- where the allocator fails, nothing changes
  have hnone : op.Fails → ∃ b, s.chainOf b = some c ∧ h'.data x = s.heap.data b := by
    intro hf
    obtain ⟨hcall', hmeaning, -⟩ := hi.fails hen hf
    rw [hcall'] at hcall
    cases hcall
    rw [hmeaning] at hx
    exact ⟨x, hx, rfl⟩
  cases op with
  | emallocNew new => exact hop.elim
  | ecallocNew new => exact hop.elim
  | efreeAll mem => exact hop.elim
  | emalloc base new =>
      cases new with
      | none => exact hnone rfl
      | some new =>
          refine hi.emalloc_carried (hen.1 base rfl) ((hen.2 new.1 rfl).resolve_right ?_) hcall hx
          rintro ⟨b, he, -⟩
          cases he
  | ecalloc base new =>
      cases new with
      | none => exact hnone rfl
      | some a =>
          refine hi.emalloc_carried (hen.1 base rfl) ((hen.2 a rfl).resolve_right ?_) hcall hx
          rintro ⟨b, he, -⟩
          cases he
  | erealloc base new =>
      cases new with
      | none => exact hnone rfl
      | some a =>
          have hx' : Function.update (Function.update s.chainOf base none) a (s.chainOf base) x
            = some c := hx
          rw [erealloc_data hcall]
          by_cases hxa : x = a
          · rw [hxa, Function.update_self] at hx'
            refine ⟨base, hx', ?_⟩
            rw [hxa, Function.update_self]
          · rw [Function.update_of_ne hxa] at hx'
            have hxb : x ≠ base := by
              rintro rfl
              rw [Function.update_self] at hx'
              cases hx'
            rw [Function.update_of_ne hxb] at hx'
            exact ⟨x, hx', Function.update_of_ne hxa _ _⟩
  | efree mem =>
      have hx' : Function.update s.chainOf mem none x = some c := hx
      have hxm : x ≠ mem := by
        rintro rfl
        rw [Function.update_self] at hx'
        cases hx'
      rw [Function.update_of_ne hxm] at hx'
      obtain ⟨h₁, hfree, he⟩ := Option.map_eq_some_iff.1 hcall
      cases he
      rw [efree_data hfree]
      exact ⟨x, hx', rfl⟩

/-- **A request outlives the call**, as `efree` leaves a block of it. -/
theorem ArenaInv.outlives (hi : ArenaInv s L) {op : MemOp} (hen : s.Enabled op) (hop : op.InRequest)
    (hlast : ∀ mem, op = .efree mem → ∃ b, b ≠ mem ∧ s.chainOf b = s.chainOf mem) {b c : Nat}
    (hb : s.chainOf b = some c) : ∃ x, s.meaning op x = some c := by
  have hlive : b ∈ s.heap.live := by
    rw [hi.live, hb]
    exact Option.some_ne_none c
  have hnone : op.Fails → ∃ x, s.meaning op x = some c := by
    intro hf
    rw [(hi.fails hen hf).2.1]
    exact ⟨b, hb⟩
  -- a new block is not the block `b`
  have hadd : ∀ a base, a ∉ s.heap.live →
      ∃ x, Function.update s.chainOf a (s.chainOf base) x = some c := by
    intro a base ha
    refine ⟨b, ?_⟩
    rw [Function.update_of_ne, hb]
    rintro rfl
    exact ha hlive
  cases op with
  | emallocNew new => exact hop.elim
  | ecallocNew new => exact hop.elim
  | efreeAll mem => exact hop.elim
  | emalloc base new =>
      cases new with
      | none => exact hnone rfl
      | some new =>
          refine hadd new.1 base ((hen.2 new.1 rfl).resolve_right ?_)
          rintro ⟨b, he, -⟩
          cases he
  | ecalloc base new =>
      cases new with
      | none => exact hnone rfl
      | some a =>
          refine hadd a base ((hen.2 a rfl).resolve_right ?_)
          rintro ⟨b, he, -⟩
          cases he
  | erealloc base new =>
      cases new with
      | none => exact hnone rfl
      | some a =>
          show ∃ x, Function.update (Function.update s.chainOf base none) a (s.chainOf base) x = some c
          by_cases hbb : b = base
          · refine ⟨a, ?_⟩
            rw [Function.update_self, ← hbb, hb]
          · have hba : b ≠ a := by
              rintro rfl
              rcases hen.2 b rfl with hfree | ⟨_, he, rfl⟩
              · exact hfree hlive
              · cases he
                exact hbb rfl
            refine ⟨b, ?_⟩
            rw [Function.update_of_ne hba, Function.update_of_ne hbb, hb]
  | efree mem =>
      show ∃ x, Function.update s.chainOf mem none x = some c
      by_cases hbm : b = mem
      · obtain ⟨x, hx, hc⟩ := hlast mem rfl
        refine ⟨x, ?_⟩
        rw [Function.update_of_ne hx, hc, ← hbm, hb]
      · refine ⟨b, ?_⟩
        rw [Function.update_of_ne hbm, hb]

/-- The links do not depend on the pointers. -/
theorem ArenaInv.setData (hi : ArenaInv s L) (data : Nat → Nat) :
    ArenaInv ⟨{ s.heap with data := data }, s.chainOf, s.chains⟩ L :=
  ⟨hi.chain, hi.nodup, hi.mem, hi.live, hi.sig, hi.fresh⟩

end Carried

end RedisAgent
