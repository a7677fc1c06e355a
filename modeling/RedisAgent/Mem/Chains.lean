/-
  RedisAgent.Mem.Chains — the chain of a request, whatever is done to it.

  `ArenaInv` gives every request the list of its live blocks in link order; each call
  edits one list and leaves the others alone.

  Main results:
    • `arena_chains_exact` — in every state of every run the blocks reached from a
      live block are those of its request, each once; no call on a live block
      faults, one that fails changes nothing, and `efree_all` frees exactly the
      chain.
-/
import RedisAgent.Mem.Arena

namespace RedisAgent

open Links

variable {h : MemHeap}

/-! ## §1. One chain in the heap. -/

/-- The blocks `l` are live, and linked in this order. -/
structure HoldsChain (h : MemHeap) (l : List Nat) : Prop where
  chain : Chain h.links none l none
  nodup : l.Nodup
  live : ∀ a ∈ l, a ∈ h.live
  sig : ∀ a ∈ l, h.sig a = memSig

theorem HoldsChain.assertSig {l : List Nat} (hl : HoldsChain h l) {a : Nat} (ha : a ∈ l) :
    h.assertSig a = some () :=
  if_pos ⟨hl.live a ha, hl.sig a ha⟩

/-- The neighbours of a live block are live. -/
theorem HoldsChain.neighbours {xs ys : List Nat} {a : Nat} (hl : HoldsChain h (xs ++ a :: ys)) :
    (∀ x ∈ h.links.prev a, x ∈ h.live) ∧ ∀ x ∈ h.links.next a, x ∈ h.live := by
  obtain ⟨hp, hn⟩ := (hl.chain.isQueue hl.nodup).at_middle
  refine ⟨?_, ?_⟩
  · intro x hx
    rw [hp] at hx
    exact hl.live x (List.mem_append_left _ (List.mem_of_getLast? hx))
  · intro x hx
    rw [hn] at hx
    exact hl.live x (List.mem_append_right _ (List.mem_cons_of_mem _ (List.mem_of_head? hx)))

/-! ## §2. The calls. -/

/-- A store that goes through. -/
theorem MemHeap.setNext_ok {p v : Option Nat} (hp : ∀ a ∈ p, a ∈ h.live) :
    h.setNext p v = some { h with links := h.links.setNext p v } :=
  if_pos hp

theorem MemHeap.setPrev_ok {p v : Option Nat} (hp : ∀ a ∈ p, a ∈ h.live) :
    h.setPrev p v = some { h with links := h.links.setPrev p v } :=
  if_pos hp

theorem MemHeap.setSig_ok {a : Nat} {v : UInt32} (ha : a ∈ h.live) :
    h.setSig a v = some { h with sig := Function.update h.sig a v } :=
  if_pos ha

theorem MemHeap.setData_ok {a v : Nat} (ha : a ∈ h.live) :
    h.setData a v = some { h with data := Function.update h.data a v } :=
  if_pos ha

theorem MemHeap.live_some {a : Nat} (ha : a ∈ h.live) : ∀ b ∈ some a, b ∈ h.live := by
  intro b hb
  cases hb
  exact ha

/-- The heap once `emalloc` is through. -/
def MemHeap.afterEmalloc (h : MemHeap) (base a : Nat) (raw : MemPre) : MemHeap where
  live := insert a h.live
  links := (h.alloc a raw).links.insertAfter base a
  data := Function.update h.data a (h.data base)
  sig := Function.update h.sig a memSig

theorem emalloc_eq {base a : Nat} (raw : MemPre) (hassert : h.assertSig base = some ())
    (hb : base ∈ h.live) (ha : a ∉ h.live) (hnext : ∀ x ∈ h.links.next base, x ∈ h.live) :
    emalloc h base (some (a, raw)) = some (some a, h.afterEmalloc base a raw) := by
  have hne : base ≠ a := by
    rintro rfl
    exact ha hb
  have hbase : base ∈ insert a h.live := Finset.mem_insert_of_mem hb
  have hnew : a ∈ insert a h.live := Finset.mem_insert_self a _
  have hread : (((((h.alloc a raw).links.setNext (some a) (h.links.next base)).setNext (some base)
      (some a)).setPrev (some a) (some base)).next a) = h.links.next base := by
    simp [setNext_next, hne]
  have hbefore : (h.alloc a raw).links.next base = h.links.next base := by
    simp [MemHeap.alloc, setNext_next, hne.symm]
  unfold emalloc MemHeap.afterEmalloc insertAfter
  simp only [hassert, hbefore, Option.bind_eq_bind, Option.bind_some]
  rw [MemHeap.setNext_ok (MemHeap.live_some hnew), Option.bind_some,
    MemHeap.setNext_ok (MemHeap.live_some hbase), Option.bind_some,
    MemHeap.setPrev_ok (MemHeap.live_some hnew), Option.bind_some]
  simp only [hread]
  rw [MemHeap.setPrev_ok (fun x hx => Finset.mem_insert_of_mem (hnext x hx)), Option.bind_some]
  rw [MemHeap.setSig_ok (by exact hnew), Option.bind_some,
    MemHeap.setData_ok (by exact hnew), Option.bind_some]
  simp [MemHeap.alloc, hne]

/-- The heap once `emalloc_new` is through. -/
def MemHeap.afterNew (h : MemHeap) (a : Nat) (raw : MemPre) : MemHeap where
  live := insert a h.live
  links := ((h.alloc a raw).links.setNext (some a) none).setPrev (some a) none
  data := Function.update h.data a raw.data
  sig := Function.update h.sig a memSig

theorem emallocNew_eq {a : Nat} (raw : MemPre) :
    emallocNew h (some (a, raw)) = some (some a, h.afterNew a raw) := by
  have hnew : a ∈ insert a h.live := Finset.mem_insert_self a _
  unfold emallocNew
  simp only [Option.bind_eq_bind]
  rw [MemHeap.setNext_ok (MemHeap.live_some hnew), Option.bind_some,
    MemHeap.setPrev_ok (MemHeap.live_some hnew), Option.bind_some]
  rw [MemHeap.setSig_ok (by exact hnew), Option.bind_some]
  simp [MemHeap.alloc, MemHeap.afterNew]

/-- The heap once `erealloc` is through. -/
def MemHeap.afterRealloc (h : MemHeap) (base a : Nat) : MemHeap where
  live := insert a (h.live.erase base)
  links := h.links.relocate base a
  data := Function.update h.data a (h.data base)
  sig := Function.update h.sig a (h.sig base)

theorem erealloc_eq {base a : Nat} (hassert : h.assertSig base = some ())
    (hprev : ∀ x ∈ h.links.prev base, x ≠ base ∧ x ∈ h.live)
    (hnext : ∀ x ∈ h.links.next base, x ≠ base ∧ x ≠ a ∧ x ∈ h.live) :
    erealloc h base (some a) = some (some a, h.afterRealloc base a) := by
  have hself : h.links.next base ≠ some a := fun hx => (hnext a hx).2.1 rfl
  have hmoved : ∀ x, x ≠ base → x ∈ h.live → x ∈ insert a (h.live.erase base) :=
    fun x hx hlive => Finset.mem_insert_of_mem (Finset.mem_erase.2 ⟨hx, hlive⟩)
  have hnread : (h.realloc base a).links.next a = h.links.next base := by
    simp [MemHeap.realloc, MemHeap.alloc, setNext_next]
  have hpread : ((h.realloc base a).links.setPrev (h.links.next base) (some a)).prev a
      = h.links.prev base := by
    simp [MemHeap.realloc, MemHeap.alloc, setPrev_prev, hself]
  unfold erealloc MemHeap.afterRealloc
  simp only [hassert, hnread, Option.bind_eq_bind, Option.bind_some]
  rw [MemHeap.setPrev_ok (fun x hx => hmoved x (hnext x hx).1 (hnext x hx).2.2), Option.bind_some]
  simp only [hpread]
  rw [MemHeap.setNext_ok (fun x hx => hmoved x (hprev x hx).1 (hprev x hx).2), Option.bind_some]
  unfold relocate
  simp [MemHeap.realloc, MemHeap.alloc, setNext_next, setPrev_prev, hself]

/-- The heap once `efree` is through. -/
def MemHeap.afterFree (h : MemHeap) (a : Nat) : MemHeap :=
  { h with live := h.live.erase a, links := h.links.unlink a }

theorem efree_eq {a : Nat} (hassert : h.assertSig a = some ()) (ha : a ∈ h.live)
    (hprev : ∀ x ∈ h.links.prev a, x ∈ h.live)
    (hnext : ∀ x ∈ h.links.next a, x ≠ a ∧ x ∈ h.live) :
    efree h a = some (h.afterFree a) := by
  have hself : h.links.next a ≠ some a := fun hx => (hnext a hx).1 rfl
  have hpread : (h.links.setPrev (h.links.next a) (h.links.prev a)).prev a = h.links.prev a := by
    simp [setPrev_prev, hself]
  -- the two stores are to different fields
  have hcomm : (h.links.setPrev (h.links.next a) (h.links.prev a)).setNext (h.links.prev a)
      (h.links.next a) = h.links.unlink a := by
    unfold unlink
    cases h.links.next a <;> cases h.links.prev a <;> rfl
  unfold efree
  simp only [hassert, Option.bind_eq_bind, Option.bind_some]
  rw [MemHeap.setPrev_ok (fun x hx => (hnext x hx).2), Option.bind_some]
  simp only [hpread, setPrev_next]
  rw [MemHeap.setNext_ok (by exact hprev), Option.bind_some, hcomm]
  exact if_pos ha

/-- **A loop of `efree_all`** frees the walk it follows, and writes nothing. -/
theorem freeLoop_walk {dir : Links Nat → Nat → Option Nat} (l : List Nat) :
    ∀ (h : MemHeap) (p : Option Nat), Walk (dir h.links) p l → l.Nodup →
      (∀ a ∈ l, a ∈ h.live ∧ h.sig a = memSig) →
      freeLoop dir h p = some (l, { h with live := h.live \ l.toFinset }) := by
  induction l with
  | nil =>
      intro h p hw _ _
      rw [hw, freeLoop]
      simp
  | cons a l ih =>
      intro h p hw hnd hall
      obtain ⟨rfl, hw⟩ := hw
      obtain ⟨hal, hnd⟩ := List.nodup_cons.1 hnd
      obtain ⟨hlive, hsig⟩ := hall a List.mem_cons_self
      have hrest : ∀ b ∈ l, b ∈ h.live.erase a ∧ h.sig b = memSig := by
        intro b hb
        obtain ⟨hb1, hb2⟩ := hall b (List.mem_cons_of_mem _ hb)
        have hba : b ≠ a := by
          rintro rfl
          exact hal hb
        exact ⟨Finset.mem_erase.2 ⟨hba, hb1⟩, hb2⟩
      rw [freeLoop, dif_pos hlive, if_pos hsig,
        ih { h with live := h.live.erase a } (dir h.links a) hw hnd hrest]
      simp only [Option.map_some, List.toFinset_cons]
      congr 3
      ext x
      simp only [Finset.mem_sdiff, Finset.mem_erase, Finset.mem_insert]
      tauto

/-- **`efree_all`** on any block of a chain frees the chain and nothing else. -/
theorem efreeAll_spec {xs ys : List Nat} {a : Nat} (hl : HoldsChain h (xs ++ a :: ys)) :
    efreeAll h a = some (ys ++ xs.reverse ++ [a],
      { h with live := h.live \ (xs ++ a :: ys).toFinset }) := by
  have ha : a ∈ xs ++ a :: ys := by simp
  obtain ⟨hprevs, hnexts⟩ := hl.chain.walks
  obtain ⟨hndx, hnda, hdisj⟩ := List.nodup_append.1 hl.nodup
  obtain ⟨hay, hndy⟩ := List.nodup_cons.1 hnda
  have hax : a ∉ xs := fun hm => hdisj a hm a List.mem_cons_self rfl
  unfold efreeAll
  simp only [hl.assertSig ha, Option.bind_eq_bind, Option.bind_some]
  rw [freeLoop_walk ys h _ hnexts hndy
    (fun b hb => ⟨hl.live b (by simp [hb]), hl.sig b (by simp [hb])⟩), Option.bind_some]
  simp only
  rw [freeLoop_walk xs.reverse { h with live := h.live \ ys.toFinset } _ hprevs
    (List.nodup_reverse.2 hndx) ?_, Option.bind_some]
  · simp only
    unfold MemHeap.free
    rw [if_pos, Option.bind_some]
    · have hfreed : ((h.live \ ys.toFinset) \ xs.reverse.toFinset).erase a
          = h.live \ (xs ++ a :: ys).toFinset := by
        ext x
        simp only [Finset.mem_erase, Finset.mem_sdiff, List.mem_toFinset, List.mem_reverse,
          List.mem_append, List.mem_cons]
        tauto
      rw [hfreed]
      rfl
    · simp only [Finset.mem_sdiff, List.mem_toFinset, List.mem_reverse]
      exact ⟨⟨hl.live a ha, hay⟩, hax⟩
  · intro b hb
    rw [List.mem_reverse] at hb
    refine ⟨?_, hl.sig b (by simp [hb])⟩
    simp only [Finset.mem_sdiff, List.mem_toFinset]
    exact ⟨hl.live b (by simp [hb]), fun hby => hdisj b hb b (List.mem_cons_of_mem _ hby) rfl⟩

/-! ## §3. All chains. -/

/-- Request `c` has the live blocks `L c`, in link order. -/
structure ArenaInv (s : ArenaState) (L : Nat → List Nat) : Prop where
  chain : ∀ c, Chain s.heap.links none (L c) none
  nodup : ∀ c, (L c).Nodup
  mem : ∀ c a, a ∈ L c ↔ s.chainOf a = some c
  live : ∀ a, a ∈ s.heap.live ↔ s.chainOf a ≠ none
  sig : ∀ a ∈ s.heap.live, s.heap.sig a = memSig
  fresh : ∀ a c, s.chainOf a = some c → c < s.chains

variable {s s' : ArenaState} {L : Nat → List Nat}

theorem ArenaInv.holds (hi : ArenaInv s L) (c : Nat) : HoldsChain s.heap (L c) := by
  have hlive : ∀ a ∈ L c, a ∈ s.heap.live := by
    intro a ha
    rw [hi.live, (hi.mem c a).1 ha]
    exact Option.some_ne_none c
  exact ⟨hi.chain c, hi.nodup c, hlive, fun a ha => hi.sig a (hlive a ha)⟩

/-- A live block, and what its chain has on both sides of it. -/
theorem ArenaInv.at_block (hi : ArenaInv s L) {b : Nat} (hb : s.chainOf b ≠ none) :
    ∃ c xs ys, s.chainOf b = some c ∧ L c = xs ++ b :: ys ∧ HoldsChain s.heap (xs ++ b :: ys) := by
  obtain ⟨c, hc⟩ := Option.ne_none_iff_exists'.1 hb
  obtain ⟨xs, ys, hl⟩ := List.append_of_mem ((hi.mem c b).2 hc)
  exact ⟨c, xs, ys, hc, hl, hl ▸ hi.holds c⟩

/-- **One chain is edited**, by writes to its own blocks. -/
theorem ArenaInv.edit (hi : ArenaInv s L) {c : Nat} {l' m : List Nat}
    (hchain : Chain s'.heap.links none l' none) (hnd : l'.Nodup)
    (hoff : SameOff m s.heap.links s'.heap.links) (hm : ∀ x ∈ m, ∀ c', c' ≠ c → x ∉ L c')
    (hmem : ∀ a, a ∈ l' ↔ s'.chainOf a = some c)
    (hother : ∀ c', c' ≠ c → ∀ a, s'.chainOf a = some c' ↔ s.chainOf a = some c')
    (hlive : ∀ a, a ∈ s'.heap.live ↔ s'.chainOf a ≠ none)
    (hsig : ∀ a ∈ s'.heap.live, s'.heap.sig a = memSig)
    (hfresh : ∀ a c, s'.chainOf a = some c → c < s'.chains) :
    ArenaInv s' (Function.update L c l') := by
  refine ⟨?_, ?_, ?_, hlive, hsig, hfresh⟩
  · intro c'
    by_cases hc : c' = c
    · rw [hc, Function.update_self]
      exact hchain
    · rw [Function.update_of_ne hc]
      exact (hi.chain c').congr (fun x hx => hoff x (fun hxm => hm x hxm c' hc hx))
  · intro c'
    by_cases hc : c' = c
    · rw [hc, Function.update_self]
      exact hnd
    · rw [Function.update_of_ne hc]
      exact hi.nodup c'
  · intro c' a
    by_cases hc : c' = c
    · rw [hc, Function.update_self]
      exact hmem a
    · rw [Function.update_of_ne hc, hother c' hc]
      exact hi.mem c' a

/-- The blocks of one chain are in no other. -/
theorem ArenaInv.apart (hi : ArenaInv s L) {c c' x : Nat} (hx : x ∈ L c) (hc : c' ≠ c) :
    x ∉ L c' := by
  intro hx'
  have h1 := (hi.mem c x).1 hx
  rw [(hi.mem c' x).1 hx'] at h1
  exact hc (Option.some.inj h1)

/-- An address that is not in use is in no chain. -/
theorem ArenaInv.not_mem (hi : ArenaInv s L) {a : Nat} (ha : a ∉ s.heap.live) (c : Nat) :
    a ∉ L c :=
  fun hm => ha ((hi.holds c).live a hm)

/-- **A block joins** the chain `c`. -/
theorem ArenaInv.add (hi : ArenaInv s L) {h' : MemHeap} {c a n : Nat} {l' : List Nat}
    (ha : a ∉ s.heap.live) (hlive : h'.live = insert a s.heap.live)
    (hsig : h'.sig = Function.update s.heap.sig a memSig)
    (hchain : Chain h'.links none l' none) (hnd : l'.Nodup)
    (hoff : SameOff l' s.heap.links h'.links) (hmem : ∀ x, x ∈ l' ↔ x = a ∨ x ∈ L c)
    (hc : c < n) (hn : s.chains ≤ n) :
    ArenaInv ⟨h', Function.update s.chainOf a (some c), n⟩ (Function.update L c l') := by
  have hfree : s.chainOf a = none := by
    by_contra hne
    exact ha ((hi.live a).2 hne)
  refine hi.edit hchain hnd hoff ?_ ?_ ?_ ?_ ?_ ?_
  · intro x hx c' hc'
    rcases (hmem x).1 hx with rfl | hx
    · exact hi.not_mem ha c'
    · exact hi.apart hx hc'
  · intro x
    rw [hmem, hi.mem]
    by_cases hxa : x = a
    · subst hxa
      simp
    · simp [hxa]
  · intro c' hc' x
    by_cases hxa : x = a
    · subst hxa
      simp [hfree, Ne.symm hc']
    · simp [hxa]
  · intro x
    show x ∈ h'.live ↔ Function.update s.chainOf a (some c) x ≠ none
    rw [hlive, Finset.mem_insert, hi.live]
    by_cases hxa : x = a
    · subst hxa
      simp
    · simp [hxa]
  · intro x hx
    show h'.sig x = memSig
    rw [hsig]
    by_cases hxa : x = a
    · rw [hxa, Function.update_self]
    · rw [Function.update_of_ne hxa]
      have hx' : x ∈ h'.live := hx
      rw [hlive] at hx'
      exact hi.sig x ((Finset.mem_insert.1 hx').resolve_left hxa)
  · intro x c' hx
    have hx' : Function.update s.chainOf a (some c) x = some c' := hx
    by_cases hxa : x = a
    · subst hxa
      rw [Function.update_self] at hx'
      cases hx'
      exact hc
    · rw [Function.update_of_ne hxa] at hx'
      exact Nat.lt_of_lt_of_le (hi.fresh x c' hx') hn

/-- **A block leaves** its chain. -/
theorem ArenaInv.remove (hi : ArenaInv s L) {h' : MemHeap} {c a : Nat} {xs ys : List Nat}
    (hc : s.chainOf a = some c) (hl : L c = xs ++ a :: ys) (hlive : h'.live = s.heap.live.erase a)
    (hsig : h'.sig = s.heap.sig) (hchain : Chain h'.links none (xs ++ ys) none)
    (hoff : SameOff (xs ++ a :: ys) s.heap.links h'.links) :
    ArenaInv ⟨h', Function.update s.chainOf a none, s.chains⟩ (Function.update L c (xs ++ ys)) := by
  have hnd : (xs ++ a :: ys).Nodup := hl ▸ hi.nodup c
  have ha : a ∉ xs ++ ys := (List.nodup_cons.1 (List.perm_middle.nodup_iff.1 hnd)).1
  refine hi.edit hchain (List.nodup_cons.1 (List.perm_middle.nodup_iff.1 hnd)).2 hoff ?_ ?_ ?_ ?_ ?_
    ?_
  · intro x hx c' hc'
    rw [← hl] at hx
    exact hi.apart hx hc'
  · intro x
    by_cases hxa : x = a
    · subst hxa
      simp only [Function.update_self, reduceCtorEq, iff_false]
      exact ha
    · show x ∈ xs ++ ys ↔ Function.update s.chainOf a none x = some c
      rw [Function.update_of_ne hxa, ← hi.mem c x, hl]
      simp [hxa]
  · intro c' hc' x
    by_cases hxa : x = a
    · subst hxa
      simp [hc, Ne.symm hc']
    · simp [hxa]
  · intro x
    show x ∈ h'.live ↔ Function.update s.chainOf a none x ≠ none
    rw [hlive, Finset.mem_erase, hi.live]
    by_cases hxa : x = a
    · subst hxa
      simp
    · simp [hxa]
  · intro x hx
    have hx' : x ∈ h'.live := hx
    rw [hlive] at hx'
    show h'.sig x = memSig
    rw [hsig]
    exact hi.sig x (Finset.mem_of_mem_erase hx')
  · intro x c' hx
    have hx' : Function.update s.chainOf a none x = some c' := hx
    by_cases hxa : x = a
    · subst hxa
      rw [Function.update_self] at hx'
      cases hx'
    · rw [Function.update_of_ne hxa] at hx'
      exact hi.fresh x c' hx'

/-! ## §4. One lemma for each call. -/

/-- What a call leads to. -/
def Leads (s : ArenaState) (op : MemOp) : Prop :=
  ∃ ret h', s.heap.call op = some (ret, h')
    ∧ ∃ L', ArenaInv ⟨h', s.meaning op, s.chains + op.starts⟩ L'

theorem alloc_sameOff (h : MemHeap) (a : Nat) (raw : MemPre) :
    SameOff [a] h.links (h.alloc a raw).links :=
  (setNext_sameOff h.links (some a) raw.next (by rintro x ⟨⟩; simp)).trans
    (setPrev_sameOff _ (some a) raw.prev (by rintro x ⟨⟩; simp))

/-- **`emalloc`** puts the new block behind the one it is given. -/
theorem ArenaInv.emalloc (hi : ArenaInv s L) {base a : Nat} (raw : MemPre)
    (hb : s.chainOf base ≠ none) (ha : a ∉ s.heap.live) :
    Leads s (.emalloc base (some (a, raw))) := by
  obtain ⟨c, xs, ys, hc, hl, hold⟩ := hi.at_block hb
  have hal : a ∉ xs ++ base :: ys := hl ▸ hi.not_mem ha c
  have hbl : base ∈ xs ++ base :: ys := by simp
  have hchain : Chain (s.heap.alloc a raw).links none (xs ++ base :: ys) none := by
    refine hold.chain.congr (fun x hx => alloc_sameOff s.heap a raw x ?_)
    rw [List.mem_singleton]
    rintro rfl
    exact hal hx
  obtain ⟨hnew, hoff⟩ := insertAfter_spec hchain hold.nodup hal
  have hperm : (xs ++ base :: a :: ys).Perm (a :: (xs ++ base :: ys)) := by
    have h1 := @List.perm_middle _ a (xs ++ [base]) ys
    simpa using h1
  have hmeaning : s.meaning (.emalloc base (some (a, raw))) = Function.update s.chainOf a (some c) := by
    show Function.update s.chainOf a (s.chainOf base) = _
    rw [hc]
  refine ⟨_, _, emalloc_eq raw (hold.assertSig hbl) (hold.live base hbl) ha hold.neighbours.2,
    Function.update L c (xs ++ base :: a :: ys), ?_⟩
  rw [hmeaning]
  refine hi.add ha rfl rfl hnew (hperm.nodup_iff.2 (List.nodup_cons.2 ⟨hal, hold.nodup⟩))
    (((alloc_sameOff s.heap a raw).mono (by simp)).trans hoff) ?_ (hi.fresh base c hc) (Nat.le_refl _)
  intro x
  rw [hperm.mem_iff, List.mem_cons, hl]

/-- **`emalloc_new`** starts a chain. -/
theorem ArenaInv.emallocNew (hi : ArenaInv s L) {a : Nat} (raw : MemPre) (ha : a ∉ s.heap.live) :
    Leads s (.emallocNew (some (a, raw))) := by
  have hempty : L s.chains = [] := by
    rw [List.eq_nil_iff_forall_not_mem]
    intro x hx
    exact Nat.lt_irrefl _ (hi.fresh x _ ((hi.mem _ x).1 hx))
  refine ⟨_, _, emallocNew_eq raw, Function.update L s.chains [a], ?_⟩
  refine hi.add (c := s.chains) ha rfl rfl ?_ (List.nodup_singleton a) ?_ ?_ (Nat.lt_succ_self _)
    (Nat.le_succ _)
  · refine ⟨?_, ?_, trivial⟩
    · simp [MemHeap.afterNew, setPrev_prev]
    · simp [MemHeap.afterNew, setNext_next]
  · exact (alloc_sameOff s.heap a raw).trans
      ((setNext_sameOff _ (some a) none (by rintro x ⟨⟩; simp)).trans
        (setPrev_sameOff _ (some a) none (by rintro x ⟨⟩; simp)))
  · intro x
    rw [hempty]
    simp

/-- **`efree`** takes a block out of any place of its chain. -/
theorem ArenaInv.efree (hi : ArenaInv s L) {a : Nat} (ha : s.chainOf a ≠ none) :
    Leads s (.efree a) := by
  obtain ⟨c, xs, ys, hc, hl, hold⟩ := hi.at_block ha
  have hal : a ∈ xs ++ a :: ys := by simp
  obtain ⟨hprev, hnext⟩ := hold.neighbours
  have hself : ∀ x ∈ s.heap.links.next a, x ≠ a := by
    rintro x hx rfl
    rw [(hold.chain.isQueue hold.nodup).at_middle.2] at hx
    have hnd := (List.nodup_append.1 hold.nodup).2.1
    exact (List.nodup_cons.1 hnd).1 (List.mem_of_head? hx)
  obtain ⟨hq, hoff⟩ := unlink_spec (hold.chain.isQueue hold.nodup)
  have hcall : s.heap.call (.efree a) = some (none, s.heap.afterFree a) := by
    show (RedisAgent.efree s.heap a).map _ = _
    rw [efree_eq (hold.assertSig hal) (hold.live a hal) hprev (fun x hx => ⟨hself x hx, hnext x hx⟩)]
    rfl
  exact ⟨_, _, hcall, Function.update L c (xs ++ ys), hi.remove hc hl rfl rfl hq.chain hoff⟩

/-- **`erealloc`** keeps a block's place in its chain, wherever the block goes. -/
theorem ArenaInv.erealloc (hi : ArenaInv s L) {base a : Nat} (hb : s.chainOf base ≠ none)
    (ha : a ∉ s.heap.live ∨ a = base) : Leads s (.erealloc base (some a)) := by
  obtain ⟨c, xs, ys, hc, hl, hold⟩ := hi.at_block hb
  have hbl : base ∈ xs ++ base :: ys := by simp
  obtain ⟨hprev, hnext⟩ := hold.neighbours
  obtain ⟨hp, hn⟩ := (hold.chain.isQueue hold.nodup).at_middle
  obtain ⟨hbxy, hnd⟩ := List.nodup_cons.1 (List.perm_middle.nodup_iff.1 hold.nodup)
  have haxy : a ∉ xs ++ ys := by
    rcases ha with ha | rfl
    · intro hm
      refine ha (hold.live a ?_)
      rw [List.perm_middle.mem_iff]
      exact List.mem_cons_of_mem _ hm
    · exact hbxy
  have hfree : a ≠ base → s.chainOf a = none := by
    intro hne
    by_contra hsome
    exact ha.elim (fun h1 => h1 ((hi.live a).2 hsome)) hne
  have hpn : ∀ x ∈ s.heap.links.prev base, x ∈ xs ++ ys := by
    intro x hx
    rw [hp] at hx
    exact List.mem_append_left _ (List.mem_of_getLast? hx)
  have hnn : ∀ x ∈ s.heap.links.next base, x ∈ xs ++ ys := by
    intro x hx
    rw [hn] at hx
    exact List.mem_append_right _ (List.mem_of_head? hx)
  have hcall : RedisAgent.erealloc s.heap base (some a)
      = some (some a, s.heap.afterRealloc base a) := by
    refine erealloc_eq (hold.assertSig hbl) ?_ ?_
    · exact fun x hx => ⟨fun he => hbxy (he ▸ hpn x hx), hprev x hx⟩
    · exact fun x hx => ⟨fun he => hbxy (he ▸ hnn x hx), fun he => haxy (he ▸ hnn x hx), hnext x hx⟩
  obtain ⟨hnew, hoff⟩ := relocate_spec hold.chain hold.nodup haxy
  have hmeaning : ∀ x, s.meaning (.erealloc base (some a)) x
      = if x = a then some c else if x = base then none else s.chainOf x := by
    intro x
    show Function.update (Function.update s.chainOf base none) a (s.chainOf base) x = _
    rw [Function.update_apply, Function.update_apply, hc]
  refine ⟨_, _, hcall, Function.update L c (xs ++ a :: ys), ?_⟩
  refine hi.edit (m := xs ++ a :: ys) hnew
    (List.perm_middle.nodup_iff.2 (List.nodup_cons.2 ⟨haxy, hnd⟩)) hoff ?_ ?_ ?_ ?_ ?_ ?_
  · intro x hx c' hc'
    rcases List.mem_cons.1 (List.perm_middle.mem_iff.1 hx) with rfl | hx
    · intro hm
      have h1 := (hi.mem c' x).1 hm
      by_cases hxb : x = base
      · rw [hxb, hc] at h1
        exact hc' (Option.some.inj h1).symm
      · rw [hfree hxb] at h1
        cases h1
    · refine hi.apart (c := c) ?_ hc'
      rw [hl, List.perm_middle.mem_iff]
      exact List.mem_cons_of_mem _ hx
  · intro x
    show x ∈ xs ++ a :: ys ↔ s.meaning (.erealloc base (some a)) x = some c
    rw [hmeaning, List.perm_middle.mem_iff, List.mem_cons]
    by_cases hxa : x = a
    · simp [hxa]
    · by_cases hxb : x = base
      · subst hxb
        simp only [hxa, hbxy, if_true, if_false]
        simp
      · rw [if_neg hxa, if_neg hxb, ← hi.mem c x, hl, List.perm_middle.mem_iff, List.mem_cons]
        simp [hxa, hxb]
  · intro c' hc' x
    show s.meaning (.erealloc base (some a)) x = some c' ↔ _
    rw [hmeaning]
    by_cases hxa : x = a
    · rw [if_pos hxa]
      refine iff_of_false (fun h1 => hc' (Option.some.inj h1).symm) ?_
      by_cases hxb : x = base
      · rw [hxb, hc]
        exact fun h1 => hc' (Option.some.inj h1).symm
      · rw [hxa, hfree (hxa ▸ hxb)]
        exact Option.some_ne_none c' ∘ Eq.symm
    · rw [if_neg hxa]
      by_cases hxb : x = base
      · rw [if_pos hxb, hxb, hc]
        exact iff_of_false (fun hn => by cases hn) (fun h1 => hc' (Option.some.inj h1).symm)
      · rw [if_neg hxb]
  · intro x
    show x ∈ insert a (s.heap.live.erase base) ↔ s.meaning (.erealloc base (some a)) x ≠ none
    rw [hmeaning, Finset.mem_insert, Finset.mem_erase, hi.live]
    by_cases hxa : x = a
    · simp [hxa]
    · by_cases hxb : x = base
      · subst hxb
        simp [hxa]
      · simp [hxa, hxb]
  · intro x hx
    show Function.update s.heap.sig a (s.heap.sig base) x = memSig
    by_cases hxa : x = a
    · rw [hxa, Function.update_self]
      exact hold.sig base hbl
    · rw [Function.update_of_ne hxa]
      exact hi.sig x (Finset.mem_of_mem_erase ((Finset.mem_insert.1 hx).resolve_left hxa))
  · intro x c' hx
    have hx' : s.meaning (.erealloc base (some a)) x = some c' := hx
    rw [hmeaning] at hx'
    show c' < s.chains + 0
    split at hx'
    · cases hx'
      exact hi.fresh base c hc
    · split at hx'
      · cases hx'
      · exact hi.fresh x c' hx'

/-- **`efree_all`** empties one chain. -/
theorem ArenaInv.efreeAll (hi : ArenaInv s L) {a : Nat} (ha : s.chainOf a ≠ none) :
    Leads s (.efreeAll a) := by
  obtain ⟨c, xs, ys, hc, hl, hold⟩ := hi.at_block ha
  have hcall : s.heap.call (.efreeAll a)
      = some (none, { s.heap with live := s.heap.live \ (xs ++ a :: ys).toFinset }) := by
    show (RedisAgent.efreeAll s.heap a).map _ = _
    rw [efreeAll_spec hold]
    rfl
  have hmeaning : ∀ x, s.meaning (.efreeAll a) x = if s.chainOf x = some c then none else s.chainOf x := by
    intro x
    show (if s.chainOf x = s.chainOf a then none else s.chainOf x) = _
    rw [hc]
  refine ⟨_, _, hcall, Function.update L c [], ?_⟩
  refine hi.edit (m := []) trivial List.nodup_nil (SameOff.refl _ _)
    (fun _ hx => absurd hx List.not_mem_nil) ?_ ?_ ?_ ?_ ?_
  · intro x
    show x ∈ [] ↔ s.meaning (.efreeAll a) x = some c
    rw [hmeaning]
    refine iff_of_false List.not_mem_nil ?_
    split
    · exact fun hn => by cases hn
    · assumption
  · intro c' hc' x
    show s.meaning (.efreeAll a) x = some c' ↔ _
    rw [hmeaning]
    split
    · rename_i hx
      rw [hx]
      exact iff_of_false (fun hn => by cases hn) (fun h1 => hc' (Option.some.inj h1).symm)
    · exact Iff.rfl
  · intro x
    show x ∈ s.heap.live \ (xs ++ a :: ys).toFinset ↔ s.meaning (.efreeAll a) x ≠ none
    rw [hmeaning, Finset.mem_sdiff, List.mem_toFinset, ← hl, hi.mem, hi.live]
    by_cases hx : s.chainOf x = some c
    · simp [hx]
    · simp [hx]
  · intro x hx
    exact hi.sig x (Finset.mem_sdiff.1 hx).1
  · intro x c' hx
    have hx' : s.meaning (.efreeAll a) x = some c' := hx
    rw [hmeaning] at hx'
    split at hx'
    · cases hx'
    · exact hi.fresh x c' hx'

/-! ## §5. Runs. -/

/-- A call in which the allocator fails. -/
def MemOp.Fails : MemOp → Prop
  | .efree _ => False
  | .efreeAll _ => False
  | op => op.new = none

/-- **A failed call** returns `NULL` and changes nothing. -/
theorem ArenaInv.fails (hi : ArenaInv s L) {op : MemOp} (hen : s.Enabled op) (hf : op.Fails) :
    s.heap.call op = some (none, s.heap) ∧ s.meaning op = s.chainOf ∧ op.starts = 0 := by
  have hassert : ∀ b, s.chainOf b ≠ none → s.heap.assertSig b = some () := by
    intro b hb
    have hlive := (hi.live b).2 hb
    exact if_pos ⟨hlive, hi.sig b hlive⟩
  cases op with
  | emallocNew new =>
      obtain rfl : new = none := Option.map_eq_none_iff.1 hf
      exact ⟨rfl, rfl, rfl⟩
  | ecallocNew new =>
      obtain rfl : new = none := hf
      exact ⟨rfl, rfl, rfl⟩
  | emalloc base new =>
      obtain rfl : new = none := Option.map_eq_none_iff.1 hf
      refine ⟨?_, rfl, rfl⟩
      show RedisAgent.emalloc s.heap base none = _
      unfold RedisAgent.emalloc
      rw [hassert base (hen.1 base rfl)]
      rfl
  | ecalloc base new =>
      obtain rfl : new = none := hf
      refine ⟨?_, rfl, rfl⟩
      show RedisAgent.emalloc s.heap base none = _
      unfold RedisAgent.emalloc
      rw [hassert base (hen.1 base rfl)]
      rfl
  | erealloc base new =>
      obtain rfl : new = none := hf
      refine ⟨?_, rfl, rfl⟩
      show RedisAgent.erealloc s.heap base none = _
      unfold RedisAgent.erealloc
      rw [hassert base (hen.1 base rfl)]
      rfl
  | efree mem => exact hf.elim
  | efreeAll mem => exact hf.elim

/-- **Every enabled call** has a result, and keeps the chains. -/
theorem ArenaInv.leads (hi : ArenaInv s L) {op : MemOp} (hen : s.Enabled op) : Leads s op := by
  have hnone : op.Fails → Leads s op := by
    intro hf
    obtain ⟨hcall, hmeaning, hstarts⟩ := hi.fails hen hf
    refine ⟨none, s.heap, hcall, L, ?_⟩
    rw [hmeaning, hstarts]
    exact hi
  cases op with
  | emallocNew new =>
      cases new with
      | none => exact hnone rfl
      | some new =>
          refine hi.emallocNew new.2 ((hen.2 new.1 rfl).resolve_right ?_)
          rintro ⟨b, he, -⟩
          cases he
  | ecallocNew new =>
      cases new with
      | none => exact hnone rfl
      | some a =>
          refine hi.emallocNew zeroPre ((hen.2 a rfl).resolve_right ?_)
          rintro ⟨b, he, -⟩
          cases he
  | emalloc base new =>
      cases new with
      | none => exact hnone rfl
      | some new =>
          refine hi.emalloc new.2 (hen.1 base rfl) ((hen.2 new.1 rfl).resolve_right ?_)
          rintro ⟨b, he, -⟩
          cases he
  | ecalloc base new =>
      cases new with
      | none => exact hnone rfl
      | some a =>
          refine hi.emalloc zeroPre (hen.1 base rfl) ((hen.2 a rfl).resolve_right ?_)
          rintro ⟨b, he, -⟩
          cases he
  | erealloc base new =>
      cases new with
      | none => exact hnone rfl
      | some a =>
          refine hi.erealloc (hen.1 base rfl) ((hen.2 a rfl).imp_right ?_)
          rintro ⟨b, he, rfl⟩
          cases he
          rfl
  | efree mem => exact hi.efree (hen.1 mem rfl)
  | efreeAll mem => exact hi.efreeAll (hen.1 mem rfl)

/-- **Every reachable state** has its chains. -/
theorem ArenaInv.of_run {tr : List (ArenaState × MemOp)} {s : ArenaState}
    (h : arenaLts.Run tr s) : ∃ L, ArenaInv s L := by
  induction h with
  | init hinit =>
      rename_i s₀
      obtain ⟨hlive, hchain⟩ := hinit
      refine ⟨fun _ => [], fun _ => trivial, fun _ => List.nodup_nil, ?_, ?_, ?_, ?_⟩
      · intro c a
        rw [hchain]
        simp
      · intro a
        rw [hlive, hchain]
        simp
      · intro a ha
        rw [hlive] at ha
        exact absurd ha (Finset.notMem_empty a)
      · intro a c ha
        rw [hchain] at ha
        cases ha
  | step hrun hstep ih =>
      obtain ⟨L, hi⟩ := ih
      obtain ⟨hen, ret, hcall, hmeaning, hchains⟩ := hstep
      obtain ⟨ret', h', hcall', L', hi'⟩ := hi.leads hen
      rw [hcall] at hcall'
      cases hcall'
      refine ⟨L', ?_⟩
      rw [← hmeaning, ← hchains] at hi'
      exact hi'

/-- **The arena as its callers see it.** -/
structure ArenaExact (s : ArenaState) : Prop where
  live : ∀ a, a ∈ s.heap.live ↔ s.chainOf a ≠ none
  reached : ∀ b c, s.chainOf b = some c → ∃ before behind,
    Walk s.heap.links.prev (s.heap.links.prev b) before
      ∧ Walk s.heap.links.next (s.heap.links.next b) behind
      ∧ (b :: before ++ behind).Nodup ∧ ∀ x, x ∈ b :: before ++ behind ↔ s.chainOf x = some c
  linked : ∀ x ∈ s.heap.live, ∀ y,
    (s.heap.links.next x = some y → y ∈ s.heap.live ∧ s.heap.links.prev y = some x)
      ∧ (s.heap.links.prev x = some y → y ∈ s.heap.live ∧ s.heap.links.next y = some x)
  answered : ∀ op, s.Enabled op → s.heap.call op ≠ none
  failed : ∀ op, s.Enabled op → op.Fails → s.heap.call op = some (none, s.heap)
  freedAll : ∀ b c, s.chainOf b = some c → ∃ freed,
    efreeAll s.heap b = some (freed, { s.heap with live := s.heap.live \ freed.toFinset })
      ∧ freed.Nodup ∧ ∀ x, x ∈ freed ↔ s.chainOf x = some c

/-- The neighbours of a block point back at it. -/
theorem HoldsChain.linked {xs ys : List Nat} {a : Nat} (hl : HoldsChain h (xs ++ a :: ys)) (y : Nat) :
    (h.links.next a = some y → y ∈ h.live ∧ h.links.prev y = some a)
      ∧ (h.links.prev a = some y → y ∈ h.live ∧ h.links.next y = some a) := by
  obtain ⟨hp, hn⟩ := (hl.chain.isQueue hl.nodup).at_middle
  obtain ⟨hx, -, -, hy⟩ := (chain_append h.links (a :: ys) none xs none).1 hl.chain
  refine ⟨?_, ?_⟩
  · intro hnext
    refine ⟨hl.neighbours.2 y hnext, ?_⟩
    rw [hn] at hnext
    obtain ⟨zs, rfl⟩ := List.head?_eq_some_iff.1 hnext
    exact hy.1
  · intro hprev
    refine ⟨hl.neighbours.1 y hprev, ?_⟩
    rw [hp] at hprev
    obtain ⟨zs, rfl⟩ := List.getLast?_eq_some_iff.1 hprev
    have hlast := ((chain_append h.links [y] _ zs none).1 hx).2
    exact hlast.2.1

/-- **Request-scoped arena.**  In every state of every run of calls on live blocks,
whichever allocations fail and wherever blocks are put: the blocks reached from a
live block are those of its request, each once, with links that agree; every call has
a result; one that fails changes nothing; and `efree_all` on any block frees exactly
the blocks of its request, each once. -/
theorem arena_chains_exact {tr : List (ArenaState × MemOp)} {s : ArenaState}
    (h : arenaLts.Run tr s) : ArenaExact s := by
  obtain ⟨L, hi⟩ := ArenaInv.of_run h
  refine ⟨hi.live, ?_, ?_, ?_, ?_, ?_⟩
  · intro b c hc
    obtain ⟨xs, ys, hl⟩ := List.append_of_mem ((hi.mem c b).2 hc)
    have hold : HoldsChain s.heap (xs ++ b :: ys) := hl ▸ hi.holds c
    obtain ⟨hprev, hnext⟩ := hold.chain.walks
    have hperm : (b :: xs.reverse ++ ys).Perm (xs ++ b :: ys) := by
      rw [List.cons_append]
      exact (((List.reverse_perm xs).append_right ys).cons b).trans List.perm_middle.symm
    refine ⟨xs.reverse, ys, hprev, hnext, hperm.nodup_iff.2 hold.nodup, ?_⟩
    intro x
    rw [hperm.mem_iff, ← hl, hi.mem]
  · intro x hx y
    obtain ⟨c, xs, ys, -, -, hold⟩ := hi.at_block ((hi.live x).1 hx)
    exact hold.linked y
  · intro op hen hnone
    obtain ⟨ret, h', hcall, -⟩ := hi.leads hen
    rw [hnone] at hcall
    cases hcall
  · exact fun op hen hf => (hi.fails hen hf).1
  · intro b c hc
    obtain ⟨xs, ys, hl⟩ := List.append_of_mem ((hi.mem c b).2 hc)
    have hold : HoldsChain s.heap (xs ++ b :: ys) := hl ▸ hi.holds c
    have hperm : (ys ++ xs.reverse ++ [b]).Perm (xs ++ b :: ys) := by
      refine List.perm_append_comm.trans ?_
      exact ((List.perm_append_comm.trans ((List.reverse_perm xs).append_right ys)).cons b).trans
        List.perm_middle.symm
    refine ⟨ys ++ xs.reverse ++ [b], ?_, hperm.nodup_iff.2 hold.nodup, ?_⟩
    · rw [efreeAll_spec hold, List.toFinset_eq_of_perm _ _ hperm]
    · intro x
      rw [hperm.mem_iff, ← hl, hi.mem]

/-- Nothing is allocated. -/
def arenaStart : ArenaState := ⟨⟨∅, null, fun _ => 0, fun _ => 0⟩, fun _ => none, 0⟩

/-- A request and its first block. -/
def arenaOne : ArenaState :=
  ⟨arenaStart.heap.afterNew 10 zeroPre, arenaStart.meaning (.ecallocNew (some 10)), 1⟩

/-- Another block for it. -/
def arenaTwo : ArenaState :=
  ⟨arenaOne.heap.afterEmalloc 10 20 zeroPre, arenaOne.meaning (.ecalloc 10 (some 20)), 1⟩

theorem arena_chains_exact_witness : ArenaExact arenaTwo := by
  have hone : arenaLts.step arenaStart (.ecallocNew (some 10)) arenaOne := by
    refine ⟨⟨nofun, ?_⟩, some 10, emallocNew_eq zeroPre, rfl, rfl⟩
    rintro a ⟨⟩
    exact Or.inl (Finset.notMem_empty 10)
  have htwo : arenaLts.step arenaOne (.ecalloc 10 (some 20)) arenaTwo := by
    refine ⟨⟨?_, ?_⟩, some 20, emalloc_eq zeroPre rfl (by decide) (by decide) (by decide), rfl, rfl⟩
    · rintro b ⟨⟩
      decide
    · rintro a ⟨⟩
      exact Or.inl (by decide)
  have hstart : arenaLts.Run [] arenaStart := .init ⟨rfl, rfl⟩
  exact arena_chains_exact ((hstart.step hone).step htwo)

end RedisAgent
