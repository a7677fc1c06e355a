/-
  RedisAgent.Event.Fifo — the list is a queue, whoever runs when.

  From `head` on there are nodes that hold a pair each, and then the placeholder
  (`Shape`).  A producer makes the placeholder a node by its one store to
  `is_placeholder`, after everything else it stores there, and the placeholder is the
  node it brought (`Holding`); the consumer only follows nodes that hold a pair.

  Main results:
    • `list_refines_fifo` — in every interleaving the consumer gets the pairs in the
      order of the lock, sees the list empty only when it is, and no statement
      reaches into a node that was freed.
-/
import RedisAgent.Event.Queue

namespace RedisAgent

/-! ## §1. The nodes from the head on. -/

/-- From `p` on: the nodes `l`, each with its pair, and then `last`. -/
def Path (nodes : Nat → Option TsListNode) : Option Nat → List (Nat × ListPair) → Nat → Prop
  | p, [], last => p = some last
  | p, (a, pair) :: l, last => p = some a
      ∧ ∃ n, nodes a = some n ∧ n.isPlaceholder = false ∧ (n.key, n.data) = pair
        ∧ Path nodes n.next l last

variable {nodes nodes' : Nat → Option TsListNode} {p : Option Nat} {l : List (Nat × ListPair)}
  {last : Nat}

/-- A path only reads its own nodes. -/
theorem Path.congr (h : Path nodes p l last) (hsame : ∀ a ∈ l.map Prod.fst, nodes' a = nodes a) :
    Path nodes' p l last := by
  induction l generalizing p with
  | nil => exact h
  | cons x l ih =>
      obtain ⟨a, pair⟩ := x
      obtain ⟨hp, n, hn, hflag, hpair, hrest⟩ := h
      have ha : nodes' a = nodes a := hsame a (by simp)
      exact ⟨hp, n, ha.trans hn, hflag, hpair, ih hrest (fun b hb => hsame b (by simp [hb]))⟩

/-- The last node takes a pair, and `newLast` is the last one now. -/
theorem Path.snoc {pair : ListPair} {newLast : Nat} {n : TsListNode} (h : Path nodes p l last)
    (hsame : ∀ a ∈ l.map Prod.fst, nodes' a = nodes a) (hn : nodes' last = some n)
    (hflag : n.isPlaceholder = false) (hpair : (n.key, n.data) = pair)
    (hnext : n.next = some newLast) : Path nodes' p (l ++ [(last, pair)]) newLast := by
  induction l generalizing p with
  | nil => exact ⟨h, n, hn, hflag, hpair, hnext⟩
  | cons x l ih =>
      obtain ⟨a, pair'⟩ := x
      obtain ⟨hp, n', hn', hflag', hpair', hrest⟩ := h
      have ha : nodes' a = nodes a := hsame a (by simp)
      exact ⟨hp, n', ha.trans hn', hflag', hpair',
        ih hrest (fun b hb => hsame b (by simp [hb]))⟩

/-- **The list**: a path to the placeholder, no node twice. -/
structure Shape (nodes : Nat → Option TsListNode) (head : Option Nat) (l : List (Nat × ListPair))
    (last : Nat) : Prop where
  path : Path nodes head l last
  placeholder : ∃ n, nodes last = some n ∧ n.isPlaceholder = true
  nodup : (last :: l.map Prod.fst).Nodup

theorem Shape.last_not_mem (h : Shape nodes p l last) : last ∉ l.map Prod.fst :=
  (List.nodup_cons.1 h.nodup).1

theorem Path.isSome (h : Path nodes p l last) {a : Nat} (ha : a ∈ l.map Prod.fst) :
    (nodes a).isSome := by
  induction l generalizing p with
  | nil => cases ha
  | cons x l ih =>
      obtain ⟨b, pair⟩ := x
      obtain ⟨-, n, hn, -, -, hrest⟩ := h
      rw [List.map_cons, List.mem_cons] at ha
      rcases ha with rfl | ha
      · show (nodes a).isSome
        rw [hn]
        rfl
      · exact ih hrest ha

/-- Every node of the list is allocated. -/
theorem Shape.isSome (h : Shape nodes p l last) {a : Nat} (ha : a ∈ last :: l.map Prod.fst) :
    (nodes a).isSome := by
  rcases List.mem_cons.1 ha with rfl | ha
  · obtain ⟨n, hn, -⟩ := h.placeholder
    rw [hn]
    rfl
  · exact h.path.isSome ha

/-- Writes to other nodes. -/
theorem Shape.congr (h : Shape nodes p l last)
    (hsame : ∀ a ∈ last :: l.map Prod.fst, nodes' a = nodes a) : Shape nodes' p l last := by
  refine ⟨h.path.congr (fun a ha => hsame a (List.mem_cons_of_mem _ ha)), ?_, h.nodup⟩
  rw [hsame last List.mem_cons_self]
  exact h.placeholder

/-- A node that is not in the list is written. -/
theorem Shape.store_off (h : Shape nodes p l last) {a : Nat} (ha : a ∉ last :: l.map Prod.fst)
    (v : Option TsListNode) : Shape (Function.update nodes a v) p l last := by
  refine h.congr (fun b hb => Function.update_of_ne ?_ _ _)
  rintro rfl
  exact ha hb

/-- The placeholder is written, and stays one. -/
theorem Shape.store_last (h : Shape nodes p l last) {n : TsListNode} (hn : n.isPlaceholder = true) :
    Shape (Function.update nodes last (some n)) p l last := by
  refine ⟨h.path.congr ?_, ⟨n, Function.update_self _ _ _, hn⟩, h.nodup⟩
  intro b hb
  refine Function.update_of_ne ?_ _ _
  rintro rfl
  exact h.last_not_mem hb

/-- **The flip**: the placeholder becomes a node, its successor the placeholder. -/
theorem Shape.flip (h : Shape nodes p l last) {n n' : TsListNode} {newLast : Nat}
    (hn : nodes last = some n) (hnext : n.next = some newLast)
    (hnew : newLast ∉ last :: l.map Prod.fst) (hn' : nodes newLast = some n')
    (hflag' : n'.isPlaceholder = true) :
    Shape (Function.update nodes last (some { n with isPlaceholder := false })) p
      (l ++ [(last, (n.key, n.data))]) newLast := by
  have hne : newLast ≠ last := fun he => hnew (he ▸ List.mem_cons_self)
  refine ⟨h.path.snoc ?_ (Function.update_self _ _ _) rfl rfl hnext,
    ⟨n', (Function.update_of_ne hne _ _).trans hn', hflag'⟩, ?_⟩
  · intro b hb
    refine Function.update_of_ne ?_ _ _
    rintro rfl
    exact h.last_not_mem hb
  · rw [List.map_append, List.map_singleton]
    have hperm : (newLast :: (l.map Prod.fst ++ [last])).Perm
        (newLast :: last :: l.map Prod.fst) :=
      (List.perm_append_singleton last _).cons newLast
    exact hperm.nodup_iff.2 (List.nodup_cons.2 ⟨hnew, h.nodup⟩)

/-- The first node, and the list without it. -/
theorem Shape.pop {a : Nat} {pair : ListPair} (h : Shape nodes p ((a, pair) :: l) last) :
    ∃ n, nodes a = some n ∧ n.isPlaceholder = false ∧ (n.key, n.data) = pair
      ∧ Shape nodes n.next l last ∧ a ∉ last :: l.map Prod.fst := by
  obtain ⟨-, n, hn, hflag, hpair, hrest⟩ := h.path
  have hnd := h.nodup
  rw [List.map_cons] at hnd
  obtain ⟨ha, hnd'⟩ := List.nodup_cons.1 ((List.Perm.swap _ _ _).nodup_iff.1 hnd)
  exact ⟨n, hn, hflag, hpair, ⟨hrest, h.placeholder, hnd'⟩, ha⟩

/-! ## §2. The threads. -/

/-- How far a call of `list_produce` is. -/
def ProduceStmt.rank : ProduceStmt → Nat
  | .lock => 0
  | .readTail => 1
  | .setKey => 2
  | .setData => 3
  | .setNext => 4
  | .newNext => 5
  | .newPlaceholder => 6
  | .flip => 7
  | .setTail => 8
  | .unlock => 9

/-- Its new node is not in the list yet. -/
def ProduceCall.Unlinked (c : ProduceCall) : Prop := c.stmt.rank ≤ 7

/-- **The producer that holds the lock**: what it has stored so far. -/
structure Holding (nodes : Nat → Option TsListNode) (tail last : Nat) (c : ProduceCall) : Prop where
  locked : 1 ≤ c.stmt.rank
  tail : c.stmt.rank ≠ 8 → tail = last
  cur : 2 ≤ c.stmt.rank → c.Unlinked → c.curTail = last
  key : 3 ≤ c.stmt.rank → c.Unlinked → ∀ n, nodes last = some n → n.key = c.key
  data : 4 ≤ c.stmt.rank → c.Unlinked → ∀ n, nodes last = some n → n.data = c.data
  next : 5 ≤ c.stmt.rank → c.Unlinked → ∀ n, nodes last = some n → n.next = some c.newTail
  flag : 7 ≤ c.stmt.rank → c.Unlinked → ∀ n, nodes c.newTail = some n → n.isPlaceholder = true
  linked : ¬ c.Unlinked → c.newTail = last

/-- **The consumer**: the node in its hand is the first of the list, until it is taken
off. -/
def Consuming (nodes : Nat → Option TsListNode) (l : List (Nat × ListPair)) (last : Nat)
    (c : ConsumeCall) : Prop :=
  match c.stmt with
  | .check => True
  | .readHead => l ≠ []
  | .readKey => ∃ pair l', l = (c.node, pair) :: l'
  | .readData => ∃ pair l', l = (c.node, pair) :: l' ∧ c.key = pair.1
  | .setHead => ∃ l', l = (c.node, (c.key, c.data)) :: l'
  | .free => (nodes c.node).isSome ∧ c.node ∉ last :: l.map Prod.fst
  | .ret => True

/-- The pair the consumer has taken off and not returned. -/
def ConsumeCall.inHand (c : ConsumeCall) : List ListPair :=
  match c.stmt with
  | .free => [(c.key, c.data)]
  | .ret => [(c.key, c.data)]
  | _ => []

/-- The call that holds the lock. -/
def TsList.holder (s : TsList) : Option ProduceCall := s.wlock.bind s.producers

/-- The pair of a producer that holds the lock, while it is not in the list. -/
def ProduceCall.pending (c : ProduceCall) : List ListPair :=
  if c.stmt.rank ≤ 7 then [(c.key, c.data)] else []

/-- **The invariant**: the list is `l` with the placeholder `last`. -/
structure QueueInv (s : TsList) (l : List (Nat × ListPair)) (last : Nat) : Prop where
  shape : Shape s.nodes s.head l last
  fresh : ∀ p c, s.producers p = some c → c.Unlinked →
    (s.nodes c.newTail).isSome ∧ c.newTail ∉ last :: l.map Prod.fst
      ∧ (s.consumer.stmt = .free → c.newTail ≠ s.consumer.node)
  apart : ∀ p p' c c', p ≠ p' → s.producers p = some c → s.producers p' = some c' →
    c.Unlinked → c'.Unlinked → c.newTail ≠ c'.newTail
  waiting : ∀ p c, s.producers p = some c → s.wlock ≠ some p → c.stmt = .lock
  held : ∀ p, s.wlock = some p → ∃ c, s.producers p = some c ∧ Holding s.nodes s.tail last c
  idle : s.wlock = none → s.tail = last
  consuming : Consuming s.nodes l last s.consumer
  produced : s.produced = s.consumed ++ s.consumer.inHand ++ l.map Prod.snd
    ++ (s.holder.map ProduceCall.pending).getD []
  finished : s.produced = s.finished ++ (s.holder.map (fun c => [(c.key, c.data)])).getD []

variable {s : TsList} {q : Nat} {c c' : ProduceCall}

theorem Consuming.mono {k : ConsumeCall} (h : Consuming nodes l last k)
    (hsome : ∀ a, (nodes a).isSome → (nodes' a).isSome) : Consuming nodes' l last k := by
  unfold Consuming at h ⊢
  split at h
  all_goals try exact h
  exact ⟨hsome _ h.1, h.2⟩

/-- The lock is held by `q`. -/
theorem QueueInv.wlock_of (h : QueueInv s l last) (hq : s.producers q = some c)
    (hstmt : c.stmt ≠ .lock) : s.wlock = some q := by
  by_contra hne
  exact hstmt (h.waiting q c hq hne)

theorem QueueInv.holding (h : QueueInv s l last) (hq : s.producers q = some c)
    (hlock : s.wlock = some q) : Holding s.nodes s.tail last c := by
  obtain ⟨c₀, hc₀, hold⟩ := h.held q hlock
  rw [hq] at hc₀
  cases hc₀
  exact hold

theorem TsList.holder_eq (hq : s.producers q = some c) (hlock : s.wlock = some q) :
    s.holder = some c := by
  unfold TsList.holder
  rw [hlock]
  exact hq

/-- Writes to other nodes are nothing to the holder. -/
theorem Holding.congr {tail : Nat} (h : Holding nodes tail last c) (hlast : nodes' last = nodes last)
    (hnew : c.Unlinked → nodes' c.newTail = nodes c.newTail) : Holding nodes' tail last c := by
  refine ⟨h.locked, h.tail, h.cur, ?_, ?_, ?_, ?_, h.linked⟩
  · rw [hlast]
    exact h.key
  · rw [hlast]
    exact h.data
  · rw [hlast]
    exact h.next
  · intro h7 hun
    rw [hnew hun]
    exact h.flag h7 hun

/-- **The holder of the lock goes on**, and the list stays as it is. -/
theorem QueueInv.advance (h : QueueInv s l last) (hq : s.producers q = some c)
    (hlock : s.wlock = some q) (c' : ProduceCall) (nodes' : Nat → Option TsListNode) (tail' : Nat)
    (hkey : c'.key = c.key) (hdata : c'.data = c.data) (hnew : c'.newTail = c.newTail)
    (hrank : c'.stmt.rank ≤ 7 ↔ c.stmt.rank ≤ 7)
    (hshape : Shape nodes' s.head l last) (hsome : ∀ a, (s.nodes a).isSome → (nodes' a).isSome)
    (hold : Holding nodes' tail' last c') :
    QueueInv { s with
      nodes := nodes'
      tail := tail'
      producers := Function.update s.producers q (some c') } l last := by
  have hproc : ∀ q' c₁, Function.update s.producers q (some c') q' = some c₁ →
      ∃ c₀, s.producers q' = some c₀ ∧ c₁.newTail = c₀.newTail
        ∧ (c₁.Unlinked → c₀.Unlinked) ∧ (q' ≠ q → c₁ = c₀) := by
    intro q' c₁ h1
    by_cases hqq : q' = q
    · subst hqq
      rw [Function.update_self] at h1
      cases h1
      exact ⟨c, hq, hnew, hrank.1, fun hne => absurd rfl hne⟩
    · rw [Function.update_of_ne hqq] at h1
      exact ⟨c₁, h1, rfl, id, fun _ => rfl⟩
  have hholder : ({ s with
      nodes := nodes'
      tail := tail'
      producers := Function.update s.producers q (some c') } : TsList).holder = some c' :=
    TsList.holder_eq (Function.update_self _ _ _) hlock
  have hpending : c'.pending = c.pending := by
    unfold ProduceCall.pending
    rw [hkey, hdata]
    by_cases hle : c.stmt.rank ≤ 7
    · rw [if_pos hle, if_pos (hrank.2 hle)]
    · rw [if_neg hle, if_neg (fun h1 => hle (hrank.1 h1))]
  refine ⟨hshape, ?_, ?_, ?_, ?_, ?_, h.consuming.mono hsome, ?_, ?_⟩
  · intro q' c₁ h1 hun
    obtain ⟨c₀, h0, hnt, hun', -⟩ := hproc q' c₁ h1
    obtain ⟨ha, hb, hc⟩ := h.fresh q' c₀ h0 (hun' hun)
    rw [hnt]
    exact ⟨hsome _ ha, hb, hc⟩
  · intro q₁ q₂ c₁ c₂ hne h1 h2 hu1 hu2
    obtain ⟨d₁, hd1, hnt1, hun1, -⟩ := hproc q₁ c₁ h1
    obtain ⟨d₂, hd2, hnt2, hun2, -⟩ := hproc q₂ c₂ h2
    rw [hnt1, hnt2]
    exact h.apart q₁ q₂ d₁ d₂ hne hd1 hd2 (hun1 hu1) (hun2 hu2)
  · intro q' c₁ h1 hw
    have hqq : q' ≠ q := by
      rintro rfl
      exact hw hlock
    obtain ⟨c₀, h0, -, -, hsame⟩ := hproc q' c₁ h1
    rw [hsame hqq]
    exact h.waiting q' c₀ h0 hw
  · intro q' hw
    have hqq : q' = q := Option.some.inj (hw.symm.trans hlock)
    subst hqq
    exact ⟨c', Function.update_self _ _ _, hold⟩
  · intro hw
    have hw' : s.wlock = none := hw
    rw [hlock] at hw'
    cases hw'
  · rw [hholder]
    show s.produced = s.consumed ++ s.consumer.inHand ++ l.map Prod.snd ++ c'.pending
    rw [hpending, h.produced, TsList.holder_eq hq hlock]
    rfl
  · rw [hholder]
    show s.produced = s.finished ++ [(c'.key, c'.data)]
    rw [hkey, hdata, h.finished, TsList.holder_eq hq hlock]
    rfl

/-! ## §3. The statements of a producer. -/

/-- A step has a result, and there is a list again. -/
def Goes (s : TsList) (op : ListOp) : Prop :=
  ∃ s', s.exec op = some s' ∧ ∃ l last, QueueInv s' l last

theorem forall_update_self {a : Nat} {v : TsListNode} {P : TsListNode → Prop} (hv : P v) :
    ∀ n, Function.update nodes a (some v) a = some n → P n := by
  intro n hn
  rw [Function.update_self] at hn
  cases hn
  exact hv

theorem isSome_update {a : Nat} {v : TsListNode} (b : Nat) (hb : (nodes b).isSome) :
    (Function.update nodes a (some v) b).isSome := by
  by_cases hba : b = a
  · subst hba
    rw [Function.update_self]
    rfl
  · rw [Function.update_of_ne hba]
    exact hb

theorem TsList.exec_produce (hq : s.producers q = some c) : s.exec (.produce q) = s.produce q c := by
  show (s.producers q).bind (fun c => s.produce q c) = _
  rw [hq]
  rfl

/-- A store that goes through. -/
theorem TsList.store_some {a : Nat} {n : TsListNode} {f : TsListNode → TsListNode}
    (hn : s.nodes a = some n) :
    s.store a f = some { s with nodes := Function.update s.nodes a (some (f n)) } := by
  unfold TsList.store
  rw [hn]
  rfl

/-- **Stores to the placeholder** before the flip. -/
theorem QueueInv.storeLast (h : QueueInv s l last) (hq : s.producers q = some c)
    (f : TsListNode → TsListNode) (stmt : ProduceStmt) (hflag : ∀ n, (f n).isPlaceholder = n.isPlaceholder)
    (hlow : 2 ≤ c.stmt.rank) (hhigh : c.stmt.rank ≤ 4) (hrank : stmt.rank = c.stmt.rank + 1)
    (hkey : ∀ n, (3 ≤ c.stmt.rank → n.key = c.key) → (f n).key = c.key)
    (hdata : ∀ n, 4 ≤ stmt.rank → (4 ≤ c.stmt.rank → n.data = c.data) → (f n).data = c.data)
    (hnext : ∀ n, 5 ≤ stmt.rank → (f n).next = some c.newTail)
    (hexec : s.exec (.produce q) = (s.store c.curTail f).map (fun s => s.goto q c stmt)) :
    Goes s (.produce q) := by
  have hlock : s.wlock = some q := by
    refine h.wlock_of hq ?_
    intro he
    rw [he] at hlow
    exact absurd hlow (by decide)
  have hold := h.holding hq hlock
  have hun : c.Unlinked := Nat.le_trans hhigh (by decide)
  obtain ⟨n, hn, hplace⟩ := h.shape.placeholder
  have hcur : c.curTail = last := hold.cur hlow hun
  rw [hcur, TsList.store_some hn, Option.map_some] at hexec
  refine ⟨_, hexec, l, last, ?_⟩
  refine h.advance hq hlock { c with stmt := stmt }
    (Function.update s.nodes last (some (f n))) s.tail rfl rfl rfl
    (iff_of_true (by show stmt.rank ≤ 7; omega) hun)
    (h.shape.store_last ((hflag n).trans hplace)) (fun b hb => isSome_update b hb) ?_
  refine ⟨?_, ?_, fun _ _ => hcur, ?_, ?_, ?_, ?_, ?_⟩
  · show 1 ≤ stmt.rank
    omega
  · exact fun _ => hold.tail (by omega)
  · intro _ _
    exact forall_update_self (hkey n (fun h3 => hold.key h3 hun n hn))
  · intro h4 _
    exact forall_update_self (hdata n h4 (fun h4' => hold.data h4' hun n hn))
  · intro h5 _
    exact forall_update_self (hnext n h5)
  · intro h7
    have h7' : 7 ≤ stmt.rank := h7
    omega
  · intro hnot
    exact absurd (show stmt.rank ≤ 7 by omega) hnot

/-- **Stores to the new node.** -/
theorem QueueInv.storeNew (h : QueueInv s l last) (hq : s.producers q = some c)
    (f : TsListNode → TsListNode) (stmt : ProduceStmt) (hlow : 5 ≤ c.stmt.rank)
    (hhigh : c.stmt.rank ≤ 6) (hrank : stmt.rank = c.stmt.rank + 1)
    (hflag : ∀ n, 7 ≤ stmt.rank → (f n).isPlaceholder = true)
    (hexec : s.exec (.produce q) = (s.store c.newTail f).map (fun s => s.goto q c stmt)) :
    Goes s (.produce q) := by
  have hlock : s.wlock = some q := by
    refine h.wlock_of hq ?_
    intro he
    rw [he] at hlow
    exact absurd hlow (by decide)
  have hold := h.holding hq hlock
  have hun : c.Unlinked := Nat.le_trans hhigh (by decide)
  obtain ⟨hsome, hoff, -⟩ := h.fresh q c hq hun
  obtain ⟨n, hn⟩ := Option.isSome_iff_exists.1 hsome
  have hne : last ≠ c.newTail := fun he => hoff (he ▸ List.mem_cons_self)
  have hlast : Function.update s.nodes c.newTail (some (f n)) last = s.nodes last :=
    Function.update_of_ne hne _ _
  rw [TsList.store_some hn, Option.map_some] at hexec
  refine ⟨_, hexec, l, last, ?_⟩
  refine h.advance hq hlock { c with stmt := stmt }
    (Function.update s.nodes c.newTail (some (f n))) s.tail rfl rfl rfl
    (iff_of_true (by show stmt.rank ≤ 7; omega) hun)
    (h.shape.store_off hoff _) (fun b hb => isSome_update b hb) ?_
  refine ⟨?_, ?_, fun _ _ => hold.cur (by omega) hun, ?_, ?_, ?_, ?_, ?_⟩
  · show 1 ≤ stmt.rank
    omega
  · exact fun _ => hold.tail (by omega)
  · intro _ _
    rw [hlast]
    exact hold.key (by omega) hun
  · intro _ _
    rw [hlast]
    exact hold.data (by omega) hun
  · intro _ _
    rw [hlast]
    exact hold.next (by omega) hun
  · intro h7 _
    exact forall_update_self (hflag n h7)
  · intro hnot
    exact absurd (show stmt.rank ≤ 7 by omega) hnot

/-- **Taking the lock.** -/
theorem QueueInv.lock (h : QueueInv s l last) (hq : s.producers q = some c)
    (hstmt : c.stmt = .lock) (hfree : s.wlock = none) : Goes s (.produce q) := by
  have hexec : s.exec (.produce q) = some ({ s with
      wlock := some q
      produced := s.produced ++ [(c.key, c.data)] }.goto q c .readTail) := by
    rw [TsList.exec_produce hq]
    unfold TsList.produce
    rw [hstmt]
  have hnone : s.holder = none := by
    unfold TsList.holder
    rw [hfree]
    rfl
  have hproc : ∀ q' c₁, Function.update s.producers q (some { c with stmt := .readTail }) q' = some c₁ →
      ∃ c₀, s.producers q' = some c₀ ∧ c₁.newTail = c₀.newTail ∧ (c₁.Unlinked → c₀.Unlinked)
        ∧ (q' ≠ q → c₁ = c₀) := by
    intro q' c₁ h1
    by_cases hqq : q' = q
    · subst hqq
      rw [Function.update_self] at h1
      cases h1
      refine ⟨c, hq, rfl, fun _ => ?_, fun hne => absurd rfl hne⟩
      show c.stmt.rank ≤ 7
      rw [hstmt]
      decide
    · rw [Function.update_of_ne hqq] at h1
      exact ⟨c₁, h1, rfl, id, fun _ => rfl⟩
  refine ⟨_, hexec, l, last, ?_⟩
  refine ⟨h.shape, ?_, ?_, ?_, ?_, fun hx => (by cases hx), h.consuming, ?_, ?_⟩
  · intro q' c₁ h1 hun
    obtain ⟨c₀, h0, hnt, hun', -⟩ := hproc q' c₁ h1
    rw [hnt]
    exact h.fresh q' c₀ h0 (hun' hun)
  · intro q₁ q₂ c₁ c₂ hne h1 h2 hu1 hu2
    obtain ⟨d₁, hd1, hnt1, hun1, -⟩ := hproc q₁ c₁ h1
    obtain ⟨d₂, hd2, hnt2, hun2, -⟩ := hproc q₂ c₂ h2
    rw [hnt1, hnt2]
    exact h.apart q₁ q₂ d₁ d₂ hne hd1 hd2 (hun1 hu1) (hun2 hu2)
  · intro q' c₁ h1 hw
    have hqq : q' ≠ q := by
      rintro rfl
      exact hw rfl
    obtain ⟨c₀, h0, -, -, hsame⟩ := hproc q' c₁ h1
    rw [hsame hqq]
    refine h.waiting q' c₀ h0 ?_
    rw [hfree]
    exact fun hx => by cases hx
  · intro q' hw
    have hqq : q = q' := Option.some.inj hw
    subst hqq
    refine ⟨{ c with stmt := .readTail }, Function.update_self _ _ _, ?_⟩
    refine ⟨Nat.le_refl _, fun _ => h.idle hfree, ?_, ?_, ?_, ?_, ?_, ?_⟩
    · exact fun h1 => absurd h1 (show ¬ 2 ≤ 1 by decide)
    · exact fun h1 => absurd h1 (show ¬ 3 ≤ 1 by decide)
    · exact fun h1 => absurd h1 (show ¬ 4 ≤ 1 by decide)
    · exact fun h1 => absurd h1 (show ¬ 5 ≤ 1 by decide)
    · exact fun h1 => absurd h1 (show ¬ 7 ≤ 1 by decide)
    · exact fun hnot => absurd (show 1 ≤ 7 by decide) hnot
  · rw [TsList.holder_eq (c := { c with stmt := .readTail }) (Function.update_self _ _ _) rfl]
    show s.produced ++ [(c.key, c.data)]
      = s.consumed ++ s.consumer.inHand ++ l.map Prod.snd ++ [(c.key, c.data)]
    rw [h.produced, hnone]
    simp
  · rw [TsList.holder_eq (c := { c with stmt := .readTail }) (Function.update_self _ _ _) rfl]
    show s.produced ++ [(c.key, c.data)] = s.finished ++ [(c.key, c.data)]
    rw [h.finished, hnone]
    simp

/-- `cur_tail = ts_list.tail;` -/
theorem QueueInv.readTail (h : QueueInv s l last) (hq : s.producers q = some c)
    (hstmt : c.stmt = .readTail) : Goes s (.produce q) := by
  have hexec : s.exec (.produce q) = some (s.goto q { c with curTail := s.tail } .setKey) := by
    rw [TsList.exec_produce hq]
    unfold TsList.produce
    rw [hstmt]
  have hlock := h.wlock_of hq (by rw [hstmt]; decide)
  have hold := h.holding hq hlock
  have htail : s.tail = last := hold.tail (by rw [hstmt]; decide)
  refine ⟨_, hexec, l, last, ?_⟩
  refine h.advance hq hlock { c with curTail := s.tail, stmt := .setKey } s.nodes s.tail rfl rfl rfl
    (iff_of_true (show 2 ≤ 7 by decide) (by rw [hstmt]; decide)) h.shape (fun _ hb => hb) ?_
  refine ⟨show 1 ≤ 2 by decide, fun _ => htail, fun _ _ => htail, ?_, ?_, ?_, ?_, ?_⟩
  · exact fun h1 => absurd h1 (show ¬ 3 ≤ 2 by decide)
  · exact fun h1 => absurd h1 (show ¬ 4 ≤ 2 by decide)
  · exact fun h1 => absurd h1 (show ¬ 5 ≤ 2 by decide)
  · exact fun h1 => absurd h1 (show ¬ 7 ≤ 2 by decide)
  · exact fun hnot => absurd (show 2 ≤ 7 by decide) hnot

/-- `ts_list.tail = new_tail;` -/
theorem QueueInv.setTail (h : QueueInv s l last) (hq : s.producers q = some c)
    (hstmt : c.stmt = .setTail) : Goes s (.produce q) := by
  have hexec : s.exec (.produce q) = some ({ s with tail := c.newTail }.goto q c .unlock) := by
    rw [TsList.exec_produce hq]
    unfold TsList.produce
    rw [hstmt]
  have hlock := h.wlock_of hq (by rw [hstmt]; decide)
  have hun : ¬ c.Unlinked := by
    unfold ProduceCall.Unlinked
    rw [hstmt]
    decide
  have hnew : c.newTail = last := (h.holding hq hlock).linked hun
  have hpast : ∀ {P : Prop}, ProduceCall.Unlinked { c with stmt := .unlock } → P :=
    fun h1 => absurd h1 (show ¬ 9 ≤ 7 by decide)
  refine ⟨_, hexec, l, last, ?_⟩
  refine h.advance hq hlock { c with stmt := .unlock } s.nodes c.newTail rfl rfl rfl
    (iff_of_false (show ¬ 9 ≤ 7 by decide) hun) h.shape (fun _ hb => hb) ?_
  exact ⟨show 1 ≤ 9 by decide, fun _ => hnew, fun _ => hpast, fun _ => hpast, fun _ => hpast,
    fun _ => hpast, fun _ => hpast, fun _ => hnew⟩

/-- **The lock is given back.** -/
theorem QueueInv.unlock (h : QueueInv s l last) (hq : s.producers q = some c)
    (hstmt : c.stmt = .unlock) : Goes s (.produce q) := by
  have hexec : s.exec (.produce q) = some { s with
      wlock := none
      producers := Function.update s.producers q none
      finished := s.finished ++ [(c.key, c.data)] } := by
    rw [TsList.exec_produce hq]
    unfold TsList.produce
    rw [hstmt]
  have hlock := h.wlock_of hq (by rw [hstmt]; decide)
  have hold := h.holding hq hlock
  have hproc : ∀ q' c₁, Function.update s.producers q none q' = some c₁ →
      s.producers q' = some c₁ ∧ q' ≠ q := by
    intro q' c₁ h1
    by_cases hqq : q' = q
    · subst hqq
      rw [Function.update_self] at h1
      cases h1
    · rw [Function.update_of_ne hqq] at h1
      exact ⟨h1, hqq⟩
  have hpending : c.pending = [] := by
    unfold ProduceCall.pending
    rw [hstmt]
    rfl
  refine ⟨_, hexec, l, last, ?_⟩
  refine ⟨h.shape, ?_, ?_, ?_, nofun, ?_, h.consuming, ?_, ?_⟩
  · exact fun q' c₁ h1 hun => h.fresh q' c₁ (hproc q' c₁ h1).1 hun
  · exact fun q₁ q₂ c₁ c₂ hne h1 h2 => h.apart q₁ q₂ c₁ c₂ hne (hproc q₁ c₁ h1).1 (hproc q₂ c₂ h2).1
  · intro q' c₁ h1 _
    obtain ⟨h0, hqq⟩ := hproc q' c₁ h1
    refine h.waiting q' c₁ h0 ?_
    rw [hlock]
    exact fun he => hqq (Option.some.inj he).symm
  · exact fun _ => hold.tail (by rw [hstmt]; decide)
  · show s.produced = s.consumed ++ s.consumer.inHand ++ l.map Prod.snd ++ []
    rw [h.produced, TsList.holder_eq hq hlock, Option.map_some, Option.getD_some, hpending]
  · show s.produced = s.finished ++ [(c.key, c.data)] ++ []
    rw [h.finished, TsList.holder_eq hq hlock, List.append_nil]
    rfl

/-- A node behind the list is nothing to the consumer, unless it is the one in its
hand. -/
theorem Consuming.snoc {k : ConsumeCall} {pair : ListPair} {newLast : Nat}
    (h : Consuming nodes l last k) (hsome : ∀ a, (nodes a).isSome → (nodes' a).isSome)
    (hnew : k.stmt = .free → newLast ≠ k.node) :
    Consuming nodes' (l ++ [(last, pair)]) newLast k := by
  unfold Consuming at h ⊢
  split at h
  · trivial
  · exact fun he => h (List.append_eq_nil_iff.1 he).1
  · obtain ⟨pair', l', rfl⟩ := h
    exact ⟨pair', l' ++ [(last, pair)], rfl⟩
  · obtain ⟨pair', l', rfl, hkey⟩ := h
    exact ⟨pair', l' ++ [(last, pair)], rfl, hkey⟩
  · obtain ⟨l', rfl⟩ := h
    exact ⟨l' ++ [(last, pair)], rfl⟩
  · rename_i hstmt
    refine ⟨hsome _ h.1, ?_⟩
    intro hm
    rw [List.map_append, List.map_singleton, List.mem_cons, List.mem_append, List.mem_singleton] at hm
    rcases hm with he | hm | he
    · exact hnew hstmt he.symm
    · exact h.2 (List.mem_cons_of_mem _ hm)
    · exact h.2 (he ▸ List.mem_cons_self)
  · trivial

/-- **The flip**: `cur_tail->is_placeholder = false;` puts the pair into the list. -/
theorem QueueInv.flip (h : QueueInv s l last) (hq : s.producers q = some c)
    (hstmt : c.stmt = .flip) : Goes s (.produce q) := by
  have hexec : s.exec (.produce q)
      = (s.store c.curTail (fun n => { n with isPlaceholder := false })).map
          (fun s => s.goto q c .setTail) := by
    rw [TsList.exec_produce hq]
    unfold TsList.produce
    rw [hstmt]
  have hlock := h.wlock_of hq (by rw [hstmt]; decide)
  have hold := h.holding hq hlock
  have hrank : c.stmt.rank = 7 := by
    rw [hstmt]
    rfl
  have hun : c.Unlinked := Nat.le_of_eq hrank
  obtain ⟨n, hn, -⟩ := h.shape.placeholder
  obtain ⟨hsome, hoff, hhand⟩ := h.fresh q c hq hun
  obtain ⟨n', hn'⟩ := Option.isSome_iff_exists.1 hsome
  have hcur : c.curTail = last := hold.cur (by omega) hun
  have hpair : (n.key, n.data) = (c.key, c.data) := by
    rw [hold.key (by omega) hun n hn, hold.data (by omega) hun n hn]
  rw [hcur, TsList.store_some hn, Option.map_some] at hexec
  have hshape := h.shape.flip hn (hold.next (by omega) hun n hn) hoff hn'
    (hold.flag (by omega) hun n' hn')
  rw [hpair] at hshape
  have hpast : ∀ {P : Prop}, ProduceCall.Unlinked { c with stmt := .setTail } → P :=
    fun h1 => absurd h1 (show ¬ 8 ≤ 7 by decide)
  have hproc : ∀ q' c₁, Function.update s.producers q (some { c with stmt := .setTail }) q' = some c₁ →
      c₁.Unlinked → s.producers q' = some c₁ ∧ q' ≠ q := by
    intro q' c₁ h1 hun'
    by_cases hqq : q' = q
    · subst hqq
      rw [Function.update_self] at h1
      cases h1
      exact hpast hun'
    · rw [Function.update_of_ne hqq] at h1
      exact ⟨h1, hqq⟩
  refine ⟨_, hexec, l ++ [(last, (c.key, c.data))], c.newTail, ?_⟩
  refine ⟨hshape, ?_, ?_, ?_, ?_, ?_, ?_, ?_, ?_⟩
  · intro q' c₁ h1 hun'
    obtain ⟨h0, hqq⟩ := hproc q' c₁ h1 hun'
    obtain ⟨ha, hb, hc⟩ := h.fresh q' c₁ h0 hun'
    refine ⟨isSome_update _ ha, ?_, hc⟩
    rw [List.map_append, List.map_singleton, List.mem_cons, List.mem_append, List.mem_singleton]
    rintro (he | hm | he)
    · exact h.apart q' q c₁ c hqq h0 hq hun' hun he
    · exact hb (List.mem_cons_of_mem _ hm)
    · exact hb (he ▸ List.mem_cons_self)
  · intro q₁ q₂ c₁ c₂ hne h1 h2 hu1 hu2
    exact h.apart q₁ q₂ c₁ c₂ hne (hproc q₁ c₁ h1 hu1).1 (hproc q₂ c₂ h2 hu2).1 hu1 hu2
  · intro q' c₁ h1 hw
    have hqq : q' ≠ q := by
      rintro rfl
      exact hw hlock
    have h0 : Function.update s.producers q (some { c with stmt := .setTail }) q' = some c₁ := h1
    rw [Function.update_of_ne hqq] at h0
    exact h.waiting q' c₁ h0 hw
  · intro q' hw
    have hqq : q' = q := Option.some.inj (hw.symm.trans hlock)
    subst hqq
    refine ⟨{ c with stmt := .setTail }, Function.update_self _ _ _, ?_⟩
    exact ⟨show 1 ≤ 8 by decide, fun hne => absurd rfl hne, fun _ => hpast, fun _ => hpast,
      fun _ => hpast, fun _ => hpast, fun _ => hpast, fun _ => rfl⟩
  · intro hw
    have hw' : s.wlock = none := hw
    rw [hlock] at hw'
    cases hw'
  · exact h.consuming.snoc (fun b hb => isSome_update b hb) hhand
  · rw [TsList.holder_eq (c := { c with stmt := .setTail }) (by exact Function.update_self _ _ _)
      (by exact hlock)]
    show s.produced = s.consumed ++ s.consumer.inHand
      ++ (l ++ [(last, (c.key, c.data))]).map Prod.snd ++ []
    have hpending : c.pending = [(c.key, c.data)] := if_pos hun
    rw [h.produced, TsList.holder_eq hq hlock, Option.map_some, Option.getD_some, hpending]
    simp
  · rw [TsList.holder_eq (c := { c with stmt := .setTail }) (by exact Function.update_self _ _ _)
      (by exact hlock)]
    show s.produced = s.finished ++ [(c.key, c.data)]
    rw [h.finished, TsList.holder_eq hq hlock]
    rfl

/-- **A call of `list_produce`** brings a node that is nowhere yet. -/
theorem QueueInv.start (h : QueueInv s l last) {key : UInt64} {data a : Nat} (raw : TsListNode)
    (hq : s.producers q = none) (ha : s.nodes a = none) :
    Goes s (.start q key data (some (a, raw))) := by
  have hfresh : ∀ b, (s.nodes b).isSome → b ≠ a := by
    rintro b hb rfl
    rw [ha] at hb
    cases hb
  have hoff : a ∉ last :: l.map Prod.fst := fun hm => hfresh a (h.shape.isSome hm) rfl
  have hlock : s.wlock ≠ some q := by
    intro hw
    obtain ⟨c₀, h0, -⟩ := h.held q hw
    rw [hq] at h0
    cases h0
  have hproc : ∀ q' c₁, Function.update s.producers q (some ⟨key, data, a, a, .lock⟩) q' = some c₁ →
      (q' = q ∧ c₁ = ⟨key, data, a, a, .lock⟩) ∨ (q' ≠ q ∧ s.producers q' = some c₁) := by
    intro q' c₁ h1
    by_cases hqq : q' = q
    · subst hqq
      rw [Function.update_self] at h1
      cases h1
      exact Or.inl ⟨rfl, rfl⟩
    · rw [Function.update_of_ne hqq] at h1
      exact Or.inr ⟨hqq, h1⟩
  have hholder : ∀ s' : TsList, s'.wlock = s.wlock →
      s'.producers = Function.update s.producers q (some ⟨key, data, a, a, .lock⟩) →
      s'.holder = s.holder := by
    intro s' hw hp
    unfold TsList.holder
    rw [hw, hp]
    cases hwl : s.wlock with
    | none => rfl
    | some q' =>
        have hqq : q' ≠ q := by
          rintro rfl
          exact hlock hwl
        exact Function.update_of_ne hqq _ _
  refine ⟨_, rfl, l, last, ?_⟩
  refine ⟨h.shape.store_off hoff _, ?_, ?_, ?_, ?_, h.idle,
    h.consuming.mono (fun b hb => isSome_update b hb), ?_, ?_⟩
  · intro q' c₁ h1 hun
    rcases hproc q' c₁ h1 with ⟨-, rfl⟩ | ⟨-, h0⟩
    · refine ⟨?_, hoff, ?_⟩
      · show (Function.update s.nodes a (some raw) a).isSome
        rw [Function.update_self]
        rfl
      · intro hfree he
        have hcons := h.consuming
        unfold Consuming at hcons
        rw [hfree] at hcons
        exact hfresh _ hcons.1 he.symm
    · obtain ⟨hs, hb, hc⟩ := h.fresh q' c₁ h0 hun
      exact ⟨isSome_update _ hs, hb, hc⟩
  · intro q₁ q₂ c₁ c₂ hne h1 h2 hu1 hu2
    rcases hproc q₁ c₁ h1 with ⟨rfl, rfl⟩ | ⟨-, h01⟩
    · rcases hproc q₂ c₂ h2 with ⟨rfl, -⟩ | ⟨-, h02⟩
      · exact absurd rfl hne
      · exact (hfresh _ (h.fresh q₂ c₂ h02 hu2).1).symm
    · rcases hproc q₂ c₂ h2 with ⟨-, rfl⟩ | ⟨-, h02⟩
      · exact hfresh _ (h.fresh q₁ c₁ h01 hu1).1
      · exact h.apart q₁ q₂ c₁ c₂ hne h01 h02 hu1 hu2
  · intro q' c₁ h1 hw
    rcases hproc q' c₁ h1 with ⟨-, rfl⟩ | ⟨-, h0⟩
    · rfl
    · exact h.waiting q' c₁ h0 hw
  · intro q' hw
    have hqq : q' ≠ q := by
      rintro rfl
      exact hlock hw
    obtain ⟨c₀, h0, hold⟩ := h.held q' hw
    refine ⟨c₀, (Function.update_of_ne hqq _ _).trans h0, hold.congr ?_ ?_⟩
    · exact Function.update_of_ne (hfresh last (h.shape.isSome List.mem_cons_self)) _ _
    · exact fun hun => Function.update_of_ne (hfresh _ (h.fresh q' c₀ h0 hun).1) _ _
  · rw [hholder _ (by rfl) (by rfl)]
    exact h.produced
  · rw [hholder _ (by rfl) (by rfl)]
    exact h.finished

/-! ## §4. The statements of the consumer. -/

/-- **The consumer goes on**, and the producers' nodes stay as they are. -/
theorem QueueInv.consume (h : QueueInv s l last) (k : ConsumeCall)
    (nodes' : Nat → Option TsListNode) (head' : Option Nat) (consumed' : List ListPair)
    {l' : List (Nat × ListPair)} (hshape : Shape nodes' head' l' last)
    (hsub : ∀ a ∈ l'.map Prod.fst, a ∈ l.map Prod.fst) (hlast : nodes' last = s.nodes last)
    (hnew : ∀ p c, s.producers p = some c → c.Unlinked → nodes' c.newTail = s.nodes c.newTail)
    (hhand : k.stmt = .free → ∀ p c, s.producers p = some c → c.Unlinked → c.newTail ≠ k.node)
    (hcons : Consuming nodes' l' last k)
    (hpairs : consumed' ++ k.inHand ++ l'.map Prod.snd
      = s.consumed ++ s.consumer.inHand ++ l.map Prod.snd) :
    QueueInv { s with
      nodes := nodes'
      head := head'
      consumer := k
      consumed := consumed' } l' last := by
  refine ⟨hshape, ?_, h.apart, h.waiting, ?_, h.idle, hcons, ?_, h.finished⟩
  · intro p c hp hun
    obtain ⟨hs, hoff, -⟩ := h.fresh p c hp hun
    refine ⟨?_, ?_, fun hfree => hhand hfree p c hp hun⟩
    · show (nodes' c.newTail).isSome
      rw [hnew p c hp hun]
      exact hs
    · intro hm
      rcases List.mem_cons.1 hm with he | hm
      · exact hoff (he ▸ List.mem_cons_self)
      · exact hoff (List.mem_cons_of_mem _ (hsub _ hm))
  · intro p hw
    obtain ⟨c, hp, hold⟩ := h.held p hw
    exact ⟨c, hp, hold.congr hlast (hnew p c hp)⟩
  · show s.produced = consumed' ++ k.inHand ++ l'.map Prod.snd ++ _
    rw [hpairs]
    exact h.produced

/-- The consumer goes on and touches nothing. -/
theorem QueueInv.consumeRead (h : QueueInv s l last) {k : ConsumeCall} (hfree : k.stmt ≠ .free)
    (hcons : Consuming s.nodes l last k) {consumed' : List ListPair}
    (hpairs : consumed' ++ k.inHand = s.consumed ++ s.consumer.inHand) :
    QueueInv { s with consumer := k, consumed := consumed' } l last :=
  h.consume k s.nodes s.head consumed' h.shape (fun _ ha => ha) rfl (fun _ _ _ _ => rfl)
    (fun hf => absurd hf hfree) hcons (by rw [hpairs])

/-- **The test of the placeholder flag** tells whether the list is empty. -/
theorem Shape.head_flag (h : Shape nodes p l last) :
    ∃ n, p.bind nodes = some n ∧ (n.isPlaceholder = true ↔ l = []) := by
  cases l with
  | nil =>
      obtain ⟨n, hn, hflag⟩ := h.placeholder
      have hp : p = some last := h.path
      rw [hp]
      exact ⟨n, hn, iff_of_true hflag rfl⟩
  | cons x l =>
      obtain ⟨a, pair⟩ := x
      obtain ⟨hp, n, hn, hflag, -⟩ := h.path
      rw [hp]
      refine ⟨n, hn, iff_of_false ?_ (List.cons_ne_nil _ _)⟩
      rw [hflag]
      exact Bool.false_ne_true

theorem QueueInv.check (h : QueueInv s l last) (hstmt : s.consumer.stmt = .check) :
    Goes s .consume := by
  obtain ⟨n, hn, hempty⟩ := h.shape.head_flag
  have hexec : s.exec .consume = some
      (if n.isPlaceholder then s else { s with consumer := { s.consumer with stmt := .readHead } }) := by
    show s.consume = _
    unfold TsList.consume
    simp only [hstmt, hn, Option.map_some]
  have hhand : s.consumer.inHand = [] := by
    unfold ConsumeCall.inHand
    rw [hstmt]
  refine ⟨_, hexec, l, last, ?_⟩
  by_cases hflag : n.isPlaceholder = true
  · rw [if_pos hflag]
    exact h
  · rw [if_neg hflag]
    refine h.consumeRead (k := { s.consumer with stmt := .readHead }) nofun
      (fun hl => hflag (hempty.2 hl)) ?_
    rw [hhand]
    rfl

/-- The first node, while it is in the consumer's hand. -/
theorem QueueInv.readHead (h : QueueInv s l last) (hstmt : s.consumer.stmt = .readHead) :
    Goes s .consume := by
  have hcons := h.consuming
  unfold Consuming at hcons
  rw [hstmt] at hcons
  obtain ⟨⟨a, pair⟩, l', rfl⟩ := List.exists_cons_of_ne_nil hcons
  have hhead : s.head = some a := h.shape.path.1
  have hexec : s.exec .consume = some
      { s with consumer := { s.consumer with node := a, stmt := .readKey } } := by
    show s.consume = _
    unfold TsList.consume
    simp only [hstmt, hhead, Option.map_some]
  have hhand : s.consumer.inHand = [] := by
    unfold ConsumeCall.inHand
    rw [hstmt]
  refine ⟨_, hexec, (a, pair) :: l', last, ?_⟩
  refine h.consumeRead (k := { s.consumer with node := a, stmt := .readKey }) nofun ⟨pair, l', rfl⟩ ?_
  rw [hhand]
  rfl

theorem QueueInv.readKey (h : QueueInv s l last) (hstmt : s.consumer.stmt = .readKey) :
    Goes s .consume := by
  have hcons := h.consuming
  unfold Consuming at hcons
  rw [hstmt] at hcons
  obtain ⟨pair, l', rfl⟩ := hcons
  obtain ⟨n, hn, -, hpair, -⟩ := h.shape.pop
  have hexec : s.exec .consume = some
      { s with consumer := { s.consumer with key := n.key, stmt := .readData } } := by
    show s.consume = _
    unfold TsList.consume
    simp only [hstmt, hn, Option.map_some]
  have hhand : s.consumer.inHand = [] := by
    unfold ConsumeCall.inHand
    rw [hstmt]
  refine ⟨_, hexec, (s.consumer.node, pair) :: l', last, ?_⟩
  refine h.consumeRead (k := { s.consumer with key := n.key, stmt := .readData }) nofun
    ⟨pair, l', rfl, ?_⟩ ?_
  · rw [← hpair]
  · rw [hhand]
    rfl

theorem QueueInv.readData (h : QueueInv s l last) (hstmt : s.consumer.stmt = .readData) :
    Goes s .consume := by
  have hcons := h.consuming
  unfold Consuming at hcons
  rw [hstmt] at hcons
  obtain ⟨pair, l', rfl, hkey⟩ := hcons
  obtain ⟨n, hn, -, hpair, -⟩ := h.shape.pop
  have hexec : s.exec .consume = some
      { s with consumer := { s.consumer with data := n.data, stmt := .setHead } } := by
    show s.consume = _
    unfold TsList.consume
    simp only [hstmt, hn, Option.map_some]
  have hhand : s.consumer.inHand = [] := by
    unfold ConsumeCall.inHand
    rw [hstmt]
  refine ⟨_, hexec, (s.consumer.node, pair) :: l', last, ?_⟩
  refine h.consumeRead (k := { s.consumer with data := n.data, stmt := .setHead }) nofun ⟨l', ?_⟩ ?_
  · show (s.consumer.node, pair) :: l' = (s.consumer.node, (s.consumer.key, n.data)) :: l'
    rw [hkey, ← hpair]
  · rw [hhand]
    rfl

/-- **Taking the first node off.** -/
theorem QueueInv.setHead (h : QueueInv s l last) (hstmt : s.consumer.stmt = .setHead) :
    Goes s .consume := by
  have hcons := h.consuming
  unfold Consuming at hcons
  rw [hstmt] at hcons
  obtain ⟨l', rfl⟩ := hcons
  obtain ⟨n, hn, -, -, hshape, hoff⟩ := h.shape.pop
  have hexec : s.exec .consume = some
      { s with head := n.next, consumer := { s.consumer with stmt := .free } } := by
    show s.consume = _
    unfold TsList.consume
    simp only [hstmt, hn, Option.map_some]
  have hhand : s.consumer.inHand = [] := by
    unfold ConsumeCall.inHand
    rw [hstmt]
  refine ⟨_, hexec, l', last, ?_⟩
  refine h.consume { s.consumer with stmt := .free } s.nodes n.next s.consumed hshape (fun _ ha => List.mem_cons_of_mem _ ha) rfl (fun _ _ _ _ => rfl)
    ?_ ⟨?_, hoff⟩ ?_
  · intro _ p c hp hun he
    refine (h.fresh p c hp hun).2.1 (List.mem_cons_of_mem _ ?_)
    rw [List.map_cons]
    exact List.mem_cons.2 (Or.inl he)
  · show (s.nodes s.consumer.node).isSome
    rw [hn]
    rfl
  · rw [hhand]
    simp [ConsumeCall.inHand]

/-- **`free(node)`**: nobody can reach the node any more. -/
theorem QueueInv.free (h : QueueInv s l last) (hstmt : s.consumer.stmt = .free) : Goes s .consume := by
  have hcons := h.consuming
  unfold Consuming at hcons
  rw [hstmt] at hcons
  obtain ⟨hsome, hoff⟩ := hcons
  obtain ⟨n, hn⟩ := Option.isSome_iff_exists.1 hsome
  have hexec : s.exec .consume = some
      { s with
        nodes := Function.update s.nodes s.consumer.node none
        consumer := { s.consumer with stmt := .ret } } := by
    show s.consume = _
    unfold TsList.consume
    simp only [hstmt, hn, Option.map_some]
  have hhand : s.consumer.inHand = [(s.consumer.key, s.consumer.data)] := by
    unfold ConsumeCall.inHand
    rw [hstmt]
  refine ⟨_, hexec, l, last, ?_⟩
  refine h.consume { s.consumer with stmt := .ret }
    (Function.update s.nodes s.consumer.node none) s.head s.consumed (h.shape.store_off hoff _) (fun _ ha => ha) ?_ ?_ nofun trivial ?_
  · refine Function.update_of_ne (fun he => hoff ?_) _ _
    rw [← he]
    exact List.mem_cons_self
  · intro p c hp hun
    exact Function.update_of_ne ((h.fresh p c hp hun).2.2 hstmt) _ _
  · rw [hhand]
    rfl

theorem QueueInv.ret (h : QueueInv s l last) (hstmt : s.consumer.stmt = .ret) : Goes s .consume := by
  have hexec : s.exec .consume = some { s with
      consumed := s.consumed ++ [(s.consumer.key, s.consumer.data)]
      consumer := { s.consumer with stmt := .check } } := by
    show s.consume = _
    unfold TsList.consume
    simp only [hstmt]
  have hhand : s.consumer.inHand = [(s.consumer.key, s.consumer.data)] := by
    unfold ConsumeCall.inHand
    rw [hstmt]
  refine ⟨_, hexec, l, last, ?_⟩
  refine h.consumeRead (k := { s.consumer with stmt := .check }) nofun trivial ?_
  rw [hhand]
  exact List.append_nil _

/-! ## §5. Every interleaving. -/

/-- **Every enabled statement** goes through, and leaves a list. -/
theorem QueueInv.goes (h : QueueInv s l last) {op : ListOp} (hen : s.Enabled op) : Goes s op := by
  cases op with
  | start q key data new =>
      cases new with
      | none => exact ⟨s, rfl, l, last, h⟩
      | some new => exact h.start new.2 hen.1 (hen.2 new rfl)
  | produce q =>
      obtain ⟨c, hq, hfree⟩ := hen
      have hexec := TsList.exec_produce hq
      unfold TsList.produce at hexec
      cases hstmt : c.stmt with
      | lock => exact h.lock hq hstmt (hfree hstmt)
      | readTail => exact h.readTail hq hstmt
      | setKey =>
          simp only [hstmt] at hexec
          refine h.storeLast hq (fun n => { n with key := c.key }) .setData (fun _ => rfl) ?_ ?_ ?_
            (fun _ _ => rfl) (fun _ h4 => absurd h4 (by decide))
            (fun _ h5 => absurd h5 (by decide)) hexec <;> rw [hstmt] <;> decide
      | setData =>
          simp only [hstmt] at hexec
          refine h.storeLast hq (fun n => { n with data := c.data }) .setNext (fun _ => rfl) ?_ ?_ ?_
            (fun _ hkey => hkey (by rw [hstmt]; decide)) (fun _ _ _ => rfl)
            (fun _ h5 => absurd h5 (by decide)) hexec <;> rw [hstmt] <;> decide
      | setNext =>
          simp only [hstmt] at hexec
          refine h.storeLast hq (fun n => { n with next := some c.newTail }) .newNext (fun _ => rfl)
            ?_ ?_ ?_ (fun _ hkey => hkey (by rw [hstmt]; decide))
            (fun _ _ hdata => hdata (by rw [hstmt]; decide)) (fun _ _ => rfl) hexec
            <;> rw [hstmt] <;> decide
      | newNext =>
          simp only [hstmt] at hexec
          refine h.storeNew hq (fun n => { n with next := none }) .newPlaceholder ?_ ?_ ?_
            (fun _ h7 => absurd h7 (by decide)) hexec <;> rw [hstmt] <;> decide
      | newPlaceholder =>
          simp only [hstmt] at hexec
          refine h.storeNew hq (fun n => { n with isPlaceholder := true }) .flip ?_ ?_ ?_
            (fun _ _ => rfl) hexec <;> rw [hstmt] <;> decide
      | flip => exact h.flip hq hstmt
      | setTail => exact h.setTail hq hstmt
      | unlock => exact h.unlock hq hstmt
  | consume =>
      cases hstmt : s.consumer.stmt with
      | check => exact h.check hstmt
      | readHead => exact h.readHead hstmt
      | readKey => exact h.readKey hstmt
      | readData => exact h.readData hstmt
      | setHead => exact h.setHead hstmt
      | free => exact h.free hstmt
      | ret => exact h.ret hstmt

/-- `list_init` leaves the empty list. -/
theorem QueueInv.init {a : Nat} (h : s.Initial a) : QueueInv s [] a := by
  obtain ⟨n, hflag, -, hnodes⟩ := h.nodes
  have hholder : s.holder = none := by
    unfold TsList.holder
    rw [h.wlock]
    rfl
  have hhand : s.consumer.inHand = [] := by
    unfold ConsumeCall.inHand
    rw [h.consumer]
  refine ⟨⟨h.head, ⟨n, ?_, hflag⟩, by simp⟩, ?_, ?_, ?_, ?_, fun _ => h.tail, ?_, ?_, ?_⟩
  · rw [hnodes, Function.update_self]
  · intro p c hp
    rw [h.producers] at hp
    cases hp
  · intro p p' c c' _ hp
    rw [h.producers] at hp
    cases hp
  · intro p c hp
    rw [h.producers] at hp
    cases hp
  · intro p hw
    rw [h.wlock] at hw
    cases hw
  · unfold Consuming
    rw [h.consumer]
    trivial
  · rw [h.produced, h.consumed, hhand, hholder]
    rfl
  · rw [h.produced, h.finished, hholder]
    rfl

theorem QueueInv.of_run {tr : List (TsList × ListOp)} (h : listLts.Run tr s) :
    ∃ l last, QueueInv s l last := by
  induction h with
  | init hinit =>
      obtain ⟨a, ha⟩ := hinit
      exact ⟨[], a, QueueInv.init ha⟩
  | step hrun hstep ih =>
      obtain ⟨l, last, hinv⟩ := ih
      obtain ⟨s', hexec, hinv'⟩ := hinv.goes hstep.1
      rw [hstep.2] at hexec
      cases hexec
      exact hinv'

/-- The consumer is about to return -1. -/
def TsList.ReturnsEmpty (s : TsList) : Prop :=
  s.consumer.stmt = .check ∧ ∃ n, s.head.bind s.nodes = some n ∧ n.isPlaceholder = true

/-- **A queue**: what a user of the list sees. -/
structure ListFifo (s : TsList) : Prop where
  order : s.consumed <+: s.produced
  finished : s.finished <+: s.produced
  empty : s.ReturnsEmpty → s.finished <+: s.consumed
  noFault : ∀ op, s.Enabled op → s.exec op ≠ none

/-- **The event queue refines a FIFO.**  For any number of producers and every
interleaving of single statements: the pairs the consumer has returned are the first
of those produced, in the order of the lock, each once and complete; it returns -1
only when every pair whose `list_produce` has returned was consumed; and no statement
reaches into a node that is not allocated.  (`malloc` is free never to hand a block out
again, so a pointer kept beyond `free` would show up as such a statement.) -/
theorem list_refines_fifo {tr : List (TsList × ListOp)} (h : listLts.Run tr s) : ListFifo s := by
  obtain ⟨l, last, hinv⟩ := QueueInv.of_run h
  refine ⟨?_, ?_, ?_, ?_⟩
  · rw [hinv.produced, List.append_assoc, List.append_assoc]
    exact List.prefix_append _ _
  · rw [hinv.finished]
    exact List.prefix_append _ _
  · rintro ⟨hstmt, n, hn, hflag⟩
    obtain ⟨n', hn', hempty⟩ := hinv.shape.head_flag
    rw [hn] at hn'
    cases hn'
    have hl : l = [] := hempty.1 hflag
    have hhand : s.consumer.inHand = [] := by
      unfold ConsumeCall.inHand
      rw [hstmt]
    have hboth := hinv.produced.symm.trans hinv.finished
    rw [hl, hhand, List.map_nil, List.append_nil, List.append_nil] at hboth
    cases hholder : s.holder with
    | none =>
        rw [hholder] at hboth
        rw [Option.map_none, Option.map_none, Option.getD_none, List.append_nil, List.append_nil] at hboth
        exact ⟨[], by rw [hboth, List.append_nil]⟩
    | some c =>
        rw [hholder, Option.map_some, Option.map_some, Option.getD_some, Option.getD_some] at hboth
        by_cases hun : c.stmt.rank ≤ 7
        · -- the pair of the holder is in neither
          have hpending : c.pending = [(c.key, c.data)] := if_pos hun
          rw [hpending] at hboth
          exact ⟨[], by rw [List.append_cancel_right hboth, List.append_nil]⟩
        · -- the holder has put its pair into the list, and it is consumed
          have hpending : c.pending = [] := if_neg hun
          rw [hpending, List.append_nil] at hboth
          rw [hboth]
          exact List.prefix_append _ _
  · intro op hen hnone
    obtain ⟨s', hexec, -⟩ := hinv.goes hen
    rw [hnone] at hexec
    cases hexec

/-- The list after `list_init`. -/
def emptyList : TsList where
  nodes := Function.update (fun _ => none) 1 (some ⟨none, 0, 0, true⟩)
  head := some 1
  tail := 1
  wlock := none
  producers := fun _ => none
  consumer := ⟨0, 0, 0, .check⟩
  produced := []
  finished := []
  consumed := []

theorem emptyList_initial : emptyList.Initial 1 where
  nodes := ⟨_, rfl, rfl, rfl⟩
  head := rfl
  tail := rfl
  wlock := rfl
  producers := rfl
  consumer := rfl
  produced := rfl
  finished := rfl
  consumed := rfl

theorem listLts_step {tr : List (TsList × ListOp)} (h : listLts.Run tr s) (op : ListOp) {s' : TsList}
    (hen : s.Enabled op) (hexec : s.exec op = some s') : listLts.Run (tr ++ [(s, op)]) s' :=
  h.step ⟨hen, hexec⟩

/-- A producer has the lock, and the consumer looks at the list twice meanwhile. -/
theorem list_refines_fifo_witness :
    ∃ tr s, listLts.Run tr s ∧ s.produced = [(5, 7)] ∧ s.consumed = [] ∧ ListFifo s := by
  have h0 : listLts.Run [] emptyList := .init ⟨1, emptyList_initial⟩
  have h1 := listLts_step h0 (.start 0 5 7 (some (2, ⟨none, 9, 9, false⟩)))
    ⟨rfl, fun x hx => by cases hx; rfl⟩ rfl
  have h2 := listLts_step h1 (.produce 0) ⟨_, rfl, fun _ => rfl⟩ rfl
  have h3 := listLts_step h2 .consume trivial rfl
  have h4 := listLts_step h3 (.produce 0) ⟨_, rfl, nofun⟩ rfl
  have h5 := listLts_step h4 (.produce 0) ⟨_, rfl, nofun⟩ rfl
  have h6 := listLts_step h5 .consume trivial rfl
  exact ⟨_, _, h6, rfl, rfl, list_refines_fifo h6⟩

end RedisAgent
