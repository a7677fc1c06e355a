/-
  RedisAgent.Server.Owners — every request has its connection, and is answered on it.

  `Linked s alive n` ties the requests that are in memory (`alive`) to the connections:
  each has a connection of its own, with a frame that waits for its answer, and each
  connection that is handling a frame has a request.  `req_done` takes a request out and
  answers its frame (`Linked.reqDone`); `req_ready` puts one in for the frame just read
  (`Linked.deliver`).  So `r->conn` is never a connection that was freed.

  Main result: `server_answers`.
-/
import RedisAgent.Server.System

namespace RedisAgent

variable {ν : Type*} {fmt : NsheadFormat} {writebuf : Nat → Option (List UInt8)}

/-! ## §1. What an event does to the frames of a connection. -/

section

variable {c : Client}

/-- Bytes that arrive add at most a frame, whose request is then in progress. -/
theorem Client.Inv.exec_arrive (h : c.Inv fmt) {bytes : List UInt8}
    (hen : c.Enabled (.arrive bytes)) : c.active = false
      ∧ ((c.exec fmt (.arrive bytes)).active = true →
        ∃ e, (c.exec fmt (.arrive bytes)).exchanges = c.exchanges ++ [e])
      ∧ c.exchanges <+: (c.exec fmt (.arrive bytes)).exchanges := by
  have hact : c.active = false := by
    obtain ⟨-, hread, -⟩ := hen
    cases h.phase with
    | reading hact => exact hact
    | busy _ _ _ _ _ hre =>
        rw [hre] at hread
        cases hread
    | monitored hact => exact hact
    | closed hact => exact hact
    | died hact => exact hact
  refine ⟨hact, ?_⟩
  unfold Client.exec
  simp only
  split
  · unfold Client.readCb
    rcases connectionReadCb fmt { c.conn with input := c.conn.input ++ bytes } with ⟨c', req⟩
    cases req with
    | some input => exact ⟨fun _ => ⟨_, rfl⟩, List.prefix_append _ _⟩
    | none =>
        simp only
        refine ⟨fun hbusy => ?_, ?_⟩
        · rw [hact] at hbusy
          cases hbusy
        · split
          · exact List.prefix_append _ _
          · exact List.prefix_rfl
  · refine ⟨fun hbusy => ?_, List.prefix_rfl⟩
    have hbusy' : c.active = true := hbusy
    rw [hact] at hbusy'
    cases hbusy'

/-- A request that ends answers the last frame. -/
theorem Client.Inv.exec_finish (h : c.Inv fmt) (hact : c.active = true)
    (buf : Option (List UInt8)) : (c.exec fmt (.finish buf)).active = false
      ∧ ∃ before e, c.exchanges = before ++ [e] ∧ e.answer = .pending
        ∧ (c.exec fmt (.finish buf)).exchanges
          = before ++ [{ e with answer := Client.answer c.conn buf }] := by
  refine ⟨rfl, ?_⟩
  cases h.phase with
  | busy before _ _ _ _ _ _ hex _ =>
      refine ⟨before, ⟨c.header, .pending⟩, hex, rfl, ?_⟩
      show answerLast (Client.answer c.conn buf) c.exchanges = _
      rw [hex, answerLast_append]
  | reading hno =>
      rw [hno] at hact
      cases hact
  | monitored hno =>
      rw [hno] at hact
      cases hact
  | closed hno =>
      rw [hno] at hact
      cases hact
  | died hno =>
      rw [hno] at hact
      cases hact

end

/-! ## §2. Requests and connections. -/

/-- The frame of a request that ended with `writebuf` got it, unless the connection is
closed. -/
def Answer.Of (buf : Option (List UInt8)) (closed : Bool) : Answer → Prop
  | .pending => False
  | .silent => buf = none ∨ closed = true
  | .reply body => buf = some body

/-- A connection may be closed later. -/
theorem Answer.Of.mono {a : Answer} {buf : Option (List UInt8)} (h : a.Of buf false)
    (closed : Bool) : a.Of buf closed := by
  cases a with
  | pending => exact h
  | reply body => exact h
  | silent =>
      rcases h with hnone | hno
      · exact Or.inl hnone
      · cases hno

/-- `req_done` writes `r->writebuf`, or the connection had an error and is freed. -/
theorem Client.answer_of (c : Connection) (buf : Option (List UInt8)) :
    (Client.answer c buf).Of buf (Client.reqDone c buf).freed := by
  cases buf with
  | none => exact Or.inl rfl
  | some body =>
      unfold Client.answer Client.reqDone connectionWrite
      by_cases herr : c.hasError = true
      · simp only [if_pos herr]
        refine Or.inr ?_
        unfold serverProcessDone
        simp only [if_pos herr]
        rfl
      · simp only [if_neg herr]
        exact rfl

/-- **The link**; see the head of the file.  `n` requests were made. -/
structure Linked (fmt : NsheadFormat) (writebuf : Nat → Option (List UInt8)) (s : Server ν)
    (alive : Nat → Prop) (n : Nat) : Prop where
  inv : ∀ k c, s.clients k = some c → c.Inv fmt
  known : ∀ r, alive r → r < n
  serving : ∀ r, alive r → ∃ c, s.clients (s.conn r) = some c ∧ c.active = true
    ∧ c.exchanges.length = s.place r + 1
  busy : ∀ k c, s.clients k = some c → c.active = true → ∃ r, alive r ∧ s.conn r = k
  one : ∀ r r', alive r → alive r' → s.conn r = s.conn r' → r = r'
  past : ∀ r, r < n → ¬ alive r → ∃ c e, s.clients (s.conn r) = some c
    ∧ c.exchanges[s.place r]? = some e ∧ e.answer.Of (writebuf r) c.conn.freed
  apart : ∀ r r', r < n → r' < n → s.conn r = s.conn r' → s.place r = s.place r' → r = r'

variable {s : Server ν} {alive alive' : Nat → Prop} {n : Nat}

theorem Linked.congr (h : Linked fmt writebuf s alive n) (ha : ∀ r, alive' r ↔ alive r) :
    Linked fmt writebuf s alive' n := by
  have hfun : alive' = alive := funext (fun r => propext (ha r))
  rw [hfun]
  exact h

/-- The proxy has no part in it. -/
theorem Linked.ofProxy (h : Linked fmt writebuf s alive n) (proxy : Proxy ν) :
    Linked fmt writebuf { s with proxy := proxy } alive n :=
  ⟨h.inv, h.known, h.serving, h.busy, h.one, h.past, h.apart⟩

/-- Every request that was made has its frame. -/
theorem Linked.place_lt (h : Linked fmt writebuf s alive n) {r : Nat} (hr : r < n) {c : Client}
    (hc : s.clients (s.conn r) = some c) : s.place r < c.exchanges.length := by
  by_cases ha : alive r
  · obtain ⟨c', hc', -, hlen⟩ := h.serving r ha
    rw [hc] at hc'
    cases hc'
    omega
  · obtain ⟨c', e, hc', he, -⟩ := h.past r hr ha
    rw [hc] at hc'
    cases hc'
    exact (List.getElem?_eq_some_iff.1 he).1

theorem update_some_eq {clients : Nat → Option Client} {k : Nat} {c c' : Client}
    (h : Function.update clients k (some c) k = some c') : c' = c := by
  rw [Function.update_self] at h
  exact (Option.some.inj h).symm

/-- Each connection keeps its own invariant. -/
theorem Linked.inv_update (h : Linked fmt writebuf s alive n) {k : Nat} {c : Client}
    (hc : c.Inv fmt) (k' : Nat) (c' : Client)
    (hc' : Function.update s.clients k (some c) k' = some c') : c'.Inv fmt := by
  by_cases hk : k' = k
  · subst hk
    rw [update_some_eq hc']
    exact hc
  · rw [Function.update_of_ne hk] at hc'
    exact h.inv k' c' hc'

/-- **`req_done`**: the request is gone, and its frame is answered. -/
theorem Linked.reqDone (h : Linked fmt writebuf s alive n) {r : Nat} (hr : alive r) :
    Linked fmt writebuf (s.reqDone fmt writebuf r) (fun r' => alive r' ∧ r' ≠ r) n := by
  obtain ⟨c, hc, hact, hlen⟩ := h.serving r hr
  obtain ⟨hidle, before, e, hbefore, hpend, hafter⟩ :=
    (h.inv _ c hc).exec_finish hact (writebuf r)
  have hplace : before.length = s.place r := by
    rw [hbefore, List.length_append, List.length_singleton] at hlen
    omega
  have hs : s.reqDone fmt writebuf r = { s with
      clients := Function.update s.clients (s.conn r)
        (some (c.exec fmt (.finish (writebuf r)))) } := by
    unfold Server.reqDone
    simp only [hc]
  have hen : c.Enabled (.finish (writebuf r)) := ⟨((h.inv _ c hc).standing hact).1, hact⟩
  rw [hs]
  have hother : ∀ k, k ≠ s.conn r → Function.update s.clients (s.conn r)
      (some (c.exec fmt (.finish (writebuf r)))) k = s.clients k :=
    fun k hk => Function.update_of_ne hk _ _
  refine ⟨?_, fun r' hr' => h.known r' hr'.1, ?_, ?_, fun r₁ r₂ h1 h2 => h.one r₁ r₂ h1.1 h2.1, ?_,
    h.apart⟩
  · exact h.inv_update ((h.inv _ c hc).exec hen)
  · rintro r' ⟨ha', hne⟩
    have hk : s.conn r' ≠ s.conn r := fun he => hne (h.one r' r ha' hr he)
    obtain ⟨c', hc', hrest⟩ := h.serving r' ha'
    exact ⟨c', (hother _ hk).trans hc', hrest⟩
  · intro k c' hc' hact'
    by_cases hk : k = s.conn r
    · subst hk
      rw [update_some_eq hc', hidle] at hact'
      cases hact'
    · obtain ⟨r', ha', hconn⟩ := h.busy k c' ((hother k hk).symm.trans hc') hact'
      refine ⟨r', ⟨ha', ?_⟩, hconn⟩
      rintro rfl
      exact hk hconn.symm
  · intro r' hr' hgone
    by_cases hrr : r' = r
    · subst hrr
      refine ⟨c.exec fmt (.finish (writebuf r')), ⟨e.head, Client.answer c.conn (writebuf r')⟩,
        Function.update_self _ _ _, ?_, Client.answer_of c.conn (writebuf r')⟩
      rw [hafter, ← hplace]
      exact List.getElem?_concat_length
    · have hna : ¬ alive r' := fun ha' => hgone ⟨ha', hrr⟩
      obtain ⟨c', e', hc', he', hans⟩ := h.past r' hr' hna
      by_cases hk : s.conn r' = s.conn r
      · -- an older frame of the same connection
        rw [hk, hc] at hc'
        cases hc'
        rw [((h.inv _ c hc).standing hact).2] at hans
        refine ⟨c.exec fmt (.finish (writebuf r)), e', ?_, ?_, hans.mono _⟩
        · show Function.update s.clients (s.conn r) _ (s.conn r') = _
          rw [hk, Function.update_self]
        · have hlt := (List.getElem?_eq_some_iff.1 he').1
          rw [hbefore] at he' hlt
          rw [List.length_append, List.length_singleton] at hlt
          have hne : s.place r' ≠ before.length := by
            intro heq
            rw [heq, List.getElem?_concat_length] at he'
            cases he'
            rw [hpend] at hans
            exact hans
          have hold : s.place r' < before.length := by omega
          show (c.exec fmt (.finish (writebuf r))).exchanges[s.place r']? = some e'
          rw [hafter, List.getElem?_append_left hold]
          rw [List.getElem?_append_left hold] at he'
          exact he'
      · exact ⟨c', e', (hother _ hk).trans hc', he', hans⟩

/-- Several of them, by induction on their list. -/
theorem Linked.reqDones {rs : List Nat} : ∀ {s : Server ν} {alive : Nat → Prop},
    Linked fmt writebuf s alive n → rs.Nodup → (∀ r ∈ rs, alive r) →
      Linked fmt writebuf (rs.foldl (Server.reqDone fmt writebuf) s)
        (fun r => alive r ∧ r ∉ rs) n := by
  induction rs with
  | nil =>
      intro s alive h _ _
      exact h.congr (fun r => and_iff_left List.not_mem_nil)
  | cons r rs ih =>
      intro s alive h hnodup hrs
      obtain ⟨hr, hnodup'⟩ := List.nodup_cons.1 hnodup
      have hdone := h.reqDone (hrs r List.mem_cons_self)
      have hrest := ih hdone hnodup' (fun r' hr' => ⟨hrs r' (List.mem_cons_of_mem _ hr'), ?_⟩)
      · refine hrest.congr (fun r' => ?_)
        rw [List.mem_cons, not_or, and_assoc]
      · rintro rfl
        exact hr hr'

/-- **`req_ready`**: the frame just read has a request. -/
theorem Linked.deliver (h : Linked fmt writebuf s alive n) {k : Nat} {c : Client}
    (hc : s.clients k = some c) {bytes : List UInt8} (hen : c.Enabled (.arrive bytes))
    (hbusy : (c.exec fmt (.arrive bytes)).active = true) :
    Linked fmt writebuf { s with
      clients := Function.update s.clients k (some (c.exec fmt (.arrive bytes)))
      conn := Function.update s.conn n k
      place := Function.update s.place n c.exchanges.length }
      (fun r => alive r ∨ r = n) (n + 1) := by
  have hinv := h.inv k c hc
  obtain ⟨hidle, hone, -⟩ := hinv.exec_arrive hen
  obtain ⟨e, hex⟩ := hone hbusy
  -- nobody else's connection, and nobody's frame
  have hfree : ∀ r, alive r → s.conn r ≠ k := by
    intro r hr hk
    obtain ⟨c', hc', hact, -⟩ := h.serving r hr
    rw [hk, hc] at hc'
    cases hc'
    rw [hidle] at hact
    cases hact
  have hold : ∀ r, r ≠ n → Function.update s.conn n k r = s.conn r
      ∧ Function.update s.place n c.exchanges.length r = s.place r :=
    fun r hr => ⟨Function.update_of_ne hr _ _, Function.update_of_ne hr _ _⟩
  have hother : ∀ k', k' ≠ k → Function.update s.clients k
      (some (c.exec fmt (.arrive bytes))) k' = s.clients k' :=
    fun k' hk' => Function.update_of_ne hk' _ _
  have hlt : ∀ r, r < n → s.conn r = k → s.place r < c.exchanges.length := by
    intro r hr hk
    refine h.place_lt hr ?_
    rw [hk]
    exact hc
  refine ⟨?_, ?_, ?_, ?_, ?_, ?_, ?_⟩
  · exact h.inv_update (hinv.exec hen)
  · rintro r (hr | rfl)
    · have := h.known r hr
      omega
    · omega
  · rintro r (hr | rfl)
    · have hne : r ≠ n := by
        have := h.known r hr
        omega
      obtain ⟨c', hc', hrest⟩ := h.serving r hr
      refine ⟨c', ?_, ?_⟩
      · show Function.update s.clients k _ (Function.update s.conn n k r) = _
        rw [(hold r hne).1, hother _ (hfree r hr)]
        exact hc'
      · show _ ∧ _ = Function.update s.place n _ r + 1
        rw [(hold r hne).2]
        exact hrest
    · refine ⟨_, ?_, hbusy, ?_⟩
      · show Function.update s.clients k _ (Function.update s.conn r k r) = _
        rw [Function.update_self, Function.update_self]
      · show _ = Function.update s.place r c.exchanges.length r + 1
        rw [Function.update_self, hex, List.length_append, List.length_singleton]
  · intro k' c' hc' hact'
    by_cases hk : k' = k
    · exact ⟨n, Or.inr rfl, (Function.update_self _ _ _).trans hk.symm⟩
    · obtain ⟨r, hr, hconn⟩ := h.busy k' c' ((hother k' hk).symm.trans hc') hact'
      have hne : r ≠ n := by
        have := h.known r hr
        omega
      exact ⟨r, Or.inl hr, (hold r hne).1.trans hconn⟩
  · intro r r' hr hr' hconn
    have hconn' : Function.update s.conn n k r = Function.update s.conn n k r' := hconn
    rcases hr with hr | rfl
    · have hne : r ≠ n := by
        have := h.known r hr
        omega
      rcases hr' with hr' | rfl
      · have hne' : r' ≠ n := by
          have := h.known r' hr'
          omega
        rw [(hold r hne).1, (hold r' hne').1] at hconn'
        exact h.one r r' hr hr' hconn'
      · rw [(hold r hne).1, Function.update_self] at hconn'
        exact absurd hconn' (hfree r hr)
    · rcases hr' with hr' | rfl
      · have hne' : r' ≠ r := by
          have := h.known r' hr'
          omega
        rw [(hold r' hne').1, Function.update_self] at hconn'
        exact absurd hconn'.symm (hfree r' hr')
      · rfl
  · intro r hr hgone
    have hne : r ≠ n := fun he => hgone (Or.inr he)
    have hna : ¬ alive r := fun ha => hgone (Or.inl ha)
    obtain ⟨c', e', hc', he', hans⟩ := h.past r (by omega) hna
    show ∃ c'' e'', Function.update s.clients k _ (Function.update s.conn n k r) = some c''
      ∧ c''.exchanges[Function.update s.place n _ r]? = some e'' ∧ _
    rw [(hold r hne).1, (hold r hne).2]
    by_cases hk : s.conn r = k
    · rw [hk, hc] at hc'
      cases hc'
      rw [hen.2.2.1] at hans
      refine ⟨_, e', by rw [hk]; exact Function.update_self _ _ _, ?_, hans.mono _⟩
      have hl := (List.getElem?_eq_some_iff.1 he').1
      rw [hex, List.getElem?_append_left hl]
      exact he'
    · exact ⟨c', e', (hother _ hk).trans hc', he', hans⟩
  · intro r r' hr hr' hconn hplace
    have hconn' : Function.update s.conn n k r = Function.update s.conn n k r' := hconn
    have hplace' : Function.update s.place n c.exchanges.length r
        = Function.update s.place n c.exchanges.length r' := hplace
    by_cases hrn : r = n
    · subst hrn
      by_cases hrn' : r' = r
      · exact hrn'.symm
      · rw [(hold r' hrn').1, Function.update_self] at hconn'
        rw [(hold r' hrn').2, Function.update_self] at hplace'
        have := hlt r' (by omega) hconn'.symm
        omega
    · by_cases hrn' : r' = n
      · subst hrn'
        rw [(hold r hrn).1, Function.update_self] at hconn'
        rw [(hold r hrn).2, Function.update_self] at hplace'
        have := hlt r (by omega) hconn'
        omega
      · rw [(hold r hrn).1, (hold r' hrn').1] at hconn'
        rw [(hold r hrn).2, (hold r' hrn').2] at hplace'
        exact h.apart r r' (by omega) (by omega) hconn' hplace'

/-- **Any other event** of a connection: no request begins or ends.  A connection that is
new has no frames. -/
theorem Linked.event (h : Linked fmt writebuf s alive n) {k : Nat} {c' : Client}
    (hinv : c'.Inv fmt)
    (hold : ∀ c, s.clients k = some c → c.conn.freed = false ∧ c'.active = c.active
      ∧ c.exchanges <+: c'.exchanges ∧ (c.active = true → c'.exchanges = c.exchanges))
    (hnew : s.clients k = none → c'.active = false) :
    Linked fmt writebuf { s with clients := Function.update s.clients k (some c') } alive n := by
  have hother : ∀ k', k' ≠ k → Function.update s.clients k (some c') k' = s.clients k' :=
    fun k' hk' => Function.update_of_ne hk' _ _
  refine ⟨h.inv_update hinv, h.known, ?_, ?_, h.one, ?_, h.apart⟩
  · intro r hr
    obtain ⟨c, hc, hact, hlen⟩ := h.serving r hr
    by_cases hk : s.conn r = k
    · rw [hk] at hc
      obtain ⟨-, hact', -, hsame⟩ := hold c hc
      refine ⟨c', ?_, hact'.trans hact, ?_⟩
      · show Function.update s.clients k (some c') (s.conn r) = some c'
        rw [hk, Function.update_self]
      · rw [hsame hact]
        exact hlen
    · exact ⟨c, (hother _ hk).trans hc, hact, hlen⟩
  · intro k' c hc hact
    by_cases hk : k' = k
    · subst hk
      have hcc : c = c' := update_some_eq hc
      subst hcc
      cases hk' : s.clients k' with
      | none =>
          rw [hnew hk'] at hact
          cases hact
      | some c₀ => exact h.busy k' c₀ hk' ((hold c₀ hk').2.1.symm.trans hact)
    · exact h.busy k' c ((hother k' hk).symm.trans hc) hact
  · intro r hr hgone
    obtain ⟨c, e, hc, he, hans⟩ := h.past r hr hgone
    by_cases hk : s.conn r = k
    · rw [hk] at hc
      obtain ⟨hfreed, -, hpre, -⟩ := hold c hc
      rw [hfreed] at hans
      refine ⟨c', e, ?_, ?_, hans.mono _⟩
      · show Function.update s.clients k (some c') (s.conn r) = some c'
        rw [hk, Function.update_self]
      · have hlt := (List.getElem?_eq_some_iff.1 he).1
        obtain ⟨more, hmore⟩ := hpre
        show c'.exchanges[s.place r]? = some e
        rw [← hmore, List.getElem?_append_left hlt]
        exact he
    · exact ⟨c, e, (hother _ hk).trans hc, he, hans⟩

/-! ## §3. The invariant of the server. -/

/-- The proxy's own invariant, and the link of the requests in memory. -/
def Server.Inv (fmt : NsheadFormat) (writebuf : Nat → Option (List UInt8)) (s : Server ν) : Prop :=
  (∃ L, s.proxy.Inv L)
    ∧ Linked fmt writebuf s (fun r => s.proxy.table.reqs r ≠ none) s.proxy.table.nextReq

theorem Server.start_inv (sizes : Nat → Proxy.PoolSize) :
    (Server.start sizes : Server ν).Inv fmt writebuf := by
  refine ⟨⟨_, Proxy.start_inv sizes⟩, ?_, ?_, ?_, ?_, ?_, ?_, ?_⟩
  · intro k c hc
    cases hc
  · intro r hr
    exact absurd rfl hr
  · intro r hr
    exact absurd rfl hr
  · intro k c hc
    cases hc
  · intro r r' hr
    exact absurd rfl hr
  · intro r hr
    exact absurd hr (Nat.not_lt_zero r)
  · intro r r' hr
    exact absurd hr (Nat.not_lt_zero r)

/-- `req_done` leaves the requests to the proxy. -/
theorem Server.reqDones_proxy (rs : List Nat) : ∀ s : Server ν,
    (rs.foldl (Server.reqDone fmt writebuf) s).proxy = s.proxy := by
  induction rs with
  | nil => exact fun s => rfl
  | cons r rs ih =>
      intro s
      have hone : (s.reqDone fmt writebuf r).proxy = s.proxy := by
        unfold Server.reqDone
        split
        · rfl
        · rfl
      exact (ih _).trans hone

/-- **A step of the proxy**, where the requests that were made and not answered are linked. -/
theorem Linked.runProxy {l : ProxyStep ν} {L' : Nat → List Nat}
    (h : Linked fmt writebuf s alive n)
    (halive : ∀ r, alive r ↔ r < n ∧ r ∉ answeredIn s.proxy.table.hist)
    (hinv : (s.proxy.exec l).Inv L') (hhist : s.proxy.table.hist <+: (s.proxy.exec l).table.hist)
    (hnext : (s.proxy.exec l).table.nextReq = n) :
    (s.runProxy fmt writebuf l).Inv fmt writebuf := by
  obtain ⟨hnodup, hmem, hrest⟩ := hinv.answers hhist
  have hdone := (h.ofProxy (s.proxy.exec l)).reqDones hnodup (fun r hr => by
    obtain ⟨hlt, hnot⟩ := hmem r hr
    rw [hnext] at hlt
    exact (halive r).2 ⟨hlt, hnot⟩)
  have hproxy : (s.runProxy fmt writebuf l).proxy = s.proxy.exec l :=
    Server.reqDones_proxy _ _
  refine ⟨⟨L', ?_⟩, ?_⟩
  · rw [hproxy]
    exact hinv
  · rw [hproxy, hnext]
    refine hdone.congr (fun r => ?_)
    rw [hrest r, hnext, halive r]

/-- **One step.** -/
theorem Server.Inv.step (h : s.Inv fmt writebuf) {op : ServerOp ν} (hen : s.Enabled fmt op) :
    (s.exec fmt writebuf op).Inv fmt writebuf := by
  obtain ⟨⟨L, hproxy⟩, hlink⟩ := h
  cases op with
  | accept k =>
      obtain ⟨-, hnone⟩ := hen
      refine ⟨⟨L, hproxy⟩, hlink.event Client.accepted_inv ?_ (fun _ => rfl)⟩
      intro c hc
      rw [hnone] at hc
      cases hc
  | error k =>
      obtain ⟨-, c, hc, hcen⟩ := hen
      have hexec : s.exec fmt writebuf (.error k) = { s with
          clients := Function.update s.clients k (some (c.exec fmt .error)) } := by
        unfold Server.exec
        simp only [hc]
      rw [hexec]
      refine ⟨⟨L, hproxy⟩, hlink.event ((hlink.inv k c hc).exec hcen) ?_ ?_⟩
      · intro c' hc'
        rw [hc] at hc'
        cases hc'
        exact ⟨hcen.2, rfl, List.prefix_rfl, fun _ => rfl⟩
      · intro hnone
        rw [hc] at hnone
        cases hnone
  | proxy l =>
      obtain ⟨hno, hpen⟩ := hen
      obtain ⟨L', hinv'⟩ := hproxy.step hpen
      have hgrows := Proxy.exec_grows (s := s.proxy) hno
      exact hlink.runProxy hproxy.alive_iff hinv' hgrows.hist hgrows.nextReq
  | arrive k bytes req =>
      obtain ⟨-, c, hc, hcen, hreq⟩ := hen
      have hcinv := hlink.inv k c hc
      by_cases hbusy : (c.exec fmt (.arrive bytes)).active = true
      · -- the frame is complete: `req_ready`
        obtain ⟨hcreates, hpen⟩ := hreq hbusy
        obtain ⟨L', hinv'⟩ := hproxy.step hpen
        obtain ⟨hhist, hnext⟩ := Proxy.exec_creates (s := s.proxy) hcreates
        have hexec : s.exec fmt writebuf (.arrive k bytes req) = Server.runProxy fmt writebuf
            { s with
              clients := Function.update s.clients k (some (c.exec fmt (.arrive bytes)))
              conn := Function.update s.conn s.proxy.table.nextReq k
              place := Function.update s.place s.proxy.table.nextReq c.exchanges.length } req := by
          unfold Server.exec
          simp only [hc, if_pos hbusy]
        rw [hexec]
        refine (hlink.deliver hc hcen hbusy).runProxy (fun r => ?_) hinv' hhist hnext
        show s.proxy.table.reqs r ≠ none ∨ r = s.proxy.table.nextReq ↔ _
        rw [hproxy.alive_iff]
        constructor
        · intro hr
          rcases hr with ⟨hlt, hnot⟩ | hr
          · exact ⟨by omega, hnot⟩
          · rw [hr]
            refine ⟨Nat.lt_succ_self _, fun hold => ?_⟩
            exact absurd (hproxy.answered_lt hold) (Nat.lt_irrefl _)
        · intro hr
          by_cases hlast : r = s.proxy.table.nextReq
          · exact Or.inr hlast
          · exact Or.inl ⟨by have := hr.1; omega, hr.2⟩
      · have hexec : s.exec fmt writebuf (.arrive k bytes req) = { s with
            clients := Function.update s.clients k (some (c.exec fmt (.arrive bytes))) } := by
          unfold Server.exec
          simp only [hc, if_neg hbusy]
        rw [hexec]
        obtain ⟨hidle, -, hpre⟩ := hcinv.exec_arrive hcen
        refine ⟨⟨L, hproxy⟩, hlink.event (hcinv.exec hcen) ?_ ?_⟩
        · intro c' hc'
          rw [hc] at hc'
          cases hc'
          refine ⟨hcen.2.2.1, ?_, hpre, ?_⟩
          · rw [hidle]
            exact Bool.eq_false_iff.2 hbusy
          · intro hact
            rw [hidle] at hact
            cases hact
        · intro hnone
          rw [hc] at hnone
          cases hnone

/-! ## §4. Every run. -/

variable {sizes : Nat → Proxy.PoolSize}

theorem Server.reachable_inv (h : (serverLts fmt writebuf ν sizes).Reachable s) :
    s.Inv fmt writebuf := by
  refine h.invariant (P := fun s => s.Inv fmt writebuf) ?_ ?_
  · intro s hs
    rw [hs]
    exact Server.start_inv sizes
  · intro s op s' _ hinv hstep
    obtain ⟨-, hen, rfl⟩ := hstep
    exact hinv.step hen

/-- What is promised of the connections and the requests together. -/
structure ServerSound (fmt : NsheadFormat) (writebuf : Nat → Option (List UInt8))
    (s : Server ν) : Prop where
  /-- every connection writes what answers its own frames -/
  clients : ∀ k c, s.clients k = some c → ClientSound fmt c
  /-- the connection of a request in memory is not freed, and the request's frame is the
  last one read from it, and waits -/
  serving : ∀ r, s.proxy.table.reqs r ≠ none → ∃ c e, s.clients (s.conn r) = some c
    ∧ c.conn.freed = false ∧ c.exchanges[s.place r]? = some e ∧ e.answer = .pending
    ∧ c.exchanges.length = s.place r + 1
  /-- a frame that waits has a request, and one only -/
  waiting : ∀ k c, s.clients k = some c → c.active = true →
    ∃ r, (s.proxy.table.reqs r ≠ none ∧ s.conn r = k)
      ∧ ∀ r', s.proxy.table.reqs r' ≠ none ∧ s.conn r' = k → r' = r
  /-- the frame of a request that `req_done` ran for has its `writebuf`, or the connection
  is closed -/
  answered : ∀ r ∈ answeredIn s.proxy.table.hist, ∃ c e, s.clients (s.conn r) = some c
    ∧ c.exchanges[s.place r]? = some e ∧ e.answer.Of (writebuf r) c.conn.freed
  /-- no two requests have one frame -/
  apart : ∀ r r', r < s.proxy.table.nextReq → r' < s.proxy.table.nextReq →
    s.conn r = s.conn r' → s.place r = s.place r' → r = r'

/-- The frame of a request in progress is the one without an answer. -/
theorem Client.Inv.last_pending {c : Client} (h : c.Inv fmt) (hact : c.active = true) {i : Nat}
    (hlen : c.exchanges.length = i + 1) :
    ∃ e, c.exchanges[i]? = some e ∧ e.answer = .pending := by
  obtain ⟨-, before, e, hex, hpend, -⟩ := h.exec_finish hact none
  have hi : i = before.length := by
    rw [hex, List.length_append, List.length_singleton] at hlen
    omega
  refine ⟨e, ?_, hpend⟩
  rw [hex, hi]
  exact List.getElem?_concat_length

theorem Server.Inv.sound (h : s.Inv fmt writebuf) : ServerSound fmt writebuf s := by
  obtain ⟨⟨L, hproxy⟩, hlink⟩ := h
  refine ⟨fun k c hc => (hlink.inv k c hc).sound, ?_, ?_, ?_, hlink.apart⟩
  · intro r hr
    obtain ⟨c, hc, hact, hlen⟩ := hlink.serving r hr
    have hinv := hlink.inv _ c hc
    obtain ⟨e, he, hpend⟩ := hinv.last_pending hact hlen
    exact ⟨c, e, hc, (hinv.standing hact).2, he, hpend, hlen⟩
  · intro k c hc hact
    obtain ⟨r, hr, hconn⟩ := hlink.busy k c hc hact
    refine ⟨r, ⟨hr, hconn⟩, fun r' hr' => ?_⟩
    exact hlink.one r' r hr'.1 hr (hr'.2.trans hconn.symm)
  · intro r hr
    refine hlink.past r (hproxy.answered_lt hr) ?_
    intro hhere
    exact ((hproxy.alive_iff r).1 hhere).2 hr

/-- **Requests and connections agree.**  In every run of the proxy with any number of clients,
whatever bytes they send, whenever their connections break, and in whatever order the
requests, the pools, the timeouts and the backends make their steps, up to the step the process
dies of, if there is one: `r->conn` of a request in memory is a connection that was not freed,
whose last frame is the request's and waits for it; no two requests share a frame; a frame that
waits has exactly one request; and when `req_done` has run for a request, its `writebuf` has gone
to its own frame, or the connection is closed. -/
theorem server_answers (h : (serverLts fmt writebuf ν sizes).Reachable s) :
    ServerSound fmt writebuf s :=
  (Server.reachable_inv h).sound

/-- A client sends two bytes, which no command parses, and is told so. -/
theorem server_answers_witness :
    ∃ s : Server Unit, (serverLts nsheadLayout (fun _ => some [7]) Unit smallPools).Reachable s
      ∧ (∃ c, s.clients 3 = some c ∧ c.conn.written = [⟨0, [], [7]⟩])
      ∧ ServerSound nsheadLayout (fun _ => some [7]) s := by
  have h0 : (serverLts nsheadLayout (fun _ => some [7]) Unit smallPools).Reachable
      (Server.start smallPools) := .init rfl
  have hacc : Server.Enabled nsheadLayout (Server.start smallPools : Server Unit) (.accept 3) :=
    ⟨⟨rfl, rfl⟩, rfl⟩
  have hnone : (Server.start smallPools : Server Unit).Alive :=
    ⟨(fun h => by cases h), fun k c hc => by cases hc⟩
  have halive : ((Server.start smallPools : Server Unit).exec nsheadLayout (fun _ => some [7])
      (.accept 3)).Alive := by
    refine ⟨(fun h => by cases h), fun k c hc => ?_⟩
    have hc' : Function.update (fun _ => none) 3 (some Client.accepted) k = some c := hc
    by_cases hk : k = 3
    · subst hk
      rw [update_some_eq hc']
      rfl
    · rw [Function.update_of_ne hk] at hc'
      cases hc'
  have h1 := h0.step ⟨hnone, hacc, rfl⟩
  have hen : Server.Enabled nsheadLayout
      ((Server.start smallPools : Server Unit).exec nsheadLayout (fun _ => some [7]) (.accept 3))
      (.arrive 3 frameOfTwo.bytes (.reject (-1))) :=
    ⟨⟨rfl, rfl⟩, Client.accepted, rfl, ⟨rfl, rfl, rfl, by decide⟩, fun _ => ⟨trivial, rfl, rfl⟩⟩
  have h2 := h1.step ⟨halive, hen, rfl⟩
  exact ⟨_, h2, ⟨_, rfl, by decide⟩, server_answers h2⟩

end RedisAgent
