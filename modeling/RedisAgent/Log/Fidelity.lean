/-
  RedisAgent.Log.Fidelity — when the log files hold what was logged.

  Between two steps both offsets are inside the buffer (`LogBuf.Inv`), and the bytes
  between them are the end of the stream.  A copy appends to them; a drain takes from
  their front, unless the first of its two parts was not accepted in full.

  Main results:
    • `log_stream_iff` — in a run the log is faithful exactly if every drain of a
      buffer that is wrapped has its first part accepted in full.
-/
import RedisAgent.Log.Stream

namespace RedisAgent

variable {n : Int} {s : LogBuf}

/-! ## §1. Offsets. -/

/-- Both offsets are inside the buffer. -/
structure LogBuf.Inv (n : Int) (s : LogBuf) : Prop where
  read_nonneg : 0 ≤ s.readOffset
  read_lt : s.readOffset < n
  write_nonneg : 0 ≤ s.writeOffset
  write_lt : s.writeOffset < n

/-- The remainder of a number that passes the end at most once. -/
theorem tmod_eq_ringIdx {start k : Int} (h0 : 0 ≤ start + k) (h : start + k < 2 * n) :
    (start + k).tmod n = ringIdx n start k := by
  rw [Int.tmod_eq_emod_of_nonneg h0]
  unfold ringIdx
  split
  · exact Int.emod_eq_of_lt h0 (by assumption)
  · rw [← Int.sub_emod_right, Int.emod_eq_of_lt (by omega) (by omega)]

theorem LogBuf.Inv.pending_lt (h : s.Inv n) : (s.pending n : Int) < n := by
  obtain ⟨hr0, hr, hw0, hw⟩ := h
  unfold LogBuf.pending
  split <;> omega

/-- The write offset is as far behind the read offset as there are unread bytes. -/
theorem LogBuf.Inv.write_eq (h : s.Inv n) :
    ringIdx n s.readOffset (s.pending n) = s.writeOffset := by
  obtain ⟨hr0, hr, hw0, hw⟩ := h
  unfold LogBuf.pending ringIdx
  split <;> split <;> omega

/-- `buf_left_size` -/
theorem LogBuf.Inv.left_eq (h : s.Inv n) :
    n - (s.writeOffset - s.readOffset + n).tmod n = n - s.pending n := by
  obtain ⟨hr0, hr, hw0, hw⟩ := h
  rw [tmod_eq_ringIdx (by omega) (by omega)]
  unfold ringIdx LogBuf.pending
  split <;> split <;> omega

/-! ## §2. Appending. -/

theorem LogBuf.Inv.room_eq (h : s.Inv n) : (s.room n : Int) = n - s.pending n - 1 := by
  have hpend := h.pending_lt
  unfold LogBuf.room
  omega

/-- The three ways a line may fit. -/
theorem LogBuf.Inv.fit_cases (h : s.Inv n) (line : List UInt8) :
    (line.length ≤ s.room n ∧ s.fit n line = (line, (line.length : Int)))
      ∨ (s.room n < line.length ∧ s.room n = 0 ∧ s.fit n line = (line, 0))
      ∨ (s.room n < line.length ∧ 0 < s.room n
        ∧ s.fit n line = (line.set (s.room n - 1) 10, (s.room n : Int))) := by
  have hroom := h.room_eq
  unfold LogBuf.fit
  simp only [h.left_eq, ← hroom]
  by_cases hfit : line.length ≤ s.room n
  · rw [if_neg (by omega)]
    exact Or.inl ⟨hfit, rfl⟩
  · rw [if_pos (by omega)]
    refine Or.inr ?_
    by_cases hzero : s.room n = 0
    · rw [if_neg (by omega)]
      exact Or.inl ⟨by omega, hzero, rfl⟩
    · have hlast : ((s.room n : Int) - 1).toNat = s.room n - 1 := by omega
      rw [if_pos (by omega), hlast]
      exact Or.inr ⟨by omega, by omega, rfl⟩

theorem take_set_last {α : Type*} (l : List α) (x : α) {m : Nat} (hpos : 0 < m) (hm : m ≤ l.length) :
    (l.set (m - 1) x).take m = l.take (m - 1) ++ [x] := by
  have hlen : (l.take (m - 1)).length = m - 1 := by
    rw [List.length_take]
    omega
  rw [List.set_eq_take_append_cons_drop, if_pos (by omega), List.take_append, hlen]
  have hone : m - (m - 1) = 1 := by omega
  rw [hone, List.take_of_length_le (by omega)]
  rfl

/-- What is copied of a line fits behind the unread bytes. -/
structure Kept (n : Int) (s : LogBuf) (line kept : List UInt8) : Prop where
  eq : kept = cutLine (s.room n) line
  ret : (s.fit n line).2 = kept.length
  take : (s.fit n line).1.take kept.length = kept
  length_le : kept.length ≤ line.length
  fits : (s.pending n : Int) + kept.length < n

theorem LogBuf.Inv.kept (h : s.Inv n) (line : List UInt8) :
    ∃ kept, Kept n s line kept := by
  have hroom := h.room_eq
  have hpend := h.pending_lt
  rcases h.fit_cases line with ⟨hle, hfit⟩ | ⟨hlt, hzero, hfit⟩ | ⟨hlt, hpos, hfit⟩
  · refine ⟨line, ?_, ?_, ?_, Nat.le_refl _, by omega⟩
    · unfold cutLine
      rw [if_pos hle]
    · rw [hfit]
    · rw [hfit]
      exact List.take_length
  · refine ⟨[], ?_, ?_, rfl, Nat.zero_le _, ?_⟩
    · unfold cutLine
      rw [if_neg (by omega), if_pos hzero]
    · rw [hfit]
      rfl
    · show (s.pending n : Int) + ((0 : Nat) : Int) < n
      omega
  · have hcut := take_set_last line 10 hpos (Nat.le_of_lt hlt)
    have hlen : (line.take (s.room n - 1) ++ [10]).length = s.room n := by
      rw [List.length_append, List.length_take, List.length_singleton]
      omega
    refine ⟨line.take (s.room n - 1) ++ [10], ?_, ?_, ?_, ?_, ?_⟩
    · unfold cutLine
      rw [if_neg (by omega), if_neg (by omega)]
    · rw [hfit, hlen]
    · rw [hfit, hlen]
      exact hcut
    · rw [hlen]
      exact Nat.le_of_lt hlt
    · rw [hlen]
      omega

/-- **The copies** write the kept bytes behind the unread ones. -/
theorem LogBuf.Inv.copies_run (h : s.Inv n) {line kept : List UInt8} (hk : Kept n s line kept) :
    (s.copies n line).foldl (LogCall.run (s.fit n line).1) s.buf
      = ringWrite s.buf n s.writeOffset kept := by
  have hw := h.write_lt
  unfold LogBuf.copies ringWrite
  simp only [hk.ret]
  split
  · simp only [List.foldl_cons, List.foldl_nil, LogCall.run, Int.toNat_zero, List.drop_zero,
      Int.toNat_natCast, hk.take]
  · -- the line passes the end: its first part, and then the rest
    have hfirst : (s.fit n line).1.take (n - s.writeOffset).toNat
        = kept.take (n - s.writeOffset).toNat := by
      conv_rhs => rw [← hk.take, List.take_take]
      congr 1
      omega
    have hrest : ((s.fit n line).1.drop (n - s.writeOffset).toNat).take
          ((kept.length : Int) - n + s.writeOffset).toNat
        = kept.drop (n - s.writeOffset).toNat := by
      conv_rhs => rw [← hk.take, List.drop_take]
      congr 1
      omega
    simp only [List.foldl_cons, List.foldl_nil, LogCall.run, Int.toNat_zero, List.drop_zero,
      hfirst, hrest]

theorem LogBuf.Inv.append_offset (h : s.Inv n) {line kept : List UInt8} (hk : Kept n s line kept) :
    (s.append n line).writeOffset = ringIdx n s.writeOffset kept.length := by
  have hw := h.write_lt
  have hw0 := h.write_nonneg
  have hfits := hk.fits
  show (s.writeOffset + (s.fit n line).2).tmod n = _
  rw [hk.ret]
  exact tmod_eq_ringIdx (by omega) (by omega)

/-- **Appending** keeps the offsets inside. -/
theorem LogBuf.Inv.append (h : s.Inv n) (line : List UInt8) : (s.append n line).Inv n := by
  obtain ⟨kept, hk⟩ := h.kept line
  have hfits := hk.fits
  refine ⟨h.read_nonneg, h.read_lt, ?_, ?_⟩
  · rw [h.append_offset hk]
    exact ringIdx_nonneg h.write_nonneg (by omega)
  · rw [h.append_offset hk]
    exact ringIdx_lt h.write_lt (by omega)

/-- **Appending** adds the kept bytes to the unread ones. -/
theorem LogBuf.Inv.append_unread (h : s.Inv n) (line : List UInt8) :
    (s.append n line).unread n = s.unread n ++ cutLine (s.room n) line := by
  obtain ⟨kept, hk⟩ := h.kept line
  have hfits := hk.fits
  have hpend : (s.append n line).pending n = s.pending n + kept.length := by
    obtain ⟨hr0, hr, hw0, hw⟩ := h
    have hoff := LogBuf.Inv.append_offset ⟨hr0, hr, hw0, hw⟩ hk
    have hread : (s.append n line).readOffset = s.readOffset := rfl
    unfold LogBuf.pending at hfits ⊢
    rw [hoff, hread]
    unfold ringIdx
    split <;> split at hfits <;> split <;> omega
  show ringSlice ((s.copies n line).foldl (LogCall.run (s.fit n line).1) s.buf) n s.readOffset
    ((s.append n line).pending n) = _
  rw [h.copies_run hk, hpend, ← h.write_eq, ← hk.eq]
  exact ringSlice_write h.read_nonneg h.read_lt (by omega) (by omega)

/-- **The copies** stay inside, and spare what is unread. -/
theorem LogBuf.Inv.copies_good (h : s.Inv n) (line : List UInt8) {c : LogCall}
    (hc : c ∈ s.copies n line) :
    c.Inside n line.length ∧ ∀ j < s.pending n, ¬ c.Overwrites (ringIdx n s.readOffset j) := by
  obtain ⟨kept, hk⟩ := h.kept line
  have hfits := hk.fits
  have hle := hk.length_le
  have hwrite := h.write_eq
  obtain ⟨hr0, hr, hw0, hw⟩ := h
  unfold LogBuf.copies at hc
  simp only [hk.ret] at hc
  split at hc
  · rw [List.mem_singleton] at hc
    rw [hc]
    refine ⟨⟨by omega, by omega, by omega, by omega, by omega⟩, ?_⟩
    rintro j hj ⟨hlo, hhi⟩
    unfold ringIdx at hlo hhi hwrite
    split at hlo <;> split at hwrite <;> omega
  · rw [List.mem_cons, List.mem_singleton] at hc
    rcases hc with hc | hc
    · rw [hc]
      refine ⟨⟨by omega, by omega, by omega, by omega, by omega⟩, ?_⟩
      rintro j hj ⟨hlo, hhi⟩
      unfold ringIdx at hlo hhi hwrite
      split at hlo <;> split at hwrite <;> omega
    · rw [hc]
      refine ⟨⟨by omega, by omega, by omega, by omega, by omega⟩, ?_⟩
      rintro j hj ⟨hlo, hhi⟩
      unfold ringIdx at hlo hhi hwrite
      split at hlo <;> split at hwrite <;> omega

/-! ## §3. Draining. -/

/-- **One `fwrite`** of at most the unread bytes before the end of the buffer. -/
theorem LogBuf.Inv.advance (h : s.Inv n) {size : Nat} (hle : size ≤ s.pending n)
    (hend : s.readOffset + size ≤ n) :
    (s.advance n size).Inv n
      ∧ (s.advance n size).readOffset = ringIdx n s.readOffset size
      ∧ (s.advance n size).file ++ (s.advance n size).unread n = s.file ++ s.unread n := by
  have hpend := h.pending_lt
  have hoff : (s.advance n size).readOffset = ringIdx n s.readOffset size := by
    have hr0 := h.read_nonneg
    exact tmod_eq_ringIdx (by omega) (by omega)
  have hleft : (s.advance n size).pending n = s.pending n - size := by
    obtain ⟨hr0, hr, hw0, hw⟩ := h
    have hwrite : (s.advance n size).writeOffset = s.writeOffset := rfl
    unfold LogBuf.pending at hle hpend ⊢
    rw [hoff, hwrite]
    unfold ringIdx
    split <;> split at hle <;> split <;> omega
  refine ⟨⟨?_, ?_, h.write_nonneg, h.write_lt⟩, hoff, ?_⟩
  · rw [hoff]
    exact ringIdx_nonneg h.read_nonneg (by omega)
  · rw [hoff]
    exact ringIdx_lt h.read_lt (by omega)
  · have hsplit : s.pending n = size + (s.pending n - size) := by omega
    show s.file ++ flatSlice s.buf s.readOffset size
        ++ ringSlice s.buf n (s.advance n size).readOffset ((s.advance n size).pending n)
      = s.file ++ ringSlice s.buf n s.readOffset (s.pending n)
    rw [hoff, hleft]
    conv_rhs => rw [hsplit, ringSlice_add h.read_lt (by omega), ringSlice_flat hend]
    exact List.append_assoc _ _ _

/-- Each of the two parts of a drain is a stretch of unread bytes, if the first of two
is accepted in full. -/
theorem LogBuf.Inv.drain (h : s.Inv n) {sizes : Nat × Nat} (hacc : s.Accepts n sizes)
    (hfirst : s.writeOffset < s.readOffset → (sizes.1 : Int) = n - s.readOffset) :
    (s.drain n sizes).Inv n
      ∧ (s.drain n sizes).file ++ (s.drain n sizes).unread n = s.file ++ s.unread n
      ∧ ∀ c ∈ s.fwrites n sizes, c.Inside n 0 := by
  obtain ⟨hr0, hr, hw0, hw⟩ := id h
  unfold LogBuf.drain LogBuf.fwrites
  unfold LogBuf.Accepts at hacc
  by_cases heq : s.writeOffset = s.readOffset
  · rw [if_neg (not_not.2 heq), if_neg (not_not.2 heq)]
    exact ⟨h, rfl, nofun⟩
  · rw [if_pos heq, if_pos heq]
    by_cases hgt : s.writeOffset > s.readOffset
    · rw [if_pos hgt, if_pos hgt]
      rw [if_pos hgt] at hacc
      have hsize : (sizes.1 : Int) ≤ s.writeOffset - s.readOffset := by
        unfold sizeT at hacc
        omega
      have hpend : sizes.1 ≤ s.pending n := by
        unfold LogBuf.pending
        rw [if_pos (by omega)]
        omega
      obtain ⟨hinv, -, hstream⟩ := h.advance hpend (by omega)
      refine ⟨hinv, hstream, ?_⟩
      intro c hc
      rw [List.mem_singleton.1 hc]
      exact ⟨by omega, by omega, by omega⟩
    · rw [if_neg hgt, if_neg hgt]
      rw [if_neg hgt] at hacc
      have hfull := hfirst (by omega)
      have hpend : sizes.1 ≤ s.pending n := by
        unfold LogBuf.pending
        rw [if_neg (by omega)]
        omega
      obtain ⟨hinv₁, hoff₁, hstream₁⟩ := h.advance hpend (by omega)
      -- the first part ends at the end of the buffer, so the second starts at 0
      have hzero : (s.advance n sizes.1).readOffset = 0 := by
        rw [hoff₁]
        unfold ringIdx
        rw [if_neg (by omega)]
        omega
      have hwrite : (s.advance n sizes.1).writeOffset = s.writeOffset := rfl
      have hsize : (sizes.2 : Int) ≤ s.writeOffset := by
        have h2 := hacc.2
        rw [hzero] at h2
        unfold sizeT at h2
        omega
      have hpend₂ : sizes.2 ≤ (s.advance n sizes.1).pending n := by
        unfold LogBuf.pending
        rw [hzero, hwrite, if_pos hw0]
        omega
      obtain ⟨hinv₂, -, hstream₂⟩ := hinv₁.advance hpend₂ (by rw [hzero]; omega)
      refine ⟨hinv₂, hstream₂.trans hstream₁, ?_⟩
      intro c hc
      simp only [hzero] at hc
      rw [List.mem_cons, List.mem_singleton] at hc
      rcases hc with hc | hc
      · rw [hc]
        exact ⟨by omega, by omega, by omega⟩
      · rw [hc]
        exact ⟨by omega, by omega, by omega⟩

/-- **A short first part**: the second is asked for a negative number of bytes. -/
theorem LogBuf.Inv.drain_short (h : s.Inv n) {sizes : Nat × Nat} (hacc : s.Accepts n sizes)
    (hwrap : s.writeOffset < s.readOffset) (hshort : (sizes.1 : Int) ≠ n - s.readOffset) :
    ∃ c ∈ s.fwrites n sizes, ¬ c.Inside n 0 := by
  obtain ⟨hr0, hr, hw0, hw⟩ := h
  unfold LogBuf.Accepts at hacc
  rw [if_neg (by omega)] at hacc
  have hlt : (sizes.1 : Int) < n - s.readOffset := by
    have h1 := hacc.1
    unfold sizeT at h1
    omega
  have hoff : (s.advance n sizes.1).readOffset = s.readOffset + sizes.1 := by
    show (s.readOffset + sizes.1).tmod n = _
    rw [tmod_eq_ringIdx (by omega) (by omega)]
    unfold ringIdx
    rw [if_pos (by omega)]
  unfold LogBuf.fwrites
  rw [if_pos (by omega), if_neg (by omega)]
  refine ⟨.fwrite (s.advance n sizes.1).readOffset (s.writeOffset - (s.advance n sizes.1).readOffset),
    by simp, ?_⟩
  rw [hoff]
  rintro ⟨hlen, -, -⟩
  omega

/-! ## §4. Runs. -/

variable {conf : LogConf}

/-- Both buffers have their offsets inside. -/
def LogState.Inv (conf : LogConf) (s : LogState) : Prop := ∀ k, (s k).Inv conf.bufSize

/-- The calls of a step that is not a short first part. -/
theorem LogState.Inv.calls_good {s : LogState} (h : s.Inv conf) {op : LogOp}
    (hen : s.Enabled conf op) (hfirst : s.FirstPartWritten conf op) {k : LogKind} {c : LogCall}
    (hc : c ∈ s.calls conf k op) :
    c.Inside conf.bufSize op.lineLength
      ∧ ∀ j < (s k).pending conf.bufSize, ¬ c.Overwrites (ringIdx conf.bufSize (s k).readOffset j) := by
  cases op with
  | printf level line =>
      change c ∈ (if logKindOf level = k then (s k).copies conf.bufSize line else []) at hc
      split at hc
      · exact (h k).copies_good line hc
      · cases hc
  | drain sizes =>
      obtain ⟨c', hc', hmem⟩ := List.mem_flatMap.1 hc
      have hsame : c = c' := by
        split at hmem
        · simpa using hmem
        · exact List.mem_singleton.1 hmem
      rw [hsame]
      refine ⟨((h k).drain (hen k) (hfirst k)).2.2 c' hc', ?_⟩
      intro j _ hover
      unfold LogBuf.fwrites at hc'
      split at hc'
      · split at hc'
        · rw [List.mem_singleton.1 hc'] at hover
          exact hover
        · rw [List.mem_cons, List.mem_singleton] at hc'
          rcases hc' with hc' | hc'
          · rw [hc'] at hover
            exact hover
          · rw [hc'] at hover
            exact hover
      · cases hc'

/-- **One step** keeps the offsets inside, and moves the stream on by what it appends. -/
theorem LogState.Inv.step {s : LogState} (h : s.Inv conf) {op : LogOp}
    (hen : s.Enabled conf op) (hfirst : s.FirstPartWritten conf op) (k : LogKind) :
    ((s.exec conf op) k).Inv conf.bufSize
      ∧ ((s.exec conf op) k).file ++ ((s.exec conf op) k).unread conf.bufSize
        = (s k).file ++ (s k).unread conf.bufSize ++ s.appends conf k op := by
  cases op with
  | printf level line =>
      unfold LogState.exec LogState.appends
      by_cases hk : logKindOf level = k
      · subst hk
        simp only [Function.update_self, if_true]
        refine ⟨(h _).append line, ?_⟩
        rw [(h _).append_unread line]
        exact (List.append_assoc _ _ _).symm
      · simp only [Function.update_of_ne (Ne.symm hk), if_neg hk, List.append_nil]
        exact ⟨h k, trivial⟩
  | drain sizes =>
      obtain ⟨hinv, hstream, -⟩ := (h k).drain (hen k) (hfirst k)
      unfold LogState.appends
      rw [List.append_nil]
      exact ⟨hinv, hstream⟩

/-- **A short first part** makes a call that is not inside. -/
theorem LogState.Inv.calls_bad {s : LogState} (h : s.Inv conf) {op : LogOp}
    (hen : s.Enabled conf op) (hfirst : ¬ s.FirstPartWritten conf op) :
    ∃ k, ∃ c ∈ s.calls conf k op, ¬ c.Inside conf.bufSize op.lineLength := by
  cases op with
  | printf level line => exact absurd trivial hfirst
  | drain sizes =>
      unfold LogState.FirstPartWritten at hfirst
      push Not at hfirst
      obtain ⟨k, hwrap, hshort⟩ := hfirst
      obtain ⟨c, hc, hbad⟩ := (h k).drain_short (hen k) hwrap hshort
      refine ⟨k, c, List.mem_flatMap.2 ⟨c, hc, ?_⟩, hbad⟩
      split
      · simp
      · simp

/-- **A run without a short first part.** -/
theorem LogState.run_faithful {tr : List (LogState × LogOp)} {s : LogState}
    (h : (logLts conf).Run tr s) (hall : ∀ q ∈ tr, q.1.FirstPartWritten conf q.2) :
    s.Inv conf ∧ LogFaithful conf tr s := by
  induction h with
  | init hinit =>
      rename_i s₀
      have hone := conf.one_lt
      have hinv : LogState.Inv conf s₀ := by
        intro k
        obtain ⟨hw, hr, -⟩ := hinit k
        exact ⟨by omega, by omega, by omega, by omega⟩
      refine ⟨hinv, ?_, nofun, nofun, ?_⟩
      · exact fun k => ⟨(hinv k).read_nonneg, (hinv k).read_lt, (hinv k).write_nonneg, (hinv k).write_lt⟩
      · intro k
        obtain ⟨hw, hr, hfile⟩ := hinit k
        have hpend : (s₀ k).pending conf.bufSize = 0 := by
          unfold LogBuf.pending
          rw [hw, hr]
          rfl
        unfold LogBuf.unread
        rw [hfile, hpend]
        rfl
  | step hrun hstep ih =>
      obtain ⟨hen, rfl⟩ := hstep
      obtain ⟨hinv, hfaith⟩ := ih (fun q hq => hall q (List.mem_append_left _ hq))
      have hfirst := hall _ (List.mem_append_right _ (List.mem_singleton.2 rfl))
      have hnew := fun k => hinv.step hen hfirst k
      refine ⟨fun k => (hnew k).1, ?_, ?_, ?_, ?_⟩
      · exact fun k => ⟨(hnew k).1.read_nonneg, (hnew k).1.read_lt, (hnew k).1.write_nonneg,
          (hnew k).1.write_lt⟩
      · intro q hq
        rcases List.mem_append.1 hq with hq | hq
        · exact hfaith.inside q hq
        · rw [List.mem_singleton.1 hq]
          exact fun k c hc => (hinv.calls_good hen hfirst hc).1
      · intro q hq
        rcases List.mem_append.1 hq with hq | hq
        · exact hfaith.spared q hq
        · rw [List.mem_singleton.1 hq]
          exact fun k c hc => (hinv.calls_good hen hfirst hc).2
      · intro k
        rw [(hnew k).2, hfaith.stream k, List.flatMap_append, List.flatMap_singleton]

/-- **Log stream fidelity.**  For every buffer size above 1, every order of lines and
drains and every number of bytes `fwrite` accepts, the log is faithful exactly if
every drain of a wrapped buffer has its first part accepted in full. -/
theorem log_stream_iff {tr : List (LogState × LogOp)} {s : LogState}
    (h : (logLts conf).Run tr s) :
    LogFaithful conf tr s ↔ ∀ q ∈ tr, q.1.FirstPartWritten conf q.2 := by
  refine ⟨?_, fun hall => (LogState.run_faithful h hall).2⟩
  intro hfaith
  have hinside := hfaith.inside
  clear hfaith
  induction h with
  | init hinit => exact nofun
  | step hrun hstep ih =>
      have hbefore := ih (fun q hq => hinside q (List.mem_append_left _ hq))
      intro q hq
      rcases List.mem_append.1 hq with hq | hq
      · exact hbefore q hq
      · rw [List.mem_singleton.1 hq]
        by_contra hshort
        obtain ⟨k, c, hc, hbad⟩ :=
          (LogState.run_faithful hrun hbefore).1.calls_bad hstep.1 hshort
        exact hbad (hinside _ (List.mem_append_right _ (List.mem_singleton.2 rfl)) k c hc)

/-! ## §5. A full disk. -/

/-- A buffer of four bytes. -/
def tinyLog : LogConf := ⟨4, false, by decide⟩

/-- `log_init`. -/
def emptyLog : LogState := fun _ => ⟨fun _ => 0, 0, 0, []⟩

/-- Three bytes are logged and written, then two more, which wrap; of these the disk
takes nothing. -/
def fullDisk : List LogOp :=
  [.printf 8 [65, 66, 10], .drain fun _ => (3, 0), .printf 8 [67, 10], .drain fun _ => (0, 0)]

instance LogKind.decidableForall {p : LogKind → Prop} [∀ k, Decidable (p k)] : Decidable (∀ k, p k) :=
  decidable_of_iff (p .log ∧ p .wf) ⟨fun h k => by cases k; exacts [h.1, h.2], fun h => ⟨h _, h _⟩⟩

instance LogState.decidableEnabled (s : LogState) (op : LogOp) : Decidable (s.Enabled conf op) := by
  cases op <;> unfold LogState.Enabled LogBuf.Accepts <;> infer_instance

instance LogState.decidableFirstPartWritten (s : LogState) (op : LogOp) :
    Decidable (s.FirstPartWritten conf op) := by
  cases op <;> unfold LogState.FirstPartWritten <;> infer_instance

/-- The run the operations make. -/
theorem LogState.run_of_allEnabled (ops : List LogOp)
    (h : Lts.AllEnabled (LogState.exec conf) (LogState.Enabled conf) emptyLog ops) :
    (logLts conf).Run (Lts.traceAll (LogState.exec conf) emptyLog ops)
      (Lts.execAll (LogState.exec conf) emptyLog ops) := by
  have hstep : ∀ s op, s.Enabled conf op → (logLts conf).step s op (s.exec conf op) :=
    fun _ _ hen => ⟨hen, rfl⟩
  exact Lts.Run.execAll hstep ops (.init (fun _ => ⟨rfl, rfl, rfl⟩)) h

/-- The second part of the last drain is asked for -2 bytes. -/
theorem log_stream_broken :
    ¬ ∀ (tr : List (LogState × LogOp)) (s : LogState), (logLts tinyLog).Run tr s →
      LogFaithful tinyLog tr s := by
  intro hall
  have hfaith := hall _ _ (LogState.run_of_allEnabled fullDisk (by decide))
  have hin := hfaith.inside _
    (List.mem_of_getElem? (i := 3) rfl) .log (.fwrite 3 (-2)) (by decide)
  exact absurd hin.1 (by decide)

/-- The same lines where the disk takes everything. -/
def freeDisk : List LogOp := fullDisk.take 3 ++ [.drain fun _ => (1, 1)]

theorem log_stream_iff_witness :
    LogFaithful tinyLog (Lts.traceAll (LogState.exec tinyLog) emptyLog freeDisk)
        (Lts.execAll (LogState.exec tinyLog) emptyLog freeDisk)
      ↔ ∀ q ∈ Lts.traceAll (LogState.exec tinyLog) emptyLog freeDisk,
          q.1.FirstPartWritten tinyLog q.2 :=
  log_stream_iff (LogState.run_of_allEnabled freeDisk (by decide))

end RedisAgent
