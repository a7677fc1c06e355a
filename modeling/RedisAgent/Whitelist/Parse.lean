/-
  RedisAgent.Whitelist.Parse — what `load_whitelist` makes of the whitelist file.

  The loop reads the file through a buffer of 128 bytes, so a longer line comes in
  several pieces and each piece is taken for a line.  A piece that is no address is
  reported, and then the address variable is inserted all the same, with what it
  holds: the address of an earlier piece, or what was on the stack.

  The text says which addresses are meant: those its lines spell (`Listed`).

  Main results:
    • `mem_ipSetOf`, `pieceSpells_iff` — what comes in, piece by piece and by lines;
    • `whitelist_exact_iff` — exactly for which files the set is that of the
      addresses the lines spell.
-/
import RedisAgent.Lib.CText
import RedisAgent.Whitelist.Live

namespace RedisAgent

/-! ## §1. The library calls. -/

/-- `fgets` with room for `n` characters: up to and with the first newline, and what
is left of the file. -/
def fgets : Nat → List UInt8 → List UInt8 × List UInt8
  | 0, text => ([], text)
  | _ + 1, [] => ([], [])
  | n + 1, c :: text =>
      if c = 10 then ([c], text)
      else
        let (piece, rest) := fgets n text
        (c :: piece, rest)

/-- One to three digits, between 0 and 255; a zero stands alone or not in front. -/
def octet (s : List UInt8) : Option Nat :=
  if 1 ≤ s.length ∧ s.length ≤ 3 ∧ s.all isDigit ∧ (s.head? = some 48 → s.length = 1)
      ∧ decimal s ≤ 255 then some (decimal s)
  else none

/-- `inet_pton(AF_INET, …)` with `in_addr_to_int`: a dotted quad, its first number in
the lowest byte. -/
def inetPton (s : List UInt8) : Option UInt32 :=
  match s.splitOn 46 with
  | [a, b, c, d] => do
      let a ← octet a
      let b ← octet b
      let c ← octet c
      let d ← octet d
      return UInt32.ofNat (a + 256 * (b + 256 * (c + 256 * d)))
  | _ => none

/-- `"01.2.3.4"` is no address. -/
example : inetPton [48, 49, 46, 50, 46, 51, 46, 52] = none := by decide

/-! ## §2. The loop. -/

/-- `*line == ' ' || *line == '\t'` -/
def isBlank (c : UInt8) : Bool := decide (c = 32 ∨ c = 9)

/-- `(*end >= '0' && *end <= '9') || *end == '.'` -/
def isAddrChar (c : UInt8) : Bool := isDigit c || decide (c = 46)

/-- `buf[0] == '#' || buf[0] == '\r' || buf[0] == '\n' || buf[0] == 0` -/
def isSkipped (buf : List UInt8) : Bool :=
  match buf with
  | [] => true
  | c :: _ => decide (c = 35 ∨ c = 13 ∨ c = 10 ∨ c = 0)

/-- What is handed to `inet_pton`: leading blanks skipped, cut behind the last
character an address may have. -/
def trimmed (buf : List UInt8) : List UInt8 := (buf.dropWhile isBlank).takeWhile isAddrChar

theorem fgets_snd_length (n : Nat) (text : List UInt8) : (fgets n text).2.length ≤ text.length := by
  induction n generalizing text with
  | zero => exact Nat.le_refl _
  | succ n ih =>
      cases text with
      | nil => exact Nat.le_refl _
      | cons c text =>
          unfold fgets
          by_cases hc : c = 10
          · rw [if_pos hc]
            exact Nat.le_succ _
          · rw [if_neg hc]
            exact Nat.le_succ_of_le (ih text)

/-- **Every call makes progress.** -/
theorem fgets_shorter (n : Nat) (c : UInt8) (text : List UInt8) :
    (fgets (n + 1) (c :: text)).2.length < (c :: text).length := by
  unfold fgets
  by_cases hc : c = 10
  · rw [if_pos hc]
    exact Nat.lt_succ_self _
  · rw [if_neg hc]
    exact Nat.lt_succ_of_le (fgets_snd_length n text)

/-- What `fgets(buf, sizeof(buf), f)` returns until the end of the file. -/
def bufs : List UInt8 → List (List UInt8)
  | [] => []
  | c :: text =>
      (fgets 127 (c :: text)).1 :: bufs (fgets 127 (c :: text)).2
  termination_by text => text.length
  decreasing_by exact fgets_shorter 126 c text

/-- The body of the loop: `addr` and `ip_set`.  After a failed `inet_pton` it goes on
with the `addr` it has. -/
def readLine (s : UInt32 × List UInt32) (buf : List UInt8) : UInt32 × List UInt32 :=
  if isSkipped buf then s
  else
    let addr := (inetPton (trimmed buf)).getD s.1
    (addr, List.insert addr s.2)

/-- The set built from a file, from the first value of `addr` on. -/
def ipSetOf (addr : UInt32) (text : List UInt8) : List UInt32 :=
  ((bufs text).foldl readLine (addr, [])).2

/-- What `load_whitelist` finds in a file with this text. -/
def WhitelistFile.ofText (mtime : Int) (addr : UInt32) (text : List UInt8) : WhitelistFile :=
  ⟨mtime, true, true, ipSetOf addr text⟩

/-! ## §3. What the file says. -/

/-- The address a line spells: after blanks, and up to a character that no address
has.  A comment spells none, indented or not. -/
def spells (line : List UInt8) : Option UInt32 := inetPton (trimmed line)

/-- Some line of the file spells `ip`. -/
def Listed (text : List UInt8) (ip : UInt32) : Prop := ∃ line ∈ text.splitOn 10, spells line = some ip

/-- Some piece of the file spells `ip`. -/
def PieceSpells (text : List UInt8) (ip : UInt32) : Prop := ∃ buf ∈ bufs text, spells buf = some ip

/-- The first piece that is not skipped spells no address. -/
def FirstMalformed (text : List UInt8) : Prop :=
  ∃ buf, (bufs text).find? (fun buf => !isSkipped buf) = some buf ∧ spells buf = none

/-- The `k`-th piece of a line. -/
def piece (k : Nat) (line : List UInt8) : List UInt8 := (line.drop (127 * k)).take 127

/-- **The files that are read as they say.**  Either the first piece that is read as an
address is one, or what `addr` held is listed anyway; and the lines of more than 127
characters neither spell an address where they are cut nor lose one there. -/
structure WhitelistFits (addr : UInt32) (text : List UInt8) : Prop where
  first : FirstMalformed text → Listed text addr
  pieces : ∀ line ∈ text.splitOn 10, 127 < line.length →
    ∀ k ip, spells (piece k line) = some ip → Listed text ip
  whole : ∀ line ∈ text.splitOn 10, 127 < line.length →
    ∀ ip, spells line = some ip → PieceSpells text ip ∨ (FirstMalformed text ∧ ip = addr)

/-! ## §4. Trimming. -/

theorem spells_nil : spells [] = none := by decide

/-- Skipped pieces spell nothing, so skipping them changes nothing. -/
theorem spells_of_skipped {buf : List UInt8} (h : isSkipped buf = true) : spells buf = none := by
  cases buf with
  | nil => exact spells_nil
  | cons c buf =>
      have hc : c = 35 ∨ c = 13 ∨ c = 10 ∨ c = 0 := of_decide_eq_true h
      have hblank : isBlank c = false := by rcases hc with rfl | rfl | rfl | rfl <;> decide
      have haddr : isAddrChar c = false := by rcases hc with rfl | rfl | rfl | rfl <;> decide
      have htrim : trimmed (c :: buf) = [] := by
        unfold trimmed
        rw [List.dropWhile_cons_of_neg (by simp [hblank]), List.takeWhile_cons_of_neg (by simp [haddr])]
      unfold spells
      rw [htrim]
      exact spells_nil

theorem takeWhile_newline (l : List UInt8) : (l ++ [10]).takeWhile isAddrChar = l.takeWhile isAddrChar := by
  induction l with
  | nil => decide
  | cons c l ih =>
      rw [List.cons_append]
      by_cases hc : isAddrChar c = true
      · rw [List.takeWhile_cons_of_pos hc, List.takeWhile_cons_of_pos hc, ih]
      · rw [List.takeWhile_cons_of_neg hc, List.takeWhile_cons_of_neg hc]

/-- The newline at the end of a piece makes no difference. -/
theorem spells_newline (l : List UInt8) : spells (l ++ [10]) = spells l := by
  have htrim : trimmed (l ++ [10]) = trimmed l := by
    unfold trimmed
    induction l with
    | nil => decide
    | cons c l ih =>
        rw [List.cons_append]
        by_cases hc : isBlank c = true
        · rw [List.dropWhile_cons_of_pos hc, List.dropWhile_cons_of_pos hc, ih]
        · rw [List.dropWhile_cons_of_neg hc, List.dropWhile_cons_of_neg hc, ← List.cons_append,
            takeWhile_newline]
  unfold spells
  rw [htrim]

/-! ## §5. The set. -/

variable {ip a addr : UInt32} {set : List UInt32} {buf : List UInt8} {text : List UInt8}

theorem readLine_skipped (h : isSkipped buf = true) : readLine (a, set) buf = (a, set) := by
  unfold readLine
  rw [if_pos h]

theorem readLine_read (h : ¬ isSkipped buf = true) :
    readLine (a, set) buf = ((spells buf).getD a, List.insert ((spells buf).getD a) set) := by
  unfold readLine
  rw [if_neg h]
  rfl

/-- **Once `addr` is in the set**, only addresses that are spelled come in. -/
theorem mem_readLines {bs : List (List UInt8)} (ha : a ∈ set) :
    ip ∈ (bs.foldl readLine (a, set)).2 ↔ ip ∈ set ∨ ∃ buf ∈ bs, spells buf = some ip := by
  induction bs generalizing a set with
  | nil => simp
  | cons buf bs ih =>
      rw [List.foldl_cons, List.exists_mem_cons_iff]
      by_cases hskip : isSkipped buf = true
      · rw [readLine_skipped hskip, ih ha, spells_of_skipped hskip]
        simp
      · rw [readLine_read hskip, ih (List.mem_insert_self), List.mem_insert_iff]
        cases hbuf : spells buf with
        | none =>
            rw [Option.getD_none]
            constructor
            · rintro ((rfl | h) | h)
              · exact Or.inl ha
              · exact Or.inl h
              · exact Or.inr (Or.inr h)
            · rintro (h | h | h)
              · exact Or.inl (Or.inr h)
              · exact absurd h nofun
              · exact Or.inr h
        | some x =>
            rw [Option.getD_some, Option.some_inj, eq_comm (a := x)]
            constructor
            · rintro ((h | h) | h)
              · exact Or.inr (Or.inl h)
              · exact Or.inl h
              · exact Or.inr (Or.inr h)
            · rintro (h | h | h)
              · exact Or.inl (Or.inr h)
              · exact Or.inl (Or.inl h)
              · exact Or.inr h

/-- **From the first value of `addr` on**: it comes in exactly if the first piece that
is read is malformed. -/
theorem mem_readLines_nil {bs : List (List UInt8)} :
    ip ∈ (bs.foldl readLine (addr, [])).2 ↔ (∃ buf ∈ bs, spells buf = some ip)
      ∨ (∃ buf, bs.find? (fun buf => !isSkipped buf) = some buf ∧ spells buf = none) ∧ ip = addr := by
  induction bs with
  | nil => simp
  | cons buf bs ih =>
      rw [List.foldl_cons, List.exists_mem_cons_iff]
      by_cases hskip : isSkipped buf = true
      · rw [readLine_skipped hskip, ih, spells_of_skipped hskip, List.find?_cons_of_neg (by simp [hskip])]
        simp
      · rw [readLine_read hskip, mem_readLines List.mem_insert_self,
          List.find?_cons_of_pos (by simp [hskip])]
        cases hbuf : spells buf with
        | none => simp [hbuf, or_comm]
        | some x => simp [hbuf, eq_comm]

theorem mem_ipSetOf : ip ∈ ipSetOf addr text ↔ PieceSpells text ip ∨ FirstMalformed text ∧ ip = addr :=
  mem_readLines_nil

/-! ## §6. Pieces and lines. -/

/-- **A call of `fgets`** either finds the newline, or takes all it has room for. -/
theorem fgets_cases (n : Nat) (text : List UInt8) :
    (∃ l rest, text = l ++ 10 :: rest ∧ 10 ∉ l ∧ l.length < n ∧ fgets n text = (l ++ [10], rest))
    ∨ (10 ∉ text.take n ∧ fgets n text = (text.take n, text.drop n)) := by
  induction n generalizing text with
  | zero => exact Or.inr ⟨List.not_mem_nil, rfl⟩
  | succ n ih =>
      cases text with
      | nil => exact Or.inr ⟨List.not_mem_nil, rfl⟩
      | cons c text =>
          unfold fgets
          by_cases hc : c = 10
          · refine Or.inl ⟨[], text, ?_, List.not_mem_nil, Nat.succ_pos n, ?_⟩
            · rw [hc, List.nil_append]
            · rw [if_pos hc, hc, List.nil_append]
          · rw [if_neg hc]
            rcases ih text with ⟨l, rest, htext, hl, hlen, hget⟩ | ⟨hl, hget⟩
            · refine Or.inl ⟨c :: l, rest, ?_, ?_, Nat.succ_lt_succ hlen, ?_⟩
              · rw [htext, List.cons_append]
              · rw [List.mem_cons]
                rintro (h | h)
                · exact hc h.symm
                · exact hl h
              · rw [hget, List.cons_append]
            · refine Or.inr ⟨?_, ?_⟩
              · rw [List.take_succ_cons, List.mem_cons]
                rintro (h | h)
                · exact hc h.symm
                · exact hl h
              · rw [hget, List.take_succ_cons, List.drop_succ_cons]

/-- Characters in front of a text belong to its first line. -/
theorem lines_append {p q : List UInt8} (hp : 10 ∉ p) :
    (p ++ q).splitOn 10 = (q.splitOn 10).modifyHead (p ++ ·) := by
  show (p ++ q).splitOnP (· == 10) = (q.splitOnP (· == 10)).modifyHead (p ++ ·)
  induction p with
  | nil =>
      rw [List.nil_append]
      generalize q.splitOnP (· == 10) = ls
      cases ls <;> rfl
  | cons c p ih =>
      rw [List.mem_cons, not_or] at hp
      have hc : (c == 10) = false := beq_false_of_ne (fun he => hp.1 he.symm)
      rw [List.cons_append, List.splitOnP_cons_eq_if_modifyHead, hc, ih hp.2]
      generalize q.splitOnP (· == 10) = ls
      cases ls <;> rfl

theorem piece_nil (k : Nat) : piece k [] = [] := by
  unfold piece
  rw [List.drop_nil, List.take_nil]

/-- The pieces of a line that begins with a full piece. -/
theorem spells_piece_append (ip : UInt32) {p l : List UInt8} (hp : p.length ≤ 127) (hfull : p.length = 127 ∨ l = []) :
    (∃ k, spells (piece k (p ++ l)) = some ip) ↔ spells p = some ip ∨ ∃ k, spells (piece k l) = some ip := by
  have hzero : piece 0 (p ++ l) = p := by
    show (p ++ l).take 127 = p
    rcases hfull with hlen | rfl
    · exact List.take_left' hlen
    · rw [List.append_nil, List.take_of_length_le hp]
  have hsucc : ∀ k, piece (k + 1) (p ++ l) = piece k l := by
    intro k
    unfold piece
    congr 1
    rcases hfull with hlen | rfl
    · rw [show 127 * (k + 1) = p.length + 127 * k by omega, ← List.drop_drop, List.drop_left]
    · rw [List.append_nil, List.drop_nil]
      exact List.drop_eq_nil_of_le (by omega)
  constructor
  · rintro ⟨k, hk⟩
    cases k with
    | zero => exact Or.inl (hzero ▸ hk)
    | succ k => exact Or.inr ⟨k, hsucc k ▸ hk⟩
  · rintro (h | ⟨k, hk⟩)
    · exact ⟨0, by rw [hzero]; exact h⟩
    · exact ⟨k + 1, by rw [hsucc]; exact hk⟩

/-- A line that fits into the buffer is its own piece. -/
theorem spells_piece_short {l : List UInt8} (h : l.length ≤ 127) :
    (∃ k, spells (piece k l) = some ip) ↔ spells l = some ip := by
  have happ := spells_piece_append ip h (Or.inr (rfl : ([] : List UInt8) = []))
  rw [List.append_nil] at happ
  rw [happ]
  simp only [piece_nil, spells_nil, reduceCtorEq, exists_false, or_false]

/-- **The file in pieces**: what `fgets` returns are the pieces of the lines. -/
theorem pieceSpells_iff (text : List UInt8) :
    PieceSpells text ip ↔ ∃ line ∈ text.splitOn 10, ∃ k, spells (piece k line) = some ip := by
  induction h : text.length using Nat.strongRecOn generalizing text with
  | _ n ih =>
      subst h
      cases htext : text with
      | nil => simp [PieceSpells, bufs, piece_nil, spells_nil]
      | cons c tail =>
          have hshort := fgets_shorter 126 c tail
          rw [← htext] at hshort ⊢
          have hbufs : PieceSpells text ip
              ↔ spells (fgets 127 text).1 = some ip ∨ PieceSpells (fgets 127 text).2 ip := by
            unfold PieceSpells
            rw [htext, bufs, List.exists_mem_cons_iff]
          rw [hbufs, ih _ hshort _ rfl]
          rcases fgets_cases 127 text with ⟨l, rest, happ, hl, hlen, hget⟩ | ⟨hl, hget⟩
          · rw [hget, spells_newline]
            conv => rhs; rw [happ]
            rw [splitOn_cons hl, List.exists_mem_cons_iff, spells_piece_short (Nat.le_of_lt hlen)]
          · rw [hget]
            conv => rhs; rw [← List.take_append_drop 127 text]
            rw [lines_append hl]
            obtain ⟨l, ls, hls⟩ := List.exists_cons_of_ne_nil
              (List.splitOnP_ne_nil (· == 10) (text.drop 127))
            have hls' : (text.drop 127).splitOn 10 = l :: ls := hls
            have hfull : (text.take 127).length = 127 ∨ l = [] := by
              by_cases hle : 127 ≤ text.length
              · exact Or.inl (List.length_take_of_le hle)
              · refine Or.inr ?_
                rw [List.drop_eq_nil_of_le (by omega)] at hls'
                cases hls'
                rfl
            rw [hls', List.modifyHead_cons, List.exists_mem_cons_iff, List.exists_mem_cons_iff,
              spells_piece_append ip (by rw [List.length_take]; omega) hfull, or_assoc]

/-! ## §7. When the set is what the file says. -/

/-- **What `load_whitelist` admits.**  The addresses of the set are those the lines of
the file spell, if and only if the file fits: no malformed line comes before the first
address, unless what `addr` held is listed, and no line of more than 127 characters
spells an address, or loses its own, where the buffer ends. -/
theorem whitelist_exact_iff (s : WlState) (mtime : Int) (addr : UInt32) (text : List UInt8)
    (hmtime : 0 ≤ mtime) :
    (∀ ip, inWhitelistU (loadWhitelist s (.ofText mtime addr text)).2 ip = some true ↔ Listed text ip)
      ↔ WhitelistFits addr text := by
  have hin : ∀ ip, inWhitelistU (loadWhitelist s (.ofText mtime addr text)).2 ip = some true
      ↔ PieceSpells text ip ∨ FirstMalformed text ∧ ip = addr := by
    intro ip
    unfold loadWhitelist
    rw [if_neg (by simp [WhitelistFile.ofText]; omega), ← mem_ipSetOf]
    simp [inWhitelistU, WhitelistFile.ofText]
  simp only [hin]
  constructor
  · intro h
    refine ⟨fun hfirst => (h addr).1 (Or.inr ⟨hfirst, rfl⟩), ?_, ?_⟩
    · intro line hline _ k ip hk
      exact (h ip).1 (Or.inl ((pieceSpells_iff text).2 ⟨line, hline, k, hk⟩))
    · intro line hline _ ip hip
      exact (h ip).2 ⟨line, hline, hip⟩
  · intro h ip
    constructor
    · rintro (hp | ⟨hfirst, rfl⟩)
      · obtain ⟨line, hline, k, hk⟩ := (pieceSpells_iff text).1 hp
        by_cases hlong : 127 < line.length
        · exact h.pieces line hline hlong k ip hk
        · exact ⟨line, hline, (spells_piece_short (by omega)).1 ⟨k, hk⟩⟩
      · exact h.first hfirst
    · rintro ⟨line, hline, hip⟩
      by_cases hlong : 127 < line.length
      · exact h.whole line hline hlong ip hip
      · exact Or.inl ((pieceSpells_iff text).2
          ⟨line, hline, (spells_piece_short (by omega)).2 hip⟩)

/-- `"1.2.3.4\n"` -/
def oneAddress : List UInt8 := [49, 46, 50, 46, 51, 46, 52, 10]

theorem oneAddress_fits : WhitelistFits 77 oneAddress := by
  have hshort : ∀ line ∈ oneAddress.splitOn 10, ¬ 127 < line.length := by decide
  refine ⟨?_, fun line hline hlong => absurd hlong (hshort line hline),
    fun line hline hlong => absurd hlong (hshort line hline)⟩
  rintro ⟨buf, hfind, hnone⟩
  have hbufs : bufs oneAddress = [oneAddress] := by simp [oneAddress, bufs, fgets]
  rw [hbufs, List.find?_cons_of_pos (by decide)] at hfind
  cases hfind
  exact absurd hnone (by decide)

theorem whitelist_exact_iff_witness :
    WhitelistFits 77 oneAddress
    ∧ ∀ ip, inWhitelistU (loadWhitelist WlState.start (.ofText 1 77 oneAddress)).2 ip = some true
      ↔ Listed oneAddress ip :=
  ⟨oneAddress_fits, (whitelist_exact_iff WlState.start 1 77 oneAddress (by decide)).2 oneAddress_fits⟩

/-- A file that begins with an indented comment, `" #\n"`, admits what was on the stack. -/
theorem whitelist_not_exact :
    ¬ ∀ (s : WlState) (mtime : Int) (addr : UInt32) (text : List UInt8), 0 ≤ mtime →
      ∀ ip, inWhitelistU (loadWhitelist s (.ofText mtime addr text)).2 ip = some true ↔ Listed text ip := by
  intro h
  have hset : ipSetOf 77 [32, 35, 10] = [77] := by
    have hbufs : bufs [32, 35, 10] = [[32, 35, 10]] := by simp [bufs, fgets]
    unfold ipSetOf
    rw [hbufs]
    decide
  have hadmit : inWhitelistU (loadWhitelist WlState.start (.ofText 1 77 [32, 35, 10])).2 77 = some true := by
    unfold WhitelistFile.ofText
    rw [hset]
    decide
  obtain ⟨line, hline, hip⟩ := (h WlState.start 1 77 [32, 35, 10] (by decide) 77).1 hadmit
  have hnone : ∀ line ∈ ([32, 35, 10] : List UInt8).splitOn 10, spells line = none := by decide
  rw [hnone line hline] at hip
  cases hip

end RedisAgent
