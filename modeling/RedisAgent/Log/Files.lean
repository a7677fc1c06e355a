/-
  RedisAgent.Log.Files — from `rlog_*` to the log files.

  A message of a request passes through all of log.cpp: the level is looked at, the list of
  the request is printed with it, the line goes to the ring buffer of its level, and the
  log thread hands it to the file, which it opens again where the file was moved or deleted.
  Here these parts are put together: Req/Memory has the lists, Log/Line the line, Log/Stream
  the buffers.

  A list keeps the addresses of its texts, and whoever owns a text may write to it or free
  it while it is pushed: the address of a client is a field of its connection, and
  `server_process_done` may free that before `req_cleanup` prints it.

  `log_printf` and a pass of `log_thread_loop` are steps, as in Log/Stream.

  Main result:
    • `log_files_complete` — in every run in which no first part is cut short: the files that
      were opened, one after the other, and what is still in the buffer, are the lines of the
      calls, each with the fields pushed for its request until then; a call faults exactly
      where it prints a text that was freed, or makes a request without memory.
-/
import RedisAgent.Log.Fidelity
import RedisAgent.Req.Memory

namespace RedisAgent

variable {δ : Type}

/-! ## §1. The code. -/

/-- The levels of log.h. -/
inductive LogLevel
  | debug
  | trace
  | notice
  | warning
  | fatal
  deriving Repr, DecidableEq

/-- `PROXY_LOG_DEBUG` and so on -/
def LogLevel.number : LogLevel → Int
  | .debug => 16
  | .trace => 8
  | .notice => 4
  | .warning => 2
  | .fatal => 1

/-- `#lvl` -/
def LogLevel.text : LogLevel → List UInt8
  | .debug => [68, 69, 66, 85, 71]
  | .trace => [84, 82, 65, 67, 69]
  | .notice => [78, 79, 84, 73, 67, 69]
  | .warning => [87, 65, 82, 78, 73, 78, 71]
  | .fatal => [70, 65, 84, 65, 76]

/-- The requests, the texts at the addresses that are pushed, the buffers, and the log files.
A text that was freed is `none`.  `file` of a buffer is what the file that is open was given,
`closed` what those before it were given. -/
structure Logging (δ : Type) where
  requests : ReqMemory δ
  texts : Nat → Option (List UInt8)
  bufs : LogState
  closed : LogKind → List (List UInt8)

/-- `rlog_*(LD(base), ..)`, or `log_*(..)` if there is no base, with the texts of libc. -/
structure LogMessage (δ : Type) where
  base : Option Nat
  level : LogLevel
  fileline : List UInt8
  message : List UInt8
  name : List UInt8
  pid : Int32
  timebuf : List UInt8
  lf : δ → List UInt8
  /-- what the call before has left in `_log_temp_buf` -/
  temp : Int → UInt8

/-- What is in the line, with the texts as they are when it is printed. -/
def LogMessage.env (m : LogMessage δ) (texts : Nat → Option (List UInt8)) : LogEnv δ :=
  ⟨m.name, m.pid, m.timebuf, m.lf, fun p => (texts p).getD []⟩

inductive LoggingOp (δ : Type)
  | request (op : ReqMemOp δ)
  /-- the memory at `p` is given a text, or freed -/
  | text (p : Nat) (t : Option (List UInt8))
  | log (m : LogMessage δ)
  /-- a pass of `log_thread_loop`: `stat` fails, `fopen` succeeds, `fwrite` accepts -/
  | pass (gone opens : LogKind → Bool) (sizes : LogKind → Nat × Nat)

/-- The addresses that `log_printf` looks at in the chunks from `cur` on. -/
def LogHeap.strings (h : LogHeap δ) : Nat → Option Nat → List Nat
  | _, none => []
  | 0, some _ => []
  | left + 1, some cur =>
      (h.node cur).elim [] fun d => d.fields.flatMap LogField.strings ++ h.strings left d.next

namespace Logging

/-- `LD(base)`; 0 is the null pointer. -/
def ld (s : Logging δ) (base : Option Nat) : Option (Option Nat) :=
  match base with
  | none => some none
  | some b => (eGetData s.requests.arena.heap b).map (fun ld => if ld = 0 then none else some ld)

/-- `log_base` -/
def log (conf : LogConf) (logLevel : Int) (s : Logging δ) (m : LogMessage δ) : Option (Logging δ) :=
  if logLevel ≥ m.level.number then do
    let ld ← s.ld m.base
    -- what was freed cannot be read
    if ∀ p ∈ s.requests.log.strings s.requests.log.brk ld, (s.texts p).isSome then
      let out ← logPrintf (m.env s.texts) s.requests.log ld (some m.fileline) m.level.text
        m.message m.temp
      return { s with bufs := s.bufs.exec conf (.printf m.level.number out.line) }
    else none
  else return s

/-- "check if file is moved or deleted"; if `fopen` fails the old one is kept. -/
def reopen (gone opens : LogKind → Bool) (s : Logging δ) : Logging δ :=
  { s with
    bufs := fun k => if gone k && opens k then { s.bufs k with file := [] } else s.bufs k
    closed := fun k => if gone k && opens k then s.closed k ++ [(s.bufs k).file] else s.closed k }

/-- One pass of `log_thread_loop`. -/
def pass (conf : LogConf) (gone opens : LogKind → Bool) (sizes : LogKind → Nat × Nat)
    (s : Logging δ) : Logging δ :=
  let s := s.reopen gone opens
  { s with bufs := s.bufs.exec conf (.drain sizes) }

/-- One step; a fault has no result. -/
def exec (conf : LogConf) (logLevel : Int) (s : Logging δ) : LoggingOp δ → Option (Logging δ)
  | .request op => (s.requests.exec op).map (fun r => { s with requests := r })
  | .text p t => some { s with texts := Function.update s.texts p t }
  | .log m => s.log conf logLevel m
  | .pass gone opens sizes => some (s.pass conf gone opens sizes)

/-- A message names a block that is there, and `fwrite` accepts no more than it is asked to. -/
def Enabled (conf : LogConf) (s : Logging δ) : LoggingOp δ → Prop
  | .request op => s.requests.Enabled op
  | .text _ _ => True
  | .log m => ∀ b ∈ m.base, s.requests.arena.chainOf b ≠ none
  | .pass _ _ sizes => s.bufs.Enabled conf (.drain sizes)

/-- The first part of a wrapped buffer is accepted in full. -/
def FirstPartWritten (conf : LogConf) (s : Logging δ) : LoggingOp δ → Prop
  | .pass _ _ sizes => s.bufs.FirstPartWritten conf (.drain sizes)
  | _ => True

end Logging

/-- Every run, with `_log_level` at `logLevel`. -/
def loggingLts (δ : Type) (conf : LogConf) (logLevel : Int) : Lts (Logging δ) (LoggingOp δ) where
  init s := (reqMemoryLts δ).init s.requests ∧ s.bufs.Initial ∧ s.closed = fun _ => []
  step s op s' := s.Enabled conf op ∧ s.exec conf logLevel op = some s'

/-! ## §2. What should be in the files. -/

/-- The line of a message, where `fields` were pushed for its request. -/
def LogMessage.line (m : LogMessage δ) (texts : Nat → Option (List UInt8))
    (fields : List (LogField δ)) : List UInt8 :=
  cutLine (logTempSize - 1)
    (printedText (logParts (m.env texts) (some m.fileline) m.level.text m.message fields))

namespace Logging

/-- The fields pushed for the request of a block; without one there are none. -/
def fields (s : Logging δ) (base : Option Nat) : List (LogField δ) :=
  (base.bind s.requests.arena.chainOf).elim [] s.requests.pushed

/-- What a step adds to log `k`: the line, as far as the buffer has room for it. -/
def adds (conf : LogConf) (logLevel : Int) (s : Logging δ) (k : LogKind) : LoggingOp δ → List UInt8
  | .log m =>
      if logLevel ≥ m.level.number ∧ logKindOf m.level.number = k then
        cutLine ((s.bufs k).room conf.bufSize) (m.line s.texts (s.fields m.base))
      else []
  | _ => []

/-- The files of log `k`, and what is still in its buffer. -/
def total (conf : LogConf) (s : Logging δ) (k : LogKind) : List UInt8 :=
  (s.closed k).flatten ++ ((s.bufs k).file ++ (s.bufs k).unread conf.bufSize)

/-- The message is printed, and a text pushed for its request was freed. -/
def PrintsFreed (logLevel : Int) (s : Logging δ) (m : LogMessage δ) : Prop :=
  logLevel ≥ m.level.number ∧ ∃ field ∈ s.fields m.base, ∃ p ∈ field.strings, s.texts p = none

/-- The steps that have a fault. -/
def Faults (logLevel : Int) (s : Logging δ) : LoggingOp δ → Prop
  | .request op => op = .ready none
  | .log m => s.PrintsFreed logLevel m
  | _ => False

end Logging

/-! ## §3. Lines. -/

/-- A line that ends is cut to one that ends, or dropped. -/
theorem cutLine_ends {room : Nat} {line : List UInt8} (hline : line.getLast? = some 10) :
    cutLine room line = [] ∨ (cutLine room line).getLast? = some 10 := by
  unfold cutLine
  split
  · exact Or.inr hline
  · split
    · exact Or.inl rfl
    · exact Or.inr List.getLast?_concat

theorem cutLine_length_le (room : Nat) (line : List UInt8) : (cutLine room line).length ≤ room := by
  unfold cutLine
  split
  · assumption
  · split
    · exact Nat.zero_le _
    · rw [List.length_append, List.length_take, List.length_singleton]
      omega

theorem printedText_ends (env : LogEnv δ) (fileline : Option (List UInt8))
    (levelstr message : List UInt8) (fields : List (LogField δ)) :
    (printedText (logParts env fileline levelstr message fields)).getLast? = some 10 := by
  obtain ⟨text, htext⟩ := printedText_logParts env fileline levelstr message fields
  have hend : lineEnd = [93] ++ [10] := rfl
  rw [htext, hend, ← List.append_assoc]
  exact List.getLast?_concat

/-- **A line in a file** ends, and is at most 16383 bytes long. -/
theorem LogMessage.cut_line (m : LogMessage δ) (texts : Nat → Option (List UInt8))
    (fields : List (LogField δ)) (room : Nat) :
    (cutLine room (m.line texts fields) = []
        ∨ (cutLine room (m.line texts fields)).getLast? = some 10)
      ∧ (cutLine room (m.line texts fields)).length < logTempSize := by
  have hends : (m.line texts fields).getLast? = some 10 := by
    have hline : m.line texts fields = [] ∨ (m.line texts fields).getLast? = some 10 :=
      cutLine_ends (printedText_ends (m.env texts) (some m.fileline) m.level.text m.message fields)
    refine hline.resolve_left fun hnil => ?_
    -- the room is not zero
    unfold LogMessage.line cutLine at hnil
    split at hnil
    · have hlast := printedText_ends (m.env texts) (some m.fileline) m.level.text m.message fields
      rw [hnil] at hlast
      cases hlast
    · rw [if_neg (by decide)] at hnil
      exact List.append_ne_nil_of_right_ne_nil _ (List.cons_ne_nil _ _) hnil
  refine ⟨cutLine_ends hends, ?_⟩
  have hlen : (m.line texts fields).length ≤ logTempSize - 1 := cutLine_length_le _ _
  have hsize : 0 < logTempSize := by decide
  unfold cutLine
  split
  · omega
  · split
    · exact hsize
    · rw [List.length_append, List.length_take, List.length_singleton]
      omega

/-- **`log_printf(NULL, ..)`** prints as it does with an empty list. -/
theorem logPrintf_null (env : LogEnv δ) (h : LogHeap δ) (fileline : Option (List UInt8))
    (levelstr message : List UInt8) (temp : Int → UInt8) :
    logPrintf env h none fileline levelstr message temp
      = logPrintf env (logDataNew h).2 (some h.brk) fileline levelstr message temp := by
  have hnone : ∀ (h : LogHeap δ) (left : Nat) (s : LogLine), s.putChunks env h left none = some s := by
    intro h left s
    cases left <;> rfl
  have hnew : ∀ s : LogLine, s.putChunks env (logDataNew h).2 (h.brk + 1) (some h.brk) = some s := by
    intro s
    unfold LogLine.putChunks
    show (Function.update h.node h.brk (some ⟨[], none, none, h.brk⟩) h.brk).bind _ = _
    rw [Function.update_self]
    exact hnone _ _ _
  have hbrk : (logDataNew h).2.brk = h.brk + 1 := rfl
  unfold logPrintf
  simp only [hnone, hbrk, hnew]

/-- **The addresses of a list**, chunk by chunk. -/
theorem LogHeap.strings_walk (h : LogHeap δ) (ps : List Nat) : ∀ (left : Nat) (p : Option Nat),
    ps.length ≤ left → Links.Walk h.links.next p ps → (∀ q ∈ ps, (h.node q).isSome) →
    h.strings left p = (ps.flatMap h.fieldsAt).flatMap LogField.strings := by
  -- on the chunks the loop comes to; each costs it one of the passes it has left
  induction ps with
  | nil =>
      intro left p _ hwalk _
      have hp : p = none := hwalk
      rw [hp]
      cases left <;> rfl
  | cons a ps ih =>
      intro left p hleft hwalk hlive
      obtain ⟨rfl, hrest⟩ := hwalk
      obtain ⟨d, hd⟩ := Option.isSome_iff_exists.1 (hlive a List.mem_cons_self)
      rw [LogHeap.next_of_node hd] at hrest
      cases left with
      | zero => exact absurd hleft (Nat.not_succ_le_zero _)
      | succ left =>
          have hlater := ih left d.next (Nat.le_of_succ_le_succ hleft) hrest
            (fun q hq => hlive q (List.mem_cons_of_mem _ hq))
          unfold LogHeap.strings
          rw [hd, Option.elim_some, hlater, List.flatMap_cons, List.flatMap_append,
            LogHeap.fieldsAt_of_node hd]

theorem LogHeap.Holds.strings {h : LogHeap δ} {ld last : Nat} {front : List Nat}
    {fields : List (LogField δ)} (hh : h.Holds ld front last fields) :
    h.strings h.brk (some ld) = fields.flatMap LogField.strings := by
  rw [h.strings_walk _ _ _ hh.length_le hh.walk (fun q hq => (hh.live q hq).1), ← hh.spells]

/-! ## §4. A pass that takes everything. -/

/-- `fwrite` accepts whatever it is asked to. -/
def LogBuf.TakesAll (n : Int) (s : LogBuf) (sizes : Nat × Nat) : Prop :=
  (s.readOffset < s.writeOffset → (sizes.1 : Int) = s.writeOffset - s.readOffset)
    ∧ (s.writeOffset < s.readOffset → (sizes.1 : Int) = n - s.readOffset ∧ (sizes.2 : Int) = s.writeOffset)

/-- **The buffer is empty** after it. -/
theorem LogBuf.Inv.drain_all {n : Int} {s : LogBuf} (h : s.Inv n) {sizes : Nat × Nat}
    (hall : s.TakesAll n sizes) : (s.drain n sizes).unread n = [] := by
  obtain ⟨hr0, hr, hw0, hw⟩ := h
  have hempty : (s.drain n sizes).writeOffset = (s.drain n sizes).readOffset := by
    unfold LogBuf.drain
    by_cases heq : s.writeOffset = s.readOffset
    · rw [if_neg (not_not.2 heq)]
      exact heq
    · rw [if_pos heq]
      by_cases hgt : s.writeOffset > s.readOffset
      · rw [if_pos hgt]
        show s.writeOffset = (s.readOffset + sizes.1).tmod n
        have hsize := hall.1 hgt
        rw [show s.readOffset + (sizes.1 : Int) = s.writeOffset by omega]
        exact (Int.tmod_eq_of_lt hw0 hw).symm
      · rw [if_neg hgt]
        -- the first part ends at the end of the buffer, the second at the write offset
        obtain ⟨hfirst, hsecond⟩ := hall.2 (by omega)
        show s.writeOffset = ((s.readOffset + sizes.1).tmod n + sizes.2).tmod n
        rw [show s.readOffset + (sizes.1 : Int) = n by omega, Int.tmod_self, hsecond, Int.zero_add]
        exact (Int.tmod_eq_of_lt hw0 hw).symm
  have hpend : (s.drain n sizes).pending n = 0 := by
    unfold LogBuf.pending
    rw [hempty, if_pos (Int.le_refl _)]
    omega
  unfold LogBuf.unread
  rw [hpend]
  rfl

/-! ## §5. Steps and runs. -/

namespace Logging

variable {conf : LogConf} {logLevel : Int} {s : Logging δ}

/-- The lists of the requests, and the offsets of the buffers. -/
structure Inv (conf : LogConf) (s : Logging δ) : Prop where
  requests : ∃ ld ps, s.requests.Inv ld ps
  bufs : s.bufs.Inv conf

/-- **The line of a message** has the fields of its request, and looks at their addresses. -/
theorem Inv.printf (hi : s.Inv conf) {m : LogMessage δ}
    (hbase : ∀ b ∈ m.base, s.requests.arena.chainOf b ≠ none) : ∃ ld out, s.ld m.base = some ld
      ∧ s.requests.log.strings s.requests.log.brk ld = (s.fields m.base).flatMap LogField.strings
      ∧ logPrintf (m.env s.texts) s.requests.log ld (some m.fileline) m.level.text m.message m.temp
        = some out
      ∧ out.line = m.line s.texts (s.fields m.base) := by
  obtain ⟨ld, ps, hr⟩ := hi.requests
  cases hb : m.base with
  | none =>
      obtain ⟨out, hout, hline, -⟩ := logPrintf_holds (m.env s.texts)
        (LogHeap.holds_new s.requests.log) (some m.fileline) m.level.text m.message m.temp
      refine ⟨none, out, rfl, ?_, (logPrintf_null _ _ _ _ _ _).trans hout, hline⟩
      cases s.requests.log.brk <;> rfl
  | some b =>
      obtain ⟨c, hc⟩ := Option.ne_none_iff_exists'.1 (hbase b hb)
      obtain ⟨front, last, -, hh⟩ := (hr.list b c hc).holds
      have hfields : s.fields (some b) = s.requests.pushed c := by
        show (s.requests.arena.chainOf b).elim [] s.requests.pushed = _
        rw [hc]
        rfl
      obtain ⟨out, hout, hline, -⟩ := logPrintf_holds (m.env s.texts) hh
        (some m.fileline) m.level.text m.message m.temp
      refine ⟨some (ld c), out, ?_, ?_, hout, ?_⟩
      · show (eGetData s.requests.arena.heap b).map _ = _
        rw [hr.eGetData hc, Option.map_some, if_neg (hr.notNull b c hc)]
      · rw [hfields]
        exact hh.strings
      · rw [hfields]
        exact hline

/-- **A message** that prints nothing that was freed adds its line to the buffer of its
level. -/
theorem Inv.log (hi : s.Inv conf) (logLevel : Int) {m : LogMessage δ} (hen : s.Enabled conf (.log m))
    (hfreed : ¬ s.PrintsFreed logLevel m) :
    ∃ s', s.log conf logLevel m = some s' ∧ s'.Inv conf
      ∧ ∀ k, s'.total conf k = s.total conf k ++ s.adds conf logLevel k (.log m) := by
  unfold Logging.log
  by_cases hlevel : logLevel ≥ m.level.number
  · obtain ⟨ld, out, hld, hstrings, hout, hline⟩ := hi.printf hen
    -- a text that was freed would be one of the request's own
    have hread : ∀ p ∈ s.requests.log.strings s.requests.log.brk ld, (s.texts p).isSome := by
      intro p hp
      rw [hstrings] at hp
      obtain ⟨field, hfield, hpf⟩ := List.mem_flatMap.1 hp
      refine Option.isSome_iff_ne_none.2 (fun hnone => hfreed ?_)
      exact ⟨hlevel, field, hfield, p, hpf, hnone⟩
    rw [if_pos hlevel, hld, Option.bind_eq_bind, Option.bind_some, if_pos hread, hout]
    have hstep := fun k => hi.bufs.step
      (show s.bufs.Enabled conf (.printf m.level.number out.line) from trivial) trivial k
    refine ⟨_, rfl, ⟨hi.requests, fun k => (hstep k).1⟩, fun k => ?_⟩
    show (s.closed k).flatten ++ _ = _
    rw [(hstep k).2, ← List.append_assoc]
    congr 1
    show (if logKindOf m.level.number = k then _ else _) = (if _ ∧ _ then _ else _)
    simp only [hlevel, true_and, hline]
  · rw [if_neg hlevel]
    refine ⟨s, rfl, hi, fun k => ?_⟩
    show _ = _ ++ (if _ ∧ _ then _ else _)
    rw [if_neg (fun h => hlevel h.1), List.append_nil]

/-- **A message that prints what was freed** has a fault. -/
theorem Inv.log_freed (hi : s.Inv conf) {m : LogMessage δ} (hen : s.Enabled conf (.log m))
    (hfreed : s.PrintsFreed logLevel m) : s.log conf logLevel m = none := by
  obtain ⟨hlevel, field, hfield, p, hp, hnone⟩ := hfreed
  obtain ⟨ld, out, hld, hstrings, -, -⟩ := hi.printf hen
  -- the list of the request leads to the text that was freed
  have hread : ¬ ∀ p ∈ s.requests.log.strings s.requests.log.brk ld, (s.texts p).isSome := by
    intro hall
    have hmem : p ∈ s.requests.log.strings s.requests.log.brk ld := by
      rw [hstrings]
      exact List.mem_flatMap.2 ⟨field, hfield, hp⟩
    have hsome := hall p hmem
    rw [hnone] at hsome
    cases hsome
  unfold Logging.log
  rw [if_pos hlevel, hld, Option.bind_eq_bind, Option.bind_some, if_neg hread]

/-- Opening the files again moves no offset. -/
theorem reopen_bufs (gone opens : LogKind → Bool) (s : Logging δ) (k : LogKind) :
    ∃ file, (s.reopen gone opens).bufs k = { s.bufs k with file := file } := by
  unfold reopen
  by_cases hopen : gone k && opens k
  · simp only [hopen, if_true]
    exact ⟨[], rfl⟩
  · simp only [hopen]
    exact ⟨(s.bufs k).file, rfl⟩

/-- Nor does it lose anything. -/
theorem reopen_total (conf : LogConf) (gone opens : LogKind → Bool) (s : Logging δ) (k : LogKind) :
    (s.reopen gone opens).total conf k = s.total conf k := by
  unfold total reopen
  by_cases hopen : gone k && opens k
  · simp only [hopen, if_true]
    rw [List.flatten_append, List.flatten_singleton, List.nil_append, List.append_assoc]
    rfl
  · simp only [hopen]
    rfl

/-- **A pass of the log thread** moves bytes from the buffers to the files. -/
theorem Inv.pass (hi : s.Inv conf) {gone opens : LogKind → Bool} {sizes : LogKind → Nat × Nat}
    (hen : s.Enabled conf (.pass gone opens sizes))
    (hfirst : s.FirstPartWritten conf (.pass gone opens sizes)) :
    (s.pass conf gone opens sizes).Inv conf
      ∧ ∀ k, (s.pass conf gone opens sizes).total conf k = s.total conf k := by
  have hbufs := s.reopen_bufs gone opens
  have hinv : (s.reopen gone opens).bufs.Inv conf := by
    intro k
    obtain ⟨file, hfile⟩ := hbufs k
    rw [hfile]
    exact ⟨(hi.bufs k).read_nonneg, (hi.bufs k).read_lt, (hi.bufs k).write_nonneg, (hi.bufs k).write_lt⟩
  have hen' : (s.reopen gone opens).bufs.Enabled conf (.drain sizes) := by
    intro k
    obtain ⟨file, hfile⟩ := hbufs k
    rw [hfile]
    exact hen k
  have hfirst' : (s.reopen gone opens).bufs.FirstPartWritten conf (.drain sizes) := by
    intro k
    obtain ⟨file, hfile⟩ := hbufs k
    rw [hfile]
    exact hfirst k
  have hstep := fun k => hinv.step hen' hfirst' k
  refine ⟨⟨hi.requests, fun k => (hstep k).1⟩, fun k => ?_⟩
  rw [← s.reopen_total conf gone opens k]
  -- `drain` appends nothing to the stream
  have hsame := (hstep k).2.trans (List.append_nil _)
  show ((s.reopen gone opens).closed k).flatten ++ _ = ((s.reopen gone opens).closed k).flatten ++ _
  rw [← hsame]
  rfl

/-- **A step without a fault** keeps the invariant, and adds what it should. -/
theorem Inv.step (hi : s.Inv conf) (logLevel : Int) {op : LoggingOp δ} (hen : s.Enabled conf op)
    (hfirst : s.FirstPartWritten conf op) (hnf : ¬ s.Faults logLevel op) :
    ∃ s', s.exec conf logLevel op = some s' ∧ s'.Inv conf
      ∧ ∀ k, s'.total conf k = s.total conf k ++ s.adds conf logLevel k op := by
  cases op with
  | text p t => exact ⟨_, rfl, ⟨hi.requests, hi.bufs⟩, fun k => (List.append_nil _).symm⟩
  | request op =>
      obtain ⟨ld, ps, hr⟩ := hi.requests
      obtain ⟨r, hexec, hr'⟩ := hr.step hen hnf
      refine ⟨{ s with requests := r }, ?_, ⟨hr', hi.bufs⟩, fun k => (List.append_nil _).symm⟩
      show (s.requests.exec op).map _ = _
      rw [hexec]
      rfl
  | log m => exact hi.log logLevel hen hnf
  | pass gone opens sizes =>
      obtain ⟨hi', htotal⟩ := hi.pass hen hfirst
      refine ⟨_, rfl, hi', fun k => ?_⟩
      rw [htotal k]
      exact (List.append_nil _).symm

/-- **A step with a fault** has no result. -/
theorem Inv.faults (hi : s.Inv conf) {op : LoggingOp δ} (hen : s.Enabled conf op)
    (hf : s.Faults logLevel op) : s.exec conf logLevel op = none := by
  cases op with
  | request op =>
      have hop : op = .ready none := hf
      show (s.requests.exec op).map _ = none
      rw [hop]
      rfl
  | log m => exact hi.log_freed hen hf
  | text p t => exact absurd hf id
  | pass gone opens sizes => exact absurd hf id

/-- **The stream of every run**, by induction on it. -/
theorem Inv.of_run {tr : List (Logging δ × LoggingOp δ)} {s : Logging δ}
    (h : (loggingLts δ conf logLevel).Run tr s) (hall : ∀ q ∈ tr, q.1.FirstPartWritten conf q.2) :
    s.Inv conf ∧ ∀ k, s.total conf k = tr.flatMap (fun q => q.1.adds conf logLevel k q.2) := by
  induction h with
  | init hinit =>
      obtain ⟨hreq, hbufs, hclosed⟩ := hinit
      obtain ⟨hinv, hfaith⟩ := LogState.run_faithful
        (show (logLts conf).Run [] _ from .init hbufs) (fun q hq => by cases hq)
      refine ⟨⟨ReqMemory.Inv.of_run (.init hreq), hinv⟩, fun k => ?_⟩
      unfold total
      rw [hclosed, hfaith.stream k]
      rfl
  | step hrun hstep ih =>
      rename_i s₀ op s₁
      obtain ⟨hi, htotal⟩ := ih (fun q hq => hall q (List.mem_append_left _ hq))
      have hfirst := hall _ (List.mem_append_right _ (List.mem_singleton_self _))
      -- the step had a result
      have hnf : ¬ s₀.Faults logLevel op := by
        intro hf
        have hnone := hi.faults hstep.1 hf
        rw [hstep.2] at hnone
        cases hnone
      obtain ⟨s', hexec, hi', hadds⟩ := hi.step logLevel hstep.1 hfirst hnf
      rw [hstep.2] at hexec
      cases hexec
      refine ⟨hi', fun k => ?_⟩
      rw [hadds k, htotal k, List.flatMap_append, List.flatMap_singleton]

/-- **The log files**, in the state `s` a run has reached by the steps `tr`. -/
structure Complete (conf : LogConf) (logLevel : Int) (tr : List (Logging δ × LoggingOp δ))
    (s : Logging δ) : Prop where
  /-- the files one after the other, and the buffer, are the lines of the calls -/
  written : ∀ k, (s.closed k).flatten ++ ((s.bufs k).file ++ (s.bufs k).unread conf.bufSize)
    = tr.flatMap (fun q => q.1.adds conf logLevel k q.2)
  /-- no line is left without its end, and none is longer than the buffer it is printed to -/
  whole : ∀ q ∈ tr, ∀ k, (q.1.adds conf logLevel k q.2 = []
      ∨ (q.1.adds conf logLevel k q.2).getLast? = some 10)
    ∧ (q.1.adds conf logLevel k q.2).length < logTempSize
  /-- once `fwrite` has taken everything, the files hold all of them -/
  flushed : ∀ gone opens sizes, s.Enabled conf (.pass gone opens sizes) →
    (∀ k, (s.bufs k).TakesAll conf.bufSize (sizes k)) → ∀ k,
      ((s.pass conf gone opens sizes).closed k).flatten ++ ((s.pass conf gone opens sizes).bufs k).file
        = tr.flatMap (fun q => q.1.adds conf logLevel k q.2)
  /-- a call has a fault if and only if it prints a text that was freed, or is a `req_ready`
  that gets no memory -/
  answered : ∀ op, s.Enabled conf op → s.FirstPartWritten conf op →
    (s.exec conf logLevel op = none ↔ s.Faults logLevel op)

end Logging

/-- **What the log files hold**, whatever the requests do, and whichever files are moved. -/
theorem log_files_complete {conf : LogConf} {logLevel : Int} {tr : List (Logging δ × LoggingOp δ)}
    {s : Logging δ} (h : (loggingLts δ conf logLevel).Run tr s)
    (hall : ∀ q ∈ tr, q.1.FirstPartWritten conf q.2) : s.Complete conf logLevel tr := by
  obtain ⟨hi, htotal⟩ := Logging.Inv.of_run h hall
  constructor
  case written => exact htotal
  case whole =>
    intro q _ k
    have hsize : ([] : List UInt8).length < logTempSize := by decide
    obtain ⟨s₀, op⟩ := q
    cases op with
    | request op => exact ⟨Or.inl rfl, hsize⟩
    | text p t => exact ⟨Or.inl rfl, hsize⟩
    | pass gone opens sizes => exact ⟨Or.inl rfl, hsize⟩
    | log m =>
        unfold Logging.adds
        dsimp only
        split
        · exact m.cut_line _ _ _
        · exact ⟨Or.inl rfl, hsize⟩
  case flushed =>
    intro gone opens sizes hen htakes k
    obtain ⟨hi', hpass⟩ := hi.pass hen (fun k hwrap => ((htakes k).2 hwrap).1)
    rw [← htotal k, ← hpass k]
    have hempty : ((s.pass conf gone opens sizes).bufs k).unread conf.bufSize = [] := by
      obtain ⟨file, hfile⟩ := s.reopen_bufs gone opens k
      show (((s.reopen gone opens).bufs k).drain conf.bufSize (sizes k)).unread conf.bufSize = []
      rw [hfile]
      refine LogBuf.Inv.drain_all ?_ (htakes k)
      exact ⟨(hi.bufs k).read_nonneg, (hi.bufs k).read_lt, (hi.bufs k).write_nonneg, (hi.bufs k).write_lt⟩
    unfold Logging.total
    rw [hempty, List.append_nil]
  case answered =>
    intro op hen hfirst
    refine ⟨fun hnone => ?_, hi.faults hen⟩
    by_contra hnf
    obtain ⟨s', hexec, -⟩ := hi.step logLevel hen hfirst hnf
    rw [hnone] at hexec
    cases hexec

/-- The log at the start, with a request at 10 in the next state. -/
def loggingStart : Logging Unit := ⟨reqMemStart, fun _ => none, emptyLog, fun _ => []⟩

def loggingOne : Logging Unit := { loggingStart with requests := reqMemStart.afterReady 10 }

/-- `rlog_notice(LD(r), "hi")` -/
def hiMessage : LogMessage Unit :=
  ⟨some 10, .notice, [114], [104, 105], [112], 1, [], fun _ => [], fun _ => 0⟩

theorem log_files_complete_witness : ∃ s, loggingOne.exec tinyLog 8 (.log hiMessage) = some s
    ∧ s.Complete tinyLog 8 [(loggingStart, .request (.ready (some 10))), (loggingOne, .log hiMessage)] := by
  have hstart : (loggingLts Unit tinyLog 8).Run [] loggingStart :=
    .init ⟨⟨rfl, rfl, rfl, by decide⟩, fun k => ⟨rfl, rfl, rfl⟩, rfl⟩
  have hready : (loggingLts Unit tinyLog 8).step loggingStart (.request (.ready (some 10)))
      loggingOne := by
    refine ⟨fun x _ => Finset.notMem_empty x, ?_⟩
    exact congrArg (Option.map fun r => { loggingStart with requests := r }) (reqMemStart.ready_eq 10)
  have hone := hstart.step hready
  have hfirst : ∀ q ∈ [(loggingStart, LoggingOp.request (.ready (some 10)))], q.1.FirstPartWritten tinyLog q.2 := by
    intro q hq
    rw [List.mem_singleton.1 hq]
    trivial
  have hbase : loggingOne.Enabled tinyLog (.log hiMessage) := by
    intro b hb
    rw [← Option.some.inj hb]
    decide
  have hnf : ¬ loggingOne.Faults 8 (.log hiMessage) := by
    intro hf
    obtain ⟨-, field, hfield, -⟩ := hf
    cases hfield
  obtain ⟨s, hs, -⟩ := (Logging.Inv.of_run hone hfirst).1.step 8 hbase trivial hnf
  refine ⟨s, hs, log_files_complete (hone.step ⟨hbase, hs⟩) ?_⟩
  intro q hq
  rcases List.mem_cons.1 hq with hq | hq
  · rw [hq]
    trivial
  · rw [List.mem_singleton.1 hq]
    trivial

/-- The request at 10 has pushed a text at 101, which was freed with the connection. -/
def loggingFreed : Logging Unit :=
  { loggingOne with
    requests := ((reqMemStart.afterReady 10).push 10 (.str 100 101)).get rfl
    texts := Function.update (fun _ => none) 100 (some [105]) }

/-- `rlog_debug` of `req_cleanup`: with `_log_level` at 16 it prints that text. -/
example : loggingFreed.exec tinyLog 16 (.log { hiMessage with level := .debug }) = none := rfl

end RedisAgent
