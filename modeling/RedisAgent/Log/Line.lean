/-
  RedisAgent.Log.Line — how `log_printf` builds a line.

  The line is put together in `_log_temp_buf` by one `snprintf` after another; each gets
  what is left of the buffer, and what it returns is cut to that.  A text of more than
  `INT_MAX` bytes makes `snprintf` return a negative number, and the code goes on as if
  nothing had been printed.  Inputs are the texts that libc makes of the time and of a
  `double`, and of the format and its arguments, and what stands at an address that was
  pushed.

  Main results:
    • `LogLine.put_writes` — one `snprintf` appends to the line, up to its end;
    • `log_line_assembled` — the line is the text of the printed parts, cut to the buffer.
-/
import Mathlib.Data.List.Perm.Subperm
import RedisAgent.Lib.CText
import RedisAgent.Lib.LinkEdits
import RedisAgent.Log.Fields
import RedisAgent.Log.Stream

namespace RedisAgent

/-! ## §1. The code. -/

/-- `sizeof(_log_temp_buf)` -/
def logTempSize : Nat := 16384

/-- `INT_MAX` -/
def intMax : Nat := 2147483647

/-- `snprintf(buf, n, ...)` where the format makes `text` of its arguments. -/
def snprintf (temp : Int → UInt8) (buf : Int) (n : Nat) (text : List UInt8) : (Int → UInt8) × Int :=
  (if n = 0 then temp else blit temp buf (text.take (n - 1) ++ [0]),
    if text.length ≤ intMax then text.length else -1)

/-- `_log_temp_buf`, and `buf` and `size` in `log_printf`; `seen` lists what the two
were so far. -/
structure LogLine where
  temp : Int → UInt8
  buf : Int
  size : Int
  seen : List (Int × Int)

/-- One `snprintf` with the update of `buf` and `size` that follows each of them. -/
def LogLine.put (s : LogLine) (text : List UInt8) : LogLine :=
  let (temp, ret) := snprintf s.temp s.buf (sizeT s.size) text
  let ret := if ret < 0 then 0 else if s.size ≤ ret then s.size - 1 else ret
  ⟨temp, s.buf + ret, s.size - ret, s.seen ++ [(s.buf + ret, s.size - ret)]⟩

/-- A number in print, as `%d` and `%ld` do it. -/
def signedText (n : Int) : List UInt8 := if n < 0 then 45 :: decimals n.natAbs else decimals n.toNat

/-- What stands in every line, and the texts of libc. -/
structure LogEnv (δ : Type) where
  name : List UInt8
  pid : Int32
  /-- what `strftime` makes of the time -/
  timebuf : List UInt8
  /-- what `%lf` makes of a number -/
  lf : δ → List UInt8
  /-- what `%s` finds at an address, up to the zero -/
  str : Nat → List UInt8

variable {δ : Type}

/-- `"%s: %s: %s * %d ["` -/
def logPrefix (env : LogEnv δ) (levelstr : List UInt8) : List UInt8 :=
  levelstr ++ [58, 32] ++ env.timebuf ++ [58, 32] ++ env.name ++ [32, 42, 32]
    ++ signedText env.pid.toInt ++ [32, 91]

/-- `"file=%s "` -/
def fileTag (fileline : List UInt8) : List UInt8 := [102, 105, 108, 101, 61] ++ fileline ++ [32]

/-- `"msg="` -/
def msgTag : List UInt8 := [109, 115, 103, 61]

/-- `"]\n"` -/
def lineEnd : List UInt8 := [93, 10]

def LogDataValue.text (env : LogEnv δ) : LogDataValue δ → List UInt8
  | .str strval => env.str strval
  | .int intval => signedText intval.toInt
  | .uint uintval => decimals uintval.toNat
  | .double doubleval => env.lf doubleval

/-- `"%s=%s "`, `"%s=%ld "`, `"%s=%lu "` or `"%s=%lf "` -/
def LogField.text (env : LogEnv δ) (field : LogField δ) : List UInt8 :=
  env.str field.key ++ [61] ++ field.value.text env ++ [32]

/-- The addresses at which `%s` looks for a field. -/
def LogField.strings (field : LogField δ) : List Nat :=
  field.key :: match field.value with
    | .str strval => [strval]
    | _ => []

/-- `while(cur)`, with `left` passes at most. -/
def LogLine.putChunks (env : LogEnv δ) (h : LogHeap δ) : Nat → Option Nat → LogLine → Option LogLine
  | _, none, s => some s
  | 0, some _, _ => none
  | left + 1, some cur, s =>
      (h.node cur).bind fun d =>
        putChunks env h left d.next (d.fields.foldl (fun s field => s.put (field.text env)) s)

/-- `if (*(buf - 1) != '\n') *(buf - 1) = '\n';` -/
def LogLine.endLine (s : LogLine) : LogLine :=
  if s.temp (s.buf - 1) ≠ 10 then { s with temp := Function.update s.temp (s.buf - 1) 10 } else s

/-- `log_printf` up to "copy the log string to global log buffer".  A list without a
cycle has no more chunks than `malloc` has handed out addresses. -/
def logPrintf (env : LogEnv δ) (h : LogHeap δ) (ld : Option Nat) (fileline : Option (List UInt8))
    (levelstr message : List UInt8) (temp : Int → UInt8) : Option LogLine :=
  let s : LogLine := ⟨temp, 0, logTempSize, [(0, logTempSize)]⟩
  let s := s.put (logPrefix env levelstr)
  let s := match fileline with
    | some fileline => s.put (fileTag fileline)
    | none => s
  (s.putChunks env h h.brk ld).map fun s =>
    let s := s.put msgTag
    let s := s.put message
    let s := s.put lineEnd
    s.endLine

/-- The line: `ret` bytes of `_log_temp_buf`. -/
def LogLine.line (s : LogLine) : List UInt8 := flatSlice s.temp 0 s.buf.toNat

/-! ## §2. What a line should be. -/

/-- The parts of a line, in their order. -/
def logParts (env : LogEnv δ) (fileline : Option (List UInt8)) (levelstr message : List UInt8)
    (fields : List (LogField δ)) : List (List UInt8) :=
  logPrefix env levelstr :: (fileline.toList.map fileTag
    ++ (fields.map (LogField.text env) ++ [msgTag, message, lineEnd]))

/-- The text of the parts that `snprintf` can print. -/
def printedText (parts : List (List UInt8)) : List UInt8 :=
  (parts.filter (fun part => decide (part.length ≤ intMax))).flatten

/-! ## §3. One `snprintf`. -/

namespace LogLine

variable {s : LogLine} {text : List UInt8}

/-- **What has been printed is `text`**, as far as it fits with a zero behind it. -/
structure Writes (s : LogLine) (text : List UInt8) : Prop where
  buf : s.buf = min text.length (logTempSize - 1)
  size : s.size = logTempSize - s.buf
  line : s.line = text.take (logTempSize - 1)
  seen : ∀ q ∈ s.seen, q.1 + q.2 = logTempSize ∧ 1 ≤ q.2

/-- The size stays positive. -/
theorem Writes.size_eq (h : s.Writes text) :
    s.size = ((logTempSize - min text.length (logTempSize - 1) : Nat) : Int) ∧ 1 ≤ s.size := by
  have hsize := h.size
  rw [h.buf] at hsize
  unfold logTempSize at hsize ⊢
  omega

/-- What `snprintf` writes behind the line leaves the line alone. -/
theorem Writes.put_line (h : s.Writes text) (part : List UInt8) {k : Nat}
    (hk : k ≤ (part.take (sizeT s.size - 1)).length) :
    flatSlice (s.put part).temp 0 (s.buf.toNat + k)
      = text.take (logTempSize - 1) ++ part.take k := by
  obtain ⟨hsize, hone⟩ := h.size_eq
  have hbuf : s.buf = ((min text.length (logTempSize - 1) : Nat) : Int) := h.buf
  have hpos : sizeT s.size ≠ 0 := by
    rw [hsize, sizeT_of_small (by unfold logTempSize; omega)]
    omega
  have htemp : (s.put part).temp = blit s.temp (0 + (s.buf.toNat : Nat)) (part.take (sizeT s.size - 1) ++ [0]) := by
    unfold put snprintf
    simp only [if_neg hpos]
    rw [show (0 : Int) + (s.buf.toNat : Nat) = s.buf by omega]
  have hlen : k ≤ (part.take (sizeT s.size - 1) ++ [0]).length := by
    rw [List.length_append]
    omega
  rw [htemp, flatSlice_blit hlen, List.take_append_of_le_length hk, List.take_take]
  rw [List.length_take] at hk
  rw [show min k (sizeT s.size - 1) = k by omega]
  congr 1
  exact h.line

/-- **A part that can be printed** is appended, up to the end of the buffer. -/
theorem Writes.put_printed (h : s.Writes text) {part : List UInt8} (hpart : part.length ≤ intMax) :
    (s.put part).Writes (text ++ part) := by
  obtain ⟨hsize, hone⟩ := h.size_eq
  have hbuf : s.buf = ((min text.length (logTempSize - 1) : Nat) : Int) := h.buf
  have hsizeT : sizeT s.size = logTempSize - min text.length (logTempSize - 1) := by
    rw [hsize]
    exact sizeT_of_small (by unfold logTempSize; omega)
  -- how far the cursor moves
  let k := min part.length (logTempSize - 1 - min text.length (logTempSize - 1))
  have hret : (s.put part).buf = s.buf + k ∧ (s.put part).size = s.size - k
      ∧ (s.put part).seen = s.seen ++ [(s.buf + k, s.size - k)] := by
    have hcut : (if (part.length : Int) < 0 then 0
        else if s.size ≤ (part.length : Int) then s.size - 1 else (part.length : Int)) = k := by
      rw [if_neg (by omega)]
      unfold logTempSize at hsize
      show _ = ((min part.length (16384 - 1 - min text.length (16384 - 1)) : Nat) : Int)
      split <;> omega
    unfold put snprintf
    simp only [if_pos hpart, hcut, and_self]
  obtain ⟨hbuf', hsize', hseen'⟩ := hret
  have hk : k ≤ (part.take (sizeT s.size - 1)).length := by
    rw [List.length_take, hsizeT]
    show min part.length (logTempSize - 1 - min text.length (logTempSize - 1)) ≤ _
    omega
  have hkNat : k = min part.length (logTempSize - 1 - min text.length (logTempSize - 1)) := rfl
  refine ⟨?_, ?_, ?_, ?_⟩
  · rw [hbuf', hbuf, List.length_append]
    unfold logTempSize at hkNat ⊢
    omega
  · rw [hbuf', hsize', h.size]
    omega
  · unfold LogLine.line
    have hcursor : (s.put part).buf.toNat = s.buf.toNat + k := by
      rw [hbuf']
      omega
    rw [hcursor, h.put_line part hk, List.take_append, hkNat]
    congr 1
    rw [List.take_eq_take_iff]
    unfold logTempSize
    omega
  · intro q hq
    rw [hseen', List.mem_append] at hq
    rcases hq with hq | hq
    · exact h.seen q hq
    · rw [List.mem_singleton.1 hq]
      have hsum := h.size
      unfold logTempSize at hkNat hsize hsum ⊢
      show s.buf + k + (s.size - k) = _ ∧ 1 ≤ s.size - (k : Int)
      omega

/-- **A part that cannot be printed** moves nothing. -/
theorem Writes.put_failed (h : s.Writes text) {part : List UInt8} (hpart : ¬ part.length ≤ intMax) :
    (s.put part).Writes text := by
  have hret : (s.put part).buf = s.buf ∧ (s.put part).size = s.size
      ∧ (s.put part).seen = s.seen ++ [(s.buf, s.size)] := by
    unfold put snprintf
    simp only [if_neg hpart]
    rw [if_pos (by decide), Int.add_zero, Int.sub_zero]
    exact ⟨rfl, rfl, rfl⟩
  obtain ⟨hbuf', hsize', hseen'⟩ := hret
  refine ⟨hbuf'.trans h.buf, ?_, ?_, ?_⟩
  · rw [hbuf', hsize', h.size]
  · have hline := h.put_line part (Nat.zero_le _)
    rw [Nat.add_zero, List.take_zero, List.append_nil] at hline
    unfold LogLine.line
    rw [hbuf', hline]
  · intro q hq
    rw [hseen', List.mem_append] at hq
    rcases hq with hq | hq
    · exact h.seen q hq
    · rw [List.mem_singleton.1 hq]
      have hsum := h.size
      have hone := h.size_eq.2
      exact ⟨by omega, hone⟩

/-- **Several parts**, one after another. -/
theorem Writes.puts (parts : List (List UInt8)) : ∀ {s : LogLine} {text : List UInt8}, s.Writes text →
    (parts.foldl put s).Writes (text ++ printedText parts) := by
  induction parts with
  | nil =>
      intro s text h
      show s.Writes (text ++ [])
      rw [List.append_nil]
      exact h
  | cons part parts ih =>
      intro s text h
      rw [List.foldl_cons]
      by_cases hpart : part.length ≤ intMax
      · have hprinted : printedText (part :: parts) = part ++ printedText parts := by
          unfold printedText
          rw [List.filter_cons_of_pos (by rw [decide_eq_true_eq]; exact hpart), List.flatten_cons]
        rw [hprinted, ← List.append_assoc]
        exact ih (h.put_printed hpart)
      · have hprinted : printedText (part :: parts) = printedText parts := by
          unfold printedText
          rw [List.filter_cons_of_neg (by rw [decide_eq_true_eq]; exact hpart)]
        rw [hprinted]
        exact ih (h.put_failed hpart)

/-- The newline is in the last cell, put there by `snprintf` or afterwards. -/
theorem endLine_line {n : Nat} (hbuf : s.buf = n + 1) : s.endLine.line = flatSlice s.temp 0 n ++ [10] := by
  have hcell : s.buf - 1 = n := by omega
  have hcells : s.buf.toNat = n + 1 := by omega
  unfold endLine LogLine.line
  rw [hcell]
  split
  · show flatSlice (Function.update s.temp n 10) 0 s.buf.toNat = _
    rw [hcells, flatSlice_succ, Int.zero_add, Function.update_self]
    congr 1
    apply List.map_congr_left
    intro i hi
    have hi' := List.mem_range.1 hi
    exact Function.update_of_ne (by omega) _ _
  · rename_i hnewline
    rw [hcells, flatSlice_succ, Int.zero_add, not_not.1 hnewline]

/-- **The end of the line** is a newline, cut or not. -/
theorem Writes.endLine (h : s.Writes (text ++ lineEnd)) :
    s.endLine.line = cutLine (logTempSize - 1) (text ++ lineEnd) := by
  have hlen : (text ++ lineEnd).length = text.length + 2 := List.length_append
  have hbuf := h.buf
  rw [hlen] at hbuf
  obtain ⟨n, hn⟩ : ∃ n : Nat, s.buf = n + 1 := by
    unfold logTempSize at hbuf
    exact ⟨(s.buf - 1).toNat, by omega⟩
  -- all but the last cell, which holds what is the last byte or is cut
  have hfront : flatSlice s.temp 0 n = ((text ++ lineEnd).take (logTempSize - 1)).dropLast := by
    have hcells : s.buf.toNat = n + 1 := by omega
    rw [← h.line]
    unfold LogLine.line
    rw [hcells, flatSlice_succ, List.dropLast_concat]
  rw [endLine_line hn, hfront]
  unfold cutLine
  by_cases hfit : (text ++ lineEnd).length ≤ logTempSize - 1
  · have hsplit : text ++ lineEnd = text ++ [93] ++ [10] := by
      rw [List.append_assoc]
      rfl
    rw [if_pos hfit, List.take_of_length_le hfit, hsplit, List.dropLast_concat]
  · rw [if_neg hfit, if_neg (by decide), List.dropLast_take (Nat.not_le.1 hfit)]

/-- **The fields of a list**, chunk by chunk. -/
theorem putChunks_walk (env : LogEnv δ) (h : LogHeap δ) (ps : List Nat) :
    ∀ (left : Nat) (p : Option Nat) (s : LogLine), ps.length ≤ left → Links.Walk h.links.next p ps →
      (∀ q ∈ ps, (h.node q).isSome) →
      s.putChunks env h left p
        = some (((ps.flatMap h.fieldsAt).map (LogField.text env)).foldl put s) := by
  induction ps with
  | nil =>
      intro left p s _ hwalk _
      have hp : p = none := hwalk
      rw [hp]
      cases left <;> rfl
  | cons a ps ih =>
      intro left p s hleft hwalk hlive
      obtain ⟨rfl, hrest⟩ := hwalk
      obtain ⟨d, hd⟩ := Option.isSome_iff_exists.1 (hlive a List.mem_cons_self)
      rw [LogHeap.next_of_node hd] at hrest
      cases left with
      | zero => exact absurd hleft (Nat.not_succ_le_zero _)
      | succ left =>
          unfold putChunks
          rw [hd, Option.bind_some, ih left d.next _ (Nat.le_of_succ_le_succ hleft) hrest
            (fun q hq => hlive q (List.mem_cons_of_mem _ hq)), List.flatMap_cons, List.map_append,
            List.foldl_append, LogHeap.fieldsAt_of_node hd]
          simp only [List.foldl_map]

end LogLine

/-! ## §4. The line. -/

theorem LogHeap.Holds.length_le {h : LogHeap δ} {ld last : Nat} {front : List Nat} {fields : List (LogField δ)}
    (hh : h.Holds ld front last fields) : (front ++ [last]).length ≤ h.brk := by
  have hsub : front ++ [last] ⊆ List.range h.brk :=
    fun p hp => List.mem_range.2 (hh.live p hp).2
  have hle := (hh.queue.nodup.subperm hsub).length_le
  rw [List.length_range] at hle
  exact hle

/-- Whatever else is printed, the end of the line is printed behind it. -/
theorem printedText_logParts (env : LogEnv δ) (fileline : Option (List UInt8))
    (levelstr message : List UInt8) (fields : List (LogField δ)) :
    ∃ text, printedText (logParts env fileline levelstr message fields) = text ++ lineEnd := by
  refine ⟨printedText (logPrefix env levelstr :: (fileline.toList.map fileTag
    ++ (fields.map (LogField.text env) ++ [msgTag, message]))), ?_⟩
  have hsplit : logParts env fileline levelstr message fields
      = (logPrefix env levelstr :: (fileline.toList.map fileTag
        ++ (fields.map (LogField.text env) ++ [msgTag, message]))) ++ [lineEnd] := by
    unfold logParts
    simp only [List.cons_append, List.append_assoc, List.nil_append]
  have hend : [lineEnd].filter (fun part => decide (part.length ≤ intMax)) = [lineEnd] := by
    rw [List.filter_cons_of_pos, List.filter_nil]
    decide
  rw [hsplit]
  unfold printedText
  rw [List.filter_append, hend, List.flatten_append, List.flatten_singleton]

/-- The chunks of a list, as a loop over `next` comes to them. -/
theorem LogHeap.Holds.walk {h : LogHeap δ} {ld last : Nat} {front : List Nat} {fields : List (LogField δ)}
    (hh : h.Holds ld front last fields) : Links.Walk h.links.next (some ld) (front ++ [last]) := by
  have hhead : some ld = (front ++ [last]).head? := hh.queue.head
  rw [hhead]
  exact hh.queue.chain.walk_next

/-- **`log_printf`** of a list that holds `fields`. -/
theorem logPrintf_holds (env : LogEnv δ) {h : LogHeap δ} {ld last : Nat} {front : List Nat}
    {fields : List (LogField δ)} (hh : h.Holds ld front last fields) (fileline : Option (List UInt8))
    (levelstr message : List UInt8) (temp : Int → UInt8) :
    ∃ s, logPrintf env h (some ld) fileline levelstr message temp = some s
      ∧ s.line = cutLine (logTempSize - 1)
        (printedText (logParts env fileline levelstr message fields))
      ∧ ∀ q ∈ s.seen, q.1 + q.2 = logTempSize ∧ 1 ≤ q.2 := by
  have hchunks := fun s => LogLine.putChunks_walk env h (front ++ [last]) h.brk (some ld) s
    hh.length_le hh.walk (fun q hq => (hh.live q hq).1)
  rw [← hh.spells] at hchunks
  -- all the parts, one after another
  let start : LogLine := ⟨temp, 0, logTempSize, [(0, logTempSize)]⟩
  have hstart : start.Writes [] := by
    refine ⟨rfl, rfl, rfl, ?_⟩
    intro q hq
    rw [List.mem_singleton.1 hq]
    exact ⟨rfl, by decide⟩
  have hrun : logPrintf env h (some ld) fileline levelstr message temp
      = some ((logParts env fileline levelstr message fields).foldl LogLine.put start).endLine := by
    -- what is behind the prefix and the file
    have hrest : ∀ s : LogLine, ((s.putChunks env h h.brk (some ld)).map fun s =>
        (((s.put msgTag).put message).put lineEnd).endLine)
          = some ((fields.map (LogField.text env) ++ [msgTag, message, lineEnd]).foldl
            LogLine.put s).endLine := by
      intro s
      rw [hchunks, Option.map_some, List.foldl_append]
      rfl
    unfold logPrintf logParts
    cases fileline with
    | none => exact hrest _
    | some fileline => exact hrest _
  have hwrites := hstart.puts (logParts env fileline levelstr message fields)
  rw [List.nil_append] at hwrites
  refine ⟨_, hrun, ?_, ?_⟩
  · -- the last part is the end of the line
    obtain ⟨text, htext⟩ := printedText_logParts env fileline levelstr message fields
    rw [htext] at hwrites ⊢
    exact hwrites.endLine
  · have hseen : ∀ s : LogLine, s.endLine.seen = s.seen := by
      intro s
      unfold LogLine.endLine
      split <;> rfl
    rw [hseen]
    exact hwrites.seen

/-- **Line assembly.**  Any pushes onto a new list, and then a message: `log_printf`
prints the text of the parts, without those that `snprintf` refuses, and cuts it to
16382 bytes and a newline if it is longer than 16383.  Throughout, `buf` and `size` add
up to the end of the buffer, and `size` is at least 1. -/
theorem log_line_assembled (env : LogEnv δ) (h₀ : LogHeap δ) (pushes : List (LogPush δ))
    (fileline : Option (List UInt8)) (levelstr message : List UInt8) (temp : Int → UInt8) :
    ∃ h s, logDataPushes (logDataNew h₀).2 (logDataNew h₀).1 pushes = some h
      ∧ logPrintf env h (some (logDataNew h₀).1) fileline levelstr message temp = some s
      ∧ s.line = cutLine 16383
        (printedText (logParts env fileline levelstr message (pushes.map LogPush.field)))
      ∧ ∀ q ∈ s.seen, q.1 + q.2 = 16384 ∧ 1 ≤ q.2 := by
  obtain ⟨h, hpush, front, last, hh⟩ := logDataPushes_spec pushes (LogHeap.holds_new h₀)
  rw [List.nil_append] at hh
  obtain ⟨s, hrun, hline, hseen⟩ := logPrintf_holds env hh fileline levelstr message temp
  exact ⟨h, s, hpush, hrun, hline, hseen⟩

/-- A message of 2^31 bytes: the line ends where the message should begin. -/
theorem log_line_left_out :
    ¬ ∀ (env : LogEnv Unit) (h₀ h : LogHeap Unit) (pushes : List (LogPush Unit))
      (fileline : Option (List UInt8)) (levelstr message : List UInt8) (temp : Int → UInt8) (s : LogLine),
      logDataPushes (logDataNew h₀).2 (logDataNew h₀).1 pushes = some h →
      logPrintf env h (some (logDataNew h₀).1) fileline levelstr message temp = some s →
      s.line = cutLine 16383
        (logParts env fileline levelstr message (pushes.map LogPush.field)).flatten := by
  intro hall
  let env : LogEnv Unit := ⟨[], 0, [], fun _ => [], fun _ => []⟩
  let h₀ : LogHeap Unit := ⟨fun _ => none, 0⟩
  obtain ⟨message, hmessage⟩ : ∃ message : List UInt8, message.length = 2147483648 :=
    ⟨List.replicate 2147483648 97, List.length_replicate⟩
  obtain ⟨s, hrun, hline, -⟩ :=
    logPrintf_holds env (LogHeap.holds_new h₀) none [] message (fun _ => 0)
  have hwhole := hall env h₀ _ [] none [] message (fun _ => 0) s rfl hrun
  have hprefix : (logPrefix env []).length = 10 := by decide
  have hparts : logParts env none [] message ([] : List (LogField Unit))
      = [logPrefix env [], msgTag, message, lineEnd] := rfl
  -- what the line is: everything but the message
  have hprinted : printedText (logParts env none [] message ([] : List (LogField Unit)))
      = logPrefix env [] ++ (msgTag ++ lineEnd) := by
    have hlong : ¬ message.length ≤ intMax := by
      unfold intMax
      omega
    have hshort : (logPrefix env []).length ≤ intMax := by
      unfold intMax
      omega
    rw [hparts]
    unfold printedText
    rw [List.filter_cons_of_pos (by rw [decide_eq_true_eq]; exact hshort),
      List.filter_cons_of_pos (by decide),
      List.filter_cons_of_neg (by rw [decide_eq_true_eq]; exact hlong),
      List.filter_cons_of_pos (by decide), List.filter_nil]
    rfl
  have hlen : s.line.length = 16 := by
    have htext : (logPrefix env [] ++ (msgTag ++ lineEnd)).length = 16 := by
      rw [List.length_append, hprefix]
      rfl
    rw [hline, hprinted]
    unfold cutLine
    rw [if_pos (by rw [htext]; decide), htext]
  -- what it should be: a cut line
  have hcut : s.line.length = 16383 := by
    have htext : 16383 < (logParts env none [] message ([] : List (LogField Unit))).flatten.length := by
      rw [hparts, List.flatten_cons, List.flatten_cons, List.flatten_cons, List.length_append,
        List.length_append, List.length_append, hmessage]
      omega
    rw [hwhole]
    unfold cutLine
    rw [List.map_nil, if_neg (Nat.not_le.2 htext), if_neg (by decide), List.length_append,
      List.length_take, List.length_singleton]
    omega
  omega

end RedisAgent
