/-
  RedisAgent.Log.Stream — the two log buffers of log.cpp.

  `log_printf` appends a line to the ring buffer of its level; `log_thread_loop`
  hands what is in the buffers to `fwrite`, which may accept less than it was asked
  to.  Both buffers are handled by the same code, here `LogBuf`.

  Lines and files are byte strings, `LOG_BUF_SIZE` is a parameter, and the `int`s of
  the code are integers: twice the 16 MiB of `LOG_BUF_SIZE` is far below 2^31.
-/
import RedisAgent.Lib.Ring
import RedisAgent.Lib.Runs
import RedisAgent.Lib.Words

namespace RedisAgent

/-! ## §1. The code. -/

/-- `LOG_BUF_SIZE`, and `write_to_stderr` of the configuration. -/
structure LogConf where
  bufSize : Int
  writeToStderr : Bool
  one_lt : 1 < bufSize

/-- The two buffers: `logwf_buf` takes the levels up to 2. -/
inductive LogKind
  | log
  | wf
  deriving Repr, DecidableEq

/-- `log_buf`, `log_write_offset`, `log_read_offset` and what `log_f` was given; and
the same for `logwf`. -/
structure LogBuf where
  buf : Int → UInt8
  writeOffset : Int
  readOffset : Int
  file : List UInt8

/-- A call that reaches into a buffer. -/
inductive LogCall
  /-- `memcpy(log_buf + offset, _log_temp_buf + src, length)` -/
  | memcpy (offset src length : Int)
  /-- `fwrite(log_buf + offset, 1, length, ...)` -/
  | fwrite (offset length : Int)
  deriving Repr, DecidableEq

/-- The buffer after the call, where `_log_temp_buf` holds `temp`. -/
def LogCall.run (temp : List UInt8) (buf : Int → UInt8) : LogCall → Int → UInt8
  | .memcpy offset src length => blit buf offset ((temp.drop src.toNat).take length.toNat)
  | .fwrite _ _ => buf

/-- `_log_temp_buf` and `ret` before the copy: the line as it was formatted, cut if
there is too little space left. -/
def LogBuf.fit (n : Int) (s : LogBuf) (line : List UInt8) : List UInt8 × Int :=
  let bufLeftSize := n - (s.writeOffset - s.readOffset + n).tmod n
  if line.length > bufLeftSize - 1 then
    if bufLeftSize - 1 > 0 then
      let ret := bufLeftSize - 1
      (line.set (ret - 1).toNat 10, ret)
    else (line, 0)
  else (line, line.length)

/-- The copies of `log_printf`. -/
def LogBuf.copies (n : Int) (s : LogBuf) (line : List UInt8) : List LogCall :=
  let ret := (s.fit n line).2
  if s.writeOffset + ret < n then [.memcpy s.writeOffset 0 ret]
  else [.memcpy s.writeOffset 0 (n - s.writeOffset),
    .memcpy 0 (n - s.writeOffset) (ret - n + s.writeOffset)]

/-- `log_printf` from "copy the log string to global log buffer" on. -/
def LogBuf.append (n : Int) (s : LogBuf) (line : List UInt8) : LogBuf :=
  let (temp, ret) := s.fit n line
  { s with
    buf := (s.copies n line).foldl (LogCall.run temp) s.buf
    writeOffset := (s.writeOffset + ret).tmod n }

/-- `fwrite(log_buf + log_read_offset, ...)` that accepts `size` bytes, and the
update of `log_read_offset`. -/
def LogBuf.advance (n : Int) (s : LogBuf) (size : Nat) : LogBuf :=
  { s with
    file := s.file ++ flatSlice s.buf s.readOffset size
    readOffset := (s.readOffset + size).tmod n }

/-- One round of `log_thread_loop`, of which `fwrite` accepts `sizes`. -/
def LogBuf.drain (n : Int) (s : LogBuf) (sizes : Nat × Nat) : LogBuf :=
  if s.writeOffset ≠ s.readOffset then
    if s.writeOffset > s.readOffset then s.advance n sizes.1
    else (s.advance n sizes.1).advance n sizes.2
  else s

/-- The calls of `fwrite` in the round for the file itself. -/
def LogBuf.fwrites (n : Int) (s : LogBuf) (sizes : Nat × Nat) : List LogCall :=
  if s.writeOffset ≠ s.readOffset then
    if s.writeOffset > s.readOffset then [.fwrite s.readOffset (s.writeOffset - s.readOffset)]
    else
      let r := (s.advance n sizes.1).readOffset
      [.fwrite s.readOffset (n - s.readOffset), .fwrite r (s.writeOffset - r)]
  else []

/-- `fwrite` accepts no more than it is asked to, which is a `size_t`. -/
def LogBuf.Accepts (n : Int) (s : LogBuf) (sizes : Nat × Nat) : Prop :=
  if s.writeOffset > s.readOffset then sizes.1 ≤ sizeT (s.writeOffset - s.readOffset)
  else sizes.1 ≤ sizeT (n - s.readOffset)
    ∧ sizes.2 ≤ sizeT (s.writeOffset - (s.advance n sizes.1).readOffset)

/-! ## §2. Runs. -/

/-- Both buffers. -/
abbrev LogState := LogKind → LogBuf

inductive LogOp
  /-- `log_printf` with the formatted line `line` -/
  | printf (level : Int) (line : List UInt8)
  /-- one round of `log_thread_loop`, with what `fwrite` accepts for each buffer -/
  | drain (sizes : LogKind → Nat × Nat)

/-- The buffer a level goes to. -/
def logKindOf (level : Int) : LogKind := if level ≤ 2 then .wf else .log

/-- As `log_init` leaves it; what the buffers hold is not looked at. -/
def LogState.Initial (s : LogState) : Prop :=
  ∀ k, (s k).writeOffset = 0 ∧ (s k).readOffset = 0 ∧ (s k).file = []

def LogState.exec (conf : LogConf) (s : LogState) : LogOp → LogState
  | .printf level line =>
      Function.update s (logKindOf level) ((s (logKindOf level)).append conf.bufSize line)
  | .drain sizes => fun k => (s k).drain conf.bufSize (sizes k)

def LogState.Enabled (conf : LogConf) (s : LogState) : LogOp → Prop
  | .printf _ _ => True
  | .drain sizes => ∀ k, (s k).Accepts conf.bufSize (sizes k)

/-- Every run. -/
def logLts (conf : LogConf) : Lts LogState LogOp where
  init s := s.Initial
  step s op s' := s.Enabled conf op ∧ s' = s.exec conf op

/-- The calls of an operation that reach into the buffer `k`; a call for the file is
followed by the same call for `stderr` if the configuration says so. -/
def LogState.calls (conf : LogConf) (s : LogState) (k : LogKind) : LogOp → List LogCall
  | .printf level line => if logKindOf level = k then (s k).copies conf.bufSize line else []
  | .drain sizes =>
      ((s k).fwrites conf.bufSize (sizes k)).flatMap
        (fun c => if conf.writeToStderr then [c, c] else [c])

/-! ## §3. What a faithful log is. -/

/-- The number of bytes between the read and the write offset. -/
def LogBuf.pending (n : Int) (s : LogBuf) : Nat :=
  (if s.readOffset ≤ s.writeOffset then s.writeOffset - s.readOffset
    else s.writeOffset - s.readOffset + n).toNat

/-- The free space: one cell always stays empty. -/
def LogBuf.room (n : Int) (s : LogBuf) : Nat := n.toNat - 1 - s.pending n

/-- The bytes that were not read yet. -/
def LogBuf.unread (n : Int) (s : LogBuf) : List UInt8 := ringSlice s.buf n s.readOffset (s.pending n)

/-- A line that does not fit is cut to the free space with a final newline, or
dropped. -/
def cutLine (room : Nat) (line : List UInt8) : List UInt8 :=
  if line.length ≤ room then line else if room = 0 then [] else line.take (room - 1) ++ [10]

/-- What an operation appends to the stream `k`. -/
def LogState.appends (conf : LogConf) (s : LogState) (k : LogKind) : LogOp → List UInt8
  | .printf level line =>
      if logKindOf level = k then cutLine ((s k).room conf.bufSize) line else []
  | .drain _ => []

/-- A call stays inside the buffer, and a copy inside the line it copies from. -/
def LogCall.Inside (n : Int) (line : Int) : LogCall → Prop
  | .memcpy offset src length =>
      0 ≤ length ∧ 0 ≤ offset ∧ offset + length ≤ n ∧ 0 ≤ src ∧ src + length ≤ line
  | .fwrite offset length => 0 ≤ length ∧ 0 ≤ offset ∧ offset + length ≤ n

/-- A call overwrites cell `i`. -/
def LogCall.Overwrites (i : Int) : LogCall → Prop
  | .memcpy offset _ length => offset ≤ i ∧ i < offset + length
  | .fwrite _ _ => False

/-- The length of the formatted line. -/
def LogOp.lineLength : LogOp → Int
  | .printf _ line => line.length
  | .drain _ => 0

/-- **A faithful log**, in the state `s` a run has reached by the steps `tr`. -/
structure LogFaithful (conf : LogConf) (tr : List (LogState × LogOp)) (s : LogState) : Prop where
  offsets : ∀ k, 0 ≤ (s k).readOffset ∧ (s k).readOffset < conf.bufSize
    ∧ 0 ≤ (s k).writeOffset ∧ (s k).writeOffset < conf.bufSize
  inside : ∀ q ∈ tr, ∀ k, ∀ c ∈ q.1.calls conf k q.2, c.Inside conf.bufSize q.2.lineLength
  spared : ∀ q ∈ tr, ∀ k, ∀ c ∈ q.1.calls conf k q.2, ∀ j < (q.1 k).pending conf.bufSize,
    ¬ c.Overwrites (ringIdx conf.bufSize (q.1 k).readOffset j)
  stream : ∀ k, (s k).file ++ (s k).unread conf.bufSize = tr.flatMap (fun q => q.1.appends conf k q.2)

/-- The first part of a wrapped buffer is accepted in full. -/
def LogState.FirstPartWritten (conf : LogConf) (s : LogState) : LogOp → Prop
  | .printf _ _ => True
  | .drain sizes => ∀ k, (s k).writeOffset < (s k).readOffset →
      ((sizes k).1 : Int) = conf.bufSize - (s k).readOffset

end RedisAgent
