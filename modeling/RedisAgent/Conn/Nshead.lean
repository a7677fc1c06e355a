/-
  RedisAgent.Conn.Nshead — reading requests from a client connection.

  connection.cpp, the two callbacks of server.cpp, and the part of libevent they
  rest on: an input buffer, a read switch, and two watermarks.

  nshead.h is not part of the repository: what its header fields hold is a
  parameter, `NsheadFormat`.  A buffer from `malloc` is represented by the bytes
  written to it so far, its capacity by `readbufSize`.  The high watermark keeps
  the input buffer far below 2^31 bytes, so `int` holds its length.
-/
import Mathlib.Data.List.Basic
import RedisAgent.Lib.Words

namespace RedisAgent

/-! ## §1. The records. -/

/-- `sizeof(nshead_t)` -/
def nsheadSize : Int := 36

/-- The header fields the proxy reads, as functions of the 36 header bytes, and
`NSHEAD_MAGICNUM`.  `provider` is the C string in the field. -/
structure NsheadFormat where
  magicNum : List UInt8 → UInt32
  bodyLen : List UInt8 → UInt32
  logId : List UInt8 → UInt32
  provider : List UInt8 → List UInt8
  magicnum : UInt32

/-- `nshead_state_t` -/
inductive NsheadState
  | idle
  | head
  | body
  | processing
  deriving Repr, DecidableEq

/-- A response `nshead_conn_write` put on the wire. -/
structure Reply where
  logId : UInt32
  provider : List UInt8
  body : List UInt8
  deriving Repr, DecidableEq

/-- `nshead_conn_t` with its `connection_t` and the `event_t` behind it.  `faulted` says that
a body was read into a null `readbuf`, which ends the process. -/
structure Connection where
  input : List UInt8
  readEnabled : Bool
  lowWatermark : Nat
  highWatermark : Nat
  state : NsheadState
  expectedInputLen : Int
  readbuf : Option (List UInt8)
  readbufSize : Int
  provider : List UInt8
  logId : UInt32
  isProcessing : Bool
  hasError : Bool
  freed : Bool
  faulted : Bool
  written : List Reply
  deriving Repr, DecidableEq

/-- What `req_ready` takes from the connection: `(r->readbuf, r->readbuf_size)`. -/
abbrev ReqInput := Option (List UInt8) × Int

/-! ## §2. Reading. -/

/-- `nshead_conn_set_expected_input_len` -/
def nsheadConnSetExpectedInputLen (c : Connection) (size : Int) : Connection :=
  { c with
    expectedInputLen := size
    lowWatermark := sizeT size
    highWatermark := sizeT ((size * 10).bmod (2 ^ 32)) }

/-- `nshead_conn_prepare_read` -/
def nsheadConnPrepareRead (c : Connection) : Connection :=
  nsheadConnSetExpectedInputLen { c with state := .head } nsheadSize

/-- `event_get_input_len` -/
def eventGetInputLen (c : Connection) : Int := c.input.length

/-- `event_read`: what it read, and the rest. -/
def eventRead (c : Connection) (size : Int) : List UInt8 × Connection :=
  (c.input.take (sizeT size), { c with input := c.input.drop (sizeT size) })

/-- `malloc(len)`: nothing written yet; a negative `len` is a huge `size_t`. -/
def mallocBuf (len : Int) : Option (List UInt8) := if 0 ≤ len then some [] else none

/-- `c->readbuf` made large enough for `len` bytes. -/
def ensureReadbuf (c : Connection) (len : Int) : Connection :=
  if c.readbuf = none ∨ c.readbufSize < len then
    { c with readbuf := mallocBuf len, readbufSize := len }
  else c

/-- The state `head` of the loop: the header is checked, and the body prepared
for; `none` stands for `return -1`. -/
def nsheadReadHead (fmt : NsheadFormat) (c : Connection) : Option Connection :=
  let (head, c) := eventRead c nsheadSize
  if (head.length : Int) < nsheadSize ∨ fmt.magicNum head ≠ fmt.magicnum then none
  else
    let c := { c with
      state := .body
      provider := (fmt.provider head).take 15
      logId := fmt.logId head }
    let len := (fmt.bodyLen head).toInt32.toInt
    some (ensureReadbuf (nsheadConnSetExpectedInputLen c len) len)

/-- The other states of the loop.  The whole capacity of the buffer is asked for,
not the length of the body. -/
def nsheadReadBody (c : Connection) : Int × Connection :=
  let (data, c) := eventRead c c.readbufSize
  let c := { c with
    readbuf := c.readbuf.map (fun old => data ++ old.drop data.length)
    -- `malloc` gives nothing for a negative length, and `event_read` writes all the same
    faulted := c.faulted || (c.readbuf.isNone && !data.isEmpty) }
  if (data.length : Int) < c.expectedInputLen then (-1, c)
  else (1, { c with state := .processing })

/-- One pass of the loop of `nshead_conn_read`: what it returns, `none` when the
loop goes on.  After a bad header the connection is only torn down. -/
def nsheadConnReadPass (fmt : NsheadFormat) (c : Connection) : Option Int × Connection :=
  if c.state = .head then
    match nsheadReadHead fmt c with
    | some c => (none, c)
    | none => (some (-1), (eventRead c nsheadSize).2)
  else
    let (ret, c) := nsheadReadBody c
    (some ret, c)

/-- The loop of `nshead_conn_read`, for at most `fuel` passes. -/
def nsheadConnReadLoop (fmt : NsheadFormat) : Nat → Connection → Int × Connection
  | 0, c => (0, c)
  | fuel + 1, c =>
      if eventGetInputLen c ≥ c.expectedInputLen then
        match nsheadConnReadPass fmt c with
        | (some ret, c) => (ret, c)
        | (none, c) => nsheadConnReadLoop fmt fuel c
      else (0, c)

/-- `nshead_conn_read`.  Only the pass over a header goes on, and it leaves the
state `head`, so there are at most two. -/
def nsheadConnRead (fmt : NsheadFormat) (c : Connection) : Int × Connection :=
  nsheadConnReadLoop fmt 2 c

/-- A header that is read leads to the state `body`. -/
theorem nsheadReadHead_state {fmt : NsheadFormat} {c c' : Connection}
    (h : nsheadReadHead fmt c = some c') : c'.state = .body := by
  unfold nsheadReadHead at h
  simp only at h
  by_cases hbad : (((eventRead c nsheadSize).1.length : Int) < nsheadSize
      ∨ fmt.magicNum (eventRead c nsheadSize).1 ≠ fmt.magicnum)
  · rw [if_pos hbad] at h
    cases h
  · rw [if_neg hbad] at h
    cases h
    unfold ensureReadbuf
    split <;> rfl

/-- A pass that goes on has read a header. -/
theorem nsheadConnReadPass_none {fmt : NsheadFormat} {c c' : Connection}
    (h : nsheadConnReadPass fmt c = (none, c')) : c.state = .head ∧ c'.state = .body := by
  unfold nsheadConnReadPass at h
  by_cases hs : c.state = .head
  · rw [if_pos hs] at h
    rcases hh : nsheadReadHead fmt c with _ | c''
    · rw [hh] at h
      cases h
    · rw [hh] at h
      cases h
      exact ⟨hs, nsheadReadHead_state hh⟩
  · rw [if_neg hs] at h
    cases h

/-- More passes than two change nothing. -/
theorem nsheadConnReadLoop_fuel (fmt : NsheadFormat) (c : Connection) (n : Nat) :
    nsheadConnReadLoop fmt (n + 2) c = nsheadConnRead fmt c := by
  show nsheadConnReadLoop fmt (n + 2) c = nsheadConnReadLoop fmt 2 c
  rw [nsheadConnReadLoop, nsheadConnReadLoop]
  split
  · rcases hp : nsheadConnReadPass fmt c with ⟨_ | ret, c'⟩
    · have hbody := (nsheadConnReadPass_none hp).2
      show nsheadConnReadLoop fmt (n + 1) c' = nsheadConnReadLoop fmt 1 c'
      rw [nsheadConnReadLoop, nsheadConnReadLoop]
      split
      · rcases hp' : nsheadConnReadPass fmt c' with ⟨_ | ret, c''⟩
        · have hhead := (nsheadConnReadPass_none hp').1
          rw [hbody] at hhead
          cases hhead
        · rfl
      · rfl
    · rfl
  · rfl

/-! The loop in terms of itself: it stops, returns, or goes round again. -/

theorem nsheadConnRead_stop {fmt : NsheadFormat} {c : Connection}
    (h : ¬ eventGetInputLen c ≥ c.expectedInputLen) : nsheadConnRead fmt c = (0, c) := by
  unfold nsheadConnRead
  rw [nsheadConnReadLoop, if_neg h]

theorem nsheadConnRead_return {fmt : NsheadFormat} {c c' : Connection} {ret : Int}
    (h : eventGetInputLen c ≥ c.expectedInputLen) (hp : nsheadConnReadPass fmt c = (some ret, c')) :
    nsheadConnRead fmt c = (ret, c') := by
  unfold nsheadConnRead
  rw [nsheadConnReadLoop, if_pos h, hp]

theorem nsheadConnRead_again {fmt : NsheadFormat} {c c' : Connection}
    (h : eventGetInputLen c ≥ c.expectedInputLen) (hp : nsheadConnReadPass fmt c = (none, c')) :
    nsheadConnRead fmt c = nsheadConnRead fmt c' := by
  -- a third pass is never made, so there may as well be one
  rw [← nsheadConnReadLoop_fuel fmt c 1, nsheadConnReadLoop, if_pos h, hp]
  rfl

/-! ## §3. The callbacks. -/

/-- `connection_free` -/
def connectionFree (c : Connection) : Connection :=
  { c with readbuf := none, readbufSize := 0, freed := true }

/-- `connection_prepare_read` -/
def connectionPrepareRead (c : Connection) : Connection :=
  { nsheadConnPrepareRead c with readEnabled := true }

/-- `connection_write`, and with it `server_write` -/
def connectionWrite (c : Connection) (body : List UInt8) : Connection :=
  if c.hasError then c else { c with written := c.written ++ [⟨c.logId, c.provider, body⟩] }

/-- `error_cb` of server.cpp -/
def errorCb (c : Connection) : Connection := if c.isProcessing then c else connectionFree c

/-- `connection_call_error_cb` -/
def connectionCallErrorCb (c : Connection) : Connection := errorCb { c with hasError := true }

/-- `"__MONITOR__"` -/
def monitorProvider : List UInt8 := [95, 95, 77, 79, 78, 73, 84, 79, 82, 95, 95]

/-- `read_done_cb` of server.cpp: the connection, and what it gives `req_ready`. -/
def readDoneCb (c : Connection) : Connection × Option ReqInput :=
  let c := { c with isProcessing := true, readEnabled := false }
  if c.provider = monitorProvider then (connectionWrite c [], none)
  else (c, some (c.readbuf, c.readbufSize))

/-- `connection_read_cb`; nothing more is run when the process has died in it. -/
def connectionReadCb (fmt : NsheadFormat) (c : Connection) : Connection × Option ReqInput :=
  let (ret, c) := nsheadConnRead fmt c
  if c.faulted then (c, none)
  else if ret > 0 then readDoneCb c
  else if ret < 0 then (connectionCallErrorCb c, none)
  else (c, none)

/-- `server_process_done` -/
def serverProcessDone (c : Connection) : Connection :=
  let c := { c with isProcessing := false }
  if c.hasError then connectionFree c else connectionPrepareRead c

/-- `connection_new`, as `calloc` leaves it, and `accept_cb`'s
`connection_prepare_read`. -/
def connectionAccept : Connection :=
  connectionPrepareRead
    { input := [], readEnabled := false, lowWatermark := 0, highWatermark := 0, state := .idle,
      expectedInputLen := 0, readbuf := none, readbufSize := 0, provider := [], logId := 0,
      isProcessing := false, hasError := false, freed := false, faulted := false, written := [] }

end RedisAgent
