/-
  RedisAgent.Conn.Frames — which requests come out of a stream of frames.

  A run of one client connection is a sequence of arrivals of bytes and of
  completions of the request in progress.  While a request is in progress reading
  is switched off, so bytes sent then wait in the socket and arrive afterwards.

  `Status` follows a run against the frames that were sent: either every request
  so far was its frame and the reader stands where it should (`Progress` and
  `Phase`), or one of the two things has happened after which the requests can no
  longer be the frames.  Main result: `connection_requests_iff`.
-/
import Mathlib.Data.List.Pairwise
import RedisAgent.Lib.OnePerArrival
import RedisAgent.Lib.Runs
import RedisAgent.Lib.Words
import RedisAgent.Conn.Nshead

namespace RedisAgent

/-! ## §1. Frames, and runs of a connection. -/

/-- A well-formed frame. -/
structure Frame (fmt : NsheadFormat) where
  head : List UInt8
  body : List UInt8
  headLen : head.length = 36
  magic : fmt.magicNum head = fmt.magicnum
  bodyLen : (fmt.bodyLen head).toNat = body.length
  small : body.length * 10 < 2 ^ 31

variable {fmt : NsheadFormat}

def Frame.bytes (f : Frame fmt) : List UInt8 := f.head ++ f.body

/-- The length of the body. -/
def Frame.len (f : Frame fmt) : Nat := f.body.length

/-- The length of the frame. -/
def Frame.size (f : Frame fmt) : Nat := 36 + f.len

/-- The provider `nshead_conn_read` stores is `"__MONITOR__"`. -/
def Frame.IsMonitor (f : Frame fmt) : Prop := (fmt.provider f.head).take 15 = monitorProvider

/-- The pair a request for exactly this frame is given. -/
def Frame.input (f : Frame fmt) : ReqInput := (some f.body, f.len)

/-- The bytes of some frames, one after the other. -/
def stream (fs : List (Frame fmt)) : List UInt8 := (fs.map Frame.bytes).flatten

/-- A connection with the requests it was read into; `active` says that one of
them has not called `server_process_done` yet. -/
structure ConnState where
  conn : Connection
  requests : List ReqInput
  active : Bool
  deriving Repr, DecidableEq

inductive ConnOp
  /-- new bytes in the input buffer -/
  | arrive (bytes : List UInt8)
  /-- the request in progress calls `server_process_done` -/
  | done
  deriving Repr, DecidableEq

/-- libevent runs the read callback when bytes came and the low watermark is
reached. -/
def ConnState.exec (fmt : NsheadFormat) (s : ConnState) : ConnOp → ConnState
  | .arrive bytes =>
      let c := { s.conn with input := s.conn.input ++ bytes }
      if c.lowWatermark ≤ c.input.length then
        let (c, req) := connectionReadCb fmt c
        { conn := c, requests := s.requests ++ req.toList, active := s.active || req.isSome }
      else { s with conn := c }
  | .done => { s with conn := serverProcessDone s.conn, active := false }

/-- When a step can be taken; a process that has died takes none. -/
def ConnState.Enabled (s : ConnState) : ConnOp → Prop
  | .arrive bytes => s.conn.faulted = false ∧ s.conn.readEnabled = true ∧ s.conn.freed = false
      ∧ bytes ≠ []
  | .done => s.conn.faulted = false ∧ s.active = true

def connLts (fmt : NsheadFormat) : Lts ConnState ConnOp where
  init s := s = ⟨connectionAccept, [], false⟩
  step s op s' := s.Enabled op ∧ s' = s.exec fmt op

/-- The arrivals of a run. -/
def arrivals (tr : List (ConnState × ConnOp)) : List (List UInt8) :=
  tr.filterMap (fun p => match p.2 with | .arrive bytes => some bytes | .done => none)

/-! ## §2. What the reader does with one frame. -/

/-- The read buffer has capacity `cap` (and was never allocated if it is null). -/
def Buffer (c : Connection) (cap : Nat) : Prop :=
  (c.readbuf = none ∧ c.readbufSize = 0 ∧ cap = 0)
    ∨ ∃ old, c.readbuf = some old ∧ old.length ≤ cap ∧ c.readbufSize = cap

/-- The read buffer is allocated. -/
def Allocated (c : Connection) (cap : Nat) : Prop :=
  ∃ old, c.readbuf = some old ∧ old.length ≤ cap ∧ c.readbufSize = cap

/-- The reader waits for the body of `f`, its header read. -/
structure WaitsBody (c : Connection) (f : Frame fmt) (cap : Nat) : Prop where
  state : c.state = .body
  expected : c.expectedInputLen = f.len
  low : c.lowWatermark = f.len
  provider : c.provider = (fmt.provider f.head).take 15
  noError : c.hasError = false
  buffer : Allocated c (max cap f.len)

/-- **The header.**  It is taken off the input, and the buffer holds the body. -/
theorem nsheadReadHead_spec {c : Connection} {f : Frame fmt} {cap : Nat} {rest : List UInt8}
    (hin : c.input = f.head ++ rest) (hbuf : Buffer c cap) (herr : c.hasError = false) :
    ∃ c', nsheadReadHead fmt c = some c' ∧ WaitsBody c' f cap ∧ c'.input = rest
      ∧ c'.readEnabled = c.readEnabled ∧ c'.faulted = c.faulted := by
  have hsize : sizeT nsheadSize = f.head.length := by
    rw [f.headLen]
    rfl
  have htake : c.input.take (sizeT nsheadSize) = f.head := by
    rw [hin, hsize, List.take_left]
  have hdrop : c.input.drop (sizeT nsheadSize) = rest := by
    rw [hin, hsize, List.drop_left]
  have hlen : (fmt.bodyLen f.head).toInt32.toInt = f.len := by
    have hsmall := f.small
    have hb := f.bodyLen
    rw [toInt32_of_small (by omega), hb]
    rfl
  have hlow : sizeT (f.len : Int) = f.len := by
    have hsmall := f.small
    have hfl : f.len = f.body.length := rfl
    exact sizeT_of_small (by omega)
  have hgood : ¬ ((f.head.length : Int) < nsheadSize ∨ fmt.magicNum f.head ≠ fmt.magicnum) := by
    intro hbad
    rcases hbad with hshort | hmagic
    · rw [f.headLen] at hshort
      exact absurd hshort (by decide)
    · exact hmagic f.magic
  have hread : nsheadReadHead fmt c = some (ensureReadbuf (nsheadConnSetExpectedInputLen
      { c with
        input := rest
        state := .body
        provider := (fmt.provider f.head).take 15
        logId := fmt.logId f.head } f.len) f.len) := by
    unfold nsheadReadHead eventRead
    simp only [htake, hdrop]
    rw [if_neg hgood, hlen]
  rw [hread]
  refine ⟨_, rfl, ?_, ?_, ?_, ?_⟩
  · unfold ensureReadbuf
    by_cases hgrow : (nsheadConnSetExpectedInputLen
        { c with
          input := rest
          state := .body
          provider := (fmt.provider f.head).take 15
          logId := fmt.logId f.head } f.len).readbuf = none
      ∨ (nsheadConnSetExpectedInputLen
        { c with
          input := rest
          state := .body
          provider := (fmt.provider f.head).take 15
          logId := fmt.logId f.head } f.len).readbufSize < f.len
    · -- a new buffer, exactly as long as the body
      have hmax : max cap f.len = f.len := by
        rcases hgrow with hnone | hless
        · have hnone' : c.readbuf = none := hnone
          rcases hbuf with ⟨-, -, hcap⟩ | ⟨old, hold, -⟩
          · omega
          · rw [hnone'] at hold
            cases hold
        · have hless' : c.readbufSize < f.len := hless
          rcases hbuf with ⟨-, -, hcap⟩ | ⟨old, -, -, hcap⟩
          · omega
          · omega
      rw [if_pos hgrow]
      refine ⟨rfl, rfl, hlow, rfl, herr, [], ?_, Nat.zero_le _, ?_⟩
      · show mallocBuf f.len = some []
        unfold mallocBuf
        rw [if_pos (by omega)]
      · show (f.len : Int) = (max cap f.len : Nat)
        rw [hmax]
    · -- the old one is large enough
      rw [if_neg hgrow]
      have hkeep : c.readbuf ≠ none ∧ ¬ c.readbufSize < f.len := by
        constructor
        · intro hnone
          exact hgrow (Or.inl hnone)
        · intro hless
          exact hgrow (Or.inr hless)
      rcases hbuf with ⟨hnone, -⟩ | ⟨old, hold, holdlen, hcap⟩
      · exact absurd hnone hkeep.1
      · refine ⟨rfl, rfl, hlow, rfl, herr, old, hold, ?_, ?_⟩
        · omega
        · show c.readbufSize = (max cap f.len : Nat)
          have := hkeep.2
          omega
  · unfold ensureReadbuf
    split <;> rfl
  · unfold ensureReadbuf
    split <;> rfl
  · unfold ensureReadbuf
    split <;> rfl

/-- **The body.**  As much as the buffer holds is taken off the input. -/
theorem nsheadReadBody_spec {c : Connection} {f : Frame fmt} {cap : Nat}
    (h : WaitsBody c f cap) (hcap : cap < 2 ^ 31) (hlen : f.len ≤ c.input.length) :
    ∃ old : List UInt8, old.length ≤ max cap f.len
      ∧ nsheadReadBody c = (1, { c with
          input := c.input.drop (max cap f.len)
          readbuf := some (c.input.take (max cap f.len)
            ++ old.drop (c.input.take (max cap f.len)).length)
          state := .processing }) := by
  obtain ⟨old, hold, holdlen, hsize⟩ := h.buffer
  have hsmall := f.small
  have hfl : f.len = f.body.length := rfl
  have hst : sizeT c.readbufSize = max cap f.len := by
    rw [hsize]
    exact sizeT_of_small (by omega)
  refine ⟨old, holdlen, ?_⟩
  unfold nsheadReadBody eventRead
  simp only [hst, hold, Option.map_some, Option.isNone_some, Bool.false_and, Bool.or_false]
  rw [if_neg]
  rw [h.expected, List.length_take]
  omega

/-- In any state but `head`, one pass of the loop returns. -/
theorem nsheadConnReadLoop_body {c : Connection} {f : Frame fmt} {cap : Nat} (n : Nat)
    (h : WaitsBody c f cap) (hlen : f.len ≤ c.input.length) :
    nsheadConnReadLoop fmt (n + 1) c = nsheadReadBody c := by
  have henough : eventGetInputLen c ≥ c.expectedInputLen := by
    rw [h.expected]
    show (f.len : Int) ≤ (c.input.length : Int)
    omega
  have hstate : c.state ≠ .head := by
    rw [h.state]
    decide
  rw [nsheadConnReadLoop, if_pos henough]
  unfold nsheadConnReadPass
  rw [if_neg hstate]

/-- Without the whole body, the loop stops. -/
theorem nsheadConnReadLoop_wait {c : Connection} {f : Frame fmt} {cap : Nat} (n : Nat)
    (h : WaitsBody c f cap) (hlen : c.input.length < f.len) :
    nsheadConnReadLoop fmt n c = (0, c) := by
  cases n with
  | zero => rfl
  | succ n =>
      have hshort : ¬ eventGetInputLen c ≥ c.expectedInputLen := by
        rw [h.expected]
        show ¬ (f.len : Int) ≤ (c.input.length : Int)
        omega
      rw [nsheadConnReadLoop, if_neg hshort]

/-- The header, and then the rest of the loop. -/
theorem nsheadConnReadLoop_head {c c' : Connection} (n : Nat) (hstate : c.state = .head)
    (hexp : c.expectedInputLen = 36) (hlen : 36 ≤ c.input.length)
    (hread : nsheadReadHead fmt c = some c') :
    nsheadConnReadLoop fmt (n + 1) c = nsheadConnReadLoop fmt n c' := by
  have henough : eventGetInputLen c ≥ c.expectedInputLen := by
    rw [hexp]
    show (36 : Int) ≤ (c.input.length : Int)
    omega
  rw [nsheadConnReadLoop, if_pos henough]
  unfold nsheadConnReadPass
  rw [if_pos hstate, hread]

/-! ## §3. A run against the frames that were sent. -/

/-- The frames `sent` have become requests, each exactly its frame, and the
buffer has the capacity `cap` of the longest of them.  `b` bytes of the frames
`rest` are in the input, or were taken off it as a header. -/
structure Progress (frames sent rest : List (Frame fmt)) (arrived : List Nat) (cap b : Nat)
    (s : ConnState) : Prop where
  split : frames = sent ++ rest
  requests : s.requests = sent.map Frame.input
  noMonitor : ∀ f ∈ sent, ¬ f.IsMonitor
  sorted : (sent.map Frame.len).Pairwise (· ≤ ·)
  capLe : ∀ f ∈ sent, f.len ≤ cap
  capAttained : cap = 0 ∨ ∃ f ∈ sent, f.len = cap
  served : arrived.foldl onArrival (frames.map Frame.size, 0) = (rest.map Frame.size, b)

/-- Where the reader stands, with `pending` not arrived yet. -/
inductive Phase (pending : List UInt8) (rest : List (Frame fmt)) (cap b : Nat) (s : ConnState) :
    Prop
  /-- waiting for a header -/
  | head : s.conn.state = .head → s.conn.expectedInputLen = 36 → s.conn.lowWatermark = 36 →
      s.conn.readEnabled = true → s.conn.hasError = false → s.active = false →
      s.conn.input ++ pending = stream rest → b = s.conn.input.length → Buffer s.conn cap →
      Phase pending rest cap b s
  /-- waiting for a body -/
  | body (f : Frame fmt) (rest' : List (Frame fmt)) : rest = f :: rest' →
      WaitsBody s.conn f cap → s.conn.readEnabled = true → s.active = false →
      s.conn.input ++ pending = f.body ++ stream rest' → b = 36 + s.conn.input.length →
      Phase pending rest cap b s
  /-- a request is in progress -/
  | processing : s.active = true → s.conn.readEnabled = false → s.conn.hasError = false →
      s.conn.input ++ pending = stream rest → b = s.conn.input.length → Buffer s.conn cap →
      Phase pending rest cap b s

/-- The state of a run. -/
inductive Status (pending : List UInt8) (frames : List (Frame fmt)) (arrived : List Nat)
    (s : ConnState) : Prop
  /-- every request so far is its frame -/
  | good (sent rest : List (Frame fmt)) (cap b : Nat) :
      Progress frames sent rest arrived cap b s → Phase pending rest cap b s →
      Status pending frames arrived s
  /-- a frame of the monitor was read, and reading never starts again -/
  | stuck : s.conn.readEnabled = false → s.active = false →
      s.requests.length < frames.length → (∃ f ∈ frames, f.IsMonitor) →
      Status pending frames arrived s
  /-- a shorter frame followed a longer one, and its request is not its frame -/
  | wrong : ¬ s.requests <+: frames.map Frame.input →
      ¬ (frames.map Frame.len).Pairwise (· ≤ ·) → Status pending frames arrived s

theorem stream_cons (f : Frame fmt) (rest : List (Frame fmt)) :
    stream (f :: rest) = f.head ++ (f.body ++ stream rest) := by
  unfold stream
  rw [List.map_cons, List.flatten_cons]
  show (f.head ++ f.body) ++ _ = _
  rw [List.append_assoc]

/-- The longest frame sent fits in an `int`. -/
theorem Progress.cap_small {frames sent rest : List (Frame fmt)} {arrived : List Nat} {cap b : Nat}
    {s : ConnState} (h : Progress frames sent rest arrived cap b s) : cap < 2 ^ 31 := by
  rcases h.capAttained with hzero | ⟨f, -, hf⟩
  · omega
  · have hsmall := f.small
    have hfl : f.len = f.body.length := rfl
    omega

/-- **A body is there.**  The callback takes it and hands it on: as it is, if no
longer one came before. -/
theorem Progress.deliver {frames sent rest : List (Frame fmt)} {f : Frame fmt}
    {arrived arrived' : List Nat} {cap b : Nat} {s : ConnState} {pending : List UInt8}
    (h : Progress frames sent (f :: rest) arrived cap b s) (hact : s.active = false)
    {c : Connection} (hc : WaitsBody c f cap) (hin : c.input ++ pending = f.body ++ stream rest)
    (hlen : f.len ≤ c.input.length)
    (hserved : arrived'.foldl onArrival (frames.map Frame.size, 0)
      = (rest.map Frame.size, c.input.length - f.len)) :
    Status pending frames arrived'
      { conn := (readDoneCb (nsheadReadBody c).2).1
        requests := s.requests ++ (readDoneCb (nsheadReadBody c).2).2.toList
        active := s.active || (readDoneCb (nsheadReadBody c).2).2.isSome } := by
  obtain ⟨old, hold, hread⟩ := nsheadReadBody_spec hc h.cap_small hlen
  have hfl : f.len = f.body.length := rfl
  rw [hread]
  by_cases hmon : f.IsMonitor
  · -- the monitor gets its answer, and `server_process_done` is never called
    have hprov : c.provider = monitorProvider := hc.provider.trans hmon
    have hdone : readDoneCb { c with
          input := c.input.drop (max cap f.len)
          readbuf := some (c.input.take (max cap f.len)
            ++ old.drop (c.input.take (max cap f.len)).length)
          state := .processing }
        = (connectionWrite { c with
            input := c.input.drop (max cap f.len)
            readbuf := some (c.input.take (max cap f.len)
              ++ old.drop (c.input.take (max cap f.len)).length)
            state := .processing
            isProcessing := true
            readEnabled := false } [], none) := by
      unfold readDoneCb
      simp only [hprov, if_true]
    rw [hdone]
    refine .stuck ?_ ?_ ?_ ⟨f, ?_, hmon⟩
    · unfold connectionWrite
      split <;> rfl
    · show (s.active || false) = false
      rw [hact]
      rfl
    · show (s.requests ++ []).length < frames.length
      rw [List.append_nil, h.requests, List.length_map, h.split, List.length_append,
        List.length_cons]
      omega
    · rw [h.split]
      simp
  · have hprov : c.provider ≠ monitorProvider := by
      intro he
      exact hmon (hc.provider.symm.trans he)
    obtain ⟨-, -, -, hsize⟩ := hc.buffer
    have hdone : readDoneCb { c with
          input := c.input.drop (max cap f.len)
          readbuf := some (c.input.take (max cap f.len)
            ++ old.drop (c.input.take (max cap f.len)).length)
          state := .processing }
        = ({ c with
            input := c.input.drop (max cap f.len)
            readbuf := some (c.input.take (max cap f.len)
              ++ old.drop (c.input.take (max cap f.len)).length)
            state := .processing
            isProcessing := true
            readEnabled := false },
          some (some (c.input.take (max cap f.len)
            ++ old.drop (c.input.take (max cap f.len)).length), ((max cap f.len : Nat) : Int))) := by
      unfold readDoneCb
      simp only [hprov, if_false]
      rw [← hsize]
    rw [hdone]
    by_cases hle : cap ≤ f.len
    · -- the buffer is exactly as long as the body
      have hmax : max cap f.len = f.len := by omega
      have htake : c.input.take f.len = f.body := by
        have hpre := congrArg (List.take f.len) hin
        rw [List.take_append_of_le_length hlen, hfl, List.take_left] at hpre
        exact hpre
      have hdrop : c.input.drop f.len ++ pending = stream rest := by
        have hsuf := congrArg (List.drop f.len) hin
        rw [List.drop_append_of_le_length hlen, hfl, List.drop_left] at hsuf
        exact hsuf
      have hnil : old.drop f.body.length = [] := by
        rw [List.drop_eq_nil_iff]
        omega
      rw [hmax, htake, hnil, List.append_nil]
      refine .good (sent ++ [f]) rest f.len (c.input.length - f.len)
        ⟨?_, ?_, ?_, ?_, ?_, ?_, hserved⟩ (.processing ?_ rfl hc.noError hdrop ?_ ?_)
      · rw [h.split, List.append_assoc]
        rfl
      · show s.requests ++ [(some f.body, (f.len : Int))] = _
        rw [h.requests, List.map_append]
        rfl
      · intro g hg
        rcases List.mem_append.1 hg with hg | hg
        · exact h.noMonitor g hg
        · rw [List.mem_singleton.1 hg]
          exact hmon
      · rw [List.map_append, List.pairwise_append]
        refine ⟨h.sorted, List.pairwise_singleton _ _, ?_⟩
        intro x hx y hy
        obtain ⟨g, hg, rfl⟩ := List.mem_map.1 hx
        rw [List.map_singleton, List.mem_singleton] at hy
        have := h.capLe g hg
        omega
      · intro g hg
        rcases List.mem_append.1 hg with hg | hg
        · have := h.capLe g hg
          omega
        · obtain rfl := List.mem_singleton.1 hg
          exact Nat.le_refl _
      · exact Or.inr ⟨f, by simp, rfl⟩
      · show (s.active || true) = true
        rw [Bool.or_true]
      · show c.input.length - f.len = (c.input.drop f.len).length
        rw [List.length_drop]
      · exact Or.inr ⟨f.body, rfl, Nat.le_refl _, by rw [hsize, hmax]⟩
    · -- the buffer is longer, and its capacity is reported as the length
      have hmax : max cap f.len = cap := by omega
      refine .wrong ?_ ?_
      · intro hpre
        have hpre' : s.requests ++ [(some (c.input.take (max cap f.len)
            ++ old.drop (c.input.take (max cap f.len)).length), ((max cap f.len : Nat) : Int))]
            <+: frames.map Frame.input := hpre
        rw [h.requests, h.split, List.map_append, List.prefix_append_right_inj, List.map_cons,
          List.cons_prefix_cons] at hpre'
        have hsz : ((max cap f.len : Nat) : Int) = (f.len : Int) := congrArg Prod.snd hpre'.1
        omega
      · intro hsorted
        rw [h.split, List.map_append, List.pairwise_append] at hsorted
        rcases h.capAttained with hzero | ⟨g, hg, hgcap⟩
        · omega
        · have := hsorted.2.2 g.len (List.mem_map_of_mem hg) f.len (by simp)
          omega

/-! ## §4. Steps and runs. -/

/-- Requests that are not the frames stay so. -/
theorem not_prefix_append {α : Type*} {xs ys zs : List α} (h : ¬ xs <+: zs) : ¬ xs ++ ys <+: zs :=
  fun hpre => h ((List.prefix_append xs ys).trans hpre)

/-- Progress only looks at the requests of the state. -/
theorem Progress.congr {frames sent rest : List (Frame fmt)} {arrived arrived' : List Nat}
    {cap b b' : Nat} {s s' : ConnState} (h : Progress frames sent rest arrived cap b s)
    (hreq : s'.requests = s.requests)
    (hserved : arrived'.foldl onArrival (frames.map Frame.size, 0) = (rest.map Frame.size, b')) :
    Progress frames sent rest arrived' cap b' s' :=
  ⟨h.split, hreq.trans h.requests, h.noMonitor, h.sorted, h.capLe, h.capAttained, hserved⟩

/-- What one more arrival means for the frames still to come. -/
theorem Progress.arrive {frames sent rest : List (Frame fmt)} {f : Frame fmt} {arrived : List Nat}
    {cap b : Nat} {s : ConnState} (h : Progress frames sent (f :: rest) arrived cap b s) (a : Nat) :
    (arrived ++ [a]).foldl onArrival (frames.map Frame.size, 0)
      = if f.size ≤ b + a then (rest.map Frame.size, b + a - f.size)
        else ((f :: rest).map Frame.size, b + a) := by
  rw [List.foldl_append, h.served]
  rfl

/-- The read callback, when the loop took a body. -/
theorem connectionReadCb_done {c c' : Connection} (h : nsheadConnRead fmt c = (1, c'))
    (halive : c'.faulted = false) : connectionReadCb fmt c = readDoneCb c' := by
  unfold connectionReadCb
  rw [h]
  simp only [halive, Bool.false_eq_true, if_false, Int.reduceLT, gt_iff_lt, if_true]

/-- The read callback, when the loop needs more bytes. -/
theorem connectionReadCb_wait {c c' : Connection} (h : nsheadConnRead fmt c = (0, c')) :
    connectionReadCb fmt c = (c', none) := by
  unfold connectionReadCb
  rw [h]
  simp only [Int.lt_irrefl, gt_iff_lt, if_false, ite_self]

/-- An arrival that does not reach the low watermark. -/
theorem exec_arrive_low {s : ConnState} {bytes : List UInt8}
    (h : (s.conn.input ++ bytes).length < s.conn.lowWatermark) :
    s.exec fmt (.arrive bytes)
      = { s with conn := { s.conn with input := s.conn.input ++ bytes } } := by
  unfold ConnState.exec
  simp only
  rw [if_neg (by omega)]

/-- An arrival that does. -/
theorem exec_arrive_cb {s : ConnState} {bytes : List UInt8} {c' : Connection}
    {req : Option ReqInput} (h : s.conn.lowWatermark ≤ (s.conn.input ++ bytes).length)
    (hcb : connectionReadCb fmt { s.conn with input := s.conn.input ++ bytes } = (c', req)) :
    s.exec fmt (.arrive bytes)
      = { conn := c', requests := s.requests ++ req.toList, active := s.active || req.isSome } := by
  unfold ConnState.exec
  simp only
  rw [if_pos h, hcb]

/-- The reader has a body before it, or waits for one: one arrival from there. -/
theorem Progress.body_arrive {frames sent rest : List (Frame fmt)} {f : Frame fmt}
    {arrived arrived' : List Nat} {cap b : Nat} {s : ConnState} {pending : List UInt8}
    (h : Progress frames sent (f :: rest) arrived cap b s) (hact : s.active = false)
    {c c' : Connection} (hc' : WaitsBody c' f cap) (halive : c'.faulted = false)
    (hen : c'.readEnabled = true)
    (hin : c'.input ++ pending = f.body ++ stream rest) (n : Nat)
    (hread : nsheadConnRead fmt c = nsheadConnReadLoop fmt (n + 1) c')
    (hserved : arrived'.foldl onArrival (frames.map Frame.size, 0)
      = if f.size ≤ 36 + c'.input.length then (rest.map Frame.size, 36 + c'.input.length - f.size)
        else ((f :: rest).map Frame.size, 36 + c'.input.length)) :
    Status pending frames arrived'
      { conn := (connectionReadCb fmt c).1
        requests := s.requests ++ (connectionReadCb fmt c).2.toList
        active := s.active || (connectionReadCb fmt c).2.isSome } := by
  have hsize : f.size = 36 + f.len := rfl
  by_cases hlen : f.len ≤ c'.input.length
  · -- the whole body is there
    rw [if_pos (by omega)] at hserved
    have hb : 36 + c'.input.length - f.size = c'.input.length - f.len := by omega
    rw [hb] at hserved
    rw [nsheadConnReadLoop_body n hc' hlen] at hread
    obtain ⟨old, -, hbody⟩ := nsheadReadBody_spec hc' h.cap_small hlen
    have hret : nsheadConnRead fmt c = (1, (nsheadReadBody c').2) := by
      rw [hread, hbody]
    have halive' : (nsheadReadBody c').2.faulted = false := by
      rw [hbody]
      exact halive
    rw [connectionReadCb_done hret halive']
    exact h.deliver hact hc' hin hlen hserved
  · rw [if_neg (by omega)] at hserved
    rw [nsheadConnReadLoop_wait (n + 1) hc' (by omega)] at hread
    rw [connectionReadCb_wait hread]
    refine .good sent (f :: rest) cap (36 + c'.input.length)
      (h.congr (List.append_nil _) hserved) (.body f rest rfl hc' hen ?_ hin rfl)
    show (s.active || false) = false
    rw [hact]
    rfl

/-- **One arrival.** -/
theorem Status.arrive {pending : List UInt8} {frames : List (Frame fmt)} {arrived : List Nat}
    {s : ConnState} {bytes : List UInt8} (h : Status (bytes ++ pending) frames arrived s)
    (hen : s.Enabled (.arrive bytes)) :
    Status pending frames (arrived ++ [bytes.length]) (s.exec fmt (.arrive bytes)) := by
  obtain ⟨halive, hread, -, hne⟩ := hen
  cases h with
  | stuck hoff _ _ _ =>
      rw [hread] at hoff
      cases hoff
  | wrong hpre hsorted =>
      refine .wrong ?_ hsorted
      unfold ConnState.exec
      simp only
      split
      · exact not_prefix_append hpre
      · exact hpre
  | good sent rest cap b hprog hphase =>
      cases hphase with
      | processing _ hoff _ _ _ _ =>
          rw [hread] at hoff
          cases hoff
      | head hstate hexp hlow hon herr hact hin hb hbuf =>
          rw [← List.append_assoc] at hin
          cases rest with
          | nil =>
              -- everything has arrived already
              have hnil : s.conn.input ++ bytes ++ pending = [] := hin
              have hbytes : bytes = [] :=
                (List.append_eq_nil_iff.1 (List.append_eq_nil_iff.1 hnil).1).2
              exact absurd hbytes hne
          | cons f rest =>
              have hserved := hprog.arrive bytes.length
              have hlen : b + bytes.length = (s.conn.input ++ bytes).length := by
                rw [List.length_append, hb]
              rw [hlen] at hserved
              by_cases h36 : 36 ≤ (s.conn.input ++ bytes).length
              · -- the header is there: the loop takes it and goes on to the body
                rw [stream_cons] at hin
                have hhead : s.conn.input ++ bytes
                    = f.head ++ (s.conn.input ++ bytes).drop 36 := by
                  have htake := congrArg (List.take 36) hin
                  rw [List.take_append_of_le_length h36, ← f.headLen, List.take_left] at htake
                  rw [f.headLen] at htake
                  exact (List.take_append_drop 36 _).symm.trans (by rw [htake])
                have hrest : (s.conn.input ++ bytes).drop 36 ++ pending
                    = f.body ++ stream rest := by
                  have hdrop := congrArg (List.drop 36) hin
                  rw [List.drop_append_of_le_length h36, ← f.headLen, List.drop_left] at hdrop
                  rw [f.headLen] at hdrop
                  exact hdrop
                obtain ⟨c', hc', hwait, hinput, hon', hf'⟩ := nsheadReadHead_spec
                  (c := { s.conn with input := s.conn.input ++ bytes }) hhead hbuf herr
                have hloop : nsheadConnRead fmt { s.conn with input := s.conn.input ++ bytes }
                    = nsheadConnReadLoop fmt (0 + 1) c' :=
                  nsheadConnReadLoop_head 1 hstate hexp h36 hc'
                have hsplit : (s.conn.input ++ bytes).length = 36 + c'.input.length := by
                  rw [hinput, List.length_drop]
                  omega
                rw [hsplit] at hserved
                rw [← hinput] at hrest
                have hst := hprog.body_arrive hact hwait (hf'.trans halive) (hon'.trans hon) hrest 0
                  hloop hserved
                rw [exec_arrive_cb (by rw [hlow]; exact h36) rfl]
                exact hst
              · -- not even the header is there
                have hsize : f.size = 36 + f.len := rfl
                rw [if_neg (by omega)] at hserved
                rw [exec_arrive_low (by omega)]
                exact .good sent (f :: rest) cap (s.conn.input ++ bytes).length
                  (hprog.congr rfl hserved) (.head hstate hexp hlow hon herr hact hin rfl hbuf)
      | body f rest' hrest hwait hon hact hin hb =>
          subst hrest
          rw [← List.append_assoc] at hin
          have hserved := hprog.arrive bytes.length
          have hlen : b + bytes.length = 36 + (s.conn.input ++ bytes).length := by
            rw [List.length_append, hb]
            omega
          rw [hlen] at hserved
          have hwait' : WaitsBody { s.conn with input := s.conn.input ++ bytes } f cap :=
            ⟨hwait.state, hwait.expected, hwait.low, hwait.provider, hwait.noError, hwait.buffer⟩
          by_cases hbody : f.len ≤ (s.conn.input ++ bytes).length
          · have hst := hprog.body_arrive hact hwait' halive hon hin 1 rfl hserved
            rw [exec_arrive_cb (by rw [hwait.low]; exact hbody) rfl]
            exact hst
          · have hsize : f.size = 36 + f.len := rfl
            have hlow := hwait.low
            rw [if_neg (by omega)] at hserved
            rw [exec_arrive_low (by omega)]
            exact .good sent (f :: rest') cap (36 + (s.conn.input ++ bytes).length)
              (hprog.congr rfl hserved) (.body f rest' rfl hwait' hon hact hin rfl)

/-- **One completion.** -/
theorem Status.done {pending : List UInt8} {frames : List (Frame fmt)} {arrived : List Nat}
    {s : ConnState} (h : Status pending frames arrived s) (hen : s.Enabled .done) :
    Status pending frames arrived (s.exec fmt .done) := by
  have hact : s.active = true := hen.2
  cases h with
  | stuck _ hoff _ _ =>
      rw [hact] at hoff
      cases hoff
  | wrong hpre hsorted => exact .wrong hpre hsorted
  | good sent rest cap b hprog hphase =>
      cases hphase with
      | head _ _ _ _ _ hoff _ _ _ =>
          rw [hact] at hoff
          cases hoff
      | body f rest' _ _ _ hoff _ _ =>
          rw [hact] at hoff
          cases hoff
      | processing _ _ herr hin hb hbuf =>
          have hdone : s.exec fmt .done = { s with
              conn := connectionPrepareRead { s.conn with isProcessing := false }
              active := false } := by
            have herr' : ¬ s.conn.hasError = true := by
              rw [herr]
              decide
            unfold ConnState.exec serverProcessDone
            simp only
            rw [if_neg herr']
          rw [hdone]
          exact .good sent rest cap b (hprog.congr rfl hprog.served)
            (.head rfl rfl rfl rfl herr rfl hin hb hbuf)

/-- **A whole run.** -/
theorem ConnState.run_status {tr : List (ConnState × ConnOp)} {s : ConnState}
    (h : (connLts fmt).Run tr s) (frames : List (Frame fmt)) :
    ∀ pending, (arrivals tr).flatten ++ pending = stream frames →
      Status pending frames ((arrivals tr).map List.length) s := by
  refine h.history (P := fun tr s => ∀ pending, (arrivals tr).flatten ++ pending = stream frames →
    Status pending frames ((arrivals tr).map List.length) s) ?_ ?_
  · intro s hs pending hp
    rw [hs]
    refine .good [] frames 0 0 ⟨rfl, rfl, by simp, List.Pairwise.nil, by simp, Or.inl rfl, rfl⟩
      (.head rfl rfl rfl rfl rfl rfl hp rfl (Or.inl ⟨rfl, rfl, rfl⟩))
  · intro tr s op s' _ ih hstep pending hp
    obtain ⟨hen, rfl⟩ := hstep
    cases op with
    | done =>
        have harr : arrivals (tr ++ [(s, .done)]) = arrivals tr := by
          simp [arrivals]
        rw [harr] at hp ⊢
        exact (ih pending hp).done hen
    | arrive bytes =>
        have harr : arrivals (tr ++ [(s, .arrive bytes)]) = arrivals tr ++ [bytes] := by
          simp [arrivals]
        rw [harr] at hp ⊢
        rw [List.flatten_append, List.append_assoc, List.flatten_singleton] at hp
        rw [List.map_append, List.map_singleton]
        exact (ih (bytes ++ pending) hp).arrive hen

/-- **When requests are frames.**  After any run in which exactly the bytes of
`frames` arrived, the requests are the frames, each with exactly its body, if and
only if: no frame is the monitor's; no frame is shorter than one before it; and
for every frame there are as many arrivals at or after its end as frames from it
on, because each arrival makes at most one request. -/
theorem connection_requests_iff {tr : List (ConnState × ConnOp)} {s : ConnState}
    (h : (connLts fmt).Run tr s) (frames : List (Frame fmt))
    (hall : (arrivals tr).flatten = stream frames) :
    s.requests = frames.map Frame.input
      ↔ (∀ f ∈ frames, ¬ f.IsMonitor) ∧ (frames.map Frame.len).Pairwise (· ≤ ·)
        ∧ EnoughArrivals (frames.map Frame.size) 0 ((arrivals tr).map List.length) := by
  have hst := ConnState.run_status h frames [] (by rw [List.append_nil]; exact hall)
  rw [← served_all_iff]
  cases hst with
  | stuck _ _ hlen hmon =>
      constructor
      · intro hreq
        rw [hreq, List.length_map] at hlen
        exact absurd hlen (Nat.lt_irrefl _)
      · intro hcond
        obtain ⟨f, hf, hm⟩ := hmon
        exact absurd hm (hcond.1 f hf)
  | wrong hpre hsorted =>
      constructor
      · intro hreq
        rw [hreq] at hpre
        exact absurd (List.prefix_refl _) hpre
      · intro hcond
        exact absurd hcond.2.1 hsorted
  | good sent rest cap b hprog _ =>
      rw [hprog.served]
      constructor
      · intro hreq
        have hrest : rest = [] := by
          rw [hprog.requests, hprog.split, List.map_append] at hreq
          exact List.map_eq_nil_iff.1 (List.self_eq_append_right.1 hreq)
        have hsent : frames = sent := by
          rw [hprog.split, hrest, List.append_nil]
        rw [hsent, hrest]
        exact ⟨hprog.noMonitor, hprog.sorted, rfl⟩
      · intro hcond
        have hrest : rest = [] := List.map_eq_nil_iff.1 hcond.2.2
        rw [hprog.requests, hprog.split, hrest, List.append_nil]

/-! ## §5. On the wire. -/

/-- A little-endian number. -/
def leNat : List UInt8 → Nat
  | [] => 0
  | b :: bs => b.toNat + 256 * leNat bs

/-- The layout of `nshead_t`: `id`, `version`, `log_id`, `provider[16]`,
`magic_num`, `reserved`, `body_len`. -/
def nsheadLayout : NsheadFormat where
  magicNum h := .ofNat (leNat ((h.drop 24).take 4))
  bodyLen h := .ofNat (leNat ((h.drop 32).take 4))
  logId h := .ofNat (leNat ((h.drop 4).take 4))
  provider h := ((h.drop 8).take 16).takeWhile (· ≠ 0)
  magicnum := 0xfb709394

/-- A header with a body of `n` bytes, `n` below 256. -/
def shortHead (n : UInt8) : List UInt8 :=
  List.replicate 24 0 ++ [0x94, 0x93, 0x70, 0xfb, 0, 0, 0, 0, n, 0, 0, 0]

def frameOfTwo : Frame nsheadLayout :=
  ⟨shortHead 2, [65, 66], rfl, by decide, by decide, by decide⟩

def frameOfOne : Frame nsheadLayout :=
  ⟨shortHead 1, [67], rfl, by decide, by decide, by decide⟩

/-- Each frame is an arrival of its own, and each request finishes at once. -/
def oneByOne (fs : List (Frame nsheadLayout)) : List ConnOp :=
  fs.flatMap (fun f => [.arrive f.bytes, .done])

instance (s : ConnState) (op : ConnOp) : Decidable (s.Enabled op) := by
  cases op <;> unfold ConnState.Enabled <;> infer_instance

instance (f : Frame fmt) : Decidable f.IsMonitor := by
  unfold Frame.IsMonitor
  infer_instance

/-- The run the operations make. -/
theorem ConnState.run_of_allEnabled (ops : List ConnOp)
    (h : Lts.AllEnabled (ConnState.exec fmt) ConnState.Enabled ⟨connectionAccept, [], false⟩ ops) :
    (connLts fmt).Run (Lts.traceAll (ConnState.exec fmt) ⟨connectionAccept, [], false⟩ ops)
      (Lts.execAll (ConnState.exec fmt) ⟨connectionAccept, [], false⟩ ops) := by
  have hstep : ∀ s op, s.Enabled op → (connLts fmt).step s op (s.exec fmt op) :=
    fun _ _ hen => ⟨hen, rfl⟩
  exact Lts.Run.execAll hstep ops (.init rfl) h

/-- A body of one byte after a body of two: the second request is given two bytes,
the second of which is left from the first. -/
theorem connection_requests_differ :
    ¬ ∀ (tr : List (ConnState × ConnOp)) (s : ConnState) (frames : List (Frame nsheadLayout)),
      (connLts nsheadLayout).Run tr s → (arrivals tr).flatten = stream frames →
        s.requests <+: frames.map Frame.input := by
  intro hall
  have hpre := hall _ _ [frameOfTwo, frameOfOne]
    (ConnState.run_of_allEnabled (oneByOne [frameOfTwo, frameOfOne]) (by decide)) (by decide)
  exact absurd hpre (by decide)

/-- The other way round nothing goes wrong. -/
theorem connection_requests_iff_witness :
    (Lts.execAll (ConnState.exec nsheadLayout) ⟨connectionAccept, [], false⟩
      (oneByOne [frameOfOne, frameOfTwo])).requests = [(some [67], 1), (some [65, 66], 2)] :=
  (connection_requests_iff (ConnState.run_of_allEnabled (oneByOne [frameOfOne, frameOfTwo])
    (by decide)) [frameOfOne, frameOfTwo] (by decide)).2
    ⟨by decide, by decide, by decide⟩

end RedisAgent
