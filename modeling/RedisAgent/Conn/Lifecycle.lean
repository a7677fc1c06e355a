/-
  RedisAgent.Conn.Lifecycle — when a client connection is freed, and when it
  reads again.

  The events of a connection in any order: bytes arrive, libevent reports an
  error or the end of the stream, the request in progress completes.  The input
  is arbitrary here, malformed headers included; a header that does not check is
  one more way to an error.

  `Connection.FrameComplete` and `frameProvider` say on the input buffer alone
  whether the reader will find a whole frame in it and from which provider, and
  `Connection.BodyIntoNull` whether it will write through a null pointer;
  `nsheadConnRead_cases` is the reader's side of it.  Main result:
  `connection_lifecycle_iff`.
-/
import RedisAgent.Conn.Frames

namespace RedisAgent

variable {fmt : NsheadFormat}

/-! ## §1. The events. -/

inductive LifeOp
  /-- new bytes in the input buffer -/
  | arrive (bytes : List UInt8)
  /-- `connection_event_cb` with `EVENT_EOF` or `EVENT_ERROR` -/
  | error
  /-- the request in progress calls `server_process_done` -/
  | done
  deriving Repr, DecidableEq

/-- The state after one event. -/
def ConnState.life (fmt : NsheadFormat) (s : ConnState) : LifeOp → ConnState
  | .arrive bytes => s.exec fmt (.arrive bytes)
  | .error => { s with conn := connectionCallErrorCb s.conn }
  | .done => s.exec fmt .done

/-- `event_free` takes the callbacks off a connection that is freed; a request
completes once. -/
def ConnState.LifeEnabled (s : ConnState) : LifeOp → Prop
  | .arrive bytes => s.Enabled (.arrive bytes)
  | .error => s.conn.faulted = false ∧ s.conn.freed = false
  | .done => s.Enabled .done

/-- Every run of an accepted connection. -/
def lifeLts (fmt : NsheadFormat) : Lts ConnState LifeOp where
  init s := s = ⟨connectionAccept, [], false⟩
  step s op s' := s.LifeEnabled op ∧ s' = s.life fmt op

/-- What is promised of a connection after any event. -/
structure ConnState.Sound (s : ConnState) : Prop where
  /-- the process has not died in its callback -/
  alive : s.conn.faulted = false
  /-- it is never freed while a frame on it is handled -/
  handled : s.active = true → s.conn.freed = false
  /-- after an error it is freed as soon as no frame is handled -/
  ended : s.conn.hasError = true → s.active = false → s.conn.freed = true
  /-- it is freed only after an error -/
  onlyAfter : s.conn.freed = true → s.conn.hasError = true
  /-- else, when no frame is handled, it waits for the next one -/
  waiting : s.active = false → s.conn.hasError = false →
    s.conn.readEnabled = true ∧ s.conn.isProcessing = false
      ∧ (s.conn.state = .head ∨ s.conn.state = .body)

/-- The provider of the frame the reader is at: stored with the header, or in the
header still to be read. -/
def Connection.frameProvider (fmt : NsheadFormat) (c : Connection) : List UInt8 :=
  if c.state = .head then (fmt.provider (c.input.take 36)).take 15 else c.provider

/-- The input holds the rest of a frame with a good header. -/
def Connection.FrameComplete (fmt : NsheadFormat) (c : Connection) : Prop :=
  if c.state = .head then
    36 ≤ c.input.length ∧ fmt.magicNum (c.input.take 36) = fmt.magicnum
      ∧ (fmt.bodyLen (c.input.take 36)).toInt32.toInt ≤ (c.input.drop 36).length
  else c.expectedInputLen ≤ c.input.length

/-- The reader is at a good header whose length is negative as an `int`, there was no
read buffer before, and the input does not end with the header. -/
def Connection.BodyIntoNull (fmt : NsheadFormat) (c : Connection) : Prop :=
  c.state = .head ∧ c.readbuf = none ∧ 36 < c.input.length
    ∧ fmt.magicNum (c.input.take 36) = fmt.magicnum
    ∧ 2 ^ 31 ≤ (fmt.bodyLen (c.input.take 36)).toNat

/-- The event is the arrival of the last bytes of a frame from `__MONITOR__`. -/
def ConnState.CompletesMonitor (fmt : NsheadFormat) (s : ConnState) : LifeOp → Prop
  | .arrive bytes =>
      Connection.FrameComplete fmt { s.conn with input := s.conn.input ++ bytes }
        ∧ Connection.frameProvider fmt { s.conn with input := s.conn.input ++ bytes }
          = monitorProvider
  | .error | .done => False

/-- The event is an arrival that makes `nshead_conn_read` write through a null pointer. -/
def ConnState.ReadsIntoNull (fmt : NsheadFormat) (s : ConnState) : LifeOp → Prop
  | .arrive bytes => Connection.BodyIntoNull fmt { s.conn with input := s.conn.input ++ bytes }
  | .error | .done => False

/-! ## §2. The reader. -/

/-- The reader stands before a header or before a body it has room for. -/
structure Reading (c : Connection) : Prop where
  low : c.lowWatermark = sizeT c.expectedInputLen
  nonneg : 0 ≤ c.expectedInputLen
  place : (c.state = .head ∧ c.expectedInputLen = nsheadSize)
    ∨ (c.state = .body ∧ c.expectedInputLen ≤ sizeT c.readbufSize ∧ c.readbuf ≠ none)

/-- The size of the read buffer is an `int`, and that of one that is there a length. -/
structure BufferFits (c : Connection) : Prop where
  bound : c.readbufSize < 2 ^ 31
  nonneg : c.readbuf ≠ none → 0 ≤ c.readbufSize

/-- What reading never touches. -/
structure SameLife (c c' : Connection) : Prop where
  readEnabled : c'.readEnabled = c.readEnabled
  isProcessing : c'.isProcessing = c.isProcessing
  hasError : c'.hasError = c.hasError
  freed : c'.freed = c.freed

theorem SameLife.trans {c c' c'' : Connection} (h : SameLife c c') (h' : SameLife c' c'') :
    SameLife c c'' :=
  ⟨h'.readEnabled.trans h.readEnabled, h'.isProcessing.trans h.isProcessing,
    h'.hasError.trans h.hasError, h'.freed.trans h.freed⟩

theorem sizeT_of_nonneg {n : Int} (h : 0 ≤ n) (hb : n < 2 ^ 31) : (sizeT n : Int) = n := by
  unfold sizeT
  omega

/-- An unsigned length turns negative as an `int` from 2^31 on. -/
theorem toInt32_neg_iff (u : UInt32) : u.toInt32.toInt < 0 ↔ 2 ^ 31 ≤ u.toNat := by
  have h : u.toInt32.toInt < 0 ↔ 2 ^ 32 ≤ 2 * u.toNat := BitVec.toInt_neg_iff
  omega

/-- **The body**, when all of it is there and the buffer has room for it.  Without a buffer
the first byte is written through a null pointer. -/
theorem nsheadReadBody_cases {c : Connection} (hin : c.expectedInputLen ≤ c.input.length)
    (hroom : c.expectedInputLen ≤ sizeT c.readbufSize) (hb : BufferFits c)
    (hsize : c.readbuf = none → sizeT c.readbufSize ≠ 0) (halive : c.faulted = false) :
    ∃ c', nsheadReadBody c = (1, c') ∧ c'.provider = c.provider ∧ SameLife c c' ∧ BufferFits c'
      ∧ (c'.faulted = true ↔ c.readbuf = none ∧ c.input ≠ []) := by
  have hlen : ¬ (((c.input.take (sizeT c.readbufSize)).length : Int) < c.expectedInputLen) := by
    rw [List.length_take]
    omega
  unfold nsheadReadBody eventRead
  simp only [if_neg hlen]
  refine ⟨_, rfl, rfl, ⟨rfl, rfl, rfl, rfl⟩, ⟨hb.bound, fun hbuf => hb.nonneg ?_⟩, ?_⟩
  · intro hnone
    apply hbuf
    show c.readbuf.map _ = none
    rw [hnone]
    rfl
  · show (c.faulted || (c.readbuf.isNone && !(c.input.take (sizeT c.readbufSize)).isEmpty)) = true
      ↔ _
    rw [halive]
    cases hbuf : c.readbuf with
    | some old => simp
    | none => simp [hsize hbuf]

/-- **The header**: what it leaves when it is good.  Only a length that is negative as an
`int` leaves no buffer, where there was none. -/
theorem nsheadReadHead_cases {c : Connection} (hlen : 36 ≤ c.input.length) (hb : BufferFits c) :
    (fmt.magicNum (c.input.take 36) ≠ fmt.magicnum ∧ nsheadReadHead fmt c = none)
      ∨ (fmt.magicNum (c.input.take 36) = fmt.magicnum ∧ ∃ c', nsheadReadHead fmt c = some c'
        ∧ c'.input = c.input.drop 36 ∧ c'.state = .body
        ∧ c'.provider = (fmt.provider (c.input.take 36)).take 15
        ∧ c'.expectedInputLen = (fmt.bodyLen (c.input.take 36)).toInt32.toInt
        ∧ c'.lowWatermark = sizeT c'.expectedInputLen
        ∧ c'.expectedInputLen ≤ sizeT c'.readbufSize ∧ BufferFits c'
        ∧ (c'.readbuf = none ↔ c.readbuf = none ∧ c'.expectedInputLen < 0)
        ∧ (c'.readbuf = none → sizeT c'.readbufSize ≠ 0)
        ∧ SameLife c c' ∧ c'.faulted = c.faulted) := by
  have hsize : sizeT nsheadSize = 36 := rfl
  have htake : (c.input.take 36).length = 36 := by
    rw [List.length_take]
    omega
  have hshort : ¬ (((c.input.take 36).length : Int) < nsheadSize) := by
    rw [htake]
    decide
  unfold nsheadReadHead eventRead
  simp only [hsize, hshort, false_or]
  by_cases hm : fmt.magicNum (c.input.take 36) = fmt.magicnum
  · right
    rw [if_neg (by simp [hm])]
    refine ⟨hm, _, rfl, ?_⟩
    generalize hn : (fmt.bodyLen (c.input.take 36)).toInt32 = n
    have hlt : n.toInt < 2 ^ 31 := n.toInt_lt
    have hle : -2 ^ 31 ≤ n.toInt := n.le_toInt
    have hbound := hb.bound
    unfold ensureReadbuf nsheadConnSetExpectedInputLen
    simp only
    split
    · rename_i hgrow
      -- a length below that of a buffer that is there does not make a new one
      have hnone : c.readbuf ≠ none → 0 ≤ n.toInt := by
        intro hbuf
        have hnonneg := hb.nonneg hbuf
        have hless : c.readbufSize < n.toInt := hgrow.resolve_left hbuf
        omega
      have hmalloc : mallocBuf n.toInt = none ↔ n.toInt < 0 := by
        unfold mallocBuf
        split
        · rename_i hpos
          exact iff_of_false (Option.some_ne_none _) (by omega)
        · rename_i hneg
          exact iff_of_true rfl (by omega)
      refine ⟨rfl, rfl, rfl, rfl, rfl, ?_, ⟨hlt, fun hbuf => ?_⟩, ?_, fun hbuf => ?_,
        ⟨rfl, rfl, rfl, rfl⟩, rfl⟩
      · -- the buffer was made just large enough
        show n.toInt ≤ sizeT n.toInt
        by_cases hneg : 0 ≤ n.toInt
        · have hself := sizeT_of_nonneg hneg hlt
          omega
        · omega
      · exact Int.not_lt.1 (fun hneg => hbuf (hmalloc.2 hneg))
      · show mallocBuf n.toInt = none ↔ _
        rw [hmalloc]
        refine ⟨fun hneg => ⟨?_, hneg⟩, And.right⟩
        by_contra hbuf
        have hpos := hnone hbuf
        omega
      · -- as a `size_t` a negative length is a huge one
        have hneg := hmalloc.1 hbuf
        show sizeT n.toInt ≠ 0
        unfold sizeT
        omega
    · rename_i hroom
      rw [not_or] at hroom
      have hge : n.toInt ≤ c.readbufSize := by
        by_contra hlt'
        exact hroom.2 (by omega)
      refine ⟨rfl, rfl, rfl, rfl, rfl, ?_, ⟨hbound, hb.nonneg⟩,
        iff_of_false hroom.1 (fun hx => hroom.1 hx.1), fun hx => absurd hx hroom.1,
        ⟨rfl, rfl, rfl, rfl⟩, rfl⟩
      show n.toInt ≤ sizeT c.readbufSize
      by_cases hneg : 0 ≤ n.toInt
      · rw [sizeT_of_nonneg (by omega) hbound]
        exact hge
      · omega
  · left
    rw [if_pos hm]
    exact ⟨hm, rfl⟩

/-- **What one call of `nshead_conn_read` makes** of a connection that waits for a frame. -/
inductive ReadResult (fmt : NsheadFormat) (c : Connection) : Int × Connection → Prop
  /-- a whole frame with a good header is read, from the provider it names -/
  | frame {c' : Connection} : Connection.FrameComplete fmt c → ¬ Connection.BodyIntoNull fmt c →
      c'.faulted = false → c'.provider = Connection.frameProvider fmt c → SameLife c c' →
      BufferFits c' → ReadResult fmt c (1, c')
  /-- the process dies -/
  | dies {c' : Connection} : Connection.BodyIntoNull fmt c → c'.faulted = true → SameLife c c' →
      BufferFits c' → ReadResult fmt c (1, c')
  /-- the reader goes on waiting -/
  | waits {c' : Connection} : ¬ Connection.FrameComplete fmt c → ¬ Connection.BodyIntoNull fmt c →
      c'.faulted = false → Reading c' → SameLife c c' → BufferFits c' → ReadResult fmt c (0, c')
  /-- the header is bad -/
  | bad {c' : Connection} : ¬ Connection.FrameComplete fmt c → ¬ Connection.BodyIntoNull fmt c →
      c'.faulted = false → SameLife c c' → BufferFits c' → ReadResult fmt c (-1, c')

/-- **A header is read**, and what follows it in the input. -/
theorem nsheadConnRead_head {c : Connection} (hs : c.state = .head)
    (hexp : c.expectedInputLen = nsheadSize) (hlen : 36 ≤ c.input.length) (hb : BufferFits c)
    (halive : c.faulted = false) : ReadResult fmt c (nsheadConnRead fmt c) := by
  have henough : eventGetInputLen c ≥ c.expectedInputLen := by
    have hsize : nsheadSize = 36 := rfl
    unfold eventGetInputLen
    omega
  rcases nsheadReadHead_cases hlen hb with ⟨hm, hnone⟩
    | ⟨hm, c1, hsome, hin, hs1, hp1, he1, hl1, hr1, hb1, hnull, hsize, hsame, hf1⟩
  · -- the magic number is wrong
    have hpass : nsheadConnReadPass fmt c = (some (-1), (eventRead c nsheadSize).2) := by
      unfold nsheadConnReadPass
      rw [if_pos hs, hnone]
    rw [nsheadConnRead_return henough hpass]
    refine .bad ?_ (fun hx => hm hx.2.2.2.1) halive ⟨rfl, rfl, rfl, rfl⟩ ⟨hb.bound, hb.nonneg⟩
    intro hx
    unfold Connection.FrameComplete at hx
    rw [if_pos hs] at hx
    exact hm hx.2.1
  · have hcomplete : Connection.FrameComplete fmt c ↔ c1.expectedInputLen ≤ c1.input.length := by
      unfold Connection.FrameComplete
      rw [if_pos hs, he1, hin]
      exact ⟨fun hx => hx.2.2, fun hx => ⟨hlen, hm, hx⟩⟩
    -- the condition on the input, as the state after the header has it
    have hdies : Connection.BodyIntoNull fmt c ↔ c1.readbuf = none ∧ c1.input ≠ [] := by
      have hrest : c1.input ≠ [] ↔ 36 < c.input.length := by
        rw [hin, Ne, List.drop_eq_nil_iff]
        omega
      unfold Connection.BodyIntoNull
      rw [hnull, hrest, he1, toInt32_neg_iff]
      exact ⟨fun hx => ⟨⟨hx.2.1, hx.2.2.2.2⟩, hx.2.2.1⟩, fun hx => ⟨hs, hx.1.1, hx.2, hm, hx.1.2⟩⟩
    have hpass : nsheadConnReadPass fmt c = (none, c1) := by
      unfold nsheadConnReadPass
      rw [if_pos hs, hsome]
    rw [nsheadConnRead_again henough hpass]
    by_cases hbody : c1.expectedInputLen ≤ c1.input.length
    · obtain ⟨c2, hread, hp2, hsame2, hb2, hf2⟩ :=
        nsheadReadBody_cases hbody hr1 hb1 hsize (hf1.trans halive)
      have hge : eventGetInputLen c1 ≥ c1.expectedInputLen := hbody
      have hpass₂ : nsheadConnReadPass fmt c1 = (some 1, c2) := by
        unfold nsheadConnReadPass
        rw [if_neg (by simp [hs1]), hread]
      rw [nsheadConnRead_return hge hpass₂]
      rw [← hdies] at hf2
      cases hfault : c2.faulted with
      | true => exact .dies (hf2.1 hfault) hfault (hsame.trans hsame2) hb2
      | false =>
          refine .frame (hcomplete.2 hbody) (fun hx => ?_) hfault ?_ (hsame.trans hsame2) hb2
          · rw [hf2.2 hx] at hfault
            cases hfault
          · unfold Connection.frameProvider
            rw [if_pos hs]
            exact hp2.trans hp1
    · have hless : ¬ eventGetInputLen c1 ≥ c1.expectedInputLen := hbody
      rw [nsheadConnRead_stop hless]
      have hpos : 0 ≤ c1.expectedInputLen := by omega
      have hbuf : c1.readbuf ≠ none := by
        intro hx
        have hless' := (hnull.1 hx).2
        omega
      exact .waits (fun hx => hbody (hcomplete.1 hx)) (fun hx => hbuf (hdies.1 hx).1)
        (hf1.trans halive) ⟨hl1, hpos, Or.inr ⟨hs1, hr1, hbuf⟩⟩ hsame hb1

/-- **`nshead_conn_read`** on a connection that waits for a frame. -/
theorem nsheadConnRead_cases {c : Connection} (h : Reading c) (hb : BufferFits c)
    (halive : c.faulted = false) : ReadResult fmt c (nsheadConnRead fmt c) := by
  have hbelow : ¬ c.expectedInputLen ≤ c.input.length → nsheadConnRead fmt c = (0, c) :=
    fun hlen => nsheadConnRead_stop hlen
  rcases h.place with ⟨hs, hexp⟩ | ⟨hs, hroom, hbuf⟩
  · have hsize : nsheadSize = 36 := rfl
    by_cases hlen : 36 ≤ c.input.length
    · exact nsheadConnRead_head hs hexp hlen hb halive
    · rw [hbelow (by omega)]
      refine .waits ?_ ?_ halive h ⟨rfl, rfl, rfl, rfl⟩ hb
      · intro hx
        unfold Connection.FrameComplete at hx
        rw [if_pos hs] at hx
        exact hlen hx.1
      · intro hx
        have hmore := hx.2.2.1
        omega
  · have hnull : ¬ Connection.BodyIntoNull fmt c := fun hx => hbuf hx.2.1
    have hnot : ¬ c.state = .head := by
      rw [hs]
      decide
    have hcomplete : Connection.FrameComplete fmt c ↔ c.expectedInputLen ≤ c.input.length := by
      unfold Connection.FrameComplete
      rw [if_neg hnot]
    by_cases hlen : c.expectedInputLen ≤ c.input.length
    · obtain ⟨c2, hread, hp2, hsame2, hb2, hf2⟩ :=
        nsheadReadBody_cases hlen hroom hb (fun hx => absurd hx hbuf) halive
      have hge : eventGetInputLen c ≥ c.expectedInputLen := hlen
      have hpass : nsheadConnReadPass fmt c = (some 1, c2) := by
        unfold nsheadConnReadPass
        rw [if_neg hnot, hread]
      rw [nsheadConnRead_return hge hpass]
      refine .frame (hcomplete.2 hlen) hnull ?_ ?_ hsame2 hb2
      · exact Bool.eq_false_iff.2 (fun hx => hbuf (hf2.1 hx).1)
      · unfold Connection.frameProvider
        rw [if_neg hnot]
        exact hp2
    · rw [hbelow hlen]
      exact .waits (fun hx => hlen (hcomplete.1 hx)) hnull halive h ⟨rfl, rfl, rfl, rfl⟩ hb

/-! ## §3. One event. -/

/-- The invariant of a connection that never completed a frame from `__MONITOR__`. -/
structure ConnState.LifeInv (s : ConnState) : Prop where
  sound : s.Sound
  busy : s.active = true → s.conn.isProcessing = true ∧ s.conn.readEnabled = false
  reads : s.active = false → s.conn.hasError = false → Reading s.conn
  buffer : BufferFits s.conn

/-- The low watermark is the length waited for. -/
theorem Reading.low_eq {c : Connection} (h : Reading c) :
    (c.lowWatermark : Int) = c.expectedInputLen := by
  have hlow := h.low
  have hnonneg := h.nonneg
  unfold sizeT at hlow
  rcases h.place with ⟨-, hexp⟩ | ⟨-, hroom, -⟩
  · have hsize : nsheadSize = 36 := rfl
    omega
  · unfold sizeT at hroom
    omega

/-- Before the low watermark is reached no frame is complete. -/
theorem Reading.incomplete {c : Connection} (h : Reading c)
    (hlow : ¬ c.lowWatermark ≤ c.input.length) : ¬ Connection.FrameComplete fmt c := by
  have heq := h.low_eq
  unfold Connection.FrameComplete
  rcases h.place with ⟨hs, hexp⟩ | ⟨hs, hroom, -⟩
  · have hsize : nsheadSize = 36 := rfl
    rw [if_pos hs]
    intro hx
    omega
  · rw [if_neg (by simp [hs])]
    intro hx
    omega

/-- And nothing is written through a null pointer. -/
theorem Reading.not_into_null {c : Connection} (h : Reading c)
    (hlow : ¬ c.lowWatermark ≤ c.input.length) : ¬ Connection.BodyIntoNull fmt c := by
  intro hx
  have heq := h.low_eq
  have hmore := hx.2.2.1
  have hsize : nsheadSize = 36 := rfl
  rcases h.place with ⟨-, hexp⟩ | ⟨-, -, hbuf⟩
  · omega
  · exact hbuf hx.2.1

/-- `connection_prepare_read` makes the reader wait for a header. -/
theorem connectionPrepareRead_reading (c : Connection) : Reading (connectionPrepareRead c) := by
  refine ⟨rfl, ?_, Or.inl ⟨rfl, rfl⟩⟩
  show 0 ≤ nsheadSize
  decide

/-- After `connection_free` there is no read buffer. -/
theorem connectionFree_buffer (c : Connection) : BufferFits (connectionFree c) :=
  ⟨by show (0 : Int) < 2 ^ 31; decide, fun hbuf => absurd rfl hbuf⟩

/-- A connection that waits, as the reader left it. -/
theorem ConnState.LifeInv.of_reading {s : ConnState} (halive : s.conn.faulted = false)
    (hact : s.active = false) (herr : s.conn.hasError = false) (hfreed : s.conn.freed = false)
    (hen : s.conn.readEnabled = true) (hproc : s.conn.isProcessing = false)
    (hread : Reading s.conn) (hb : BufferFits s.conn) : s.LifeInv := by
  refine ⟨⟨halive, ?_, ?_, ?_, ?_⟩, ?_, (fun _ _ => hread), hb⟩
  · intro h
    rw [hact] at h
    cases h
  · intro h
    rw [herr] at h
    cases h
  · intro h
    rw [hfreed] at h
    cases h
  · intro _ _
    exact ⟨hen, hproc, hread.place.imp And.left And.left⟩
  · intro h
    rw [hact] at h
    cases h

/-- A connection that is freed after an error. -/
theorem ConnState.LifeInv.of_free {c : Connection} (herr : c.hasError = true)
    (halive : c.faulted = false) (reqs : List ReqInput) :
    ConnState.LifeInv ⟨connectionFree c, reqs, false⟩ := by
  refine ⟨⟨halive, ?_, (fun _ _ => rfl), (fun _ => herr), ?_⟩, ?_, ?_, connectionFree_buffer c⟩
  · intro h
    cases h
  · intro _ h
    exact absurd (herr.symm.trans h) (by simp)
  · intro h
    cases h
  · intro _ h
    exact absurd (herr.symm.trans h) (by simp)

/-- A connection whose request is in progress. -/
theorem ConnState.LifeInv.of_active {s : ConnState} (halive : s.conn.faulted = false)
    (hact : s.active = true) (hfreed : s.conn.freed = false) (hproc : s.conn.isProcessing = true)
    (hen : s.conn.readEnabled = false) (hb : BufferFits s.conn) : s.LifeInv := by
  refine ⟨⟨halive, (fun _ => hfreed), ?_, ?_, ?_⟩, (fun _ => ⟨hproc, hen⟩), ?_, hb⟩
  · intro _ h
    rw [hact] at h
    cases h
  · intro h
    rw [hfreed] at h
    cases h
  · intro h _
    rw [hact] at h
    cases h
  · intro h _
    rw [hact] at h
    cases h

/-- A connection that reads waits for a frame. -/
theorem ConnState.LifeInv.waits {s : ConnState} (h : s.LifeInv)
    (hen : s.conn.readEnabled = true) (hfreed : s.conn.freed = false) :
    s.active = false ∧ s.conn.hasError = false := by
  have hact : s.active = false := by
    cases ha : s.active with
    | false => rfl
    | true =>
        rw [(h.busy ha).2] at hen
        cases hen
  refine ⟨hact, ?_⟩
  cases he : s.conn.hasError with
  | false => rfl
  | true =>
      rw [h.sound.ended he hact] at hfreed
      cases hfreed

/-- **The read callback** on a connection that waits for a frame. -/
theorem connectionReadCb_life {c : Connection} (hr : Reading c) (hb : BufferFits c)
    (halive : c.faulted = false) (herr : c.hasError = false) (hfreed : c.freed = false)
    (hen : c.readEnabled = true) (hproc : c.isProcessing = false) (reqs : List ReqInput) :
    (¬ (Connection.FrameComplete fmt c ∧ Connection.frameProvider fmt c = monitorProvider)
        ∧ ¬ Connection.BodyIntoNull fmt c →
      ConnState.LifeInv ⟨(connectionReadCb fmt c).1, reqs, (connectionReadCb fmt c).2.isSome⟩)
      ∧ (ConnState.Sound ⟨(connectionReadCb fmt c).1, reqs, (connectionReadCb fmt c).2.isSome⟩ →
        ¬ (Connection.FrameComplete fmt c ∧ Connection.frameProvider fmt c = monitorProvider)
          ∧ ¬ Connection.BodyIntoNull fmt c) := by
  have hres : ReadResult fmt c (nsheadConnRead fmt c) := nsheadConnRead_cases hr hb halive
  unfold connectionReadCb
  generalize nsheadConnRead fmt c = out at hres
  cases hres with
  | @frame c' hcomplete hnull hf hp hs hb' =>
      simp only [hf, Bool.false_eq_true, if_false, Int.reduceLT, gt_iff_lt, if_true]
      unfold readDoneCb
      by_cases hmon : Connection.frameProvider fmt c = monitorProvider
      · refine ⟨fun hx => absurd ⟨hcomplete, hmon⟩ hx.1, ?_⟩
        intro hsound
        -- the reply is out, and the connection still counts as processing
        rw [hmon] at hp
        have herr' := hs.hasError.trans herr
        simp only [hp, if_true, connectionWrite, herr', Bool.false_eq_true, if_false] at hsound
        have hbad := (hsound.waiting rfl rfl).2.1
        cases hbad
      · refine ⟨fun _ => ?_, fun _ => ⟨fun hx => hmon hx.2, hnull⟩⟩
        rw [← hp] at hmon
        simp only [if_neg hmon]
        exact .of_active hf rfl (hs.freed.trans hfreed) rfl rfl ⟨hb'.bound, hb'.nonneg⟩
  | @dies c' hnull hf hs hb' =>
      simp only [hf, if_true]
      refine ⟨fun hx => absurd hnull hx.2, fun hsound => ?_⟩
      have halive' : c'.faulted = false := hsound.alive
      rw [hf] at halive'
      cases halive'
  | @waits c' hno hnull hf hr' hs hb' =>
      -- not enough yet
      simp only [hf, Bool.false_eq_true, if_false, Int.lt_irrefl, gt_iff_lt]
      refine ⟨fun _ => ?_, fun _ => ⟨fun hx => hno hx.1, hnull⟩⟩
      exact .of_reading hf rfl (hs.hasError.trans herr) (hs.freed.trans hfreed)
        (hs.readEnabled.trans hen) (hs.isProcessing.trans hproc) hr' hb'
  | @bad c' hno hnull hf hs hb' =>
      simp only [hf, Bool.false_eq_true, if_false, Int.reduceNeg, Int.reduceLT, gt_iff_lt, if_true]
      refine ⟨fun _ => ?_, fun _ => ⟨fun hx => hno hx.1, hnull⟩⟩
      have hproc' := hs.isProcessing.trans hproc
      unfold connectionCallErrorCb errorCb
      simp only [hproc', Bool.false_eq_true, if_false]
      refine .of_free rfl ?_ reqs
      exact hf

/-- The two events after which a connection is not what it should be. -/
def ConnState.GoesWrong (fmt : NsheadFormat) (s : ConnState) (op : LifeOp) : Prop :=
  s.CompletesMonitor fmt op ∨ s.ReadsIntoNull fmt op

/-- **Bytes arrive.** -/
theorem ConnState.LifeInv.arrive {s : ConnState} (h : s.LifeInv) {bytes : List UInt8}
    (hen : s.LifeEnabled (.arrive bytes)) :
    (¬ s.GoesWrong fmt (.arrive bytes) → (s.life fmt (.arrive bytes)).LifeInv)
      ∧ ((s.life fmt (.arrive bytes)).Sound → ¬ s.GoesWrong fmt (.arrive bytes)) := by
  obtain ⟨halive, hread, hfreed, -⟩ := hen
  obtain ⟨hact, herr⟩ := h.waits hread hfreed
  obtain ⟨-, hproc, -⟩ := h.sound.waiting hact herr
  have hr := h.reads hact herr
  have hrc : Reading { s.conn with input := s.conn.input ++ bytes } :=
    ⟨hr.low, hr.nonneg, hr.place⟩
  have hbc : BufferFits { s.conn with input := s.conn.input ++ bytes } :=
    ⟨h.buffer.bound, h.buffer.nonneg⟩
  unfold ConnState.GoesWrong
  rw [not_or]
  by_cases hlow : s.conn.lowWatermark ≤ (s.conn.input ++ bytes).length
  · have hlife : s.life fmt (.arrive bytes)
        = ⟨(connectionReadCb fmt { s.conn with input := s.conn.input ++ bytes }).1,
            s.requests
              ++ (connectionReadCb fmt { s.conn with input := s.conn.input ++ bytes }).2.toList,
            (connectionReadCb fmt { s.conn with input := s.conn.input ++ bytes }).2.isSome⟩ := by
      unfold ConnState.life ConnState.exec
      simp only [if_pos hlow, hact, Bool.false_or]
    rw [hlife]
    exact connectionReadCb_life hrc hbc halive herr hfreed hread hproc _
  · have hlife : s.life fmt (.arrive bytes)
        = { s with conn := { s.conn with input := s.conn.input ++ bytes } } := if_neg hlow
    rw [hlife]
    refine ⟨fun _ => ?_, fun _ => ⟨fun hx => hrc.incomplete hlow hx.1, hrc.not_into_null hlow⟩⟩
    exact .of_reading halive hact herr hfreed hread hproc hrc hbc

/-- **An error.** -/
theorem ConnState.LifeInv.error {s : ConnState} (h : s.LifeInv)
    (hen : s.LifeEnabled .error) : (s.life fmt .error).LifeInv := by
  obtain ⟨halive, hfreed⟩ := hen
  unfold ConnState.life connectionCallErrorCb errorCb
  cases hact : s.active with
  | true =>
      obtain ⟨hproc, hread⟩ := h.busy hact
      simp only [hproc, if_true]
      exact .of_active halive rfl hfreed rfl hread ⟨h.buffer.bound, h.buffer.nonneg⟩
  | false =>
      have herr : s.conn.hasError = false := by
        cases he : s.conn.hasError with
        | false => rfl
        | true =>
            rw [h.sound.ended he hact] at hfreed
            cases hfreed
      obtain ⟨-, hproc, -⟩ := h.sound.waiting hact herr
      simp only [hproc, Bool.false_eq_true, if_false]
      refine .of_free rfl ?_ s.requests
      exact halive

/-- **The request completes.** -/
theorem ConnState.LifeInv.done {s : ConnState} (h : s.LifeInv)
    (hen : s.LifeEnabled .done) : (s.life fmt .done).LifeInv := by
  obtain ⟨halive, hact⟩ := hen
  have hfreed := h.sound.handled hact
  unfold ConnState.life ConnState.exec serverProcessDone
  cases herr : s.conn.hasError with
  | true =>
      simp only [if_true]
      refine .of_free rfl ?_ s.requests
      exact halive
  | false =>
      simp only [Bool.false_eq_true, if_false]
      exact .of_reading halive rfl rfl hfreed rfl rfl (connectionPrepareRead_reading _)
        ⟨h.buffer.bound, h.buffer.nonneg⟩

/-- **Any event.** -/
theorem ConnState.LifeInv.life {s : ConnState} (h : s.LifeInv) {op : LifeOp}
    (hen : s.LifeEnabled op) :
    (¬ s.GoesWrong fmt op → (s.life fmt op).LifeInv)
      ∧ ((s.life fmt op).Sound → ¬ s.GoesWrong fmt op) := by
  have hquiet : ¬ (False ∨ False) := fun hx => hx.elim id id
  cases op with
  | arrive bytes => exact h.arrive hen
  | error => exact ⟨fun _ => h.error hen, fun _ => hquiet⟩
  | done => exact ⟨fun _ => h.done hen, fun _ => hquiet⟩

/-! ## §4. Runs. -/

/-- An accepted connection waits for its first frame. -/
theorem connectionAccept_lifeInv : ConnState.LifeInv ⟨connectionAccept, [], false⟩ :=
  .of_reading rfl rfl rfl rfl rfl rfl (connectionPrepareRead_reading _)
    ⟨by decide, fun hbuf => absurd rfl hbuf⟩

/-- Events reach only connections that are not freed. -/
theorem ConnState.LifeInv.enabled_freed {s : ConnState} (h : s.LifeInv) {op : LifeOp}
    (hen : s.LifeEnabled op) : s.conn.freed = false := by
  cases op with
  | arrive bytes => exact hen.2.2.1
  | error => exact hen.2
  | done => exact h.sound.handled hen.2

/-- **The life of a connection.**  In every run of an accepted connection, each
event meets a connection that is not freed and leaves it sound, if and only if no
frame from `__MONITOR__` is completed, and no length from 2^31 on is announced, with more
bytes behind it, while there is no read buffer.  The reply to the former is written, but
`server_process_done` is never called for it; the latter makes `event_read` write through a null
pointer. -/
theorem connection_lifecycle_iff {tr : List (ConnState × LifeOp)} {s : ConnState}
    (h : (lifeLts fmt).Run tr s) :
    (∀ q ∈ tr, q.1.conn.freed = false ∧ (q.1.life fmt q.2).Sound)
      ↔ ∀ q ∈ tr, ¬ q.1.GoesWrong fmt q.2 := by
  have key : ((∀ q ∈ tr, q.1.conn.freed = false ∧ (q.1.life fmt q.2).Sound)
        ↔ ∀ q ∈ tr, ¬ q.1.GoesWrong fmt q.2)
      ∧ ((∀ q ∈ tr, ¬ q.1.GoesWrong fmt q.2) → s.LifeInv) := by
    refine h.history (P := fun tr s =>
      ((∀ q ∈ tr, q.1.conn.freed = false ∧ (q.1.life fmt q.2).Sound)
          ↔ ∀ q ∈ tr, ¬ q.1.GoesWrong fmt q.2)
        ∧ ((∀ q ∈ tr, ¬ q.1.GoesWrong fmt q.2) → s.LifeInv)) ?_ ?_
    · intro s hs
      rw [hs]
      refine ⟨?_, fun _ => connectionAccept_lifeInv⟩
      exact iff_of_true (fun _ hq => by cases hq) (fun _ hq => by cases hq)
    · intro tr s op s' _ ih hstep
      obtain ⟨hen, rfl⟩ := hstep
      obtain ⟨hiff, hinv⟩ := ih
      simp only [List.forall_mem_append, List.forall_mem_singleton]
      refine ⟨?_, fun hno => ((hinv hno.1).life hen).1 hno.2⟩
      constructor
      · intro hall
        have hno := hiff.1 hall.1
        exact ⟨hno, ((hinv hno).life hen).2 hall.2.2⟩
      · intro hno
        have hlife := hinv hno.1
        exact ⟨hiff.2 hno.1, hlife.enabled_freed hen, ((hlife.life hen).1 hno.2).sound⟩
  exact key.1

/-- The header of a frame from `__MONITOR__` without a body. -/
def monitorHead : List UInt8 :=
  List.replicate 8 0 ++ monitorProvider ++ List.replicate 5 0
    ++ [0x94, 0x93, 0x70, 0xfb, 0, 0, 0, 0, 0, 0, 0, 0]

/-- After the reply to such a frame the connection counts as processing for ever. -/
theorem connection_monitor_never_done :
    ¬ ∀ (tr : List (ConnState × LifeOp)) (s : ConnState), (lifeLts nsheadLayout).Run tr s →
      ∀ q ∈ tr, q.1.conn.freed = false ∧ (q.1.life nsheadLayout q.2).Sound := by
  intro hall
  have hen : ConnState.LifeEnabled ⟨connectionAccept, [], false⟩ (.arrive monitorHead) :=
    ⟨rfl, rfl, rfl, by decide⟩
  have hrun : (lifeLts nsheadLayout).Run
      [(⟨connectionAccept, [], false⟩, .arrive monitorHead)]
      (ConnState.life nsheadLayout ⟨connectionAccept, [], false⟩ (.arrive monitorHead)) :=
    (Lts.Run.init (M := lifeLts nsheadLayout) rfl).step ⟨hen, rfl⟩
  have hsound := (hall _ _ hrun _ (List.mem_singleton_self _)).2
  have hproc := (hsound.waiting (by decide) (by decide)).2.1
  revert hproc
  decide

/-- A request of two bytes, and its completion. -/
theorem connection_lifecycle_iff_witness :
    (∀ q ∈ Lts.traceAll (ConnState.life nsheadLayout) ⟨connectionAccept, [], false⟩
        [.arrive frameOfTwo.bytes, .done],
      q.1.conn.freed = false ∧ (q.1.life nsheadLayout q.2).Sound)
      ↔ ∀ q ∈ Lts.traceAll (ConnState.life nsheadLayout) ⟨connectionAccept, [], false⟩
          [.arrive frameOfTwo.bytes, .done],
        ¬ q.1.GoesWrong nsheadLayout q.2 := by
  have hen : Lts.AllEnabled (ConnState.life nsheadLayout) ConnState.LifeEnabled
      ⟨connectionAccept, [], false⟩ [.arrive frameOfTwo.bytes, .done] := by
    refine ⟨⟨rfl, rfl, rfl, by decide⟩, ?_, trivial⟩
    show Connection.faulted _ = false ∧ ConnState.active _ = true
    decide
  have hstep : ∀ (s : ConnState) op, s.LifeEnabled op →
      (lifeLts nsheadLayout).step s op (s.life nsheadLayout op) := fun _ _ h => ⟨h, rfl⟩
  exact connection_lifecycle_iff (Lts.Run.execAll hstep _ (.init rfl) hen)

end RedisAgent
