/-
  RedisAgent.Conn.Replies — what is written on a client connection, and to which frame.

  A connection keeps one `log_id` and one `provider`, those of the last header it read,
  and every reply is written with them.  So a reply carries the numbers of the frame it
  answers only because no header is read before the frame is answered: while its
  request is in progress reading is switched off, and a frame of the monitor is answered
  at once.  `Client` adds to the connection what the proof speaks of: the last header,
  and for each frame that was read what was answered.  A run ends where the reader writes
  through a null `readbuf`.

  Main result: `client_replies` — in every run the replies on the wire are, in order, the
  answers to the frames that were read, each with the numbers of its own header.
-/
import RedisAgent.Conn.Lifecycle

namespace RedisAgent

variable {fmt : NsheadFormat}

/-! ## §1. A connection and its frames. -/

/-- What became of a frame. -/
inductive Answer
  /-- its request is in progress -/
  | pending
  /-- nothing was written -/
  | silent
  | reply (body : List UInt8)
  deriving Repr, DecidableEq

/-- A frame that was read: its header, and its answer. -/
structure Exchange where
  head : List UInt8
  answer : Answer
  deriving Repr, DecidableEq

/-- The reply to a frame, with the `log_id` and the `provider` of its header. -/
def Exchange.reply (fmt : NsheadFormat) (e : Exchange) : Option Reply :=
  match e.answer with
  | .reply body => some ⟨fmt.logId e.head, (fmt.provider e.head).take 15, body⟩
  | .pending | .silent => none

/-- The last frame is answered. -/
def answerLast (answer : Answer) : List Exchange → List Exchange
  | [] => []
  | [e] => [{ e with answer := answer }]
  | e :: e' :: l => e :: answerLast answer (e' :: l)

/-- A connection with its frames.  `header` are the 36 bytes it last read as a header;
`active` says that a request of it has not called `server_process_done` yet. -/
structure Client where
  conn : Connection
  header : List UInt8
  active : Bool
  exchanges : List Exchange
  deriving Repr, DecidableEq

inductive ClientOp
  /-- new bytes in the input buffer -/
  | arrive (bytes : List UInt8)
  /-- `connection_event_cb` with `EVENT_EOF` or `EVENT_ERROR` -/
  | error
  /-- `req_done`: `server_write` if there is a `writebuf`, and `server_process_done` -/
  | finish (writebuf : Option (List UInt8))
  deriving Repr, DecidableEq

namespace Client

/-- The connection after `req_done`. -/
def reqDone (c : Connection) : Option (List UInt8) → Connection
  | some buf => serverProcessDone (connectionWrite c buf)
  | none => serverProcessDone c

/-- What `req_done` answers; `connection_write` writes nothing after an error. -/
def answer (c : Connection) : Option (List UInt8) → Answer
  | some buf => if c.hasError then .silent else .reply buf
  | none => .silent

/-- The read callback, with the low watermark reached. -/
def readCb (fmt : NsheadFormat) (s : Client) (c : Connection) : Client :=
  let header := if c.state = .head then c.input.take 36 else s.header
  match connectionReadCb fmt c with
  | (c, some _) => ⟨c, header, true, s.exchanges ++ [⟨header, .pending⟩]⟩
  | (c, none) =>
      -- `read_done_cb` has answered the monitor itself
      ⟨c, header, s.active,
        if c.isProcessing then s.exchanges ++ [⟨header, .reply []⟩] else s.exchanges⟩

/-- The state after one event. -/
def exec (fmt : NsheadFormat) (s : Client) : ClientOp → Client
  | .arrive bytes =>
      let c := { s.conn with input := s.conn.input ++ bytes }
      if c.lowWatermark ≤ c.input.length then s.readCb fmt c else { s with conn := c }
  | .error => { s with conn := connectionCallErrorCb s.conn }
  | .finish writebuf =>
      { s with
        conn := reqDone s.conn writebuf
        active := false
        exchanges := answerLast (answer s.conn writebuf) s.exchanges }

/-- When a step can be taken; a process that has died takes none. -/
def Enabled (s : Client) : ClientOp → Prop
  | .arrive bytes => s.conn.faulted = false ∧ s.conn.readEnabled = true ∧ s.conn.freed = false
      ∧ bytes ≠ []
  | .error => s.conn.faulted = false ∧ s.conn.freed = false
  | .finish _ => s.conn.faulted = false ∧ s.active = true

/-- As `accept_cb` leaves it. -/
def accepted : Client := ⟨connectionAccept, [], false, []⟩

/-- The event makes the process die. -/
def Dies (fmt : NsheadFormat) (s : Client) : ClientOp → Prop
  | .arrive bytes => Connection.BodyIntoNull fmt { s.conn with input := s.conn.input ++ bytes }
  | .error | .finish _ => False

end Client

/-- Every run of an accepted connection. -/
def clientLts (fmt : NsheadFormat) : Lts Client ClientOp where
  init s := s = Client.accepted
  step s op s' := s.Enabled op ∧ s' = s.exec fmt op

/-! ## §2. Whose numbers the connection holds. -/

/-- The connection holds the numbers of this header. -/
structure Labelled (fmt : NsheadFormat) (head : List UInt8) (c : Connection) : Prop where
  logId : c.logId = fmt.logId head
  provider : c.provider = (fmt.provider head).take 15

theorem ensureReadbuf_labels (c : Connection) (len : Int) :
    (ensureReadbuf c len).logId = c.logId ∧ (ensureReadbuf c len).provider = c.provider
      ∧ (ensureReadbuf c len).written = c.written := by
  unfold ensureReadbuf
  split
  · exact ⟨rfl, rfl, rfl⟩
  · exact ⟨rfl, rfl, rfl⟩

/-- A header that is read leaves its numbers. -/
theorem nsheadReadHead_labelled {c c' : Connection} (h : nsheadReadHead fmt c = some c') :
    Labelled fmt (c.input.take 36) c' ∧ c'.written = c.written := by
  unfold nsheadReadHead at h
  simp only at h
  split at h
  · cases h
  · cases h
    obtain ⟨hid, hprov, hwritten⟩ := ensureReadbuf_labels
      (nsheadConnSetExpectedInputLen { (eventRead c nsheadSize).2 with
        state := .body
        provider := (fmt.provider (eventRead c nsheadSize).1).take 15
        logId := fmt.logId (eventRead c nsheadSize).1 }
        (fmt.bodyLen (eventRead c nsheadSize).1).toInt32.toInt)
      (fmt.bodyLen (eventRead c nsheadSize).1).toInt32.toInt
    exact ⟨⟨hid, hprov⟩, hwritten⟩

/-- Reading a body changes neither. -/
theorem nsheadReadBody_labels (c : Connection) :
    (nsheadReadBody c).2.logId = c.logId ∧ (nsheadReadBody c).2.provider = c.provider
      ∧ (nsheadReadBody c).2.written = c.written := by
  unfold nsheadReadBody eventRead
  simp only
  split
  · exact ⟨rfl, rfl, rfl⟩
  · exact ⟨rfl, rfl, rfl⟩

/-- **One pass of the loop.**  A connection past its header holds the numbers of the header
`head` before it, one in front of a header those of the header it reads. -/
theorem nsheadConnReadPass_labelled {c c' : Connection} {r : Option Int} {head : List UInt8}
    (hlab : c.state ≠ .head → Labelled fmt head c)
    (h : nsheadConnReadPass fmt c = (r, c')) (hok : r ≠ some (-1)) :
    Labelled fmt (if c.state = .head then c.input.take 36 else head) c' := by
  unfold nsheadConnReadPass at h
  by_cases hs : c.state = .head
  · rw [if_pos hs] at h ⊢
    cases hhead : nsheadReadHead fmt c with
    | none =>
        rw [hhead] at h
        cases h
        exact absurd rfl hok
    | some c₁ =>
        rw [hhead] at h
        cases h
        exact (nsheadReadHead_labelled hhead).1
  · rw [if_neg hs] at h ⊢
    obtain ⟨hid, hprov, -⟩ := nsheadReadBody_labels c
    cases h
    exact ⟨hid.trans (hlab hs).logId, hprov.trans (hlab hs).provider⟩

/-- Nothing is written while reading. -/
theorem nsheadConnReadPass_written (c : Connection) :
    (nsheadConnReadPass fmt c).2.written = c.written := by
  unfold nsheadConnReadPass
  split
  · cases hhead : nsheadReadHead fmt c with
    | none => rfl
    | some c₁ => exact (nsheadReadHead_labelled hhead).2
  · exact (nsheadReadBody_labels c).2.2

theorem nsheadConnReadLoop_written (n : Nat) : ∀ c : Connection,
    (nsheadConnReadLoop fmt n c).2.written = c.written := by
  induction n with
  | zero => exact fun c => rfl
  | succ n ih =>
      intro c
      have hpass := @nsheadConnReadPass_written fmt c
      rw [nsheadConnReadLoop]
      split
      · rcases hp : nsheadConnReadPass fmt c with ⟨_ | ret, c₁⟩
        · rw [hp] at hpass
          exact (ih c₁).trans hpass
        · rw [hp] at hpass
          exact hpass
      · rfl

/-- By induction on the passes: after its first pass the loop is past the header. -/
theorem nsheadConnReadLoop_labelled (n : Nat) : ∀ {c c' : Connection} {r : Int}
    {head : List UInt8}, (c.state ≠ .head → Labelled fmt head c) →
    nsheadConnReadLoop fmt n c = (r, c') → r ≠ -1 → c'.state ≠ .head →
      Labelled fmt (if c.state = .head then c.input.take 36 else head) c' := by
  induction n with
  | zero =>
      intro c c' r head hlab h _ hs
      cases h
      rw [if_neg hs]
      exact hlab hs
  | succ n ih =>
      intro c c' r head hlab h hr hs
      rw [nsheadConnReadLoop] at h
      split at h
      · rcases hp : nsheadConnReadPass fmt c with ⟨_ | ret, c₁⟩
        · rw [hp] at h
          have hl := nsheadConnReadPass_labelled hlab hp (fun he => by cases he)
          have hl' := ih (fun _ => hl) h hr hs
          have hbody : c₁.state ≠ .head := by
            rw [(nsheadConnReadPass_none hp).2]
            decide
          rw [if_neg hbody] at hl'
          exact hl'
        · rw [hp] at h
          cases h
          exact nsheadConnReadPass_labelled hlab hp (fun he => hr (Option.some.inj he))
      · cases h
        rw [if_neg hs]
        exact hlab hs

/-! ## §3. The invariant. -/

/-- No frame waits for its answer. -/
def Client.AllAnswered (s : Client) : Prop := ∀ e ∈ s.exchanges, e.answer ≠ .pending

/-- **Where a connection stands.** -/
inductive Client.Phase (fmt : NsheadFormat) (s : Client) : Prop
  /-- it waits for a frame -/
  | reading : s.active = false → s.conn.hasError = false → s.conn.freed = false →
      s.conn.readEnabled = true → s.conn.isProcessing = false → Reading s.conn →
      (s.conn.state ≠ .head → Labelled fmt s.header s.conn) → s.AllAnswered → Phase fmt s
  /-- the request of the last frame is in progress -/
  | busy (before : List Exchange) : s.active = true → s.conn.faulted = false → s.conn.freed = false →
      s.conn.isProcessing = true → s.conn.readEnabled = false → Labelled fmt s.header s.conn →
      s.exchanges = before ++ [⟨s.header, .pending⟩] → (∀ e ∈ before, e.answer ≠ .pending) →
      Phase fmt s
  /-- a frame of the monitor was answered, and nothing is read any more -/
  | monitored : s.active = false → s.conn.freed = false → s.conn.isProcessing = true →
      s.conn.readEnabled = false → s.AllAnswered → Phase fmt s
  | closed : s.active = false → s.conn.freed = true → s.AllAnswered → Phase fmt s
  /-- the process died when it read a body -/
  | died : s.active = false → s.conn.faulted = true → s.AllAnswered → Phase fmt s

structure Client.Inv (fmt : NsheadFormat) (s : Client) : Prop where
  written : s.conn.written = s.exchanges.filterMap (Exchange.reply fmt)
  phase : s.Phase fmt
  buffer : BufferFits s.conn

theorem Client.accepted_inv : Client.accepted.Inv fmt := by
  refine ⟨rfl, .reading rfl rfl rfl rfl rfl (connectionPrepareRead_reading _) ?_ ?_,
    ⟨by decide, fun hbuf => absurd rfl hbuf⟩⟩
  · intro hs
    exact absurd rfl hs
  · intro e he
    cases he

/-- The last frame is answered, the others stay as they are. -/
theorem answerLast_append (answer : Answer) (before : List Exchange) (e : Exchange) :
    answerLast answer (before ++ [e]) = before ++ [{ e with answer := answer }] := by
  induction before with
  | nil => rfl
  | cons e₀ before ih =>
      cases before with
      | nil => rfl
      | cons e₁ before =>
          show e₀ :: answerLast answer (e₁ :: before ++ [e]) = _
          rw [ih]
          rfl

/-- **What the read callback does** to a connection that waits for a frame; `head` is the
header of the frame it is at. -/
inductive ReadOutcome (fmt : NsheadFormat) (head : List UInt8) (c : Connection) :
    Connection × Option ReqInput → Prop
  /-- the frame goes to `req_ready` -/
  | request {c' : Connection} (input : ReqInput) : c'.faulted = false → c'.isProcessing = true →
      c'.readEnabled = false → c'.freed = c.freed → c'.written = c.written →
      Labelled fmt head c' → BufferFits c' → ReadOutcome fmt head c (c', some input)
  /-- the frame is one of the monitor -/
  | monitor {c' : Connection} : c'.isProcessing = true → c'.readEnabled = false →
      c'.freed = c.freed →
      c'.written = c.written ++ [⟨fmt.logId head, (fmt.provider head).take 15, []⟩] →
      BufferFits c' → ReadOutcome fmt head c (c', none)
  /-- the frame is not complete -/
  | wait {c' : Connection} : Reading c' → SameLife c c' → c'.written = c.written →
      (c'.state ≠ .head → Labelled fmt head c') → BufferFits c' →
      ReadOutcome fmt head c (c', none)
  /-- the header is bad -/
  | bad {c' : Connection} : c'.freed = true → c'.isProcessing = false → c'.written = c.written →
      BufferFits c' → ReadOutcome fmt head c (c', none)
  /-- the process dies -/
  | dies {c' : Connection} : c'.faulted = true → c'.isProcessing = false →
      c'.written = c.written → BufferFits c' → ReadOutcome fmt head c (c', none)

/-- The state after a body is not `head`. -/
theorem nsheadConnReadLoop_state (n : Nat) : ∀ {c c' : Connection},
    nsheadConnReadLoop fmt n c = (1, c') → c'.state ≠ .head := by
  induction n with
  | zero =>
      intro c c' h
      have hret := congrArg Prod.fst h
      cases hret
  | succ n ih =>
      intro c c' h
      rw [nsheadConnReadLoop] at h
      split at h
      · rcases hp : nsheadConnReadPass fmt c with ⟨_ | ret, c₁⟩
        · rw [hp] at h
          exact ih h
        · rw [hp] at h
          cases h
          unfold nsheadConnReadPass at hp
          by_cases hs : c.state = .head
          · rw [if_pos hs] at hp
            cases hhead : nsheadReadHead fmt c with
            | none =>
                rw [hhead] at hp
                have hret := congrArg Prod.fst hp
                cases hret
            | some c₂ =>
                rw [hhead] at hp
                have hret := congrArg Prod.fst hp
                cases hret
          · rw [if_neg hs] at hp
            unfold nsheadReadBody at hp
            simp only at hp
            split at hp
            · have hret := congrArg Prod.fst hp
              cases hret
            · cases hp
              intro he
              cases he
      · have hret := congrArg Prod.fst h
        cases hret

theorem connectionReadCb_outcome {c : Connection} {head : List UInt8} (hr : Reading c)
    (hb : BufferFits c) (halive : c.faulted = false) (herr : c.hasError = false)
    (hproc : c.isProcessing = false) (hlab : c.state ≠ .head → Labelled fmt head c) :
    ReadOutcome fmt (if c.state = .head then c.input.take 36 else head) c
      (connectionReadCb fmt c) := by
  have hres : ReadResult fmt c (nsheadConnRead fmt c) := nsheadConnRead_cases hr hb halive
  have hwritten := @nsheadConnReadLoop_written fmt 2 c
  have hlabelled : ∀ {c' : Connection} {r : Int}, nsheadConnRead fmt c = (r, c') → r ≠ -1 →
      c'.state ≠ .head → Labelled fmt (if c.state = .head then c.input.take 36 else head) c' :=
    fun hread hok hs => nsheadConnReadLoop_labelled 2 hlab hread hok hs
  have hstate : ∀ {c' : Connection}, nsheadConnRead fmt c = (1, c') → c'.state ≠ .head :=
    fun hread => nsheadConnReadLoop_state 2 hread
  have hloop : nsheadConnRead fmt c = nsheadConnReadLoop fmt 2 c := rfl
  rw [← hloop] at hwritten
  unfold connectionReadCb
  generalize nsheadConnRead fmt c = out at hres hwritten hlabelled hstate
  cases hres with
  | @frame c' _ _ hf _ hsame hb' =>
      have hl := hlabelled rfl (by decide) (hstate rfl)
      simp only [hf, Bool.false_eq_true, if_false, Int.reduceLT, gt_iff_lt, if_true]
      unfold readDoneCb
      by_cases hmon : c'.provider = monitorProvider
      · have herr' : c'.hasError = false := hsame.hasError.trans herr
        simp only [if_pos hmon, connectionWrite, herr', Bool.false_eq_true, if_false]
        refine .monitor rfl rfl hsame.freed ?_ ⟨hb'.bound, hb'.nonneg⟩
        show c'.written ++ [⟨c'.logId, c'.provider, []⟩] = _
        rw [hwritten, hl.logId, hl.provider]
      · simp only [if_neg hmon]
        exact .request _ hf rfl rfl hsame.freed hwritten ⟨hl.logId, hl.provider⟩
          ⟨hb'.bound, hb'.nonneg⟩
  | @dies c' _ hf hsame hb' =>
      simp only [hf, if_true]
      exact .dies hf (hsame.isProcessing.trans hproc) hwritten hb'
  | @waits c' _ _ hf hr' hsame hb' =>
      simp only [hf, Bool.false_eq_true, if_false, Int.lt_irrefl, gt_iff_lt]
      exact .wait hr' hsame hwritten (fun hs => hlabelled rfl (by decide) hs) hb'
  | @bad c' _ _ hf hsame hb' =>
      have hproc' : c'.isProcessing = false := hsame.isProcessing.trans hproc
      simp only [hf, Bool.false_eq_true, if_false, Int.reduceNeg, Int.reduceLT, gt_iff_lt, if_true]
      unfold connectionCallErrorCb errorCb
      simp only [hproc', Bool.false_eq_true, if_false]
      exact .bad rfl rfl hwritten (connectionFree_buffer _)

variable {s : Client}

/-- One more frame, already answered or to be answered. -/
theorem Client.allAnswered_append (h : s.AllAnswered) {e : Exchange} (he : e.answer ≠ .pending) :
    ∀ e' ∈ s.exchanges ++ [e], e'.answer ≠ .pending := by
  intro e' he'
  rcases List.mem_append.1 he' with hold | hnew
  · exact h e' hold
  · rw [List.mem_singleton.1 hnew]
    exact he

/-- **The read callback.** -/
theorem Client.Inv.readCb (h : s.Inv fmt) {c : Connection} (hw : c.written = s.conn.written)
    (hact : s.active = false) (hall : s.AllAnswered) (hr : Reading c) (hb : BufferFits c)
    (halive : c.faulted = false) (herr : c.hasError = false) (hfreed : c.freed = false) (hen : c.readEnabled = true)
    (hproc : c.isProcessing = false) (hlab : c.state ≠ .head → Labelled fmt s.header c) :
    (s.readCb fmt c).Inv fmt := by
  have hout := connectionReadCb_outcome hr hb halive herr hproc hlab
  have hwritten := hw.trans h.written
  unfold Client.readCb
  generalize (if c.state = .head then c.input.take 36 else s.header) = header at hout ⊢
  rcases hcb : connectionReadCb fmt c with ⟨c', req⟩
  rw [hcb] at hout
  cases hout with
  | request input ha hp hre hf hwr hl hb' =>
      refine ⟨?_, .busy s.exchanges rfl ha (hf.trans hfreed) hp hre hl rfl hall, hb'⟩
      show c'.written = (s.exchanges ++ [(⟨header, .pending⟩ : Exchange)]).filterMap (Exchange.reply fmt)
      rw [hwr, hwritten, List.filterMap_append]
      exact (List.append_nil _).symm
  | monitor hp hre hf hwr hb' =>
      simp only [hp, if_true]
      refine ⟨?_, .monitored hact (hf.trans hfreed) hp hre
        (Client.allAnswered_append hall (fun he => by cases he)), hb'⟩
      show c'.written = (s.exchanges ++ [(⟨header, .reply []⟩ : Exchange)]).filterMap (Exchange.reply fmt)
      rw [hwr, hwritten, List.filterMap_append]
      rfl
  | wait hr' hsame hwr hl hb' =>
      have hproc' : c'.isProcessing = false := hsame.isProcessing.trans hproc
      simp only [hproc', Bool.false_eq_true, if_false]
      exact ⟨hwr.trans hwritten, .reading hact (hsame.hasError.trans herr)
        (hsame.freed.trans hfreed) (hsame.readEnabled.trans hen) hproc' hr' hl hall, hb'⟩
  | bad hf hp hwr hb' =>
      simp only [hp, Bool.false_eq_true, if_false]
      exact ⟨hwr.trans hwritten, .closed hact hf hall, hb'⟩
  | dies hf hp hwr hb' =>
      simp only [hp, Bool.false_eq_true, if_false]
      exact ⟨hwr.trans hwritten, .died hact hf hall, hb'⟩

/-- **Bytes arrive.** -/
theorem Client.Inv.arrive (h : s.Inv fmt) {bytes : List UInt8}
    (hen : s.Enabled (.arrive bytes)) : (s.exec fmt (.arrive bytes)).Inv fmt := by
  obtain ⟨halive, hread, hfree, -⟩ := hen
  cases h.phase with
  | reading hact herr hfreed hre hproc hr hlab hall =>
      have hbc : BufferFits { s.conn with input := s.conn.input ++ bytes } :=
        ⟨h.buffer.bound, h.buffer.nonneg⟩
      have hrc : Reading { s.conn with input := s.conn.input ++ bytes } :=
        ⟨hr.low, hr.nonneg, hr.place⟩
      have hlabc : s.conn.state ≠ .head →
          Labelled fmt s.header { s.conn with input := s.conn.input ++ bytes } :=
        fun hs => ⟨(hlab hs).logId, (hlab hs).provider⟩
      unfold Client.exec
      simp only
      split
      · exact h.readCb rfl hact hall hrc hbc halive herr hfreed hre hproc hlabc
      · exact ⟨h.written, .reading hact herr hfreed hre hproc hrc hlabc hall, hbc⟩
  | busy before hact _ hfreed hproc hre =>
      rw [hre] at hread
      cases hread
  | monitored hact hfreed hproc hre =>
      rw [hre] at hread
      cases hread
  | closed hact hfreed =>
      rw [hfreed] at hfree
      cases hfree
  | died hact hf =>
      rw [hf] at halive
      cases halive

/-- **An error.** -/
theorem Client.Inv.error (h : s.Inv fmt) (hen : s.Enabled .error) :
    (s.exec fmt .error).Inv fmt := by
  obtain ⟨halive, hfree⟩ := hen
  unfold Client.exec connectionCallErrorCb errorCb
  cases h.phase with
  | reading hact herr hfreed hre hproc hr hlab hall =>
      simp only [hproc, Bool.false_eq_true, if_false]
      exact ⟨h.written, .closed hact rfl hall, connectionFree_buffer _⟩
  | busy before hact _ hfreed hproc hre hlab hex hbefore =>
      simp only [hproc, if_true]
      exact ⟨h.written, .busy before hact halive hfreed rfl hre ⟨hlab.logId, hlab.provider⟩ hex hbefore,
        ⟨h.buffer.bound, h.buffer.nonneg⟩⟩
  | monitored hact hfreed hproc hre hall =>
      simp only [hproc, if_true]
      exact ⟨h.written, .monitored hact hfreed rfl hre hall,
        ⟨h.buffer.bound, h.buffer.nonneg⟩⟩
  | closed hact hfreed hall =>
      rw [hfreed] at hfree
      cases hfree
  | died hact hf =>
      rw [hf] at halive
      cases halive

/-- The reply that an answer puts on the wire. -/
def Answer.written (c : Connection) : Answer → List Reply
  | .reply body => [⟨c.logId, c.provider, body⟩]
  | .pending | .silent => []

/-- The connection after `server_write`, when its request is in progress. -/
theorem Client.reqDone_eq (c : Connection) (writebuf : Option (List UInt8)) :
    Client.reqDone c writebuf = serverProcessDone { c with
      written := c.written ++ (Client.answer c writebuf).written c } := by
  cases writebuf with
  | none =>
      show serverProcessDone c = serverProcessDone { c with written := c.written ++ [] }
      rw [List.append_nil]
  | some buf =>
      show serverProcessDone (connectionWrite c buf) = serverProcessDone { c with
        written := c.written ++ (if c.hasError then Answer.silent else .reply buf).written c }
      unfold connectionWrite
      by_cases herr : c.hasError = true
      · rw [if_pos herr, if_pos herr]
        show serverProcessDone c = serverProcessDone { c with written := c.written ++ [] }
        rw [List.append_nil]
      · rw [if_neg herr, if_neg herr]
        rfl

/-- **The request completes.** -/
theorem Client.Inv.finish (h : s.Inv fmt) {writebuf : Option (List UInt8)}
    (hen : s.Enabled (.finish writebuf)) : (s.exec fmt (.finish writebuf)).Inv fmt := by
  have hact' : s.active = true := hen.2
  cases h.phase with
  | busy before hact _ hfreed hproc hre hlab hex hbefore =>
      have hanswer : (Client.answer s.conn writebuf) ≠ .pending := by
        unfold Client.answer
        split
        · split
          · exact fun he => by cases he
          · exact fun he => by cases he
        · exact fun he => by cases he
      have hex' : answerLast (Client.answer s.conn writebuf) s.exchanges
          = before ++ [⟨s.header, Client.answer s.conn writebuf⟩] := by
        rw [hex, answerLast_append]
      have hall : ∀ e ∈ answerLast (Client.answer s.conn writebuf) s.exchanges,
          e.answer ≠ .pending := by
        rw [hex']
        intro e he
        rcases List.mem_append.1 he with hold | hnew
        · exact hbefore e hold
        · rw [List.mem_singleton.1 hnew]
          exact hanswer
      have hwritten : s.conn.written ++ (Client.answer s.conn writebuf).written s.conn
          = (answerLast (Client.answer s.conn writebuf) s.exchanges).filterMap
            (Exchange.reply fmt) := by
        rw [h.written, hex', hex, List.filterMap_append, List.filterMap_append]
        show before.filterMap _ ++ [] ++ _ = _
        rw [List.append_nil]
        congr 1
        cases Client.answer s.conn writebuf with
        | reply body =>
            show [(⟨s.conn.logId, s.conn.provider, body⟩ : Reply)] = _
            rw [hlab.logId, hlab.provider]
            rfl
        | pending => rfl
        | silent => rfl
      unfold Client.exec
      simp only [Client.reqDone_eq]
      unfold serverProcessDone
      by_cases herr : s.conn.hasError = true
      · simp only [if_pos herr]
        exact ⟨hwritten, .closed rfl rfl hall, connectionFree_buffer _⟩
      · simp only [if_neg herr]
        refine ⟨hwritten, .reading rfl (Bool.not_eq_true _ ▸ herr) hfreed rfl rfl
          (connectionPrepareRead_reading _) ?_ hall, ⟨h.buffer.bound, h.buffer.nonneg⟩⟩
        intro hs
        exact absurd rfl hs
  | reading hact =>
      rw [hact] at hact'
      cases hact'
  | monitored hact =>
      rw [hact] at hact'
      cases hact'
  | closed hact =>
      rw [hact] at hact'
      cases hact'
  | died hact =>
      rw [hact] at hact'
      cases hact'

/-- **Any event.** -/
theorem Client.Inv.exec (h : s.Inv fmt) {op : ClientOp} (hen : s.Enabled op) :
    (s.exec fmt op).Inv fmt := by
  cases op with
  | arrive bytes => exact h.arrive hen
  | error => exact h.error hen
  | finish writebuf => exact h.finish hen

theorem Client.Inv.of_reachable (h : (clientLts fmt).Reachable s) : s.Inv fmt := by
  refine h.invariant (P := fun s => s.Inv fmt) ?_ ?_
  · intro s hs
    rw [hs]
    exact Client.accepted_inv
  · intro s op s' _ hinv hstep
    obtain ⟨hen, rfl⟩ := hstep
    exact hinv.exec hen

/-- What is promised of the replies. -/
structure ClientSound (fmt : NsheadFormat) (s : Client) : Prop where
  /-- the replies on the wire answer the frames in their order, each with its own numbers -/
  written : s.conn.written = s.exchanges.filterMap (Exchange.reply fmt)
  /-- only the last frame can be without an answer, and its header was the last one read -/
  pending : ∀ before e after, s.exchanges = before ++ e :: after → e.answer = .pending →
    after = [] ∧ e.head = s.header ∧ s.active = true
  /-- the connection is there while a request of it is in progress -/
  handled : s.active = true → s.conn.freed = false
  /-- after an error nothing is written -/
  afterError : s.conn.hasError = true → ∀ op, s.Enabled op →
    (s.exec fmt op).conn.written = s.conn.written
  /-- the process dies only of a body read into a null pointer -/
  dies : ∀ op, s.Enabled op → ((s.exec fmt op).conn.faulted = true ↔ s.Dies fmt op)

/-- A frame without an answer is the last. -/
theorem Client.Inv.pending (h : s.Inv fmt) {before after : List Exchange} {e : Exchange}
    (hsplit : s.exchanges = before ++ e :: after) (hpend : e.answer = .pending) :
    after = [] ∧ e.head = s.header ∧ s.active = true := by
  have hmem : e ∈ s.exchanges := by
    rw [hsplit]
    exact List.mem_append_right _ List.mem_cons_self
  cases h.phase with
  | reading _ _ _ _ _ _ _ hall => exact absurd hpend (hall e hmem)
  | monitored _ _ _ _ hall => exact absurd hpend (hall e hmem)
  | closed _ _ hall => exact absurd hpend (hall e hmem)
  | died _ _ hall => exact absurd hpend (hall e hmem)
  | busy before' hact _ _ _ _ _ hex hbefore =>
      rcases List.eq_nil_or_concat after with hnil | ⟨mid, last, hlast⟩
      · subst hnil
        rw [hex] at hsplit
        obtain ⟨-, he⟩ := List.append_inj' hsplit rfl
        cases he
        exact ⟨rfl, rfl, hact⟩
      · -- then it is one of those before the last
        rw [hlast, List.concat_eq_append, hex] at hsplit
        have hsplit' : before' ++ [⟨s.header, .pending⟩] = (before ++ e :: mid) ++ [last] := by
          rw [hsplit, List.append_assoc, List.cons_append]
        obtain ⟨hb, -⟩ := List.append_inj' hsplit' rfl
        refine absurd hpend (hbefore e ?_)
        rw [hb]
        exact List.mem_append_right _ List.mem_cons_self

theorem Client.Inv.afterError (h : s.Inv fmt) (herr : s.conn.hasError = true) {op : ClientOp}
    (hen : s.Enabled op) : (s.exec fmt op).conn.written = s.conn.written := by
  cases op with
  | arrive bytes =>
      obtain ⟨halive, hread, hfree, -⟩ := hen
      cases h.phase with
      | reading _ hno =>
          rw [hno] at herr
          cases herr
      | busy _ _ _ _ _ hre =>
          rw [hre] at hread
          cases hread
      | monitored _ _ _ hre =>
          rw [hre] at hread
          cases hread
      | closed _ hfreed =>
          rw [hfreed] at hfree
          cases hfree
      | died _ hf =>
          rw [hf] at halive
          cases halive
  | error =>
      show (connectionCallErrorCb s.conn).written = s.conn.written
      unfold connectionCallErrorCb errorCb
      split
      · rfl
      · rfl
  | finish writebuf =>
      have hsilent : (Client.answer s.conn writebuf).written s.conn = [] := by
        unfold Client.answer
        split
        · rw [if_pos herr]
          rfl
        · rfl
      show (Client.reqDone s.conn writebuf).written = s.conn.written
      rw [Client.reqDone_eq, hsilent, List.append_nil]
      unfold serverProcessDone
      simp only [if_pos herr]
      rfl

/-- While a request is in progress, the process and the connection are there. -/
theorem Client.Inv.standing (h : s.Inv fmt) (hact : s.active = true) :
    s.conn.faulted = false ∧ s.conn.freed = false := by
  cases h.phase with
  | busy _ _ halive hfreed => exact ⟨halive, hfreed⟩
  | reading hno =>
      rw [hno] at hact
      cases hact
  | monitored hno =>
      rw [hno] at hact
      cases hact
  | closed hno =>
      rw [hno] at hact
      cases hact
  | died hno =>
      rw [hno] at hact
      cases hact

/-- The read callback, as far as the process lives. -/
theorem connectionReadCb_faulted {c : Connection} (hr : Reading c) (hb : BufferFits c)
    (halive : c.faulted = false) :
    (connectionReadCb fmt c).1.faulted = true ↔ Connection.BodyIntoNull fmt c := by
  have hres : ReadResult fmt c (nsheadConnRead fmt c) := nsheadConnRead_cases hr hb halive
  unfold connectionReadCb
  generalize nsheadConnRead fmt c = out at hres
  cases hres with
  | @frame c' _ hnull hf _ _ _ =>
      refine iff_of_false ?_ hnull
      simp only [hf, Bool.false_eq_true, if_false, Int.reduceLT, gt_iff_lt, if_true]
      unfold readDoneCb connectionWrite
      simp only
      split
      · split
        · simp [hf]
        · simp [hf]
      · simp [hf]
  | @dies c' hnull hf _ _ =>
      simp only [hf, if_true]
      exact iff_of_true trivial hnull
  | @waits c' _ hnull hf _ _ _ =>
      refine iff_of_false ?_ hnull
      simp only [hf, Bool.false_eq_true, if_false, Int.lt_irrefl, gt_iff_lt]
      simp
  | @bad c' _ hnull hf _ _ =>
      refine iff_of_false ?_ hnull
      simp only [hf, Bool.false_eq_true, if_false, Int.reduceNeg, Int.reduceLT, gt_iff_lt, if_true]
      unfold connectionCallErrorCb errorCb connectionFree
      simp only
      split
      · simp [hf]
      · simp [hf]

/-- **When the process dies.** -/
theorem Client.Inv.exec_faulted (h : s.Inv fmt) {op : ClientOp} (hen : s.Enabled op) :
    (s.exec fmt op).conn.faulted = true ↔ s.Dies fmt op := by
  cases op with
  | arrive bytes =>
      obtain ⟨halive, hread, hfree, -⟩ := hen
      cases h.phase with
      | reading hact herr hfreed hre hproc hr hlab hall =>
          have hbc : BufferFits { s.conn with input := s.conn.input ++ bytes } :=
            ⟨h.buffer.bound, h.buffer.nonneg⟩
          have hrc : Reading { s.conn with input := s.conn.input ++ bytes } :=
            ⟨hr.low, hr.nonneg, hr.place⟩
          unfold Client.exec Client.Dies
          simp only
          split
          · rw [← connectionReadCb_faulted hrc hbc halive]
            unfold Client.readCb
            rcases connectionReadCb fmt { s.conn with input := s.conn.input ++ bytes } with ⟨c', req⟩
            cases req with
            | none => exact Iff.rfl
            | some input => exact Iff.rfl
          · rename_i hlow
            exact iff_of_false (by simp [halive]) (hrc.not_into_null hlow)
      | busy _ _ _ _ _ hre =>
          rw [hre] at hread
          cases hread
      | monitored _ _ _ hre =>
          rw [hre] at hread
          cases hread
      | closed _ hfreed =>
          rw [hfreed] at hfree
          cases hfree
      | died _ hf =>
          rw [hf] at halive
          cases halive
  | error =>
      have halive : s.conn.faulted = false := hen.1
      refine iff_of_false ?_ id
      show ¬ (connectionCallErrorCb s.conn).faulted = true
      unfold connectionCallErrorCb errorCb connectionFree
      simp only
      split
      · simp [halive]
      · simp [halive]
  | finish writebuf =>
      have halive : s.conn.faulted = false := hen.1
      refine iff_of_false ?_ id
      show ¬ (Client.reqDone s.conn writebuf).faulted = true
      rw [Client.reqDone_eq]
      unfold serverProcessDone connectionFree connectionPrepareRead
      simp only
      split
      · simp [halive]
      · rw [Bool.not_eq_true]
        exact halive

theorem Client.Inv.sound (h : s.Inv fmt) : ClientSound fmt s :=
  ⟨h.written, fun _ _ _ hsplit hpend => h.pending hsplit hpend, fun hact => (h.standing hact).2,
    fun herr _ hen => h.afterError herr hen, fun _ hen => h.exec_faulted hen⟩

/-- **Replies answer their own frames.**  In every run of a client connection, whatever bytes
arrive, whenever errors come and however its requests end, and in the state in which the process
dies, if it does: the replies written are those of the frames read so far, in the order of
the frames, at most one for each, and each with the `log_id` and the `provider` of its own header;
at most one frame is without an answer, the last one, and the connection is not freed before
it has one; after an error nothing is written. -/
theorem client_replies (h : (clientLts fmt).Reachable s) : ClientSound fmt s :=
  (Client.Inv.of_reachable h).sound

/-- A request of two bytes and its reply of one. -/
theorem client_replies_witness :
    ∃ s, (clientLts nsheadLayout).Reachable s ∧ s.conn.written = [⟨0, [], [7]⟩]
      ∧ ClientSound nsheadLayout s := by
  have h0 : (clientLts nsheadLayout).Reachable Client.accepted := .init rfl
  have hen : Client.accepted.Enabled (.arrive frameOfTwo.bytes) := ⟨rfl, rfl, rfl, by decide⟩
  have hen' : (Client.accepted.exec nsheadLayout (.arrive frameOfTwo.bytes)).Enabled
      (.finish (some [7])) := by
    show (Client.accepted.exec nsheadLayout (.arrive frameOfTwo.bytes)).conn.faulted = false
      ∧ (Client.accepted.exec nsheadLayout (.arrive frameOfTwo.bytes)).active = true
    decide
  have h2 := (h0.step ⟨hen, rfl⟩).step ⟨hen', rfl⟩
  exact ⟨_, h2, by decide, client_replies h2⟩

end RedisAgent
