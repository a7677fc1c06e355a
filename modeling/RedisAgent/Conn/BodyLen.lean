/-
  RedisAgent.Conn.BodyLen — the body length a client announces.

  `nshead_conn_read` keeps the 32-bit `body_len` in an `int`, and sets ten times
  that as the high watermark.

  Main results:
    • `body_len_honoured_iff` — whatever the capacity of the read buffer and however
      the bytes arrive, a length is honoured exactly if it is positive, fits an
      `int`, and its tenfold is still above it modulo 2^32.
-/
import RedisAgent.Conn.Frames

namespace RedisAgent

variable {fmt : NsheadFormat}

/-! ## §1. Arrivals up to the end of one request. -/

/-- One return of `nshead_conn_read`: its value, the connection it leaves, and how
many bytes had been received for the request by then. -/
structure ReadReturn where
  ret : Int
  conn : Connection
  received : Nat

/-- The returns of `nshead_conn_read` as `chunks` arrive, up to the first that is not
0; `received` bytes are there already. -/
def nsheadConnArrivals (fmt : NsheadFormat) :
    Connection → Nat → List (List UInt8) → List ReadReturn
  | _, _, [] => []
  | c, received, bytes :: chunks =>
      let c := { c with input := c.input ++ bytes }
      let received := received + bytes.length
      if c.lowWatermark ≤ c.input.length then
        let (ret, c) := nsheadConnRead fmt c
        ⟨ret, c, received⟩ :: if ret = 0 then nsheadConnArrivals fmt c received chunks else []
      else nsheadConnArrivals fmt c received chunks

/-- A return after the header honours the announced length `len`. -/
structure HonoursLen (len : Nat) (o : ReadReturn) : Prop where
  expected : o.conn.expectedInputLen = len
  buffer : o.conn.readbuf ≠ none ∧ (len : Int) ≤ o.conn.readbufSize
  watermarks : o.conn.highWatermark ≠ 0 ∧ o.conn.lowWatermark ≤ o.conn.highWatermark
  done : 0 < o.ret → 36 + len ≤ o.received

/-- Every return after the header fails the connection or honours the length. -/
def LenHonoured (fmt : NsheadFormat) (len : Nat) (c : Connection) (chunks : List (List UInt8)) :
    Prop :=
  ∀ o ∈ nsheadConnArrivals fmt (nsheadConnPrepareRead c) c.input.length chunks,
    o.conn.state ≠ .head → o.ret < 0 ∨ HonoursLen len o

/-- The lengths that `int` and the high watermark can carry. -/
def CarriedLen (len : Nat) : Prop := 0 < len ∧ len < 2 ^ 31 ∧ len ≤ len * 10 % 2 ^ 32

instance (len : Nat) : Decidable (CarriedLen len) := by
  unfold CarriedLen
  infer_instance

/-! ## §2. The watermarks. -/

/-- **The high watermark** of a length that fits an `int`: a product that turns
negative is a huge `size_t`, one that wraps to a small number is below the length. -/
theorem watermarks_iff {len : Nat} (h : len < 2 ^ 31) :
    (sizeT (((len : Int) * 10).bmod (2 ^ 32)) ≠ 0
        ∧ sizeT len ≤ sizeT (((len : Int) * 10).bmod (2 ^ 32)))
      ↔ 0 < len ∧ len ≤ len * 10 % 2 ^ 32 := by
  have hmod : (len : Int) * 10 % ((2 ^ 32 : Nat) : Int) = ((len * 10 % 2 ^ 32 : Nat) : Int) := by
    omega
  have hlt : len * 10 % 2 ^ 32 < 2 ^ 32 := Nat.mod_lt _ (by decide)
  have hzero : len = 0 → len * 10 % 2 ^ 32 = 0 := by omega
  rw [sizeT_of_small h, Int.bmod_def, hmod]
  generalize len * 10 % 2 ^ 32 = m at hlt hzero ⊢
  unfold sizeT
  split
  · -- the product is what it is modulo 2^32
    have hsize : ((m : Int) % 2 ^ 64).toNat = m := by omega
    rw [hsize]
    omega
  · -- it is negative
    have hsize : 2 ^ 31 ≤ (((m : Int) - ((2 ^ 32 : Nat) : Int)) % 2 ^ 64).toNat := by omega
    omega

/-- An `int` holds an unsigned length only below 2^31. -/
theorem toInt32_eq_iff (u : UInt32) : u.toInt32.toInt = u.toNat ↔ u.toNat < 2 ^ 31 := by
  constructor
  · intro h
    have hle := Int32.toInt_le u.toInt32
    rw [h] at hle
    have hmax : (Int32.maxValue.toInt : Int) = 2 ^ 31 - 1 := rfl
    omega
  · exact toInt32_of_small

/-! ## §3. After the header. -/

/-- The header is read, and `body_len` was `len` as an `int`. -/
structure Announced (len : Int) (received : Nat) (c : Connection) : Prop where
  state : c.state ≠ .head
  expected : c.expectedInputLen = len
  low : c.lowWatermark = sizeT len
  high : c.highWatermark = sizeT ((len * 10).bmod (2 ^ 32))
  buffer : 0 ≤ len → c.readbuf ≠ none
  capacity : len ≤ c.readbufSize
  size : c.readbufSize < 2 ^ 31
  received : received = 36 + c.input.length

/-- What every return after the header says. -/
structure Told (len : Int) (o : ReadReturn) : Prop where
  expected : o.conn.expectedInputLen = len
  low : o.conn.lowWatermark = sizeT len
  high : o.conn.highWatermark = sizeT ((len * 10).bmod (2 ^ 32))
  buffer : 0 ≤ len → o.conn.readbuf ≠ none
  capacity : len ≤ o.conn.readbufSize
  ret : o.ret = 0 ∨ o.ret = 1 ∧ 36 + len ≤ o.received

/-- **Told against announced**: such a return honours `len` exactly if the length is
carried. -/
theorem Told.iff_carried {u : UInt32} {o : ReadReturn} (h : Told u.toInt32.toInt o) :
    (o.ret < 0 ∨ HonoursLen u.toNat o) ↔ CarriedLen u.toNat := by
  constructor
  · rintro (hneg | hon)
    · rcases h.ret with hret | ⟨hret, -⟩
      · omega
      · omega
    · have hsmall := (toInt32_eq_iff u).1 (h.expected.symm.trans hon.expected)
      have hw := hon.watermarks
      rw [h.high, h.low, toInt32_of_small hsmall] at hw
      obtain ⟨hpos, hle⟩ := (watermarks_iff hsmall).1 hw
      exact ⟨hpos, hsmall, hle⟩
  · rintro ⟨hpos, hsmall, hle⟩
    have hint : u.toInt32.toInt = u.toNat := toInt32_of_small hsmall
    refine Or.inr ⟨h.expected.trans hint, ⟨h.buffer (by omega), ?_⟩, ?_, ?_⟩
    · rw [← hint]
      exact h.capacity
    · rw [h.high, h.low, hint]
      exact (watermarks_iff hsmall).2 ⟨hpos, hle⟩
    · intro hret
      rcases h.ret with hzero | ⟨-, hrec⟩
      · omega
      · omega

/-- The body is read once it is complete, by the length as an `int`. -/
theorem Announced.readLoop {len : Int} {received : Nat} {c : Connection}
    (h : Announced len received c) (fmt : NsheadFormat) (n : Nat) :
    (nsheadConnReadLoop fmt (n + 1) c = (0, c))
      ∨ ∃ c', nsheadConnReadLoop fmt (n + 1) c = (1, c') ∧ Told len ⟨1, c', received⟩
        ∧ c'.state ≠ .head := by
  rw [nsheadConnReadLoop]
  split
  · rename_i henough
    refine Or.inr ?_
    have hexp := h.expected
    have hcap := h.capacity
    have hsize := h.size
    have hrec := h.received
    have hlen : len ≤ c.input.length := by
      rw [← hexp]
      exact henough
    -- the buffer holds the body, so what it takes is long enough
    have htaken : ¬ ((c.input.take (sizeT c.readbufSize)).length : Int) < c.expectedInputLen := by
      rw [hexp, List.length_take]
      unfold sizeT
      omega
    unfold nsheadConnReadPass
    rw [if_neg h.state]
    unfold nsheadReadBody eventRead
    simp only [if_neg htaken]
    refine ⟨_, rfl, ⟨hexp, h.low, h.high, ?_, hcap, Or.inr ⟨rfl, ?_⟩⟩, fun hx => (by cases hx)⟩
    · intro hnn hnone
      exact h.buffer hnn (Option.map_eq_none_iff.1 hnone)
    · show 36 + len ≤ (received : Int)
      rw [hrec]
      push_cast
      omega
  · exact Or.inl rfl

/-- A return of `nshead_conn_read` after the header. -/
theorem Announced.read {len : Int} {received : Nat} {c : Connection} {out : Int × Connection}
    (h : Announced len received c) (fmt : NsheadFormat) (n : Nat)
    (hout : nsheadConnReadLoop fmt (n + 1) c = out) :
    Told len ⟨out.1, out.2, received⟩ ∧ out.2.state ≠ .head
      ∧ (out.1 = 0 → Announced len received out.2) := by
  rcases h.readLoop fmt n with hwait | ⟨c', hdone, htold, hstate⟩
  · rw [hwait] at hout
    rw [← hout]
    exact ⟨⟨h.expected, h.low, h.high, h.buffer, h.capacity, Or.inl rfl⟩, h.state, fun _ => h⟩
  · rw [hdone] at hout
    rw [← hout]
    exact ⟨htold, hstate, fun hzero => absurd hzero Int.one_ne_zero⟩

theorem Announced.append {len : Int} {received : Nat} {c : Connection}
    (h : Announced len received c) (bytes : List UInt8) :
    Announced len (received + bytes.length) { c with input := c.input ++ bytes } := by
  refine ⟨h.state, h.expected, h.low, h.high, h.buffer, h.capacity, h.size, ?_⟩
  have hrec := h.received
  show received + bytes.length = 36 + (c.input ++ bytes).length
  rw [List.length_append]
  omega

/-- Every later arrival. -/
theorem Announced.arrivals {len : Int} (chunks : List (List UInt8)) :
    ∀ (received : Nat) (c : Connection), Announced len received c →
      ∀ o ∈ nsheadConnArrivals fmt c received chunks, Told len o := by
  induction chunks with
  | nil =>
      intro received c _ o ho
      cases ho
  | cons bytes chunks ih =>
      intro received c h o ho
      have hnew := h.append bytes
      unfold nsheadConnArrivals at ho
      simp only at ho
      split at ho
      · obtain ⟨htold, -, hzero⟩ := hnew.read fmt 1 rfl
        rcases List.mem_cons.1 ho with rfl | ho
        · exact htold
        · split at ho
          · rename_i hret
            exact ih _ _ (hzero hret) o ho
          · cases ho
      · exact ih _ _ hnew o ho

/-! ## §4. The header. -/

/-- The connection waits for a header. -/
structure AwaitsHead (received : Nat) (c : Connection) : Prop where
  state : c.state = .head
  expected : c.expectedInputLen = 36
  low : c.lowWatermark = 36
  size : c.readbufSize < 2 ^ 31
  received : received = c.input.length

theorem AwaitsHead.append {received : Nat} {c : Connection} (h : AwaitsHead received c)
    (bytes : List UInt8) :
    AwaitsHead (received + bytes.length) { c with input := c.input ++ bytes } := by
  refine ⟨h.state, h.expected, h.low, h.size, ?_⟩
  have hrec := h.received
  show received + bytes.length = (c.input ++ bytes).length
  rw [List.length_append, hrec]

/-- **The header is read**, with the right magic number. -/
theorem AwaitsHead.readHead {received : Nat} {c : Connection} (h : AwaitsHead received c)
    (fmt : NsheadFormat)
    (hlen : 36 ≤ c.input.length) (hmagic : fmt.magicNum (c.input.take 36) = fmt.magicnum) :
    ∃ c', nsheadReadHead fmt c = some c'
      ∧ Announced (fmt.bodyLen (c.input.take 36)).toInt32.toInt received c' := by
  have htake : (c.input.take 36).length = 36 := by
    rw [List.length_take]
    omega
  have hread : eventRead c nsheadSize = (c.input.take 36, { c with input := c.input.drop 36 }) := rfl
  have hgood : ¬ (((c.input.take 36).length : Int) < nsheadSize
      ∨ fmt.magicNum (c.input.take 36) ≠ fmt.magicnum) := by
    rw [htake, hmagic]
    exact not_or.2 ⟨by decide, fun hne => hne rfl⟩
  have hint := Int32.toInt_le (fmt.bodyLen (c.input.take 36)).toInt32
  have hmax : (Int32.maxValue.toInt : Int) = 2 ^ 31 - 1 := rfl
  have hrest : received = 36 + (c.input.drop 36).length := by
    rw [List.length_drop, h.received]
    omega
  have hsize := h.size
  unfold nsheadReadHead
  simp only [hread, if_neg hgood]
  refine ⟨_, rfl, ?_⟩
  unfold ensureReadbuf
  split
  · -- a new buffer, of the announced capacity
    refine ⟨nofun, rfl, rfl, rfl, ?_, Int.le_refl _, ?_, hrest⟩
    · intro hnn
      show mallocBuf _ ≠ none
      unfold mallocBuf
      rw [if_pos hnn]
      exact Option.some_ne_none _
    · show (fmt.bodyLen (c.input.take 36)).toInt32.toInt < 2 ^ 31
      omega
  · -- the old one is large enough
    rename_i hold
    rw [not_or] at hold
    exact ⟨nofun, rfl, rfl, rfl, fun _ => hold.1, Int.not_lt.1 hold.2, hsize, hrest⟩

/-- **Every return of a request** says what `Announced` does, once the header is
there; and the header brings one. -/
theorem AwaitsHead.arrivals (head : List UInt8) (hmagic : fmt.magicNum head = fmt.magicnum)
    (chunks : List (List UInt8)) :
    ∀ (received : Nat) (c : Connection), AwaitsHead received c → chunks ≠ [] →
      36 ≤ (c.input ++ chunks.flatten).length → (c.input ++ chunks.flatten).take 36 = head →
      (∀ o ∈ nsheadConnArrivals fmt c received chunks, Told (fmt.bodyLen head).toInt32.toInt o)
        ∧ ∃ o ∈ nsheadConnArrivals fmt c received chunks, o.conn.state ≠ .head := by
  induction chunks with
  | nil =>
      intro received c _ hne
      exact absurd rfl hne
  | cons bytes chunks ih =>
      intro received c h _ hlen hhead
      have hnew := h.append bytes
      rw [List.flatten_cons, ← List.append_assoc] at hlen hhead
      unfold nsheadConnArrivals
      simp only
      by_cases hlow : 36 ≤ (c.input ++ bytes).length
      · -- the header is complete
        rw [List.take_append_of_le_length hlow] at hhead
        obtain ⟨c', hread, hann⟩ := hnew.readHead fmt hlow (by rw [hhead]; exact hmagic)
        have hpass := @nsheadConnReadLoop_head fmt _ _ 1 hnew.state hnew.expected hlow hread
        rw [if_pos (by rw [h.low]; exact hlow)]
        obtain ⟨htold, hstate, hzero⟩ := hann.read fmt 0 hpass.symm
        rw [hhead] at htold hzero
        refine ⟨?_, _, List.mem_cons_self, hstate⟩
        intro o ho
        rcases List.mem_cons.1 ho with rfl | ho
        · exact htold
        · split at ho
          · rename_i hret
            exact (hzero hret).arrivals chunks _ _ o ho
          · cases ho
      · -- it is not, and this was not the last arrival
        have hmore : chunks ≠ [] := by
          rintro rfl
          rw [List.flatten_nil, List.append_nil] at hlen
          exact hlow hlen
        rw [if_neg (by rw [h.low]; exact hlow)]
        exact ih _ _ hnew hmore hlen hhead

/-! ## §5. Which lengths are honoured. -/

/-- **Announced lengths.**  For every capacity of the read buffer, every input that
is left over and every way the bytes arrive, the length in a header with the right
magic number is honoured exactly if it is carried. -/
theorem body_len_honoured_iff (c : Connection) (chunks : List (List UInt8))
    (hsize : c.readbufSize < 2 ^ 31) (hne : chunks ≠ [])
    (hlen : 36 ≤ (c.input ++ chunks.flatten).length)
    (hmagic : fmt.magicNum ((c.input ++ chunks.flatten).take 36) = fmt.magicnum) :
    LenHonoured fmt (fmt.bodyLen ((c.input ++ chunks.flatten).take 36)).toNat c chunks
      ↔ CarriedLen (fmt.bodyLen ((c.input ++ chunks.flatten).take 36)).toNat := by
  have hhead : AwaitsHead c.input.length (nsheadConnPrepareRead c) :=
    ⟨rfl, rfl, rfl, hsize, rfl⟩
  obtain ⟨htold, o, ho, hstate⟩ := AwaitsHead.arrivals _ hmagic chunks _ _ hhead hne hlen rfl
  constructor
  · intro hhon
    exact (htold o ho).iff_carried.1 (hhon o ho hstate)
  · intro hcar o' ho' _
    exact (htold o' ho').iff_carried.2 hcar

/-- A header that announces a body of 2^31 bytes. -/
def hugeHead : List UInt8 :=
  List.replicate 24 0 ++ [0x94, 0x93, 0x70, 0xfb, 0, 0, 0, 0, 0, 0, 0, 0x80]

/-- The header alone is a whole request: the length is negative as an `int`. -/
theorem body_len_not_honoured :
    ¬ ∀ (c : Connection) (chunks : List (List UInt8)), c.readbufSize < 2 ^ 31 → chunks ≠ [] →
      36 ≤ (c.input ++ chunks.flatten).length →
      nsheadLayout.magicNum ((c.input ++ chunks.flatten).take 36) = nsheadLayout.magicnum →
        LenHonoured nsheadLayout
          (nsheadLayout.bodyLen ((c.input ++ chunks.flatten).take 36)).toNat c chunks := by
  intro hall
  have hhon := hall connectionAccept [hugeHead] (by decide) (by decide) (by decide) (by decide)
    _ (List.mem_cons_self ..) (by decide)
  rcases hhon with hneg | hhon
  · exact absurd hneg (by decide)
  · exact absurd hhon.expected (by decide)

/-- A header that announces a body of two bytes, in two pieces. -/
theorem body_len_honoured_iff_witness :
    LenHonoured nsheadLayout 2 connectionAccept [(shortHead 2).take 10, (shortHead 2).drop 10]
      ↔ CarriedLen 2 :=
  @body_len_honoured_iff nsheadLayout connectionAccept
    [(shortHead 2).take 10, (shortHead 2).drop 10] (by decide) (by decide) (by decide) (by decide)

end RedisAgent
