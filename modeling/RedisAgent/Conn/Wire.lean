/-
  RedisAgent.Conn.Wire — `nshead_conn_write` against `nshead_conn_read`.

  How a header is laid out is a parameter, as in Conn.Nshead: `NsheadWriter` says that
  what is stored in a field is read back from it.  `nsheadLayoutWriter` is the layout of the
  machine the proxy runs on.

  Main result: `nshead_write_read` — the reader takes exactly the bytes of one reply
  and is left with what the writer had.
-/
import RedisAgent.Conn.Replies

namespace RedisAgent

variable {fmt : NsheadFormat}

/-! ## §1. Writing, and reading it back. -/

/-- How nshead.h lays a header out: what is stored in it is read back.  A `provider` is a C
string that fits its field. -/
structure NsheadWriter (fmt : NsheadFormat) where
  head : UInt32 → List UInt8 → UInt32 → List UInt8
  length : ∀ logId provider bodyLen, (head logId provider bodyLen).length = 36
  magic : ∀ logId provider bodyLen, fmt.magicNum (head logId provider bodyLen) = fmt.magicnum
  bodyLen : ∀ logId provider bodyLen, fmt.bodyLen (head logId provider bodyLen) = bodyLen
  logId : ∀ logId provider bodyLen, fmt.logId (head logId provider bodyLen) = logId
  provider : ∀ logId provider bodyLen, provider.length ≤ 15 → (0 : UInt8) ∉ provider →
    fmt.provider (head logId provider bodyLen) = provider

/-- `nshead_conn_write`: the bytes of a reply. -/
def Reply.bytes (w : NsheadWriter fmt) (r : Reply) : List UInt8 :=
  w.head r.logId (r.provider.take 15) (.ofNat r.body.length) ++ r.body

/-- The frame that a reply is. -/
def Reply.frame (w : NsheadWriter fmt) (r : Reply) (hsmall : r.body.length * 10 < 2 ^ 31) :
    Frame fmt where
  head := w.head r.logId (r.provider.take 15) (.ofNat r.body.length)
  body := r.body
  headLen := w.length _ _ _
  magic := w.magic _ _ _
  bodyLen := by
    rw [w.bodyLen, UInt32.toNat_ofNat']
    exact Nat.mod_eq_of_lt (by omega)
  small := hsmall

/-- **`nshead_conn_read` reads what `nshead_conn_write` writes.**  A reader in front of a header,
whose buffer is no longer than the body, takes exactly the bytes of the reply off its input,
whatever follows them, and is left with the body, its length, the `log_id` and the
`provider` of the writer. -/
theorem nshead_write_read (w : NsheadWriter fmt) {r : Reply}
    (hsmall : r.body.length * 10 < 2 ^ 31) (hprov : r.provider.length ≤ 15)
    (hstr : (0 : UInt8) ∉ r.provider) {c : Connection} {cap : Nat} {rest : List UInt8}
    (hstate : c.state = .head) (hexp : c.expectedInputLen = 36) (hbuf : Buffer c cap)
    (hcap : cap ≤ r.body.length) (herr : c.hasError = false)
    (hin : c.input = r.bytes w ++ rest) :
    ∃ c', nsheadConnRead fmt c = (1, c') ∧ c'.input = rest ∧ c'.readbuf = some r.body
      ∧ c'.readbufSize = r.body.length ∧ c'.logId = r.logId ∧ c'.provider = r.provider
      ∧ c'.state = .processing := by
  have htake : r.provider.take 15 = r.provider := List.take_of_length_le hprov
  have hin' : c.input = (r.frame w hsmall).head ++ (r.body ++ rest) := by
    rw [hin]
    exact List.append_assoc _ _ _
  have hlen36 : 36 ≤ c.input.length := by
    rw [hin', List.length_append, (r.frame w hsmall).headLen]
    omega
  have hhead : c.input.take 36 = (r.frame w hsmall).head := by
    rw [hin', ← (r.frame w hsmall).headLen, List.take_left]
  have hflen : (r.frame w hsmall).len = r.body.length := rfl
  -- the header, and with it the numbers
  obtain ⟨c₁, hread₁, hwaits, hin₁, -⟩ := nsheadReadHead_spec (f := r.frame w hsmall) hin' hbuf herr
  have hlab := (nsheadReadHead_labelled hread₁).1
  rw [hhead] at hlab
  have hlen₁ : (r.frame w hsmall).len ≤ c₁.input.length := by
    rw [hin₁, List.length_append]
    omega
  -- the body
  have hmax : max cap (r.frame w hsmall).len = r.body.length := by
    rw [hflen]
    omega
  obtain ⟨old, hold, hread₂⟩ := nsheadReadBody_spec hwaits (by omega) hlen₁
  rw [hmax] at hread₂ hold
  obtain ⟨-, -, -, hsize⟩ := hwaits.buffer
  have htake₁ : c₁.input.take r.body.length = r.body := by
    rw [hin₁, List.take_left]
  have hdrop₁ : c₁.input.drop r.body.length = rest := by
    rw [hin₁, List.drop_left]
  have hnil : old.drop r.body.length = [] := List.drop_eq_nil_iff.2 hold
  have hloop : nsheadConnRead fmt c = nsheadReadBody c₁ := by
    unfold nsheadConnRead
    rw [nsheadConnReadLoop_head 1 hstate hexp hlen36 hread₁]
    exact nsheadConnReadLoop_body 0 hwaits hlen₁
  refine ⟨_, hloop.trans hread₂, hdrop₁, ?_, ?_, ?_, ?_, rfl⟩
  · show some (c₁.input.take r.body.length
      ++ old.drop (c₁.input.take r.body.length).length) = some r.body
    rw [htake₁, hnil, List.append_nil]
  · show c₁.readbufSize = r.body.length
    rw [hsize, hmax]
  · show c₁.logId = r.logId
    rw [hlab.logId]
    exact w.logId _ _ _
  · show c₁.provider = r.provider
    rw [hlab.provider]
    show (fmt.provider (w.head r.logId (r.provider.take 15) _)).take 15 = r.provider
    rw [htake, w.provider _ _ _ hprov hstr, htake]

/-! ## §2. The bytes of a header. -/

/-- The four bytes of a number, the least significant first. -/
def le4 (n : UInt32) : List UInt8 :=
  [n.toUInt8, (n >>> 8).toUInt8, (n >>> 16).toUInt8, (n >>> 24).toUInt8]

theorem le4_length (n : UInt32) : (le4 n).length = 4 := rfl

theorem leNat_le4 (n : UInt32) : leNat (le4 n) = n.toNat := by
  have hlt : n.toNat < 4294967296 := n.toNat_lt
  show (n.toUInt8).toNat + 256 * ((n >>> 8).toUInt8.toNat + 256 * ((n >>> 16).toUInt8.toNat
    + 256 * ((n >>> 24).toUInt8.toNat + 256 * 0))) = n.toNat
  simp only [UInt32.toNat_toUInt8, UInt32.toNat_shiftRight, Nat.shiftRight_eq_div_pow]
  show n.toNat % 256 + 256 * (n.toNat / 256 % 256 + 256 * (n.toNat / 65536 % 256
    + 256 * (n.toNat / 16777216 % 256 + 256 * 0))) = n.toNat
  omega

theorem ofNat_leNat_le4 (n : UInt32) : UInt32.ofNat (leNat (le4 n)) = n := by
  rw [leNat_le4]
  exact UInt32.ofNat_toNat

/-- `nshead_t` on the machine the proxy runs on. -/
def nsheadBytes (logId : UInt32) (provider : List UInt8) (bodyLen : UInt32) : List UInt8 :=
  List.replicate 4 0 ++ (le4 logId ++ ((provider ++ List.replicate 16 0).take 16
    ++ (le4 0xfb709394 ++ (List.replicate 4 0 ++ le4 bodyLen))))

theorem providerField_length (provider : List UInt8) :
    ((provider ++ List.replicate 16 0).take 16).length = 16 := by
  rw [List.length_take, List.length_append, List.length_replicate]
  omega

/-- A field at its offset. -/
theorem take_drop_field {α : Type*} {before field after : List α} {i n : Nat}
    (hi : before.length = i) (hn : field.length = n) :
    ((before ++ (field ++ after)).drop i).take n = field := by
  rw [← hi, List.drop_left, ← hn, List.take_left]

/-- The C string in its field. -/
theorem takeWhile_field {provider : List UInt8} (hlen : provider.length ≤ 15)
    (hstr : (0 : UInt8) ∉ provider) :
    ((provider ++ List.replicate 16 0).take 16).takeWhile (· ≠ 0) = provider := by
  obtain ⟨k, hk⟩ := Nat.exists_eq_add_of_le hlen
  have hfield : (provider ++ List.replicate 16 (0 : UInt8)).take 16
      = provider ++ 0 :: List.replicate k 0 := by
    rw [List.take_append, List.take_of_length_le (by omega), List.take_replicate]
    have hmin : min (16 - provider.length) 16 = k + 1 := by omega
    rw [hmin]
    rfl
  rw [hfield, List.takeWhile_append_of_pos]
  · rw [List.takeWhile_cons_of_neg (by simp), List.append_nil]
  · intro b hb
    simp only [decide_eq_true_eq]
    rintro rfl
    exact hstr hb

/-- The layout of `nshead_t`, written. -/
def nsheadLayoutWriter : NsheadWriter nsheadLayout where
  head := nsheadBytes
  length logId provider bodyLen := by
    unfold nsheadBytes
    rw [List.length_append, List.length_append, List.length_append, providerField_length]
    rfl
  magic logId provider bodyLen := by
    have hoff : (List.replicate 4 (0 : UInt8) ++ (le4 logId
        ++ (provider ++ List.replicate 16 0).take 16)).length = 24 := by
      rw [List.length_append, List.length_append, providerField_length]
      rfl
    show UInt32.ofNat (leNat (((nsheadBytes logId provider bodyLen).drop 24).take 4)) = 0xfb709394
    have hsplit : nsheadBytes logId provider bodyLen
        = (List.replicate 4 0 ++ (le4 logId ++ (provider ++ List.replicate 16 0).take 16))
          ++ (le4 0xfb709394 ++ (List.replicate 4 0 ++ le4 bodyLen)) := by
      unfold nsheadBytes
      simp only [List.append_assoc]
    rw [hsplit, take_drop_field hoff (le4_length _), ofNat_leNat_le4]
  bodyLen logId provider bodyLen := by
    have hoff : (List.replicate 4 (0 : UInt8) ++ (le4 logId
        ++ ((provider ++ List.replicate 16 0).take 16
          ++ (le4 0xfb709394 ++ List.replicate 4 0)))).length = 32 := by
      rw [List.length_append, List.length_append, List.length_append, providerField_length]
      rfl
    show UInt32.ofNat (leNat (((nsheadBytes logId provider bodyLen).drop 32).take 4)) = bodyLen
    have hsplit : nsheadBytes logId provider bodyLen
        = (List.replicate 4 0 ++ (le4 logId ++ ((provider ++ List.replicate 16 0).take 16
          ++ (le4 0xfb709394 ++ List.replicate 4 0)))) ++ (le4 bodyLen ++ []) := by
      unfold nsheadBytes
      simp only [List.append_assoc, List.append_nil]
    rw [hsplit, take_drop_field hoff (le4_length _), ofNat_leNat_le4]
  logId logId provider bodyLen := by
    have hoff : (List.replicate 4 (0 : UInt8)).length = 4 := rfl
    show UInt32.ofNat (leNat (((nsheadBytes logId provider bodyLen).drop 4).take 4)) = logId
    unfold nsheadBytes
    rw [take_drop_field hoff (le4_length _), ofNat_leNat_le4]
  provider logId provider bodyLen hlen hstr := by
    have hoff : (List.replicate 4 (0 : UInt8) ++ le4 logId).length = 8 := rfl
    show (((nsheadBytes logId provider bodyLen).drop 8).take 16).takeWhile (· ≠ 0) = provider
    have hsplit : nsheadBytes logId provider bodyLen
        = (List.replicate 4 0 ++ le4 logId) ++ ((provider ++ List.replicate 16 0).take 16
          ++ (le4 0xfb709394 ++ (List.replicate 4 0 ++ le4 bodyLen))) := by
      unfold nsheadBytes
      simp only [List.append_assoc]
    rw [hsplit, take_drop_field hoff (providerField_length provider), takeWhile_field hlen hstr]

/-- A reply of two bytes to the provider "ab", with more bytes behind it. -/
theorem nshead_write_read_witness :
    ∃ c', nsheadConnRead nsheadLayout { connectionAccept with
        input := (⟨7, [97, 98], [5, 6]⟩ : Reply).bytes nsheadLayoutWriter ++ [9] } = (1, c')
      ∧ c'.input = [9] ∧ c'.readbuf = some [5, 6] ∧ c'.readbufSize = 2 ∧ c'.logId = 7
      ∧ c'.provider = [97, 98] ∧ c'.state = .processing :=
  nshead_write_read nsheadLayoutWriter (r := ⟨7, [97, 98], [5, 6]⟩) (by decide) (by decide)
    (by decide) (c := { connectionAccept with
      input := (⟨7, [97, 98], [5, 6]⟩ : Reply).bytes nsheadLayoutWriter ++ [9] })
    rfl rfl (Or.inl ⟨rfl, rfl, rfl⟩) (Nat.zero_le 2) rfl rfl

end RedisAgent
