import Ykhsmauth.Apdu

/-!
# Decoding what `add_tag` writes

The applet reads the data area of a command as a run of BER-TLV records.
`decodeRecords` is that reading, as the spec's `decode_records` describes it:
a one-byte tag, a definite length in one, two or three bytes, and that many
bytes of value, until the input is used up.  It fails when a length runs past the
input, so a successful decode has consumed every byte.

`decodeRecords_fieldsBytes` is the round trip: the bytes of any run of fields
that fit the `uint16_t` lengths decode to the fields' tags and padded values.
`addTags_encodes` joins it to the frame lemmas of `Ykhsmauth.Apdu`: after any
run of `add_tag` calls that fits in the 255-byte data area, the bytes below
`lc` are the fields' encodings and decode back to the fields.
-/

namespace Ykhsmauth

/-! ## The decoder -/

/-- Read a BER definite length in its short form or in the two long forms
`0x81 n` and `0x82 hi lo`, and return it with the bytes after it. -/
def decodeLen : List UInt8 → Option (Nat × List UInt8)
  | [] => none
  | b :: rest =>
    if b.toNat ≤ 0x7f then some (b.toNat, rest)
    else if b = 0x81 then
      match rest with
      | n :: rest => some (n.toNat, rest)
      | [] => none
    else if b = 0x82 then
      match rest with
      | hi :: lo :: rest => some (hi.toNat * 256 + lo.toNat, rest)
      | _ => none
    else none

/-- A length always takes at least one byte. -/
theorem decodeLen_rest_length {bytes rest : List UInt8} {n : Nat}
    (h : decodeLen bytes = some (n, rest)) : rest.length < bytes.length := by
  cases bytes with
  | nil => cases h
  | cons b tail =>
    simp only [decodeLen] at h
    split_ifs at h
    · cases h; simp
    all_goals split at h <;> cases h
    all_goals simp only [List.length_cons]; omega

/-- The records of a byte string as the spec's `decode_records` reads them:
each a one-byte tag, a definite length and its value.  This is the spec's
decoder, not the X.690 one: a tag byte whose low five bits are all set is
not read as the start of a multi-byte tag.  Every tag `ykhsmauth.c` writes is
one byte. -/
def decodeRecords (bytes : List UInt8) : Option (List (UInt8 × List UInt8)) :=
  match bytes with
  | [] => some []
  | tag :: rest =>
    match h : decodeLen rest with
    | none => none
    | some (n, body) =>
      if n ≤ body.length then
        (decodeRecords (body.drop n)).map fun records => (tag, body.take n) :: records
      else none
termination_by bytes.length
decreasing_by
  have := decodeLen_rest_length h
  simp only [List.length_drop, List.length_cons]
  omega

/-! ## The round trip -/

/-- The three forms of a length, read one at a time. -/
theorem decodeLen_short (b : UInt8) (rest : List UInt8) (hb : b.toNat ≤ 0x7f) :
    decodeLen (b :: rest) = some (b.toNat, rest) := by
  simp only [decodeLen, if_pos hb]

theorem decodeLen_long1 (n : UInt8) (rest : List UInt8) :
    decodeLen (0x81 :: n :: rest) = some (n.toNat, rest) := by
  simp only [decodeLen, if_neg (show ¬ (0x81 : UInt8).toNat ≤ 0x7f by decide), ↓reduceIte]

theorem decodeLen_long2 (hi lo : UInt8) (rest : List UInt8) :
    decodeLen (0x82 :: hi :: lo :: rest) = some (hi.toNat * 256 + lo.toNat, rest) := by
  simp only [decodeLen, if_neg (show ¬ (0x82 : UInt8).toNat ≤ 0x7f by decide),
    if_neg (show ¬ (0x82 : UInt8) = 0x81 by decide), ↓reduceIte]

/-- `encode_len` of a `uint16_t` reads back as itself. -/
theorem decodeLen_encodeLen (n : Nat) (h : n < 0x10000) (rest : List UInt8) :
    decodeLen (encodeLen n ++ rest) = some (n, rest) := by
  unfold encodeLen
  split_ifs with h1 h2
  · have hhi : (n >>> 8) % 256 = n / 256 := by
      rw [Nat.shiftRight_eq_div_pow]; omega
    rw [List.cons_append, List.cons_append, List.cons_append, List.nil_append, decodeLen_long2,
      toNat_toUInt8, toNat_toUInt8, hhi]
    congr 2
    omega
  · rw [List.cons_append, List.cons_append, List.nil_append, decodeLen_long1, toNat_toUInt8,
      Nat.mod_eq_of_lt (by omega)]
  · rw [List.cons_append, List.nil_append, decodeLen_short _ _ (by rw [toNat_toUInt8]; omega),
      toNat_toUInt8, Nat.mod_eq_of_lt (by omega)]

/-- What the applet reads out of one field: its tag and the value followed by
the padding. -/
def Field.record (f : Field) : UInt8 × List UInt8 :=
  (f.tag, f.value ++ List.replicate f.pad 0)

/-- One field in front of more bytes decodes to its record in front of
theirs. -/
theorem decodeRecords_encode_append (f : Field) (h : f.Small) (rest : List UInt8) :
    decodeRecords (f.encode ++ rest) =
      (decodeRecords rest).map fun records => f.record :: records := by
  have hbody : decodeLen (encodeLen (f.value.length + f.pad) ++
      (f.value ++ List.replicate f.pad 0 ++ rest)) =
      some (f.value.length + f.pad, f.value ++ List.replicate f.pad 0 ++ rest) :=
    decodeLen_encodeLen _ h _
  have hlen : (f.value ++ List.replicate f.pad 0).length = f.value.length + f.pad := by simp
  rw [show f.encode ++ rest = f.tag :: (encodeLen (f.value.length + f.pad) ++
      (f.value ++ List.replicate f.pad 0 ++ rest)) by simp [Field.encode], decodeRecords]
  split
  · simp_all
  · rename_i n body heq
    rw [hbody] at heq
    cases heq
    rw [if_pos (by simp), Field.record, ← hlen, List.take_left, List.drop_left]

/-- The bytes of a run of fields decode to the fields' records. -/
theorem decodeRecords_fieldsBytes (fs : List Field) (h : ∀ f ∈ fs, f.Small) :
    decodeRecords (fieldsBytes fs) = some (fs.map Field.record) := by
  induction fs with
  | nil => simp [decodeRecords]
  | cons f fs ih =>
    rw [fieldsBytes_cons, decodeRecords_encode_append f (h f (List.mem_cons_self f fs)),
      ih fun g hg => h g (List.mem_cons_of_mem f hg)]
    rfl

/-! ## The frame -/

/-- After a run of `add_tag` calls on a frame with `lc = 0`, with the fields
fitting in the 255-byte data area, `lc` is the number of bytes written, the
data below `lc` is the fields' encodings one after the other, and a BER-TLV
decoder reads back exactly the fields' tags and padded values. -/
theorem addTags_encodes (apdu : Apdu) (fs : List Field) (h0 : apdu.lc = 0)
    (hfit : (fieldsBytes fs).length ≤ 0xff) :
    (addTags apdu fs).lc.toNat = (fieldsBytes fs).length ∧
      (addTags apdu fs).data.take (addTags apdu fs).lc.toNat = fieldsBytes fs ∧
      decodeRecords ((addTags apdu fs).data.take (addTags apdu fs).lc.toNat) =
        some (fs.map Field.record) := by
  obtain ⟨hlc, hpayload⟩ := addTags_fit apdu fs h0 hfit
  rw [← Apdu.payload, hpayload]
  exact ⟨hlc, rfl, decodeRecords_fieldsBytes fs (Field.small_of_fit hfit)⟩

/-- A label field with one byte of padding, on a fresh frame. -/
theorem addTags_encodes_padded_label :
    (Apdu.init 0 0 0).lc = 0 ∧ (fieldsBytes [⟨0x71, [0x61], 1⟩]).length ≤ 0xff ∧
      (addTags (Apdu.init 0 0 0) [⟨0x71, [0x61], 1⟩]).lc.toNat =
        (fieldsBytes [⟨0x71, [0x61], 1⟩]).length ∧
      (addTags (Apdu.init 0 0 0) [⟨0x71, [0x61], 1⟩]).data.take
          (addTags (Apdu.init 0 0 0) [⟨0x71, [0x61], 1⟩]).lc.toNat =
        fieldsBytes [⟨0x71, [0x61], 1⟩] ∧
      decodeRecords ((addTags (Apdu.init 0 0 0) [⟨0x71, [0x61], 1⟩]).data.take
          (addTags (Apdu.init 0 0 0) [⟨0x71, [0x61], 1⟩]).lc.toNat) =
        some ([⟨0x71, [0x61], 1⟩].map Field.record) :=
  ⟨rfl, by decide, addTags_encodes _ _ rfl (by decide)⟩

/-- A frame built from `Apdu.init` by `add_tag` calls that fit decodes to the
fields' records. -/
theorem decodeRecords_payload (ins p1 p2 : UInt8) (fs : List Field)
    (hfit : (fieldsBytes fs).length ≤ 0xff) :
    decodeRecords (addTags (Apdu.init ins p1 p2) fs).payload = some (fs.map Field.record) := by
  rw [(addTags_fit _ fs rfl hfit).2]
  exact decodeRecords_fieldsBytes fs (Field.small_of_fit hfit)

end Ykhsmauth
