import Ykhsmauth.Commands

/-!
# The frames the commands send

Every command builds its frame by `add_tag` calls into the 255-byte data
area and never checks that the fields fit; its argument checks are all that
bounds them.  This module measures the frame of each command over every
argument tuple its checks accept.

* `ykhsmauthPut_sends`, `ykhsmauthDelete_sends` and `getLabelData_sends`:
  these frames are at most 144, 84 and 66 bytes of fields, so what goes out
  is the header, `lc` equal to the byte count, and the fields' encodings;
  `decodeRecords_unpadded` reads the fields of the last two back.
* `ykhsmauthPutMgmkey_sends`: the frame of `ykhsmauth_put_mgmkey` byte for
  byte, two `MGMKEY` fields of 18 bytes each under `lc` 36.
* `ykhsmauthCalculate_frame_overflow`: the checks of `ykhsmauth_calculate`
  admit 302 bytes of fields.  `lc` wraps to 46, the later fields are written
  over the earlier ones, and the public key runs past the data area.
* `ykhsmauthCalculate_sends`: over every argument tuple the checks of
  `ykhsmauth_calculate` accept, at most 302 bytes of fields, and a frame
  that carries them exactly when they fit; `addTags_raw_length` says that
  the frame is shorter otherwise.
* `ykhsmauthPut_fields`: the frame of `ykhsmauth_put` decodes to its fields
  in order.  `putKeyFields_flatten` says when the key fields carry the whole
  key, and `ykhsmauthPut_drops_key_byte` shows the odd AES-128 key that
  loses its last byte.
-/

namespace Ykhsmauth

/-- A field whose value and padding take at most `0x7f` bytes has a one-byte
length. -/
theorem Field.encode_length_short (f : Field) (h : f.value.length + f.pad ≤ 0x7f) :
    f.encode.length = 2 + f.value.length + f.pad := by
  rw [Field.encode_length, encodeLen_length, if_neg (by omega), if_neg (by omega)]

/-- Fields without padding that fit the data area decode to their tags and
values. -/
theorem decodeRecords_unpadded (fs : List Field) (hfit : (fieldsBytes fs).length ≤ 0xff)
    (hpad : ∀ f ∈ fs, f.pad = 0) :
    decodeRecords (fieldsBytes fs) = some (fs.map fun f => (f.tag, f.value)) := by
  rw [decodeRecords_fieldsBytes fs (Field.small_of_fit hfit), Option.some.injEq, List.map_inj_left]
  intro f hf
  simp [Field.record, hpad f hf]

/-! ## Frames that fit -/

section Fit

variable (h : Header) (st : YkhsmauthState) (retries : Option UInt8)

/-- The key fields take at most 36 bytes for a key the checks accept. -/
theorem putKeyFields_length (algo : UInt8) (key : List UInt8) (hk : key.length ≤ 32) :
    (fieldsBytes (putKeyFields h algo key)).length ≤ 36 := by
  unfold putKeyFields
  split_ifs <;>
  simp (disch := simp only [List.length_take, List.length_drop]; omega) only [fieldsBytes_cons,
    fieldsBytes_nil, List.length_append, Field.encode_length_short, List.length_take,
    List.length_drop, List.length_nil] <;> omega

/-- All the fields of `ykhsmauth_put` take at most 144 bytes. -/
theorem putFields_length (mgmkey label : List UInt8) (algo : UInt8) (key cpw : List UInt8)
    (touchPolicy : UInt8) (hok : PutArgsOk mgmkey label key cpw) :
    (fieldsBytes (putFields h mgmkey label algo key cpw touchPolicy)).length ≤ 144 := by
  obtain ⟨hm, ⟨-, hl⟩, hk, hc⟩ := hok
  simp only [YKHSMAUTH_PW_LEN, YKHSMAUTH_MAX_LABEL_LEN, YKHSMAUTH_YUBICO_ECP256_PRIVKEY_LEN]
    at hm hl hk hc
  have := putKeyFields_length h algo key hk
  simp (disch := simp only [List.length_singleton, YKHSMAUTH_PW_LEN]; omega) only [putFields,
    fieldsBytes_append, fieldsBytes_cons, fieldsBytes_nil, List.length_append,
    Field.encode_length_short, List.length_singleton, List.length_nil, YKHSMAUTH_PW_LEN]
  omega

/-- The frame of `ykhsmauth_put` for every argument tuple its checks accept:
at most 144 bytes of fields, all of them sent. -/
theorem ykhsmauthPut_sends (mgmkey label : List UInt8) (algo : UInt8) (key cpw : List UInt8)
    (touchPolicy : UInt8) (hok : PutArgsOk mgmkey label key cpw) :
    (fieldsBytes (putFields h mgmkey label algo key cpw touchPolicy)).length ≤ 144 ∧
      ∃ next, ykhsmauthPut h (some st) (some mgmkey) (some label) algo (some key) (some cpw)
          touchPolicy retries =
        .transmit ([0, h.YKHSMAUTH_INS_PUT, 0, 0,
          (fieldsBytes (putFields h mgmkey label algo key cpw touchPolicy)).length.toUInt8] ++
          fieldsBytes (putFields h mgmkey label algo key cpw touchPolicy)) 256 next := by
  have hlen := putFields_length h mgmkey label algo key cpw touchPolicy hok
  refine ⟨hlen, ?_⟩
  simp only [ykhsmauthPut, if_pos hok]
  rw [sendCommand, addTags_raw _ _ _ _ (by omega)]
  exact ⟨_, rfl⟩

/-- A one-byte label and an empty key under the default header. -/
theorem ykhsmauthPut_sends_empty_key :
    PutArgsOk (List.replicate 16 0) [0x61] [] [] ∧
      (fieldsBytes (putFields default (List.replicate 16 0) [0x61] 0 [] [] 0)).length ≤ 144 ∧
      ∃ next, ykhsmauthPut default (some ⟨0, 0, 0⟩) (some (List.replicate 16 0)) (some [0x61]) 0
          (some []) (some []) 0 none =
        .transmit ([0, (default : Header).YKHSMAUTH_INS_PUT, 0, 0,
          (fieldsBytes (putFields default (List.replicate 16 0) [0x61] 0 [] [] 0)).length.toUInt8] ++
          fieldsBytes (putFields default (List.replicate 16 0) [0x61] 0 [] [] 0)) 256 next :=
  ⟨by decide, ykhsmauthPut_sends default ⟨0, 0, 0⟩ none _ _ _ _ _ _ (by decide)⟩

/-- The frame of `ykhsmauth_delete`: at most 84 bytes of fields, the
management key and then the label, all sent. -/
theorem ykhsmauthDelete_sends (mgmkey label : List UInt8) (hok : DeleteArgsOk mgmkey label) :
    (fieldsBytes (deleteFields h mgmkey label)).length ≤ 84 ∧
      decodeRecords (fieldsBytes (deleteFields h mgmkey label)) =
        some [(h.YKHSMAUTH_TAG_MGMKEY, mgmkey), (h.YKHSMAUTH_TAG_LABEL, label)] ∧
      ∃ next, ykhsmauthDelete h (some st) (some mgmkey) (some label) retries =
        .transmit ([0, h.YKHSMAUTH_INS_DELETE, 0, 0,
          (fieldsBytes (deleteFields h mgmkey label)).length.toUInt8] ++
          fieldsBytes (deleteFields h mgmkey label)) 256 next := by
  have hlen : (fieldsBytes (deleteFields h mgmkey label)).length ≤ 84 := by
    have hm := hok.1
    have hl := hok.2.2
    simp only [YKHSMAUTH_PW_LEN, YKHSMAUTH_MAX_LABEL_LEN] at hm hl
    simp (disch := simp only; omega) only [deleteFields, fieldsBytes_cons, fieldsBytes_nil,
      List.length_append, Field.encode_length_short, List.length_nil]
    omega
  refine ⟨hlen, decodeRecords_unpadded _ (by omega) (by simp [deleteFields]), ?_⟩
  simp only [ykhsmauthDelete, if_pos hok]
  rw [sendCommand, addTags_raw _ _ _ _ (by omega)]
  exact ⟨_, rfl⟩

/-- A one-byte label under the default header. -/
theorem ykhsmauthDelete_sends_label :
    DeleteArgsOk (List.replicate 16 0) [0x61] ∧
      (fieldsBytes (deleteFields default (List.replicate 16 0) [0x61])).length ≤ 84 ∧
      decodeRecords (fieldsBytes (deleteFields default (List.replicate 16 0) [0x61])) =
        some [((default : Header).YKHSMAUTH_TAG_MGMKEY, List.replicate 16 0),
          ((default : Header).YKHSMAUTH_TAG_LABEL, [0x61])] ∧
      ∃ next, ykhsmauthDelete default (some ⟨0, 0, 0⟩) (some (List.replicate 16 0)) (some [0x61])
          none =
        .transmit ([0, (default : Header).YKHSMAUTH_INS_DELETE, 0, 0,
          (fieldsBytes (deleteFields default (List.replicate 16 0) [0x61])).length.toUInt8] ++
          fieldsBytes (deleteFields default (List.replicate 16 0) [0x61])) 256 next :=
  ⟨by decide, ykhsmauthDelete_sends default ⟨0, 0, 0⟩ none _ _ (by decide)⟩

/-- The frame of `ykhsmauth_get_challenge` and `ykhsmauth_get_pubkey`: the
label, at most 66 bytes of fields, all sent. -/
theorem getLabelData_sends (ins : UInt8) (label buf : List UInt8) (len : Nat)
    (hok : GetLabelDataArgsOk label len) :
    (fieldsBytes (labelFields h label)).length ≤ 66 ∧
      decodeRecords (fieldsBytes (labelFields h label)) = some [(h.YKHSMAUTH_TAG_LABEL, label)] ∧
      ∃ next, getLabelData h ins (some st) (some label) (some buf) (some len) =
        .transmit ([0, ins, 0, 0, (fieldsBytes (labelFields h label)).length.toUInt8] ++
          fieldsBytes (labelFields h label)) 256 next := by
  have hlen : (fieldsBytes (labelFields h label)).length ≤ 66 := by
    have hl := hok.1.2
    simp only [YKHSMAUTH_MAX_LABEL_LEN] at hl
    simp (disch := simp only; omega) only [labelFields, fieldsBytes_cons, fieldsBytes_nil,
      List.length_append, Field.encode_length_short, List.length_nil]
    omega
  refine ⟨hlen, decodeRecords_unpadded _ (by omega) (by simp [labelFields]), ?_⟩
  simp only [getLabelData, if_pos hok]
  rw [sendCommand, addTags_raw _ _ _ _ (by omega)]
  exact ⟨_, rfl⟩

/-- A one-byte label and a 65-byte buffer under the default header. -/
theorem getLabelData_sends_label :
    GetLabelDataArgsOk [0x61] 65 ∧ (fieldsBytes (labelFields default [0x61])).length ≤ 66 ∧
      decodeRecords (fieldsBytes (labelFields default [0x61])) =
        some [((default : Header).YKHSMAUTH_TAG_LABEL, [0x61])] ∧
      ∃ next, getLabelData default 0 (some ⟨0, 0, 0⟩) (some [0x61]) (some []) (some 65) =
        .transmit ([0, 0, 0, 0, (fieldsBytes (labelFields default [0x61])).length.toUInt8] ++
          fieldsBytes (labelFields default [0x61])) 256 next :=
  ⟨by decide, getLabelData_sends default ⟨0, 0, 0⟩ 0 _ _ _ (by decide)⟩

end Fit

/-! ## The frame of `ykhsmauth_calculate` -/

/-- The checks of `ykhsmauth_calculate` admit a 64-byte label, a 130-byte
context, a 65-byte card public key, a 16-byte cryptogram and the padded
password in one call: 302 bytes of fields for the 255-byte data area.  `lc`
wraps to 46, and the command sends the frame with that `lc`. -/
theorem ykhsmauthCalculate_frame_overflow (h : Header) (st : YkhsmauthState) :
    let label := List.replicate 64 (0x61 : UInt8)
    let context := List.replicate 130 (0 : UInt8)
    let cardPubkey := OptBuf.of (List.replicate 65 0x04)
    let cardCrypto := OptBuf.of (List.replicate 16 0)
    let pw := List.replicate 16 (0 : UInt8)
    let apdu := addTags (Apdu.init h.YKHSMAUTH_INS_CALCULATE 0 0)
      (calculateFields h label context cardPubkey cardCrypto pw)
    CalculateArgsOk label context cardPubkey cardCrypto pw pw pw pw ∧
      (fieldsBytes (calculateFields h label context cardPubkey cardCrypto pw)).length = 302 ∧
      apdu.lc.toNat = 46 ∧
      ∃ next, ykhsmauthCalculate h (some st) (some label) (some context) cardPubkey cardCrypto
          (some pw) (some pw) (some pw) (some pw) none = .transmit apdu.raw 256 next := by
  intro label context cardPubkey cardCrypto pw apdu
  have hok : CalculateArgsOk label context cardPubkey cardCrypto pw pw pw pw := by
    simp [label, context, cardPubkey, cardCrypto, pw, CalculateArgsOk, LabelOk, OptBuf.of,
      YKHSMAUTH_MIN_LABEL_LEN, YKHSMAUTH_MAX_LABEL_LEN, YKHSMAUTH_YUBICO_ECP256_PUBKEY_LEN,
      YKHSMAUTH_SESSION_KEY_LEN, YKHSMAUTH_PW_LEN]
  have hlen : (fieldsBytes (calculateFields h label context cardPubkey cardCrypto pw)).length =
      302 := by
    simp [label, context, cardPubkey, cardCrypto, pw, calculateFields, pubkeyFields,
      responseFields, OptBuf.of, Field.encode_length, encodeLen_length, YKHSMAUTH_CARD_CRYPTO_LEN,
      YKHSMAUTH_PW_LEN]
  refine ⟨hok, hlen, ?_, ?_⟩
  · rw [addTags_lc _ _ (Field.small_of_le (by omega)), hlen, Apdu.init_lc]
    rfl
  · simp only [ykhsmauthCalculate, if_pos hok]
    exact ⟨_, rfl⟩

/-- A single field of at most `n ≤ 0x7f` bytes and no padding takes at most
`n + 2` bytes. -/
theorem fieldsBytes_single_le (tag : UInt8) (v : List UInt8) {n : Nat} (hv : v.length ≤ n)
    (hn : n ≤ 0x7f) : (fieldsBytes [⟨tag, v, 0⟩]).length ≤ n + 2 := by
  have := Field.encode_length_short ⟨tag, v, 0⟩ (by dsimp only; omega)
  simp only [fieldsBytes_cons, fieldsBytes_nil, List.append_nil] at this ⊢
  omega

/-- The card's public key takes at most 67 bytes when the checks accept its
length. -/
theorem pubkeyFields_length (h : Header) (cardPubkey : OptBuf)
    (hp : cardPubkey.len ≤ YKHSMAUTH_YUBICO_ECP256_PUBKEY_LEN) :
    (fieldsBytes (pubkeyFields h cardPubkey)).length ≤ 67 := by
  unfold pubkeyFields
  split
  · rename_i pk hpk
    split_ifs
    · exact fieldsBytes_single_le _ pk ((cardPubkey.ptr_len pk hpk).trans_le hp) (by decide)
    · exact Nat.zero_le _
  · exact Nat.zero_le _

/-- The card cryptogram takes at most 18 bytes when the checks accept its
length. -/
theorem responseFields_length (h : Header) (cardCrypto : OptBuf)
    (hc : cardCrypto.len ≤ YKHSMAUTH_SESSION_KEY_LEN) :
    (fieldsBytes (responseFields h cardCrypto)).length ≤ 18 := by
  unfold responseFields
  split
  · rename_i cc hcc
    split_ifs
    · exact fieldsBytes_single_le _ cc ((cardCrypto.ptr_len cc hcc).trans_le hc) (by decide)
    · exact Nat.zero_le _
  · exact Nat.zero_le _

/-- All the fields of `ykhsmauth_calculate` take at most 302 bytes: a 64-byte
label, a 130-byte context with a two-byte length, a 65-byte public key, a
16-byte cryptogram and the padded password. -/
theorem calculateFields_length (h : Header) (label context : List UInt8)
    (cardPubkey cardCrypto : OptBuf) (pw keySEnc keySMac keySRmac : List UInt8)
    (hok : CalculateArgsOk label context cardPubkey cardCrypto pw keySEnc keySMac keySRmac) :
    (fieldsBytes (calculateFields h label context cardPubkey cardCrypto pw)).length ≤ 302 := by
  obtain ⟨⟨-, hl⟩, hc, hp, hr, hpw, -⟩ := hok
  have hpk := pubkeyFields_length h cardPubkey hp
  have hrs := responseFields_length h cardCrypto hr
  simp only [YKHSMAUTH_MAX_LABEL_LEN, YKHSMAUTH_YUBICO_ECP256_PUBKEY_LEN, YKHSMAUTH_PW_LEN] at hl hc hpw
  have hlabel := Field.encode_length_short ⟨h.YKHSMAUTH_TAG_LABEL, label, 0⟩ (by dsimp only; omega)
  have hcontext := Field.encode_length ⟨h.YKHSMAUTH_TAG_CONTEXT, context, 0⟩
  have hpwLen : YKHSMAUTH_PW_LEN = 16 := rfl
  have hpad := Field.encode_length_short ⟨h.YKHSMAUTH_TAG_PW, pw, YKHSMAUTH_PW_LEN - pw.length⟩
    (by dsimp only; omega)
  have henc := encodeLen_length_le (context.length + 0) (by omega)
  dsimp only at hlabel hcontext hpad
  simp only [calculateFields, fieldsBytes_append, fieldsBytes_cons, fieldsBytes_nil,
    List.length_append, List.length_nil]
  omega

/-- Over every argument tuple its checks accept, `ykhsmauth_calculate` has at
most 302 bytes of fields, and its frame carries their count modulo 256: the
frame is the header, `lc` equal to the count, and the fields' encodings
exactly when they fit the 255-byte data area, and is shorter otherwise. -/
theorem ykhsmauthCalculate_sends (h : Header) (st : YkhsmauthState) (label context : List UInt8)
    (cardPubkey cardCrypto : OptBuf) (pw keySEnc keySMac keySRmac : List UInt8)
    (retries : Option UInt8)
    (hok : CalculateArgsOk label context cardPubkey cardCrypto pw keySEnc keySMac keySRmac) :
    (fieldsBytes (calculateFields h label context cardPubkey cardCrypto pw)).length ≤ 302 ∧
    ∃ frame next, ykhsmauthCalculate h (some st) (some label) (some context) cardPubkey
        cardCrypto (some pw) (some keySEnc) (some keySMac) (some keySRmac) retries =
        .transmit frame 256 next ∧
      frame.length =
        5 + (fieldsBytes (calculateFields h label context cardPubkey cardCrypto pw)).length % 256 ∧
      (frame = [0, h.YKHSMAUTH_INS_CALCULATE, 0, 0,
          (fieldsBytes (calculateFields h label context cardPubkey cardCrypto pw)).length.toUInt8] ++
          fieldsBytes (calculateFields h label context cardPubkey cardCrypto pw) ↔
        (fieldsBytes (calculateFields h label context cardPubkey cardCrypto pw)).length ≤ 0xff) := by
  have hlen := calculateFields_length h label context cardPubkey cardCrypto pw keySEnc keySMac
    keySRmac hok
  have hsmall : ∀ f ∈ calculateFields h label context cardPubkey cardCrypto pw, f.Small :=
    Field.small_of_le (by omega)
  have hraw := addTags_raw_length h.YKHSMAUTH_INS_CALCULATE 0 0 _ hsmall
  refine ⟨hlen, _, _, by simp only [ykhsmauthCalculate, if_pos hok]; rfl, hraw,
    fun heq => ?_, addTags_raw _ _ _ _⟩
  have := congrArg List.length heq
  simp only [hraw, List.length_append, List.length_cons, List.length_nil] at this
  omega

/-- A symmetric-key call: a one-byte label, a 16-byte context, and neither
public key nor cryptogram. -/
theorem ykhsmauthCalculate_sends_symmetric :
    CalculateArgsOk [0x61] (List.replicate 16 0) (OptBuf.of []) (OptBuf.of [])
        (List.replicate 16 0) (List.replicate 16 0) (List.replicate 16 0) (List.replicate 16 0) ∧
    (fieldsBytes (calculateFields default [0x61] (List.replicate 16 0) (OptBuf.of [])
      (OptBuf.of []) (List.replicate 16 0))).length ≤ 302 ∧
    ∃ frame next, ykhsmauthCalculate default (some ⟨0, 0, 0⟩) (some [0x61])
        (some (List.replicate 16 0)) (OptBuf.of []) (OptBuf.of []) (some (List.replicate 16 0))
        (some (List.replicate 16 0)) (some (List.replicate 16 0)) (some (List.replicate 16 0))
        none = .transmit frame 256 next ∧
      frame.length = 5 + (fieldsBytes (calculateFields default [0x61] (List.replicate 16 0)
        (OptBuf.of []) (OptBuf.of []) (List.replicate 16 0))).length % 256 ∧
      (frame = [0, (default : Header).YKHSMAUTH_INS_CALCULATE, 0, 0,
          (fieldsBytes (calculateFields default [0x61] (List.replicate 16 0) (OptBuf.of [])
            (OptBuf.of []) (List.replicate 16 0))).length.toUInt8] ++
          fieldsBytes (calculateFields default [0x61] (List.replicate 16 0) (OptBuf.of [])
            (OptBuf.of []) (List.replicate 16 0)) ↔
        (fieldsBytes (calculateFields default [0x61] (List.replicate 16 0) (OptBuf.of [])
          (OptBuf.of []) (List.replicate 16 0))).length ≤ 0xff) := by
  have hok : CalculateArgsOk [0x61] (List.replicate 16 0) (OptBuf.of []) (OptBuf.of [])
      (List.replicate 16 0) (List.replicate 16 0) (List.replicate 16 0) (List.replicate 16 0) := by
    decide
  exact ⟨hok, ykhsmauthCalculate_sends default ⟨0, 0, 0⟩ _ _ _ _ _ _ _ _ none hok⟩

/-! ## The fields of `ykhsmauth_put` -/

/-- The frame of `ykhsmauth_put` decodes to its fields in order: management
key, label, algorithm, the key fields, the password padded with zeros to
`YKHSMAUTH_PW_LEN` bytes, and the touch policy. -/
theorem ykhsmauthPut_fields (h : Header) (mgmkey label : List UInt8) (algo : UInt8)
    (key cpw : List UInt8) (touchPolicy : UInt8) (hok : PutArgsOk mgmkey label key cpw) :
    decodeRecords (addTags (Apdu.init h.YKHSMAUTH_INS_PUT 0 0)
        (putFields h mgmkey label algo key cpw touchPolicy)).payload =
      some ([(h.YKHSMAUTH_TAG_MGMKEY, mgmkey), (h.YKHSMAUTH_TAG_LABEL, label),
          (h.YKHSMAUTH_TAG_ALGO, [algo])] ++ (putKeyFields h algo key).map Field.record ++
        [(h.YKHSMAUTH_TAG_PW, cpw ++ List.replicate (YKHSMAUTH_PW_LEN - cpw.length) 0),
          (h.YKHSMAUTH_TAG_TOUCH, [touchPolicy])]) := by
  have hfit := putFields_length h mgmkey label algo key cpw touchPolicy hok
  rw [decodeRecords_payload _ _ _ _ (by omega)]
  simp [putFields, Field.record]

/-- The key fields carry the whole key for P-256, and for AES-128 when the
key has an even length. -/
theorem putKeyFields_flatten (h : Header) (algo : UInt8) (key : List UInt8)
    (halgo : (algo = h.YKHSMAUTH_YUBICO_AES128_ALGO ∧ key.length % 2 = 0) ∨
      (algo ≠ h.YKHSMAUTH_YUBICO_AES128_ALGO ∧ algo = h.YKHSMAUTH_YUBICO_ECP256_ALGO)) :
    ((putKeyFields h algo key).map Field.value).flatten = key := by
  rcases halgo with ⟨rfl, heven⟩ | ⟨hne, rfl⟩
  · have : (key.drop (key.length / 2)).take (key.length / 2) = key.drop (key.length / 2) :=
      List.take_of_length_le (by simp; omega)
    simp [putKeyFields, this]
  · simp [putKeyFields, hne]

/-- For an AES-128 key of odd length the checks pass and the key fields drop
the last byte: a 31-byte key goes out as two fields of 15 bytes. -/
theorem ykhsmauthPut_drops_key_byte (h : Header) (st : YkhsmauthState) :
    let mgmkey := List.replicate 16 (0 : UInt8)
    let key := List.replicate 31 (0x11 : UInt8)
    let apdu := addTags (Apdu.init h.YKHSMAUTH_INS_PUT 0 0)
      (putFields h mgmkey [0x61] h.YKHSMAUTH_YUBICO_AES128_ALGO key [0x31] 0)
    PutArgsOk mgmkey [0x61] key [0x31] ∧
      (∃ next, ykhsmauthPut h (some st) (some mgmkey) (some [0x61]) h.YKHSMAUTH_YUBICO_AES128_ALGO
        (some key) (some [0x31]) 0 none = .transmit apdu.raw 256 next) ∧
      decodeRecords apdu.payload = some [(h.YKHSMAUTH_TAG_MGMKEY, mgmkey),
        (h.YKHSMAUTH_TAG_LABEL, [0x61]), (h.YKHSMAUTH_TAG_ALGO, [h.YKHSMAUTH_YUBICO_AES128_ALGO]),
        (h.YKHSMAUTH_TAG_KEY_ENC, List.replicate 15 0x11),
        (h.YKHSMAUTH_TAG_KEY_MAC, List.replicate 15 0x11),
        (h.YKHSMAUTH_TAG_PW, [0x31] ++ List.replicate 15 0), (h.YKHSMAUTH_TAG_TOUCH, [0])] := by
  intro mgmkey key apdu
  have hok : PutArgsOk mgmkey [0x61] key [0x31] := by
    simp [mgmkey, key, PutArgsOk, LabelOk, YKHSMAUTH_PW_LEN, YKHSMAUTH_MIN_LABEL_LEN,
      YKHSMAUTH_MAX_LABEL_LEN, YKHSMAUTH_YUBICO_ECP256_PRIVKEY_LEN]
  refine ⟨hok, ?_, ?_⟩
  · simp only [ykhsmauthPut, if_pos hok]
    exact ⟨_, rfl⟩
  · rw [ykhsmauthPut_fields h mgmkey [0x61] _ key [0x31] 0 hok]
    simp [key, putKeyFields, Field.record, List.take_replicate, List.drop_replicate,
      YKHSMAUTH_PW_LEN]

end Ykhsmauth
