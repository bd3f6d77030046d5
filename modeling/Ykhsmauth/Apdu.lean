import Ykhsmauth.Basic

/-!
# The command frame and its TLV encoder

`APDU` is a union of a five-byte header followed by a 255-byte data area,
and `add_tag` appends one BER-TLV field to the data area: the tag, the
length of value and padding as `encode_len` writes it, the value, and the
padding as zero bytes.  The cursor is the header byte `lc`, an
`unsigned char`, so `add_tag` stores the new end of the data modulo 256.

`Apdu` keeps the data area as a byte list of at least 255 bytes.  A write
past the 255th byte extends the list, so the model records what the C code
would write past the array instead of stopping there.

The lemmas come in three groups.

* `encodeLen`: its three shapes and their lengths.
* `Field.encode` is the bytes of one field with the length that
  `encode_len` writes.  `addTag_field` says that `add_tag` writes exactly
  these bytes at `lc` whenever the lengths fit the `uint16_t` parameters.
* `addTags_lc` gives the cursor after any run of `add_tag` calls, wrapped
  or not, and `addTags_data` gives the data area below the cursor when the
  fields fit in the 255 bytes.
-/

namespace Ykhsmauth

/-! ## `encode_len` -/

/-- `encode_len`: the BER definite length of a `uint16_t`, in one byte up to
`0x7f`, as `0x81 n` up to `0xff`, and as `0x82 hi lo` above.  The C function
writes the bytes through `buf` and returns their number; the model returns
the bytes. -/
def encodeLen (len : Nat) : List UInt8 :=
  if len > 0xff then [0x82, (len >>> 8).toUInt8, len.toUInt8]
  else if len > 0x7f then [0x81, len.toUInt8]
  else [len.toUInt8]

theorem encodeLen_length (len : Nat) :
    (encodeLen len).length = if len > 0xff then 3 else if len > 0x7f then 2 else 1 := by
  unfold encodeLen
  split_ifs <;> rfl

/-- A length below 256 takes at most two bytes. -/
theorem encodeLen_length_le (len : Nat) (h : len ≤ 0xff) : (encodeLen len).length ≤ 2 := by
  rw [encodeLen_length]
  split_ifs <;> omega

/-! ## The frame -/

/-- `APDU`: the header `cla ins p1 p2 lc` and the data area `st.data`.
`data` is the memory from `st.data[0]` on, at least the 255 bytes of the
array. -/
structure Apdu where
  cla : UInt8
  ins : UInt8
  p1 : UInt8
  p2 : UInt8
  lc : UInt8
  data : List UInt8
  data_length : 0xff ≤ data.length

/-- The initializer `{{0, ins, p1, p2, 0, {0}}}` that every command uses:
class byte and `lc` zero, data area zero-filled. -/
def Apdu.init (ins p1 p2 : UInt8) : Apdu :=
  ⟨0, ins, p1, p2, 0, List.replicate 0xff 0, (List.length_replicate _ _).ge⟩

@[simp] theorem Apdu.init_lc (ins p1 p2 : UInt8) : (Apdu.init ins p1 p2).lc = 0 := rfl

/-- `apdu->st.data[0 .. lc)`, the data the frame carries. -/
def Apdu.payload (apdu : Apdu) : List UInt8 :=
  apdu.data.take apdu.lc.toNat

/-- `apdu->raw[0 .. lc + 5)`, the bytes `send_data` hands to
`SCardTransmit`. -/
def Apdu.raw (apdu : Apdu) : List UInt8 :=
  [apdu.cla, apdu.ins, apdu.p1, apdu.p2, apdu.lc] ++ apdu.payload

/-- The bytes `add_tag` writes: the tag, `encode_len(len + pad)`, `len` bytes
of the value and `pad` zero bytes.  `len` and `pad` are the `uint16_t`
parameters. -/
def addTagBytes (tag : UInt8) (data : List UInt8) (len pad : Nat) : List UInt8 :=
  tag :: encodeLen ((len + pad) % 0x10000) ++ data.take len ++ List.replicate pad 0

/-- `add_tag`: write the field at `data + lc` and store the new end in the
`unsigned char` `lc`.  The caller's `size_t` lengths reach the `uint16_t`
parameters modulo `2 ^ 16`. -/
def addTag (apdu : Apdu) (tag : UInt8) (data : List UInt8) (len pad : Nat) : Apdu :=
  let bytes := addTagBytes tag data (len % 0x10000) (pad % 0x10000)
  { apdu with
    data := writeAt apdu.data apdu.lc.toNat bytes
    lc := (apdu.lc.toNat + bytes.length).toUInt8
    data_length := by
      have := byte_lt apdu.lc
      have := apdu.data_length
      rw [writeAt_length _ _ _ (by omega)]
      omega }

/-! ## Fields -/

/-- One `add_tag` call: the tag, the value the data pointer designates, and
the number of padding bytes. -/
structure Field where
  tag : UInt8
  value : List UInt8
  pad : Nat
  deriving DecidableEq

/-- The bytes of one field: tag, minimal BER length of value and padding,
value, and padding. -/
def Field.encode (f : Field) : List UInt8 :=
  f.tag :: encodeLen (f.value.length + f.pad) ++ f.value ++ List.replicate f.pad 0

/-- The bytes of a run of fields, one after the other. -/
def fieldsBytes (fs : List Field) : List UInt8 :=
  (fs.map Field.encode).flatten

@[simp] theorem fieldsBytes_nil : fieldsBytes [] = [] := rfl

@[simp] theorem fieldsBytes_cons (f : Field) (fs : List Field) :
    fieldsBytes (f :: fs) = f.encode ++ fieldsBytes fs := rfl

@[simp] theorem fieldsBytes_append (fs gs : List Field) :
    fieldsBytes (fs ++ gs) = fieldsBytes fs ++ fieldsBytes gs := by
  simp [fieldsBytes]

theorem Field.encode_length (f : Field) :
    f.encode.length = 1 + (encodeLen (f.value.length + f.pad)).length + f.value.length + f.pad := by
  simp [Field.encode]
  omega

/-- `add_tag` with the field's own lengths. -/
def addField (apdu : Apdu) (f : Field) : Apdu :=
  addTag apdu f.tag f.value f.value.length f.pad

/-- Successive `add_tag` calls. -/
def addTags (apdu : Apdu) (fs : List Field) : Apdu :=
  fs.foldl addField apdu

@[simp] theorem addTags_nil (apdu : Apdu) : addTags apdu [] = apdu := rfl

@[simp] theorem addTags_cons (apdu : Apdu) (f : Field) (fs : List Field) :
    addTags apdu (f :: fs) = addTags (addField apdu f) fs := rfl

theorem addTags_append (apdu : Apdu) (fs gs : List Field) :
    addTags apdu (fs ++ gs) = addTags (addTags apdu fs) gs := by
  simp [addTags, List.foldl_append]

/-- A field fits the `uint16_t` parameters of `add_tag`. -/
def Field.Small (f : Field) : Prop := f.value.length + f.pad < 0x10000

/-- `add_tag` writes `Field.encode` at `lc` when the field's lengths fit. -/
theorem addField_eq (apdu : Apdu) (f : Field) (h : f.Small) :
    (addField apdu f).data = writeAt apdu.data apdu.lc.toNat f.encode ∧
      (addField apdu f).lc = (apdu.lc.toNat + f.encode.length).toUInt8 := by
  unfold Field.Small at h
  have hv : f.value.length % 0x10000 = f.value.length := Nat.mod_eq_of_lt (by omega)
  have hp : f.pad % 0x10000 = f.pad := Nat.mod_eq_of_lt (by omega)
  have hs : (f.value.length + f.pad) % 0x10000 = f.value.length + f.pad := Nat.mod_eq_of_lt h
  simp only [addField, addTag, addTagBytes, Field.encode, hv, hp, hs, List.take_length, and_self]

/-- A field of a run is no longer than the run. -/
theorem Field.encode_length_le {f : Field} {fs : List Field} (h : f ∈ fs) :
    f.encode.length ≤ (fieldsBytes fs).length := by
  induction fs with
  | nil => cases h
  | cons g fs ih =>
    simp only [fieldsBytes_cons, List.length_append]
    rcases List.mem_cons.mp h with rfl | h
    · omega
    · have := ih h; omega

/-- Every field of a run shorter than `2 ^ 16` bytes fits the `uint16_t`
lengths. -/
theorem Field.small_of_le {fs : List Field} (hfit : (fieldsBytes fs).length ≤ 0x10000) :
    ∀ f ∈ fs, f.Small := by
  intro f hf
  have := Field.encode_length_le hf
  rw [Field.encode_length] at this
  unfold Field.Small
  omega

/-- In particular every field of a run that fits in the data area does. -/
theorem Field.small_of_fit {fs : List Field} (hfit : (fieldsBytes fs).length ≤ 0xff) :
    ∀ f ∈ fs, f.Small :=
  Field.small_of_le (by omega)

/-! ## The cursor and the data area after a run of fields -/

/-- The cursor after a run of small fields is the byte count modulo 256,
whether or not it wrapped on the way. -/
theorem addTags_lc (apdu : Apdu) (fs : List Field) (h : ∀ f ∈ fs, f.Small) :
    (addTags apdu fs).lc.toNat = (apdu.lc.toNat + (fieldsBytes fs).length) % 256 := by
  induction fs generalizing apdu with
  | nil => simp [Nat.mod_eq_of_lt (byte_lt apdu.lc)]
  | cons f fs ih =>
    rw [addTags_cons, ih _ fun g hg => h g (List.mem_cons_of_mem f hg),
      (addField_eq apdu f (h f (List.mem_cons_self f fs))).2]
    show ((apdu.lc.toNat + f.encode.length) % 256 + _) % 256 = _
    simp only [fieldsBytes_cons, List.length_append]
    omega

/-- Fields that fit in the data area leave their bytes below the cursor,
after what was there. -/
theorem addTags_data (apdu : Apdu) (fs : List Field)
    (hfit : apdu.lc.toNat + (fieldsBytes fs).length ≤ 0xff) :
    (addTags apdu fs).data.take (apdu.lc.toNat + (fieldsBytes fs).length) =
      apdu.data.take apdu.lc.toNat ++ fieldsBytes fs := by
  induction fs generalizing apdu with
  | nil => simp
  | cons f fs ih =>
    simp only [fieldsBytes_cons, List.length_append] at hfit ⊢
    have hsmall : f.Small := by
      unfold Field.Small; rw [Field.encode_length] at hfit; omega
    obtain ⟨hdata, hlc⟩ := addField_eq apdu f hsmall
    have hlc' : (addField apdu f).lc.toNat = apdu.lc.toNat + f.encode.length := by
      rw [hlc]; exact Nat.mod_eq_of_lt (by omega)
    have hle : apdu.lc.toNat ≤ apdu.data.length := by
      have := apdu.data_length; omega
    have := ih (addField apdu f) (by omega)
    rw [hlc', hdata, take_writeAt_end _ _ _ hle] at this
    rw [addTags_cons, ← Nat.add_assoc, this, List.append_assoc]

/-- Fields that fit in the data area of a fresh frame: `lc` is their byte
count and the payload is their bytes. -/
theorem addTags_fit (apdu : Apdu) (fs : List Field) (h0 : apdu.lc = 0)
    (hfit : (fieldsBytes fs).length ≤ 0xff) :
    (addTags apdu fs).lc.toNat = (fieldsBytes fs).length ∧
      (addTags apdu fs).payload = fieldsBytes fs := by
  have hlc0 : apdu.lc.toNat = 0 := by rw [h0]; rfl
  have hsmall := Field.small_of_fit hfit
  have hlc : (addTags apdu fs).lc.toNat = (fieldsBytes fs).length := by
    rw [addTags_lc apdu fs hsmall, hlc0, Nat.zero_add]
    exact Nat.mod_eq_of_lt (by omega)
  have hdata := addTags_data apdu fs (by omega)
  rw [hlc0, Nat.zero_add, List.take_zero, List.nil_append] at hdata
  exact ⟨hlc, by rw [Apdu.payload, hlc, hdata]⟩

/-- `add_tag` leaves the header bytes alone. -/
theorem addTags_header (apdu : Apdu) (fs : List Field) :
    (addTags apdu fs).cla = apdu.cla ∧ (addTags apdu fs).ins = apdu.ins ∧
      (addTags apdu fs).p1 = apdu.p1 ∧ (addTags apdu fs).p2 = apdu.p2 := by
  induction fs generalizing apdu with
  | nil => exact ⟨rfl, rfl, rfl, rfl⟩
  | cons f fs ih => exact ih (addField apdu f)

/-- The bytes sent for a fresh frame whose fields fit: the header with `lc`
the byte count of the fields, then the fields. -/
theorem addTags_raw (ins p1 p2 : UInt8) (fs : List Field) (hfit : (fieldsBytes fs).length ≤ 0xff) :
    (addTags (Apdu.init ins p1 p2) fs).raw =
      [0, ins, p1, p2, (fieldsBytes fs).length.toUInt8] ++ fieldsBytes fs := by
  obtain ⟨hlc, hpayload⟩ := addTags_fit (Apdu.init ins p1 p2) fs rfl hfit
  obtain ⟨hcla, hins, hp1, hp2⟩ := addTags_header (Apdu.init ins p1 p2) fs
  rw [Apdu.raw, hpayload, hcla, hins, hp1, hp2, ← hlc, toUInt8_toNat]
  rfl

/-- A fresh frame sends the header and as many bytes as the cursor says: the
byte count of its fields modulo 256, whether or not they fit. -/
theorem addTags_raw_length (ins p1 p2 : UInt8) (fs : List Field) (h : ∀ f ∈ fs, f.Small) :
    (addTags (Apdu.init ins p1 p2) fs).raw.length = 5 + (fieldsBytes fs).length % 256 := by
  have hlc := addTags_lc (Apdu.init ins p1 p2) fs h
  have hdata := (addTags (Apdu.init ins p1 p2) fs).data_length
  have hlt := byte_lt (addTags (Apdu.init ins p1 p2) fs).lc
  rw [Apdu.init_lc, show (0 : UInt8).toNat = 0 from rfl, Nat.zero_add] at hlc
  simp only [Apdu.raw, Apdu.payload, List.length_append, List.length_take, List.length_cons,
    List.length_nil]
  omega

end Ykhsmauth
