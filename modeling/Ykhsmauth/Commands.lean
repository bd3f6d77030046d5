import Ykhsmauth.Transport
import Ykhsmauth.Tlv

/-!
# The commands of the applet

One definition per command of `ykhsmauth.c` except `ykhsmauth_list_keys`,
which has its own module.  Each command first checks its arguments and
returns `YKHSMAUTHR_INVALID_PARAMS` without touching the card when a check
fails; `*ArgsOk` is that check on the pointers that are not `NULL`.  It then
builds its frame from `Apdu.init` by `add_tag` calls, whose fields are
`*Fields` in the order of the calls, and sends it.

Caller buffers are byte lists: `none` is a `NULL` pointer, and the list is
the buffer, of the length the caller passes with it.  A label is the bytes
of the C string before its terminating zero, so `strlen` is the length of
the list.  The outputs are reported as the caller sees them after the call:
a scalar output is the cell after the call, and an output buffer is the
bytes the command wrote into it, `none` when it wrote nothing.

`ykhsmauth_get_challenge` and `ykhsmauth_get_pubkey` differ only in their
instruction byte and are `getLabelData` at their own instruction.
-/

namespace Ykhsmauth

/-! ## Argument checks -/

/-- The label check of every command that takes a label:
`strlen(label)` between `YKHSMAUTH_MIN_LABEL_LEN` and
`YKHSMAUTH_MAX_LABEL_LEN`. -/
def LabelOk (label : List UInt8) : Prop :=
  YKHSMAUTH_MIN_LABEL_LEN ≤ label.length ∧ label.length ≤ YKHSMAUTH_MAX_LABEL_LEN

instance (label : List UInt8) : Decidable (LabelOk label) :=
  inferInstanceAs (Decidable (_ ∧ _))

/-- A caller's `(pointer, length)` pair whose pointer may be `NULL` while its
length is still checked.  A pointer that is not `NULL` designates `len`
bytes. -/
structure OptBuf where
  ptr : Option (List UInt8)
  len : Nat
  ptr_len : ∀ b, ptr = some b → b.length = len

/-- A pointer to the bytes `b` with their length. -/
def OptBuf.of (b : List UInt8) : OptBuf :=
  ⟨some b, b.length, fun _ hb => by cases hb; rfl⟩

/-! ## `ykhsmauth_get_version` -/

/-- The text `"%d.%d.%d"` formats for three bytes. -/
def versionText (major minor patch : UInt8) : List UInt8 :=
  (toString major.toNat ++ "." ++ toString minor.toNat ++ "." ++ toString patch.toNat).toList.map
    fun c => c.toNat.toUInt8

/-- `snprintf(buf, len, ...)` of `text` as ISO C and glibc define it: at most
`len - 1` characters and the terminating zero, and nothing at all for a zero
`len`.  Its result is the length of `text`, never negative, so the
`Version buffer too small` branch of `ykhsmauth_get_version` is never taken.
The BSD and macOS C libraries differ: when `len - 1` exceeds `INT_MAX` their
`snprintf` writes nothing and returns `-1` (`EOVERFLOW`), and that is the
branch taken.  The model follows ISO C. -/
def snprintf (len : Nat) (text : List UInt8) : Option (List UInt8) :=
  if len = 0 then none else some (text.take (len - 1) ++ [0])

/-- `ykhsmauth_get_version`: the output is what `snprintf` writes into
`version`. -/
def ykhsmauthGetVersion (h : Header) (state : Option YkhsmauthState)
    (version : Option (List UInt8)) (len : Nat) : Exchange (YkhsmauthRc × Option (List UInt8)) :=
  match state, version with
  | some _, some _ =>
    .transmit (Apdu.init h.YKHSMAUTH_INS_GET_VERSION 0 0).raw 256 fun r =>
      let s := sendData r
      if s.rc ≠ .success then (s.rc, none)
      else if s.sw = SW_SUCCESS ∧ s.recvLen = 3 then
        (.success, snprintf len (versionText (s.data.getD 0 0) (s.data.getD 1 0) (s.data.getD 2 0)))
      else ((translateError h s.sw none).1, none)
  | _, _ => .done (.invalidParams, none)

/-! ## `ykhsmauth_put` -/

/-- The checks of `ykhsmauth_put` on its pointers. -/
def PutArgsOk (mgmkey label key cpw : List UInt8) : Prop :=
  mgmkey.length = YKHSMAUTH_PW_LEN ∧ LabelOk label ∧
    key.length ≤ YKHSMAUTH_YUBICO_ECP256_PRIVKEY_LEN ∧ cpw.length ≤ YKHSMAUTH_PW_LEN

instance (mgmkey label key cpw : List UInt8) : Decidable (PutArgsOk mgmkey label key cpw) :=
  inferInstanceAs (Decidable (_ ∧ _ ∧ _ ∧ _))

/-- The key fields of `ykhsmauth_put`: `key_len / 2` bytes from `key` and as
many from `key + key_len / 2` for AES-128, the whole key for P-256, and
nothing for any other algorithm. -/
def putKeyFields (h : Header) (algo : UInt8) (key : List UInt8) : List Field :=
  if algo = h.YKHSMAUTH_YUBICO_AES128_ALGO then
    [⟨h.YKHSMAUTH_TAG_KEY_ENC, key.take (key.length / 2), 0⟩,
      ⟨h.YKHSMAUTH_TAG_KEY_MAC, (key.drop (key.length / 2)).take (key.length / 2), 0⟩]
  else if algo = h.YKHSMAUTH_YUBICO_ECP256_ALGO then [⟨h.YKHSMAUTH_TAG_PRIVKEY, key, 0⟩]
  else []

/-- The fields of `ykhsmauth_put` in the order of its `add_tag` calls. -/
def putFields (h : Header) (mgmkey label : List UInt8) (algo : UInt8) (key cpw : List UInt8)
    (touchPolicy : UInt8) : List Field :=
  [⟨h.YKHSMAUTH_TAG_MGMKEY, mgmkey, 0⟩, ⟨h.YKHSMAUTH_TAG_LABEL, label, 0⟩,
      ⟨h.YKHSMAUTH_TAG_ALGO, [algo], 0⟩] ++
    putKeyFields h algo key ++
    [⟨h.YKHSMAUTH_TAG_PW, cpw, YKHSMAUTH_PW_LEN - cpw.length⟩,
      ⟨h.YKHSMAUTH_TAG_TOUCH, [touchPolicy], 0⟩]

/-- `ykhsmauth_put`: store a credential.  The output is `*retries`. -/
def ykhsmauthPut (h : Header) (state : Option YkhsmauthState) (mgmkey label : Option (List UInt8))
    (algo : UInt8) (key cpw : Option (List UInt8)) (touchPolicy : UInt8)
    (retries : Option UInt8) : Exchange (YkhsmauthRc × Option UInt8) :=
  match state, mgmkey, label, key, cpw with
  | some _, some mgmkey, some label, some key, some cpw =>
    if PutArgsOk mgmkey label key cpw then
      sendCommand h (addTags (Apdu.init h.YKHSMAUTH_INS_PUT 0 0)
          (putFields h mgmkey label algo key cpw touchPolicy)) 256 retries id
        fun _ => (.success, retries)
    else .done (.invalidParams, retries)
  | _, _, _, _, _ => .done (.invalidParams, retries)

/-! ## `ykhsmauth_delete` -/

/-- The checks of `ykhsmauth_delete` on its pointers. -/
def DeleteArgsOk (mgmkey label : List UInt8) : Prop :=
  mgmkey.length = YKHSMAUTH_PW_LEN ∧ LabelOk label

instance (mgmkey label : List UInt8) : Decidable (DeleteArgsOk mgmkey label) :=
  inferInstanceAs (Decidable (_ ∧ _))

/-- The fields of `ykhsmauth_delete`. -/
def deleteFields (h : Header) (mgmkey label : List UInt8) : List Field :=
  [⟨h.YKHSMAUTH_TAG_MGMKEY, mgmkey, 0⟩, ⟨h.YKHSMAUTH_TAG_LABEL, label, 0⟩]

/-- `ykhsmauth_delete`: delete a credential.  The output is `*retries`. -/
def ykhsmauthDelete (h : Header) (state : Option YkhsmauthState) (mgmkey label : Option (List UInt8))
    (retries : Option UInt8) : Exchange (YkhsmauthRc × Option UInt8) :=
  match state, mgmkey, label with
  | some _, some mgmkey, some label =>
    if DeleteArgsOk mgmkey label then
      sendCommand h (addTags (Apdu.init h.YKHSMAUTH_INS_DELETE 0 0) (deleteFields h mgmkey label))
        256 retries id fun _ => (.success, retries)
    else .done (.invalidParams, retries)
  | _, _, _ => .done (.invalidParams, retries)

/-! ## `ykhsmauth_calculate` -/

/-- The checks of `ykhsmauth_calculate` on its pointers.  The lengths of the
card's public key and cryptogram are checked even for a `NULL` pointer. -/
def CalculateArgsOk (label context : List UInt8) (cardPubkey cardCrypto : OptBuf)
    (pw keySEnc keySMac keySRmac : List UInt8) : Prop :=
  LabelOk label ∧ context.length ≤ 2 * YKHSMAUTH_YUBICO_ECP256_PUBKEY_LEN ∧
    cardPubkey.len ≤ YKHSMAUTH_YUBICO_ECP256_PUBKEY_LEN ∧
    cardCrypto.len ≤ YKHSMAUTH_SESSION_KEY_LEN ∧ pw.length ≤ YKHSMAUTH_PW_LEN ∧
    keySEnc.length = YKHSMAUTH_SESSION_KEY_LEN ∧ keySMac.length = YKHSMAUTH_SESSION_KEY_LEN ∧
    keySRmac.length = YKHSMAUTH_SESSION_KEY_LEN

instance (label context : List UInt8) (cardPubkey cardCrypto : OptBuf)
    (pw keySEnc keySMac keySRmac : List UInt8) :
    Decidable (CalculateArgsOk label context cardPubkey cardCrypto pw keySEnc keySMac keySRmac) :=
  inferInstanceAs (Decidable (_ ∧ _ ∧ _ ∧ _ ∧ _ ∧ _ ∧ _ ∧ _))

/-- The card's public key goes out when the pointer is not `NULL` and the
length is not zero. -/
def pubkeyFields (h : Header) (cardPubkey : OptBuf) : List Field :=
  match cardPubkey.ptr with
  | some pk => if cardPubkey.len ≠ 0 then [⟨h.YKHSMAUTH_TAG_PUBKEY, pk, 0⟩] else []
  | none => []

/-- The card cryptogram goes out only when it is longer than
`YKHSMAUTH_CARD_CRYPTO_LEN`. -/
def responseFields (h : Header) (cardCrypto : OptBuf) : List Field :=
  match cardCrypto.ptr with
  | some cc =>
    if cardCrypto.len > YKHSMAUTH_CARD_CRYPTO_LEN then [⟨h.YKHSMAUTH_TAG_RESPONSE, cc, 0⟩] else []
  | none => []

/-- The fields of `ykhsmauth_calculate` in the order of its `add_tag` calls. -/
def calculateFields (h : Header) (label context : List UInt8) (cardPubkey cardCrypto : OptBuf)
    (pw : List UInt8) : List Field :=
  [⟨h.YKHSMAUTH_TAG_LABEL, label, 0⟩, ⟨h.YKHSMAUTH_TAG_CONTEXT, context, 0⟩] ++
    pubkeyFields h cardPubkey ++ responseFields h cardCrypto ++
    [⟨h.YKHSMAUTH_TAG_PW, pw, YKHSMAUTH_PW_LEN - pw.length⟩]

/-- What `ykhsmauth_calculate` leaves to its caller: `*retries`, and the bytes
written into `key_s_enc`, `key_s_mac` and `key_s_rmac`, which it writes
together or not at all. -/
structure CalculateOut where
  retries : Option UInt8
  keys : Option (List UInt8 × List UInt8 × List UInt8)
  deriving DecidableEq

/-- `ykhsmauth_calculate`: derive the three session keys.  The answer must be
exactly three keys long; the host cryptogram is not read. -/
def ykhsmauthCalculate (h : Header) (state : Option YkhsmauthState)
    (label context : Option (List UInt8)) (cardPubkey cardCrypto : OptBuf)
    (pw keySEnc keySMac keySRmac : Option (List UInt8)) (retries : Option UInt8) :
    Exchange (YkhsmauthRc × CalculateOut) :=
  match state, label, context, pw, keySEnc, keySMac, keySRmac with
  | some _, some label, some context, some pw, some enc, some mac, some rmac =>
    if CalculateArgsOk label context cardPubkey cardCrypto pw enc mac rmac then
      sendCommand h (addTags (Apdu.init h.YKHSMAUTH_INS_CALCULATE 0 0)
          (calculateFields h label context cardPubkey cardCrypto pw)) 256 retries
        (fun r => ⟨r, none⟩) fun s =>
          if s.recvLen ≠ 3 * YKHSMAUTH_SESSION_KEY_LEN then (.genericError, ⟨retries, none⟩)
          else (.success, ⟨retries, some (s.data.take YKHSMAUTH_SESSION_KEY_LEN,
            (s.data.drop YKHSMAUTH_SESSION_KEY_LEN).take YKHSMAUTH_SESSION_KEY_LEN,
            (s.data.drop (2 * YKHSMAUTH_SESSION_KEY_LEN)).take YKHSMAUTH_SESSION_KEY_LEN)⟩)
    else .done (.invalidParams, ⟨retries, none⟩)
  | _, _, _, _, _, _, _ => .done (.invalidParams, ⟨retries, none⟩)

/-! ## `ykhsmauth_reset` -/

/-- `ykhsmauth_reset`.  Unlike every other command it tests the status word
before the result of `send_data`. -/
def ykhsmauthReset (h : Header) (state : Option YkhsmauthState) : Exchange YkhsmauthRc :=
  match state with
  | some _ =>
    .transmit (Apdu.init h.YKHSMAUTH_INS_RESET h.YKHSMAUTH_P1_RESET h.YKHSMAUTH_P2_RESET).raw 256
      fun r =>
        let s := sendData r
        if s.sw ≠ SW_SUCCESS then (translateError h s.sw none).1 else s.rc
  | none => .done .invalidParams

/-! ## `ykhsmauth_get_challenge` and `ykhsmauth_get_pubkey` -/

/-- The checks of `ykhsmauth_get_challenge` and `ykhsmauth_get_pubkey` on
their pointers: a valid label and a buffer of at least
`YKHSMAUTH_YUBICO_ECP256_PUBKEY_LEN` bytes by the caller's count. -/
def GetLabelDataArgsOk (label : List UInt8) (bufLen : Nat) : Prop :=
  LabelOk label ∧ YKHSMAUTH_YUBICO_ECP256_PUBKEY_LEN ≤ bufLen

instance (label : List UInt8) (bufLen : Nat) : Decidable (GetLabelDataArgsOk label bufLen) :=
  inferInstanceAs (Decidable (_ ∧ _))

/-- The one field of a command that only names a credential. -/
def labelFields (h : Header) (label : List UInt8) : List Field :=
  [⟨h.YKHSMAUTH_TAG_LABEL, label, 0⟩]

/-- Send the label under instruction `ins`, then set `*buf_len` to
`recv_len` and copy the whole answer into `buf`.  The outputs are the bytes
written into `buf` and the cell `*buf_len`. -/
def getLabelData (h : Header) (ins : UInt8) (state : Option YkhsmauthState)
    (label buf : Option (List UInt8)) (bufLen : Option Nat) :
    Exchange (YkhsmauthRc × Option (List UInt8) × Option Nat) :=
  match state, label, buf, bufLen with
  | some _, some label, some _, some len =>
    if GetLabelDataArgsOk label len then
      sendCommand h (addTags (Apdu.init ins 0 0) (labelFields h label)) 256 none
        (fun _ => (none, bufLen)) fun s => (.success, some (s.data.take s.recvLen), some s.recvLen)
    else .done (.invalidParams, none, bufLen)
  | _, _, _, _ => .done (.invalidParams, none, bufLen)

/-- `ykhsmauth_get_challenge`. -/
def ykhsmauthGetChallenge (h : Header) (state : Option YkhsmauthState)
    (label challenge : Option (List UInt8)) (challengeLen : Option Nat) :
    Exchange (YkhsmauthRc × Option (List UInt8) × Option Nat) :=
  getLabelData h h.YKHSMAUTH_INS_GET_CHALLENGE state label challenge challengeLen

/-- `ykhsmauth_get_pubkey`. -/
def ykhsmauthGetPubkey (h : Header) (state : Option YkhsmauthState)
    (label pubkey : Option (List UInt8)) (pubkeyLen : Option Nat) :
    Exchange (YkhsmauthRc × Option (List UInt8) × Option Nat) :=
  getLabelData h h.YKHSMAUTH_INS_GET_PUBKEY state label pubkey pubkeyLen

/-! ## The management key -/

/-- `ykhsmauth_get_mgmkey_retries`: `*retries` becomes `data[0]` of the
answer. -/
def ykhsmauthGetMgmkeyRetries (h : Header) (state : Option YkhsmauthState)
    (retries : Option UInt8) : Exchange (YkhsmauthRc × Option UInt8) :=
  match state, retries with
  | some _, some _ =>
    sendCommand h (Apdu.init h.YKHSMAUTH_INS_GET_MGMKEY_RETRIES 0 0) 256 none (fun _ => retries)
      fun s => (.success, some (s.data.getD 0 0))
  | _, _ => .done (.invalidParams, retries)

/-- The checks of `ykhsmauth_put_mgmkey` on its pointers. -/
def PutMgmkeyArgsOk (mgmkey newMgmkey : List UInt8) : Prop :=
  mgmkey.length = YKHSMAUTH_PW_LEN ∧ newMgmkey.length = YKHSMAUTH_PW_LEN

instance (mgmkey newMgmkey : List UInt8) : Decidable (PutMgmkeyArgsOk mgmkey newMgmkey) :=
  inferInstanceAs (Decidable (_ ∧ _))

/-- The fields of `ykhsmauth_put_mgmkey`: the old key and the new key, both
under the management key tag. -/
def putMgmkeyFields (h : Header) (mgmkey newMgmkey : List UInt8) : List Field :=
  [⟨h.YKHSMAUTH_TAG_MGMKEY, mgmkey, 0⟩, ⟨h.YKHSMAUTH_TAG_MGMKEY, newMgmkey, 0⟩]

/-- `ykhsmauth_put_mgmkey`: replace the management key.  The output is
`*retries`. -/
def ykhsmauthPutMgmkey (h : Header) (state : Option YkhsmauthState)
    (mgmkey newMgmkey : Option (List UInt8)) (retries : Option UInt8) :
    Exchange (YkhsmauthRc × Option UInt8) :=
  match state, mgmkey, newMgmkey with
  | some _, some mgmkey, some newMgmkey =>
    if PutMgmkeyArgsOk mgmkey newMgmkey then
      sendCommand h (addTags (Apdu.init h.YKHSMAUTH_INS_PUT_MGMKEY 0 0)
          (putMgmkeyFields h mgmkey newMgmkey)) 256 retries id fun _ => (.success, retries)
    else .done (.invalidParams, retries)
  | _, _, _ => .done (.invalidParams, retries)

end Ykhsmauth
