import Mathlib.Data.List.Basic

/-!
# The data model of the host side of the YubiKey HSM Auth applet

`ykhsmauth.c` is the host library of the applet.  It encodes each command as
an ISO 7816 APDU whose data area is a run of BER-TLV fields, hands the frame
to PC/SC, and decodes the answer.  This module holds what every later module
shares.

* The length constants of `ykhsmauth.h`.  The header is not among the
  modelled sources; the values are the ones the header defines.
* `Header`, the instruction bytes, tags, algorithm identifiers and status
  words of `internal.h` and `ykhsmauth.h`.  Their values are not part of the
  modelled sources either, so every definition takes them as a parameter and
  every theorem holds whatever they are.
* `YkhsmauthRc`, the return codes, and `YkhsmauthState`, the session handle.
* `YkhsmauthListEntry`, one credential of a `LIST` answer.  Its label field
  has the size of the C array and carries that size as a field.
* `Received`, what `SCardTransmit` leaves in a receive buffer, and
  `Exchange`, a protocol operation as the transport sees it: it returns
  before touching the card, or it sends exactly one frame and continues with
  the outcome.
* `writeAt`, a `memcpy` into a byte region, with its frame lemmas.

Logging (`verbose`, `dump_hex`, `fprintf`) changes nothing a caller can
observe and is left out.
-/

namespace Ykhsmauth

/-! ## Constants of `ykhsmauth.h` -/

/-- `YKHSMAUTH_PW_LEN`: the management key and the padded credential
password are sixteen bytes. -/
def YKHSMAUTH_PW_LEN : Nat := 16

/-- `YKHSMAUTH_MIN_LABEL_LEN`. -/
def YKHSMAUTH_MIN_LABEL_LEN : Nat := 1

/-- `YKHSMAUTH_MAX_LABEL_LEN`. -/
def YKHSMAUTH_MAX_LABEL_LEN : Nat := 64

/-- `YKHSMAUTH_SESSION_KEY_LEN`. -/
def YKHSMAUTH_SESSION_KEY_LEN : Nat := 16

/-- `YKHSMAUTH_CARD_CRYPTO_LEN`. -/
def YKHSMAUTH_CARD_CRYPTO_LEN : Nat := 8

/-- `YKHSMAUTH_YUBICO_ECP256_PUBKEY_LEN`: an uncompressed P-256 point. -/
def YKHSMAUTH_YUBICO_ECP256_PUBKEY_LEN : Nat := 65

/-- `YKHSMAUTH_YUBICO_ECP256_PRIVKEY_LEN`. -/
def YKHSMAUTH_YUBICO_ECP256_PRIVKEY_LEN : Nat := 32

/-- `sizeof(ykhsmauth_list_entry.label)`: the label array holds
`YKHSMAUTH_MAX_LABEL_LEN` characters and a terminating zero. -/
def LABEL_FIELD_LEN : Nat := YKHSMAUTH_MAX_LABEL_LEN + 1

theorem LABEL_FIELD_LEN_eq : LABEL_FIELD_LEN = 65 := rfl

/-- `SW_SUCCESS`, the status word of a command that succeeded. -/
def SW_SUCCESS : Nat := 0x9000

/-- The constants that `ykhsmauth.c` takes from `internal.h` and
`ykhsmauth.h` and whose values the modelled sources do not fix.  Status words
are `int` in the C code and are `Nat` here; the rest are bytes. -/
structure Header where
  YKHSMAUTH_INS_PUT : UInt8
  YKHSMAUTH_INS_DELETE : UInt8
  YKHSMAUTH_INS_CALCULATE : UInt8
  YKHSMAUTH_INS_GET_CHALLENGE : UInt8
  YKHSMAUTH_INS_LIST : UInt8
  YKHSMAUTH_INS_RESET : UInt8
  YKHSMAUTH_INS_GET_VERSION : UInt8
  YKHSMAUTH_INS_PUT_MGMKEY : UInt8
  YKHSMAUTH_INS_GET_MGMKEY_RETRIES : UInt8
  YKHSMAUTH_INS_GET_PUBKEY : UInt8
  YKHSMAUTH_P1_RESET : UInt8
  YKHSMAUTH_P2_RESET : UInt8
  YKHSMAUTH_TAG_LABEL : UInt8
  YKHSMAUTH_TAG_LABEL_LIST : UInt8
  YKHSMAUTH_TAG_PW : UInt8
  YKHSMAUTH_TAG_ALGO : UInt8
  YKHSMAUTH_TAG_KEY_ENC : UInt8
  YKHSMAUTH_TAG_KEY_MAC : UInt8
  YKHSMAUTH_TAG_CONTEXT : UInt8
  YKHSMAUTH_TAG_RESPONSE : UInt8
  YKHSMAUTH_TAG_TOUCH : UInt8
  YKHSMAUTH_TAG_MGMKEY : UInt8
  YKHSMAUTH_TAG_PUBKEY : UInt8
  YKHSMAUTH_TAG_PRIVKEY : UInt8
  YKHSMAUTH_YUBICO_AES128_ALGO : UInt8
  YKHSMAUTH_YUBICO_ECP256_ALGO : UInt8
  SW_AUTHENTICATION_FAILED : Nat
  SW_FILE_FULL : Nat
  SW_FILE_NOT_FOUND : Nat
  SW_WRONG_DATA : Nat
  SW_MEMORY_ERROR : Nat
  SW_SECURITY_STATUS_NOT_SATISFIED : Nat
  SW_FILE_INVALID : Nat
  SW_DATA_INVALID : Nat
  SW_INS_NOT_SUPPORTED : Nat
  deriving Inhabited

/-! ## Return codes and the session handle -/

/-- `ykhsmauth_rc`, the result of every entry point. -/
inductive YkhsmauthRc where
  | success
  | memoryError
  | pcscError
  | genericError
  | wrongPw
  | invalidParams
  | entryNotFound
  | storageFull
  | touchError
  | entryInvalid
  | dataInvalid
  | notSupported
  deriving DecidableEq, Repr

/-- `ykhsmauth_state`: the verbosity, the PC/SC context and the card handle.
A card handle of `0` means that no card is connected. -/
structure YkhsmauthState where
  verbose : Int
  context : Nat
  card : Nat
  deriving DecidableEq, Repr

/-- `ykhsmauth_list_entry`.  `label` is the whole C array, so it always has
`LABEL_FIELD_LEN` bytes. -/
structure YkhsmauthListEntry where
  algo : UInt8
  touch : UInt8
  label : List UInt8
  label_length : label.length = LABEL_FIELD_LEN
  ctr : UInt8
  deriving DecidableEq

/-! ## The transport -/

/-- What `SCardTransmit` writes into a receive buffer of `cap` bytes: never
more than the buffer holds, since PC/SC fails the call instead. -/
structure Received (cap : Nat) where
  bytes : List UInt8
  fits : bytes.length ≤ cap
  deriving DecidableEq

/-- A protocol operation as the transport sees it.  `done` returns without
touching the card.  `transmit` sends `frame` with one `SCardTransmit` into a
receive buffer of `cap` bytes and continues with the outcome: `none` when the
call fails, otherwise the bytes it received. -/
inductive Exchange (α : Type) where
  | done (result : α)
  | transmit (frame : List UInt8) (cap : Nat) (next : Option (Received cap) → α)

namespace Exchange

variable {α : Type}

/-- Run an operation against a transport that answers every frame. -/
def run (t : (cap : Nat) → List UInt8 → Option (Received cap)) : Exchange α → α
  | done a => a
  | transmit frame cap next => next (t cap frame)

@[simp] theorem run_done (t : (cap : Nat) → List UInt8 → Option (Received cap)) (a : α) :
    (done a).run t = a := rfl

@[simp] theorem run_transmit (t : (cap : Nat) → List UInt8 → Option (Received cap))
    (frame : List UInt8) (cap : Nat) (next : Option (Received cap) → α) :
    (transmit frame cap next).run t = next (t cap frame) := rfl

end Exchange

/-! ## Bytes -/

@[simp] theorem toNat_toUInt8 (n : Nat) : n.toUInt8.toNat = n % 256 := rfl

theorem byte_lt (b : UInt8) : b.toNat < 256 := b.toNat_lt_size

@[simp] theorem toUInt8_toNat (b : UInt8) : b.toNat.toUInt8 = b :=
  UInt8.toNat.inj (by rw [toNat_toUInt8, Nat.mod_eq_of_lt (byte_lt b)])

/-- Reading past a prefix reads the rest. -/
theorem getD_append_length (payload rest : List UInt8) (i : Nat) :
    (payload ++ rest).getD (payload.length + i) 0 = rest.getD i 0 := by
  simp [List.getD_eq_getElem?_getD, List.getElem?_append_right]

/-! ## Writing into a byte region -/

/-- `memcpy(base + off, bytes, bytes.length)` on the region `mem` that starts
at `base`.  A write that runs past the end of `mem` extends it: the model
keeps the bytes that C would write past the array. -/
def writeAt (mem : List UInt8) (off : Nat) (bytes : List UInt8) : List UInt8 :=
  mem.take off ++ bytes ++ mem.drop (off + bytes.length)

theorem writeAt_length (mem : List UInt8) (off : Nat) (bytes : List UInt8)
    (h : off ≤ mem.length) :
    (writeAt mem off bytes).length = max mem.length (off + bytes.length) := by
  simp only [writeAt, List.length_append, List.length_take, List.length_drop]
  omega

/-- The bytes below the write are kept. -/
theorem take_writeAt (mem : List UInt8) (off : Nat) (bytes : List UInt8)
    (h : off ≤ mem.length) : (writeAt mem off bytes).take off = mem.take off := by
  simp [writeAt, List.take_append_eq_append_take, Nat.min_eq_left h]

/-- The written bytes sit at `off`. -/
theorem take_writeAt_end (mem : List UInt8) (off : Nat) (bytes : List UInt8)
    (h : off ≤ mem.length) :
    (writeAt mem off bytes).take (off + bytes.length) = mem.take off ++ bytes := by
  have hlen : (mem.take off).length = off := by simp [h]
  simp [writeAt, List.take_append_eq_append_take, hlen]

end Ykhsmauth
