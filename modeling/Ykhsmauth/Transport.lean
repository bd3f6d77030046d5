import Ykhsmauth.Apdu

/-!
# Status words and the exchange with the card

`send_data` hands the frame to `SCardTransmit`, splits the last two bytes of
the answer off as the status word, and leaves the rest of the answer in the
receive buffer.  `translate_error` maps a status word other than
`SW_SUCCESS` to a return code, and writes the retry counter of an
authentication failure through its `retries` pointer.

Eight of the ten commands follow `send_data` with the same two checks: a
transport failure is returned as it is, and a status word other than
`SW_SUCCESS` goes through `translate_error`.  `sendCommand` is that shared
shape, with the command's own decoding of a successful answer as a
parameter.  `ykhsmauth_reset` tests the status word before the transport
result and `ykhsmauth_get_version` folds the length of the answer into its
status test, so those two keep their own bodies in `Ykhsmauth.Commands`.

`sendCommand_cases` says once everything the shared shape can return;
`translateError_ne_success` and `translateError_retries` say what
`translate_error` can return.
-/

namespace Ykhsmauth

/-! ## `translate_error` -/

/-- `translate_error`.  `retries` is the cell behind the pointer, `none` for
`NULL`, and the result carries the cell after the call.  `sw & ~0xfff0` keeps
the low nibble of the 16-bit status word. -/
def translateError (h : Header) (sw : Nat) (retries : Option UInt8) :
    YkhsmauthRc × Option UInt8 :=
  if sw &&& 0xfff0 = h.SW_AUTHENTICATION_FAILED then
    (.wrongPw, retries.map fun _ => (sw &&& 0x000f).toUInt8)
  else if sw = h.SW_FILE_FULL then (.storageFull, retries)
  else if sw = h.SW_FILE_NOT_FOUND then (.entryNotFound, retries)
  else if sw = h.SW_WRONG_DATA then (.invalidParams, retries)
  else if sw = h.SW_MEMORY_ERROR then (.memoryError, retries)
  else if sw = h.SW_SECURITY_STATUS_NOT_SATISFIED then (.touchError, retries)
  else if sw = h.SW_FILE_INVALID then (.entryInvalid, retries)
  else if sw = h.SW_DATA_INVALID then (.dataInvalid, retries)
  else if sw = h.SW_INS_NOT_SUPPORTED then (.notSupported, retries)
  else (.genericError, retries)

/-- The authentication-failed class: `YKHSMAUTHR_WRONG_PW`, and the low
nibble of the status word through `retries`. -/
theorem translateError_auth (h : Header) (sw : Nat) (retries : Option UInt8)
    (hc : sw &&& 0xfff0 = h.SW_AUTHENTICATION_FAILED) :
    translateError h sw retries = (.wrongPw, retries.map fun _ => (sw % 16).toUInt8) := by
  have hmask : sw &&& 0x000f = sw % 16 := by simpa using Nat.and_pow_two_sub_one_eq_mod sw 4
  simp only [translateError, if_pos hc, hmask]

/-- Every other status word: an error other than `YKHSMAUTHR_WRONG_PW`, with
`*retries` untouched. -/
theorem translateError_not_auth (h : Header) (sw : Nat) (retries : Option UInt8)
    (hc : ¬ sw &&& 0xfff0 = h.SW_AUTHENTICATION_FAILED) :
    (translateError h sw retries).2 = retries ∧
      (translateError h sw retries).1 ∉ [.success, .pcscError, .wrongPw] := by
  simp only [translateError, if_neg hc]
  constructor
  · simp only [apply_ite Prod.snd, ite_self]
  · simp only [apply_ite Prod.fst,
      apply_ite (fun rc : YkhsmauthRc => rc ∉ [.success, .pcscError, .wrongPw])]
    simp

/-- `translate_error` reports an error and never a transport failure. -/
theorem translateError_ne (h : Header) (sw : Nat) (retries : Option UInt8) :
    (translateError h sw retries).1 ≠ .success ∧ (translateError h sw retries).1 ≠ .pcscError := by
  by_cases hc : sw &&& 0xfff0 = h.SW_AUTHENTICATION_FAILED
  · simp [translateError_auth h sw retries hc]
  · have := (translateError_not_auth h sw retries hc).2
    simp_all

theorem translateError_ne_success (h : Header) (sw : Nat) (retries : Option UInt8) :
    (translateError h sw retries).1 ≠ .success :=
  (translateError_ne h sw retries).1

/-- `translate_error` writes `*retries`, when the pointer is not `NULL`, only
for an authentication failure, and then writes the low nibble of the status
word. -/
theorem translateError_retries (h : Header) (sw : Nat) (retries : Option UInt8) :
    (translateError h sw retries).2 =
      if (translateError h sw retries).1 = YkhsmauthRc.wrongPw then
        retries.map fun _ => (sw % 16).toUInt8
      else retries := by
  by_cases hc : sw &&& 0xfff0 = h.SW_AUTHENTICATION_FAILED
  · simp [translateError_auth h sw retries hc]
  · obtain ⟨h2, h1⟩ := translateError_not_auth h sw retries hc
    simp_all

/-! ## `send_data` -/

/-- What `send_data` leaves to its caller: the return code, the status word,
the receive buffer and `recv_len` with the status word removed. -/
structure Sent where
  rc : YkhsmauthRc
  sw : Nat
  data : List UInt8
  recvLen : Nat

/-- `send_data`, from the outcome of its `SCardTransmit` on.  A failed
transmission leaves `*sw` at `0`; no caller reads the buffer then, and the
model leaves it empty.  An answer of fewer than two bytes has no status word
and also leaves `*sw` at `0`. -/
def sendData {cap : Nat} : Option (Received cap) → Sent
  | none => ⟨.pcscError, 0, [], cap⟩
  | some r =>
    if r.bytes.length ≥ 2 then
      ⟨.success,
        (r.bytes.getD (r.bytes.length - 2) 0).toNat <<< 8 ||| (r.bytes.getD (r.bytes.length - 1) 0).toNat,
        r.bytes, r.bytes.length - 2⟩
    else ⟨.success, 0, r.bytes, r.bytes.length⟩

@[simp] theorem sendData_none (cap : Nat) : sendData (none : Option (Received cap)) = ⟨.pcscError, 0, [], cap⟩ := rfl

/-- A received answer is a success of `send_data`. -/
theorem sendData_some_rc {cap : Nat} (r : Received cap) : (sendData (some r)).rc = .success := by
  simp only [sendData]; split_ifs <;> rfl

/-- Two status bytes after a payload: the payload stays in the buffer, its
length is `recv_len`, and the status word is the big-endian pair. -/
theorem sendData_payload {cap : Nat} (r : Received cap) (payload : List UInt8) (hi lo : UInt8)
    (h : r.bytes = payload ++ [hi, lo]) :
    sendData (some r) = ⟨.success, hi.toNat * 256 + lo.toNat, payload ++ [hi, lo], payload.length⟩ := by
  have hlo : lo.toNat < 2 ^ 8 := byte_lt lo
  have hsw : hi.toNat <<< 8 ||| lo.toNat = hi.toNat * 256 + lo.toNat := by
    rw [Nat.shiftLeft_eq, Nat.mul_comm, ← Nat.mul_add_lt_is_or hlo]
  have hidx1 : (payload ++ [hi, lo]).length - 2 = payload.length + 0 := by simp
  have hidx2 : (payload ++ [hi, lo]).length - 1 = payload.length + 1 := by simp
  have hlen : (payload ++ [hi, lo]).length ≥ 2 := by simp
  simp only [sendData, h, if_pos hlen, hidx1, hidx2, getD_append_length]
  simp [hsw]

/-! ## Transports -/

namespace Exchange

/-- The transport that fails every `SCardTransmit`. -/
def fail : (cap : Nat) → List UInt8 → Option (Received cap) :=
  fun _ _ => none

/-- The transport whose card answers `bytes` to every frame that fits. -/
def answer (bytes : List UInt8) : (cap : Nat) → List UInt8 → Option (Received cap) :=
  fun cap _ => if h : bytes.length ≤ cap then some ⟨bytes, h⟩ else none

end Exchange

/-! ## The shape of a command -/

variable {β : Type}

/-- Send `apdu`, return a transport failure as it is and a status word other
than `SW_SUCCESS` through `translate_error`, and decode a successful answer
with `finish`.  `retries` is what the command passes to `translate_error`,
and `fail` builds the caller's outputs on the error paths from the `*retries`
cell. -/
def sendCommand (h : Header) (apdu : Apdu) (cap : Nat) (retries : Option UInt8)
    (fail : Option UInt8 → β) (finish : Sent → YkhsmauthRc × β) :
    Exchange (YkhsmauthRc × β) :=
  .transmit apdu.raw cap fun r =>
    let s := sendData r
    if s.rc ≠ .success then (s.rc, fail retries)
    else if s.sw ≠ SW_SUCCESS then
      ((translateError h s.sw retries).1, fail (translateError h s.sw retries).2)
    else finish s

/-- Everything `sendCommand` can return for one outcome of the exchange: the
transport error, `translate_error` of a status word other than `SW_SUCCESS`,
or the decoding of an answer with status `SW_SUCCESS`. -/
theorem sendCommand_cases (h : Header) (apdu : Apdu) (cap : Nat) (retries : Option UInt8)
    (fail : Option UInt8 → β) (finish : Sent → YkhsmauthRc × β) :
    ∃ next, sendCommand h apdu cap retries fail finish = .transmit apdu.raw cap next ∧
      next none = (.pcscError, fail retries) ∧
      ∀ r : Received cap,
        ((sendData (some r)).sw ≠ SW_SUCCESS ∧
            next (some r) = ((translateError h (sendData (some r)).sw retries).1,
              fail (translateError h (sendData (some r)).sw retries).2)) ∨
          ((sendData (some r)).sw = SW_SUCCESS ∧ next (some r) = finish (sendData (some r))) := by
  refine ⟨_, rfl, rfl, fun r => ?_⟩
  simp only [sendData_some_rc, ne_eq, not_true_eq_false, if_false]
  by_cases hsw : (sendData (some r)).sw = SW_SUCCESS
  · exact .inr ⟨hsw, by simp [hsw]⟩
  · exact .inl ⟨hsw, by simp [hsw]⟩

/-- A failed `SCardTransmit` is returned as `YKHSMAUTHR_PCSC_ERROR` with the
outputs untouched. -/
@[simp] theorem sendCommand_run_fail (h : Header) (apdu : Apdu) (cap : Nat)
    (retries : Option UInt8) (fail : Option UInt8 → β) (finish : Sent → YkhsmauthRc × β) :
    (sendCommand h apdu cap retries fail finish).run Exchange.fail = (.pcscError, fail retries) :=
  rfl

/-- An answer of `payload` with status `SW_SUCCESS` that fits the buffer goes
to `finish` with `recv_len` the length of the payload. -/
theorem sendCommand_run_answer (h : Header) (apdu : Apdu) (cap : Nat) (retries : Option UInt8)
    (fail : Option UInt8 → β) (finish : Sent → YkhsmauthRc × β) (payload : List UInt8)
    (hcap : payload.length + 2 ≤ cap) :
    (sendCommand h apdu cap retries fail finish).run (Exchange.answer (payload ++ [0x90, 0x00])) =
      finish ⟨.success, SW_SUCCESS, payload ++ [0x90, 0x00], payload.length⟩ := by
  have hfit : (payload ++ [0x90, 0x00]).length ≤ cap := by simp; omega
  have hsd := sendData_payload ⟨payload ++ [0x90, 0x00], hfit⟩ payload 0x90 0x00 rfl
  simp only [sendCommand, Exchange.run_transmit, Exchange.answer, dif_pos hfit, hsd]
  rfl

end Ykhsmauth
