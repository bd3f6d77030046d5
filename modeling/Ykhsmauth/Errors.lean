import Ykhsmauth.ListKeys

/-!
# Return codes and outputs over every transport

The commands are run against every transport `t`: one that fails the
`SCardTransmit`, and one that answers any bytes at all, of any length and
with any status word.

* `sendCommand_run_cases` says once what the shared shape can return over a
  transport: the transport failure, `translate_error` of a status word
  other than `SW_SUCCESS`, or the command's decoding of a received answer
  whose status word is `SW_SUCCESS`.
* `ykhsmauthCalculate_outputs` and `getLabelData_outputs` say what the two
  commands with output buffers leave behind on every path.
* `getLabelData_run_answer` is the successful answer of `ykhsmauth_get_challenge`
  and `ykhsmauth_get_pubkey`: the whole payload is copied, whatever the
  caller declared.  `ykhsmauthGetChallenge_overrun` is that copy for a
  200-byte answer and a 65-byte buffer, with the read of the status word by
  `ykhsmauth_get_mgmkey_retries` on an empty payload.
* `ykhsmauthReset_transport_failure`: `ykhsmauth_reset` reads the status
  word of a failed transmission and returns `translate_error(0)`.
* `ReportsExchange` says what a return code tells the caller about the
  frame: `YKHSMAUTHR_PCSC_ERROR` exactly for a failed `SCardTransmit`, and
  `YKHSMAUTHR_SUCCESS` only after an answer with `SW_SUCCESS`.
  `sendCommand_reportsExchange` proves it once for the shared shape, and
  `commands_report_exchange` for every command but `ykhsmauth_reset`.
* `RetriesKept` says that `*retries` is written only with
  `YKHSMAUTHR_WRONG_PW`, to the low nibble of the card's status word;
  `sendCommand_retriesKept` proves it once, and `commands_write_retries` for
  every command that takes a `retries` pointer.
* `Exchange.Delivered` is the payload of an answer with `SW_SUCCESS`.
  `sendCommand_run_delivered` says that the shared shape decodes only
  delivered payloads, and from it: the entries `ykhsmauth_list_keys` leaves on
  any path come from records at the front of the delivered payload
  (`ykhsmauthListKeys_written_records`), `ykhsmauth_calculate` succeeds
  exactly for a delivered payload of three keys, which are that payload cut in
  three (`ykhsmauthCalculate_keys`), and `ykhsmauth_get_version` succeeds
  exactly for three delivered bytes, whose text it writes
  (`ykhsmauthGetVersion_text`).  `sendData_success` says that a delivered
  payload stands before the status bytes `0x90 0x00`: `ykhsmauth_get_challenge`
  and `ykhsmauth_get_pubkey` copy all of it, at most `254` bytes
  (`getLabelData_copies`), and `ykhsmauth_get_mgmkey_retries` reads its first
  byte, or the first status byte when it is empty
  (`ykhsmauthGetMgmkeyRetries_reads`).
-/

namespace Ykhsmauth

variable {β : Type}

/-! ## The shared shape over every transport -/

/-- `recv_len` never passes the bytes of an answer. -/
theorem sendData_recvLen_le {cap : Nat} (r : Received cap) :
    (sendData (some r)).recvLen ≤ (sendData (some r)).data.length := by
  simp only [sendData]
  split_ifs <;> simp

/-- Over any transport `sendCommand` returns the transport failure, or
`translate_error` of a status word other than `SW_SUCCESS`, or its decoding
of a received answer with status `SW_SUCCESS`. -/
theorem sendCommand_run_cases (h : Header) (apdu : Apdu) (cap : Nat) (retries : Option UInt8)
    (fail : Option UInt8 → β) (finish : Sent → YkhsmauthRc × β)
    (t : (cap : Nat) → List UInt8 → Option (Received cap)) :
    (sendCommand h apdu cap retries fail finish).run t = (.pcscError, fail retries) ∨
      (∃ sw, sw ≠ SW_SUCCESS ∧ (sendCommand h apdu cap retries fail finish).run t =
        ((translateError h sw retries).1, fail (translateError h sw retries).2)) ∨
      ∃ r : Received cap, (sendData (some r)).sw = SW_SUCCESS ∧
        (sendCommand h apdu cap retries fail finish).run t = finish (sendData (some r)) := by
  obtain ⟨next, heq, hnone, hsome⟩ := sendCommand_cases h apdu cap retries fail finish
  rw [heq, Exchange.run_transmit]
  cases t cap apdu.raw with
  | none => exact .inl hnone
  | some r =>
    rcases hsome r with ⟨hsw, hr⟩ | ⟨hsw, hr⟩
    · exact .inr (.inl ⟨_, hsw, hr⟩)
    · exact .inr (.inr ⟨r, hsw, hr⟩)

/-! ## `ykhsmauth_calculate` -/

/-- What a call of `ykhsmauth_calculate` may leave behind: the key buffers
are written only on success, with `YKHSMAUTH_SESSION_KEY_LEN` bytes each,
and `*retries` changes only with `YKHSMAUTHR_WRONG_PW`. -/
def CalculateLeaves (retries : Option UInt8) : YkhsmauthRc × CalculateOut → Prop
  | (rc, out) =>
    (rc ≠ .success → out.keys = none) ∧
      (∀ k ∈ out.keys, k.1.length = YKHSMAUTH_SESSION_KEY_LEN ∧
        k.2.1.length = YKHSMAUTH_SESSION_KEY_LEN ∧ k.2.2.length = YKHSMAUTH_SESSION_KEY_LEN) ∧
      (out.retries = retries ∨ rc = .wrongPw)

/-- An error that writes neither the keys nor `*retries`. -/
theorem calculateLeaves_error (retries : Option UInt8) (rc : YkhsmauthRc) :
    CalculateLeaves retries (rc, ⟨retries, none⟩) :=
  ⟨fun _ => rfl, by simp, .inl rfl⟩

/-- Over every transport and every argument tuple, `ykhsmauth_calculate`
writes the three key buffers only when it succeeds, then
`YKHSMAUTH_SESSION_KEY_LEN` bytes into each, and writes `*retries` only when
it returns `YKHSMAUTHR_WRONG_PW`. -/
theorem ykhsmauthCalculate_outputs (h : Header) (state : Option YkhsmauthState)
    (label context : Option (List UInt8)) (cardPubkey cardCrypto : OptBuf)
    (pw keySEnc keySMac keySRmac : Option (List UInt8)) (retries : Option UInt8)
    (t : (cap : Nat) → List UInt8 → Option (Received cap)) :
    CalculateLeaves retries ((ykhsmauthCalculate h state label context cardPubkey cardCrypto pw
      keySEnc keySMac keySRmac retries).run t) := by
  unfold ykhsmauthCalculate
  split
  · split_ifs
    · rcases sendCommand_run_cases h _ 256 retries _ _ t with hr | ⟨sw, -, hr⟩ | ⟨r, -, hr⟩ <;>
        rw [hr]
      · exact calculateLeaves_error retries _
      · refine ⟨fun _ => rfl, by simp, ?_⟩
        rw [translateError_retries]
        split_ifs with hpw
        · exact .inr hpw
        · exact .inl rfl
      · have hle := sendData_recvLen_le r
        split_ifs with h48
        · exact calculateLeaves_error retries _
        · refine ⟨fun hne => absurd rfl hne, fun k hk => ?_, .inl rfl⟩
          simp only [Option.mem_def, Option.some.injEq] at hk
          subst hk
          simp only [List.length_take, List.length_drop, YKHSMAUTH_SESSION_KEY_LEN] at h48 ⊢
          omega
    · exact calculateLeaves_error retries _
  · exact calculateLeaves_error retries _

/-! ## `ykhsmauth_get_challenge` and `ykhsmauth_get_pubkey` -/

/-- What a call of `getLabelData` may leave behind: an error writes neither
the buffer nor `*buf_len`. -/
def GetLabelDataLeaves (bufLen : Option Nat) :
    YkhsmauthRc × Option (List UInt8) × Option Nat → Prop
  | (rc, out, len) => rc ≠ .success → out = none ∧ len = bufLen

/-- Over every transport and every argument tuple, an error of
`ykhsmauth_get_challenge` or `ykhsmauth_get_pubkey` leaves the caller's
buffer and length cell untouched. -/
theorem getLabelData_outputs (h : Header) (ins : UInt8) (state : Option YkhsmauthState)
    (label buf : Option (List UInt8)) (bufLen : Option Nat)
    (t : (cap : Nat) → List UInt8 → Option (Received cap)) :
    GetLabelDataLeaves bufLen ((getLabelData h ins state label buf bufLen).run t) := by
  unfold getLabelData
  split
  · split_ifs
    · rcases sendCommand_run_cases h _ 256 none _ _ t with hr | ⟨sw, -, hr⟩ | ⟨r, -, hr⟩ <;>
        rw [hr]
      · exact fun _ => ⟨rfl, rfl⟩
      · exact fun _ => ⟨rfl, rfl⟩
      · exact fun hne => absurd rfl hne
    · exact fun _ => ⟨rfl, rfl⟩
  · exact fun _ => ⟨rfl, rfl⟩

/-- A successful answer whose payload fits the 256-byte receive buffer: the
whole payload is copied into the caller's buffer and its length into
`*buf_len`, with no comparison against the length the caller declared. -/
theorem getLabelData_run_answer (h : Header) (ins : UInt8) (st : YkhsmauthState)
    (label buf : List UInt8) (len : Nat) (hok : GetLabelDataArgsOk label len)
    (payload : List UInt8) (hcap : payload.length ≤ 254) :
    (getLabelData h ins (some st) (some label) (some buf) (some len)).run
        (Exchange.answer (payload ++ [0x90, 0x00])) =
      (.success, some payload, some payload.length) := by
  simp only [getLabelData, if_pos hok]
  rw [sendCommand_run_answer _ _ _ _ _ _ _ (by omega), List.take_left]

/-- A 65-byte challenge buffer and a card that answers 200 bytes:
`ykhsmauth_get_challenge` reports success, writes all 200 bytes and sets
`*challenge_len` to 200.  And `ykhsmauth_get_mgmkey_retries` on an empty
payload reads `data[0]`, which is the first status byte `0x90`. -/
theorem ykhsmauthGetChallenge_overrun (h : Header) (st : YkhsmauthState) :
    (ykhsmauthGetChallenge h (some st) (some [0x61]) (some (List.replicate 65 0)) (some 65)).run
        (Exchange.answer (List.replicate 200 7 ++ [0x90, 0x00])) =
      (.success, some (List.replicate 200 7), some 200) ∧
    (ykhsmauthGetMgmkeyRetries h (some st) (some 8)).run (Exchange.answer [0x90, 0x00]) =
      (.success, some 0x90) := by
  constructor
  · rw [ykhsmauthGetChallenge, getLabelData_run_answer _ _ _ _ _ _ (by decide) _
      (by rw [List.length_replicate]; decide), List.length_replicate]
  · simp only [ykhsmauthGetMgmkeyRetries]
    exact sendCommand_run_answer h _ 256 none _ _ [] (by decide)

/-! ## `ykhsmauth_reset` -/

/-- `ykhsmauth_reset` tests the status word before the result of
`send_data`.  A failed `SCardTransmit` leaves the status word at zero, so the
command returns `translate_error(0)`, which is never
`YKHSMAUTHR_PCSC_ERROR`. -/
theorem ykhsmauthReset_transport_failure (h : Header) (st : YkhsmauthState) :
    (ykhsmauthReset h (some st)).run Exchange.fail = (translateError h 0 none).1 ∧
      (ykhsmauthReset h (some st)).run Exchange.fail ≠ .pcscError := by
  have hrun : (ykhsmauthReset h (some st)).run Exchange.fail = (translateError h 0 none).1 := rfl
  exact ⟨hrun, hrun ▸ (translateError_ne h 0 none).2⟩

/-! ## What a return code says about the exchange -/

section Outcome

variable {α : Type} (t : (cap : Nat) → List UInt8 → Option (Received cap))

/-- The operation called `SCardTransmit` and the call failed. -/
def Exchange.TransmitFailed : Exchange α → Prop
  | .done _ => False
  | .transmit frame cap _ => t cap frame = none

/-- The operation called `SCardTransmit` and the card answered with status
word `sw`. -/
def Exchange.Answered (sw : Nat) : Exchange α → Prop
  | .done _ => False
  | .transmit frame cap _ => ∃ r, t cap frame = some r ∧ (sendData (some r)).sw = sw

/-- The operation called `SCardTransmit` and the card answered `SW_SUCCESS`
with `payload`: the receive buffer up to `recv_len`. -/
def Exchange.Delivered (payload : List UInt8) : Exchange α → Prop
  | .done _ => False
  | .transmit frame cap _ => ∃ r, t cap frame = some r ∧ (sendData (some r)).sw = SW_SUCCESS ∧
      (sendData (some r)).data.take (sendData (some r)).recvLen = payload

/-- The return code of an operation run over `t` tells the caller what
happened to its frame: `YKHSMAUTHR_PCSC_ERROR` exactly when the
`SCardTransmit` failed, and `YKHSMAUTHR_SUCCESS` only when the card answered
`SW_SUCCESS`. -/
def ReportsExchange (e : Exchange (YkhsmauthRc × β)) : Prop :=
  ((e.run t).1 = .pcscError ↔ e.TransmitFailed t) ∧
    ((e.run t).1 = .success → e.Answered t SW_SUCCESS)

/-- `*retries` after an operation, read by `out` from its outputs: as it
was, or, with `YKHSMAUTHR_WRONG_PW`, the low nibble of the card's status word
when that word is in the authentication-failed class. -/
def RetriesKept (h : Header) (e : Exchange (YkhsmauthRc × β)) (out : β → Option UInt8)
    (retries : Option UInt8) : Prop :=
  out (e.run t).2 = retries ∨
    (e.run t).1 = .wrongPw ∧ ∃ sw, e.Answered t sw ∧ sw &&& 0xfff0 = h.SW_AUTHENTICATION_FAILED ∧
      out (e.run t).2 = retries.map fun _ => (sw % 16).toUInt8

/-- An early return with an error other than `YKHSMAUTHR_PCSC_ERROR` reports
its exchange: there was none. -/
theorem reportsExchange_done (rc : YkhsmauthRc) (b : β) (h1 : rc ≠ .pcscError)
    (h2 : rc ≠ .success) : ReportsExchange t (.done (rc, b)) :=
  ⟨⟨fun h => absurd h h1, False.elim⟩, fun h => absurd h h2⟩

/-- The argument check of a command: the operation, or
`YKHSMAUTHR_INVALID_PARAMS` with outputs `b`. -/
theorem reportsExchange_guarded (p : Prop) [Decidable p] {e : Exchange (YkhsmauthRc × β)}
    (b : β) (he : ReportsExchange t e) :
    ReportsExchange t (if p then e else .done (.invalidParams, b)) := by
  split_ifs
  exacts [he, reportsExchange_done t _ b nofun nofun]

/-- The shared shape reports its exchange whenever the command's decoding of
a successful answer never returns `YKHSMAUTHR_PCSC_ERROR`. -/
theorem sendCommand_reportsExchange (h : Header) (apdu : Apdu) (cap : Nat)
    (retries : Option UInt8) (fail : Option UInt8 → β) (finish : Sent → YkhsmauthRc × β)
    (hfin : ∀ s, (finish s).1 ≠ .pcscError) :
    ReportsExchange t (sendCommand h apdu cap retries fail finish) := by
  obtain ⟨next, heq, hnone, hsome⟩ := sendCommand_cases h apdu cap retries fail finish
  rw [heq, ReportsExchange, Exchange.run_transmit]
  simp only [Exchange.TransmitFailed, Exchange.Answered]
  cases t cap apdu.raw with
  | none => exact ⟨iff_of_true (by rw [hnone]) rfl, fun hs => by rw [hnone] at hs; cases hs⟩
  | some r =>
    rcases hsome r with ⟨-, hr⟩ | ⟨hsw, hr⟩ <;> rw [hr]
    · have hne := translateError_ne h (sendData (some r)).sw retries
      exact ⟨iff_of_false hne.2 nofun, fun hs => absurd hs hne.1⟩
    · exact ⟨iff_of_false (hfin _) nofun, fun _ => ⟨r, rfl, hsw⟩⟩

/-- A `LIST` answer is never decoded into a transport failure. -/
theorem listKeysParse_ne_pcscError (h : Header) (cap : Option Nat) (items : Nat)
    (payload : List UInt8) : (listKeysParse h cap items payload).1 ≠ .pcscError := by
  unfold listKeysParse
  split
  · rename_i rc w hrun
    rcases listKeysLoop_fail h _ _ _ _ _ _ hrun with rfl | rfl <;> nofun
  · split <;> nofun

/-- Over every transport and every argument tuple, every command except
`ykhsmauth_reset` returns `YKHSMAUTHR_PCSC_ERROR` exactly when its
`SCardTransmit` fails, and `YKHSMAUTHR_SUCCESS` only when the card answered
`SW_SUCCESS`.  A status word other than `SW_SUCCESS` goes through
`translate_error`, which returns neither, and no decoding of an answer
returns `YKHSMAUTHR_PCSC_ERROR`. -/
theorem commands_report_exchange (h : Header) :
    (∀ state version len, ReportsExchange t (ykhsmauthGetVersion h state version len)) ∧
    (∀ state mgmkey label algo key cpw touchPolicy retries,
      ReportsExchange t (ykhsmauthPut h state mgmkey label algo key cpw touchPolicy retries)) ∧
    (∀ state mgmkey label retries,
      ReportsExchange t (ykhsmauthDelete h state mgmkey label retries)) ∧
    (∀ state label context cardPubkey cardCrypto pw keySEnc keySMac keySRmac retries,
      ReportsExchange t (ykhsmauthCalculate h state label context cardPubkey cardCrypto pw
        keySEnc keySMac keySRmac retries)) ∧
    (∀ state list listItems, ReportsExchange t (ykhsmauthListKeys h state list listItems)) ∧
    (∀ state label challenge challengeLen,
      ReportsExchange t (ykhsmauthGetChallenge h state label challenge challengeLen)) ∧
    (∀ state label pubkey pubkeyLen,
      ReportsExchange t (ykhsmauthGetPubkey h state label pubkey pubkeyLen)) ∧
    (∀ state retries, ReportsExchange t (ykhsmauthGetMgmkeyRetries h state retries)) ∧
    (∀ state mgmkey newMgmkey retries,
      ReportsExchange t (ykhsmauthPutMgmkey h state mgmkey newMgmkey retries)) := by
  have hgld : ∀ ins state label buf bufLen,
      ReportsExchange t (getLabelData h ins state label buf bufLen) := by
    intro ins state label buf bufLen
    unfold getLabelData
    split
    · exact reportsExchange_guarded t _ _ (sendCommand_reportsExchange t _ _ _ _ _ _ fun _ => nofun)
    · exact reportsExchange_done t _ _ nofun nofun
  refine ⟨?version, ?put, ?delete, ?calculate, ?list, fun _ _ _ _ => hgld _ _ _ _ _,
    fun _ _ _ _ => hgld _ _ _ _ _, ?retries, ?putMgmkey⟩
  case version =>
    intro state version len
    unfold ykhsmauthGetVersion
    split
    · rw [ReportsExchange, Exchange.run_transmit]
      simp only [Exchange.TransmitFailed, Exchange.Answered]
      cases hr : t 256 (Apdu.init h.YKHSMAUTH_INS_GET_VERSION 0 0).raw with
      | none => exact ⟨iff_of_true rfl rfl, nofun⟩
      | some r =>
        simp only [sendData_some_rc, ne_eq, not_true_eq_false, if_false]
        have hne := translateError_ne h (sendData (some r)).sw none
        split_ifs with hok
        · exact ⟨iff_of_false nofun nofun, fun _ => ⟨r, rfl, hok.1⟩⟩
        · exact ⟨iff_of_false hne.2 nofun, fun hs => absurd hs hne.1⟩
    · exact reportsExchange_done t _ _ nofun nofun
  case put =>
    intro state mgmkey label algo key cpw touchPolicy retries
    unfold ykhsmauthPut
    split
    · exact reportsExchange_guarded t _ _ (sendCommand_reportsExchange t _ _ _ _ _ _ fun _ => nofun)
    · exact reportsExchange_done t _ _ nofun nofun
  case delete =>
    intro state mgmkey label retries
    unfold ykhsmauthDelete
    split
    · exact reportsExchange_guarded t _ _ (sendCommand_reportsExchange t _ _ _ _ _ _ fun _ => nofun)
    · exact reportsExchange_done t _ _ nofun nofun
  case calculate =>
    intro state label context cardPubkey cardCrypto pw keySEnc keySMac keySRmac retries
    unfold ykhsmauthCalculate
    split
    · refine reportsExchange_guarded t _ _ (sendCommand_reportsExchange t _ _ _ _ _ _ fun s => ?_)
      dsimp only
      split <;> nofun
    · exact reportsExchange_done t _ _ nofun nofun
  case list =>
    intro state list listItems
    unfold ykhsmauthListKeys
    split
    · exact sendCommand_reportsExchange t _ _ _ _ _ _ fun _ => listKeysParse_ne_pcscError _ _ _ _
    · exact reportsExchange_done t _ _ nofun nofun
  case retries =>
    intro state retries
    unfold ykhsmauthGetMgmkeyRetries
    split
    · exact sendCommand_reportsExchange t _ _ _ _ _ _ fun _ => nofun
    · exact reportsExchange_done t _ _ nofun nofun
  case putMgmkey =>
    intro state mgmkey newMgmkey retries
    unfold ykhsmauthPutMgmkey
    split
    · exact reportsExchange_guarded t _ _ (sendCommand_reportsExchange t _ _ _ _ _ _ fun _ => nofun)
    · exact reportsExchange_done t _ _ nofun nofun

/-- The argument check of a command leaves `*retries` alone when it fails. -/
theorem retriesKept_guarded (h : Header) (p : Prop) [Decidable p] {e : Exchange (YkhsmauthRc × β)}
    (b : β) (out : β → Option UInt8) (retries : Option UInt8) (hb : out b = retries)
    (he : RetriesKept t h e out retries) :
    RetriesKept t h (if p then e else .done (.invalidParams, b)) out retries := by
  split_ifs
  exacts [he, .inl hb]

/-- The shared shape writes `*retries` only through `translate_error`, when
the decoding of a successful answer leaves it alone. -/
theorem sendCommand_retriesKept (h : Header) (apdu : Apdu) (cap : Nat) (retries : Option UInt8)
    (fail : Option UInt8 → β) (finish : Sent → YkhsmauthRc × β) (out : β → Option UInt8)
    (hfail : ∀ r, out (fail r) = r) (hfin : ∀ s, out (finish s).2 = retries) :
    RetriesKept t h (sendCommand h apdu cap retries fail finish) out retries := by
  obtain ⟨next, heq, hnone, hsome⟩ := sendCommand_cases h apdu cap retries fail finish
  rw [heq, RetriesKept, Exchange.run_transmit]
  simp only [Exchange.Answered]
  cases t cap apdu.raw with
  | none => exact .inl (by rw [hnone, hfail])
  | some r =>
    rcases hsome r with ⟨-, hr⟩ | ⟨-, hr⟩ <;> rw [hr]
    · by_cases hc : (sendData (some r)).sw &&& 0xfff0 = h.SW_AUTHENTICATION_FAILED
      · rw [translateError_auth h _ retries hc, hfail]
        exact .inr ⟨rfl, _, ⟨r, rfl, rfl⟩, hc, rfl⟩
      · exact .inl (by rw [hfail, (translateError_not_auth h _ retries hc).1])
    · exact .inl (hfin _)

/-- Over every transport and every argument tuple, `ykhsmauth_put`,
`ykhsmauth_delete`, `ykhsmauth_put_mgmkey` and `ykhsmauth_calculate` write
`*retries` only when they return `YKHSMAUTHR_WRONG_PW`, and then write the low
nibble of the card's status word, which is in the authentication-failed
class.  `ykhsmauth_get_mgmkey_retries` writes it only when it succeeds. -/
theorem commands_write_retries (h : Header) :
    (∀ state mgmkey label algo key cpw touchPolicy retries,
      RetriesKept t h (ykhsmauthPut h state mgmkey label algo key cpw touchPolicy retries) id
        retries) ∧
    (∀ state mgmkey label retries,
      RetriesKept t h (ykhsmauthDelete h state mgmkey label retries) id retries) ∧
    (∀ state mgmkey newMgmkey retries,
      RetriesKept t h (ykhsmauthPutMgmkey h state mgmkey newMgmkey retries) id retries) ∧
    (∀ state label context cardPubkey cardCrypto pw keySEnc keySMac keySRmac retries,
      RetriesKept t h (ykhsmauthCalculate h state label context cardPubkey cardCrypto pw
        keySEnc keySMac keySRmac retries) CalculateOut.retries retries) ∧
    (∀ state retries, ((ykhsmauthGetMgmkeyRetries h state retries).run t).2 = retries ∨
      ((ykhsmauthGetMgmkeyRetries h state retries).run t).1 = .success) := by
  refine ⟨?put, ?delete, ?putMgmkey, ?calculate, ?getRetries⟩
  case put =>
    intro state mgmkey label algo key cpw touchPolicy retries
    unfold ykhsmauthPut
    split
    · exact retriesKept_guarded t h _ _ id retries rfl
        (sendCommand_retriesKept t h _ _ _ _ _ id (fun _ => rfl) fun _ => rfl)
    · exact .inl rfl
  case delete =>
    intro state mgmkey label retries
    unfold ykhsmauthDelete
    split
    · exact retriesKept_guarded t h _ _ id retries rfl
        (sendCommand_retriesKept t h _ _ _ _ _ id (fun _ => rfl) fun _ => rfl)
    · exact .inl rfl
  case putMgmkey =>
    intro state mgmkey newMgmkey retries
    unfold ykhsmauthPutMgmkey
    split
    · exact retriesKept_guarded t h _ _ id retries rfl
        (sendCommand_retriesKept t h _ _ _ _ _ id (fun _ => rfl) fun _ => rfl)
    · exact .inl rfl
  case calculate =>
    intro state label context cardPubkey cardCrypto pw keySEnc keySMac keySRmac retries
    unfold ykhsmauthCalculate
    split
    · refine retriesKept_guarded t h _ _ CalculateOut.retries retries rfl
        (sendCommand_retriesKept t h _ _ _ _ _ _ (fun _ => rfl) fun s => ?_)
      dsimp only
      split <;> rfl
    · exact .inl rfl
  case getRetries =>
    intro state retries
    unfold ykhsmauthGetMgmkeyRetries
    split
    · rcases sendCommand_run_cases h _ 256 none _ _ t with hr | ⟨sw, -, hr⟩ | ⟨r, -, hr⟩ <;> rw [hr]
      · exact .inl rfl
      · exact .inl rfl
      · exact .inr rfl
    · exact .inl rfl

/-! ## What the card delivered -/

/-- Over any transport the shared shape either takes an error path, which
returns no success and builds its outputs with `fail`, or decodes an answer
it was delivered, with `recv_len` within the answer. -/
theorem sendCommand_run_delivered (h : Header) (apdu : Apdu) (cap : Nat) (retries : Option UInt8)
    (fail : Option UInt8 → β) (finish : Sent → YkhsmauthRc × β) :
    (∃ r, ((sendCommand h apdu cap retries fail finish).run t).1 ≠ .success ∧
        ((sendCommand h apdu cap retries fail finish).run t).2 = fail r) ∨
      ∃ s : Sent, s.recvLen ≤ s.data.length ∧
        (sendCommand h apdu cap retries fail finish).Delivered t (s.data.take s.recvLen) ∧
        (sendCommand h apdu cap retries fail finish).run t = finish s := by
  obtain ⟨next, heq, hnone, hsome⟩ := sendCommand_cases h apdu cap retries fail finish
  rw [heq, Exchange.run_transmit]
  simp only [Exchange.Delivered]
  cases t cap apdu.raw with
  | none => exact .inl ⟨retries, by rw [hnone]; nofun, by rw [hnone]⟩
  | some r =>
    rcases hsome r with ⟨-, hn⟩ | ⟨hsw, hn⟩ <;> rw [hn]
    · exact .inl ⟨_, (translateError_ne h _ retries).1, rfl⟩
    · exact .inr ⟨_, sendData_recvLen_le r, ⟨r, rfl, hsw, rfl⟩, rfl⟩

/-- An answer with status `SW_SUCCESS` is a payload followed by the status
bytes `0x90 0x00`, and `send_data` hands back the payload's length as
`recv_len`. -/
theorem sendData_success {cap : Nat} (r : Received cap)
    (hsw : (sendData (some r)).sw = SW_SUCCESS) :
    ∃ payload, r.bytes = payload ++ [0x90, 0x00] ∧
      sendData (some r) = ⟨.success, SW_SUCCESS, payload ++ [0x90, 0x00], payload.length⟩ := by
  have h2 : 2 ≤ r.bytes.length := by
    by_contra hlt
    rw [sendData, if_neg hlt] at hsw
    exact absurd hsw (by simp [SW_SUCCESS])
  obtain ⟨hi, lo, hsw2⟩ := List.length_eq_two.mp
    (show (r.bytes.drop (r.bytes.length - 2)).length = 2 by rw [List.length_drop]; omega)
  have hb : r.bytes = r.bytes.take (r.bytes.length - 2) ++ [hi, lo] := by
    rw [← hsw2, List.take_append_drop]
  rw [sendData_payload r _ hi lo hb] at hsw ⊢
  have hlo := byte_lt lo
  dsimp only [SW_SUCCESS] at hsw
  obtain rfl : hi = 0x90 := UInt8.toNat.inj (show hi.toNat = 144 by omega)
  obtain rfl : lo = 0x00 := UInt8.toNat.inj (show lo.toNat = 0 by omega)
  exact ⟨_, hb, rfl⟩

/-- A delivered payload is decoded by `finish`: `send_data` left it in the
buffer before the status bytes, with `recv_len` its length, and it fits the
receive buffer with them. -/
theorem sendCommand_run_of_delivered (h : Header) (apdu : Apdu) (cap : Nat)
    (retries : Option UInt8) (fail : Option UInt8 → β) (finish : Sent → YkhsmauthRc × β)
    {payload : List UInt8} (hd : (sendCommand h apdu cap retries fail finish).Delivered t payload) :
    ∃ s : Sent, s.data = payload ++ [0x90, 0x00] ∧ s.recvLen = payload.length ∧
      payload.length + 2 ≤ cap ∧ (sendCommand h apdu cap retries fail finish).run t = finish s := by
  obtain ⟨next, heq, -, hsome⟩ := sendCommand_cases h apdu cap retries fail finish
  rw [heq] at hd ⊢
  obtain ⟨r, hr, hsw, hp⟩ := hd
  obtain ⟨p, hb, hsd⟩ := sendData_success r hsw
  rw [hsd, List.take_left] at hp
  subst hp
  refine ⟨⟨.success, SW_SUCCESS, p ++ [0x90, 0x00], p.length⟩, rfl, rfl,
    by simpa [hb] using r.fits, ?_⟩
  rw [Exchange.run_transmit, hr]
  rcases hsome r with ⟨hne, -⟩ | ⟨-, hn⟩
  exacts [absurd hsw hne, hsd ▸ hn]

/-- A shared shape whose decoding always succeeds succeeds exactly for a
delivered payload. -/
theorem sendCommand_success_iff (h : Header) (apdu : Apdu) (cap : Nat)
    (retries : Option UInt8) (fail : Option UInt8 → β) (finish : Sent → YkhsmauthRc × β)
    (hfin : ∀ s, (finish s).1 = .success) :
    ((sendCommand h apdu cap retries fail finish).run t).1 = .success ↔
      ∃ payload, (sendCommand h apdu cap retries fail finish).Delivered t payload := by
  refine ⟨fun hs => ?_, fun ⟨_, hd⟩ => ?_⟩
  · rcases sendCommand_run_delivered t h apdu cap retries fail finish with
      ⟨r, hne, -⟩ | ⟨s, -, hd, -⟩
    exacts [absurd hs hne, ⟨_, hd⟩]
  · obtain ⟨s, -, -, -, hrun⟩ := sendCommand_run_of_delivered t h apdu cap retries fail finish hd
    rw [hrun, hfin]

/-- Over every transport and every `*list_items`, whatever
`ykhsmauth_list_keys` returns, the entries it wrote into `list` are those of
well-formed records whose encodings begin the answer the card delivered: an
error part-way through the answer leaves only entries decoded from it. -/
theorem ykhsmauthListKeys_written_records (h : Header) (state : Option YkhsmauthState)
    (list : List YkhsmauthListEntry) (items : Nat) :
    ∃ rs : List ListRecord,
      ((ykhsmauthListKeys h state (some list) (some items)).run t).2.1 =
        rs.map ListRecord.toEntry ∧
      (rs = [] ∨ ∃ payload, (ykhsmauthListKeys h state (some list) (some items)).Delivered t payload ∧
        encodeList h rs <+: payload) := by
  cases state with
  | none => exact ⟨[], rfl, .inl rfl⟩
  | some st =>
    simp only [ykhsmauthListKeys]
    rcases sendCommand_run_delivered t h _ 1024 none _ _ with ⟨r, -, hfail⟩ | ⟨s, -, hd, hrun⟩
    · exact ⟨[], by rw [hfail]; rfl, .inl rfl⟩
    · obtain ⟨rs, hpre, hw⟩ := listKeysLoop_written_records h items (s.data.take s.recvLen) 0 []
      refine ⟨rs, ?_, .inr ⟨_, hd, hpre⟩⟩
      rw [hrun, Option.map_some', listKeysParse_written, hw, List.nil_append]

/-- What `ykhsmauth_calculate` decodes: it succeeds exactly when the card
delivered `3 * YKHSMAUTH_SESSION_KEY_LEN` bytes, and the keys it writes are
what the card delivered, cut in three. -/
def KeysDelivered (e : Exchange (YkhsmauthRc × CalculateOut)) : Prop :=
  ((e.run t).1 = .success ↔
      ∃ payload, e.Delivered t payload ∧ payload.length = 3 * YKHSMAUTH_SESSION_KEY_LEN) ∧
    ∀ enc mac rmac, (e.run t).2.keys = some (enc, mac, rmac) → e.Delivered t (enc ++ mac ++ rmac)

/-- An error before the exchange delivers nothing and writes no key. -/
theorem keysDelivered_done (retries : Option UInt8) (rc : YkhsmauthRc) (hrc : rc ≠ .success) :
    KeysDelivered t (.done (rc, ⟨retries, none⟩)) :=
  ⟨iff_of_false hrc fun ⟨_, hd, _⟩ => hd, fun _ _ _ => nofun⟩

/-- The three keys `ykhsmauth_calculate` copies out of an answer are, end to
end, its first `3 * YKHSMAUTH_SESSION_KEY_LEN` bytes. -/
theorem sessionKeys_append (data : List UInt8) :
    data.take YKHSMAUTH_SESSION_KEY_LEN ++
        (data.drop YKHSMAUTH_SESSION_KEY_LEN).take YKHSMAUTH_SESSION_KEY_LEN ++
        (data.drop (2 * YKHSMAUTH_SESSION_KEY_LEN)).take YKHSMAUTH_SESSION_KEY_LEN =
      data.take (3 * YKHSMAUTH_SESSION_KEY_LEN) := by
  rw [show 3 * YKHSMAUTH_SESSION_KEY_LEN = 2 * YKHSMAUTH_SESSION_KEY_LEN + YKHSMAUTH_SESSION_KEY_LEN
    by omega, List.take_add, Nat.two_mul, List.take_add]

/-- Over every transport and every argument tuple, `ykhsmauth_calculate`
succeeds exactly when it sent its frame and the card answered `SW_SUCCESS`
with `3 * YKHSMAUTH_SESSION_KEY_LEN` bytes, and the keys it writes are those
bytes cut in three, in the order `key_s_enc`, `key_s_mac`, `key_s_rmac`. -/
theorem ykhsmauthCalculate_keys (h : Header) (state : Option YkhsmauthState)
    (label context : Option (List UInt8)) (cardPubkey cardCrypto : OptBuf)
    (pw keySEnc keySMac keySRmac : Option (List UInt8)) (retries : Option UInt8) :
    KeysDelivered t (ykhsmauthCalculate h state label context cardPubkey cardCrypto pw
      keySEnc keySMac keySRmac retries) := by
  unfold ykhsmauthCalculate
  split
  · split_ifs
    · refine ⟨⟨fun hs => ?success, fun ⟨payload, hd, hlen⟩ => ?delivered⟩, fun enc mac rmac hk => ?keys⟩
      case success =>
        rcases sendCommand_run_delivered t h _ 256 retries _ _ with ⟨r, hne, -⟩ | ⟨s, hle, hd, hrun⟩
        · exact absurd hs hne
        · rw [hrun] at hs
          split_ifs at hs with h48
          exact ⟨_, hd, by rw [List.length_take, min_eq_left hle]; exact not_not.mp h48⟩
      case delivered =>
        obtain ⟨s, -, hs, -, hrun⟩ := sendCommand_run_of_delivered t h _ 256 retries _ _ hd
        rw [hrun, if_neg (not_not.mpr (hs.trans hlen))]
      case keys =>
        rcases sendCommand_run_delivered t h _ 256 retries _ _ with ⟨r, -, hfail⟩ | ⟨s, -, hd, hrun⟩
        · rw [hfail] at hk
          cases hk
        · rw [hrun] at hk
          split_ifs at hk with h48
          simp only [Option.some.injEq, Prod.mk.injEq] at hk
          obtain ⟨rfl, rfl, rfl⟩ := hk
          rwa [sessionKeys_append, ← not_not.mp h48]
    · exact keysDelivered_done t retries _ nofun
  · exact keysDelivered_done t retries _ nofun

/-- Over every transport and every argument tuple, `ykhsmauth_get_challenge`
and `ykhsmauth_get_pubkey` succeed exactly when the card delivered a payload.
They then copy the whole payload into the caller's buffer and its length into
`*buf_len`, whatever length the caller declared: at most `254` bytes, the
receive buffer less the status word. -/
theorem getLabelData_copies (h : Header) (ins : UInt8) (state : Option YkhsmauthState)
    (label buf : Option (List UInt8)) (bufLen : Option Nat) :
    (((getLabelData h ins state label buf bufLen).run t).1 = .success ↔
      ∃ payload, (getLabelData h ins state label buf bufLen).Delivered t payload) ∧
    ∀ payload, (getLabelData h ins state label buf bufLen).Delivered t payload →
      payload.length ≤ 254 ∧
      (getLabelData h ins state label buf bufLen).run t = (.success, some payload, some payload.length) := by
  unfold getLabelData
  split
  · split_ifs
    · refine ⟨sendCommand_success_iff t h _ 256 none _ _ fun _ => rfl, fun payload hd => ?_⟩
      obtain ⟨s, hdata, hlen, hcap, hrun⟩ := sendCommand_run_of_delivered t h _ 256 none _ _ hd
      refine ⟨by omega, ?_⟩
      rw [hrun, hdata, hlen, List.take_left]
    · exact ⟨iff_of_false nofun fun ⟨_, hd⟩ => hd, fun _ => nofun⟩
  · exact ⟨iff_of_false nofun fun ⟨_, hd⟩ => hd, fun _ => nofun⟩

/-- Over every transport, `ykhsmauth_get_mgmkey_retries` succeeds exactly when
the card delivered a payload, and `*retries` is then the payload's first byte,
or `0x90`, the first status byte, when the payload is empty. -/
theorem ykhsmauthGetMgmkeyRetries_reads (h : Header) (state : Option YkhsmauthState)
    (retries : Option UInt8) :
    (((ykhsmauthGetMgmkeyRetries h state retries).run t).1 = .success ↔
      ∃ payload, (ykhsmauthGetMgmkeyRetries h state retries).Delivered t payload) ∧
    ∀ payload, (ykhsmauthGetMgmkeyRetries h state retries).Delivered t payload →
      ((ykhsmauthGetMgmkeyRetries h state retries).run t).2 = some (payload.headD 0x90) := by
  unfold ykhsmauthGetMgmkeyRetries
  split
  · refine ⟨sendCommand_success_iff t h _ 256 none _ _ fun _ => rfl, fun payload hd => ?_⟩
    obtain ⟨s, hdata, -, -, hrun⟩ := sendCommand_run_of_delivered t h _ 256 none _ _ hd
    rw [hrun, hdata]
    cases payload <;> rfl
  · exact ⟨iff_of_false nofun fun ⟨_, hd⟩ => hd, fun _ => nofun⟩

end Outcome

end Ykhsmauth
