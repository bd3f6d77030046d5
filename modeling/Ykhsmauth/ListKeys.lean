import Ykhsmauth.Commands

/-!
# `ykhsmauth_list_keys`

The answer to `LIST` is a run of records `[tag, len, algo, touch] ++ label ++
[ctr]` with `len = 3 + |label|`.  The parse loop walks the receive buffer
with a cursor `i`.  With `list != NULL` it checks the capacity, the record's
length against the bytes left, and the label against the array of the entry,
and copies the record into `list[element]`.  With `list == NULL` it only
counts, skipping `len` bytes per record.  After the loop it stores the count
in `*list_items`, and fails when the cursor is not exactly at the end.

`listKeysLoop` is the loop over the bytes from the cursor to `recv_len`; the
loop reads nothing past `recv_len`, so its input is the payload.

What the loop does with one well-formed record is said once, by
`listKeysLoop_record` (filling), `listKeysLoop_record_count` (counting) and
`listKeysLoop_record_full` (no room left).  The runs over a list of records
follow by induction.  Back the other way, `listKeysLoop_accepted_record`
says that the bytes one filling step accepts are one well-formed record, and
`listKeysLoop_sound` reads the records back out of any payload the filling
loop accepts.

The two calls a caller makes, counting and then filling, are related on
every payload by `listKeysLoop_fill_of_count` and
`listKeysLoop_count_of_fill`, and `ykhsmauthListKeys_run_cases` says that over
any transport both calls decode the same payload.  From these,
`ykhsmauthListKeys_fill_of_count` and `ykhsmauthListKeys_count_of_fill` say
that the two calls agree up to `YKHSMAUTHR_GENERIC_ERROR`, and
`ykhsmauthListKeys_written_le` that no call writes more than `*list_items`
entries.
-/

namespace Ykhsmauth

/-! ## The label array -/

/-- `memset(label, 0, sizeof(label))` and then `memcpy(label, bytes, n)`. -/
def labelField (bytes : List UInt8) : List UInt8 :=
  writeAt (List.replicate LABEL_FIELD_LEN 0) 0 bytes

theorem labelField_length {bytes : List UInt8} (h : bytes.length ≤ LABEL_FIELD_LEN) :
    (labelField bytes).length = LABEL_FIELD_LEN := by
  rw [labelField, writeAt_length _ _ _ (Nat.zero_le _), List.length_replicate]
  omega

/-- The label array holds the copied bytes and zeros after them. -/
theorem labelField_eq (bytes : List UInt8) :
    labelField bytes = bytes ++ List.replicate (LABEL_FIELD_LEN - bytes.length) 0 := by
  simp [labelField, writeAt, List.drop_replicate]

/-! ## The parse loop -/

/-- The entry stored for a record whose bytes after tag and length byte are
`body`: algorithm, touch policy, `len - 3` label bytes over the zeroed array,
and the counter. -/
def listEntry (body : List UInt8) (len : Nat) (hlen : len - 3 ≤ LABEL_FIELD_LEN) :
    YkhsmauthListEntry where
  algo := body.getD 0 0
  touch := body.getD 1 0
  label := labelField ((body.drop 2).take (len - 3))
  label_length := labelField_length (by simp only [List.length_take]; omega)
  ctr := body.getD (len - 1) 0

/-- How the parse loop ends: a `return` from inside the loop, or the guard
`i + 1 < recv_len` failing with `element` records counted and `atEnd` telling
whether `i == recv_len`. -/
inductive ListKeysExit where
  | fail (rc : YkhsmauthRc)
  | done (element : Nat) (atEnd : Bool)
  deriving DecidableEq, Repr

/-- The parse loop of `ykhsmauth_list_keys` over the bytes from the cursor to
`recv_len`.  `cap` is `*list_items` when `list != NULL` and `none` when
counting; `written` is `list[0 .. element)`.  A counting step past the end
leaves the cursor beyond `recv_len`, which ends the loop away from the
end. -/
def listKeysLoop (h : Header) (cap : Option Nat) :
    List UInt8 → Nat → List YkhsmauthListEntry → ListKeysExit × List YkhsmauthListEntry
  | tag :: len :: rest, element, written =>
    if tag = h.YKHSMAUTH_TAG_LABEL_LIST then
      match cap with
      | some c =>
        if element ≥ c then (.fail .memoryError, written)
        else if hbad : rest.length < len.toNat ∨ len.toNat < 3 ∨ len.toNat - 3 > LABEL_FIELD_LEN then
          (.fail .genericError, written)
        else
          listKeysLoop h cap (rest.drop len.toNat) (element + 1)
            (written ++ [listEntry rest len.toNat (by omega)])
      | none =>
        if len.toNat ≤ rest.length then
          listKeysLoop h cap (rest.drop len.toNat) (element + 1) written
        else (.done (element + 1) false, written)
    else (.fail .genericError, written)
  | rest, element, written => (.done element rest.isEmpty, written)
termination_by bytes => bytes.length

/-- The decoding that follows a `SW_SUCCESS` answer: a `return` from the
loop leaves `*list_items` alone, and the end of the loop stores the count
before testing the cursor. -/
def listKeysParse (h : Header) (cap : Option Nat) (listItems : Nat) (payload : List UInt8) :
    YkhsmauthRc × List YkhsmauthListEntry × Option Nat :=
  match listKeysLoop h cap payload 0 [] with
  | (.fail rc, written) => (rc, written, some listItems)
  | (.done element atEnd, written) =>
    (if atEnd then .success else .genericError, written, some element)

/-- `ykhsmauth_list_keys`.  `list` is the caller's array, `none` for `NULL`;
the outputs are the entries written into `list[0 ..)` and `*list_items`. -/
def ykhsmauthListKeys (h : Header) (state : Option YkhsmauthState)
    (list : Option (List YkhsmauthListEntry)) (listItems : Option Nat) :
    Exchange (YkhsmauthRc × List YkhsmauthListEntry × Option Nat) :=
  match state, listItems with
  | some _, some items =>
    sendCommand h (Apdu.init h.YKHSMAUTH_INS_LIST 0 0) 1024 none (fun _ => ([], listItems))
      fun s => listKeysParse h (list.map fun _ => items) items (s.data.take s.recvLen)
  | _, _ => .done (.invalidParams, [], listItems)

/-- An answer of `payload` with status `SW_SUCCESS` is parsed as it is. -/
theorem ykhsmauthListKeys_run_answer (h : Header) (st : YkhsmauthState)
    (list : Option (List YkhsmauthListEntry)) (items : Nat) (payload : List UInt8)
    (hp : payload.length ≤ 1022) :
    (ykhsmauthListKeys h (some st) list (some items)).run
        (Exchange.answer (payload ++ [0x90, 0x00])) =
      listKeysParse h (list.map fun _ => items) items payload := by
  simp only [ykhsmauthListKeys]
  rw [sendCommand_run_answer _ _ _ _ _ _ _ (by omega), List.take_left]

/-! ## Well-formed records -/

/-- A credential as a `LIST` answer describes it.  Its label fits the label
array of an entry. -/
structure ListRecord where
  algo : UInt8
  touch : UInt8
  label : List UInt8
  label_le : label.length ≤ LABEL_FIELD_LEN
  ctr : UInt8

/-- The bytes of one record: `[tag, 3 + |label|, algo, touch] ++ label ++
[ctr]`. -/
def ListRecord.encode (h : Header) (r : ListRecord) : List UInt8 :=
  h.YKHSMAUTH_TAG_LABEL_LIST :: (3 + r.label.length).toUInt8 :: (r.algo :: r.touch :: (r.label ++ [r.ctr]))

/-- The bytes of a run of records. -/
def encodeList (h : Header) (rs : List ListRecord) : List UInt8 :=
  (rs.map (ListRecord.encode h)).flatten

@[simp] theorem encodeList_nil (h : Header) : encodeList h [] = [] := rfl

@[simp] theorem encodeList_cons (h : Header) (r : ListRecord) (rs : List ListRecord) :
    encodeList h (r :: rs) = r.encode h ++ encodeList h rs := rfl

/-- The entry a record should become: its fields, and its label zero-filled
to the array. -/
def ListRecord.toEntry (r : ListRecord) : YkhsmauthListEntry :=
  ⟨r.algo, r.touch, r.label ++ List.replicate (LABEL_FIELD_LEN - r.label.length) 0,
    by simp only [List.length_append, List.length_replicate]; have := r.label_le; omega, r.ctr⟩

/-- The length byte of a record is `3 + |label|`. -/
theorem ListRecord.len_toNat (r : ListRecord) :
    (3 + r.label.length).toUInt8.toNat = 3 + r.label.length := by
  have := r.label_le
  rw [LABEL_FIELD_LEN_eq] at this
  rw [toNat_toUInt8, Nat.mod_eq_of_lt (by omega)]

/-- The loop copies a well-formed record into the entry it should become. -/
theorem listEntry_record (r : ListRecord) (q : List UInt8) (hlen) :
    listEntry (r.algo :: r.touch :: (r.label ++ [r.ctr]) ++ q) (3 + r.label.length) hlen =
      r.toEntry := by
  have hctr : (r.algo :: r.touch :: (r.label ++ [r.ctr]) ++ q).getD (3 + r.label.length - 1) 0 =
      r.ctr := by
    rw [show 3 + r.label.length - 1 = r.label.length + 0 + 1 + 1 by omega]
    simp only [List.cons_append, List.getD_cons_succ, List.append_assoc, List.singleton_append,
      List.nil_append]
    simpa using getD_append_length r.label (r.ctr :: q) 0
  simp only [listEntry, ListRecord.toEntry, hctr, YkhsmauthListEntry.mk.injEq]
  simp [List.take_left', labelField_eq]

/-! ## One record -/

section Record

variable (h : Header) (r : ListRecord) (q : List UInt8) (element : Nat)
  (written : List YkhsmauthListEntry)

/-- With room left, a well-formed record is copied into `list[element]`. -/
theorem listKeysLoop_record (c : Nat) (hc : element < c) :
    listKeysLoop h (some c) (r.encode h ++ q) element written =
      listKeysLoop h (some c) q (element + 1) (written ++ [r.toEntry]) := by
  have hl := r.label_le
  have hlen := r.len_toNat
  simp only [ListRecord.encode, List.cons_append, listKeysLoop, if_true,
    if_neg (show ¬ element ≥ c by omega)]
  rw [dif_neg (by simp [hlen]; omega)]
  simp only [hlen, Nat.add_sub_cancel_left]
  rw [← listEntry_record r q (by omega)]
  simp only [← List.cons_append]
  rw [List.drop_left' (by simp; omega)]

/-- Counting skips a well-formed record. -/
theorem listKeysLoop_record_count :
    listKeysLoop h none (r.encode h ++ q) element written =
      listKeysLoop h none q (element + 1) written := by
  have hlen := r.len_toNat
  simp only [ListRecord.encode, List.cons_append, listKeysLoop, if_true]
  rw [if_pos (by simp [hlen]; omega), hlen, ← List.cons_append, ← List.cons_append,
    List.drop_left' (by simp; omega)]

/-- With no room left, a record is `YKHSMAUTHR_MEMORY_ERROR`. -/
theorem listKeysLoop_record_full (c : Nat) (hc : c ≤ element) :
    listKeysLoop h (some c) (r.encode h ++ q) element written = (.fail .memoryError, written) := by
  simp only [ListRecord.encode, List.cons_append, listKeysLoop, if_true,
    if_pos (show element ≥ c by omega)]

end Record

/-! ## Runs of records -/

@[simp] theorem listKeysLoop_nil (h : Header) (cap : Option Nat) (element : Nat)
    (written : List YkhsmauthListEntry) :
    listKeysLoop h cap [] element written = (.done element true, written) := by
  rw [listKeysLoop]
  · rfl
  · simp

/-- A single byte left is not a record: the loop ends away from the end. -/
@[simp] theorem listKeysLoop_single (h : Header) (cap : Option Nat) (b : UInt8) (element : Nat)
    (written : List YkhsmauthListEntry) :
    listKeysLoop h cap [b] element written = (.done element false, written) := by
  rw [listKeysLoop]
  · rfl
  · simp

/-- With room for all of them, a run of well-formed records is copied in
order. -/
theorem listKeysLoop_encodeList (h : Header) (c : Nat) (rs : List ListRecord) (q : List UInt8)
    (element : Nat) (written : List YkhsmauthListEntry) (hc : element + rs.length ≤ c) :
    listKeysLoop h (some c) (encodeList h rs ++ q) element written =
      listKeysLoop h (some c) q (element + rs.length) (written ++ rs.map ListRecord.toEntry) := by
  induction rs generalizing element written with
  | nil => simp
  | cons r rs ih =>
    simp only [List.length_cons] at hc
    rw [encodeList_cons, List.append_assoc, listKeysLoop_record h r _ element written c (by omega),
      ih _ _ (by omega)]
    simp [Nat.add_assoc, Nat.add_comm 1]

/-- Counting skips a run of well-formed records. -/
theorem listKeysLoop_encodeList_count (h : Header) (rs : List ListRecord) (q : List UInt8)
    (element : Nat) (written : List YkhsmauthListEntry) :
    listKeysLoop h none (encodeList h rs ++ q) element written =
      listKeysLoop h none q (element + rs.length) written := by
  induction rs generalizing element with
  | nil => simp
  | cons r rs ih =>
    rw [encodeList_cons, List.append_assoc, listKeysLoop_record_count, ih]
    simp [Nat.add_assoc, Nat.add_comm 1]

/-- More well-formed records than room is `YKHSMAUTHR_MEMORY_ERROR`. -/
theorem listKeysLoop_encodeList_full (h : Header) (c : Nat) (rs : List ListRecord) (q : List UInt8)
    (element : Nat) (written : List YkhsmauthListEntry) (he : element ≤ c)
    (hc : c < element + rs.length) :
    (listKeysLoop h (some c) (encodeList h rs ++ q) element written).1 = .fail .memoryError := by
  induction rs generalizing element written with
  | nil => simp at hc; omega
  | cons r rs ih =>
    simp only [List.length_cons] at hc
    rw [encodeList_cons, List.append_assoc]
    by_cases hroom : element < c
    · rw [listKeysLoop_record h r _ element written c hroom]
      exact ih _ _ (by omega) (by omega)
    · rw [listKeysLoop_record_full h r _ element written c (by omega)]

/-! ## Reading the records back -/

/-- The first `n + 3` bytes after a record's length byte: algorithm, touch
policy, `n` label bytes and the counter. -/
theorem take_record (rest : List UInt8) (n : Nat) (h : n + 3 ≤ rest.length) :
    rest.take (n + 3) =
      rest.getD 0 0 :: rest.getD 1 0 :: ((rest.drop 2).take n ++ [rest.getD (n + 2) 0]) := by
  match rest, h with
  | a :: b :: more, h =>
    simp only [List.length_cons] at h
    simp only [List.take_succ_cons, List.getD_cons_zero, List.getD_cons_succ, List.drop_succ_cons,
      List.drop_zero]
    rw [List.take_succ, List.getElem?_eq_getElem (by omega), List.getD_eq_getElem?_getD,
      List.getElem?_eq_getElem (by omega)]
    rfl

/-- The bytes that a filling step accepts start with one well-formed record,
whose entry is the one the step stores. -/
theorem listKeysLoop_accepted_record (h : Header) (len : UInt8) (rest : List UInt8)
    (hgood : ¬ (rest.length < len.toNat ∨ len.toNat < 3 ∨ len.toNat - 3 > LABEL_FIELD_LEN)) :
    ∃ r : ListRecord, h.YKHSMAUTH_TAG_LABEL_LIST :: len :: rest = r.encode h ++ rest.drop len.toNat ∧
      listEntry rest len.toNat (by omega) = r.toEntry := by
  have hlab : ((rest.drop 2).take (len.toNat - 3)).length ≤ LABEL_FIELD_LEN := by
    simp only [List.length_take]; omega
  let r : ListRecord :=
    ⟨rest.getD 0 0, rest.getD 1 0, (rest.drop 2).take (len.toNat - 3), hlab,
      rest.getD (len.toNat - 1) 0⟩
  have hrlen : r.label.length = len.toNat - 3 := by
    simp only [r, List.length_take, List.length_drop]; omega
  have htake := take_record rest (len.toNat - 3) (by omega)
  rw [show len.toNat - 3 + 3 = len.toNat by omega,
    show len.toNat - 3 + 2 = len.toNat - 1 by omega] at htake
  have hlenb : (3 + r.label.length).toUInt8 = len := by
    rw [hrlen, show 3 + (len.toNat - 3) = len.toNat by omega, toUInt8_toNat]
  refine ⟨r, ?_, by simp only [listEntry, ListRecord.toEntry, labelField_eq, r]⟩
  rw [ListRecord.encode, hlenb]
  conv_lhs => rw [← List.take_append_drop len.toNat rest, htake]
  rfl

/-- Every payload the filling loop accepts is a run of well-formed records,
counted from `element`, fitting the capacity, and copied in order. -/
theorem listKeysLoop_sound (h : Header) (c : Nat) (payload : List UInt8) (element : Nat)
    (written : List YkhsmauthListEntry) (k : Nat) (written' : List YkhsmauthListEntry)
    (he : element ≤ c)
    (hrun : listKeysLoop h (some c) payload element written = (.done k true, written')) :
    ∃ rs : List ListRecord, payload = encodeList h rs ∧ k = element + rs.length ∧ k ≤ c ∧
      written' = written ++ rs.map ListRecord.toEntry := by
  induction payload, element, written using listKeysLoop.induct h (some c) with
  | case1 len rest element written c' hc hfull =>
    cases hc
    simp [listKeysLoop, hfull] at hrun
  | case2 len rest element written c' hc hroom hbad =>
    cases hc
    simp only [listKeysLoop, if_true, if_neg hroom, dif_pos hbad] at hrun
    cases hrun
  | case3 len rest element written c' hc hroom hgood ih =>
    cases hc
    simp only [listKeysLoop, if_true, if_neg hroom, dif_neg hgood] at hrun
    obtain ⟨rs, hrs, hk, hkc, hw⟩ := ih (by omega) hrun
    obtain ⟨r, hbytes, hentry⟩ := listKeysLoop_accepted_record h len rest hgood
    refine ⟨r :: rs, by rw [hbytes, hrs]; rfl, by simp [hk]; omega, hkc, ?_⟩
    rw [hw, hentry]
    simp
  | case4 len rest element written hc => cases hc
  | case5 len rest element written hc => cases hc
  | case6 tag len rest element written htag => simp [listKeysLoop, htag] at hrun
  | case7 rest element written hshape =>
    match rest, hshape with
    | [], _ =>
      simp only [listKeysLoop_nil, Prod.mk.injEq, ListKeysExit.done.injEq] at hrun
      obtain ⟨⟨rfl, -⟩, rfl⟩ := hrun
      exact ⟨[], rfl, by simp, he, by simp⟩
    | [b], _ => simp at hrun
    | a :: b :: more, hshape => exact absurd rfl (hshape a b more)

/-- The loop returns from inside only with `YKHSMAUTHR_MEMORY_ERROR` or
`YKHSMAUTHR_GENERIC_ERROR`. -/
theorem listKeysLoop_fail (h : Header) (cap : Option Nat) (payload : List UInt8) (element : Nat)
    (written : List YkhsmauthListEntry) (rc : YkhsmauthRc) (written' : List YkhsmauthListEntry)
    (hrun : listKeysLoop h cap payload element written = (.fail rc, written')) :
    rc = .memoryError ∨ rc = .genericError := by
  induction payload, element, written using listKeysLoop.induct h cap with
  | case1 len rest element written c hc hfull =>
    subst hc
    simp [listKeysLoop, hfull] at hrun
    exact .inl hrun.1.symm
  | case2 len rest element written c hc hroom hbad =>
    subst hc
    simp only [listKeysLoop, if_true, if_neg hroom, dif_pos hbad, Prod.mk.injEq,
      ListKeysExit.fail.injEq] at hrun
    exact .inr hrun.1.symm
  | case3 len rest element written c hc hroom hgood ih =>
    subst hc
    simp only [listKeysLoop, if_true, if_neg hroom, dif_neg hgood] at hrun
    exact ih hrun
  | case4 len rest element written hc hfit ih =>
    subst hc
    simp only [listKeysLoop, if_true, if_pos hfit] at hrun
    exact ih hrun
  | case5 len rest element written hc hfit =>
    subst hc
    simp [listKeysLoop, hfit] at hrun
  | case6 tag len rest element written htag =>
    cases cap <;>
    · simp only [listKeysLoop, if_neg htag, Prod.mk.injEq, ListKeysExit.fail.injEq] at hrun
      exact .inr hrun.1.symm
  | case7 rest element written hshape =>
    match rest, hshape with
    | [], _ => simp at hrun
    | [b], _ => simp at hrun
    | a :: b :: more, hshape => exact absurd rfl (hshape a b more)

/-! ## The decoding of a `LIST` answer -/

section Parse

variable (h : Header) (c : Nat) (rs : List ListRecord)

/-- A run of at most `c` well-formed records fills the list. -/
theorem listKeysParse_encodeList (hc : rs.length ≤ c) :
    listKeysParse h (some c) c (encodeList h rs) =
      (.success, rs.map ListRecord.toEntry, some rs.length) := by
  have := listKeysLoop_encodeList h c rs [] 0 [] (by omega)
  simp only [List.append_nil, Nat.zero_add, List.nil_append, listKeysLoop_nil] at this
  simp [listKeysParse, this]

/-- A run of more than `c` well-formed records overflows the list. -/
theorem listKeysParse_encodeList_full (hc : c < rs.length) :
    (listKeysParse h (some c) c (encodeList h rs)).1 = .memoryError := by
  have := listKeysLoop_encodeList_full h c rs [] 0 [] (Nat.zero_le c) (by omega)
  rw [List.append_nil] at this
  unfold listKeysParse
  split <;> simp_all

/-- A payload the filling mode accepts is a run of at most `c` well-formed
records. -/
theorem listKeysParse_success (payload : List UInt8) (items : Nat)
    (hs : (listKeysParse h (some c) items payload).1 = .success) :
    ∃ rs : List ListRecord, payload = encodeList h rs ∧ rs.length ≤ c := by
  unfold listKeysParse at hs
  split at hs
  · rename_i rc written hrun
    rcases listKeysLoop_fail h _ _ _ _ _ _ hrun with rfl | rfl <;> cases hs
  · rename_i k atEnd written hrun
    cases atEnd
    · cases hs
    · obtain ⟨rs, hrs, hk, hkc, -⟩ := listKeysLoop_sound h c payload 0 [] k written (Nat.zero_le c) hrun
      exact ⟨rs, hrs, by omega⟩

end Parse

/-- `ykhsmauth_list_keys` with `list != NULL` and capacity `c`, against any
answer of `payload` with status `SW_SUCCESS`: it succeeds exactly on the runs
of at most `c` well-formed records, and then stores their count and one entry
per record, the label zero-filled; a run of more than `c` well-formed records
is `YKHSMAUTHR_MEMORY_ERROR`. -/
theorem ykhsmauthListKeys_parse (h : Header) (st : YkhsmauthState) (list : List YkhsmauthListEntry)
    (c : Nat) (payload : List UInt8) (hp : payload.length ≤ 1022) :
    let res := (ykhsmauthListKeys h (some st) (some list) (some c)).run
      (Exchange.answer (payload ++ [0x90, 0x00]))
    (res.1 = .success ↔ ∃ rs : List ListRecord, payload = encodeList h rs ∧ rs.length ≤ c) ∧
      (∀ rs : List ListRecord, payload = encodeList h rs → rs.length ≤ c →
        res = (.success, rs.map ListRecord.toEntry, some rs.length)) ∧
      (∀ rs : List ListRecord, payload = encodeList h rs → c < rs.length →
        res.1 = .memoryError) := by
  intro res
  have hres : res = listKeysParse h (some c) c payload :=
    ykhsmauthListKeys_run_answer h st (some list) c payload hp
  refine ⟨⟨fun hs => listKeysParse_success h c payload c (hres ▸ hs), ?_⟩, ?_, ?_⟩
  · rintro ⟨rs, rfl, hc⟩
    rw [hres, listKeysParse_encodeList h c rs hc]
  · rintro rs rfl hc
    rw [hres, listKeysParse_encodeList h c rs hc]
  · rintro rs rfl hc
    rw [hres, listKeysParse_encodeList_full h c rs hc]

/-- One credential, `"a"`, tagged as the header `default` tags a `LIST`
record. -/
def oneRecord : List UInt8 :=
  [(default : Header).YKHSMAUTH_TAG_LABEL_LIST, 0x04, 0x26, 0x00, 0x61, 0x00]

/-- The one-record answer, with room for one entry and with room for none. -/
theorem ykhsmauthListKeys_parse_one_record :
    oneRecord = encodeList default [⟨0x26, 0x00, [0x61], by decide, 0x00⟩] ∧
      oneRecord.length ≤ 1022 ∧
      (let res := (ykhsmauthListKeys default (some ⟨0, 0, 0⟩) (some []) (some 1)).run
          (Exchange.answer (oneRecord ++ [0x90, 0x00]))
       (res.1 = .success ↔ ∃ rs : List ListRecord, oneRecord = encodeList default rs ∧ rs.length ≤ 1) ∧
         (∀ rs : List ListRecord, oneRecord = encodeList default rs → rs.length ≤ 1 →
           res = (.success, rs.map ListRecord.toEntry, some rs.length)) ∧
         (∀ rs : List ListRecord, oneRecord = encodeList default rs → 1 < rs.length →
           res.1 = .memoryError)) ∧
      (let res := (ykhsmauthListKeys default (some ⟨0, 0, 0⟩) (some []) (some 0)).run
          (Exchange.answer (oneRecord ++ [0x90, 0x00]))
       (res.1 = .success ↔ ∃ rs : List ListRecord, oneRecord = encodeList default rs ∧ rs.length ≤ 0) ∧
         (∀ rs : List ListRecord, oneRecord = encodeList default rs → rs.length ≤ 0 →
           res = (.success, rs.map ListRecord.toEntry, some rs.length)) ∧
         (∀ rs : List ListRecord, oneRecord = encodeList default rs → 0 < rs.length →
           res.1 = .memoryError)) :=
  ⟨rfl, by decide, ykhsmauthListKeys_parse default ⟨0, 0, 0⟩ [] 1 _ (by decide),
    ykhsmauthListKeys_parse default ⟨0, 0, 0⟩ [] 0 _ (by decide)⟩

/-! ## Counting against filling

A caller learns how many credentials there are by a call with
`list == NULL`, and then fills an array of that size by a second call.  The
two calls run the same loop on the same answer; the lemmas below relate the
two modes of the loop on every payload.
-/

section Passes

variable (h : Header)

/-- Fewer than two bytes left end the loop: `i + 1 < recv_len` fails, and
the cursor is at the end exactly when no byte is left. -/
theorem listKeysLoop_short (cap : Option Nat) (rest : List UInt8) (element : Nat)
    (written : List YkhsmauthListEntry)
    (hshape : ∀ (tag len : UInt8) (more : List UInt8), rest = tag :: len :: more → False) :
    listKeysLoop h cap rest element written = (.done element rest.isEmpty, written) := by
  match rest, hshape with
  | [], _ => simp
  | [b], _ => simp
  | a :: b :: more, hshape => exact absurd rfl (hshape a b more)

/-- Counting at a record: it skips `len` bytes when there are that many, and
otherwise steps past the end, which ends the loop away from the end. -/
theorem listKeysLoop_count_tag (len : UInt8) (rest : List UInt8) (element : Nat)
    (written : List YkhsmauthListEntry) :
    listKeysLoop h none (h.YKHSMAUTH_TAG_LABEL_LIST :: len :: rest) element written =
      if len.toNat ≤ rest.length then listKeysLoop h none (rest.drop len.toNat) (element + 1) written
      else (.done (element + 1) false, written) := by
  rw [listKeysLoop, if_pos rfl]

/-- The counting loop writes no entry. -/
theorem listKeysLoop_count_written (payload : List UInt8) (element : Nat)
    (written : List YkhsmauthListEntry) :
    (listKeysLoop h none payload element written).2 = written := by
  induction payload, element, written using listKeysLoop.induct h none with
  | case1 _ _ _ _ _ hc => cases hc
  | case2 _ _ _ _ _ hc => cases hc
  | case3 _ _ _ _ _ hc => cases hc
  | case4 len rest element written _ hfit ih => rwa [listKeysLoop_count_tag, if_pos hfit]
  | case5 len rest element written _ hfit => rw [listKeysLoop_count_tag, if_neg hfit]
  | case6 tag len rest element written htag => rw [listKeysLoop, if_neg htag]
  | case7 rest element written hshape => rw [listKeysLoop_short h none rest element written hshape]

/-- The count only grows. -/
theorem listKeysLoop_count_le (payload : List UInt8) (element : Nat)
    (written : List YkhsmauthListEntry) {n : Nat} {atEnd : Bool}
    (hrun : (listKeysLoop h none payload element written).1 = .done n atEnd) : element ≤ n := by
  induction payload, element, written using listKeysLoop.induct h none with
  | case1 _ _ _ _ _ hc => cases hc
  | case2 _ _ _ _ _ hc => cases hc
  | case3 _ _ _ _ _ hc => cases hc
  | case4 len rest element written _ hfit ih =>
    rw [listKeysLoop_count_tag, if_pos hfit] at hrun
    have := ih hrun
    omega
  | case5 len rest element written _ hfit =>
    rw [listKeysLoop_count_tag, if_neg hfit] at hrun
    cases hrun
    omega
  | case6 tag len rest element written htag =>
    rw [listKeysLoop, if_neg htag] at hrun
    cases hrun
  | case7 rest element written hshape =>
    rw [listKeysLoop_short h none rest element written hshape] at hrun
    cases hrun
    exact le_rfl

/-- The filling loop writes at most `c` entries, counted from `element`. -/
theorem listKeysLoop_written_le (c : Nat) (payload : List UInt8) (element : Nat)
    (written : List YkhsmauthListEntry) (hw : written.length ≤ element) (he : element ≤ c) :
    (listKeysLoop h (some c) payload element written).2.length ≤ c := by
  induction payload, element, written using listKeysLoop.induct h (some c) with
  | case1 len rest element written c' hc hfull =>
    cases hc
    simp only [listKeysLoop, if_true, if_pos hfull]
    omega
  | case2 len rest element written c' hc hroom hbad =>
    cases hc
    simp only [listKeysLoop, if_true, if_neg hroom, dif_pos hbad]
    omega
  | case3 len rest element written c' hc hroom hgood ih =>
    cases hc
    simp only [listKeysLoop, if_true, if_neg hroom, dif_neg hgood]
    exact ih (by simp only [List.length_append, List.length_singleton]; omega) (by omega)
  | case4 _ _ _ _ hc => cases hc
  | case5 _ _ _ _ hc => cases hc
  | case6 tag len rest element written htag =>
    simp only [listKeysLoop, if_neg htag]
    omega
  | case7 rest element written hshape =>
    rw [listKeysLoop_short h (some c) rest element written hshape]
    exact Nat.le_trans hw he

/-- Where counting reaches the end with `n` records and `n` fits, filling
reaches the end with the same count, or stops at a record whose length byte
is below 3 or whose label is longer than the label array. -/
theorem listKeysLoop_fill_of_count (c : Nat) (payload : List UInt8) (element : Nat)
    (written written' : List YkhsmauthListEntry) {n : Nat}
    (hcount : (listKeysLoop h none payload element written').1 = .done n true) (hn : n ≤ c) :
    (listKeysLoop h (some c) payload element written).1 = .done n true ∨
      (listKeysLoop h (some c) payload element written).1 = .fail .genericError := by
  induction payload, element, written using listKeysLoop.induct h (some c) with
  | case1 len rest element written c' hc hfull =>
    cases hc
    rw [listKeysLoop_count_tag] at hcount
    split_ifs at hcount
    · have := listKeysLoop_count_le h _ _ _ hcount
      omega
    · cases hcount
  | case2 len rest element written c' hc hroom hbad =>
    cases hc
    right
    simp only [listKeysLoop, if_true, if_neg hroom, dif_pos hbad]
  | case3 len rest element written c' hc hroom hgood ih =>
    cases hc
    rw [listKeysLoop_count_tag, if_pos (by omega)] at hcount
    simp only [listKeysLoop, if_true, if_neg hroom, dif_neg hgood]
    exact ih hcount
  | case4 _ _ _ _ hc => cases hc
  | case5 _ _ _ _ hc => cases hc
  | case6 tag len rest element written htag =>
    right
    simp only [listKeysLoop, if_neg htag]
  | case7 rest element written hshape =>
    rw [listKeysLoop_short h none rest element written' hshape] at hcount
    rw [listKeysLoop_short h (some c) rest element written hshape]
    exact .inl hcount

/-- Where filling reaches the end, counting reaches it too, with the same
count. -/
theorem listKeysLoop_count_of_fill (c : Nat) (payload : List UInt8) (element : Nat)
    (written written' written'' : List YkhsmauthListEntry) {n : Nat} (he : element ≤ c)
    (hfill : listKeysLoop h (some c) payload element written = (.done n true, written'')) :
    (listKeysLoop h none payload element written').1 = .done n true := by
  obtain ⟨rs, rfl, rfl, -, -⟩ := listKeysLoop_sound h c payload element written n written'' he hfill
  rw [← List.append_nil (encodeList h rs), listKeysLoop_encodeList_count, listKeysLoop_nil]

/-- Whatever the filling loop returns, the entries it wrote after
`written` are those of a run of well-formed records at the front of the
payload. -/
theorem listKeysLoop_written_records (c : Nat) (payload : List UInt8) (element : Nat)
    (written : List YkhsmauthListEntry) :
    ∃ rs : List ListRecord, encodeList h rs <+: payload ∧
      (listKeysLoop h (some c) payload element written).2 =
        written ++ rs.map ListRecord.toEntry := by
  induction payload, element, written using listKeysLoop.induct h (some c) with
  | case1 len rest element written c' hc hfull =>
    cases hc
    exact ⟨[], List.nil_prefix, by simp [listKeysLoop, hfull]⟩
  | case2 len rest element written c' hc hroom hbad =>
    cases hc
    exact ⟨[], List.nil_prefix, by simp [listKeysLoop, hroom, hbad]⟩
  | case3 len rest element written c' hc hroom hgood ih =>
    cases hc
    obtain ⟨rs, hpre, hw⟩ := ih
    obtain ⟨r, hbytes, hentry⟩ := listKeysLoop_accepted_record h len rest hgood
    refine ⟨r :: rs, ?_, ?_⟩
    · rw [hbytes, encodeList_cons]
      exact (List.prefix_append_right_inj _).mpr hpre
    · rw [hentry] at hw
      simp [listKeysLoop, hroom, hgood, hentry, hw]
  | case4 _ _ _ _ hc => cases hc
  | case5 _ _ _ _ hc => cases hc
  | case6 tag len rest element written htag =>
    exact ⟨[], List.nil_prefix, by simp [listKeysLoop, htag]⟩
  | case7 rest element written hshape =>
    exact ⟨[], List.nil_prefix, by simp [listKeysLoop_short h _ rest element written hshape]⟩

/-- The entries a decoding leaves are those its loop wrote. -/
theorem listKeysParse_written (cap : Option Nat) (items : Nat) (payload : List UInt8) :
    (listKeysParse h cap items payload).2.1 = (listKeysLoop h cap payload 0 []).2 := by
  unfold listKeysParse
  split <;> rename_i heq <;> rw [heq]

/-- A filling decode that succeeds stores a count, and a counting decode of
the same payload succeeds with that count and no entry. -/
theorem listKeysParse_count_of_fill (c items items' : Nat) (payload : List UInt8)
    (hs : (listKeysParse h (some c) items payload).1 = .success) :
    listKeysParse h none items' payload =
      (.success, [], (listKeysParse h (some c) items payload).2.2) := by
  unfold listKeysParse at hs ⊢
  split at hs
  · rename_i rc w hrun
    rcases listKeysLoop_fail h _ _ _ _ _ _ hrun with rfl | rfl <;> cases hs
  · rename_i k atEnd w hrun
    cases atEnd
    · cases hs
    · have hcount := listKeysLoop_count_of_fill h c payload 0 [] [] w (Nat.zero_le c) hrun
      have hw := listKeysLoop_count_written h payload 0 []
      generalize listKeysLoop h none payload 0 [] = r at hcount hw
      obtain ⟨ex, w'⟩ := r
      dsimp only at hcount hw
      subst hcount hw
      rfl

/-- A counting decode that succeeds with `n` records: a filling decode of
the same payload with room for `n` stores `n` entries and the count `n`, or
fails with `YKHSMAUTHR_GENERIC_ERROR`. -/
theorem listKeysParse_fill_of_count (c items items' n : Nat) (payload : List UInt8)
    (hs : listKeysParse h none items' payload = (.success, [], some n)) (hn : n ≤ c) :
    ((listKeysParse h (some c) items payload).1 = .success ∧
        (listKeysParse h (some c) items payload).2.1.length = n ∧
        (listKeysParse h (some c) items payload).2.2 = some n) ∨
      (listKeysParse h (some c) items payload).1 = .genericError := by
  have hcount : (listKeysLoop h none payload 0 []).1 = .done n true := by
    unfold listKeysParse at hs
    split at hs
    · rename_i rc w hrun
      rcases listKeysLoop_fail h _ _ _ _ _ _ hrun with rfl | rfl <;> cases hs
    · rename_i k atEnd w hrun
      rw [hrun]
      cases atEnd <;> simp_all
  unfold listKeysParse
  have hfill := listKeysLoop_fill_of_count h c payload 0 [] [] hcount hn
  generalize hr : listKeysLoop h (some c) payload 0 [] = r at hfill ⊢
  obtain ⟨ex, w⟩ := r
  rcases hfill with hf | hf <;> dsimp only at hf <;> subst hf
  · obtain ⟨rs, -, hk, -, hw⟩ := listKeysLoop_sound h c payload 0 [] n w (Nat.zero_le c) hr
    exact .inl ⟨rfl, by simp [hw, hk], rfl⟩
  · exact .inr rfl

end Passes

/-- Over every transport, the two calls of `ykhsmauth_list_keys` see the same
answer: an error other than `YKHSMAUTHR_SUCCESS` that writes no entry and
leaves `*list_items` alone, or the decoding of one payload. -/
theorem ykhsmauthListKeys_run_cases (h : Header) (st : YkhsmauthState)
    (t : (cap : Nat) → List UInt8 → Option (Received cap)) :
    (∃ rc, rc ≠ .success ∧ ∀ (list : Option (List YkhsmauthListEntry)) (items : Nat),
      (ykhsmauthListKeys h (some st) list (some items)).run t = (rc, [], some items)) ∨
    ∃ payload : List UInt8, ∀ (list : Option (List YkhsmauthListEntry)) (items : Nat),
      (ykhsmauthListKeys h (some st) list (some items)).run t =
        listKeysParse h (list.map fun _ => items) items payload := by
  rcases hr : sendData (t 1024 (Apdu.init h.YKHSMAUTH_INS_LIST 0 0).raw) with ⟨rc, sw, data, recvLen⟩
  by_cases hrc : rc = .success
  · by_cases hsw : sw = SW_SUCCESS
    · exact .inr ⟨data.take recvLen, fun _ _ => by
        simp [ykhsmauthListKeys, sendCommand, hr, hrc, hsw]⟩
    · exact .inl ⟨_, (translateError_ne h sw none).1, fun _ _ => by
        simp [ykhsmauthListKeys, sendCommand, hr, hrc, hsw]⟩
  · exact .inl ⟨rc, hrc, fun _ _ => by simp [ykhsmauthListKeys, sendCommand, hr, hrc]⟩

/-- Over every transport and every `*list_items`, `ykhsmauth_list_keys`
writes at most `*list_items` entries into `list` on every path, and none when
`list` is `NULL`. -/
theorem ykhsmauthListKeys_written_le (h : Header) (state : Option YkhsmauthState)
    (list : List YkhsmauthListEntry) (items : Nat)
    (t : (cap : Nat) → List UInt8 → Option (Received cap)) :
    ((ykhsmauthListKeys h state (some list) (some items)).run t).2.1.length ≤ items ∧
      ((ykhsmauthListKeys h state none (some items)).run t).2.1 = [] := by
  cases state with
  | none => exact ⟨Nat.zero_le _, rfl⟩
  | some st =>
    rcases ykhsmauthListKeys_run_cases h st t with ⟨rc, -, hrun⟩ | ⟨payload, hrun⟩
    · rw [hrun, hrun]
      exact ⟨Nat.zero_le _, rfl⟩
    · rw [hrun, hrun, listKeysParse_written, listKeysParse_written, Option.map_some',
        Option.map_none', listKeysLoop_count_written]
      exact ⟨listKeysLoop_written_le h items payload 0 [] le_rfl (Nat.zero_le _), rfl⟩

/-- Over every transport: when the counting call (`list == NULL`) of
`ykhsmauth_list_keys` succeeds with `n` credentials, a filling call on the
same answer with room for at least `n` entries stores exactly `n` entries and
the count `n`, or fails with `YKHSMAUTHR_GENERIC_ERROR` at a record whose
length byte is below 3 or whose label is longer than the label array.  It
never returns `YKHSMAUTHR_MEMORY_ERROR`. -/
theorem ykhsmauthListKeys_fill_of_count (h : Header) (st : YkhsmauthState)
    (list : List YkhsmauthListEntry) (items c n : Nat)
    (t : (cap : Nat) → List UInt8 → Option (Received cap))
    (hcount : (ykhsmauthListKeys h (some st) none (some items)).run t = (.success, [], some n))
    (hn : n ≤ c) :
    (((ykhsmauthListKeys h (some st) (some list) (some c)).run t).1 = .success ∧
        ((ykhsmauthListKeys h (some st) (some list) (some c)).run t).2.1.length = n ∧
        ((ykhsmauthListKeys h (some st) (some list) (some c)).run t).2.2 = some n) ∨
      ((ykhsmauthListKeys h (some st) (some list) (some c)).run t).1 = .genericError := by
  rcases ykhsmauthListKeys_run_cases h st t with ⟨rc, hrc, hrun⟩ | ⟨payload, hrun⟩
  · rw [hrun] at hcount
    exact absurd (congrArg Prod.fst hcount) hrc
  · rw [hrun] at hcount ⊢
    rw [Option.map_none'] at hcount
    rw [Option.map_some']
    exact listKeysParse_fill_of_count h c c items n payload hcount hn

/-- A card that lists one credential, labelled `"a"`, under the tag of the
default header. -/
def oneCredential : (cap : Nat) → List UInt8 → Option (Received cap) :=
  Exchange.answer
    ([(default : Header).YKHSMAUTH_TAG_LABEL_LIST, 4, 0x26, 0x00, 0x61, 0x00] ++ [0x90, 0x00])

/-- The credential of `oneCredential` is one well-formed record. -/
theorem oneCredential_payload :
    [(default : Header).YKHSMAUTH_TAG_LABEL_LIST, 4, 0x26, 0x00, 0x61, 0x00] =
      encodeList default [⟨0x26, 0x00, [0x61], by decide, 0x00⟩] := rfl

/-- Counting the one credential, then filling room for one. -/
theorem ykhsmauthListKeys_fill_of_count_one :
    (ykhsmauthListKeys default (some ⟨0, 0, 0⟩) none (some 0)).run oneCredential =
      (.success, [], some 1) ∧ 1 ≤ 1 ∧
    ((((ykhsmauthListKeys default (some ⟨0, 0, 0⟩) (some []) (some 1)).run oneCredential).1 =
          .success ∧
        ((ykhsmauthListKeys default (some ⟨0, 0, 0⟩) (some []) (some 1)).run
          oneCredential).2.1.length = 1 ∧
        ((ykhsmauthListKeys default (some ⟨0, 0, 0⟩) (some []) (some 1)).run
          oneCredential).2.2 = some 1) ∨
      ((ykhsmauthListKeys default (some ⟨0, 0, 0⟩) (some []) (some 1)).run oneCredential).1 =
        .genericError) := by
  have hcount : (ykhsmauthListKeys default (some ⟨0, 0, 0⟩) none (some 0)).run oneCredential =
      (.success, [], some 1) := by
    rw [oneCredential, ykhsmauthListKeys_run_answer _ _ _ _ _ (by decide), oneCredential_payload,
      Option.map_none', listKeysParse, ← List.append_nil (encodeList _ _),
      listKeysLoop_encodeList_count, listKeysLoop_nil]
    rfl
  exact ⟨hcount, le_rfl, ykhsmauthListKeys_fill_of_count default _ [] 0 1 1 _ hcount le_rfl⟩

/-- Over every transport: when a filling call of `ykhsmauth_list_keys`
succeeds, the counting call on the same answer succeeds too, writes no entry,
and stores the same count. -/
theorem ykhsmauthListKeys_count_of_fill (h : Header) (st : YkhsmauthState)
    (list : List YkhsmauthListEntry) (items c : Nat)
    (t : (cap : Nat) → List UInt8 → Option (Received cap))
    (hfill : ((ykhsmauthListKeys h (some st) (some list) (some c)).run t).1 = .success) :
    (ykhsmauthListKeys h (some st) none (some items)).run t =
      (.success, [], ((ykhsmauthListKeys h (some st) (some list) (some c)).run t).2.2) := by
  rcases ykhsmauthListKeys_run_cases h st t with ⟨rc, hrc, hrun⟩ | ⟨payload, hrun⟩
  · rw [hrun] at hfill
    exact absurd hfill hrc
  · rw [hrun] at hfill ⊢
    rw [hrun, Option.map_none']
    rw [Option.map_some'] at hfill ⊢
    exact listKeysParse_count_of_fill h c c items payload hfill

/-- Filling the one credential into room for one, then counting it. -/
theorem ykhsmauthListKeys_count_of_fill_one :
    ((ykhsmauthListKeys default (some ⟨0, 0, 0⟩) (some []) (some 1)).run oneCredential).1 =
      .success ∧
    (ykhsmauthListKeys default (some ⟨0, 0, 0⟩) none (some 0)).run oneCredential =
      (.success, [],
        ((ykhsmauthListKeys default (some ⟨0, 0, 0⟩) (some []) (some 1)).run oneCredential).2.2) := by
  have hfill : ((ykhsmauthListKeys default (some ⟨0, 0, 0⟩) (some []) (some 1)).run
      oneCredential).1 = .success := by
    rw [oneCredential, ykhsmauthListKeys_run_answer _ _ _ _ _ (by decide), oneCredential_payload,
      Option.map_some', listKeysParse_encodeList default 1 _ (by decide)]
  exact ⟨hfill, ykhsmauthListKeys_count_of_fill default _ [] 0 1 _ hfill⟩

/-! ## Where the code departs from the spec -/

/-- Counting and filling disagree on a record with a length byte below 3:
counting reports one credential, filling the same answer into room for one
fails. -/
theorem ykhsmauthListKeys_count_fill_disagree (h : Header) (st : YkhsmauthState)
    (list : List YkhsmauthListEntry) :
    (ykhsmauthListKeys h (some st) none (some 0)).run
        (Exchange.answer ([h.YKHSMAUTH_TAG_LABEL_LIST, 0] ++ [0x90, 0x00])) =
        (.success, [], some 1) ∧
      (ykhsmauthListKeys h (some st) (some list) (some 1)).run
        (Exchange.answer ([h.YKHSMAUTH_TAG_LABEL_LIST, 0] ++ [0x90, 0x00])) =
        (.genericError, [], some 1) := by
  rw [ykhsmauthListKeys_run_answer _ _ _ _ _ (by simp),
    ykhsmauthListKeys_run_answer _ _ _ _ _ (by simp)]
  constructor
  · simp [listKeysParse, listKeysLoop]
  · simp [listKeysParse, listKeysLoop]

/-- A stray byte after the records is `YKHSMAUTHR_GENERIC_ERROR`, and the
count has already been stored in `*list_items`. -/
theorem ykhsmauthListKeys_error_sets_list_items (h : Header) (st : YkhsmauthState)
    (list : List YkhsmauthListEntry) :
    (ykhsmauthListKeys h (some st) (some list) (some 4)).run
        (Exchange.answer ([0x00] ++ [0x90, 0x00])) = (.genericError, [], some 0) := by
  rw [ykhsmauthListKeys_run_answer _ _ _ _ _ (by decide)]
  simp [listKeysParse]

/-- A record whose label fills the whole label array is accepted, and the
entry's label then holds no terminating zero. -/
theorem ykhsmauthListKeys_label_unterminated (h : Header) (st : YkhsmauthState)
    (list : List YkhsmauthListEntry) :
    ∃ e : YkhsmauthListEntry,
      (ykhsmauthListKeys h (some st) (some list) (some 1)).run
          (Exchange.answer (([h.YKHSMAUTH_TAG_LABEL_LIST, 68, 0x26, 0x00] ++
            List.replicate 65 0x41 ++ [0x07]) ++ [0x90, 0x00])) = (.success, [e], some 1) ∧
        (0 : UInt8) ∉ e.label := by
  let r : ListRecord := ⟨0x26, 0x00, List.replicate 65 0x41, by simp [LABEL_FIELD_LEN_eq], 0x07⟩
  have hp : [h.YKHSMAUTH_TAG_LABEL_LIST, 68, 0x26, 0x00] ++ List.replicate 65 0x41 ++ [0x07] =
      encodeList h [r] := rfl
  rw [ykhsmauthListKeys_run_answer _ _ _ _ _ (by simp), hp, Option.map_some',
    listKeysParse_encodeList h 1 [r] (by simp)]
  refine ⟨r.toEntry, rfl, ?_⟩
  show (0 : UInt8) ∉ labelField (List.replicate 65 0x41)
  rw [labelField_eq]
  simp [LABEL_FIELD_LEN_eq]

end Ykhsmauth
