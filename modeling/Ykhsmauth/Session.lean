import Ykhsmauth.Transport

/-!
# The session: contexts, card handles and the reader walk

`ykhsmauth_init`, `ykhsmauth_list_readers`, `ykhsmauth_connect` and
`ykhsmauth_disconnect` manage the two PC/SC handles of a state: the context
in `state->context`, `SCARD_E_INVALID_HANDLE` for none, and the card handle
in `state->card`, `0` for none.

The PC/SC service is modelled by the handles it holds for the library
(`Pcsc`) and, for each library call, by its answers (`Service`): whether
`SCardEstablishContext` succeeds, what the two `SCardListReaders` calls
return, whether `SCardConnect` succeeds on a reader, and what the card in a
reader answers to the `SELECT` of the applet.  A successful
`SCardEstablishContext` or `SCardConnect` hands out a new handle.  A failed
`SCardEstablishContext` leaves its cell as it was; `SCardConnect` sets
`*phCard` to `0` on entry, so a failed one leaves `state->card` at `0`.
`SCardReleaseContext` frees every card handle opened in the context.  The
service also records the readers it is asked to connect to
(`Pcsc.connects`), which the library never reads.

A session is a state and the handles the service holds for it.  The
protocol operations only send frames on `state->card` and change neither,
so a run of the library on one state is a sequence of `Call`s from
`Session.init`.

* `connectLoop` is the walk of `ykhsmauth_connect` over the reader
  multi-string, with the case-insensitive search of `wanted` in each name
  (`findWanted`).  The bytes past those `SCardListReaders` wrote are read
  as `'\0'`.
* `tryReader` is the body of that loop on one name, and `tryReader_cases`
  says everything it can do; `connectLoop_exhausted`, `connectLoop_next` and
  `connectLoop_selected` are the three ways the loop goes on, and
  `ykhsmauthConnect_listed` is `ykhsmauth_connect` once the readers are
  listed.
* `ContextsOk`, the library holds at most one context and it is
  `state->context`, is kept by every call (`Session.step_contextsOk`) and so
  by every run (`Session.run_contexts`).
* `ykhsmauthConnect_leaves_stale_card`: a reader that accepts the
  connection but whose card rejects the `SELECT` leaves its handle in
  `state->card`, while `ykhsmauth_connect` releases the context, which frees
  that handle, and returns `YKHSMAUTHR_PCSC_ERROR`.
-/

namespace Ykhsmauth

/-- `SCARD_E_INVALID_HANDLE` of the PC/SC headers, the value of
`state->context` when it holds no context. -/
def SCARD_E_INVALID_HANDLE : Nat := 0x80100003

/-! ## The PC/SC service -/

/-- The handles the PC/SC service holds for the library: the contexts
established and not released, the card handles connected and neither
disconnected nor freed, each with the context it was opened in, and the next
handle it hands out.  `connects` records the readers `SCardConnect` was
called on, in order. -/
structure Pcsc where
  contexts : List Nat
  cards : List (Nat × Nat)
  next : Nat
  connects : List (List UInt8)
  deriving DecidableEq, Repr

/-- How the service answers the PC/SC calls of one library call. -/
structure Service where
  /-- `SCardEstablishContext` succeeds. -/
  establish : Bool
  /-- The first `SCardListReaders`: the length of the multi-string. -/
  listSize : Option Nat
  /-- The second `SCardListReaders`, into a buffer of `cap` bytes. -/
  listData : (cap : Nat) → Option (Received cap)
  /-- `SCardConnect` on the reader of that name succeeds. -/
  connect : List UInt8 → Bool
  /-- The answer of the card in that reader to the `SELECT`, `none` for a
  failed `SCardTransmit`. -/
  select : List UInt8 → Option (Received 256)

/-- A state and the handles the service holds for it. -/
structure Session where
  state : YkhsmauthState
  pcsc : Pcsc

namespace Session

/-- `SCardIsValidContext(state->context) == SCARD_S_SUCCESS`. -/
def ContextValid (s : Session) : Prop :=
  s.state.context ∈ s.pcsc.contexts

instance (s : Session) : Decidable s.ContextValid :=
  inferInstanceAs (Decidable (_ ∈ _))

/-- A successful `SCardEstablishContext(..., &state->context)`. -/
def establish (s : Session) : Session :=
  ⟨{ s.state with context := s.pcsc.next },
    { s.pcsc with contexts := s.pcsc.next :: s.pcsc.contexts, next := s.pcsc.next + 1 }⟩

/-- `SCardReleaseContext(state->context)`, then
`state->context = SCARD_E_INVALID_HANDLE`.  The release frees the card
handles opened in the context. -/
def releaseContext (s : Session) : Session :=
  ⟨{ s.state with context := SCARD_E_INVALID_HANDLE },
    { s.pcsc with contexts := s.pcsc.contexts.erase s.state.context,
                  cards := s.pcsc.cards.filter fun c => c.2 != s.state.context }⟩

/-- A successful `SCardConnect(state->context, name, ..., &state->card, ...)`:
a new card handle, opened in `state->context`. -/
def connectCard (s : Session) (name : List UInt8) : Session :=
  ⟨{ s.state with card := s.pcsc.next },
    { s.pcsc with cards := (s.pcsc.next, s.state.context) :: s.pcsc.cards,
                  next := s.pcsc.next + 1, connects := s.pcsc.connects ++ [name] }⟩

/-- A failed `SCardConnect(..., name, ..., &state->card, ...)`: `*phCard` was
set to `0` on entry. -/
def connectFails (s : Session) (name : List UInt8) : Session :=
  ⟨{ s.state with card := 0 }, { s.pcsc with connects := s.pcsc.connects ++ [name] }⟩

/-- `SCardConnect` on the reader `name`, as the service answers it. -/
def scardConnect (svc : Service) (name : List UInt8) (s : Session) : Session :=
  if svc.connect name then s.connectCard name else s.connectFails name

/-- `SCardDisconnect(state->card, ...)`, then `state->card = 0`. -/
def disconnectCard (s : Session) : Session :=
  ⟨{ s.state with card := 0 },
    { s.pcsc with cards := s.pcsc.cards.filter fun c => c.1 != s.state.card }⟩

@[simp] theorem scardConnect_context (svc : Service) (name : List UInt8) (s : Session) :
    (s.scardConnect svc name).state.context = s.state.context := by
  unfold scardConnect; split <;> rfl

@[simp] theorem scardConnect_contexts (svc : Service) (name : List UInt8) (s : Session) :
    (s.scardConnect svc name).pcsc.contexts = s.pcsc.contexts := by
  unfold scardConnect; split <;> rfl

@[simp] theorem scardConnect_connects (svc : Service) (name : List UInt8) (s : Session) :
    (s.scardConnect svc name).pcsc.connects = s.pcsc.connects ++ [name] := by
  unfold scardConnect; split <;> rfl

@[simp] theorem disconnectCard_context (s : Session) :
    s.disconnectCard.state.context = s.state.context := rfl

@[simp] theorem disconnectCard_contexts (s : Session) :
    s.disconnectCard.pcsc.contexts = s.pcsc.contexts := rfl

@[simp] theorem disconnectCard_card (s : Session) : s.disconnectCard.state.card = 0 := rfl

end Session

/-! ## `ykhsmauth_init` and `ykhsmauth_disconnect` -/

/-- `ykhsmauth_init`.  `state` says whether the pointer to the caller's cell
is not `NULL`, and `alloc` whether `malloc` succeeds; the result carries the
new state. -/
def ykhsmauthInit (state alloc : Bool) (verbose : Int) : YkhsmauthRc × Option YkhsmauthState :=
  if !state then (.invalidParams, none)
  else if !alloc then (.memoryError, none)
  else (.success, some ⟨verbose, SCARD_E_INVALID_HANDLE, 0⟩)

/-- `ykhsmauth_disconnect`: close the card handle if there is one, and
release the context if it is valid.  `none` is a `NULL` state. -/
def ykhsmauthDisconnect (s : Option Session) : YkhsmauthRc × Option Session :=
  match s with
  | none => (.invalidParams, none)
  | some s =>
    let s := if s.state.card ≠ 0 then s.disconnectCard else s
    (.success, some (if s.ContextValid then s.releaseContext else s))

/-! ## `ykhsmauth_list_readers` -/

/-- The context check of `ykhsmauth_list_readers`: keep a valid context,
else establish one; `none` when `SCardEstablishContext` fails. -/
def Session.ensureContext (svc : Service) (s : Session) : Option Session :=
  if s.ContextValid then some s else if svc.establish then some s.establish else none

/-- `ykhsmauth_list_readers` on a session.  `readers` is the caller's
buffer and `len` the cell `*len`.  The result carries the session after the
call and, on success, the bytes written into `readers` with the new
`*len`. -/
def ykhsmauthListReaders (svc : Service) (s : Option Session) (readers : Option (List UInt8))
    (len : Nat) : YkhsmauthRc × Option Session × Option (List UInt8 × Nat) :=
  match s, readers with
  | some s, some _ =>
    match s.ensureContext svc with
    | none => (.pcscError, some s, none)
    | some s =>
      match svc.listSize with
      | none => (.pcscError, some s.releaseContext, none)
      | some size =>
        match svc.listData (min size len) with
        | none => (.pcscError, some s.releaseContext, none)
        | some r => (.success, some s, some (r.bytes, r.bytes.length))
  | s, _ => (.invalidParams, s, none)

/-! ## The reader walk of `ykhsmauth_connect` -/

/-- `tolower` of the C locale. -/
def toLower (c : UInt8) : UInt8 :=
  if 0x41 ≤ c ∧ c ≤ 0x5a then c + 0x20 else c

/-- `strncasecmp(ptr, wanted, strlen(wanted)) == 0` when `ptr` has at least
`strlen(wanted)` characters: they agree with `wanted` up to case. -/
def prefixMatches (ptr wanted : List UInt8) : Bool :=
  (ptr.take wanted.length).map toLower == wanted.map toLower

/-- The `while` loop of `ykhsmauth_connect` that looks for `wanted` in a
reader name: while at least `strlen(wanted)` characters are left, compare
at the cursor and move on by one. -/
def findWanted (wanted : List UInt8) : List UInt8 → Bool
  | [] => wanted.length == 0 && prefixMatches [] wanted
  | c :: ptr =>
    decide (wanted.length ≤ ptr.length + 1) && (prefixMatches (c :: ptr) wanted || findWanted wanted ptr)

/-- The `if (wanted)` block of `ykhsmauth_connect`: a name is tried when no
filter is given or when it contains the filter. -/
def readerWanted (wanted : Option (List UInt8)) (name : List UInt8) : Bool :=
  match wanted with
  | some wd => findWanted wd name
  | none => true

/-- What the body of the loop of `ykhsmauth_connect` does with one reader
name: go on to the next name (a `continue`, or the end of the body) with
the session it leaves, or return. -/
inductive ReaderStep where
  | next (s : Session)
  | selected (s : Session)

/-- The body of the loop of `ykhsmauth_connect` on the reader `name`.  A
name that is not wanted is skipped; otherwise `SCardConnect` is called, and
on success the applet is selected.  A failed connection, transmission or
selection goes on to the next name and closes nothing. -/
def tryReader (svc : Service) (wanted : Option (List UInt8)) (s : Session) (name : List UInt8) :
    ReaderStep :=
  if !readerWanted wanted name then .next s
  else
    let s' := s.scardConnect svc name
    if !svc.connect name then .next s'
    else
      let sd := sendData (svc.select name)
      if sd.rc ≠ .success then .next s'
      else if sd.sw = SW_SUCCESS then .selected s'
      else .next s'

/-- The body skips the name, or calls `SCardConnect` on it and goes on or
returns. -/
theorem tryReader_cases (svc : Service) (wanted : Option (List UInt8)) (s : Session)
    (name : List UInt8) :
    tryReader svc wanted s name = .next s ∨
      tryReader svc wanted s name = .next (s.scardConnect svc name) ∨
      tryReader svc wanted s name = .selected (s.scardConnect svc name) := by
  simp only [tryReader]
  split_ifs <;> simp

/-- Where the walk over the reader names stops. -/
inductive ConnectExit where
  /-- A reader connected and its card answered the `SELECT` with
  `SW_SUCCESS`. -/
  | selected
  /-- The cursor is at a name that starts with `'\0'`; `rest` is the buffer
  from the cursor on. -/
  | exhausted (rest : List UInt8)

/-- Skipping a name and its terminating zero shortens a buffer whose cursor
is not at `'\0'`. -/
theorem drop_name_lt {buf : List UInt8} (hb : ¬ buf.getD 0 0 = 0) (n : Nat) :
    (buf.drop (n + 1)).length < buf.length := by
  cases buf with
  | nil => exact absurd rfl hb
  | cons b rest => simp only [List.length_drop, List.length_cons]; omega

/-- The `for` loop of `ykhsmauth_connect` from `reader_ptr` on: run the body
on the name at the cursor, then move the cursor past the name and its
terminating zero. -/
def connectLoop (svc : Service) (wanted : Option (List UInt8)) (s : Session) (buf : List UInt8) :
    ConnectExit × Session :=
  if hb : buf.getD 0 0 = 0 then (.exhausted buf, s)
  else
    match tryReader svc wanted s (buf.takeWhile (· ≠ 0)) with
    | .selected s => (.selected, s)
    | .next s => connectLoop svc wanted s (buf.drop ((buf.takeWhile (· ≠ 0)).length + 1))
termination_by buf.length
decreasing_by exact drop_name_lt hb _

/-- The cursor at `'\0'` ends the walk. -/
theorem connectLoop_exhausted (svc : Service) (wanted : Option (List UInt8)) (s : Session)
    {buf : List UInt8} (hb : buf.getD 0 0 = 0) : connectLoop svc wanted s buf = (.exhausted buf, s) := by
  rw [connectLoop, dif_pos hb]

/-- A name whose body goes on moves the cursor past the name. -/
theorem connectLoop_next (svc : Service) (wanted : Option (List UInt8)) {s s' : Session}
    {buf : List UInt8} (hb : ¬ buf.getD 0 0 = 0)
    (hstep : tryReader svc wanted s (buf.takeWhile (· ≠ 0)) = .next s') :
    connectLoop svc wanted s buf =
      connectLoop svc wanted s' (buf.drop ((buf.takeWhile (· ≠ 0)).length + 1)) := by
  rw [connectLoop, dif_neg hb, hstep]

/-- A name whose body returns ends the walk. -/
theorem connectLoop_selected (svc : Service) (wanted : Option (List UInt8)) {s s' : Session}
    {buf : List UInt8} (hb : ¬ buf.getD 0 0 = 0)
    (hstep : tryReader svc wanted s (buf.takeWhile (· ≠ 0)) = .selected s') :
    connectLoop svc wanted s buf = (.selected, s') := by
  rw [connectLoop, dif_neg hb, hstep]

/-- `ykhsmauth_connect`: list the readers into the 2048-byte `reader_buf`,
walk them, and when the walk ends at the terminating empty name release
the context and return `YKHSMAUTHR_PCSC_ERROR`. -/
def ykhsmauthConnect (svc : Service) (s : Option Session) (wanted : Option (List UInt8)) :
    YkhsmauthRc × Option Session :=
  match s with
  | none => (.invalidParams, none)
  | some s =>
    match ykhsmauthListReaders svc (some s) (some (List.replicate 2048 0)) 2048 with
    | (.success, some s, some (buf, _)) =>
      match connectLoop svc wanted s buf with
      | (.selected, s) => (.success, some s)
      | (.exhausted rest, s) =>
        if rest.getD 0 0 = 0 then (.pcscError, some s.releaseContext) else (.genericError, some s)
    | (ret, s, _) => (ret, s)

/-- Once the readers are listed, `ykhsmauth_connect` is the walk over them
and the test after the loop. -/
theorem ykhsmauthConnect_listed (svc : Service) (s s1 : Session) (wanted : Option (List UInt8))
    {buf : List UInt8} {n : Nat}
    (hl : ykhsmauthListReaders svc (some s) (some (List.replicate 2048 0)) 2048 =
      (.success, some s1, some (buf, n))) :
    ykhsmauthConnect svc (some s) wanted =
      match connectLoop svc wanted s1 buf with
      | (.selected, s) => (.success, some s)
      | (.exhausted rest, s) =>
        if rest.getD 0 0 = 0 then (.pcscError, some s.releaseContext) else (.genericError, some s) := by
  rw [ykhsmauthConnect, hl]

/-! ## Runs of the library on one state -/

/-- A call of the library on the session, with the service's answers. -/
inductive Call where
  | listReaders (svc : Service) (readers : Option (List UInt8)) (len : Nat)
  | connect (svc : Service) (wanted : Option (List UInt8))
  | disconnect
  /-- A protocol operation: it sends its frame on `state->card` and changes
  neither the state nor the handles. -/
  | command

namespace Session

/-- The session that `ykhsmauth_init` starts, while the service hands out
handles from `next` on. -/
def init (verbose : Int) (next : Nat) : Session :=
  ⟨⟨verbose, SCARD_E_INVALID_HANDLE, 0⟩, ⟨[], [], next, []⟩⟩

/-- The session after one call. -/
def step (s : Session) : Call → Session
  | .listReaders svc readers len => (ykhsmauthListReaders svc (some s) readers len).2.1.getD s
  | .connect svc wanted => (ykhsmauthConnect svc (some s) wanted).2.getD s
  | .disconnect => (ykhsmauthDisconnect (some s)).2.getD s
  | .command => s

/-- The session after a sequence of calls. -/
def run (s : Session) (calls : List Call) : Session :=
  calls.foldl step s

@[simp] theorem run_nil (s : Session) : s.run [] = s := rfl

@[simp] theorem run_cons (s : Session) (c : Call) (calls : List Call) :
    s.run (c :: calls) = (s.step c).run calls := rfl

/-- A run in two parts. -/
theorem run_append (s : Session) (calls calls' : List Call) :
    s.run (calls ++ calls') = (s.run calls).run calls' :=
  List.foldl_append _ _ _ _

/-- `Session.init` is the state `ykhsmauth_init` returns. -/
theorem ykhsmauthInit_init (verbose : Int) (next : Nat) :
    ykhsmauthInit true true verbose = (.success, some (init verbose next).state) := rfl

end Session

/-! ## Contexts -/

/-- The library holds at most one context, and it is `state->context`. -/
def ContextsOk (s : Session) : Prop :=
  s.pcsc.contexts = [] ∨ s.pcsc.contexts = [s.state.context]

namespace Session

/-- A release keeps `ContextsOk`: it leaves no context behind. -/
theorem releaseContext_contextsOk {s : Session} (hs : ContextsOk s) :
    ContextsOk s.releaseContext := by
  left
  rcases hs with h | h <;> simp [releaseContext, h]

/-- A new context is established only when none is valid, and it becomes
`state->context`. -/
theorem establish_contextsOk {s : Session} (hs : ContextsOk s) (hv : ¬ s.ContextValid) :
    ContextsOk s.establish := by
  right
  rcases hs with h | h
  · simp [establish, h]
  · exact absurd (by simp [ContextValid, h]) hv

/-- A release after a failed check leaves no context behind. -/
theorem releaseContext_contexts {s : Session} (hs : ContextsOk s) :
    s.releaseContext.pcsc.contexts = [] :=
  (releaseContext_contextsOk hs).elim id fun h => by
    rcases hs with h' | h' <;> simp_all [releaseContext]

end Session

/-- The walk over the readers opens card handles and touches no context. -/
theorem connectLoop_contexts (svc : Service) (wanted : Option (List UInt8)) (s : Session)
    (buf : List UInt8) :
    (connectLoop svc wanted s buf).2.state.context = s.state.context ∧
      (connectLoop svc wanted s buf).2.pcsc.contexts = s.pcsc.contexts := by
  induction s, buf using connectLoop.induct svc wanted with
  | case1 s buf hb => rw [connectLoop, dif_pos hb]; simp
  | case2 s buf hb s' hstep =>
    rw [connectLoop, dif_neg hb, hstep]
    rcases tryReader_cases svc wanted s (buf.takeWhile (· ≠ 0)) with h | h | h <;>
      rw [h] at hstep <;> cases hstep
    simp
  | case3 s buf hb s' hstep ih =>
    rw [connectLoop, dif_neg hb, hstep]
    rcases tryReader_cases svc wanted s (buf.takeWhile (· ≠ 0)) with h | h | h <;>
      rw [h] at hstep <;> cases hstep
    · exact ih
    · simpa using ih

/-- The context check keeps `ContextsOk`. -/
theorem Session.ensureContext_contextsOk {svc : Service} {s : Session} (hs : ContextsOk s) :
    ∀ s' ∈ s.ensureContext svc, ContextsOk s' := by
  intro s' hs'
  simp only [ensureContext] at hs'
  split_ifs at hs' with hv <;> simp only [Option.mem_def, Option.some.injEq, reduceCtorEq] at hs'
  · exact hs' ▸ hs
  · exact hs' ▸ establish_contextsOk hs hv

/-- `ykhsmauth_list_readers` leaves the session as it was, with the context
check done, or with the context then released. -/
theorem ykhsmauthListReaders_session (svc : Service) (s : Session) (readers : Option (List UInt8))
    (len : Nat) : ∀ s' ∈ (ykhsmauthListReaders svc (some s) readers len).2.1,
      s' = s ∨ ∃ e ∈ s.ensureContext svc, s' = e ∨ s' = e.releaseContext := by
  intro s' hs'
  cases readers with
  | none => exact .inl (Option.some.inj hs').symm
  | some _ =>
    simp only [ykhsmauthListReaders] at hs'
    split at hs'
    · exact .inl (Option.some.inj hs').symm
    · rename_i e he
      refine .inr ⟨e, he, ?_⟩
      split at hs'
      · exact .inr (Option.some.inj hs').symm
      · split at hs' <;> simp only [Option.mem_def, Option.some.injEq] at hs' <;> simp [hs']

/-- `ykhsmauth_list_readers` keeps `ContextsOk`. -/
theorem ykhsmauthListReaders_contextsOk (svc : Service) (s : Session)
    (readers : Option (List UInt8)) (len : Nat) (hs : ContextsOk s) :
    ∀ s' ∈ (ykhsmauthListReaders svc (some s) readers len).2.1, ContextsOk s' := by
  intro s' hs'
  rcases ykhsmauthListReaders_session svc s readers len s' hs' with rfl | ⟨e, he, rfl | rfl⟩
  · exact hs
  · exact Session.ensureContext_contextsOk hs _ he
  · exact Session.releaseContext_contextsOk (Session.ensureContext_contextsOk hs _ he)

/-- The walk keeps `ContextsOk`. -/
theorem connectLoop_contextsOk (svc : Service) (wanted : Option (List UInt8)) {s : Session}
    (buf : List UInt8) (hs : ContextsOk s) : ContextsOk (connectLoop svc wanted s buf).2 := by
  obtain ⟨h1, h2⟩ := connectLoop_contexts svc wanted s buf
  unfold ContextsOk
  rwa [h1, h2]

/-- `ykhsmauth_connect` keeps `ContextsOk`. -/
theorem ykhsmauthConnect_contextsOk (svc : Service) (s : Session) (wanted : Option (List UInt8))
    (hs : ContextsOk s) : ∀ s' ∈ (ykhsmauthConnect svc (some s) wanted).2, ContextsOk s' := by
  have hl := ykhsmauthListReaders_contextsOk svc s (some (List.replicate 2048 0)) 2048 hs
  intro s' hs'
  simp only [ykhsmauthConnect] at hs'
  split at hs'
  · rename_i s1 buf _ heq
    have h2 := connectLoop_contextsOk svc wanted buf (hl s1 (by rw [heq]; rfl))
    split at hs' <;> rename_i heq2 <;> rw [heq2] at h2
    · exact Option.some.inj hs' ▸ h2
    · split_ifs at hs' <;> simp only [Option.mem_def, Option.some.injEq] at hs' <;> subst hs'
      exacts [Session.releaseContext_contextsOk h2, h2]
  · rename_i heq
    exact hl s' (by rw [heq]; exact hs')

/-- Closing the card touches no context. -/
theorem Session.disconnectCard_contextsOk {s : Session} (hs : ContextsOk s) :
    ContextsOk s.disconnectCard := by
  unfold ContextsOk
  simpa using hs

/-- With no valid context, the library holds none. -/
theorem Session.contexts_eq_nil {s : Session} (hs : ContextsOk s) (hv : ¬ s.ContextValid) :
    s.pcsc.contexts = [] :=
  hs.resolve_right fun h => hv (by simp [ContextValid, h])

/-- After `ykhsmauth_disconnect` the library holds no context and
`state->card` is `0`. -/
theorem ykhsmauthDisconnect_releases (s : Session) (hs : ContextsOk s) :
    ∀ s' ∈ (ykhsmauthDisconnect (some s)).2, s'.pcsc.contexts = [] ∧ s'.state.card = 0 := by
  have release : ∀ s1 : Session, ContextsOk s1 → s1.state.card = 0 →
      (if s1.ContextValid then s1.releaseContext else s1).pcsc.contexts = [] ∧
        (if s1.ContextValid then s1.releaseContext else s1).state.card = 0 := by
    intro s1 h1 hc
    split_ifs with hv
    · exact ⟨Session.releaseContext_contexts h1, hc⟩
    · exact ⟨Session.contexts_eq_nil h1 hv, hc⟩
  intro s' hs'
  simp only [ykhsmauthDisconnect, Option.mem_def, Option.some.injEq] at hs'
  subst hs'
  by_cases hc : s.state.card ≠ 0
  · rw [if_pos hc]
    exact release _ (Session.disconnectCard_contextsOk hs) rfl
  · rw [if_neg hc]
    exact release _ hs (not_not.mp hc)

namespace Session

/-- One call keeps `ContextsOk`, whatever the service answers. -/
theorem step_contextsOk (s : Session) (c : Call) (hs : ContextsOk s) : ContextsOk (s.step c) := by
  cases c with
  | listReaders svc readers len =>
    simp only [step]
    cases h : (ykhsmauthListReaders svc (some s) readers len).2.1 with
    | none => exact hs
    | some s' => exact ykhsmauthListReaders_contextsOk svc s readers len hs s' h
  | connect svc wanted =>
    simp only [step]
    cases h : (ykhsmauthConnect svc (some s) wanted).2 with
    | none => exact hs
    | some s' => exact ykhsmauthConnect_contextsOk svc s wanted hs s' h
  | disconnect => exact .inl (ykhsmauthDisconnect_releases s hs _ rfl).1
  | command => exact hs

/-- Every run from a session with `ContextsOk` keeps it. -/
theorem run_contextsOk (s : Session) (calls : List Call) (hs : ContextsOk s) :
    ContextsOk (s.run calls) := by
  induction calls generalizing s with
  | nil => exact hs
  | cons c calls ih => exact ih _ (step_contextsOk s c hs)

/-- From `ykhsmauth_init`, over every sequence of calls and every answer of
the service, the library holds at most one context and it is
`state->context`; a last `ykhsmauth_disconnect` leaves it holding none. -/
theorem run_contexts (verbose : Int) (next : Nat) (calls : List Call) :
    ContextsOk ((init verbose next).run calls) ∧
      ((init verbose next).run (calls ++ [.disconnect])).pcsc.contexts = [] := by
  have h := run_contextsOk (init verbose next) calls (.inl rfl)
  refine ⟨h, ?_⟩
  rw [run_append]
  exact (ykhsmauthDisconnect_releases _ h _ rfl).1

end Session

/-! ## A reader that rejects the `SELECT` -/

/-- One reader, `"r"`, that accepts the connection while its card rejects
the `SELECT` with `0x6a82`: from `ykhsmauth_init`, `ykhsmauth_connect`
returns `YKHSMAUTHR_PCSC_ERROR` and releases the context, which frees the
card handle `2`; `state->card` still holds `2`, with no context and no card
handle held. -/
theorem ykhsmauthConnect_leaves_stale_card :
    let svc : Service := ⟨true, some 3,
      fun cap => if h : 3 ≤ cap then some ⟨[0x72, 0, 0], h⟩ else none,
      fun _ => true, fun _ => some ⟨[0x6a, 0x82], by decide⟩⟩
    ykhsmauthConnect svc (some (Session.init 0 1)) none =
      (.pcscError, some ⟨⟨0, SCARD_E_INVALID_HANDLE, 2⟩, ⟨[], [], 3, [[0x72]]⟩⟩) := by
  intro svc
  have hlist : ykhsmauthListReaders svc (some (Session.init 0 1)) (some (List.replicate 2048 0))
      2048 = (.success, some (Session.init 0 1).establish, some ([0x72, 0, 0], 3)) := rfl
  have hstep : tryReader svc none (Session.init 0 1).establish ([0x72, 0, 0].takeWhile (· ≠ 0)) =
      .next ((Session.init 0 1).establish.connectCard [0x72]) := by
    dsimp only [svc]
    rfl
  have hloop : connectLoop svc none (Session.init 0 1).establish [0x72, 0, 0] =
      (.exhausted [0], (Session.init 0 1).establish.connectCard [0x72]) := by
    rw [connectLoop_next svc none (by decide) hstep]
    exact connectLoop_exhausted svc none _ rfl
  rw [ykhsmauthConnect_listed svc _ _ none hlist, hloop]
  rfl

end Ykhsmauth
