import Mathlib.Data.List.Forall2
import Mathlib.Data.List.Infix
import Ykhsmauth.Session

/-!
# What the reader walk of `ykhsmauth_connect` does

`ykhsmauth_connect` walks the reader multi-string that
`ykhsmauth_list_readers` wrote: for each name it looks for `wanted` by a
naive scan with `strncasecmp` at every offset, calls `SCardConnect` on the
names that contain it, and selects the applet on each reader it connects
to, until one answers `SW_SUCCESS`.

* `SameIgnoringCase` and `ContainsIgnoringCase` say what a case-insensitive
  match is, byte by byte in ASCII, without the code's `toLower`.
  `toLower_eq_iff` pins `tolower` against them, and `findWanted_iff` shows
  that the scan finds `wanted` exactly when the name contains it.
* `Session.connectAll` is a run of `SCardConnect` calls.  `tryReader_eq`
  says everything the body does with one name, `connectLoop_connectAll`
  that the walk over any buffer is such a run, and `connectLoop_multiString`
  which run it is over a well-formed multi-string, by induction on its
  names.
* `ykhsmauthConnect_reader_walk` puts them together against a statement
  of the walk in its own terms (`specTried`, `specCalls`): the
  `SCardConnect` calls the service records are the wanted readers up to and
  including the first that connects and selects, and the command succeeds
  exactly when there is one and otherwise returns `YKHSMAUTHR_PCSC_ERROR`.
* `ykhsmauthConnect_ne_genericError`: over every service and every buffer,
  the `YKHSMAUTHR_GENERIC_ERROR` return after the loop is never taken.
-/

namespace Ykhsmauth

/-! ## The case-insensitive search -/

theorem byte_eq_iff {a b : UInt8} : a = b ↔ a.toNat = b.toNat := ⟨congrArg _, UInt8.toNat.inj⟩

/-- Two bytes equal up to ASCII case: the same byte, or the capital and the
small form of one letter, which are `0x20` apart. -/
def SameIgnoringCase (a b : UInt8) : Prop :=
  a = b ∨ (0x41 ≤ a.toNat ∧ a.toNat ≤ 0x5a ∧ b.toNat = a.toNat + 0x20) ∨
    (0x41 ≤ b.toNat ∧ b.toNat ≤ 0x5a ∧ a.toNat = b.toNat + 0x20)

instance (a b : UInt8) : Decidable (SameIgnoringCase a b) :=
  inferInstanceAs (Decidable (_ ∨ _))

/-- `name` contains `wanted` up to ASCII case: from some position of `name`
on, the next `strlen(wanted)` bytes match those of `wanted` one for one. -/
def ContainsIgnoringCase (wanted name : List UInt8) : Prop :=
  ∃ tail ∈ name.tails, List.Forall₂ SameIgnoringCase wanted (tail.take wanted.length)

instance (wanted name : List UInt8) : Decidable (ContainsIgnoringCase wanted name) :=
  List.decidableBEx _ _

/-- `tolower` on the value of a byte. -/
theorem toLower_toNat (c : UInt8) :
    (toLower c).toNat = if 0x41 ≤ c.toNat ∧ c.toNat ≤ 0x5a then c.toNat + 0x20 else c.toNat := by
  have hlo : (0x41 : UInt8) ≤ c ↔ 0x41 ≤ c.toNat := Iff.rfl
  have hhi : c ≤ 0x5a ↔ c.toNat ≤ 0x5a := Iff.rfl
  unfold toLower
  by_cases h : 0x41 ≤ c.toNat ∧ c.toNat ≤ 0x5a
  · rw [if_pos (And.intro (hlo.mpr h.1) (hhi.mpr h.2)), if_pos h]
    show (c.toNat + 0x20) % 256 = _
    omega
  · rw [if_neg (fun h' => h ⟨hlo.mp h'.1, hhi.mp h'.2⟩), if_neg h]

/-- `tolower` maps two bytes to the same byte exactly when they are equal up
to ASCII case. -/
theorem toLower_eq_iff (a b : UInt8) : toLower a = toLower b ↔ SameIgnoringCase a b := by
  have ha := byte_lt a
  have hb := byte_lt b
  rw [byte_eq_iff, toLower_toNat, toLower_toNat, SameIgnoringCase, byte_eq_iff]
  split_ifs <;> omega

/-- Two byte strings lower to the same string exactly when they match up to
case, byte for byte. -/
theorem map_toLower_eq_iff (l₁ l₂ : List UInt8) :
    l₁.map toLower = l₂.map toLower ↔ List.Forall₂ SameIgnoringCase l₁ l₂ := by
  induction l₁ generalizing l₂ with
  | nil => cases l₂ <;> simp
  | cons a l₁ ih => cases l₂ <;> simp [toLower_eq_iff, ih, List.forall₂_nil_right_iff]

/-- The `strncasecmp` at the cursor succeeds exactly when the next
`strlen(wanted)` characters match `wanted` up to case. -/
theorem prefixMatches_iff (ptr wanted : List UInt8) :
    prefixMatches ptr wanted = true ↔
      List.Forall₂ SameIgnoringCase wanted (ptr.take wanted.length) := by
  rw [prefixMatches, beq_iff_eq, eq_comm, map_toLower_eq_iff]

/-- The scan of `ykhsmauth_connect` finds `wanted` in `name` exactly when
`name` contains it up to case: it tries every offset from `0` to
`strlen(name) - strlen(wanted)`. -/
theorem findWanted_iff (wanted name : List UInt8) :
    findWanted wanted name = true ↔ ContainsIgnoringCase wanted name := by
  unfold ContainsIgnoringCase
  induction name with
  | nil =>
    rw [findWanted, Bool.and_eq_true, prefixMatches_iff]
    simp [List.forall₂_nil_right_iff]
  | cons c ptr ih =>
    rw [findWanted, Bool.and_eq_true, decide_eq_true_iff, Bool.or_eq_true, prefixMatches_iff, ih,
      List.tails]
    simp only [List.mem_cons, or_and_right, exists_or, exists_eq_left]
    -- the length guard of the loop follows from a match at the cursor or later
    refine and_iff_right_of_imp fun h => ?_
    rcases h with hp | ⟨tail, ht, hp⟩
    · have := hp.length_eq
      simp only [List.length_take, List.length_cons] at this
      omega
    · have h1 := hp.length_eq
      have h2 := ((List.mem_tails _ _).mp ht).length_le
      simp only [List.length_take] at h1
      omega

/-! ## What the walk should do -/

/-- The readers `ykhsmauth_connect` should try: every reader for a
`NULL` filter, otherwise those whose name contains the filter up to case. -/
def specWanted (wanted : Option (List UInt8)) (name : List UInt8) : Bool :=
  match wanted with
  | some wd => decide (ContainsIgnoringCase wd name)
  | none => true

/-- The filter of the walk is the specified one. -/
theorem readerWanted_eq_specWanted (wanted : Option (List UInt8)) (name : List UInt8) :
    readerWanted wanted name = specWanted wanted name := by
  cases wanted with
  | none => rfl
  | some wd =>
    show findWanted wd name = decide (ContainsIgnoringCase wd name)
    rw [Bool.eq_iff_iff, findWanted_iff, decide_eq_true_iff]

/-- `SCardConnect` on the reader succeeds and its card answers the `SELECT`
of the applet with `SW_SUCCESS`. -/
def Selects (svc : Service) (name : List UInt8) : Bool :=
  svc.connect name &&
    decide ((sendData (svc.select name)).rc = .success ∧ (sendData (svc.select name)).sw = SW_SUCCESS)

/-- The elements of `l` up to and including the first that satisfies `p`,
or all of `l` when none does. -/
def takeThrough {α : Type} (p : α → Bool) : List α → List α
  | [] => []
  | a :: l => if p a then [a] else a :: takeThrough p l

/-- The readers `ykhsmauth_connect` should try, in list order. -/
def specTried (wanted : Option (List UInt8)) (names : List (List UInt8)) : List (List UInt8) :=
  names.filter (specWanted wanted)

/-- The `SCardConnect` calls `ykhsmauth_connect` should make: the tried
readers, in list order, up to and including the first on which the
connection and the `SELECT` succeed. -/
def specCalls (svc : Service) (wanted : Option (List UInt8)) (names : List (List UInt8)) :
    List (List UInt8) :=
  takeThrough (Selects svc) (specTried wanted names)

/-! ## Reader multi-strings -/

/-- The multi-string of `names`: each name followed by its terminating
zero.  A well-formed one ends with the empty name, one more zero. -/
def multiString (names : List (List UInt8)) : List UInt8 :=
  (names.map (· ++ [0])).flatten

/-- A reader name: not empty, and with no zero before its terminator. -/
def ReaderName (name : List UInt8) : Prop :=
  name ≠ [] ∧ (0 : UInt8) ∉ name

@[simp] theorem multiString_nil : multiString [] = [] := rfl

@[simp] theorem multiString_cons (name : List UInt8) (names : List (List UInt8)) :
    multiString (name :: names) = name ++ 0 :: multiString names := by
  simp [multiString]

section Name

variable {name : List UInt8} (more : List UInt8)

/-- The cursor at a reader name is not at `'\0'`. -/
theorem getD_name (hn : ReaderName name) : ¬ (name ++ 0 :: more).getD 0 0 = 0 := by
  obtain ⟨hne, h0⟩ := hn
  cases name with
  | nil => exact absurd rfl hne
  | cons c rest =>
    simp only [List.cons_append, List.getD_cons_zero]
    exact fun hc => h0 (hc ▸ List.mem_cons_self c rest)

/-- `strlen` at a reader name is its length. -/
theorem takeWhile_name (hn : ReaderName name) : (name ++ 0 :: more).takeWhile (· ≠ 0) = name := by
  have hpos : ∀ c ∈ name, decide (c ≠ 0) = true := fun c hc =>
    decide_eq_true fun h : c = 0 => hn.2 (h ▸ hc)
  rw [List.takeWhile_append_of_pos hpos]
  simp

/-- `reader_ptr += strlen(reader_ptr) + 1` moves past the name. -/
theorem drop_name : (name ++ 0 :: more).drop (name.length + 1) = more := by
  simp

end Name

/-! ## The `SCardConnect` calls of the walk -/

namespace Session

/-- `SCardConnect` on each of `names` in turn. -/
def connectAll (svc : Service) (s : Session) (names : List (List UInt8)) : Session :=
  names.foldl (fun s name => s.scardConnect svc name) s

section ConnectAll

variable (svc : Service) (s : Session) (names : List (List UInt8))

@[simp] theorem connectAll_nil : s.connectAll svc [] = s := rfl

@[simp] theorem connectAll_cons (name : List UInt8) :
    s.connectAll svc (name :: names) = (s.scardConnect svc name).connectAll svc names := rfl

@[simp] theorem connectAll_connects :
    (s.connectAll svc names).pcsc.connects = s.pcsc.connects ++ names := by
  induction names generalizing s with
  | nil => simp
  | cons name names ih => simp [ih]

@[simp] theorem connectAll_context : (s.connectAll svc names).state.context = s.state.context := by
  induction names generalizing s with
  | nil => rfl
  | cons name names ih => simp [ih]

@[simp] theorem connectAll_contexts :
    (s.connectAll svc names).pcsc.contexts = s.pcsc.contexts := by
  induction names generalizing s with
  | nil => rfl
  | cons name names ih => simp [ih]

end ConnectAll

end Session

/-- Everything the body does with one name: a wanted name gets its
`SCardConnect` call, and the body returns when the reader also selects; any
other name is skipped. -/
theorem tryReader_eq (svc : Service) (wanted : Option (List UInt8)) (s : Session)
    (name : List UInt8) :
    tryReader svc wanted s name =
      if readerWanted wanted name then
        if Selects svc name then .selected (s.scardConnect svc name)
        else .next (s.scardConnect svc name)
      else .next s := by
  unfold tryReader Selects
  cases readerWanted wanted name <;> cases svc.connect name <;>
    by_cases hrc : (sendData (svc.select name)).rc = .success <;> simp [hrc]

section Name

variable (svc : Service) (wanted : Option (List UInt8)) (s : Session) {name : List UInt8}
  (more : List UInt8)

/-- The walk at a reader name. -/
theorem connectLoop_name (hn : ReaderName name) :
    connectLoop svc wanted s (name ++ 0 :: more) =
      if readerWanted wanted name && Selects svc name then (.selected, s.scardConnect svc name)
      else connectLoop svc wanted
        (if readerWanted wanted name then s.scardConnect svc name else s) more := by
  rw [connectLoop, dif_neg (getD_name more hn), takeWhile_name more hn, tryReader_eq, drop_name]
  cases readerWanted wanted name <;> cases Selects svc name <;> rfl

end Name

/-- Over every reader buffer, the walk is a run of `SCardConnect` calls and
nothing else, and when it returns, the last of them succeeded. -/
theorem connectLoop_connectAll (svc : Service) (wanted : Option (List UInt8)) (s : Session)
    (buf : List UInt8) :
    ∃ calls, (connectLoop svc wanted s buf).2 = s.connectAll svc calls ∧
      ((connectLoop svc wanted s buf).1 = .selected →
        ∃ pre name, calls = pre ++ [name] ∧ svc.connect name = true) := by
  induction s, buf using connectLoop.induct svc wanted with
  | case1 s buf hb =>
    rw [connectLoop_exhausted svc wanted s hb]
    exact ⟨[], rfl, nofun⟩
  | case2 s buf hb s' hstep =>
    rw [connectLoop_selected svc wanted hb hstep]
    generalize buf.takeWhile (· ≠ 0) = name at hstep
    rw [tryReader_eq] at hstep
    split_ifs at hstep with hw hsel
    cases hstep
    simp only [Selects, Bool.and_eq_true] at hsel
    exact ⟨[name], rfl, fun _ => ⟨[], name, rfl, hsel.1⟩⟩
  | case3 s buf hb s' hstep ih =>
    rw [connectLoop_next svc wanted hb hstep]
    obtain ⟨calls, heq, hsel⟩ := ih
    generalize buf.takeWhile (· ≠ 0) = name at hstep heq hsel ⊢
    rw [tryReader_eq] at hstep
    split_ifs at hstep <;> cases hstep
    · refine ⟨name :: calls, heq, fun h => ?_⟩
      obtain ⟨pre, n, rfl, hn⟩ := hsel h
      exact ⟨name :: pre, n, rfl, hn⟩
    · exact ⟨calls, heq, hsel⟩

/-! ## The walk over a well-formed multi-string -/

/-- Over a well-formed multi-string the walk calls `SCardConnect` on the
wanted names in order, up to and including the first that selects, and it
stops there when there is one, and otherwise at the empty name. -/
theorem connectLoop_multiString (svc : Service) (wanted : Option (List UInt8)) (rest : List UInt8)
    (names : List (List UInt8)) (hnames : ∀ name ∈ names, ReaderName name) (s : Session) :
    connectLoop svc wanted s (multiString names ++ 0 :: rest) =
      (if names.any (fun n => readerWanted wanted n && Selects svc n) then .selected
        else .exhausted (0 :: rest),
        s.connectAll svc (takeThrough (Selects svc) (names.filter (readerWanted wanted)))) := by
  induction names generalizing s with
  | nil => exact connectLoop_exhausted svc wanted s rfl
  | cons name names ih =>
    obtain ⟨hn, hnames⟩ := List.forall_mem_cons.mp hnames
    rw [multiString_cons, List.append_assoc, List.cons_append, connectLoop_name svc wanted s _ hn,
      List.any_cons, List.filter_cons]
    cases hw : readerWanted wanted name <;> cases hs : Selects svc name <;>
      simp [takeThrough, hw, hs, ih hnames]

/-! ## `ykhsmauth_connect` -/

/-- `ykhsmauth_list_readers` makes no `SCardConnect` call. -/
theorem ykhsmauthListReaders_connects (svc : Service) (s : Session)
    (readers : Option (List UInt8)) (len : Nat) :
    ∀ s' ∈ (ykhsmauthListReaders svc (some s) readers len).2.1,
      s'.pcsc.connects = s.pcsc.connects := by
  have hcheck : ∀ e ∈ s.ensureContext svc, e.pcsc.connects = s.pcsc.connects := by
    intro e he
    unfold Session.ensureContext at he
    split_ifs at he <;> cases he <;> rfl
  intro s' hs'
  rcases ykhsmauthListReaders_session svc s readers len s' hs' with rfl | ⟨e, he, rfl | rfl⟩
  · rfl
  · exact hcheck _ he
  · exact hcheck e he

/-- Over every well-formed reader multi-string that `ykhsmauth_list_readers`
returns and every filter, `ykhsmauth_connect` calls `SCardConnect` on
exactly the wanted readers in list order, up to and including the first on
which the connection and the `SELECT` succeed: those are the calls the
service records.  It returns `YKHSMAUTHR_SUCCESS` exactly when there is
such a reader, and `YKHSMAUTHR_PCSC_ERROR` otherwise. -/
theorem ykhsmauthConnect_reader_walk (svc : Service) (s s1 : Session)
    (wanted : Option (List UInt8)) (names : List (List UInt8)) (rest : List UInt8) (len : Nat)
    (hnames : ∀ name ∈ names, ReaderName name)
    (hl : ykhsmauthListReaders svc (some s) (some (List.replicate 2048 0)) 2048 =
      (.success, some s1, some (multiString names ++ 0 :: rest, len))) :
    (∃ s', (ykhsmauthConnect svc (some s) wanted).2 = some s' ∧
        s'.pcsc.connects = s.pcsc.connects ++ specCalls svc wanted names) ∧
      ((ykhsmauthConnect svc (some s) wanted).1 = .success ↔
        ∃ name ∈ specTried wanted names, Selects svc name = true) ∧
      ((ykhsmauthConnect svc (some s) wanted).1 = .success ∨
        (ykhsmauthConnect svc (some s) wanted).1 = .pcscError) := by
  have hfilter : readerWanted wanted = specWanted wanted :=
    funext (readerWanted_eq_specWanted wanted)
  have hany : names.any (fun n => readerWanted wanted n && Selects svc n) = true ↔
      ∃ name ∈ specTried wanted names, Selects svc name = true := by
    simp [specTried, hfilter, List.any_eq_true, and_assoc]
  have hcalls : s1.pcsc.connects ++ takeThrough (Selects svc) (names.filter (readerWanted wanted)) =
      s.pcsc.connects ++ specCalls svc wanted names := by
    rw [ykhsmauthListReaders_connects svc s _ _ s1 (by rw [hl]; rfl), hfilter]
    rfl
  rw [ykhsmauthConnect_listed svc s s1 wanted hl, connectLoop_multiString svc wanted rest names
    hnames s1, ← hany]
  by_cases h : names.any (fun n => readerWanted wanted n && Selects svc n) = true <;>
    simp [h, hcalls, Session.releaseContext]

/-- One reader, `"r"`, that accepts the connection and whose card answers
the `SELECT` with `SW_SUCCESS`. -/
def selectingReader : Service :=
  ⟨true, some 3, fun cap => if h : 3 ≤ cap then some ⟨[0x72, 0, 0], h⟩ else none,
    fun _ => true, fun _ => some ⟨[0x90, 0x00], by decide⟩⟩

/-- The walk over the single reader `"r"` with the filter `"R"`. -/
theorem ykhsmauthConnect_reader_walk_selecting :
    (∀ name ∈ [[(0x72 : UInt8)]], ReaderName name) ∧
    ykhsmauthListReaders selectingReader (some (Session.init 0 1))
        (some (List.replicate 2048 0)) 2048 =
      (.success, some (Session.init 0 1).establish, some (multiString [[0x72]] ++ [0], 3)) ∧
    ((∃ s', (ykhsmauthConnect selectingReader (some (Session.init 0 1)) (some [0x52])).2 = some s' ∧
        s'.pcsc.connects = (Session.init 0 1).pcsc.connects ++
          specCalls selectingReader (some [0x52]) [[0x72]]) ∧
      ((ykhsmauthConnect selectingReader (some (Session.init 0 1)) (some [0x52])).1 = .success ↔
        ∃ name ∈ specTried (some [0x52]) [[0x72]], Selects selectingReader name = true) ∧
      ((ykhsmauthConnect selectingReader (some (Session.init 0 1)) (some [0x52])).1 = .success ∨
        (ykhsmauthConnect selectingReader (some (Session.init 0 1)) (some [0x52])).1 =
          .pcscError)) := by
  refine ⟨?hn, ?hl, ykhsmauthConnect_reader_walk _ _ _ _ _ _ _ ?hn ?hl⟩
  case hn => simp [ReaderName]
  case hl => rfl

/-! ## No `YKHSMAUTHR_GENERIC_ERROR` -/

/-- The walk gives up only at the `'\0'` that ends the multi-string. -/
theorem connectLoop_exhausted_nul (svc : Service) (wanted : Option (List UInt8)) (s : Session)
    (buf rest : List UInt8) (h : (connectLoop svc wanted s buf).1 = .exhausted rest) :
    rest.getD 0 0 = 0 := by
  induction s, buf using connectLoop.induct svc wanted with
  | case1 s buf hb => rw [connectLoop_exhausted svc wanted s hb] at h; cases h; exact hb
  | case2 s buf hb s' hstep => rw [connectLoop_selected svc wanted hb hstep] at h; cases h
  | case3 s buf hb s' hstep ih => rw [connectLoop_next svc wanted hb hstep] at h; exact ih h

/-- `ykhsmauth_list_readers` never returns `YKHSMAUTHR_GENERIC_ERROR`. -/
theorem ykhsmauthListReaders_ne_genericError (svc : Service) (s : Option Session)
    (readers : Option (List UInt8)) (len : Nat) :
    (ykhsmauthListReaders svc s readers len).1 ≠ .genericError := by
  unfold ykhsmauthListReaders
  repeat' split
  all_goals nofun

/-- Over every service, session and filter, `ykhsmauth_connect` never
returns `YKHSMAUTHR_GENERIC_ERROR`: the walk leaves its loop only at the
`'\0'` that the test after the loop looks for. -/
theorem ykhsmauthConnect_ne_genericError (svc : Service) (s : Option Session)
    (wanted : Option (List UInt8)) : (ykhsmauthConnect svc s wanted).1 ≠ .genericError := by
  unfold ykhsmauthConnect
  split
  · nofun
  next s =>
    split
    · split
      · nofun
      · rename_i rest _ heq
        rw [if_pos (connectLoop_exhausted_nul svc wanted _ _ rest (by rw [heq]))]
        nofun
    · rename_i heq
      have h := ykhsmauthListReaders_ne_genericError svc (some s) (some (List.replicate 2048 0)) 2048
      rwa [heq] at h

end Ykhsmauth
