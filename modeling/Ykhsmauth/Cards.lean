import Ykhsmauth.Walk

/-!
# Card handles

`state->card` holds the card handle of a session, `0` for none.  Every
`SCardConnect` of the walk of `ykhsmauth_connect` writes it: the new handle
when the reader connects, `0` when it does not.  `ykhsmauth_disconnect`
closes it and clears it, and every `SCardReleaseContext` frees the handles
opened in the context it releases.

* `Session.connectAll_cards`: a run of `SCardConnect` calls opens one handle
  per call that succeeds, in `state->context`, and closes none.
* `ykhsmauthConnect_cases` says once what `ykhsmauth_connect` can return:
  the failure of `ykhsmauth_list_readers`, a walk that selected, or a walk
  that ran out of names and released the context.
* `ykhsmauthConnect_success_cards`: a successful `ykhsmauth_connect` closes no
  card handle.  It opens one per `SCardConnect` that succeeds and keeps the
  last in `state->card`; the others, and any handle held before the call,
  stay held with nothing in the state naming them.
* `CardsOk`: every card handle the service holds was opened in
  `state->context`, and the service holds that context.  Every call keeps it
  (`Session.step_cardsOk`), and `Session.run_cards` lifts it to every run: a
  last `ykhsmauth_disconnect`, and every return of `ykhsmauth_connect` other
  than `YKHSMAUTHR_SUCCESS`, leaves no card handle held.
-/

namespace Ykhsmauth

namespace Session

/-! ## Connections in a row -/

section ConnectAll

variable (svc : Service) (s : Session) (names : List (List UInt8))

theorem connectAll_next :
    (s.connectAll svc names).pcsc.next = s.pcsc.next + (names.filter svc.connect).length := by
  induction names generalizing s with
  | nil => rfl
  | cons name names ih =>
    rw [connectAll_cons, ih, List.filter_cons]
    unfold scardConnect
    split <;> simp only [connectCard, connectFails, *, if_true, List.length_cons]
    omega

/-- The calls open the handles `next`, `next + 1`, … in `state->context`, one
per call that succeeds, the newest first, and close none. -/
theorem connectAll_cards :
    (s.connectAll svc names).pcsc.cards =
      ((List.range' s.pcsc.next (names.filter svc.connect).length).reverse.map
        fun c => (c, s.state.context)) ++ s.pcsc.cards := by
  induction names generalizing s with
  | nil => rfl
  | cons name names ih =>
    rw [connectAll_cons, ih, List.filter_cons]
    unfold scardConnect
    split <;> simp [connectCard, connectFails, *, List.range'_succ]

/-- A walk that ends on a reader that connected leaves its handle, the last
one opened, in `state->card`. -/
theorem connectAll_card_last (pre : List (List UInt8)) (name : List UInt8)
    (h : svc.connect name = true) :
    (s.connectAll svc (pre ++ [name])).state.card =
      (s.connectAll svc (pre ++ [name])).pcsc.next - 1 := by
  simp only [connectAll, List.foldl_append, List.foldl_cons, List.foldl_nil, scardConnect, h,
    if_true, connectCard, Nat.add_sub_cancel]

end ConnectAll

end Session

/-! ## What `ykhsmauth_connect` returns -/

/-- The context check ends with a valid context and touches no card
handle. -/
theorem Session.ensureContext_some {svc : Service} {s e : Session}
    (he : s.ensureContext svc = some e) : e.ContextValid ∧ e.pcsc.cards = s.pcsc.cards := by
  unfold ensureContext at he
  split_ifs at he with hv <;> cases he
  · exact ⟨hv, rfl⟩
  · exact ⟨List.mem_cons_self _ _, rfl⟩

/-- A successful `ykhsmauth_list_readers` on a session returns the session of
its context check, with the context valid and the card handles as they were,
and the bytes it wrote. -/
theorem ykhsmauthListReaders_success (svc : Service) (s : Session) (readers : Option (List UInt8))
    (len : Nat) (h : (ykhsmauthListReaders svc (some s) readers len).1 = .success) :
    ∃ s1 buf n, ykhsmauthListReaders svc (some s) readers len = (.success, some s1, some (buf, n)) ∧
      s1.ContextValid ∧ s1.pcsc.cards = s.pcsc.cards := by
  revert h
  unfold ykhsmauthListReaders
  split
  · rename_i heq
    cases heq
    split
    · nofun
    · rename_i e he
      split
      · nofun
      · split
        · nofun
        · exact fun _ => ⟨e, _, _, rfl, Session.ensureContext_some he⟩
  · nofun

/-- Every return of `ykhsmauth_connect` on a session: what a failed
`ykhsmauth_list_readers` returned, `YKHSMAUTHR_SUCCESS` after a walk that
selected, or `YKHSMAUTHR_PCSC_ERROR` with the context released after a walk
that ran out of names. -/
theorem ykhsmauthConnect_cases (svc : Service) (s : Session) (wanted : Option (List UInt8)) :
    ((ykhsmauthListReaders svc (some s) (some (List.replicate 2048 0)) 2048).1 ≠ .success ∧
        ykhsmauthConnect svc (some s) wanted =
          ((ykhsmauthListReaders svc (some s) (some (List.replicate 2048 0)) 2048).1,
            (ykhsmauthListReaders svc (some s) (some (List.replicate 2048 0)) 2048).2.1)) ∨
      ∃ s1 buf n, ykhsmauthListReaders svc (some s) (some (List.replicate 2048 0)) 2048 =
          (.success, some s1, some (buf, n)) ∧ s1.ContextValid ∧ s1.pcsc.cards = s.pcsc.cards ∧
        ((connectLoop svc wanted s1 buf).1 = .selected ∧
            ykhsmauthConnect svc (some s) wanted = (.success, some (connectLoop svc wanted s1 buf).2) ∨
          ykhsmauthConnect svc (some s) wanted =
            (.pcscError, some (connectLoop svc wanted s1 buf).2.releaseContext)) := by
  by_cases hrc : (ykhsmauthListReaders svc (some s) (some (List.replicate 2048 0)) 2048).1 = .success
  · obtain ⟨s1, buf, n, hl, hs1⟩ := ykhsmauthListReaders_success svc s _ _ hrc
    refine .inr ⟨s1, buf, n, hl, hs1.1, hs1.2, ?_⟩
    rw [ykhsmauthConnect_listed svc s s1 wanted hl]
    rcases hloop : connectLoop svc wanted s1 buf with ⟨_ | rest, s2⟩
    · exact .inl ⟨rfl, rfl⟩
    · have hnul := connectLoop_exhausted_nul svc wanted s1 buf rest (by rw [hloop])
      exact .inr (by simp only [hnul, if_true])
  · refine .inl ⟨hrc, ?_⟩
    simp only [ykhsmauthConnect]
    split
    · rename_i heq
      exact absurd (by rw [heq]) hrc
    · rename_i heq
      rw [heq]

/-! ## A successful connect -/

/-- A successful `ykhsmauth_connect` closes no card handle.  Over the
`SCardConnect` calls it made, it opens one handle per call that succeeded,
all in `state->context`, and leaves the last one in `state->card`; every
handle held before the call is still held. -/
theorem ykhsmauthConnect_success_cards (svc : Service) (s s' : Session)
    (wanted : Option (List UInt8))
    (hs : ykhsmauthConnect svc (some s) wanted = (.success, some s')) :
    ∃ calls, s'.pcsc.connects = s.pcsc.connects ++ calls ∧
      0 < (calls.filter svc.connect).length ∧
      s'.pcsc.cards =
        ((List.range' (s'.pcsc.next - (calls.filter svc.connect).length)
          (calls.filter svc.connect).length).reverse.map fun c => (c, s'.state.context)) ++
          s.pcsc.cards ∧
      s'.state.card = s'.pcsc.next - 1 := by
  rcases ykhsmauthConnect_cases svc s wanted with ⟨hrc, h⟩ | ⟨s1, buf, n, hl, -, hcards, hsel | h⟩
  · rw [hs] at h
    exact absurd (Prod.ext_iff.mp h).1.symm hrc
  · obtain ⟨calls, hloop, hlast⟩ := connectLoop_connectAll svc wanted s1 buf
    obtain ⟨pre, name, rfl, hname⟩ := hlast hsel.1
    obtain rfl : s' = (connectLoop svc wanted s1 buf).2 := by
      rw [hs] at hsel
      exact (Option.some.inj (Prod.ext_iff.mp hsel.2).2)
    have hk : 0 < ((pre ++ [name]).filter svc.connect).length := by
      simp [List.filter_append, hname]
    refine ⟨pre ++ [name], ?_, hk, ?_, ?_⟩
    · rw [hloop, Session.connectAll_connects,
        ykhsmauthListReaders_connects svc s _ _ s1 (by rw [hl]; rfl)]
    · rw [hloop, Session.connectAll_cards, Session.connectAll_next, Session.connectAll_context,
        hcards, Nat.add_sub_cancel]
    · rw [hloop]
      exact Session.connectAll_card_last svc s1 pre name hname
  · rw [hs] at h
    cases h

/-- From `ykhsmauth_init`, `ykhsmauth_connect` on `selectingReader` opens the
handle `2` in the context `1` and keeps it in `state->card`. -/
theorem ykhsmauthConnect_success_cards_selecting :
    ykhsmauthConnect selectingReader (some (Session.init 0 1)) none =
        (.success, some ⟨⟨0, 1, 2⟩, ⟨[1], [(2, 1)], 3, [[0x72]]⟩⟩) ∧
      ∃ calls, [[(0x72 : UInt8)]] = (Session.init 0 1).pcsc.connects ++ calls ∧
        0 < (calls.filter selectingReader.connect).length ∧
        [((2 : Nat), (1 : Nat))] =
          ((List.range' (3 - (calls.filter selectingReader.connect).length)
            (calls.filter selectingReader.connect).length).reverse.map fun c => (c, 1)) ++
            (Session.init 0 1).pcsc.cards ∧
        2 = 3 - 1 := by
  have hl : ykhsmauthListReaders selectingReader (some (Session.init 0 1))
      (some (List.replicate 2048 0)) 2048 =
        (.success, some (Session.init 0 1).establish, some ([0x72, 0, 0], 3)) := rfl
  have hstep : tryReader selectingReader none (Session.init 0 1).establish
      ([0x72, 0, 0].takeWhile (· ≠ 0)) =
        .selected ((Session.init 0 1).establish.scardConnect selectingReader [0x72]) := rfl
  have h : ykhsmauthConnect selectingReader (some (Session.init 0 1)) none =
      (.success, some ⟨⟨0, 1, 2⟩, ⟨[1], [(2, 1)], 3, [[0x72]]⟩⟩) := by
    rw [ykhsmauthConnect_listed selectingReader _ _ none hl,
      connectLoop_selected selectingReader none (by decide) hstep]
    rfl
  exact ⟨h, ykhsmauthConnect_success_cards selectingReader _ _ none h⟩

/-! ## Card handles over runs -/

/-- Every card handle the service holds was opened in `state->context`, and
the service holds that context.  So releasing the context frees every
handle, and with no valid context the service holds none. -/
def CardsOk (s : Session) : Prop :=
  ∀ c ∈ s.pcsc.cards, c.2 = s.state.context ∧ s.ContextValid

namespace CardsOk

variable {s : Session} (hs : CardsOk s)

include hs

theorem cards_eq_nil (hv : ¬ s.ContextValid) : s.pcsc.cards = [] :=
  List.eq_nil_iff_forall_not_mem.mpr fun c hc => hv (hs c hc).2

/-- `SCardReleaseContext` frees every card handle. -/
theorem releaseContext_cards : s.releaseContext.pcsc.cards = [] :=
  List.filter_eq_nil_iff.mpr fun c hc => by simp [(hs c hc).1]

theorem releaseContext : CardsOk s.releaseContext := by
  intro c hc
  rw [hs.releaseContext_cards] at hc
  cases hc

theorem establish (hv : ¬ s.ContextValid) : CardsOk s.establish := by
  intro c hc
  rw [show s.establish.pcsc.cards = s.pcsc.cards from rfl, hs.cards_eq_nil hv] at hc
  cases hc

theorem connectAll (hv : s.ContextValid) (svc : Service) (names : List (List UInt8)) :
    CardsOk (s.connectAll svc names) := by
  have hvalid : (s.connectAll svc names).ContextValid := by
    simpa only [Session.ContextValid, Session.connectAll_context, Session.connectAll_contexts]
  intro c hc
  rw [Session.connectAll_cards, List.mem_append, List.mem_map] at hc
  rcases hc with ⟨n, -, rfl⟩ | hc
  · exact ⟨by simp, hvalid⟩
  · exact ⟨by simp [(hs c hc).1], hvalid⟩

theorem disconnectCard : CardsOk s.disconnectCard := fun c hc =>
  hs c (List.mem_filter.mp hc).1

/-- The context check keeps `CardsOk`. -/
theorem ensureContext (svc : Service) : ∀ e ∈ s.ensureContext svc, CardsOk e := by
  intro e he
  unfold Session.ensureContext at he
  split_ifs at he with hv <;> cases he
  · exact hs
  · exact hs.establish hv

end CardsOk

/-- `ykhsmauth_list_readers` keeps `CardsOk`. -/
theorem ykhsmauthListReaders_cardsOk (svc : Service) (s : Session)
    (readers : Option (List UInt8)) (len : Nat) (hs : CardsOk s) :
    ∀ s' ∈ (ykhsmauthListReaders svc (some s) readers len).2.1, CardsOk s' := by
  intro s' hs'
  rcases ykhsmauthListReaders_session svc s readers len s' hs' with rfl | ⟨e, he, rfl | rfl⟩
  · exact hs
  · exact hs.ensureContext svc _ he
  · exact (hs.ensureContext svc _ he).releaseContext

/-- A failed `ykhsmauth_list_readers` leaves no card handle held: either the
context check failed, and there was no valid context, or the context was
released. -/
theorem ykhsmauthListReaders_fails_cards (svc : Service) (s : Session) (readers : List UInt8)
    (len : Nat) (hs : CardsOk s)
    (h : (ykhsmauthListReaders svc (some s) (some readers) len).1 ≠ .success) :
    ∀ s' ∈ (ykhsmauthListReaders svc (some s) (some readers) len).2.1, s'.pcsc.cards = [] := by
  revert h
  unfold ykhsmauthListReaders
  split
  · rename_i h1 h2
    cases h1
    cases h2
    split
    · rename_i he
      refine fun _ s' hs' => (Option.some.inj hs') ▸ hs.cards_eq_nil fun hv => ?_
      simp [Session.ensureContext, hv] at he
    · rename_i e he
      have he := hs.ensureContext svc e he
      split
      · exact fun _ s' hs' => (Option.some.inj hs') ▸ he.releaseContext_cards
      · split
        · exact fun _ s' hs' => (Option.some.inj hs') ▸ he.releaseContext_cards
        · exact fun h => absurd rfl h
  · rename_i hno
    exact (hno s readers rfl rfl).elim

/-- `ykhsmauth_connect` keeps `CardsOk`, and every return other than
`YKHSMAUTHR_SUCCESS` leaves no card handle held. -/
theorem ykhsmauthConnect_cardsOk (svc : Service) (s : Session) (wanted : Option (List UInt8))
    (hs : CardsOk s) :
    ∀ s' ∈ (ykhsmauthConnect svc (some s) wanted).2, CardsOk s' ∧
      ((ykhsmauthConnect svc (some s) wanted).1 ≠ .success → s'.pcsc.cards = []) := by
  intro s' hs'
  rcases ykhsmauthConnect_cases svc s wanted with ⟨hrc, h⟩ | ⟨s1, buf, n, hl, hv, -, hend⟩
  · rw [h] at hs' ⊢
    exact ⟨ykhsmauthListReaders_cardsOk svc s _ _ hs s' hs',
      fun _ => ykhsmauthListReaders_fails_cards svc s _ _ hs hrc s' hs'⟩
  · -- the walk is a run of `SCardConnect` calls in the listed context
    have hwalk : CardsOk (connectLoop svc wanted s1 buf).2 := by
      obtain ⟨calls, hloop, -⟩ := connectLoop_connectAll svc wanted s1 buf
      exact hloop ▸ (ykhsmauthListReaders_cardsOk svc s _ _ hs s1 (by rw [hl]; rfl)).connectAll hv
        svc calls
    rcases hend with ⟨-, h⟩ | h <;> rw [h] at hs' ⊢ <;> obtain rfl := Option.some.inj hs'
    · exact ⟨hwalk, fun h => absurd rfl h⟩
    · exact ⟨hwalk.releaseContext, fun _ => hwalk.releaseContext_cards⟩

/-- `ykhsmauth_disconnect` leaves no card handle held. -/
theorem ykhsmauthDisconnect_cards (s : Session) (hs : CardsOk s) :
    ∀ s' ∈ (ykhsmauthDisconnect (some s)).2, s'.pcsc.cards = [] := by
  have release : ∀ s1 : Session, CardsOk s1 →
      (if s1.ContextValid then s1.releaseContext else s1).pcsc.cards = [] := by
    intro s1 h1
    split_ifs with hv
    · exact h1.releaseContext_cards
    · exact h1.cards_eq_nil hv
  intro s' hs'
  simp only [ykhsmauthDisconnect, Option.mem_def, Option.some.injEq] at hs'
  subst hs'
  by_cases hc : s.state.card ≠ 0
  · rw [if_pos hc]
    exact release _ hs.disconnectCard
  · rw [if_neg hc]
    exact release _ hs

namespace Session

/-- One call keeps `CardsOk`, whatever the service answers. -/
theorem step_cardsOk (s : Session) (c : Call) (hs : CardsOk s) : CardsOk (s.step c) := by
  cases c with
  | listReaders svc readers len =>
    simp only [step]
    cases h : (ykhsmauthListReaders svc (some s) readers len).2.1 with
    | none => exact hs
    | some s' => exact ykhsmauthListReaders_cardsOk svc s readers len hs s' h
  | connect svc wanted =>
    simp only [step]
    cases h : (ykhsmauthConnect svc (some s) wanted).2 with
    | none => exact hs
    | some s' => exact (ykhsmauthConnect_cardsOk svc s wanted hs s' h).1
  | disconnect =>
    intro c hc
    rw [show (s.step .disconnect).pcsc.cards = [] from ykhsmauthDisconnect_cards s hs _ rfl] at hc
    cases hc
  | command => exact hs

theorem run_cardsOk (s : Session) (calls : List Call) (hs : CardsOk s) :
    CardsOk (s.run calls) := by
  induction calls generalizing s with
  | nil => exact hs
  | cons c calls ih => exact ih _ (step_cardsOk s c hs)

/-- From `ykhsmauth_init`, over every sequence of calls and every answer of
the service, every card handle held was opened in the context the session
holds.  A last `ykhsmauth_disconnect` leaves no card handle held, and so does
every return of a `ykhsmauth_connect` other than `YKHSMAUTHR_SUCCESS`. -/
theorem run_cards (verbose : Int) (next : Nat) (calls : List Call) :
    CardsOk ((init verbose next).run calls) ∧
      ((init verbose next).run (calls ++ [.disconnect])).pcsc.cards = [] ∧
      ∀ svc wanted, (ykhsmauthConnect svc (some ((init verbose next).run calls)) wanted).1 ≠ .success →
        ∀ s' ∈ (ykhsmauthConnect svc (some ((init verbose next).run calls)) wanted).2,
          s'.pcsc.cards = [] := by
  have h := run_cardsOk (init verbose next) calls nofun
  refine ⟨h, ?_, fun svc wanted hrc s' hs' => (ykhsmauthConnect_cardsOk svc _ wanted h s' hs').2 hrc⟩
  rw [run_append]
  exact ykhsmauthDisconnect_cards _ h _ rfl

end Session

end Ykhsmauth
