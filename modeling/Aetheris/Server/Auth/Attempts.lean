import Aetheris.Server.Auth.Records

/-!
# Wrong codes for one record

The third wrong code makes a login remove the record, in a section after the one that counted it.
As long as no code is compared in between, the counter is the number of wrong codes so far and stays
at three. Otherwise nothing bounds the number of codes, and the `u8` wraps.
-/

namespace Aetheris.Auth

open Function

/-- A wrong code was compared against the record. -/
def Event.comparedOn (id : String) : Event → Bool
  | .compared id' _ => id' = id
  | _ => false

/-- A login that used up the attempts and still has to remove the record. -/
def Call.exhausted (id : String) : Call → Prop
  | .otpRemove id' (.wrong _ _) => id' = id
  | _ => False

variable {id : String} {n : Nat} {st : State} {trace : List Event}

theorem Call.record_of_exhausted {c : Call} (h : c.exhausted id) : c.record = some id := by
  cases c with
  | otpRemove id' outcome =>
    cases outcome with
    | wrong attempts status => exact congrArg some h
    | _ => cases h
  | _ => cases h

/-- A wrong code is compared only while no login that used up the attempts has yet to remove the
record. -/
def Unhurried (id : String) (st : State) (events : List Event) : Prop :=
  (∃ e ∈ events, e.comparedOn id = true) → ∀ i c, st.calls i = some c → ¬ c.exhausted id

/-- The counter of a stored record is the number of wrong codes so far, and the third one leaves a
login behind that removes the record. -/
structure Counted (id : String) (trace : List Event) (st : State) : Prop where
  bound : trace.countP (Event.comparedOn id) ≤ 3
  drawn : 0 < trace.countP (Event.comparedOn id) → id ∈ st.drawn
  record : ∀ record, st.svc.otpStore id = some record →
    record.attempts.toNat = trace.countP (Event.comparedOn id) ∧
      (trace.countP (Event.comparedOn id) < 3 ∨ ∃ i c, st.calls i = some c ∧ c.exhausted id)
  seen : ∀ attempts, .compared id attempts ∈ trace → attempts ≠ 0 ∧ attempts ≤ 3

section

variable {id : String} {trace events : List Event} {st : State} {i : Nat} {c c' : Call}
  {r : Reading} {svc' : AuthServiceImpl}

theorem exhausted_update (hc : ¬ c.exhausted id) (hi : st.calls i = some c)
    (h : ∃ k d, st.calls k = some d ∧ d.exhausted id) :
    ∃ k d, update st.calls i (some c') k = some d ∧ d.exhausted id := by
  obtain ⟨k, d, hk, hd⟩ := h
  have hki : k ≠ i := by
    rintro rfl
    obtain rfl := Option.some.inj (hi.symm.trans hk)
    exact hc hd
  exact ⟨k, d, (update_of_ne hki _ _).trans hk, hd⟩

/-- A section that compares no wrong code and leaves the entry alone or removes it. -/
theorem Counted.keep (h : Counted id trace st) (hi : st.calls i = some c)
    (hevents : ∀ e ∈ events, e.comparedOn id = false)
    (hstore : svc'.otpStore id = none ∨ (svc'.otpStore id = st.svc.otpStore id ∧
      ¬ c.exhausted id)) :
    Counted id (trace ++ events)
      ⟨svc', update st.calls i (some c'), r.now, r.ulid :: st.drawn⟩ := by
  have hcount : (trace ++ events).countP (Event.comparedOn id) =
      trace.countP (Event.comparedOn id) := by
    have hzero : events.countP (Event.comparedOn id) = 0 :=
      List.countP_eq_zero.mpr fun e he => by rw [hevents e he]; exact Bool.false_ne_true
    rw [List.countP_append, hzero, Nat.add_zero]
  refine ⟨hcount ▸ h.bound, fun hpos => ?_, fun record hrecord => ?_, fun attempts hmem => ?_⟩
  · exact List.mem_cons_of_mem _ (h.drawn (hcount ▸ hpos))
  · rw [hcount]
    rcases hstore with hnone | ⟨hsame, hc⟩
    · exact absurd (hnone.symm.trans hrecord) nofun
    · obtain ⟨heq, hpending⟩ := h.record record (hsame ▸ hrecord)
      exact ⟨heq, hpending.imp_right (exhausted_update hc hi)⟩
  · rcases List.mem_append.mp hmem with hmem | hmem
    · exact h.seen attempts hmem
    · have hfalse := hevents _ hmem
      simp [Event.comparedOn] at hfalse

/-- The counter of a record with fewer than three wrong codes does not wrap. -/
theorem toNat_add_one {attempts : UInt8} (h : attempts.toNat < 3) :
    (attempts + 1).toNat = attempts.toNat + 1 := by
  rw [UInt8.toNat_add]
  simp only [UInt8.toNat_one]
  omega

theorem Counted.advance (hk : Known id st) (h : Counted id trace st) (hi : st.calls i = some c)
    (hulid : r.ulid ∉ st.drawn) (hs : RecordStep id r st.svc c (svc', c', events))
    (hun : Unhurried id st events) :
    Counted id (trace ++ events)
      ⟨svc', update st.calls i (some c'), r.now, r.ulid :: st.drawn⟩ := by
  have hnone : c.record = none → ¬ c.exhausted id := by
    intro hc hex
    cases hc.symm.trans (Call.record_of_exhausted hex)
  cases hs with
  | aside hc hc' hstore hevents =>
    refine h.keep hi (fun e he => ?_) (Or.inr ⟨hstore, fun hex => ?_⟩)
    · have hne := hevents e he
      cases e with
      | compared id' attempts => simpa [Event.comparedOn, Event.record] using hne
      | _ => rfl
    · exact hc (Call.record_of_exhausted hex)
  | inserted hc hid hstore hattempts =>
    -- nothing was compared against an identifier that is drawn only now
    have hzero : trace.countP (Event.comparedOn id) = 0 := by
      by_contra hne
      exact hulid (hid ▸ h.drawn (Nat.pos_of_ne_zero hne))
    rw [List.append_nil]
    refine ⟨h.bound, fun hpos => ?_, fun record hrecord => ?_, h.seen⟩
    · exact List.mem_cons_of_mem _ (h.drawn hpos)
    · obtain rfl := Option.some.inj (hstore.symm.trans hrecord)
      rw [hattempts, hzero]
      exact ⟨rfl, Or.inl (by decide)⟩
  | @wrong _ _ _ record status hc hrecord hstore hc' =>
    obtain ⟨heq, hpending⟩ := h.record record hrecord
    have hlt : trace.countP (Event.comparedOn id) < 3 := by
      refine hpending.resolve_right ?_
      rintro ⟨k, d, hk, hd⟩
      exact hun ⟨_, List.mem_cons_self, by simp [Event.comparedOn]⟩ k d hk hd
    have hnext := toNat_add_one (heq.symm ▸ hlt)
    have hcount : (trace ++ [Event.compared id (record.attempts + 1)]).countP
        (Event.comparedOn id) = (record.attempts + 1).toNat := by
      rw [List.countP_append, hnext, heq]
      simp [Event.comparedOn]
    refine ⟨by rw [hcount, hnext, heq]; exact hlt, fun _ => ?_, fun record' hrecord' => ?_,
      fun attempts hmem => ?_⟩
    · exact List.mem_cons_of_mem _ (hk.store (by simp [hrecord]))
    · obtain rfl := Option.some.inj (hstore.symm.trans hrecord')
      rw [hcount]
      refine ⟨rfl, ?_⟩
      by_cases hmax : record.attempts + 1 ≥ 3
      · refine Or.inr ⟨i, c', update_self .., ?_⟩
        rw [hc', if_pos hmax]
        exact rfl
      · have hlt3 : (record.attempts + 1).toNat < (3 : UInt8).toNat :=
          UInt8.lt_iff_toNat_lt.mp (UInt8.not_le.mp hmax)
        exact Or.inl hlt3
    · rcases List.mem_append.mp hmem with hmem | hmem
      · exact h.seen attempts hmem
      · simp only [List.mem_singleton, Event.compared.injEq, true_and] at hmem
        subst hmem
        refine ⟨fun hzero => ?_, UInt8.le_iff_toNat_le.mpr ?_⟩
        · rw [hzero] at hnext
          simp at hnext
        · rw [hnext, heq]
          exact hlt
  | removed hstore hevents =>
    refine h.keep hi (fun e he => ?_) (Or.inl hstore)
    subst hevents
    split at he
    · simp only [List.mem_singleton] at he
      subst he
      rfl
    · simp at he
  | accepted hc hrecord hstore =>
    exact h.keep hi (by simp [Event.comparedOn]) (Or.inr ⟨hstore, hnone hc⟩)
  | expired hc hrecord hstore => exact h.keep hi (by simp) (Or.inr ⟨hstore, hnone hc⟩)
  | nonceRead hc hrecord hstore => exact h.keep hi (by simp) (Or.inr ⟨hstore, hnone hc⟩)
  | idTokenAccepted hstore =>
    exact h.keep hi (by simp [Event.comparedOn]) (Or.inr ⟨hstore, not_false⟩)
  | idTokenRefused hstore => exact h.keep hi (by simp) (Or.inr ⟨hstore, not_false⟩)
  | nonceRemoved hstore => exact h.keep hi (by simp) (Or.inl hstore)
  | minted hstore hevents =>
    refine h.keep hi ?_ (Or.inr ⟨hstore, not_false⟩)
    rcases hevents with rfl | rfl <;> simp [Event.comparedOn]

end

/-- A step on which wrong codes are compared only while the record is not yet to be removed. -/
def UnhurriedStep (env : AuthEnv) (id : String) (st : State) (events : List Event) (st' : State) :
    Prop :=
  Step env st events st' ∧ Unhurried id st events

theorem Counted.step {env : AuthEnv} {events : List Event} {st' : State}
    (hk : Known id st) (h : Counted id trace st) (hs : UnhurriedStep env id st events st') :
    Known id st' ∧ Counted id (trace ++ events) st' := by
  obtain ⟨hstep, hun⟩ := hs
  cases hstep.cases with
  | idle => exact ⟨hk, by rwa [List.append_nil]⟩
  | @arrive i request hi =>
    rw [List.append_nil]
    refine ⟨hk.arrive request, h.bound, h.drawn, fun record hrecord => ?_, h.seen⟩
    obtain ⟨heq, hpending⟩ := h.record record hrecord
    refine ⟨heq, hpending.imp_right ?_⟩
    rintro ⟨k, d, hd, hex⟩
    have hki : k ≠ i := by
      rintro rfl
      rw [hi] at hd
      cases hd
    exact ⟨k, d, (update_of_ne hki _ _).trans hd, hex⟩
  | @advance i c c' r svc' _ hi hclock hulid hlength hnext =>
    have hs : RecordStep id r st.svc c (svc', c', events) := hnext ▸ next_recordStep env c
    exact ⟨hk.advance hi hs, h.advance hk hi hulid hs hun⟩

/-- In every interleaving in which no code is compared after the third wrong one, at most three
wrong codes are compared against a record, and its counter does not wrap. -/
theorem three_attempts {env : AuthEnv} {bypassEnabled : Bool} {clock : DateTime} {id : String}
    {trace : List Event} {st : State}
    (h : Run (UnhurriedStep env id) (.new bypassEnabled clock) trace st) :
    trace.countP (Event.comparedOn id) ≤ 3 ∧
      ∀ attempts, .compared id attempts ∈ trace → attempts ≠ 0 := by
  have hinv : Known id st ∧ Counted id trace st := by
    refine h.history (I := fun trace st => Known id st ∧ Counted id trace st) ⟨?_, ?_⟩ ?_
    · exact known_new id bypassEnabled clock
    · exact ⟨by simp, by simp, nofun, by simp⟩
    · exact fun trace st events st' hi hstep => Counted.step hi.1 hi.2 hstep
  exact ⟨hinv.2.bound, fun attempts hmem => (hinv.2.seen attempts hmem).1⟩

/-- A wrong code, compared by a login that is alone. -/
theorem three_attempts_alone :
    .compared (plainUlid 2) 1 ∈ (fireAll plainEnv (.new false 0) (otpRequested ++
        [.arrive 1 (.login (.otp (plainUlid 2) "0")), .advance 1 (plainReading 3)])).2 ∧
      (fireAll plainEnv (.new false 0) (otpRequested ++
        [.arrive 1 (.login (.otp (plainUlid 2) "0")),
          .advance 1 (plainReading 3)])).2.countP (Event.comparedOn (plainUlid 2)) ≤ 3 := by
  have hquiet : ∀ {st events}, (∀ e ∈ events, e.comparedOn (plainUlid 2) = false) →
      Unhurried (plainUlid 2) st events := by
    rintro st events h ⟨e, he, htrue⟩
    rw [h e he] at htrue
    cases htrue
  have hcalls : ∀ i c, (fireAll plainEnv (.new false 0) (otpRequested ++
      [.arrive 1 (.login (.otp (plainUlid 2) "0"))])).1.calls i = some c →
      ¬ c.exhausted (plainUlid 2) := by
    rintro (_ | _ | i) c hi
    · obtain rfl := Option.some.inj hi
      exact not_false
    · obtain rfl := Option.some.inj hi
      exact not_false
    · exact absurd hi nofun
  refine ⟨by decide +kernel, (three_attempts (run_fireAll ?_)).1⟩
  exact ⟨by decide, hquiet (by decide +kernel), by decide +kernel, hquiet (by decide +kernel),
    by decide +kernel, hquiet (by decide +kernel), by decide +kernel, hquiet (by decide +kernel),
    by decide +kernel, hquiet (by decide +kernel), by decide +kernel, fun _ => hcalls, trivial⟩

/-! ## Without the condition -/

/-- A wrong code for a record that has not expired. -/
theorem loginOtp_wrong (env : AuthEnv) (r : Reading) {svc : AuthServiceImpl}
    (code : String) {record : OtpRecord} (hrecord : svc.otpStore id = some record)
    (hbypass : svc.bypassEnabled = false) (hnow : r.now ≤ record.expiresAt)
    (hcode : env.blake2b code id ≠ record.codeHash) :
    ∃ c', loginOtp env r svc id code = ((svc.countAttempt id record "Invalid code").1, c',
      [.compared id (record.attempts + 1)]) := by
  have hno : svc.bypasses record = false := by
    unfold AuthServiceImpl.bypasses
    rw [hbypass, Bool.false_and]
  have hnow' : ¬ r.now > record.expiresAt := Int.not_lt.mpr hnow
  have hsection : svc.otpSection env r id code = svc.countAttempt id record "Invalid code" := by
    unfold AuthServiceImpl.otpSection AuthServiceImpl.checkCode
    rw [hrecord]
    simp only [hno, Bool.false_and, Bool.false_eq_true, if_false]
    rw [if_neg hnow', if_neg hcode]
  unfold loginOtp
  rw [hsection]
  exact ⟨_, rfl⟩

theorem plainUlid_length (n : Nat) : (plainUlid n).length = 26 := by
  unfold plainUlid
  rw [String.length_ofList, List.length_append, List.length_replicate, List.length_singleton]

theorem toNat_charOfNat (h : n < 55296) : (Char.ofNat n).toNat = n := by
  have hvalid : n.isValidChar := Or.inl h
  unfold Char.ofNat
  rw [dif_pos hvalid]
  show (BitVec.ofNatLT n _).toNat = n
  simp

theorem plainUlid_inj {m : Nat} (hm : m < 55296) (hn : n < 55296)
    (h : plainUlid m = plainUlid n) : m = n := by
  have hlist := String.ofList_injective h
  have hchar := List.singleton_injective (List.append_cancel_left hlist)
  have hnat := congrArg Char.toNat hchar
  rwa [toNat_charOfNat hm, toNat_charOfNat hn] at hnat

/-- The record of the request after `n` wrong codes. -/
def guessedRecord (n : Nat) : OtpRecord :=
  ⟨"alice@example.org", plainEnv.blake2b "123456" (plainUlid 2), none, .ofSeconds 602,
    UInt8.ofNat n⟩

/-- After `n` wrong codes none of whose logins has gone on to remove the record. -/
structure Guessed (n : Nat) (trace : List Event) (st : State) : Prop where
  run : Run (Step plainEnv) (.new false 0) trace st
  record : st.svc.otpStore (plainUlid 2) = some (guessedRecord n)
  bypass : st.svc.bypassEnabled = false
  clock : st.clock = .ofSeconds 2
  calls : ∀ i, n < i → st.calls i = none
  drawn : ∀ k, n + 2 < k → k < 55296 → plainUlid k ∉ st.drawn
  count : trace.countP (Event.comparedOn (plainUlid 2)) = n

theorem guessed_zero : ∃ trace st, Guessed 0 trace st := by
  have hpermits : Permits plainEnv (fun _ _ => True) (.new false 0) otpRequested := by
    decide +kernel
  refine ⟨_, _, run_script hpermits, by decide +kernel, rfl, by decide +kernel, ?_, ?_,
    by decide +kernel⟩
  · intro i hi
    obtain ⟨i, rfl⟩ := Nat.exists_eq_succ_of_ne_zero (Nat.pos_iff_ne_zero.mp hi)
    rfl
  · intro k hk hmax hmem
    have hmem' : plainUlid k ∈ [plainUlid 2, plainUlid 1, plainUlid 0] := hmem
    simp only [List.mem_cons, List.not_mem_nil, or_false] at hmem'
    rcases hmem' with h | h | h
    all_goals
      have := plainUlid_inj hmax (by decide) h
      omega

/-- One more login compares a wrong code and goes no further. -/
theorem Guessed.succ (h : Guessed n trace st) (hn : n < 1000) :
    ∃ trace' st', Guessed (n + 1) trace' st' ∧
      .compared (plainUlid 2) (UInt8.ofNat (n + 1)) ∈ trace' := by
  let r : Reading := ⟨.ofSeconds 2, 2, plainUlid (n + 3), 123456, "nonce"⟩
  let request : AuthRequest := .login (.otp (plainUlid 2) "0")
  let st₁ : State :=
    { st with calls := update st.calls (n + 1) (some (.start request)) }
  have hcall : st₁.calls (n + 1) = some (.start request) := update_self ..
  have harrive : Step plainEnv st [] st₁ := ⟨.arrive (n + 1) request, h.calls _ (by omega), rfl⟩
  -- the section finds the entry and counts the code
  have hcode : plainEnv.blake2b "0" (plainUlid 2) ≠ plainEnv.blake2b "123456" (plainUlid 2) := by
    decide +kernel
  have htime : DateTime.ofSeconds 2 ≤ DateTime.ofSeconds 602 := by decide
  obtain ⟨c', hnext⟩ := loginOtp_wrong plainEnv r "0" h.record h.bypass htime hcode
  have hadm : Admissible st₁ (.advance (n + 1) r) :=
    ⟨Int.le_of_eq h.clock, h.drawn (n + 3) (by omega) (by omega), plainUlid_length _⟩
  have hadvance := Step.of_next hcall hadm
    (show (Call.start request).next plainEnv r st₁.svc = _ from hnext)
  have hattempts : UInt8.ofNat (n + 1) = UInt8.ofNat n + 1 := UInt8.ofNat_add n 1
  refine ⟨_, _, ⟨(h.run.snoc harrive).snoc hadvance, ?_, h.bypass, rfl, ?_, ?_, ?_⟩, ?_⟩
  · have hrecord : guessedRecord (n + 1) =
        { guessedRecord n with attempts := (guessedRecord n).attempts + 1 } := by
      unfold guessedRecord
      rw [hattempts]
    rw [hrecord]
    exact update_self (plainUlid 2) _ st.svc.otpStore
  · intro i hi
    show update (update st.calls _ _) _ _ i = none
    rw [update_of_ne (by omega), update_of_ne (by omega)]
    exact h.calls i (by omega)
  · intro k hk hmax hmem
    rcases List.mem_cons.mp hmem with heq | hold
    · have := plainUlid_inj hmax (by omega) heq
      omega
    · exact h.drawn k (by omega) hmax hold
  · rw [List.append_nil, List.countP_append, h.count]
    simp [Event.comparedOn]
  · rw [hattempts]
    exact List.mem_append_right _ List.mem_cons_self

theorem exists_guessed (n : Nat) (hn : n ≤ 1000) : ∃ trace st, Guessed n trace st := by
  induction n with
  | zero => exact guessed_zero
  | succ n ih =>
    obtain ⟨trace, st, h⟩ := ih (by omega)
    obtain ⟨trace', st', h', -⟩ := h.succ (by omega)
    exact ⟨trace', st', h'⟩

/-- Concurrent logins compare 256 wrong codes against one record, and the counter wraps. -/
theorem attempts_wrap : ∃ trace st, Run (Step plainEnv) (.new false 0) trace st ∧
    trace.countP (Event.comparedOn (plainUlid 2)) = 256 ∧ .compared (plainUlid 2) 0 ∈ trace := by
  obtain ⟨trace, st, h⟩ := exists_guessed 255 (by decide)
  obtain ⟨trace', st', h', hmem⟩ := h.succ (by decide)
  exact ⟨trace', st', h'.run, h'.count, hmem⟩

end Aetheris.Auth
