import RecordText.Proofs.Literals
import RecordText.Proofs.Positions
import RecordText.Proofs.Values

/-!
# Reading reblanked texts

Texts that differ only in which blanks stand outside of their literals are read alike: with the same
value, or with the same fault. `Agrees` says so of one reader on two texts, and where the fault may
lie: in the text, and at its end if the text is unfinished. Taken on a text and itself, it is a
statement on the faults of one run.

What a reader leaves of the two texts is again reblanked, and the scan for quotes stands there where
the reader stands: that is what keeps them in step.

* `Agrees.bind`, `agrees_many`: sequences and repetitions.
* `agrees_blanks_peek`, `agrees_peek_free`, `agrees_peek_inside`: looking at the next character.
* `agrees_stringRest`, `number_ignoresBlanks`, `found_ignoresBlanks`: what values consist of.
-/

namespace RecordText.Json

open Reader

namespace Reader

/-- Two runs with the same value or the same fault. What is left is scanned from the side that
belongs to the value. -/
def Agrees {α : Type} (r : Reader α) (q : α → Side) (cs cs' : List Char) : Prop :=
  (∃ a rest rest', r.run cs = .ok (a, rest) ∧ r.run cs' = .ok (a, rest') ∧
      Reblanked (q a) rest rest') ∨
    ∃ fault, r.run cs = .error fault ∧ r.run cs' = .error fault ∧ fault.LiesIn cs

/-- The reader starts and ends outside of literals and does not care which blanks there are. -/
def IgnoresBlanks {α : Type} (r : Reader α) : Prop :=
  ∀ cs cs', Reblanked .outside cs cs' → r.Agrees (fun _ => .outside) cs cs'

section

variable {α β : Type} {s : Side} {q : α → Side} {t : β → Side} {cs cs' : List Char}

theorem agrees_pure {a : α} (h : Reblanked (q a) cs cs') : (pure a : Reader α).Agrees q cs cs' :=
  .inl ⟨a, cs, cs', rfl, rfl, h⟩

theorem agrees_unfinished (construct : Construct) :
    (fail (.unfinished construct) : Reader α).Agrees q [] [] :=
  .inr ⟨_, rfl, rfl, Nat.le_refl _, fun _ => rfl⟩

theorem agrees_failPast (bytes : Nat) {cause : Cause} (hc : cause.kind ≠ .unfinished)
    (h : Reblanked s cs cs') : (failPast bytes cause : Reader α).Agrees q cs cs' := by
  refine .inr ⟨⟨cause, Text.byteLength cs - bytes⟩, rfl, ?_, Nat.sub_le _ _, fun hk => absurd hk hc⟩
  rw [run_failPast, h.byteLength_eq]

theorem agrees_ite {c : Prop} [Decidable c] {r r' : Reader α} (h : c → r.Agrees q cs cs')
    (h' : ¬ c → r'.Agrees q cs cs') : (if c then r else r').Agrees q cs cs' := by
  by_cases hc : c
  · rw [if_pos hc]
    exact h hc
  · rw [if_neg hc]
    exact h' hc

theorem agrees_bind {r : Reader α} {f : α → Reader β} {a : α} {rest rest' : List Char}
    (hr : r.run cs = .ok (a, rest)) (hr' : r.run cs' = .ok (a, rest'))
    (h : (f a).Agrees t rest rest') : (r >>= f).Agrees t cs cs' := by
  rcases h with ⟨b, last, last', hb, hb', hlast⟩ | ⟨fault, hb, hb', hfault⟩
  · exact .inl ⟨b, last, last', run_bind_ok_iff.mpr ⟨a, rest, hr, hb⟩,
      run_bind_ok_iff.mpr ⟨a, rest', hr', hb'⟩, hlast⟩
  · refine .inr ⟨fault, ?_, ?_, hfault.mono (r.rest_suffix hr)⟩
    · rw [run_bind, hr]
      exact hb
    · rw [run_bind, hr']
      exact hb'

theorem Agrees.bind_run {r : Reader α} {f : α → Reader β} (h : r.Agrees q cs cs')
    (hf : ∀ a rest rest', r.run cs = .ok (a, rest) → Reblanked (q a) rest rest' →
      (f a).Agrees t rest rest') : (r >>= f).Agrees t cs cs' := by
  rcases h with ⟨a, rest, rest', hr, hr', hrest⟩ | ⟨fault, hr, hr', hfault⟩
  · exact agrees_bind hr hr' (hf a rest rest' hr hrest)
  · refine .inr ⟨fault, ?_, ?_, hfault⟩
    · rw [run_bind, hr]
    · rw [run_bind, hr']

theorem Agrees.bind {r : Reader α} {f : α → Reader β} (h : r.Agrees q cs cs')
    (hf : ∀ a rest rest', Reblanked (q a) rest rest' → (f a).Agrees t rest rest') :
    (r >>= f).Agrees t cs cs' :=
  h.bind_run fun a rest rest' _ => hf a rest rest'

theorem agrees_skip_bind {f : Unit → Reader α} (h : (f ()).Agrees q cs cs') (c c' : Char) :
    (skip >>= f).Agrees q (c :: cs) (c' :: cs') :=
  agrees_bind (run_skip _) (run_skip _) h

theorem agrees_skip (h : Reblanked s cs cs') (c c' : Char) :
    skip.Agrees (fun _ => s) (c :: cs) (c' :: cs') :=
  .inl ⟨(), cs, cs', run_skip _, run_skip _, h⟩

/-- A character that is neither blank nor a quote is passed over in both texts. -/
theorem agrees_skip_token {f : Unit → Reader α} {c : Char} {behind : List Char}
    (h : Reblanked .outside (c :: behind) cs') (hc : ¬ c.isWhitespace) (hq : c ≠ '"')
    (hf : ∀ behind', Reblanked .outside behind behind' → (f ()).Agrees q behind behind') :
    (skip >>= f).Agrees q (c :: behind) cs' := by
  cases h with
  | same _ h =>
    rw [Side.next_outside hq] at h
    exact agrees_skip_bind (hf _ h) c c
  | blank hb => exact absurd hb hc

/-- Where every round agrees, all of them do. A round that finds something ends on the side where
it has started, so that the next one can start there. -/
theorem agrees_many {r : Reader (Option α)} (hadv : r.Advances) {side : Option α → Side}
    (hside : ∀ a, side (some a) = s)
    (h : ∀ cs cs', Reblanked s cs cs' → r.Agrees side cs cs') (hcs : Reblanked s cs cs') :
    (many r hadv).Agrees (fun _ => side none) cs cs' := by
  induction hn : cs.length using Nat.strongRecOn generalizing cs cs' with
  | ind n ih =>
    rcases h cs cs' hcs with ⟨o, rest, rest', hr, hr', hrest⟩ | ⟨fault, hr, hr', hfault⟩
    · cases o with
      | none => exact .inl ⟨[], rest, rest', run_many_none hadv hr, run_many_none hadv hr', hrest⟩
      | some a =>
        have hlt := hadv cs a rest hr
        rw [hside] at hrest
        rcases ih _ (hn ▸ hlt) hrest rfl with ⟨as, end₁, end₂, hm, hm', hend⟩ |
          ⟨fault, hm, hm', hfault⟩
        · exact .inl ⟨a :: as, end₁, end₂, run_many_some hadv hr hm, run_many_some hadv hr' hm',
            hend⟩
        · refine .inr ⟨fault, ?_, ?_, hfault.mono (r.rest_suffix hr)⟩
          · rw [run_many, hr]
            simp only [hm]
          · rw [run_many, hr']
            simp only [hm']
    · refine .inr ⟨fault, ?_, ?_, hfault⟩
      · rw [run_many, hr]
      · rw [run_many, hr']

/-! ### The next character -/

variable {f : Option Char → Reader α}

/-- Inside of a literal the next characters are the same. -/
theorem agrees_peek_inside (h : Reblanked s cs cs') (hs : s ≠ .outside)
    (hnone : (f none).Agrees q [] [])
    (hsome : ∀ c behind behind', Reblanked (s.next c) behind behind' →
      (f (some c)).Agrees q (c :: behind) (c :: behind')) : (peek >>= f).Agrees q cs cs' := by
  cases h with
  | nil => exact hnone
  | same c h => exact hsome c _ _ h
  | blank => exact absurd rfl hs

/-- Outside of literals the next characters may be different blanks, which have to be treated
alike. -/
theorem agrees_peek_free {g : Reader α} (h : Reblanked .outside cs cs')
    (hnone : (f none).Agrees q [] [])
    (hsome : ∀ c behind behind', Reblanked (Side.outside.next c) behind behind' →
      ¬ c.isWhitespace → (f (some c)).Agrees q (c :: behind) (c :: behind'))
    (hblank : ∀ c, c.isWhitespace → f (some c) = g) (hg : g.Agrees q cs cs') :
    (peek >>= f).Agrees q cs cs' := by
  cases h with
  | nil => exact hnone
  | @same _ cs cs' c h =>
    by_cases hc : c.isWhitespace
    · have hf : (f (some c)).Agrees q (c :: cs) (c :: cs') := by rwa [hblank c hc]
      exact agrees_bind rfl rfl hf
    · exact agrees_bind rfl rfl (hsome c cs cs' h hc)
  | @blank c c' cs cs' hc hc' h =>
    rcases hg with ⟨a, rest, rest', hr, hr', hrest⟩ | ⟨fault, hr, hr', hfault⟩
    · rw [← hblank c hc] at hr
      rw [← hblank c' hc'] at hr'
      exact .inl ⟨a, rest, rest', hr, hr', hrest⟩
    · rw [← hblank c hc] at hr
      rw [← hblank c' hc'] at hr'
      exact .inr ⟨fault, hr, hr', hfault⟩

/-- Behind the blanks the next characters are the same. -/
theorem agrees_blanks_peek (h : Reblanked .outside cs cs') (hnone : (f none).Agrees q [] [])
    (hsome : ∀ c behind behind', Reblanked (Side.outside.next c) behind behind' →
      (f (some c)).Agrees q (c :: behind) (c :: behind')) :
    (blanks >>= fun _ => peek >>= f).Agrees q cs cs' := by
  refine agrees_bind (run_blanks cs) (run_blanks cs') ?_
  have hhead := List.head?_dropWhile_not Char.isWhitespace cs
  have hd := h.dropWhile_blank
  generalize cs.dropWhile Char.isWhitespace = ds at hd hhead
  generalize cs'.dropWhile Char.isWhitespace = ds' at hd
  cases hd with
  | nil => exact hnone
  | same c h => exact hsome c _ _ h
  | blank hc => simp [hc] at hhead

end

end Reader

/-- What the two runs of one text say of its faults. -/
theorem Reader.IgnoresBlanks.liesIn {α : Type} {r : Reader α} (h : r.IgnoresBlanks)
    {text : List Char} {fault : Fault} (hf : r.run text = .error fault) : fault.LiesIn text := by
  rcases h text text (.refl .outside text) with ⟨a, rest, -, hr, -⟩ | ⟨fault', hr, -, hfault⟩
  · rw [hr] at hf
    cases hf
  · rw [hr] at hf
    cases hf
    exact hfault

/-! ## String literals -/

variable {cs cs' : List Char}

/-- Four hexadecimal digits are in the one text what they are in the other. -/
theorem Reblanked.codeUnit?_some {unit : Nat} (h : Reblanked .inside cs cs')
    (hu : Escape.codeUnit? cs = some unit) :
    Escape.codeUnit? cs' = some unit ∧ Reblanked .inside (cs.drop 4) (cs'.drop 4) := by
  obtain ⟨u, hspells, ht⟩ := Json.codeUnit?_some hu
  rw [ht] at h
  obtain ⟨rest', rfl, hrest⟩ := h.append_inside fun c hc => (hspells.plain c hc).2
  refine ⟨codeUnit?_append hspells rest', ?_⟩
  have hdrop : (u ++ rest').drop 4 = rest' := by
    cases hspells with
    | digits => rfl
  rwa [hdrop]

theorem run_codeUnit_none {text : List Char} (h : Escape.codeUnit? text = none) :
    codeUnit.run text = .error ⟨if Text.byteLength text < 4 then .unfinished .string
      else .malformed .escape, Text.byteLength text - 4⟩ := by
  simp only [codeUnit, run_bind, run_ahead, h]
  split <;> rfl

theorem agrees_codeUnit (h : Reblanked .inside cs cs') :
    codeUnit.Agrees (fun _ => .inside) cs cs' := by
  cases hu : Escape.codeUnit? cs with
  | some unit =>
    obtain ⟨hu', hrest⟩ := h.codeUnit?_some hu
    refine .inl ⟨unit, cs.drop 4, cs'.drop 4, ?_, ?_, hrest⟩
    · simp only [codeUnit, run_bind, run_ahead, hu, run_drop, run_pure]
    · simp only [codeUnit, run_bind, run_ahead, hu', run_drop, run_pure]
  | none =>
    have hu' : Escape.codeUnit? cs' = none := by
      rw [Option.eq_none_iff_forall_ne_some]
      intro unit hunit
      rw [(h.symm.codeUnit?_some hunit).1] at hu
      cases hu
    refine .inr ⟨_, run_codeUnit_none hu, ?_, Nat.sub_le _ _, ?_⟩
    · rw [run_codeUnit_none hu', h.byteLength_eq]
    · intro hkind
      split at hkind
      · rename_i hlt
        exact Nat.sub_eq_zero_of_le (Nat.le_of_lt hlt)
      · cases hkind

theorem agrees_pairMark {s t : Side} {mark : Char} (hs : s ≠ .outside) (hmark : s.next mark = t)
    (h : Reblanked s cs cs') : (pairMark mark).Agrees (fun _ => t) cs cs' := by
  refine agrees_peek_inside h hs (agrees_unfinished _) fun c behind behind' hbehind => ?_
  refine agrees_ite (fun hc => ?_) fun _ => agrees_failPast 1 nofun (.same c hbehind)
  rw [hc, hmark] at hbehind
  exact agrees_skip hbehind c c

theorem agrees_escapedUnits (h : Reblanked .inside cs cs') :
    escapedUnits.Agrees (fun _ => .inside) cs cs' := by
  apply (agrees_codeUnit h).bind
  intro unit rest rest' h
  refine agrees_ite (fun _ => agrees_failPast 0 nofun h) fun _ => ?_
  refine agrees_ite (fun _ => ?_) fun _ => agrees_pure h
  apply (agrees_pairMark (t := .escaped) (by decide) rfl h).bind
  intro _ rest rest' h
  apply (agrees_pairMark (t := .inside) (by decide) rfl h).bind
  intro _ rest rest' h
  apply (agrees_codeUnit h).bind
  intro second rest rest' h
  exact agrees_ite (fun _ => agrees_pure h) fun _ => agrees_failPast 0 nofun h

theorem agrees_escaped (h : Reblanked .escaped cs cs') :
    escaped.Agrees (fun _ => .inside) cs cs' := by
  refine agrees_peek_inside h (by decide) (agrees_unfinished _) fun c behind behind' h => ?_
  refine agrees_ite (fun _ => agrees_skip_bind (agrees_escapedUnits h) c c) fun _ => ?_
  cases Escape.ofLetter? c with
  | some d =>
    refine agrees_skip_bind ?_ c c
    exact agrees_pure h
  | none => exact agrees_failPast 1 nofun (Reblanked.same (s := .escaped) c h)

/-- The reader is outside of the literal exactly when it has found its end. -/
theorem agrees_stringChar (h : Reblanked .inside cs cs') :
    stringChar.Agrees (fun o => o.elim .outside fun _ => .inside) cs cs' := by
  refine agrees_peek_inside h (by decide) (agrees_unfinished _) fun c behind behind' h => ?_
  refine agrees_ite (fun hq => ?_) fun hq => agrees_ite (fun hb => ?_) fun hb => ?_
  · rw [Side.next, if_pos hq] at h
    refine agrees_skip_bind ?_ c c
    exact agrees_pure h
  · rw [Side.next, if_neg hq, if_pos hb] at h
    exact agrees_skip_bind ((agrees_escaped h).bind fun d rest rest' h => agrees_pure h) c c
  · refine agrees_ite (fun _ => ?_) fun _ => ?_
    · exact agrees_failPast 1 (by decide) (Reblanked.same c h)
    · rw [Side.next_inside hq hb] at h
      refine agrees_skip_bind ?_ c c
      exact agrees_pure h

theorem agrees_stringRest (h : Reblanked .inside cs cs') :
    stringRest.Agrees (fun _ => .outside) cs cs' := by
  apply (agrees_many stringChar_advances (fun _ => rfl) (fun _ _ => agrees_stringChar) h).bind
  intro s rest rest' h
  exact agrees_pure h

/-! ## Numbers -/

theorem accept_ignoresBlanks {c : Char} (hc : ¬ c.isWhitespace) (hq : c ≠ '"') :
    (accept c).IgnoresBlanks := by
  intro cs cs' h
  refine agrees_peek_free h (agrees_pure (.nil _)) (g := pure false) ?_ ?_ (agrees_pure h)
  · intro d behind behind' hbehind _
    refine agrees_ite (fun hd => ?_) fun _ => agrees_pure (Reblanked.same (s := .outside) d hbehind)
    cases hd
    rw [Side.next_outside hq] at hbehind
    refine agrees_skip_bind ?_ c c
    exact agrees_pure hbehind
  · intro d hd
    refine if_neg ?_
    rintro heq
    cases heq
    exact hc hd

theorem Reblanked.drop_digits (h : Reblanked .outside cs cs') :
    Reblanked .outside (cs.drop (cs.takeWhile Char.isDigit).length)
      (cs'.drop (cs.takeWhile Char.isDigit).length) := by
  obtain ⟨ht, hd⟩ := h.span_digits
  rw [drop_takeWhile_digits, ht, drop_takeWhile_digits]
  exact hd

theorem agrees_ahead_bind {α : Type} {q : α → Side} {f : List Char → Reader α}
    (h : (f cs).Agrees q cs cs') (hf : f cs' = f cs) : (ahead >>= f).Agrees q cs cs' := by
  rcases h with ⟨a, rest, rest', hr, hr', hrest⟩ | ⟨fault, hr, hr', hfault⟩
  · rw [← hf] at hr'
    exact .inl ⟨a, rest, rest', hr, hr', hrest⟩
  · rw [← hf] at hr'
    exact .inr ⟨fault, hr, hr', hfault⟩

theorem span_digits_ignoresBlanks : (span Char.isDigit).IgnoresBlanks := by
  intro cs cs' h
  obtain ⟨ht, hd⟩ := h.span_digits
  exact .inl ⟨_, _, _, run_span cs _, ht.symm ▸ run_span cs' _, hd⟩

theorem firstDigit_ignoresBlanks : firstDigit.IgnoresBlanks := by
  intro cs cs' h
  refine agrees_peek_free (g := failPast 1 (.malformed .number)) h (agrees_unfinished _) ?_ ?_
    (agrees_failPast 1 nofun h)
  · intro c behind behind' h _
    refine agrees_ite (fun hc => ?_) fun _ =>
      agrees_failPast 1 nofun (Reblanked.same (s := .outside) c h)
    have hq : c ≠ '"' := by
      rintro rfl
      cases hc
    rw [Side.next_outside hq] at h
    refine agrees_skip_bind ?_ c c
    exact agrees_pure h
  · intro c hc
    exact if_neg (not_isDigit_of_isWhitespace hc)

theorem wholePart_ignoresBlanks : wholePart.IgnoresBlanks := by
  intro cs cs' h
  apply (firstDigit_ignoresBlanks cs cs' h).bind
  intro first rest rest' h
  refine agrees_ahead_bind ?_ (by simp only [h.span_digits.1])
  refine agrees_ite (fun _ => ?_) fun _ => ?_
  · exact agrees_ite (fun _ => agrees_pure h) fun _ => agrees_failPast 1 nofun h
  · refine agrees_bind (run_drop _ _) (run_drop _ _) ?_
    exact agrees_pure h.drop_digits

theorem fraction_ignoresBlanks (significand : Nat) : (fraction significand).IgnoresBlanks := by
  intro cs cs' h
  apply (span_digits_ignoresBlanks cs cs' h).bind
  intro digits rest rest' h
  refine agrees_ite (fun _ => ?_) fun _ => agrees_pure h
  refine agrees_peek_free (g := failPast 1 (.malformed .number)) h (agrees_unfinished _) ?_
    (fun _ _ => rfl) (agrees_failPast 1 nofun h)
  intro c behind behind' h _
  exact agrees_failPast 1 nofun (Reblanked.same (s := .outside) c h)

theorem exponentSign_ignoresBlanks : exponentSign.IgnoresBlanks := by
  intro cs cs' h
  apply (accept_ignoresBlanks (by decide) (by decide) cs cs' h).bind
  intro minus rest rest' h
  refine agrees_ite (fun _ => agrees_pure h) fun _ => ?_
  apply (accept_ignoresBlanks (by decide) (by decide) rest rest' h).bind
  intro plus rest rest' h
  exact agrees_pure h

theorem exponent_ignoresBlanks (significand : Nat) : (exponent significand).IgnoresBlanks := by
  intro cs cs' h
  apply (exponentSign_ignoresBlanks cs cs' h).bind
  intro negative rest rest' h
  apply (firstDigit_ignoresBlanks rest rest' h).bind
  intro first rest rest' h
  refine agrees_ahead_bind ?_ (by simp only [h.span_digits.1])
  refine agrees_ite (fun _ => ?_) fun _ => agrees_ite (fun _ => ?_) fun _ => ?_
  · refine agrees_bind (run_drop _ _) (run_drop _ _) ?_
    exact agrees_pure h.drop_digits
  · refine agrees_bind (run_drop _ _) (run_drop _ _) ?_
    exact agrees_pure h.drop_digits
  · exact agrees_failPast _ nofun h

theorem scaled_ignoresBlanks (negative : Bool) (significand : Nat) (e : Int) :
    (scaled negative significand e).IgnoresBlanks := by
  intro cs cs' h
  unfold scaled
  split
  · exact agrees_pure h
  · exact agrees_failPast 0 nofun h

/-- What is read of a number behind its digits: an exponent, or nothing. -/
def behindDigits (negative point : Bool) (whole dropped significand places : Nat) :
    Reader Number := do
  let shift : Int := dropped - places
  match ← peek with
  | some 'e' | some 'E' =>
    skip
    match ← exponent significand with
    | some n => scaled negative significand (shift + n)
    | none => return .float (Number.signed negative 0)
  | _ =>
    if point || dropped ≠ 0 then scaled negative significand shift
    else return .ofDigits negative whole

theorem behindDigits_ignoresBlanks (negative point : Bool)
    (whole dropped significand places : Nat) :
    (behindDigits negative point whole dropped significand places).IgnoresBlanks := by
  intro cs cs' h
  have hwhole : ∀ cs cs', Reblanked .outside cs cs' →
      Reader.Agrees (if point || dropped ≠ 0 then scaled negative significand (dropped - places)
        else return .ofDigits negative whole) (fun _ => .outside) cs cs' := fun cs cs' h =>
    agrees_ite (fun _ => scaled_ignoresBlanks _ _ _ cs cs' h) fun _ => agrees_pure h
  have hexponent : ∀ c behind behind', Reblanked .outside behind behind' →
      Reader.Agrees (do
        skip
        match ← exponent significand with
        | some n => scaled negative significand (dropped - places + n)
        | none => return .float (Number.signed negative 0)) (fun _ => .outside) (c :: behind)
          (c :: behind') := by
    intro c behind behind' h
    refine agrees_skip_bind ?_ c c
    apply (exponent_ignoresBlanks significand behind behind' h).bind
    intro n rest rest' h
    cases n with
    | some n => exact scaled_ignoresBlanks _ _ _ rest rest' h
    | none => exact agrees_pure h
  refine agrees_peek_free h (hwhole [] [] (.nil _)) ?_ ?_ (hwhole cs cs' h)
  · intro c behind behind' h _
    split
    · rename_i hc
      cases hc
      exact hexponent 'e' behind behind' h
    · rename_i hc
      cases hc
      exact hexponent 'E' behind behind' h
    · exact hwhole _ _ (.same c h)
  · intro c hc
    split
    · rename_i he
      cases he
      cases hc
    · rename_i he
      cases he
      cases hc
    · rfl

theorem number_ignoresBlanks : number.IgnoresBlanks := by
  intro cs cs' h
  apply (accept_ignoresBlanks (by decide) (by decide) cs cs' h).bind
  intro negative rest rest' h
  apply (wholePart_ignoresBlanks rest rest' h).bind
  rintro ⟨whole, dropped⟩ rest rest' h
  apply (accept_ignoresBlanks (by decide) (by decide) rest rest' h).bind
  intro point rest rest' h
  refine agrees_ite (fun _ => ?_) fun _ => ?_
  · apply (fraction_ignoresBlanks whole rest rest' h).bind
    rintro ⟨significand, places⟩ rest rest' h
    exact behindDigits_ignoresBlanks negative point whole dropped significand places rest rest' h
  · refine agrees_bind (run_pure _ _) (run_pure _ _) ?_
    exact behindDigits_ignoresBlanks negative point whole dropped whole 0 rest rest' h

/-! ## Values -/

theorem word_ignoresBlanks {letters : List Char}
    (hl : ∀ c ∈ letters, ¬ c.isWhitespace ∧ c ≠ '"') : (word letters).IgnoresBlanks := by
  induction letters with
  | nil => exact fun cs cs' h => agrees_pure h
  | cons l letters ih =>
    obtain ⟨⟨hw, hq⟩, hl⟩ := List.forall_mem_cons.mp hl
    intro cs cs' h
    refine agrees_peek_free (g := failPast 1 (.malformed .word)) h (agrees_unfinished _) ?_ ?_
      (agrees_failPast 1 nofun h)
    · intro c behind behind' h _
      refine agrees_ite (fun hc => ?_) fun _ =>
        agrees_failPast 1 nofun (Reblanked.same (s := .outside) c h)
      rw [hc, Side.next_outside hq] at h
      exact agrees_skip_bind (ih hl behind behind' h) c c
    · intro c hc
      refine if_neg ?_
      rintro rfl
      exact hw hc

theorem found_ignoresBlanks : found.IgnoresBlanks := by
  intro cs cs' h
  refine agrees_blanks_peek h (agrees_unfinished _) fun c behind behind' h => ?_
  have hc : Reblanked .outside (c :: behind) (c :: behind') := .same c h
  have hword : ∀ (letters : List Char) (f : Found), (∀ c ∈ letters, ¬ c.isWhitespace ∧ c ≠ '"') →
      Reader.Agrees (do word letters; return f) (fun _ => .outside) (c :: behind) (c :: behind') :=
    fun letters f hl => (word_ignoresBlanks hl _ _ hc).bind fun _ _ _ h => agrees_pure h
  refine agrees_ite (fun _ => hword _ _ (by simp)) fun _ => ?_
  refine agrees_ite (fun _ => hword _ _ (by simp)) fun _ => ?_
  refine agrees_ite (fun _ => hword _ _ (by simp)) fun _ => ?_
  refine agrees_ite (fun hq => ?_) fun _ => ?_
  · rw [hq] at h
    refine agrees_skip_bind ?_ c c
    exact (agrees_stringRest h).bind fun _ _ _ h => agrees_pure h
  refine agrees_ite (fun _ => agrees_pure hc) fun _ => ?_
  refine agrees_ite (fun _ => agrees_pure hc) fun _ => ?_
  refine agrees_ite (fun _ => ?_) fun _ => agrees_failPast 1 nofun hc
  apply (number_ignoresBlanks _ _ hc).bind
  intro x rest rest' h
  cases x with
  | integer n => exact agrees_pure h
  | float y => exact agrees_pure h

theorem wrongType_ignoresBlanks {α : Type} (f : Found) (expected : Expected) :
    (wrongType f expected : Reader α).IgnoresBlanks :=
  fun _ _ h => agrees_failPast 0 nofun h

theorem name_ignoresBlanks : name.IgnoresBlanks := by
  intro cs cs' h
  apply (found_ignoresBlanks cs cs' h).bind
  intro f rest rest' h
  cases f with
  | string s => exact agrees_pure h
  | _ => exact wrongType_ignoresBlanks _ _ rest rest' h

theorem value_ignoresBlanks : value.IgnoresBlanks := by
  intro cs cs' h
  apply (found_ignoresBlanks cs cs' h).bind
  intro f rest rest' h
  cases f with
  | integer n => exact agrees_ite (fun _ => agrees_pure h) fun _ => agrees_failPast 0 nofun h
  | _ => exact wrongType_ignoresBlanks _ _ rest rest' h

end RecordText.Json
