import RecordText.Proofs.Acceptance

/-!
# Reading a text that is cut off

A text is read and then the same text without its end. `Survives` says what becomes of a success: it
is found again, with less text behind it, or the reader runs out of text and says so at the very
end. A reader that is put together from others survives a cut at each place where they do.

* `Survives.bind`, `survives_many`: sequences and repetitions.
* `survives_stringRest`, `survives_name`: strings, cut in the middle of an escape as well.
* `value_cut`: the one reader that may find something else, because a number that is cut off may
  still be one. Then nothing is left, and `survives_value_bind` takes readers that run out behind
  it.
-/

namespace RecordText.Json

open Reader

namespace Reader

/-- The reader gets to the end of the text and asks for more. -/
def RunsOut {α : Type} (r : Reader α) (text : List Char) : Prop :=
  r.Fails (fun fault => fault.cause.kind = .unfinished ∧ fault.unread = 0) text

/-- What is found in a text is found again in the text without its end `s`, unless the reader runs
out of text. -/
def Survives {α : Type} (r : Reader α) (p s : List Char) : Prop :=
  ∀ a rest, r.run (p ++ s) = .ok (a, rest) →
    r.RunsOut p ∨ ∃ rest', rest = rest' ++ s ∧ r.run p = .ok (a, rest')

section

variable {α β : Type} {p s : List Char}

theorem runsOut_fail (construct : Construct) :
    (fail (.unfinished construct) : Reader α).RunsOut [] :=
  ⟨_, rfl, rfl, rfl⟩

theorem survives_pure (a : α) : (pure a : Reader α).Survives p s := by
  intro b rest h
  cases h
  exact .inr ⟨p, rfl, rfl⟩

theorem survives_failPast (bytes : Nat) (cause : Cause) :
    (failPast bytes cause : Reader α).Survives p s := by
  intro b rest h
  cases h

theorem survives_ite {c : Prop} [Decidable c] {r r' : Reader α} (h : r.Survives p s)
    (h' : r'.Survives p s) : (if c then r else r').Survives p s := by
  by_cases hc : c
  · rwa [if_pos hc]
  · rwa [if_neg hc]

theorem Survives.bind {r : Reader α} {f : α → Reader β} (h : r.Survives p s)
    (hf : ∀ a mid, r.run p = .ok (a, mid) → (f a).Survives mid s) : (r >>= f).Survives p s := by
  intro b rest hb
  obtain ⟨a, mid, hr, hb⟩ := run_bind_ok_iff.mp hb
  rcases h a mid hr with hout | ⟨mid', rfl, hr'⟩
  · exact .inl (hout.bind f)
  · rcases hf a mid' hr' b rest hb with hout | ⟨rest', hrest, hb'⟩
    · exact .inl (fails_bind hr' hout)
    · exact .inr ⟨rest', hrest, run_bind_ok_iff.mpr ⟨a, mid', hr', hb'⟩⟩

/-- It is enough that another reader survives which runs alike. -/
theorem Survives.of_run {r r' : Reader α} {p' : List Char} (h : r'.Survives p' s)
    (hp : r.run p = r'.run p') (hs : r.run (p ++ s) = r'.run (p' ++ s)) : r.Survives p s := by
  intro a rest ha
  rw [hs] at ha
  rcases h a rest ha with ⟨fault, hout, hfault⟩ | ⟨rest', hrest, ha'⟩
  · exact .inl ⟨fault, hp.trans hout, hfault⟩
  · exact .inr ⟨rest', hrest, hp.trans ha'⟩

theorem survives_skip_bind {f : Unit → Reader α} (h : (f ()).Survives p s) (c : Char) :
    (skip >>= f).Survives (c :: p) s :=
  h.of_run (run_skip_bind f c p) (run_skip_bind f c (p ++ s))

theorem survives_skip (c : Char) : skip.Survives (c :: p) s := by
  intro a rest h
  cases h
  exact .inr ⟨p, rfl, run_skip _⟩

variable {f : Option Char → Reader α}

theorem survives_peek (hnone : (f none).RunsOut [])
    (hsome : ∀ c behind, (f (some c)).Survives (c :: behind) s) : (peek >>= f).Survives p s := by
  cases p with
  | nil =>
    intro a rest _
    exact .inl (fails_bind rfl hnone)
  | cons c behind => exact hsome c behind

theorem survives_blanks_peek (hnone : (f none).RunsOut [])
    (hsome : ∀ c behind, (f (some c)).Survives (c :: behind) s) :
    (blanks >>= fun _ => peek >>= f).Survives p s := by
  rcases blank_or_exists p with hb | ⟨w, c, behind, hw, hc, rfl⟩
  · intro a rest _
    obtain ⟨fault, hn, hfault⟩ := hnone
    exact .inl ⟨fault, (run_blanks_peek_nil hb).trans hn, hfault⟩
  · refine (hsome c behind).of_run (run_blanks_peek hw hc behind) ?_
    rw [List.append_assoc, List.cons_append, run_blanks_peek hw hc]

/-- Where every round survives, all of them do. -/
theorem survives_many {r : Reader (Option α)} (hadv : r.Advances)
    (h : ∀ p, r.Survives p s) (p : List Char) : (many r hadv).Survives p s := by
  -- A round that survives leaves less of `p`, and the same `s` behind it.
  induction hn : p.length using Nat.strongRecOn generalizing p with
  | ind n ih =>
    intro as rest hm
    rw [run_many] at hm
    cases hr : r.run (p ++ s) with
    | error e => rw [hr] at hm; cases hm
    | ok q =>
      obtain ⟨o, mid⟩ := q
      rw [hr] at hm
      rcases h p o mid hr with hout | ⟨mid', rfl, hr'⟩
      · exact .inl (fails_many hadv hout)
      cases o with
      | none =>
        cases hm
        exact .inr ⟨mid', rfl, run_many_none hadv hr'⟩
      | some a =>
        cases hs : (many r hadv).run (mid' ++ s) with
        | error e => simp only [hs] at hm; cases hm
        | ok q =>
          obtain ⟨as', rest'⟩ := q
          simp only [hs] at hm
          cases hm
          have hlt := hadv p a mid' hr'
          rcases ih _ (hn ▸ hlt) mid' rfl as' rest hs with hout | ⟨rest', hrest, hs'⟩
          · exact .inl (fails_many_some hadv hr' hout)
          · exact .inr ⟨rest', hrest, run_many_some hadv hr' hs'⟩

end

end Reader

/-! ## String literals -/

variable {p s : List Char}

theorem codeUnit?_of_short {text : List Char} (h : text.length < 4) :
    Escape.codeUnit? text = none := by
  match text with
  | [] | [_] | [_, _] | [_, _, _] => rfl
  | _ :: _ :: _ :: _ :: _ => simp at h; omega

theorem HexDigit.utf8Size {c : Char} {n : Nat} (h : HexDigit c n) : c.utf8Size = 1 := by
  have hall : ∀ n < 16, (Nat.digitChar n).utf8Size = 1 ∧
      (Nat.digitChar n).toUpper.utf8Size = 1 := by decide
  obtain ⟨hn, rfl | rfl⟩ := h
  · exact (hall n hn).1
  · exact (hall n hn).2

/-- Less than four digits take less than four bytes. -/
theorem byteLength_of_unit {u : List Char} {n : Nat} (h : SpellsUnit (p ++ u) n) :
    Text.byteLength p = p.length := by
  have hall : ∀ c ∈ p ++ u, c.utf8Size = 1 := by
    cases hpu : p ++ u
    all_goals rw [hpu] at h
    · cases h
    · cases h with
      | digits ha hb hc hd => simp [ha.utf8Size, hb.utf8Size, hc.utf8Size, hd.utf8Size]
  clear h
  induction p with
  | nil => rfl
  | cons c p ih =>
    have hc := hall c List.mem_cons_self
    have hp := ih fun d hd => hall d (List.mem_cons_of_mem c hd)
    rw [Text.byteLength_cons, hc, hp, List.length_cons]
    omega

theorem SpellsUnit.length {u : List Char} {n : Nat} (h : SpellsUnit u n) : u.length = 4 := by
  cases h with
  | digits => rfl

theorem runsOut_codeUnit (h : p.length < 4) (hp : Text.byteLength p = p.length) :
    codeUnit.RunsOut p := by
  have hlt : Text.byteLength p < 4 := by omega
  refine ⟨⟨.unfinished .string, Text.byteLength p - 4⟩, ?_, rfl, Nat.sub_eq_zero_of_le (by omega)⟩
  simp only [codeUnit, run_bind, run_ahead, codeUnit?_of_short h, if_pos hlt, run_failPast]

theorem survives_codeUnit : codeUnit.Survives p s := by
  intro unit rest h
  obtain ⟨u, hu, ht⟩ := codeUnit_ok h
  have hlength := hu.length
  rcases List.append_eq_append_iff.mp ht with ⟨k, rfl, rfl⟩ | ⟨k, rfl, rfl⟩
  · rw [List.length_append] at hlength
    by_cases hk : k = []
    · subst hk
      rw [List.append_nil] at hu
      exact .inr ⟨[], rfl, by simpa using run_codeUnit hu []⟩
    · have hpos := List.length_pos_iff.mpr hk
      have hbytes := byteLength_of_unit hu
      exact .inl (runsOut_codeUnit (by omega) hbytes)
  · exact .inr ⟨k, rfl, run_codeUnit hu k⟩

theorem survives_pairMark (mark : Char) : (pairMark mark).Survives p s := by
  apply survives_peek (runsOut_fail _)
  intro c behind
  exact survives_ite (survives_skip c) (survives_failPast _ _)

theorem survives_escapedUnits : escapedUnits.Survives p s := by
  apply survives_codeUnit.bind
  intro unit mid _
  refine survives_ite (survives_failPast _ _) (survives_ite ?_ (survives_pure _))
  apply (survives_pairMark _).bind
  intro _ mid _
  apply (survives_pairMark _).bind
  intro _ mid _
  apply survives_codeUnit.bind
  intro second mid _
  exact survives_ite (survives_pure _) (survives_failPast _ _)

theorem survives_escaped : escaped.Survives p s := by
  apply survives_peek (runsOut_fail _)
  intro c behind
  refine survives_ite (survives_skip_bind survives_escapedUnits c) ?_
  cases Escape.ofLetter? c with
  | some d => exact survives_skip_bind (survives_pure d) c
  | none => exact survives_failPast _ _

theorem survives_stringChar (p : List Char) : stringChar.Survives p s := by
  apply survives_peek (runsOut_fail _)
  intro c behind
  refine survives_ite (survives_skip_bind (survives_pure none) c) ?_
  refine survives_ite (survives_skip_bind ?_ c) ?_
  · exact survives_escaped.bind fun d mid _ => survives_pure _
  · exact survives_ite (survives_failPast _ _) (survives_skip_bind (survives_pure (some c)) c)

theorem survives_stringRest : stringRest.Survives p s :=
  (survives_many stringChar_advances survives_stringChar p).bind fun _ _ _ => survives_pure _

/-! ## Integers -/

/-- A number that is cut behind its first digit is a number, and no larger. -/
theorem SpellsNatural.cut {k k' : List Char} {n : Nat} (h : SpellsNatural (k ++ k') n)
    (hk : k ≠ []) : ∃ m, m ≤ n ∧ (n ≠ 0 → m ≠ 0) ∧ SpellsNatural k m := by
  obtain ⟨d, ds, rfl⟩ := List.exists_cons_of_ne_nil hk
  generalize ht : d :: ds ++ k' = text at h
  cases h with
  | zero =>
    simp only [List.cons_append, List.cons.injEq, List.append_eq_nil_iff] at ht
    obtain ⟨rfl, rfl, rfl⟩ := ht
    exact ⟨0, Nat.le_refl 0, id, .zero⟩
  | @digits d' ds' hd h0 hds =>
    simp only [List.cons_append, List.cons.injEq] at ht
    obtain ⟨rfl, rfl⟩ := ht
    have hdigit : Number.digit d ≠ 0 := mt (Number.digit_eq_zero hd).mp h0
    have hpos := le_ofDigitChars ds (0 * 10 + Number.digit d)
    rw [← ofDigitChars_cons_digit] at hpos
    have hle := le_ofDigitChars k' (Nat.ofDigitChars 10 (d :: ds) 0)
    rw [← Nat.ofDigitChars_append, List.cons_append] at hle
    refine ⟨_, hle, fun _ => by omega, .digits hd h0 fun c hc => ?_⟩
    exact hds c (List.mem_append_left k' hc)

/-- The same with a sign, which may be all that is left. -/
theorem SpellsInteger.cut {k k' : List Char} {n : Int} (h : SpellsInteger (k ++ k') n)
    (hk : k ≠ []) :
    k = ['-'] ∨ ∃ m, min n 0 ≤ m ∧ m ≤ max n 0 ∧ SpellsInteger k m := by
  generalize ht : k ++ k' = text at h
  cases h with
  | natural h =>
    subst ht
    obtain ⟨m, hle, -, hm⟩ := h.cut hk
    exact .inr ⟨m, by omega, by omega, .natural hm⟩
  | negative h h0 =>
    obtain ⟨c, ds, rfl⟩ := List.exists_cons_of_ne_nil hk
    simp only [List.cons_append, List.cons.injEq] at ht
    obtain ⟨rfl, rfl⟩ := ht
    by_cases hds : ds = []
    · exact .inl (by rw [hds])
    · obtain ⟨m, hle, hm0, hm⟩ := h.cut hds
      exact .inr ⟨-m, by omega, by omega, .negative hm (hm0 h0)⟩

/-! ## Names and values -/

variable {α : Type}

theorem runsOut_found {w : List Char} (hw : Blank w) : found.RunsOut w :=
  ⟨⟨.unfinished .value, 0⟩, (run_blanks_peek_nil hw).trans rfl, rfl, rfl⟩

/-- What is found is known from its first character on. -/
theorem survives_found_bind {f : Found → Reader α}
    (h : ∀ c behind, ¬ c.isWhitespace → (found >>= f).Survives (c :: behind) s) :
    (found >>= f).Survives p s := by
  rcases blank_or_exists p with hb | ⟨w, c, behind, hw, hc, rfl⟩
  · intro a rest _
    exact .inl ((runsOut_found hb).bind f)
  · have hrun : ∀ text, (found >>= f).run (w ++ text) = (found >>= f).run text := by
      intro text
      simp only [run_bind, run_found_blank hw]
    refine (h c behind hc).of_run (hrun _) ?_
    rw [List.append_assoc, hrun]

/-- `found_ok` without blanks in front. -/
theorem found_ok_cons {c : Char} (hc : ¬ c.isWhitespace) {text rest : List Char} {f : Found}
    (h : found.run (c :: text) = .ok (f, rest)) :
    ∃ cs, c :: text = cs ++ rest ∧ Shows f cs rest := by
  obtain ⟨w, cs, hw, ht, hshows⟩ := found_ok h
  cases w with
  | nil => exact ⟨cs, ht, hshows⟩
  | cons d w =>
    cases ht
    exact absurd (blank_cons.mp hw).1 hc

theorem run_name_quote (text : List Char) : name.run ('"' :: text) = stringRest.run text := by
  simp [name, found, Char.isWhitespace]
  cases stringRest.run text <;> rfl

theorem survives_name : name.Survives p s := by
  apply survives_found_bind
  intro c behind hc x rest h
  obtain ⟨f, mid, hf, hx⟩ := run_bind_ok_iff.mp h
  obtain ⟨cs, ht, hshows⟩ := found_ok_cons hc hf
  split at hx
  · obtain ⟨q, rfl⟩ := SpellsString.head hshows
    simp only [List.cons_append, List.cons.injEq] at ht
    obtain ⟨rfl, -⟩ := ht
    have hs : name.Survives ('"' :: behind) s :=
      survives_stringRest.of_run (run_name_quote behind) (run_name_quote (behind ++ s))
    exact hs x rest h
  · cases hx

/-- Of a value that is cut off there may be left a value that ends with the text. -/
theorem value_cut {rest : List Char} {v : Int64} (h : value.run (p ++ s) = .ok (v, rest)) :
    value.RunsOut p ∨ (∃ v', value.run p = .ok (v', [])) ∨
      ∃ rest', rest = rest' ++ s ∧ value.run p = .ok (v, rest') := by
  obtain ⟨w, cs, hw, hcs, hends, ht⟩ := value_ok h
  rcases List.append_eq_append_iff.mp ht with ⟨k, rfl, -⟩ | ⟨k, rfl, hk⟩
  · exact .inl ((runsOut_found (blank_append.mp hw).1).bind _)
  rcases List.append_eq_append_iff.mp hk with ⟨k', rfl, rfl⟩ | ⟨k', rfl, rfl⟩
  · refine .inr (.inr ⟨k', rfl, run_value hw hcs fun c hc => hends c ?_⟩)
    rw [Option.mem_def, List.head?_append, Option.mem_def.mp hc]
    rfl
  · by_cases hempty : k = []
    · rw [hempty, List.append_nil]
      exact .inl ((runsOut_found hw).bind _)
    -- The cut goes through the integer: its sign is left, or digits that are an integer.
    rcases hcs.cut hempty with rfl | ⟨m, hlo, hhi, hm⟩
    · refine .inl ⟨⟨.unfinished .value, 0⟩, ?_, rfl, rfl⟩
      rw [value, run_bind, run_found_blank hw]
      rfl
    · have hmin := v.le_toInt
      have hmax := v.toInt_lt
      have hv : (Int64.ofInt m).toInt = m := Int64.toInt_ofInt_of_le (by omega) (by omega)
      have hr := run_value hw (hv.symm ▸ hm) endsNumber_nil
      rw [List.append_nil] at hr
      exact .inr (.inl ⟨_, hr⟩)

/-- What follows a value runs out where only a part of the value is left. -/
theorem survives_value_bind {f : Int64 → Reader α} (hf : ∀ v mid, (f v).Survives mid s)
    (hend : ∀ v, (f v).RunsOut []) : (value >>= f).Survives p s := by
  intro a rest h
  obtain ⟨v, mid, hv, ha⟩ := run_bind_ok_iff.mp h
  rcases value_cut hv with hout | ⟨v', hv'⟩ | ⟨mid', rfl, hv'⟩
  · exact .inl (hout.bind f)
  · exact .inl (fails_bind hv' (hend v'))
  · rcases hf v mid' a rest ha with hout | ⟨rest', hrest, ha'⟩
    · exact .inl (fails_bind hv' hout)
    · exact .inr ⟨rest', hrest, run_bind_ok_iff.mpr ⟨v, mid', hv', ha'⟩⟩

end RecordText.Json
