import RecordText.Json.Reader
import RecordText.Proofs.Grammar

/-!
# Runs of readers

What the run of a reader that is put together from others says about the runs of its parts.

* `run_bind_ok_iff`: a sequence succeeds exactly when both of its parts do.
* `Fails.bind`, `fails_bind`: a sequence fails where its first part does, or its second part.
* `run_blanks_peek`, `blanks_peek_ok`: most readers pass over blanks first and then look at one
  character.
* `many_ok`: what holds of no round, and of one more round, holds of any number of rounds.
-/

namespace RecordText.Json.Reader

theorem run_bind_ok_iff {α β : Type} {r : Reader α} {f : α → Reader β} {text rest : List Char}
    {b : β} : (r >>= f).run text = .ok (b, rest) ↔
      ∃ a mid, r.run text = .ok (a, mid) ∧ (f a).run mid = .ok (b, rest) := by
  rw [run_bind]
  cases r.run text with
  | error e => simp
  | ok p =>
    constructor
    · intro h
      exact ⟨p.1, p.2, rfl, h⟩
    · rintro ⟨a, mid, hr, hf⟩
      cases hr
      exact hf

theorem run_skip_bind {α : Type} (f : Unit → Reader α) (c : Char) (text : List Char) :
    (skip >>= f).run (c :: text) = (f ()).run text := by
  simp only [run_bind, run_skip, List.tail_cons]

/-- One reader in the place of another, and then on as before. -/
theorem run_bind_of_run_eq {α β γ : Type} {r : Reader α} {r' : Reader β} {k : β → Reader α}
    {text text' : List Char} (h : r.run text = (r' >>= k).run text') (f : α → Reader γ) :
    (r >>= f).run text = (r' >>= fun b => k b >>= f).run text' := by
  rw [run_bind, h, run_bind, run_bind]
  cases r'.run text' <;> rfl

/-! ## Failures -/

/-- The reader fails with such a fault. -/
def Fails {α : Type} (r : Reader α) (P : Fault → Prop) (text : List Char) : Prop :=
  ∃ fault, r.run text = .error fault ∧ P fault

section Fails

variable {α β : Type} {P : Fault → Prop} {text mid : List Char} {a : α}

theorem Fails.bind {r : Reader α} (h : r.Fails P text) (f : α → Reader β) :
    (r >>= f).Fails P text := by
  obtain ⟨fault, h, hP⟩ := h
  refine ⟨fault, ?_, hP⟩
  rw [run_bind, h]

theorem fails_bind {r : Reader α} {f : α → Reader β} (h : r.run text = .ok (a, mid))
    (hf : (f a).Fails P mid) : (r >>= f).Fails P text := by
  obtain ⟨fault, hf, hP⟩ := hf
  refine ⟨fault, ?_, hP⟩
  rw [run_bind, h]
  exact hf

theorem fails_many {r : Reader (Option α)} (hadv : r.Advances) (h : r.Fails P text) :
    (many r hadv).Fails P text := by
  obtain ⟨fault, h, hP⟩ := h
  refine ⟨fault, ?_, hP⟩
  rw [run_many, h]

theorem fails_many_some {r : Reader (Option α)} (hadv : r.Advances)
    (hr : r.run text = .ok (some a, mid)) (h : (many r hadv).Fails P mid) :
    (many r hadv).Fails P text := by
  obtain ⟨fault, h, hP⟩ := h
  refine ⟨fault, ?_, hP⟩
  rw [run_many, hr]
  simp only [h]

end Fails

/-! ## Blanks -/

theorem dropWhile_blank {w : List Char} (hw : Blank w) (text : List Char) :
    (w ++ text).dropWhile Char.isWhitespace = text.dropWhile Char.isWhitespace :=
  List.dropWhile_append_of_pos (blank_iff.mp hw)

theorem exists_blank (text : List Char) :
    ∃ w, Blank w ∧ text = w ++ text.dropWhile Char.isWhitespace :=
  ⟨text.takeWhile Char.isWhitespace, blank_iff.mpr (List.all_eq_true.mp List.all_takeWhile),
    List.takeWhile_append_dropWhile.symm⟩

section Blanks

variable {α : Type}

/-- Blanks in front of a text say nothing to a reader that passes over them. -/
theorem run_blanks_bind {f : Unit → Reader α} {w : List Char} (hw : Blank w)
    (text : List Char) : (blanks >>= f).run (w ++ text) = (blanks >>= f).run text := by
  simp only [run_bind, run_blanks, dropWhile_blank hw]

variable {f : Option Char → Reader α}

/-- Most readers pass over blanks and look at the character behind them. -/
theorem run_blanks_peek {w : List Char} (hw : Blank w) {c : Char} (hc : ¬ c.isWhitespace)
    (text : List Char) :
    (blanks >>= fun _ => peek >>= f).run (w ++ c :: text) = (f (some c)).run (c :: text) := by
  rw [run_blanks_bind hw]
  simp only [run_bind, run_blanks, List.dropWhile_cons_of_neg hc, run_peek, List.head?_cons]

theorem run_blanks_peek_nil {w : List Char} (hw : Blank w) :
    (blanks >>= fun _ => peek >>= f).run w = (f none).run [] := by
  have hn := run_blanks_bind (f := fun _ => peek >>= f) hw []
  rw [List.append_nil] at hn
  rw [hn]
  rfl

/-- A text is blank, or there is a first character behind its blanks. -/
theorem blank_or_exists (text : List Char) :
    Blank text ∨ ∃ w c behind, Blank w ∧ ¬ c.isWhitespace ∧ text = w ++ c :: behind := by
  obtain ⟨w, hw, ht⟩ := exists_blank text
  cases hd : text.dropWhile Char.isWhitespace with
  | nil =>
    rw [hd, List.append_nil] at ht
    exact .inl (ht ▸ hw)
  | cons c behind =>
    have hc := List.head?_dropWhile_not Char.isWhitespace text
    rw [hd] at ht hc
    exact .inr ⟨w, c, behind, hw, by simpa using hc, ht⟩

/-- A reader that fails at the end of the text has seen a character if it succeeds. -/
theorem blanks_peek_ok {text rest : List Char} {a : α}
    (h : (blanks >>= fun _ => peek >>= f).run text = .ok (a, rest))
    (hf : ∀ a rest, (f none).run [] ≠ .ok (a, rest)) :
    ∃ w c behind, Blank w ∧ ¬ c.isWhitespace ∧ text = w ++ c :: behind ∧
      (f (some c)).run (c :: behind) = .ok (a, rest) := by
  rcases blank_or_exists text with hb | ⟨w, c, behind, hw, hc, rfl⟩
  · rw [run_blanks_peek_nil hb] at h
    exact absurd h (hf a rest)
  · rw [run_blanks_peek hw hc] at h
    exact ⟨w, c, behind, hw, hc, rfl, h⟩

end Blanks

/-! ## Repetition -/

section Many

variable {α : Type} {r : Reader (Option α)} (h : r.Advances)

theorem run_many_none {text rest : List Char} (hr : r.run text = .ok (none, rest)) :
    (many r h).run text = .ok ([], rest) := by
  rw [run_many, hr]

theorem run_many_some {text mid rest : List Char} {a : α} {as : List α}
    (hr : r.run text = .ok (some a, mid)) (hs : (many r h).run mid = .ok (as, rest)) :
    (many r h).run text = .ok (a :: as, rest) := by
  rw [run_many, hr]
  simp only [hs]

theorem many_ok {rest : List Char} {motive : List Char → List α → Prop}
    (last : ∀ text, r.run text = .ok (none, rest) → motive text [])
    (next : ∀ text a mid as, r.run text = .ok (some a, mid) → motive mid as →
      motive text (a :: as))
    {text : List Char} {as : List α} (hm : (many r h).run text = .ok (as, rest)) :
    motive text as := by
  induction hn : text.length using Nat.strongRecOn generalizing text as with
  | ind n ih =>
    rw [run_many] at hm
    cases hr : r.run text with
    | error e => rw [hr] at hm; cases hm
    | ok p =>
      obtain ⟨o, mid⟩ := p
      rw [hr] at hm
      cases o with
      | none =>
        cases hm
        exact last text hr
      | some a =>
        cases hs : (many r h).run mid with
        | error e => simp only [hs] at hm; cases hm
        | ok q =>
          simp only [hs] at hm
          cases hm
          exact next text a mid q.1 hr (ih _ (hn ▸ h _ _ _ hr) hs rfl)

end Many

end RecordText.Json.Reader
