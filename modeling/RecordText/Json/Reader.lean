import RecordText.Json.Fault

/-!
# Readers

A reader takes a value off the front of a text, or fails. What it leaves is always an end of the
text it was given.

Readers are put together from a few that look at the text directly: `ahead` looks at it, `drop` and
`span` take characters off it, and `failPast` fails. `many` repeats a reader until it finds no more.

* `length_le_of_run`, `rest_suffix`: no reader invents text.
* `run_bind`: the second reader of a sequence works on what the first one leaves.
* `run_many`: one round of `many`.
-/

namespace RecordText.Json

open Text (byteLength)

/-- A way to take a value off the front of a text. -/
structure Reader (α : Type) where
  run : List Char → Except Fault (α × List Char)
  rest_suffix : ∀ {text rest : List Char} {a : α}, run text = .ok (a, rest) → rest <:+ text

namespace Reader

/-- The value and the rest are given without looking at the text. -/
protected def pure {α : Type} (a : α) : Reader α where
  run text := .ok (a, text)
  rest_suffix h := by cases h; exact List.suffix_rfl

/-- One reader after another. -/
protected def bind {α β : Type} (r : Reader α) (f : α → Reader β) : Reader β where
  run text :=
    match r.run text with
    | .error e => .error e
    | .ok (a, rest) => (f a).run rest
  rest_suffix {text rest b} h := by
    cases hr : r.run text with
    | error e => rw [hr] at h; cases h
    | ok p =>
      rw [hr] at h
      exact (rest_suffix (f p.1) h).trans (rest_suffix r hr)

instance : Monad Reader where
  pure := Reader.pure
  bind := Reader.bind

/-- The text that has not been read yet. -/
def ahead : Reader (List Char) where
  run text := .ok (text, text)
  rest_suffix h := by cases h; exact List.suffix_rfl

/-- Passes over this many characters. -/
def drop (n : Nat) : Reader Unit where
  run text := .ok ((), text.drop n)
  rest_suffix h := by cases h; exact List.drop_suffix n _

/-- Takes the characters in front that satisfy `p`. -/
def span (p : Char → Bool) : Reader (List Char) where
  run text := .ok (text.takeWhile p, text.dropWhile p)
  rest_suffix h := by cases h; exact List.dropWhile_suffix p

/-- Fails this many bytes further on, or at the end of the text if that is nearer. -/
def failPast {α : Type} (bytes : Nat) (cause : Cause) : Reader α where
  run text := .error ⟨cause, byteLength text - bytes⟩
  rest_suffix h := by cases h

/-- Fails here. -/
def fail {α : Type} (cause : Cause) : Reader α := failPast 0 cause

/-! ## What runs do -/

section Run

variable {α β : Type} (text : List Char)

@[simp] theorem run_pure (a : α) : (pure a : Reader α).run text = .ok (a, text) := rfl

@[simp] theorem run_bind (r : Reader α) (f : α → Reader β) :
    (r >>= f).run text = match r.run text with
      | .error e => .error e
      | .ok (a, rest) => (f a).run rest := rfl

@[simp] theorem run_ahead : ahead.run text = .ok (text, text) := rfl

@[simp] theorem run_drop (n : Nat) : (drop n).run text = .ok ((), text.drop n) := rfl

@[simp] theorem run_span (p : Char → Bool) :
    (span p).run text = .ok (text.takeWhile p, text.dropWhile p) := rfl

@[simp] theorem run_failPast (bytes : Nat) (cause : Cause) :
    (failPast bytes cause : Reader α).run text = .error ⟨cause, byteLength text - bytes⟩ := rfl

@[simp] theorem run_fail (cause : Cause) :
    (fail cause : Reader α).run text = .error ⟨cause, byteLength text⟩ := rfl

end Run

theorem length_le_of_run {α : Type} (r : Reader α) {text rest : List Char} {a : α}
    (h : r.run text = .ok (a, rest)) : rest.length ≤ text.length :=
  (r.rest_suffix h).length_le

/-! ## Single characters -/

/-- The next character, if there is one. -/
def peek : Reader (Option Char) := do
  return (← ahead).head?

/-- Passes over the next character. -/
def skip : Reader Unit := drop 1

/-- Passes over this character if it is the next one, and says whether it was. -/
def accept (c : Char) : Reader Bool := do
  if (← peek) = some c then
    skip
    return true
  else
    return false

/-- Passes over the blanks in front: spaces, tabs, line feeds and carriage returns. -/
def blanks : Reader Unit := do
  let _ ← span Char.isWhitespace

@[simp] theorem run_peek (text : List Char) : peek.run text = .ok (text.head?, text) := rfl

@[simp] theorem run_skip (text : List Char) : skip.run text = .ok ((), text.tail) := by
  simp [skip]

@[simp] theorem run_blanks (text : List Char) :
    blanks.run text = .ok ((), text.dropWhile Char.isWhitespace) := rfl

/-! ## Repetition -/

/-- Whatever the reader finds takes at least one character. -/
def Advances {α : Type} (r : Reader (Option α)) : Prop :=
  ∀ text a rest, r.run text = .ok (some a, rest) → rest.length < text.length

/-- Reads until nothing more is found. What has been found so far is given last first. -/
def collect {α : Type} (r : Reader (Option α)) (h : r.Advances) (found : List α)
    (text : List Char) : Except Fault (List α × List Char) :=
  match hr : r.run text with
  | .error e => .error e
  | .ok (none, rest) => .ok (found.reverse, rest)
  | .ok (some a, rest) =>
    have : rest.length < text.length := h _ _ _ hr
    collect r h (a :: found) rest
termination_by text.length

section Collect

variable {α : Type} (r : Reader (Option α)) (h : r.Advances) (found : List α)

theorem collect_error {text : List Char} {e : Fault} (hr : r.run text = .error e) :
    collect r h found text = .error e := by
  rw [collect]
  split <;> simp_all

theorem collect_none {text rest : List Char} (hr : r.run text = .ok (none, rest)) :
    collect r h found text = .ok (found.reverse, rest) := by
  rw [collect]
  split <;> simp_all

theorem collect_some {text rest : List Char} {a : α} (hr : r.run text = .ok (some a, rest)) :
    collect r h found text = collect r h (a :: found) rest := by
  conv => lhs; rw [collect]
  split <;> simp_all

/-- What has been found before only stands in front of what is found now. -/
theorem collect_found (text : List Char) :
    collect r h found text = match collect r h [] text with
      | .error e => .error e
      | .ok (as, rest) => .ok (found.reverse ++ as, rest) := by
  induction hn : text.length using Nat.strongRecOn generalizing found text with
  | ind n ih =>
    cases hr : r.run text with
    | error e => rw [collect_error r h found hr, collect_error r h [] hr]
    | ok p =>
      obtain ⟨o, rest⟩ := p
      cases o with
      | none => simp [collect_none r h _ hr]
      | some a =>
        have hlt := h _ _ _ hr
        rw [collect_some r h found hr, collect_some r h [] hr,
          ih _ (hn ▸ hlt) (a :: found) rest rfl, ih _ (hn ▸ hlt) [a] rest rfl]
        cases collect r h [] rest <;> simp

theorem collect_suffix {as : List α} {text rest : List Char}
    (hc : collect r h found text = .ok (as, rest)) : rest <:+ text := by
  fun_induction collect r h found text with
  | case1 => cases hc
  | case2 found text rest' hr =>
    cases hc
    exact r.rest_suffix hr
  | case3 found text a rest' hr _ ih => exact (ih hc).trans (r.rest_suffix hr)

end Collect

/-- Repeats a reader until it finds nothing more. -/
def many {α : Type} (r : Reader (Option α)) (h : r.Advances) : Reader (List α) where
  run := collect r h []
  rest_suffix := collect_suffix r h []

/-- One round: what the reader finds first stands in front of all that is found behind it. -/
theorem run_many {α : Type} (r : Reader (Option α)) (h : r.Advances) (text : List Char) :
    (many r h).run text = match r.run text with
      | .error e => .error e
      | .ok (none, rest) => .ok ([], rest)
      | .ok (some a, rest) =>
        match (many r h).run rest with
        | .error e => .error e
        | .ok (as, rest) => .ok (a :: as, rest) := by
  simp only [many]
  cases hr : r.run text with
  | error e => exact collect_error r h [] hr
  | ok p =>
    obtain ⟨o, rest⟩ := p
    cases o with
    | none => exact collect_none r h [] hr
    | some a =>
      rw [collect_some r h [] hr, collect_found r h [a] rest]
      rfl

end Reader

end RecordText.Json
