import RecordText.Json.Value

/-!
# Reading records

A record is written as an object with its two fields in either order, or as an array of name and
value. A list of records is an array of them.

Some faults are known only inside an object or array and yet belong to it as a whole: a field that
does not exist, is there twice or is missing. `refuse` places them behind the bracket that closes
the object or array, if that comes next; the text behind is not looked at.
-/

namespace RecordText.Json

open Reader

/-! ## Brackets, commas and colons -/

/-- Gives up on an object or array, behind its closing bracket if that comes next. -/
def refuse {α : Type} (bracket : Char) (m : Mismatch) : Reader α := do
  blanks
  let _ ← accept bracket
  fail (.mismatched m)

/-- Goes on to the next element of an array, and says whether there is one; where there is none the
closing bracket comes next. -/
def nextElement (first : Bool) : Reader Bool := do
  blanks
  match ← peek with
  | none => fail (.unfinished .list)
  | some c =>
    if c = ']' then
      return false
    else if first then
      return true
    else if c = ',' then
      skip
      blanks
      match ← peek with
      | none => fail (.unfinished .value)
      | some c => if c = ']' then failPast 1 (.malformed .trailingComma) else return true
    else
      failPast 1 (.malformed .afterElement)

/-- The closing bracket of an array that has all its elements. -/
def closeArray : Reader Unit := do
  blanks
  match ← peek with
  | none => fail (.unfinished .list)
  | some c =>
    if c = ']' then
      skip
    else if c = ',' then
      skip
      blanks
      if (← peek) = some ']' then failPast 1 (.malformed .trailingComma)
      else failPast 1 (.malformed .trailingText)
    else
      failPast 1 (.malformed .trailingText)

/-- The key of the next member of an object, or none; where there is none the closing brace comes
next. -/
def nextKey (first : Bool) : Reader (Option String) := do
  blanks
  match ← peek with
  | none => fail (.unfinished .object)
  | some c =>
    if c = '}' then
      return none
    else if first then
      if c = '"' then
        skip
        return some (← stringRest)
      else failPast 1 (.malformed .key)
    else if c = ',' then
      skip
      blanks
      match ← peek with
      | none => fail (.unfinished .value)
      | some c =>
        if c = '"' then
          skip
          return some (← stringRest)
        else if c = '}' then failPast 1 (.malformed .trailingComma)
        else failPast 1 (.malformed .key)
    else
      failPast 1 (.malformed .afterMember)

/-- The colon behind a key. -/
def colon : Reader Unit := do
  blanks
  match ← peek with
  | none => fail (.unfinished .object)
  | some c => if c = ':' then skip else failPast 1 (.malformed .afterKey)

/-! ## Records -/

/-- What is known of a record while its object is being read. -/
structure Draft where
  name : Option String := none
  value : Option Int64 := none

/-- How many fields have not been read yet. -/
def Draft.absent (d : Draft) : Nat := d.name.elim 1 (fun _ => 0) + d.value.elim 1 (fun _ => 0)

/-- The members of an object, up to its closing brace. -/
def members (first : Bool) (d : Draft) : Reader Draft := do
  match ← nextKey first with
  | none => return d
  | some key =>
    match Record.Field.ofKey? key with
    | none => refuse '}' (.unknownField key)
    | some .name =>
      if _ : d.name = none then
        colon
        let s ← name
        members false { d with name := some s }
      else refuse '}' (.duplicateField .name)
    | some .value =>
      if _ : d.value = none then
        colon
        let n ← value
        members false { d with value := some n }
      else refuse '}' (.duplicateField .value)
termination_by d.absent
decreasing_by all_goals simp_all [Draft.absent]

/-- A record in the form of an object, from its brace on. -/
def objectRecord : Reader Record := do
  skip
  match ← members true {} with
  | ⟨none, _⟩ => refuse '}' (.missingField .name)
  | ⟨some _, none⟩ => refuse '}' (.missingField .value)
  | ⟨some s, some n⟩ =>
    skip
    return ⟨s, n⟩

/-- A record in the form of an array, from its bracket on. -/
def arrayRecord : Reader Record := do
  skip
  if ← nextElement true then
    let s ← name
    if ← nextElement false then
      let n ← value
      closeArray
      return ⟨s, n⟩
    else refuse ']' (.tooShort 1)
  else refuse ']' (.tooShort 0)

/-- A record in either form. -/
def record : Reader Record := do
  match ← found with
  | .object => objectRecord
  | .list => arrayRecord
  | f => wrongType f .record

/-! ## Lists of records -/

/-- The next record of a list, behind a comma. -/
def nextRecord : Reader (Option Record) := do
  if ← nextElement false then return some (← record) else return none

/-- Behind the first element the next one is found behind a comma. -/
theorem nextElement_advances {text rest : List Char}
    (h : (nextElement false).run text = .ok (true, rest)) : rest.length < text.length := by
  have hb : (text.dropWhile Char.isWhitespace).length ≤ text.length :=
    (List.dropWhile_suffix _).length_le
  simp only [nextElement, Bool.false_eq_true, if_false, run_bind, run_blanks, run_peek] at h
  cases ht : text.dropWhile Char.isWhitespace with
  | nil => simp [ht] at h
  | cons c behind =>
    have hd : (behind.dropWhile Char.isWhitespace).length ≤ behind.length :=
      (List.dropWhile_suffix _).length_le
    rw [ht, List.length_cons] at hb
    simp only [ht, List.head?_cons] at h
    split at h
    · simp at h
    · split at h
      · simp only [run_bind, run_skip, run_blanks, run_peek, List.tail_cons] at h
        split at h
        · simp at h
        · split at h
          · simp at h
          · simp only [run_pure, Except.ok.injEq, Prod.mk.injEq, true_and] at h
            rw [← h]
            omega
      · simp at h

theorem nextRecord_advances : nextRecord.Advances := by
  intro text r rest h
  simp only [nextRecord, run_bind] at h
  cases hn : (nextElement false).run text with
  | error e => rw [hn] at h; cases h
  | ok p =>
    obtain ⟨more, behind⟩ := p
    rw [hn] at h
    cases more with
    | false => cases h
    | true =>
      have hlt := nextElement_advances hn
      simp only [run_bind, if_true] at h
      cases hr : record.run behind with
      | error e => rw [hr] at h; cases h
      | ok q =>
        rw [hr] at h
        cases h
        exact Nat.lt_of_le_of_lt (length_le_of_run record hr) hlt

/-- Records in an array. -/
def records : Reader (List Record) := do
  match ← found with
  | .list =>
    skip
    if ← nextElement true then
      let r ← record
      let rs ← many nextRecord nextRecord_advances
      skip
      return r :: rs
    else
      skip
      return []
  | f => wrongType f .records

/-! ## Whole texts -/

/-- Nothing may follow but blanks. -/
def ending : Reader Unit := do
  blanks
  match ← peek with
  | none => return ()
  | some _ => failPast 1 (.malformed .trailingText)

/-- The value that a whole text stands for. -/
def read {α : Type} (r : Reader α) (text : String) : Except ReadError α :=
  match (do let a ← r; ending; return a : Reader α).run text.toList with
  | .ok (a, _) => .ok a
  | .error f => .error (f.locate text.toList)

/-- Reads a single record. -/
def readRecord (text : String) : Except ReadError Record := read record text

/-- Reads a list of records. -/
def readRecords (text : String) : Except ReadError (List Record) := read records text

end RecordText.Json
