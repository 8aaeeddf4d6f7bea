import RecordText.Json.Records
import RecordText.Proofs.Values

/-!
# What is read between the parts of arrays and objects

The first part of an array or object follows its bracket, every other one a comma. `Leads` says what
may stand in front of a part; it is all that is read to find out that there is one.

* `run_nextElement`, `nextElement_ok`: in front of an element.
* `run_nextKey`, `nextKey_ok`: in front of a key, and the key.
* `run_nextElement_closing`, `run_nextKey_closing`: behind the last part.
-/

namespace RecordText.Json

open Reader

/-- What stands in front of an element or member: blanks, and a comma unless it is the first. -/
def Leads : Bool → List Char → Prop
  | true, cs => Blank cs
  | false, cs => ∃ w w', Blank w ∧ Blank w' ∧ cs = w ++ ',' :: w'

theorem leads_blank {w : List Char} (hw : Blank w) : Leads true w := hw

theorem leads_comma {w w' : List Char} (hw : Blank w) (hw' : Blank w') :
    Leads false (w ++ ',' :: w') :=
  ⟨w, w', hw, hw', rfl⟩

/-- What stands in front of a further part, apart from the part. -/
theorem further_append (w w' cs ds text : List Char) :
    w ++ ',' :: (w' ++ (cs ++ ds)) ++ text = w ++ ',' :: w' ++ (cs ++ (ds ++ text)) := by
  simp

/-! ## Elements -/

theorem run_nextElement {first : Bool} {l : List Char} (hl : Leads first l) {c : Char}
    (hc : ¬ c.isWhitespace) (hb : c ≠ ']') (text : List Char) :
    (nextElement first).run (l ++ c :: text) = .ok (true, c :: text) := by
  cases first with
  | true =>
    rw [nextElement, run_blanks_peek hl hc]
    simp [hb]
  | false =>
    obtain ⟨w, w', hw, hw', rfl⟩ := hl
    rw [List.append_assoc, List.cons_append, nextElement, run_blanks_peek hw (by decide)]
    simp only [Char.reduceEq, if_false, Bool.false_eq_true, if_true]
    rw [run_skip_bind, run_blanks_peek hw' hc]
    simp [hb]

theorem run_nextElement_closing (first : Bool) {w : List Char} (hw : Blank w)
    (text : List Char) : (nextElement first).run (w ++ ']' :: text) = .ok (false, ']' :: text) := by
  rw [nextElement, run_blanks_peek hw (by decide)]
  rfl

/-- The two ways in which an element may be looked for with success. -/
theorem nextElement_ok {first more : Bool} {text rest : List Char}
    (h : (nextElement first).run text = .ok (more, rest)) :
    (more = false ∧ ∃ w behind, Blank w ∧ rest = ']' :: behind ∧ text = w ++ rest) ∨
      (more = true ∧ ∃ l, Leads first l ∧ text = l ++ rest) := by
  obtain ⟨w, c, behind, hw, -, rfl, hf⟩ := blanks_peek_ok h (fun _ _ => nofun)
  simp only at hf
  split at hf
  · rename_i hc
    cases hf
    exact .inl ⟨rfl, w, behind, hw, by rw [hc], rfl⟩
  split at hf
  · rename_i hfirst
    cases hf
    exact .inr ⟨rfl, w, by rwa [hfirst], rfl⟩
  rename_i hfirst
  split at hf
  · rename_i hc
    rw [run_skip_bind] at hf
    obtain ⟨w', d, behind', hw', -, rfl, hg⟩ := blanks_peek_ok hf (fun _ _ => nofun)
    simp only at hg
    split at hg
    · cases hg
    · cases hg
      rw [Bool.not_eq_true] at hfirst
      subst hfirst
      exact .inr ⟨rfl, w ++ ',' :: w', ⟨w, w', hw, hw', rfl⟩, by rw [hc]; simp⟩
  · cases hf

theorem run_closeArray {w : List Char} (hw : Blank w) (rest : List Char) :
    closeArray.run (w ++ ']' :: rest) = .ok ((), rest) := by
  rw [closeArray, run_blanks_peek hw (by decide)]
  rfl

/-- Behind a comma the end of the array is wrong, and so is everything else. -/
theorem run_closeArray_comma {w : List Char} (hw : Blank w) (rest : List Char) :
    closeArray.run (w ++ ',' :: rest) =
      .error ⟨.malformed (if (rest.dropWhile Char.isWhitespace).head? = some ']' then
        .trailingComma else .trailingText),
        Text.byteLength (rest.dropWhile Char.isWhitespace) - 1⟩ := by
  rw [closeArray, run_blanks_peek hw (by decide)]
  simp only [Char.reduceEq, if_false, if_true]
  rw [run_skip_bind]
  simp only [run_bind, run_blanks, run_peek]
  split <;> rfl

theorem closeArray_ok {text rest : List Char} (h : closeArray.run text = .ok ((), rest)) :
    ∃ w, Blank w ∧ text = w ++ ']' :: rest := by
  obtain ⟨w, c, behind, hw, -, rfl, hf⟩ := blanks_peek_ok h (fun _ _ => nofun)
  simp only at hf
  split at hf
  · rename_i hc
    cases hf
    exact ⟨w, hw, by rw [hc]; rfl⟩
  split at hf
  · simp only [run_bind, run_skip, run_blanks, run_peek] at hf
    split at hf <;> cases hf
  · cases hf

/-! ## Keys -/

/-- From the quote of a key on its literal is read. -/
theorem run_nextKey_quote {first : Bool} {l : List Char} (hl : Leads first l) (text : List Char) :
    (nextKey first).run (l ++ '"' :: text) =
      (stringRest >>= fun s => pure (some s)).run text := by
  cases first with
  | true =>
    rw [nextKey, run_blanks_peek hl (by decide)]
    simp
  | false =>
    obtain ⟨w, w', hw, hw', rfl⟩ := hl
    rw [List.append_assoc, List.cons_append, nextKey, run_blanks_peek hw (by decide)]
    simp only [Char.reduceEq, if_false, Bool.false_eq_true, if_true]
    rw [run_skip_bind, run_blanks_peek hw' (by decide)]
    simp

theorem run_nextKey {first : Bool} {l k : List Char} {s : String} (hl : Leads first l)
    (hk : SpellsString k s) (rest : List Char) :
    (nextKey first).run (l ++ (k ++ rest)) = .ok (some s, rest) := by
  cases hk with
  | @quoted us _ h =>
    rw [List.cons_append, List.append_assoc, List.singleton_append, run_nextKey_quote hl, run_bind,
      run_stringRest h]
    rfl

theorem run_nextKey_closing (first : Bool) {w : List Char} (hw : Blank w) (text : List Char) :
    (nextKey first).run (w ++ '}' :: text) = .ok (none, '}' :: text) := by
  rw [nextKey, run_blanks_peek hw (by decide)]
  rfl

/-- A key is read from behind its opening quote. -/
theorem key_ok {text rest : List Char} {key : Option String}
    (h : Reader.run (do skip; return some (← stringRest)) ('"' :: text) = .ok (key, rest)) :
    ∃ s k, key = some s ∧ SpellsString k s ∧ '"' :: text = k ++ rest := by
  rw [run_skip_bind] at h
  obtain ⟨s, _, hs, h⟩ := run_bind_ok_iff.mp h
  cases h
  obtain ⟨us, hus, rfl⟩ := stringRest_ok hs
  exact ⟨s, '"' :: (us ++ ['"']), rfl, .quoted hus, by simp⟩

/-- The two ways in which a key may be looked for with success. -/
theorem nextKey_ok {first : Bool} {key : Option String} {text rest : List Char}
    (h : (nextKey first).run text = .ok (key, rest)) :
    (key = none ∧ ∃ w behind, Blank w ∧ rest = '}' :: behind ∧ text = w ++ rest) ∨
      ∃ s l k, key = some s ∧ Leads first l ∧ SpellsString k s ∧ text = l ++ (k ++ rest) := by
  obtain ⟨w, c, behind, hw, -, rfl, hf⟩ := blanks_peek_ok h (fun _ _ => nofun)
  simp only at hf
  split at hf
  · rename_i hc
    cases hf
    exact .inl ⟨rfl, w, behind, hw, by rw [hc], rfl⟩
  split at hf
  · rename_i hfirst
    split at hf
    · rename_i hc
      subst hc
      obtain ⟨s, k, hkey, hk, hbehind⟩ := key_ok hf
      exact .inr ⟨s, w, k, hkey, by rwa [hfirst], hk, by rw [hbehind]⟩
    · cases hf
  rename_i hfirst
  split at hf
  · rename_i hc
    rw [run_skip_bind] at hf
    obtain ⟨w', d, behind', hw', -, rfl, hg⟩ := blanks_peek_ok hf (fun _ _ => nofun)
    simp only at hg
    split at hg
    · rename_i hd
      subst hd
      obtain ⟨s, k, hkey, hk, hbehind⟩ := key_ok hg
      rw [Bool.not_eq_true] at hfirst
      subst hfirst
      refine .inr ⟨s, w ++ ',' :: w', k, hkey, ⟨w, w', hw, hw', rfl⟩, hk, ?_⟩
      rw [hc, hbehind]
      simp
    · split at hg <;> cases hg
  · cases hf

theorem run_colon {w : List Char} (hw : Blank w) (rest : List Char) :
    colon.run (w ++ ':' :: rest) = .ok ((), rest) := by
  rw [colon, run_blanks_peek hw (by decide)]
  rfl

theorem colon_ok {text rest : List Char} (h : colon.run text = .ok ((), rest)) :
    ∃ w, Blank w ∧ text = w ++ ':' :: rest := by
  obtain ⟨w, c, behind, hw, -, rfl, hf⟩ := blanks_peek_ok h (fun _ _ => nofun)
  simp only at hf
  split at hf
  · rename_i hc
    cases hf
    exact ⟨w, hw, by rw [hc]; rfl⟩
  · cases hf

end RecordText.Json
