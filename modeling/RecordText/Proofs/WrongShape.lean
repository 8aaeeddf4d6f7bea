import RecordText.Proofs.Acceptance
import RecordText.Proofs.Document

/-!
# JSON in the place of a record

Any value may stand where a record is asked for, or a part of one. A reader that does not find what
it asks for fails with a mismatch as soon as it can, and as long as it finds it, it stays in step
with the grammar: it gets to the end of each value. So the text never seems to be broken, however
deep the nesting is that has not been read.

* `name_settles`, `value_settles`, `members_settles`: the parts of records.
* `record_settles`: a value is read as a record to its end, or it is a mismatch, unless it is an
  array that begins like a record and goes on.
* `record_trailing`: such an array is refused behind its second element.
-/

namespace RecordText.Json

open Reader

/-- The text is JSON but does not hold what is asked for. -/
def Fault.Mismatched (fault : Fault) : Prop := fault.cause.kind = .mismatched

/-- There is more text than there should be. -/
def Fault.Trailing (fault : Fault) : Prop := fault.cause = .malformed .trailingText

namespace Reader

/-- The reader gets to `rest` or finds that the shape is wrong. -/
def Settles {α : Type} (r : Reader α) (text rest : List Char) : Prop :=
  (∃ a, r.run text = .ok (a, rest)) ∨ r.Fails Fault.Mismatched text

section

variable {α β : Type} {r : Reader α} {f : α → Reader β} {text mid rest : List Char}

theorem Settles.bind (h : r.Settles text mid)
    (hf : ∀ a, r.run text = .ok (a, mid) → (f a).Settles mid rest) :
    (r >>= f).Settles text rest := by
  rcases h with ⟨a, ha⟩ | hfails
  · rcases hf a ha with ⟨b, hb⟩ | hfails
    · exact .inl ⟨b, run_bind_ok_iff.mpr ⟨a, mid, ha, hb⟩⟩
    · exact .inr (fails_bind ha hfails)
  · exact .inr (hfails.bind f)

theorem settles_bind {a : α} (h : r.run text = .ok (a, mid)) (hf : (f a).Settles mid rest) :
    (r >>= f).Settles text rest := by
  refine Settles.bind (.inl ⟨a, h⟩) fun b hb => ?_
  rw [h] at hb
  cases hb
  exact hf

theorem settles_pure (a : α) : (pure a : Reader α).Settles text text := .inl ⟨a, rfl⟩

end

end Reader

/-! ## What is found -/

variable {cs w rest : List Char} {t : Tree}

theorem SpellsTree.head (h : SpellsTree cs t) :
    ∃ c behind, cs = c :: behind ∧ ¬ c.isWhitespace ∧ c ≠ ']' := by
  cases h with
  | null | true | false | minusZero => exact ⟨_, _, rfl, by decide, by decide⟩
  | integer h =>
    obtain ⟨c, behind, rfl, hc⟩ := h.head
    exact ⟨c, behind, rfl, hc.not_isWhitespace, hc.ne ']' (by decide)⟩
  | string h =>
    obtain ⟨behind, rfl⟩ := h.head
    exact ⟨_, _, rfl, by decide, by decide⟩
  | array h =>
    obtain ⟨behind, rfl⟩ := h.head
    exact ⟨_, _, rfl, by decide, by decide⟩
  | object h =>
    obtain ⟨behind, rfl⟩ := h.head
    exact ⟨_, _, rfl, by decide, by decide⟩

/-- What is found where a value stands. -/
def Tree.found : Tree → Found
  | null => .null
  | boolean b => .boolean b
  | integer n => .integer n
  | minusZero => .float (-Float.ofNat 0)
  | string s => .string s
  | array _ => .list
  | object _ => .object

theorem run_found_tree (h : SpellsTree cs t) (hr : EndsNumber rest) :
    ∃ mid, found.run (cs ++ rest) = .ok (t.found, mid) := by
  cases h with
  | null => exact ⟨rest, run_found_null rest⟩
  | true => exact ⟨rest, run_found_true rest⟩
  | false => exact ⟨rest, run_found_false rest⟩
  | integer h hlo hhi =>
    have hlimit : Number.significandLimit = UInt64.size - 1 := rfl
    exact ⟨rest, run_found_integer h hlo (by omega) hr⟩
  | minusZero =>
    have hsign : (accept '-').run ('-' :: (['0'] ++ rest)) = .ok (true, ['0'] ++ rest) := rfl
    have hn := run_number_digits true hsign .zero (Nat.zero_le _) hr
    exact ⟨rest, run_found_number (.inl rfl) hn⟩
  | string h => exact ⟨rest, run_found_string h rest⟩
  | array h =>
    obtain ⟨behind, rfl⟩ := h.head
    exact ⟨_, run_found_list _⟩
  | object h =>
    obtain ⟨behind, rfl⟩ := h.head
    exact ⟨_, run_found_object _⟩

theorem fails_wrongType {α : Type} (f : Found) (expected : Expected) (text : List Char) :
    (wrongType f expected : Reader α).Fails Fault.Mismatched text :=
  ⟨_, rfl, rfl⟩

theorem name_settles (hw : Blank w) (h : SpellsTree cs t) (hr : EndsNumber rest) :
    name.Settles (w ++ (cs ++ rest)) rest := by
  obtain ⟨mid, hf⟩ := run_found_tree h hr
  rw [← run_found_blank hw] at hf
  cases h with
  | string h => exact .inl ⟨_, run_name hw h rest⟩
  | _ => exact .inr (fails_bind hf (fails_wrongType _ _ _))

theorem value_settles (hw : Blank w) (h : SpellsTree cs t) (hr : EndsNumber rest) :
    value.Settles (w ++ (cs ++ rest)) rest := by
  obtain ⟨mid, hf⟩ := run_found_tree h hr
  rw [← run_found_blank hw] at hf
  cases h with
  | @integer _ n h =>
    by_cases hn : Int64.minValue.toInt ≤ n ∧ n ≤ Int64.maxValue.toInt
    · rw [← toInt_ofInt_of_mem hn] at h
      exact .inl ⟨_, run_value hw h hr⟩
    · refine .inr (fails_bind hf ?_)
      simp only [Tree.found, if_neg hn]
      exact ⟨_, rfl, rfl⟩
  | _ => exact .inr (fails_bind hf (fails_wrongType _ _ _))

theorem name_ok_tree {s : String} {mid : List Char} (h : SpellsTree cs t) (hr : EndsNumber rest)
    (hn : name.run (cs ++ rest) = .ok (s, mid)) : ∃ s, t = .string s := by
  obtain ⟨mid', hf⟩ := run_found_tree h hr
  rw [name, run_bind, hf] at hn
  cases t with
  | string s => exact ⟨s, rfl⟩
  | _ => cases hn

theorem value_ok_tree {v : Int64} {mid : List Char} (h : SpellsTree cs t) (hr : EndsNumber rest)
    (hv : value.run (cs ++ rest) = .ok (v, mid)) :
    ∃ n, t = .integer n ∧ Int64.minValue.toInt ≤ n ∧ n ≤ Int64.maxValue.toInt := by
  obtain ⟨mid', hf⟩ := run_found_tree h hr
  rw [value, run_bind, hf] at hv
  cases t with
  | integer n =>
    by_cases hn : Int64.minValue.toInt ≤ n ∧ n ≤ Int64.maxValue.toInt
    · exact ⟨n, rfl, hn⟩
    · simp only [Tree.found, if_neg hn] at hv
      cases hv
  | _ => cases hv

/-! ## Arrays in the place of records -/

theorem fails_refuse {α : Type} (bracket : Char) (m : Mismatch) (text : List Char) :
    (refuse bracket m : Reader α).Fails Fault.Mismatched text := by
  refine fails_bind (run_blanks text) ?_
  by_cases hhead : (text.dropWhile Char.isWhitespace).head? = some bracket
  · exact fails_bind (by rw [run_accept, if_pos hhead]) ⟨_, rfl, rfl⟩
  · exact fails_bind (by rw [run_accept, if_neg hhead]) ⟨_, rfl, rfl⟩

/-- Between the parts of an array or object, and behind them, a number ends. -/
theorem endsNumber_further {α : Type} {P : List Char → α → Prop} {ds : List Char} {as : List α}
    (hs : SpellsFurther P ds as) (hw : Blank w) (c : Char)
    (hc : ¬ c.isDigit ∧ c ≠ '.' ∧ c ≠ 'e' ∧ c ≠ 'E') (text : List Char) :
    EndsNumber (ds ++ (w ++ c :: text)) := by
  cases hs with
  | nil =>
    rw [List.nil_append]
    exact endsNumber_append hw (endsNumber_cons c hc text)
  | cons hw₁ hw₂ h hs =>
    rw [List.append_assoc, List.cons_append]
    exact endsNumber_append hw₁ (endsNumber_cons ',' (by decide) _)

theorem run_nextElement_tree {first : Bool} {l : List Char} (hl : Leads first l)
    (h : SpellsTree cs t) (text : List Char) :
    (nextElement first).run (l ++ (cs ++ text)) = .ok (true, cs ++ text) := by
  obtain ⟨c, behind, rfl, hc, hb⟩ := h.head
  exact run_nextElement hl hc hb (behind ++ text)

/-- Behind the second element nothing but the end of the array is looked for. -/
theorem fails_closeArray {w' : List Char} (hw : Blank w) (hw' : Blank w') (h : SpellsTree cs t)
    (text : List Char) :
    closeArray.Fails Fault.Trailing (w ++ ',' :: (w' ++ (cs ++ text))) := by
  obtain ⟨c, behind, rfl, hc, hb⟩ := h.head
  have hne : ¬ some c = some ']' := fun he => hb (Option.some.inj he)
  refine ⟨_, run_closeArray_comma hw _, ?_⟩
  rw [Fault.Trailing, dropWhile_blank hw', List.cons_append, List.dropWhile_cons_of_neg hc,
    List.head?_cons, if_neg hne]

theorem arrayRecord_settles {ts : List Tree} (h : SpellsEnclosed '[' ']' SpellsTree cs ts)
    (hlong : ¬ (Tree.array ts).BeginsLikeRecord) (rest : List Char) :
    arrayRecord.Settles (cs ++ rest) rest := by
  cases h with
  | @empty w hw =>
    refine settles_bind (run_skip _) ?_
    simp only [List.cons_append, List.tail_cons, List.append_assoc, List.nil_append]
    refine settles_bind (run_nextElement_closing true hw rest) ?_
    exact .inr (fails_refuse _ _ _)
  | @cons w w' cs₁ ds t₁ ts hw h₁ hs hw' =>
    refine settles_bind (run_skip _) ?_
    simp only [List.cons_append, List.tail_cons, List.append_assoc, List.nil_append]
    have hl := leads_blank hw
    refine settles_bind (run_nextElement_tree hl h₁ _) ?_
    have hends := endsNumber_further hs hw' ']' (by decide) rest
    apply (name_settles blank_nil h₁ hends).bind
    intro s hname
    obtain ⟨s', rfl⟩ := name_ok_tree h₁ hends hname
    cases hs with
    | nil =>
      refine settles_bind (run_nextElement_closing false hw' rest) ?_
      exact .inr (fails_refuse _ _ _)
    | @cons w₁ w₂ cs₂ ds t₂ ts hw₁ hw₂ h₂ hs =>
      have hl₂ := leads_comma hw₁ hw₂
      have hnext := run_nextElement_tree hl₂ h₂ (ds ++ (w' ++ ']' :: rest))
      simp only [List.append_assoc, List.cons_append] at hnext ⊢
      refine settles_bind hnext ?_
      have hends₂ := endsNumber_further hs hw' ']' (by decide) rest
      apply (value_settles blank_nil h₂ hends₂).bind
      intro v hvalue
      obtain ⟨n, rfl, hn⟩ := value_ok_tree h₂ hends₂ hvalue
      cases hs with
      | nil => exact settles_bind (run_closeArray hw' rest) (settles_pure _)
      | cons =>
        -- A string, an integer and more: the case that is left out here.
        exact absurd ⟨s', n, _, _, rfl, hn⟩ hlong

theorem arrayRecord_trailing {ts : List Tree} (h : SpellsEnclosed '[' ']' SpellsTree cs ts)
    (hlong : (Tree.array ts).BeginsLikeRecord) (rest : List Char) :
    arrayRecord.Fails Fault.Trailing (cs ++ rest) := by
  obtain ⟨s, n, t₃, more, hts, hn⟩ := hlong
  cases hts
  cases h with
  | @cons w w' cs₁ ds _ _ hw h₁ hs hw' =>
    cases hs with
    | @cons w₁ w₂ cs₂ ds _ _ hw₁ hw₂ h₂ hs =>
      cases hs with
      | @cons w₃ w₄ cs₃ ds _ _ hw₃ hw₄ h₃ hs =>
        have hcomma : EndsNumber (',' :: (w₄ ++ (cs₃ ++ (ds ++ (w' ++ ']' :: rest))))) :=
          endsNumber_cons ',' (by decide) _
        have hends := endsNumber_append hw₃ hcomma
        have hclose := fails_closeArray hw₃ hw₄ h₃ (ds ++ (w' ++ ']' :: rest))
        cases h₁ with
        | string h₁ =>
          cases h₂ with
          | integer h₂ =>
            rw [← toInt_ofInt_of_mem hn] at h₂
            have hvalue := run_value blank_nil h₂ hends
            obtain ⟨c, behind, rfl, hc⟩ := h₂.head
            have harray := run_arrayRecord_value hw h₁ hw₁ hw₂ hc.not_isWhitespace
              (hc.ne ']' (by decide)) (behind ++ (w₃ ++ ',' :: (w₄ ++ (cs₃ ++
                (ds ++ (w' ++ ']' :: rest))))))
            simp only [List.cons_append, List.append_assoc, List.nil_append] at hvalue ⊢
            rw [Fails, harray]
            exact fails_bind hvalue (hclose.bind _)

/-! ## Objects in the place of records -/

/-- One round: the member is read into the draft, or its key is not known or not lacking. -/
theorem members_settles {first : Bool} {d : Draft} {l m mid : List Char} {key : String}
    (hl : Leads first l) (hm : SpellsPair SpellsTree m (key, t)) (hr : EndsNumber rest)
    (hnext : ∀ d, (members false d).Settles rest mid) :
    (members first d).Settles (l ++ (m ++ rest)) mid := by
  cases hm with
  | @pair k w w' cs _ _ hk hw hw' h =>
    simp only [List.append_assoc, List.cons_append]
    rw [members]
    refine settles_bind (run_nextKey hl hk _) ?_
    simp only
    split
    · exact .inr (fails_refuse _ _ _)
    · split
      · refine settles_bind (run_colon hw _) ?_
        exact (name_settles hw' h hr).bind fun s _ => hnext _
      · exact .inr (fails_refuse _ _ _)
    · split
      · refine settles_bind (run_colon hw _) ?_
        exact (value_settles hw' h hr).bind fun v _ => hnext _
      · exact .inr (fails_refuse _ _ _)

theorem members_settles_further {ds : List Char} {ms : List (String × Tree)}
    (hs : SpellsFurther (SpellsPair SpellsTree) ds ms) (hw : Blank w) (rest : List Char)
    (d : Draft) : (members false d).Settles (ds ++ (w ++ '}' :: rest)) ('}' :: rest) := by
  induction hs generalizing d with
  | nil => exact .inl ⟨d, run_members_closing false d hw rest⟩
  | @cons w₁ w₂ cs ds m ms hw₁ hw₂ h hs ih =>
    obtain ⟨key, t⟩ := m
    have hl := leads_comma hw₁ hw₂
    have hends := endsNumber_further hs hw '}' (by decide) rest
    rw [further_append]
    exact members_settles hl h hends ih

theorem objectRecord_settles {ms : List (String × Tree)}
    (h : SpellsEnclosed '{' '}' (SpellsPair SpellsTree) cs ms) (rest : List Char) :
    objectRecord.Settles (cs ++ rest) rest := by
  have hmembers : (members true {}).Settles (cs ++ rest).tail ('}' :: rest) := by
    cases h with
    | @empty w hw =>
      simp only [List.cons_append, List.tail_cons, List.append_assoc, List.nil_append]
      exact .inl ⟨{}, run_members_closing true {} hw rest⟩
    | @cons w w' cs ds m ms hw h hs hw' =>
      obtain ⟨key, t⟩ := m
      simp only [List.cons_append, List.tail_cons, List.append_assoc, List.nil_append]
      have hl := leads_blank hw
      have hends := endsNumber_further hs hw' '}' (by decide) rest
      exact members_settles hl h hends (members_settles_further hs hw' rest)
  refine settles_bind (run_skip _) (hmembers.bind fun d _ => ?_)
  match d with
  | ⟨none, _⟩ => exact .inr (fails_refuse _ _ _)
  | ⟨some _, none⟩ => exact .inr (fails_refuse _ _ _)
  | ⟨some n, some v⟩ => exact .inl ⟨⟨n, v⟩, rfl⟩

/-! ## Anything in the place of records -/

theorem record_settles (h : SpellsTree cs t) (hlong : ¬ t.BeginsLikeRecord)
    (hr : EndsNumber rest) : record.Settles (cs ++ rest) rest := by
  obtain ⟨mid, hf⟩ := run_found_tree h hr
  cases h with
  | array h =>
    obtain ⟨behind, rfl⟩ := h.head
    exact settles_bind (run_found_list _) (arrayRecord_settles h hlong rest)
  | object h =>
    obtain ⟨behind, rfl⟩ := h.head
    exact settles_bind (run_found_object _) (objectRecord_settles h rest)
  | _ => exact .inr (fails_bind hf (fails_wrongType _ _ _))

theorem record_trailing (h : SpellsTree cs t) (hlong : t.BeginsLikeRecord) (rest : List Char) :
    record.Fails Fault.Trailing (cs ++ rest) := by
  cases h with
  | array h =>
    have ht := arrayRecord_trailing h hlong rest
    obtain ⟨behind, rfl⟩ := h.head
    exact fails_bind (run_found_list _) ht
  | _ =>
    obtain ⟨_, _, _, _, ht, _⟩ := hlong
    cases ht

theorem readable_of_run {e : Element} {r : Record} (h : SpellsTree e.text e.tree)
    (hr : record.run (e.text ++ rest) = .ok (r, rest)) : e.Readable := by
  obtain ⟨c, behind, ht, hc, -⟩ := h.head
  obtain ⟨w, cs, hw, hcs, htext⟩ := record_ok hr
  cases w with
  | nil =>
    rw [List.nil_append, List.append_cancel_right_eq] at htext
    exact ⟨r, htext ▸ hcs⟩
  | cons d w =>
    simp only [ht, List.cons_append, List.cons.injEq] at htext
    obtain ⟨rfl, -⟩ := htext
    exact absurd (blank_cons.mp hw).1 hc

end RecordText.Json
