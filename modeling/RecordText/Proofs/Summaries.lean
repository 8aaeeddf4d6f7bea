import RecordText.Proofs.RoundTrip

/-!
# Records from their summaries

A name stands in a summary as it is, so it may hold the separator, or end in a part of it. A decimal
holds no part of the separator, and so the last separator of a summary is the one between name and
value: a record can be told from its summary.

* `decimal_inj`, `beginsNumber_of_mem_decimal`: decimals.
* `LastCut`, `lastCut_summary_iff`: the last separator of a summary.
* `summary_inj`: no two records have the same summary.
* `summaries_recoverable`: what is reported of records, one by one or as a list.
-/

namespace RecordText.Record

/-! ## Decimals -/

theorem spellsInteger_decimal (r : Record) :
    Json.SpellsInteger r.decimal.toList r.value.toInt :=
  Json.spellsInteger_toString r.value.toInt

theorem read_decimal (r : Record) : Json.read Json.value r.decimal = .ok r.value := by
  have hrun := Json.run_value Json.blank_nil r.spellsInteger_decimal Json.endsNumber_nil
  rw [List.nil_append, List.append_nil] at hrun
  exact Json.read_eq_ok_iff.mpr ⟨[], hrun, Json.blank_nil⟩

theorem decimal_inj {a b : Record} : a.decimal = b.decimal ↔ a.value = b.value := by
  constructor
  · intro h
    have hread := a.read_decimal
    rw [h, b.read_decimal] at hread
    exact (Except.ok.inj hread).symm
  · intro h
    rw [decimal, decimal, h]

/-- A decimal is made of digits and the minus sign. -/
theorem beginsNumber_of_mem_decimal {r : Record} {c : Char} (hc : c ∈ r.decimal.toList) :
    Json.BeginsNumber c := by
  have h := r.spellsInteger_decimal
  generalize r.decimal.toList = cs at h hc
  generalize r.value.toInt = n at h
  cases h with
  | natural h => exact .inr (h.isDigit c hc)
  | negative h =>
    rcases List.mem_cons.mp hc with hminus | hc
    · exact .inl hminus
    · exact .inr (h.isDigit c hc)

/-! ## The last separator -/

/-- The text `t` is cut into `front` and `behind` at the last place where `separator` stands. -/
structure LastCut (separator t front behind : String) : Prop where
  eq_append : t = front ++ separator ++ behind
  last : ∀ front' behind', t = front' ++ separator ++ behind' → front'.length ≤ front.length

theorem LastCut.unique {separator t front front' behind behind' : String}
    (h : LastCut separator t front behind) (h' : LastCut separator t front' behind') :
    front = front' ∧ behind = behind' := by
  have heq := h.eq_append.symm.trans h'.eq_append
  have hlength := Nat.le_antisymm (h'.last _ _ h.eq_append) (h.last _ _ h'.eq_append)
  rw [← String.length_toList, ← String.length_toList] at hlength
  have hlist := congrArg String.toList heq
  simp only [String.toList_append, List.append_assoc] at hlist
  have hcut := List.append_inj hlist hlength
  exact ⟨String.toList_inj.mp hcut.1, String.toList_inj.mp (List.append_cancel_left hcut.2)⟩

/-- Behind the separator of a summary there is no part of another one. -/
theorem lastCut_summary (r : Record) : LastCut ": " r.summary r.name r.decimal where
  eq_append := rfl
  last front behind h := by
    have hlist : r.name.toList ++ (':' :: ' ' :: r.decimal.toList) =
        front.toList ++ (':' :: ' ' :: behind.toList) := by
      have hlist := congrArg String.toList h
      simpa [summary, separator] using hlist
    have hcolon : ':' ∉ ' ' :: r.decimal.toList := by
      intro hc
      rcases List.mem_cons.mp hc with hc | hc
      · cases hc
      · rcases beginsNumber_of_mem_decimal hc with hc | hc <;> cases hc
    rcases List.append_eq_append_iff.mp hlist with ⟨k, hfront, hk⟩ | ⟨k, hname, -⟩
    · -- A separator further behind would have its colon behind the first one.
      cases k with
      | nil =>
        have hlength := congrArg List.length hfront
        rw [List.append_nil, String.length_toList, String.length_toList] at hlength
        exact Nat.le_of_eq hlength
      | cons c k =>
        rw [List.cons_append, List.cons.injEq] at hk
        rw [hk.2] at hcolon
        exact absurd (List.mem_append_right k List.mem_cons_self) hcolon
    · have hlength := congrArg List.length hname
      rw [List.length_append, String.length_toList, String.length_toList] at hlength
      omega

theorem lastCut_summary_iff {r : Record} {front behind : String} :
    LastCut ": " r.summary front behind ↔ front = r.name ∧ behind = r.decimal := by
  constructor
  · exact fun h => h.unique r.lastCut_summary
  · rintro ⟨rfl, rfl⟩
    exact r.lastCut_summary

theorem summary_inj {a b : Record} : a.summary = b.summary ↔ a = b := by
  constructor
  · intro h
    have hcut := a.lastCut_summary
    rw [h, lastCut_summary_iff, decimal_inj] at hcut
    obtain ⟨s, v⟩ := a
    obtain ⟨hs, hv⟩ := hcut
    cases hs
    cases hv
    rfl
  · intro h
    rw [h]

/-! ## What is reported of records -/

/-- The last separator of what is reported of a record stands between its name and its value, which
is written as the only decimal that is read as it. So the record can be told from its summary, and a
list of records from its summaries. -/
theorem summaries_recoverable :
    (∀ r : Record, (summarize r).value = r.summary ∧
      (∀ front behind, LastCut ": " (summarize r).value front behind ↔
        front = r.name ∧ behind = r.decimal) ∧
      Json.SpellsInteger r.decimal.toList r.value.toInt ∧
      Json.read Json.value r.decimal = .ok r.value) ∧
    (∀ a b : Record, (summarize a).value = (summarize b).value ↔ a == b) ∧
    ∀ rs rs' : List Record, (summarizeAll rs).value = (summarizeAll rs').value ↔ rs == rs' := by
  refine ⟨fun r => ⟨rfl, fun front behind => ?_, r.spellsInteger_decimal, r.read_decimal⟩,
    fun a b => ?_, fun rs rs' => ?_⟩
  · exact lastCut_summary_iff
  · rw [beq_iff_eq]
    exact summary_inj
  · rw [beq_iff_eq, summarizeAll_eq, summarizeAll_eq]
    exact List.map_inj_right fun a b => summary_inj.mp

end RecordText.Record
