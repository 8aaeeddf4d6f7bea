import RecordText.Proofs.Reblanking
import RecordText.Proofs.Truncation

/-!
# Records in reblanked texts

Between the parts of records, and behind their last bracket, blanks are passed over whatever they
are. So texts that differ only in them hold the same records, and where one is refused the other is
refused at the same byte, for the same cause.

* `record_ignoresBlanks`, `records_ignoresBlanks`: records and lists of them.
* `load_reblanked`: whole texts.
-/

namespace RecordText.Json

open Reader

/-! ## Between the parts of arrays and objects -/

theorem refuse_ignoresBlanks {α : Type} {bracket : Char} (m : Mismatch)
    (hb : ¬ bracket.isWhitespace) (hq : bracket ≠ '"') :
    (refuse bracket m : Reader α).IgnoresBlanks := by
  intro cs cs' h
  refine agrees_bind (run_blanks cs) (run_blanks cs') ?_
  apply (accept_ignoresBlanks hb hq _ _ h.dropWhile_blank).bind
  intro accepted rest rest' h
  exact agrees_failPast 0 nofun h

theorem nextElement_ignoresBlanks (first : Bool) : (nextElement first).IgnoresBlanks := by
  intro cs cs' h
  refine agrees_blanks_peek h (agrees_unfinished _) fun c behind behind' h => ?_
  have hc : Reblanked .outside (c :: behind) (c :: behind') := .same c h
  refine agrees_ite (fun _ => agrees_pure hc) fun _ => ?_
  refine agrees_ite (fun _ => agrees_pure hc) fun _ => ?_
  refine agrees_ite (fun hcomma => ?_) fun _ => agrees_failPast 1 nofun hc
  rw [hcomma] at h
  refine agrees_skip_bind (agrees_blanks_peek h (agrees_unfinished _) ?_) c c
  intro d behind behind' h
  have hd : Reblanked .outside (d :: behind) (d :: behind') := .same d h
  exact agrees_ite (fun _ => agrees_failPast 1 nofun hd) fun _ => agrees_pure hd

theorem closeArray_ignoresBlanks : closeArray.IgnoresBlanks := by
  intro cs cs' h
  refine agrees_blanks_peek h (agrees_unfinished _) fun c behind behind' h => ?_
  have hc : Reblanked .outside (c :: behind) (c :: behind') := .same c h
  refine agrees_ite (fun hclosing => ?_) fun _ => ?_
  · rw [hclosing] at h
    exact agrees_skip h c c
  refine agrees_ite (fun hcomma => ?_) fun _ => agrees_failPast 1 nofun hc
  rw [hcomma] at h
  refine agrees_skip_bind (agrees_blanks_peek h ?_ ?_) c c
  · exact agrees_failPast 1 nofun (.nil .outside)
  · intro d behind behind' h
    have hd : Reblanked .outside (d :: behind) (d :: behind') := .same d h
    exact agrees_ite (fun _ => agrees_failPast 1 nofun hd) fun _ => agrees_failPast 1 nofun hd

theorem nextKey_ignoresBlanks (first : Bool) : (nextKey first).IgnoresBlanks := by
  have hkey : ∀ c behind behind', Reblanked (Side.outside.next c) behind behind' → c = '"' →
      Reader.Agrees (do skip; return some (← stringRest)) (fun _ => .outside) (c :: behind)
        (c :: behind') := by
    rintro c behind behind' h rfl
    refine agrees_skip_bind ?_ '"' '"'
    exact (agrees_stringRest h).bind fun key rest rest' h => agrees_pure h
  intro cs cs' h
  refine agrees_blanks_peek h (agrees_unfinished _) fun c behind behind' h => ?_
  have hc : Reblanked .outside (c :: behind) (c :: behind') := .same c h
  refine agrees_ite (fun _ => agrees_pure hc) fun _ => agrees_ite (fun _ => ?_) fun _ => ?_
  · exact agrees_ite (hkey c behind behind' h) fun _ => agrees_failPast 1 nofun hc
  refine agrees_ite (fun hcomma => ?_) fun _ => agrees_failPast 1 nofun hc
  rw [hcomma] at h
  refine agrees_skip_bind (agrees_blanks_peek h (agrees_unfinished _) ?_) c c
  intro d behind behind' h
  have hd : Reblanked .outside (d :: behind) (d :: behind') := .same d h
  refine agrees_ite (hkey d behind behind' h) fun _ => ?_
  exact agrees_ite (fun _ => agrees_failPast 1 nofun hd) fun _ => agrees_failPast 1 nofun hd

theorem colon_ignoresBlanks : colon.IgnoresBlanks := by
  intro cs cs' h
  refine agrees_blanks_peek h (agrees_unfinished _) fun c behind behind' h => ?_
  refine agrees_ite (fun hcolon => ?_) fun _ =>
    agrees_failPast 1 nofun (Reblanked.same (s := .outside) c h)
  rw [hcolon] at h
  exact agrees_skip h c c

/-! ## Records -/

theorem members_ignoresBlanks (first : Bool) (d : Draft) : (members first d).IgnoresBlanks := by
  have hrefuse : ∀ m, (refuse '}' m : Reader Draft).IgnoresBlanks :=
    fun m => refuse_ignoresBlanks m (by decide) (by decide)
  induction first, d using members.induct with
  | case1 first d ihname ihvalue =>
    intro cs cs' h
    rw [members]
    apply (nextKey_ignoresBlanks first cs cs' h).bind
    intro key rest rest' h
    cases key with
    | none => exact agrees_pure h
    | some key =>
      simp only
      split
      · exact hrefuse _ rest rest' h
      · split
        · rename_i hd
          apply (colon_ignoresBlanks rest rest' h).bind
          intro _ rest rest' h
          apply (name_ignoresBlanks rest rest' h).bind
          intro n rest rest' h
          exact ihname hd n rest rest' h
        · exact hrefuse _ rest rest' h
      · split
        · rename_i hd
          apply (colon_ignoresBlanks rest rest' h).bind
          intro _ rest rest' h
          apply (value_ignoresBlanks rest rest' h).bind
          intro v rest rest' h
          exact ihvalue hd v rest rest' h
        · exact hrefuse _ rest rest' h

theorem agrees_objectRecord {behind cs' : List Char}
    (h : Reblanked .outside ('{' :: behind) cs') :
    objectRecord.Agrees (fun _ => .outside) ('{' :: behind) cs' := by
  have hrefuse : ∀ m, (refuse '}' m : Reader Record).IgnoresBlanks :=
    fun m => refuse_ignoresBlanks m (by decide) (by decide)
  refine agrees_skip_token h (by decide) (by decide) fun behind' h => ?_
  apply (members_ignoresBlanks true {} behind behind' h).bind_run
  intro d rest rest' hm h
  match d with
  | ⟨none, _⟩ => exact hrefuse _ rest rest' h
  | ⟨some _, none⟩ => exact hrefuse _ rest rest' h
  | ⟨some n, some v⟩ =>
    obtain ⟨last, rfl⟩ := members_closing hm
    exact agrees_skip_token h (by decide) (by decide) fun _ h => agrees_pure h

theorem agrees_arrayRecord {behind cs' : List Char}
    (h : Reblanked .outside ('[' :: behind) cs') :
    arrayRecord.Agrees (fun _ => .outside) ('[' :: behind) cs' := by
  have hrefuse : ∀ m, (refuse ']' m : Reader Record).IgnoresBlanks :=
    fun m => refuse_ignoresBlanks m (by decide) (by decide)
  refine agrees_skip_token h (by decide) (by decide) fun behind' h => ?_
  apply (nextElement_ignoresBlanks true behind behind' h).bind
  intro more rest rest' h
  refine agrees_ite (fun _ => ?_) fun _ => hrefuse _ rest rest' h
  apply (name_ignoresBlanks rest rest' h).bind
  intro n rest rest' h
  apply (nextElement_ignoresBlanks false rest rest' h).bind
  intro more rest rest' h
  refine agrees_ite (fun _ => ?_) fun _ => hrefuse _ rest rest' h
  apply (value_ignoresBlanks rest rest' h).bind
  intro v rest rest' h
  exact (closeArray_ignoresBlanks rest rest' h).bind fun _ _ _ h => agrees_pure h

theorem record_ignoresBlanks : record.IgnoresBlanks := by
  intro cs cs' h
  apply (found_ignoresBlanks cs cs' h).bind_run
  intro f rest rest' hf h
  obtain ⟨-, _, -, -, hshows⟩ := found_ok hf
  cases f with
  | object =>
    obtain ⟨-, behind, rfl⟩ := hshows
    exact agrees_objectRecord h
  | list =>
    obtain ⟨-, behind, rfl⟩ := hshows
    exact agrees_arrayRecord h
  | _ => exact wrongType_ignoresBlanks _ _ rest rest' h

/-! ## Lists of records -/

theorem nextRecord_ignoresBlanks : nextRecord.IgnoresBlanks := by
  intro cs cs' h
  apply (nextElement_ignoresBlanks false cs cs' h).bind
  intro more rest rest' h
  refine agrees_ite (fun _ => ?_) fun _ => agrees_pure h
  exact (record_ignoresBlanks rest rest' h).bind fun r _ _ h => agrees_pure h

theorem records_ignoresBlanks : records.IgnoresBlanks := by
  intro cs cs' h
  apply (found_ignoresBlanks cs cs' h).bind_run
  intro f rest rest' hf h
  obtain ⟨-, _, -, -, hshows⟩ := found_ok hf
  cases f with
  | list =>
    obtain ⟨-, behind, rfl⟩ := hshows
    refine agrees_skip_token h (by decide) (by decide) fun behind' h => ?_
    apply (nextElement_ignoresBlanks true behind behind' h).bind_run
    intro more rest rest' he h
    cases more with
    | false =>
      obtain ⟨last, rfl⟩ := nextElement_closing he
      exact agrees_skip_token h (by decide) (by decide) fun _ h => agrees_pure h
    | true =>
      apply (record_ignoresBlanks rest rest' h).bind
      intro r rest rest' h
      have hmany := agrees_many nextRecord_advances (fun _ => rfl) nextRecord_ignoresBlanks h
      apply hmany.bind_run
      intro rs rest rest' hm h
      obtain ⟨_, _, last, -, -, rfl, -⟩ := many_nextRecord_ok hm
      exact agrees_skip_token h (by decide) (by decide) fun _ h => agrees_pure h
  | _ => exact wrongType_ignoresBlanks _ _ rest rest' h

/-! ## Whole texts -/

theorem ending_ignoresBlanks : ending.IgnoresBlanks := by
  intro cs cs' h
  refine agrees_blanks_peek h (agrees_pure (.nil .outside)) fun c behind behind' h => ?_
  exact agrees_failPast 1 nofun (Reblanked.same (s := .outside) c h)

/-- A value and nothing behind it but blanks. -/
theorem whole_ignoresBlanks {α : Type} {r : Reader α} (hr : r.IgnoresBlanks) :
    Reader.IgnoresBlanks (do let a ← r; ending; return a) := by
  intro cs cs' h
  apply (hr cs cs' h).bind
  intro a rest rest' h
  exact (ending_ignoresBlanks rest rest' h).bind fun _ _ _ h => agrees_pure h

theorem read_reblanked {α : Type} {r : Reader α} (hr : r.IgnoresBlanks) {t t' : String}
    (h : Reblanked .outside t.toList t'.toList) :
    (∃ a, read r t = .ok a ∧ read r t' = .ok a) ∨
      ∃ fault : Fault, fault.LiesIn t.toList ∧ read r t = .error (fault.locate t.toList) ∧
        read r t' = .error (fault.locate t'.toList) := by
  rcases whole_ignoresBlanks hr _ _ h with ⟨a, _, _, ha, ha', -⟩ | ⟨fault, hf, hf', hfault⟩
  · refine .inl ⟨a, ?_, ?_⟩
    · simp only [read, ha]
    · simp only [read, ha']
  · refine .inr ⟨fault, hfault, ?_, ?_⟩
    · simp only [read, hf]
    · simp only [read, hf']

end RecordText.Json

namespace RecordText

/-- Which blanks stand outside of literals does not matter: the same records are loaded and the same
is reported, or both texts are refused at the same byte, for the same cause. -/
theorem load_reblanked {t t' : String} (h : Json.Reblanked .outside t.toList t'.toList) :
    (∃ rs, (load t).run = ⟨.ok rs, [.loaded rs.length]⟩ ∧
        (load t').run = ⟨.ok rs, [.loaded rs.length]⟩) ∨
      ∃ cause offset, offset ≤ Text.byteLength t.toList ∧
        (load t).run = ⟨.error ⟨.atByte t cause offset⟩, []⟩ ∧
        (load t').run = ⟨.error ⟨.atByte t' cause offset⟩, []⟩ := by
  rcases Json.read_reblanked Json.records_ignoresBlanks h with ⟨rs, hr, hr'⟩ |
    ⟨fault, -, hr, hr'⟩
  · exact .inl ⟨rs, load_run_of_ok hr, load_run_of_ok hr'⟩
  · refine .inr ⟨fault.cause, fault.offset t.toList, Nat.sub_le _ _, load_run_of_error hr, ?_⟩
    have hoffset : fault.offset t.toList = fault.offset t'.toList := by
      rw [Json.Fault.offset, Json.Fault.offset, h.byteLength_eq]
    rw [load_run_of_error hr', hoffset]
    rfl

/-- Tabs and carriage returns for the blanks of a layout. The one in the name stays. -/
theorem load_reblanked_layout :
    (load "[\r\t\t\x7b\r\t\t\t\t\"name\":\t\"a b\",\r\t\t\t\t\"value\":\t1\r\t\t\x7d\r]").run =
      ⟨.ok [⟨"a b", 1⟩], [.loaded 1]⟩ := by
  have hload : (load (Json.write .pretty [⟨"a b", 1⟩])).run.value = .ok [⟨"a b", 1⟩] :=
    load_write .pretty [⟨"a b", 1⟩]
  have hblanks : Json.Reblanked .outside (Json.write .pretty [⟨"a b", 1⟩]).toList
      "[\r\t\t\x7b\r\t\t\t\t\"name\":\t\"a b\",\r\t\t\t\t\"value\":\t1\r\t\t\x7d\r]".toList := by
    decide +kernel
  rcases load_reblanked hblanks with ⟨rs, h, h'⟩ | ⟨cause, offset, -, h, -⟩
  · rw [h] at hload
    cases hload
    exact h'
  · rw [h] at hload
    cases hload

end RecordText
