import RecordText.Proofs.Literals
import RecordText.Proofs.Written

/-!
# What a layout adds

Records are written in tokens, and a layout only puts blanks between them. An escaped name is one
token, whatever it holds: the scan for quotes is back outside where the literal ends, and control
characters are escaped in it.

* `Solid`, `Spaced`: tokens, and texts with blanks between them.
* `SpellsString.solid`: every string literal is one token.
* `spaced_writeRecords`: records in any layout, against those in the layout without blanks.
* `write_layouts`: what this says of the text with blanks.
-/

namespace RecordText.Json

/-! ## Scanning pieces of text -/

theorem sides_append (s : Side) (cs ds : List Char) :
    sides s (cs ++ ds) = sides s cs ++ sides (cs.foldl Side.next s) ds := by
  induction cs generalizing s with
  | nil => rfl
  | cons c cs ih => rw [List.cons_append, sides, ih, sides, List.foldl_cons, List.cons_append]

theorem map_snd_sides (s : Side) (cs : List Char) : (sides s cs).map Prod.snd = cs := by
  induction cs generalizing s with
  | nil => rfl
  | cons c cs ih => rw [sides, List.map_cons, ih]

theorem mem_of_mem_sides {s : Side} {cs : List Char} {x : Side × Char} (h : x ∈ sides s cs) :
    x.2 ∈ cs := by
  have hm := List.mem_map_of_mem h (f := Prod.snd)
  rwa [map_snd_sides] at hm

theorem exists_mem_sides (s : Side) {cs : List Char} {c : Char} (h : c ∈ cs) :
    ∃ t, (t, c) ∈ sides s cs := by
  rw [← map_snd_sides s cs] at h
  obtain ⟨⟨t, _⟩, hx, rfl⟩ := List.mem_map.mp h
  exact ⟨t, hx⟩

/-- Where no character moves the scan, all of them stand in the same place. -/
theorem scan_unmoved {s : Side} {cs : List Char} (h : ∀ c ∈ cs, s.next c = s) :
    cs.foldl Side.next s = s ∧ ∀ x ∈ sides s cs, x.1 = s := by
  induction cs with
  | nil => exact ⟨rfl, nofun⟩
  | cons c cs ih =>
    obtain ⟨hc, hcs⟩ := List.forall_mem_cons.mp h
    rw [List.foldl_cons, sides, hc]
    exact ⟨(ih hcs).1, List.forall_mem_cons.mpr ⟨rfl, (ih hcs).2⟩⟩

theorem scan_blank {w : List Char} (hw : Blank w) :
    w.foldl Side.next .outside = .outside ∧ ∀ x ∈ sides .outside w, x.1 = .outside :=
  scan_unmoved fun c hc => Side.next_blank (blank_iff.mp hw c hc)

theorem isFree_of_blank {w : List Char} (hw : Blank w) {x : Side × Char}
    (hx : x ∈ sides .outside w) : Side.isFree x = true := by
  obtain ⟨s, c⟩ := x
  obtain rfl : s = .outside := (scan_blank hw).2 _ hx
  exact blank_iff.mp hw c (mem_of_mem_sides hx)

/-- A piece of text behind which the scan is at `s` again, where it was in front. There are no
blanks in it but those in literals, and no control characters at all. -/
structure Solid (s : Side) (cs : List Char) : Prop where
  closed : cs.foldl Side.next s = s
  no_free : ∀ x ∈ sides s cs, Side.isFree x = false
  no_control : ∀ c ∈ cs, ' ' ≤ c

namespace Solid

variable {s : Side} {cs ds : List Char}

theorem append (h : Solid s cs) (h' : Solid s ds) : Solid s (cs ++ ds) where
  closed := by rw [List.foldl_append, h.closed, h'.closed]
  no_free := by
    rw [sides_append, h.closed]
    exact List.forall_mem_append.mpr ⟨h.no_free, h'.no_free⟩
  no_control := List.forall_mem_append.mpr ⟨h.no_control, h'.no_control⟩

theorem of_forall (hnext : ∀ c ∈ cs, s.next c = s) (hfree : ∀ c ∈ cs, Side.isFree (s, c) = false)
    (hcontrol : ∀ c ∈ cs, ' ' ≤ c) : Solid s cs := by
  obtain ⟨hclosed, hsides⟩ := scan_unmoved hnext
  refine ⟨hclosed, ?_, hcontrol⟩
  rintro ⟨t, c⟩ hx
  obtain rfl : t = s := hsides _ hx
  exact hfree c (mem_of_mem_sides hx)

theorem count_lineFeed (h : Solid s cs) : cs.count '\n' = 0 :=
  List.count_eq_zero.mpr fun hm => absurd (h.no_control _ hm) (by decide)

end Solid

/-! ## Tokens -/

/-- What has neither quotes nor blanks in it, outside of literals. -/
theorem solid_outside {cs : List Char} (h : ∀ c ∈ cs, ' ' < c ∧ c ≠ '"') : Solid .outside cs := by
  refine .of_forall (fun c hc => Side.next_outside (h c hc).2) (fun c hc => ?_)
    fun c hc => Char.not_lt.mp (Char.lt_asymm (h c hc).1)
  have hle : ∀ b ∈ [' ', '\t', '\n', '\r'], ¬ ' ' < b := by simp
  rw [Side.isFree, ← Bool.not_eq_true, isWhitespace_iff]
  exact fun hm => hle c hm (h c hc).1

/-- What has neither quotes nor backslashes in it, inside of a literal. -/
theorem solid_inside {cs : List Char} (h : ∀ c ∈ cs, ' ' ≤ c ∧ c ≠ '"' ∧ c ≠ '\\') :
    Solid .inside cs := by
  refine .of_forall (fun c hc => ?_) (fun _ _ => rfl) fun c hc => (h c hc).1
  exact Side.next_inside (h c hc).2.1 (h c hc).2.2

/-- A backslash takes the character behind it along, even if it is a quote. -/
theorem solid_escape {l : Char} (h : ' ' ≤ l) : Solid .inside ['\\', l] where
  closed := rfl
  no_free := by simp [sides, Side.next, Side.isFree]
  no_control := by simpa using h

theorem SpellsUnit.solid {u : List Char} {n : Nat} (h : SpellsUnit u n) : Solid .inside u :=
  solid_inside h.plain

theorem SpellsChar.solid {us : List Char} {c : Char} (h : SpellsChar us c) : Solid .inside us := by
  cases h with
  | plain hc hq hb => exact solid_inside (List.forall_mem_singleton.mpr ⟨hc, hq, hb⟩)
  | letter h =>
    have hl : ∀ x ∈ shortEscapes, ' ' ≤ x.1 := by decide
    exact solid_escape (hl _ h)
  | unit hu => exact (solid_escape (by decide)).append hu.solid
  | pair hu hv =>
    exact (solid_escape (by decide)).append
      (hu.solid.append ((solid_escape (by decide)).append hv.solid))

theorem SpellsChars.solid {us cs : List Char} (h : SpellsChars us cs) : Solid .inside us := by
  induction h with
  | nil => exact ⟨rfl, nofun, nofun⟩
  | cons h _ ih => exact h.solid.append ih

/-- A literal is closed only by the quote at its end. -/
theorem SpellsString.solid {cs : List Char} {t : String} (h : SpellsString cs t) :
    Solid .outside cs := by
  cases h with
  | @quoted us _ h =>
    have hs := h.solid
    have hopen : Side.outside.next '"' = .inside := rfl
    constructor
    · rw [List.foldl_cons, hopen, List.foldl_append, hs.closed]
      rfl
    · rw [sides, hopen, sides_append, hs.closed]
      refine List.forall_mem_cons.mpr ⟨rfl, List.forall_mem_append.mpr ⟨hs.no_free, ?_⟩⟩
      exact List.forall_mem_singleton.mpr rfl
    · refine List.forall_mem_cons.mpr ⟨by decide, List.forall_mem_append.mpr ⟨hs.no_control, ?_⟩⟩
      exact List.forall_mem_singleton.mpr (by decide)

theorem solid_digits {cs : List Char} (h : ∀ c ∈ cs, c.isDigit) : Solid .outside cs := by
  refine solid_outside fun c hc => ?_
  have hn : 48 ≤ c.toNat ∧ c.toNat ≤ 57 := Char.isDigit_iff_toNat.mp (h c hc)
  constructor
  · show (32 : Nat) < c.toNat
    omega
  · rintro rfl
    exact absurd hn.1 (by decide)

theorem SpellsNatural.solid {cs : List Char} {n : Nat} (h : SpellsNatural cs n) :
    Solid .outside cs :=
  solid_digits h.isDigit

theorem SpellsInteger.solid {cs : List Char} {n : Int} (h : SpellsInteger cs n) :
    Solid .outside cs := by
  cases h with
  | natural h => exact h.solid
  | negative h =>
    have hminus : Solid .outside ['-'] := solid_outside (List.forall_mem_singleton.mpr (by decide))
    exact hminus.append h.solid

theorem solid_writeString (t : String) : Solid .outside (writeString t.toList) :=
  (spellsString_writeString t).solid

theorem solid_decimal (r : Record) : Solid .outside r.decimal.toList :=
  (spellsInteger_toString r.value.toInt).solid

/-! ## Blanks between tokens -/

/-- The second text with blanks between its tokens, of which `P` holds. -/
inductive Spaced (P : Char → Prop) : List Char → List Char → Prop
  | nil : Spaced P [] []
  | token {t cs ds : List Char} (ht : Solid .outside t) (h : Spaced P cs ds) :
      Spaced P (t ++ cs) (t ++ ds)
  | blanks {w cs ds : List Char} (hw : Blank w) (hP : ∀ c ∈ w, P c) (h : Spaced P cs ds) :
      Spaced P (w ++ cs) ds

namespace Spaced

variable {P : Char → Prop} {cs ds cs' ds' : List Char}

theorem append (h : Spaced P cs ds) (h' : Spaced P cs' ds') : Spaced P (cs ++ cs') (ds ++ ds') := by
  induction h with
  | nil => exact h'
  | token ht _ ih =>
    rw [List.append_assoc, List.append_assoc]
    exact .token ht ih
  | blanks hw hP _ ih =>
    rw [List.append_assoc]
    exact .blanks hw hP ih

theorem of_token (h : Solid .outside cs) : Spaced P cs cs := by
  have ht := Spaced.token h (.nil (P := P))
  rwa [List.append_nil] at ht

theorem of_blanks (hw : Blank cs) (hP : ∀ c ∈ cs, P c) : Spaced P cs [] := by
  have hb := Spaced.blanks hw hP .nil
  rwa [List.append_nil] at hb

/-- Without the blanks outside of literals the tokens are left. -/
theorem condense_eq (h : Spaced P cs ds) : condense cs = ds := by
  induction h with
  | nil => rfl
  | @token t cs ds ht _ ih =>
    have hself : (sides .outside t).filter (! Side.isFree ·) = sides .outside t := by
      rw [List.filter_eq_self]
      intro x hx
      rw [ht.no_free x hx]
      rfl
    rw [condense, sides_append, ht.closed, List.filter_append, hself, List.map_append,
      map_snd_sides]
    rw [condense] at ih
    rw [ih]
  | @blanks w cs ds hw _ _ ih =>
    have hnone : (sides .outside w).filter (! Side.isFree ·) = [] := by
      rw [List.filter_eq_nil_iff]
      intro x hx
      rw [isFree_of_blank hw hx]
      decide
    rw [condense, sides_append, (scan_blank hw).1, List.filter_append, hnone, List.nil_append]
    exact ih

/-- Control characters are blanks between tokens. -/
theorem control (h : Spaced P cs ds) {x : Side × Char} (hx : x ∈ sides .outside cs)
    (hc : x.2 < ' ') : x.1 = .outside ∧ P x.2 := by
  induction h with
  | nil => cases hx
  | @token t cs ds ht _ ih =>
    rw [sides_append, ht.closed, List.mem_append] at hx
    rcases hx with hx | hx
    · exact absurd hc (Char.not_lt.mpr (ht.no_control _ (mem_of_mem_sides hx)))
    · exact ih hx
  | @blanks w cs ds hw hP _ ih =>
    rw [sides_append, (scan_blank hw).1, List.mem_append] at hx
    rcases hx with hx | hx
    · exact ⟨(scan_blank hw).2 x hx, hP _ (mem_of_mem_sides hx)⟩
    · exact ih hx

end Spaced

/-! ## Layouts -/

/-- The blanks that a layout has. -/
def Layout.Uses (l : Layout) (c : Char) : Prop := (∃ depth, c ∈ l.newline depth) ∨ c ∈ l.gap

theorem Layout.not_uses_compact (c : Char) : ¬ Layout.compact.Uses c := by
  rintro (⟨_, h⟩ | h) <;> cases h

theorem Layout.Uses.eq_lineFeed {c : Char} (h : Layout.pretty.Uses c) (hc : c < ' ') :
    c = '\n' := by
  rcases h with ⟨depth, h⟩ | h
  · rcases List.mem_cons.mp h with rfl | h
    · rfl
    · exact absurd hc (by rw [List.eq_of_mem_replicate h]; decide)
  · exact absurd hc (by rw [List.mem_singleton.mp h]; decide)

variable (l : Layout)

theorem spaced_newline (depth : Nat) : Spaced l.Uses (l.newline depth) [] :=
  .of_blanks (l.blank_newline depth) fun _ hc => .inl ⟨depth, hc⟩

theorem spaced_gap : Spaced l.Uses l.gap [] := .of_blanks l.blank_gap fun _ hc => .inr hc

theorem spaced_punctuation {P : Char → Prop} {c : Char} (hc : ' ' < c ∧ c ≠ '"') :
    Spaced P [c] [c] :=
  .of_token (solid_outside (List.forall_mem_singleton.mpr hc))

theorem spaced_writeMember (field : Record.Field) {v : List Char} (hv : Solid .outside v) :
    Spaced l.Uses (writeMember l field v) (writeMember .compact field v) := by
  have hk := Spaced.of_token (solid_writeString field.key) (P := l.Uses)
  have hm := (spaced_newline l 2).append (hk.append
    ((spaced_punctuation (c := ':') (by decide)).append ((spaced_gap l).append (.of_token hv))))
  simpa [writeMember, Layout.compact] using hm

theorem spaced_writeRecord (r : Record) :
    Spaced l.Uses (writeRecord l r) (writeRecord .compact r) := by
  have hn := spaced_writeMember l .name (solid_writeString r.name)
  have hv := spaced_writeMember l .value (solid_decimal r)
  have hr := (spaced_punctuation (c := '\x7b') (by decide)).append (hn.append
    ((spaced_punctuation (c := ',') (by decide)).append (hv.append
      ((spaced_newline l 1).append (spaced_punctuation (c := '\x7d') (by decide))))))
  simpa [writeRecord, Layout.compact] using hr

/-- The records behind the first one, each with its comma. -/
theorem spaced_further (rs : List Record) :
    Spaced l.Uses (rs.flatMap fun r => ',' :: (l.newline 1 ++ writeRecord l r))
      (rs.flatMap fun r => ',' :: (Layout.compact.newline 1 ++ writeRecord .compact r)) := by
  induction rs with
  | nil => exact .nil
  | cons r rs ih =>
    have hr := (spaced_punctuation (c := ',') (by decide)).append
      (((spaced_newline l 1).append (spaced_writeRecord l r)).append ih)
    simpa [Layout.compact] using hr

theorem spaced_writeRecords (rs : List Record) :
    Spaced l.Uses (writeRecords l rs) (writeRecords .compact rs) := by
  cases rs with
  | nil =>
    exact (spaced_punctuation (c := '[') (by decide)).append (spaced_punctuation (by decide))
  | cons r rs =>
    have hr := (spaced_punctuation (c := '[') (by decide)).append
      ((((spaced_newline l 1).append (spaced_writeRecord l r)).append (spaced_further l rs)).append
        ((spaced_newline l 0).append (spaced_punctuation (c := ']') (by decide))))
    rw [writeRecords, writeRecords, intercalate_comma, intercalate_comma]
    simpa [Layout.compact] using hr

/-! ## Lines -/

theorem count_newline_pretty (depth : Nat) : (Layout.pretty.newline depth).count '\n' = 1 := by
  rw [Layout.pretty, List.count_cons_self, List.count_replicate, if_neg (by decide)]

theorem count_writeMember (field : Record.Field) {v : List Char} (hv : Solid .outside v) :
    (writeMember .pretty field v).count '\n' = 1 := by
  have hk := (solid_writeString field.key).count_lineFeed
  have hgap : Layout.pretty.gap.count '\n' = 0 := by decide
  simp [writeMember, List.count_append, count_newline_pretty, hk, hgap, hv.count_lineFeed]

theorem count_writeRecord (r : Record) : (writeRecord .pretty r).count '\n' = 3 := by
  have hn := count_writeMember .name (solid_writeString r.name)
  have hv := count_writeMember .value (solid_decimal r)
  simp [writeRecord, List.count_append, hn, hv, count_newline_pretty]

theorem count_further (rs : List Record) :
    (rs.flatMap fun r => ',' :: (Layout.pretty.newline 1 ++ writeRecord .pretty r)).count '\n' =
      4 * rs.length := by
  induction rs with
  | nil => rfl
  | cons r rs ih =>
    simp only [List.flatMap_cons, List.cons_append, List.count_append, count_newline_pretty,
      count_writeRecord, ih, List.count_cons_of_ne (a := '\n') (b := ',') (by decide),
      List.length_cons]
    omega

/-- Four lines end for every record, one in front of each brace and member, and one in front of the
bracket that closes the array. -/
theorem count_writeRecords (rs : List Record) :
    (writeRecords .pretty rs).count '\n' = if rs = [] then 0 else 4 * rs.length + 1 := by
  cases rs with
  | nil => rfl
  | cons r rs =>
    rw [writeRecords, intercalate_comma, if_neg (List.cons_ne_nil r rs)]
    simp only [List.cons_append, List.count_append, count_newline_pretty, count_writeRecord,
      count_further, List.count_cons_of_ne (a := '\n') (b := '[') (by decide),
      List.count_cons_of_ne (a := '\n') (b := ']') (by decide), List.count_nil, List.length_cons]
    omega

/-- Without its free blanks the text with lines is the text without blanks. The latter has no
control characters, and those of the former are line feeds outside of literals. -/
theorem write_layouts (rs : List Record) :
    condense (write .pretty rs).toList = (write .compact rs).toList ∧
    (∀ c ∈ (write .compact rs).toList, ¬ c < ' ') ∧
    (∀ x ∈ sides .outside (write .pretty rs).toList, x.2 < ' ' → x = (.outside, '\n')) ∧
    (write .pretty rs).toList.count '\n' = if rs = [] then 0 else 4 * rs.length + 1 := by
  simp only [write, String.toList_ofList]
  refine ⟨(spaced_writeRecords .pretty rs).condense_eq, ?_, ?_, count_writeRecords rs⟩
  · intro c hc hlt
    obtain ⟨s, hs⟩ := exists_mem_sides .outside hc
    exact Layout.not_uses_compact c ((spaced_writeRecords .compact rs).control hs hlt).2
  · rintro ⟨s, c⟩ hx hc
    obtain ⟨rfl, hu⟩ := (spaced_writeRecords .pretty rs).control hx hc
    exact congrArg (Prod.mk _) (hu.eq_lineFeed hc)

/-- The blank in the name stays, and so does the quote in front of it. -/
example : condense (write .pretty [⟨"\" \n", -1⟩]).toList =
    "[\x7b\"name\":\"\\\" \\n\",\"value\":-1\x7d]".toList := by decide

end RecordText.Json
