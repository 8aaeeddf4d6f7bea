import Mathlib.Data.List.Induction
import RecordText.Proofs.Summaries

/-!
# Each record once

Records are passed in their order, and one is kept where it has not been seen yet. So a list keeps
the positions at which a record stands for the first time, and these positions say nothing of the
records but which of them are the same. Texts from which a record can be told keep the same ones.

* `eraseDups_concat_of_mem`, `eraseDups_concat_of_notMem`: what becomes of one element more.
* `eraseDups_append_filter`: what becomes of a list behind another one.
* `pair_sublist_eraseDups_iff`: the order of what is kept.
* `firstPositions`, `map_getElem?_firstPositions`: the positions that are kept.
* `firstPositions_map`: positions in a list of texts.
* `distinct_first_occurrences`: all of this for records.
-/

namespace RecordText

section

variable {α β : Type} [BEq α] {as : List α} {a b c : α}

/-- The positions at which an element stands that does not stand in front of them. -/
def firstPositions (as : List α) : List Nat :=
  (List.range as.length).filter fun i => as[i]?.any fun a => !(as.take i).contains a

theorem lt_length_of_mem_firstPositions {i : Nat} (h : i ∈ firstPositions as) : i < as.length :=
  List.mem_range.mp (List.mem_filter.mp h).1

variable [LawfulBEq α] [BEq β] [LawfulBEq β]

/-! ## Passing the elements of a list -/

theorem eraseDups_concat_of_mem (h : a ∈ as) : (as ++ [a]).eraseDups = as.eraseDups := by
  have hseen : [a].removeAll as = [] := by
    rw [List.removeAll, List.filter_cons_of_neg (by simpa using h), List.filter_nil]
  rw [List.eraseDups_append, hseen, List.eraseDups_nil, List.append_nil]

theorem eraseDups_concat_of_notMem (h : a ∉ as) :
    (as ++ [a]).eraseDups = as.eraseDups ++ [a] := by
  have hnew : [a].removeAll as = [a] := by
    rw [List.removeAll, List.filter_cons_of_pos (by simpa using h), List.filter_nil]
  rw [List.eraseDups_append, hnew, List.eraseDups_cons, List.filter_nil, List.eraseDups_nil]

theorem eraseDups_sublist (as : List α) : as.eraseDups.Sublist as := by
  induction as using List.reverseRecOn with
  | nil => exact List.Sublist.refl []
  | append_singleton as a ih =>
    by_cases h : a ∈ as
    · rw [eraseDups_concat_of_mem h]
      exact ih.trans (List.sublist_append_left as [a])
    · rw [eraseDups_concat_of_notMem h]
      exact ih.append (List.Sublist.refl [a])

theorem nodup_eraseDups (as : List α) : as.eraseDups.Nodup := by
  induction as using List.reverseRecOn with
  | nil => exact List.nodup_nil
  | append_singleton as a ih =>
    by_cases h : a ∈ as
    · rw [eraseDups_concat_of_mem h]
      exact ih
    · rw [eraseDups_concat_of_notMem h, List.nodup_append]
      refine ⟨ih, by simp, fun b hb c hc => ?_⟩
      rw [List.mem_singleton.mp hc]
      rintro rfl
      exact h (List.mem_eraseDups.mp hb)

theorem eraseDups_eq_self (h : as.Nodup) : as.eraseDups = as := by
  induction as using List.reverseRecOn with
  | nil => exact List.eraseDups_nil
  | append_singleton as a ih =>
    obtain ⟨has, -, hne⟩ := List.nodup_append.mp h
    have ha : a ∉ as := fun hmem => hne a hmem a List.mem_cons_self rfl
    rw [eraseDups_concat_of_notMem ha, ih has]

theorem eraseDups_filter (p : α → Bool) (as : List α) :
    (as.filter p).eraseDups = as.eraseDups.filter p := by
  induction as using List.reverseRecOn with
  | nil => rfl
  | append_singleton as a ih =>
    by_cases hp : p a
    · have hsplit : (as ++ [a]).filter p = as.filter p ++ [a] := by
        rw [List.filter_append, List.filter_cons_of_pos hp, List.filter_nil]
      by_cases h : a ∈ as
      · rw [hsplit, eraseDups_concat_of_mem (List.mem_filter.mpr ⟨h, hp⟩), ih,
          eraseDups_concat_of_mem h]
      · have hfilter : a ∉ as.filter p := fun hmem => h (List.mem_filter.mp hmem).1
        rw [hsplit, eraseDups_concat_of_notMem hfilter, ih, eraseDups_concat_of_notMem h,
          List.filter_append, List.filter_cons_of_pos hp, List.filter_nil]
    · have hsplit : (as ++ [a]).filter p = as.filter p := by
        rw [List.filter_append, List.filter_cons_of_neg hp, List.filter_nil, List.append_nil]
      rw [hsplit, ih]
      by_cases h : a ∈ as
      · rw [eraseDups_concat_of_mem h]
      · rw [eraseDups_concat_of_notMem h, List.filter_append, List.filter_cons_of_neg hp,
          List.filter_nil, List.append_nil]

/-- Behind a list another one keeps what does not occur in the first. -/
theorem eraseDups_append_filter (as bs : List α) :
    (as ++ bs).eraseDups = as.eraseDups ++ bs.eraseDups.filter fun b => b ∉ as := by
  rw [List.eraseDups_append, List.removeAll, eraseDups_filter]
  simp only [List.elem_eq_contains, List.contains_eq_mem, decide_not]

/-! ## The order of what is kept -/

omit [BEq α] [LawfulBEq α] in
theorem pair_sublist_concat :
    [a, b].Sublist (as ++ [c]) ↔ [a, b].Sublist as ∨ a ∈ as ∧ b = c := by
  have hpair : [a, b].Sublist (as ++ [c]) ↔ [b, a].Sublist (c :: as.reverse) := by
    rw [← List.reverse_sublist, List.reverse_append]
    rfl
  have hpair' : [b, a].Sublist as.reverse ↔ [a, b].Sublist as := by
    rw [← List.reverse_sublist, List.reverse_reverse]
    rfl
  rw [hpair, List.sublist_cons_iff, hpair']
  constructor
  · rintro (h | ⟨_, hr, h⟩)
    · exact .inl h
    · cases hr
      exact .inr ⟨List.mem_reverse.mp (List.singleton_sublist.mp h), rfl⟩
  · rintro (h | ⟨h, rfl⟩)
    · exact .inl h
    · exact .inr ⟨[a], rfl, List.singleton_sublist.mpr (List.mem_reverse.mpr h)⟩

/-- One element more leaves the first occurrences in their order. -/
theorem idxOf_lt_idxOf_concat (hb : b ∈ as) :
    (as ++ [c]).idxOf a < (as ++ [c]).idxOf b ↔ as.idxOf a < as.idxOf b := by
  have hlt := List.idxOf_lt_length_iff.mpr hb
  rw [List.idxOf_append (a := b), if_pos hb, List.idxOf_append]
  split
  · exact Iff.rfl
  · rename_i ha
    rw [List.idxOf_eq_length ha]
    omega

/-- A new element occurs behind all others. -/
theorem idxOf_lt_idxOf_new (hc : c ∉ as) :
    (as ++ [c]).idxOf a < (as ++ [c]).idxOf c ↔ a ∈ as := by
  rw [List.idxOf_append (a := c), if_neg hc, List.idxOf_cons_self, Nat.zero_add, List.idxOf_append]
  split
  · rename_i ha
    exact iff_of_true (List.idxOf_lt_length_iff.mpr ha) ha
  · rename_i ha
    exact iff_of_false (by omega) ha

/-- What is kept stands in the order of the first occurrences. -/
theorem pair_sublist_eraseDups_iff (as : List α) :
    [a, b].Sublist as.eraseDups ↔ b ∈ as ∧ as.idxOf a < as.idxOf b := by
  induction as using List.reverseRecOn with
  | nil => simp
  | append_singleton as c ih =>
    by_cases hc : c ∈ as
    · rw [eraseDups_concat_of_mem hc, ih]
      have hmem : b ∈ as ++ [c] ↔ b ∈ as := by
        rw [List.mem_append, List.mem_singleton, or_iff_left_of_imp]
        rintro rfl
        exact hc
      rw [hmem]
      exact and_congr_right fun hb => (idxOf_lt_idxOf_concat hb).symm
    · rw [eraseDups_concat_of_notMem hc, pair_sublist_concat, ih, List.mem_eraseDups]
      by_cases hb : b ∈ as
      · have hbc : b ≠ c := fun heq => hc (heq ▸ hb)
        rw [idxOf_lt_idxOf_concat hb, and_iff_right hb,
          and_iff_right (List.mem_append_left [c] hb), or_iff_left (mt And.right hbc)]
      · rw [or_iff_right (mt And.left hb), List.mem_append, or_iff_right hb, List.mem_singleton,
          and_comm]
        refine and_congr_right ?_
        rintro rfl
        exact (idxOf_lt_idxOf_new hc).symm

/-! ## The positions that are kept -/

theorem firstPositions_concat (as : List α) (a : α) :
    firstPositions (as ++ [a]) = firstPositions as ++ if a ∈ as then [] else [as.length] := by
  have hfront : (List.range as.length).filter (fun i => (as ++ [a])[i]?.any fun b =>
      !((as ++ [a]).take i).contains b) = firstPositions as := by
    refine List.filter_congr fun i hi => ?_
    have hlt := List.mem_range.mp hi
    rw [List.getElem?_append_left hlt, List.take_append_of_le_length (Nat.le_of_lt hlt)]
  rw [firstPositions, List.length_append, List.length_singleton, List.range_succ,
    List.filter_append, hfront, List.filter_cons, List.getElem?_concat_length, List.take_left]
  by_cases h : a ∈ as <;> simp [h]

/-- What stands at these positions, one by one, is what is kept. -/
theorem map_getElem?_firstPositions (as : List α) :
    (firstPositions as).map (as[·]?) = as.eraseDups.map some := by
  induction as using List.reverseRecOn with
  | nil => rfl
  | append_singleton as a ih =>
    have hfront : (firstPositions as).map ((as ++ [a])[·]?) = as.eraseDups.map some := by
      rw [← ih]
      refine List.map_congr_left fun i hi => ?_
      exact List.getElem?_append_left (lt_length_of_mem_firstPositions hi)
    rw [firstPositions_concat, List.map_append, hfront]
    by_cases h : a ∈ as
    · rw [eraseDups_concat_of_mem h, if_pos h, List.map_nil, List.append_nil]
    · rw [eraseDups_concat_of_notMem h, if_neg h, List.map_append, List.map_singleton,
        List.getElem?_concat_length, List.map_singleton]

example : firstPositions ["b", "a", "b", "c", "a"] = [0, 1, 3] := by decide

/-- Positions tell only which elements are the same. -/
theorem firstPositions_map {f : α → β} (hf : ∀ {a b}, f a = f b ↔ a = b) (as : List α) :
    firstPositions (as.map f) = firstPositions as := by
  induction as using List.reverseRecOn with
  | nil => rfl
  | append_singleton as a ih =>
    have hmem : f a ∈ as.map f ↔ a ∈ as := by
      rw [List.mem_map]
      exact ⟨fun ⟨b, hb, heq⟩ => hf.mp heq ▸ hb, fun ha => ⟨a, ha, rfl⟩⟩
    rw [List.map_append, List.map_singleton, firstPositions_concat, firstPositions_concat, ih,
      List.length_map]
    simp only [hmem]

end

namespace Record

/-! ## Records and their texts -/

theorem write_singleton_inj {l : Json.Layout} {a b : Record} :
    Json.write l [a] = Json.write l [b] ↔ a = b :=
  write_inj.trans List.singleton_inj

theorem writeRecord_inj {l : Json.Layout} {a b : Record} :
    Json.writeRecord l a = Json.writeRecord l b ↔ a = b := by
  constructor
  · intro h
    apply (write_singleton_inj (l := l)).mp
    rw [Json.write, Json.write, Json.writeRecords, Json.writeRecords, List.map_singleton,
      List.map_singleton, h]
  · intro h
    rw [h]

/-- Every record of a list is kept once, in the order of the first occurrences. Behind a list another
one keeps the records that the first does not hold, and what is kept is kept again. The positions
that are kept are those at which a record stands for the first time, and they are the same for the
summaries of the records and for their texts, one by one. -/
theorem distinct_first_occurrences :
    (∀ rs, (distinct rs).Sublist rs ∧ (distinct rs).Nodup ∧ (∀ r, r ∈ distinct rs ↔ r ∈ rs) ∧
      ∀ a b, [a, b].Sublist (distinct rs) ↔ b ∈ rs ∧ rs.idxOf a < rs.idxOf b) ∧
    (∀ rs rs', distinct (rs ++ rs') = distinct rs ++ (distinct rs').filter fun r => r ∉ rs) ∧
    (∀ rs, distinct (distinct rs) = distinct rs) ∧
    (∀ rs : List Record, (firstPositions rs).map (rs[·]?) = (distinct rs).map some) ∧
    (∀ ts : List String, (firstPositions ts).map (ts[·]?) = ts.eraseDups.map some) ∧
    ∀ (rs : List Record) (l : Json.Layout),
      firstPositions (summarizeAll rs).value = firstPositions rs ∧
      firstPositions (rs.map fun r => String.ofList (Json.writeRecord l r)) = firstPositions rs ∧
      firstPositions (rs.map fun r => Json.write l [r]) = firstPositions rs := by
  refine ⟨fun rs => ⟨eraseDups_sublist rs, nodup_eraseDups rs, fun r => List.mem_eraseDups,
    fun a b => pair_sublist_eraseDups_iff rs⟩, eraseDups_append_filter, fun rs => ?_,
    map_getElem?_firstPositions, map_getElem?_firstPositions, fun rs l => ⟨?_, ?_, ?_⟩⟩
  · exact eraseDups_eq_self (nodup_eraseDups rs)
  · rw [summarizeAll_eq]
    exact firstPositions_map summary_inj rs
  · refine firstPositions_map (fun {a b} => ?_) rs
    rw [String.ofList_inj]
    exact writeRecord_inj
  · exact firstPositions_map write_singleton_inj rs

end Record

end RecordText
