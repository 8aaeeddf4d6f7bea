import RecordText.Proofs.Acceptance
import RecordText.Proofs.Written

/-!
# Writing records and loading them again

Records survive being written, whatever the layout. So the text without blanks is a normal form: all
texts of the same records are reloaded as it, and it is reloaded as itself.

* `load_write`: what is written for records loads as them.
* `reload_run_of_ok`: a text that is loaded is loaded twice, the second time without fail.
* `load_write_reload`: both directions, and what follows for reloaded texts.
-/

namespace RecordText

theorem load_write (l : Json.Layout) (rs : List Record) :
    (load (Json.write l rs)).run.value = .ok rs := by
  have hspells := Json.spellsRecords_write l rs
  exact load_eq_ok_iff.mpr (Json.readRecords_eq_ok_iff.mpr hspells)

theorem write_inj {l : Json.Layout} {rs rs' : List Record} :
    Json.write l rs = Json.write l rs' ↔ rs = rs' := by
  constructor
  · intro h
    have hload := load_write l rs
    rw [h, load_write l rs'] at hload
    cases hload
    rfl
  · intro h
    rw [h]

theorem reload_run_of_ok {text : String} {rs : List Record}
    (h : (load text).run = ⟨.ok rs, [.loaded rs.length]⟩) :
    (reload text).run = ⟨.ok ⟨Json.write .compact rs, true⟩,
      [.loaded rs.length, .loaded rs.length]⟩ := by
  have hagain := load_run_of_ok (load_eq_ok_iff.mp (load_write .compact rs))
  rw [reload, run_bind_of_ok h]
  simp only [run_bind_of_ok hagain, beq_self_eq_true]
  rfl

theorem reload_of_load {text : String} {rs : List Record} (h : (load text).run.value = .ok rs) :
    (reload text).run.value = .ok ⟨Json.write .compact rs, true⟩ := by
  rw [reload_run_of_ok (load_run_of_ok (load_eq_ok_iff.mp h))]

/-- Every layout is loaded as the records it was written for. An accepted text is reloaded as the
text without blanks, which is reloaded as itself; two accepted texts become the same text exactly
when they hold the same records. -/
theorem load_write_reload :
    (∀ l rs, (load (Json.write l rs)).run.value = .ok rs) ∧
    (∀ text rs, (load text).run.value = .ok rs →
      (reload text).run.value = .ok ⟨Json.write .compact rs, true⟩ ∧
      (reload (Json.write .compact rs)).run.value = .ok ⟨Json.write .compact rs, true⟩) ∧
    ∀ text text' rs rs', (load text).run.value = .ok rs → (load text').run.value = .ok rs' →
      ∃ a b, (reload text).run.value = .ok a ∧ (reload text').run.value = .ok b ∧
        (a.compact = b.compact ↔ rs = rs') := by
  refine ⟨load_write, ?_, ?_⟩
  · intro text rs h
    exact ⟨reload_of_load h, reload_of_load (load_write .compact rs)⟩
  · intro text text' rs rs' h h'
    exact ⟨_, _, reload_of_load h, reload_of_load h', write_inj⟩

/-- A control character, a character beyond the basic plane and the least value. -/
theorem reload_of_layout :
    (reload (Json.write .pretty [⟨"\n\u0001\"", Int64.minValue⟩, ⟨"😀", 0⟩])).run.value =
      .ok ⟨"[\x7b\"name\":\"\\n\\u0001\\\"\",\"value\":-9223372036854775808\x7d," ++
        "\x7b\"name\":\"😀\",\"value\":0\x7d]", true⟩ := by
  have hreload := load_write_reload.2.1 _ _ (load_write .pretty
    [⟨"\n\u0001\"", Int64.minValue⟩, ⟨"😀", 0⟩])
  rw [hreload.1]
  rfl

end RecordText
