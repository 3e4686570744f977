import Reel.Proofs.Clip.Words

/-!
# Clips spare files

The words between the input and the output of a clip are settings of the output. The check of a
clip finds its input and finds nothing where it goes, so the commands spare the files.
-/
namespace Reel

/-- The words are settings of an output, none of which chooses a pass. -/
def SpellSettings (words : List String) : Prop :=
  ∃ settings : List Setting, Value.words words = settings.flatMap Setting.words ∧
    ∀ s ∈ settings, s.Stands ∧ s.input? = none ∧ s.name ≠ "-pass"

namespace ClipJob

variable {job : ClipJob} {files : Files}

theorem settings_spell {words : List String} (h : job.settings = .ok words) :
    SpellSettings words := by
  obtain ⟨codecs, known, -⟩ := exists_of_bind_ok h
  have spelled := settings_eq (legible_of_settings h) known
  rw [h] at spelled
  obtain ⟨start, -, spelled⟩ := exists_of_bind_ok spelled.symm
  obtain ⟨finish, -, spelled⟩ := exists_of_bind_ok spelled
  refine ⟨job.spoken codecs start finish, (Except.ok.inj spelled).symm, fun s hs => ?_⟩
  have plain := spoken_plain job codecs start finish s hs
  exact ⟨plain.stands, plain.input, plain.pass⟩

/-- Every command of a clip spares the files that the clip was checked with. -/
theorem invocations_spare {runs : List Invocation} (h : job.invocations files = .ok runs)
    (goes : job.output = .list [] ∨ ∃ path, job.output = .text path) :
    ∀ i ∈ runs, i.Spares job.encode files := by
  obtain ⟨_, valid, h⟩ := exists_of_bind_ok h
  obtain ⟨base, based, h⟩ := exists_of_bind_ok h
  obtain ⟨words, written, based⟩ := exists_of_bind_ok based
  obtain ⟨settings, spelled, plain⟩ := settings_spell written
  obtain ⟨⟨input, free⟩, -⟩ := checks_of_validate valid
  have free : ∃ path, job.output = .text path ∧ files.exists? path = false := by
    rcases goes with nothing | ⟨path, text⟩
    · rw [nothing] at free
      cases free
    · rw [text] at free
      exact ⟨path, text, Except.ok.inj free⟩
  obtain rfl := Except.ok.inj based
  obtain rfl := Except.ok.inj h
  refine passes_spare job.encode free fun added destination ends => ?_
  refine ⟨job.reading (settings ++ added) destination, ?_, ?_,
    fun s hs => List.mem_append_right _ hs⟩
  · rw [spelled]
    exact job.words_reading settings added destination
  · refine ⟨?_, rfl, ?_, ?_, ?_⟩
    · intro s hs
      rcases List.mem_append.mp hs with hs | hs
      · have begins : ∀ s ∈ [Setting.flag "-y", .flag "-hide_banner", .option "-i" job.input],
            s.Stands := by simp [Setting.Stands, Setting.isFlag, Setting.flags]
        exact begins s hs
      · rcases List.mem_append.mp hs with hs | hs
        · exact (plain s hs).1
        · exact (ends.settings s hs).1.1.stands (ends.settings s hs).2
    · exact List.forall_mem_singleton.mpr ⟨by simp, .inl input⟩
    · exact List.forall_mem_append.mpr
        ⟨fun s hs => (plain s hs).2.1, fun s hs => (ends.settings s hs).1.2⟩
    · exact ends.destination_append fun mem => (plain _ mem).2.2 rfl

end ClipJob

end Reel
