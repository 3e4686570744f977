import Reel.Clip
import Reel.Proofs.Host.Files
import Reel.Proofs.Project.Spared

/-!
# Outputs stay in their folder

An output is named by a text that may come from a file. A usable name has no slash and neither has
a format, so the path of the output is the folder, one slash where the folder ends in none, and the
name with the format behind a dot. The name can be read off the path again.
-/
namespace Reel

/-- The path of a file that lies in the directory itself. -/
structure Path.Directly (directory file path : String) : Prop where
  joined : path = directory ++ file ∧ directory.toList.getLast? = some '/' ∨
    path = directory ++ "/" ++ file ∧ directory.toList.getLast? ≠ some '/'
  last : basename path = file

namespace Path

variable {directory file : String}

theorem basename_behind (front : String) (clean : '/' ∉ file.toList) :
    basename (front ++ "/" ++ file) = file := by
  have nothing : basename (front ++ "/") = "" := by
    rw [basename, splitLast, String.toList_append, List.reverse_append]
    rfl
  rw [basename_append _ clean, nothing, String.empty_append]

theorem join_directly (some_directory : directory ≠ "") (clean : '/' ∉ file.toList) :
    Directly directory file (join directory file) := by
  have relative : file.toList.head? ≠ some '/' := fun head => clean (List.mem_of_mem_head? head)
  have filled : directory.toList.isEmpty = false := by simpa using some_directory
  by_cases ends : directory.toList.getLast? = some '/'
  · have joins : join directory file = directory ++ file := by
      rw [join, joinChars, if_neg relative, if_pos (by simp [ends]), String.ofList_append,
        String.ofList_toList, String.ofList_toList]
    obtain ⟨front, parts⟩ := List.getLast?_eq_some_iff.mp ends
    have whole : directory = String.ofList front ++ "/" := by
      rw [← String.ofList_toList (s := directory), parts, String.ofList_append]
    refine ⟨.inl ⟨joins, ends⟩, ?_⟩
    rw [joins, whole, basename_behind _ clean]
  · have joins : join directory file = directory ++ "/" ++ file := by
      rw [join, joinChars, if_neg relative, if_neg (by simp [filled, ends])]
      apply String.toList_injective
      simp
    refine ⟨.inr ⟨joins, ends⟩, ?_⟩
    rw [joins, basename_behind _ clean]

/-- The name of a file can be read off its path, if the format is known. -/
theorem Directly.name_eq {above below name other format path : String}
    (one : Directly above (name ++ "." ++ format) path)
    (two : Directly below (other ++ "." ++ format) path) : name = other := by
  have same : name ++ ("." ++ format) = other ++ ("." ++ format) := by
    rw [← String.append_assoc, ← String.append_assoc, ← one.last, two.last]
  exact String.append_left_inj _ |>.mp same

end Path

/-- The name of no file: there are only blanks in it, or a control character or a reserved one. -/
def FileName.Unusable (name : String) : Prop :=
  (∀ c ∈ name.toList, Text.isBlank c = true) ∨
    ∃ c ∈ name.toList, c ∈ reserved ∨ c.toNat < 32

theorem FileName.isValid_eq_false_iff {name : String} :
    isValid name = false ↔ Unusable name := by
  simp [isValid, Unusable, Text.blank, isAllowed, Bool.and_eq_false_imp, or_iff_not_imp_left]

/-- The project passes the check, and its output goes where its name says. -/
structure Project.Accepted (p : Project) (files : Files) (name : String) : Prop where
  named : p.timeline.name = .text name
  follows : p.outputOverride = .null
  passes : p.validate files = .ok ()

namespace Project

variable {p : Project} {files : Files} {name : String}

theorem validateName_text (name : String) :
    validateName (.text name) =
      if Text.blank name then reject .projectNameMissing
      else if FileName.isValid name then .ok () else reject (.projectNameInvalid name) := rfl

theorem validate_unusable (named : p.timeline.name = .text name)
    (unusable : FileName.Unusable name) (files : Files) :
    ∃ cause, p.validate files = .error (.rejected cause) := by
  rw [validate, named, validateName_text, FileName.isValid_eq_false_iff.mpr unusable]
  split
  · exact ⟨_, rfl⟩
  · exact ⟨_, rfl⟩

theorem exists_output_of_validate (passes : p.validate files = .ok ()) :
    ∃ output, p.outputPath = .ok output := by
  unfold validate at passes
  dsimp only at passes
  obtain ⟨_, _, passes⟩ := exists_of_bind_ok passes
  split at passes
  · cases passes
  · obtain ⟨_, _, passes⟩ := exists_of_bind_ok passes
    have last {rest : Value → Except Error Unit}
        (h : (do p.encode.validate; let output ← p.outputPath; rest output) = .ok ()) :
        ∃ output, p.outputPath = .ok output := by
      obtain ⟨_, _, h⟩ := exists_of_bind_ok h
      obtain ⟨output, path, _⟩ := exists_of_bind_ok h
      exact ⟨output, path⟩
    split at passes
    · exact last passes
    · obtain ⟨_, _, passes⟩ := exists_of_bind_ok passes
      obtain ⟨_, _, passes⟩ := exists_of_bind_ok passes
      exact last passes

end Project

theorem Settings.processedDir_ne_empty {s : Settings} {directory : String}
    (set : s.processedDir = .ok directory) : directory ≠ "" := by
  obtain ⟨above, _, joined⟩ := exists_of_bind_ok set
  obtain ⟨front, ends⟩ := Path.exists_join_append above "" "Processed"
  have whole : front ++ "Processed" = directory := ends.symm.trans (Except.ok.inj joined)
  rintro rfl
  exact absurd (String.append_eq_empty_iff.mp whole).2 (by decide)

theorem EncodeOptions.slash_notMem_of_validate {e : EncodeOptions} (valid : e.validate = .ok ()) :
    '/' ∉ e.outputFormat.toList := by
  obtain ⟨_, known, _⟩ := exists_of_bind_ok valid
  unfold codecs at known
  split at known
  · cases known
  · next codecs found =>
      obtain ⟨before, behind, listed, -⟩ := List.lookup_eq_some_iff.mp found
      have every : ∀ entry ∈ containers, '/' ∉ entry.1.toList := by decide
      exact every (e.outputFormat, codecs) (listed ▸ by simp)

namespace Project.Accepted

variable {p q : Project} {files later : Files} {name other : String}

theorem isValid (h : p.Accepted files name) : FileName.isValid name = true := by
  cases valid : FileName.isValid name with
  | true => rfl
  | false =>
      obtain ⟨cause, refused⟩ :=
        validate_unusable h.named (FileName.isValid_eq_false_iff.mp valid) files
      have passes := h.passes
      rw [refused] at passes
      cases passes

theorem slash_notMem (h : p.Accepted files name) :
    '/' ∉ (name ++ "." ++ p.encode.outputFormat).toList := by
  have format := EncodeOptions.slash_notMem_of_validate (passed_of_validate h.passes).encode
  have := FileName.slash_notMem_of_isValid h.isValid
  simp [this, format]

theorem exists_path (h : p.Accepted files name) :
    ∃ directory path, p.settings.processedDir = .ok directory ∧
      p.outputPath = .ok (.text path) ∧
      Path.Directly directory (name ++ "." ++ p.encode.outputFormat) path := by
  obtain ⟨output, path⟩ := exists_output_of_validate h.passes
  have goes := path
  rw [outputPath, h.follows, outputName, h.named] at goes
  obtain ⟨file, same, goes⟩ := exists_of_bind_ok goes
  obtain rfl : name ++ "." ++ p.encode.outputFormat = file := Except.ok.inj same
  obtain ⟨directory, set, joined⟩ := exists_of_bind_ok goes
  obtain rfl := Except.ok.inj joined
  exact ⟨directory, _, set, path,
    Path.join_directly (Settings.processedDir_ne_empty set) h.slash_notMem⟩

theorem name_eq (h : p.Accepted files name) (g : q.Accepted later other)
    (format : p.encode.outputFormat = q.encode.outputFormat)
    (path : p.outputPath = q.outputPath) : name = other := by
  obtain ⟨_, one, _, goes, below⟩ := h.exists_path
  obtain ⟨_, two, _, comes, above⟩ := g.exists_path
  obtain rfl : one = two := by
    rw [goes, comes] at path
    exact Value.text.inj (Except.ok.inj path)
  rw [← format] at above
  exact below.name_eq above

end Project.Accepted

section Named

variable {files : Files} {directory name format path : String}

theorem outputName_unusable (unusable : FileName.Unusable (Text.strip name)) :
    ∃ cause, outputName (.text name) = .error (.rejected cause) := by
  unfold outputName
  dsimp only
  rw [FileName.isValid_eq_false_iff.mpr unusable]
  split
  · exact ⟨_, rfl⟩
  · exact ⟨_, rfl⟩

theorem outputName_ok {given : String} (h : outputName (.text name) = .ok given) :
    given = Text.strip name ∧ FileName.isValid given = true := by
  unfold outputName at h
  dsimp only at h
  split at h
  · cases h
  · split at h
    · next valid =>
        obtain rfl := Except.ok.inj h
        exact ⟨rfl, valid⟩
    · cases h

theorem outputPathFor_unusable (unusable : FileName.Unusable (Text.strip name)) :
    ∃ cause, outputPathFor files (.text directory) (.text name) (.text format) =
      .error (.rejected cause) := by
  obtain ⟨cause, refused⟩ := outputName_unusable unusable
  rw [outputPathFor, refused]
  exact ⟨cause, rfl⟩

theorem outputPathFor_directly (some_directory : directory ≠ "") (clean : '/' ∉ format.toList)
    (h : outputPathFor files (.text directory) (.text name) (.text format) = .ok path) :
    Path.Directly directory (Text.strip name ++ "." ++ format) path := by
  obtain ⟨given, accepts, h⟩ := exists_of_bind_ok h
  obtain ⟨rfl, valid⟩ := outputName_ok accepts
  have file : '/' ∉ (Text.strip name ++ "." ++ format).toList := by
    have := FileName.slash_notMem_of_isValid valid
    simp [this, clean]
  rw [Value.toText_text, Value.toPath_text] at h
  dsimp only [bind, Except.bind] at h
  split at h
  · cases h
  · obtain rfl := Except.ok.inj h
    exact Path.join_directly some_directory file

end Named

/-- The output of a project that is not overridden lies in the folder for outputs under the name of
the project, and the output that is named for a folder lies there under the name without the blanks
around it; so different names go to different paths. Projects and outputs with names of no file are
refused. The name of an output is looked at after the blanks around it are gone. -/
theorem outputs_stay_in_folder :
    (∀ (p : Project) (files : Files) (name : String),
      (p.timeline.name = .text name → FileName.Unusable name →
        ∃ cause, p.validate files = .error (.rejected cause)) ∧
      (p.Accepted files name → ∃ directory path, p.settings.processedDir = .ok directory ∧
        p.outputPath = .ok (.text path) ∧
        Path.Directly directory (name ++ "." ++ p.encode.outputFormat) path)) ∧
    (∀ (p q : Project) (files later : Files) (name other : String),
      p.Accepted files name → q.Accepted later other →
      p.encode.outputFormat = q.encode.outputFormat → p.outputPath = q.outputPath →
      name = other) ∧
    (∀ (files : Files) (directory name format : String),
      (FileName.Unusable (Text.strip name) →
        ∃ cause, outputPathFor files (.text directory) (.text name) (.text format) =
          .error (.rejected cause)) ∧
      ∀ path, directory ≠ "" → '/' ∉ format.toList →
        outputPathFor files (.text directory) (.text name) (.text format) = .ok path →
        Path.Directly directory (Text.strip name ++ "." ++ format) path) ∧
    ∀ (files later : Files) (directory name other format path : String),
      directory ≠ "" → '/' ∉ format.toList →
      outputPathFor files (.text directory) (.text name) (.text format) = .ok path →
      outputPathFor later (.text directory) (.text other) (.text format) = .ok path →
      Text.strip name = Text.strip other := by
  refine ⟨fun p files name => ⟨fun named unusable => ?_, fun accepted => accepted.exists_path⟩,
    fun p q files later name other accepted follows => accepted.name_eq follows,
    fun files directory name format => ⟨outputPathFor_unusable, fun path => ?_⟩, ?_⟩
  · exact Project.validate_unusable named unusable files
  · exact outputPathFor_directly
  · intro files later directory name other format path some_directory clean one two
    exact (outputPathFor_directly some_directory clean one).name_eq
      (outputPathFor_directly some_directory clean two)

/-- A walk whose output goes where its name says. -/
def walkNamed (name : String) : Project where
  timeline := { Timeline.plain [{ path := "walk.mp4", duration := .finite 2 }] .concat true
      (.round 1) with name := name }
  settings := { rootPath := "/media/" }
  encode := { outputFormat := "mkv" }
  probeProgram := "ffprobe"
  probeWorkers := 1
  encoderProgram := "ffmpeg"

theorem outputs_stay_in_folder_walk :
    (walkNamed " ..a.mp4").Accepted ⟨[(["walk.mp4"], .file [])]⟩ " ..a.mp4" ∧
    (∃ path, (walkNamed " ..a.mp4").outputPath = .ok (.text path) ∧
      Path.Directly "/media/TrackManager/Processed" " ..a.mp4.mkv" path) ∧
    (∃ cause, (walkNamed "../a").validate ⟨[(["walk.mp4"], .file [])]⟩ =
      .error (.rejected cause)) ∧
    Path.Directly "out" "a.mp4" "out/a.mp4" ∧
    ∃ cause, outputPathFor ⟨[]⟩ "out" " a\nb " "mp4" = .error (.rejected cause) := by
  obtain ⟨projects, -, outputs, -⟩ := outputs_stay_in_folder
  have accepted : (walkNamed " ..a.mp4").Accepted ⟨[(["walk.mp4"], .file [])]⟩ " ..a.mp4" :=
    ⟨rfl, rfl, by decide +kernel⟩
  obtain ⟨directory, path, set, goes, directly⟩ := (projects _ _ _).2 accepted
  obtain rfl : "/media/TrackManager/Processed" = directory := by
    have folder : (walkNamed " ..a.mp4").settings.processedDir =
        .ok "/media/TrackManager/Processed" := by decide +kernel
    exact Except.ok.inj (folder.symm.trans set)
  refine ⟨accepted, ⟨path, goes, directly⟩, ?_, ?_, ?_⟩
  · exact (projects _ _ _).1 rfl (.inr ⟨'/', by decide, .inl (by decide)⟩)
  · exact (outputs ⟨[]⟩ "out" "a\t" "mp4").2 "out/a.mp4" (by decide) (by decide)
      (by decide +kernel)
  · exact (outputs ⟨[]⟩ "out" " a\nb " "mp4").1 (.inr ⟨'\n', by decide, .inr (by decide)⟩)

/-- A control character at the end of a name does not have the name refused. -/
theorem outputPathFor_control :
    FileName.Unusable "clip\n" ∧ outputPathFor ⟨[]⟩ "d" "clip\n" "mp4" = .ok "d/clip.mp4" :=
  ⟨.inr ⟨'\n', by decide, .inr (by decide)⟩, by decide +kernel⟩

end Reel
