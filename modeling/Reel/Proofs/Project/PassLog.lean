import Reel.Proofs.Host.Places
import Reel.Proofs.Project.Spared

/-!
# Logs that are taken away

Taking the logs of a place away leaves no file whose path begins with it, whatever the passes
wrote there. A file below another directory, whose name begins like that of the logs, is none of
them.
-/
namespace Reel

namespace PassLog

variable {files : Files} {log rest : String} {place : Place}

theorem directoryPlace?_eq_some_iff {path : String} {directory : Place} :
    directoryPlace? files path = some directory ↔ files.Opens path directory := by
  unfold directoryPlace? Files.Opens
  split
  · next nothing => simp [nothing, eq_comm]
  · next something =>
      unfold Files.place?
      cases files.locate path <;> simp [something, Except.toOption]

/-- The files in the directory of the logs under names that begin like theirs. -/
theorem mem_places_iff : place ∈ places files log ↔ ∃ directory stored,
    files.Opens (Path.dirname log) directory ∧ Files.parent place = directory ∧
      (place, stored) ∈ files.entries ∧ stored ≠ .directory ∧
      (Path.basename log).toList <+: (place.getLastD "").toList ∧
      (Path.basename log = "" → (place.getLastD "").toList.head? ≠ some '.') := by
  unfold places
  cases searched : directoryPlace? files (Path.dirname log) with
  | none =>
      have closed (directory : Place) : ¬files.Opens (Path.dirname log) directory := by
        simp [← directoryPlace?_eq_some_iff, searched]
      simp [closed]
  | some directory =>
      have opens (other : Place) : files.Opens (Path.dirname log) other ↔ directory = other := by
        rw [← directoryPlace?_eq_some_iff, searched, Option.some.injEq]
      simp only [Files.children, belongs, List.mem_map, List.mem_filter, Bool.and_eq_true,
        Bool.or_eq_true, beq_iff_eq, bne_iff_ne, List.isPrefixOf_iff_prefix, opens,
        or_iff_not_imp_left, not_not]
      constructor
      · rintro ⟨⟨_, stored⟩, ⟨⟨entry, above⟩, ⟨file, named⟩, shown⟩, rfl⟩
        exact ⟨directory, stored, rfl, above, entry, file, named, shown⟩
      · rintro ⟨_, stored, rfl, above, entry, file, named, shown⟩
        exact ⟨⟨place, stored⟩, ⟨⟨entry, above⟩, ⟨file, named⟩, shown⟩, rfl⟩

/-- What is in the place of a file is one of the logs if a path that begins like them leads
there. Behind a slash it is none if its name begins with a dot. -/
theorem mem_places_of_locate (clean : '/' ∉ rest.toList)
    (shown : Path.basename log = "" → rest.toList.head? ≠ some '.')
    (leads : files.locate (log ++ rest) = .ok place) {stored : Stored}
    (there : files.at? place = some stored) (file : stored ≠ .directory) :
    place ∈ places files log := by
  obtain ⟨directory, opens, -, rfl⟩ := Files.locate_dirname leads
    (Files.basename_plain leads (by simpa [there] using file))
  obtain ⟨listed, entry⟩ := Files.mem_entries there file
  rw [Path.dirname_append log clean] at opens
  refine mem_places_iff.mpr
    ⟨directory, stored, opens, Files.parent_of_listed listed, entry, file, ?_⟩
  rw [List.getLastD_concat, Path.basename_append log clean, String.toList_append]
  exact ⟨List.prefix_append .., fun nothing => by simpa [nothing] using shown nothing⟩

theorem clear_below (files : Files) (log : String) : (clear files log).Below files :=
  Files.foldl_remove_below files (places files log)

/-- However the logs of a place go on, none of them is left as a file. -/
theorem clear_isFile (files : Files) (clean : '/' ∉ rest.toList)
    (named : Path.basename log ≠ "") : (clear files log).isFile (log ++ rest) = false := by
  by_contra remains
  rw [Bool.not_eq_false] at remains
  obtain ⟨place, stored, leads, there, file⟩ := Files.exists_of_isFile remains
  -- The file was there before, so it was one of the logs.
  have before : files.at? place = some stored := by
    rcases clear_below files log place with gone | same
    · rw [gone] at there
      cases there
    · rw [← same, there]
  have mem := mem_places_of_locate clean (fun nothing => absurd nothing named)
    ((clear_below files log).locate leads) before file
  obtain ⟨listed, -⟩ := Files.mem_entries there file
  rw [clear, Files.at?_foldl_remove files _ listed, if_pos mem] at there
  cases there

/-- The directory of a path holds the zero character only if the path does. -/
theorem zero_notMem_dirname (h : '\x00' ∉ log.toList) :
    '\x00' ∉ (Path.dirname log).toList := by
  have kept : ∀ c ∈ (Path.dirname log).toList, c ∈ log.toList := by
    intro c hc
    rcases Path.dirname_cases log with
      ⟨-, here, -⟩ | ⟨before, name, -, rfl, -, here | ⟨kept, count, -, rfl, here⟩⟩
    · simp [here] at hc
    · rw [here] at hc
      simp only [String.toList_ofList, List.mem_append, List.mem_singleton] at hc ⊢
      rcases hc with hc | rfl
      · exact .inl hc
      · exact .inr (List.mem_cons_self ..)
    · rw [here, String.toList_ofList] at hc
      rw [String.toList_ofList, List.mem_append, List.mem_append]
      exact .inl (.inl hc)
  exact fun hc => h (kept _ hc)

/-- A directory without the zero character can be searched. -/
theorem clearAt_text (sound : '\x00' ∉ (Path.dirname log).toList) :
    clearAt files (.text log) = .ok (clear files log) := by
  have searchable : isUnsearchable (Path.dirname log) = false := by simp [isUnsearchable, sound]
  unfold clearAt
  simp only [Value.toPath_text, bind, Except.bind]
  rw [searchable]
  rfl

end PassLog

namespace Project

variable {p : Project} {files : Files} {c : Compilation} {log rest : String}

theorem passLogPlace_named {output : Value} (h : p.passLogPlace output = .ok log) :
    2 < (Path.basename log).length := by
  have placed : ∃ directory name,
      log = Path.join directory ("." ++ name ++ "-passlog") := by
    unfold passLogPlace at h
    dsimp only at h
    split at h
    all_goals
      obtain ⟨given, -, h⟩ := exists_of_bind_ok h
      obtain ⟨name, -, h⟩ := exists_of_bind_ok h
      obtain ⟨directory, -, h⟩ := exists_of_bind_ok h
      exact ⟨directory, name, (Except.ok.inj h).symm⟩
  obtain ⟨directory, name, rfl⟩ := placed
  obtain ⟨above, ends⟩ := Path.exists_join_append directory ("." ++ name) "-passlog"
  have passlog : "-passlog".length = 8 := by decide
  rw [ends, Path.basename_append above (by decide), String.length_append,
    passlog]
  omega

/-- The options of a project with two passes and no place for their logs get one. -/
theorem Compiles.exists_log (h : p.Compiles files c) (two : p.encode.twoPass = true)
    (unplaced : p.encode.passLogPrefix = .null) :
    ∃ log, p.passLogPlace c.output = .ok log ∧ c.encode.twoPass = true ∧
      c.encode.passLogPrefix = .text log := by
  have placed := h.encode
  rw [passEncode, if_pos (by simp [two, unplaced, Value.isNull])] at placed
  obtain ⟨log, here, placed⟩ := exists_of_bind_ok placed
  rw [← Except.ok.inj placed]
  exact ⟨log, here, two, rfl⟩

/-- Unless they are kept, the logs are gone from the files. -/
theorem withoutLogs_isFile (kept : p.keepTemp = false) (place : p.encode.passLogPrefix = .text log)
    (sound : '\x00' ∉ log.toList) (named : 2 < (Path.basename log).length)
    (clean : '/' ∉ rest.toList) : (p.withoutLogs files).isFile (log ++ rest) = false := by
  rw [withoutLogs, if_neg (by simp [kept]), place,
    PassLog.clearAt_text (PassLog.zero_notMem_dirname sound)]
  refine PassLog.clear_isFile files clean fun nothing => ?_
  rw [nothing] at named
  exact absurd named (by decide)

end Project

end Reel
