import Mathlib.Data.List.TakeWhile
import Reel.Host.Files
import Reel.Proofs.Yields

/-!
# Where a path leads

A path is the path of its directory and the name behind the last slash, and it leads to that name
at the place where the path of its directory leads. Taking places out of the files makes less
reachable, and nothing new.
-/
namespace Reel

namespace Path

theorem splitLast_append (cs : List Char) {rest : List Char} (h : '/' ∉ rest) :
    splitLast (cs ++ rest) = ((splitLast cs).1, (splitLast cs).2 ++ rest) := by
  have behind : ∀ c ∈ rest.reverse, (c != '/') = true := by
    intro c hc
    rw [bne_iff_ne]
    rintro rfl
    exact h (List.mem_reverse.mp hc)
  have base : ((cs ++ rest).reverse.takeWhile (· != '/')).reverse =
      (cs.reverse.takeWhile (· != '/')).reverse ++ rest := by
    rw [List.reverse_append, List.takeWhile_append_of_pos behind, List.reverse_append,
      List.reverse_reverse]
  unfold splitLast
  dsimp only
  rw [base, List.length_append, List.length_append, Nat.add_sub_add_right,
    List.take_append_of_le_length (Nat.sub_le _ _)]

/-- What is put behind a path without a slash becomes part of the name. -/
theorem dirname_append (path : String) {rest : String} (h : '/' ∉ rest.toList) :
    dirname (path ++ rest) = dirname path := by
  unfold dirname
  rw [String.toList_append, splitLast_append _ h]

theorem basename_append (path : String) {rest : String} (h : '/' ∉ rest.toList) :
    basename (path ++ rest) = basename path ++ rest := by
  rw [basename, String.toList_append, splitLast_append _ h, String.ofList_append, basename,
    String.ofList_toList]

/-- A path that is put below a directory still ends as it did. -/
theorem exists_join_append (directory front behind : String) :
    ∃ above, join directory (front ++ behind) = above ++ behind := by
  rw [join, String.toList_append, joinChars]
  split
  · exact ⟨front, by rw [String.ofList_append, String.ofList_toList, String.ofList_toList]⟩
  · split
    · refine ⟨directory ++ front, ?_⟩
      rw [← List.append_assoc]
      simp only [String.ofList_append, String.ofList_toList]
    · refine ⟨directory ++ String.ofList ('/' :: front.toList), ?_⟩
      rw [← List.cons_append, ← List.append_assoc]
      simp only [String.ofList_append, String.ofList_toList]

/-- A path has no slash, or is what precedes its last one and the name behind it. -/
theorem splitLast_cases (cs : List Char) :
    '/' ∉ cs ∧ splitLast cs = ([], cs) ∨
      ∃ before name, '/' ∉ name ∧ cs = before ++ '/' :: name ∧
        splitLast cs = (before ++ ['/'], name) := by
  by_cases slash : '/' ∈ cs
  · obtain ⟨behind, front, same, clean⟩ := List.eq_append_cons_of_mem (List.mem_reverse.mpr slash)
    have parts : cs = front.reverse ++ '/' :: behind.reverse := by
      simpa using congrArg List.reverse same
    have clean : '/' ∉ behind.reverse := by simpa using clean
    refine .inr ⟨front.reverse, behind.reverse, clean, parts, ?_⟩
    rw [parts, List.append_cons, splitLast_append _ clean]
    have whole : splitLast (front.reverse ++ ['/']) = (front.reverse ++ ['/'], []) := by
      unfold splitLast
      rw [List.reverse_append]
      exact Prod.ext (List.take_length ..) rfl
    rw [whole, List.nil_append]
  · exact .inl ⟨slash, by simpa [splitLast] using splitLast_append [] slash⟩

/-- The directory of a path with a slash is what precedes the last row of slashes, or all of it
where nothing else does. -/
theorem dirname_cases (path : String) :
    '/' ∉ path.toList ∧ dirname path = "" ∧ basename path = path ∨
      ∃ before name, '/' ∉ name ∧ path = String.ofList (before ++ '/' :: name) ∧
        basename path = String.ofList name ∧
        (dirname path = String.ofList (before ++ ['/']) ∨
          ∃ kept count, kept ≠ [] ∧ before = kept ++ List.replicate count '/' ∧
            dirname path = String.ofList kept) := by
  rcases splitLast_cases path.toList with ⟨clean, split⟩ | ⟨before, name, clean, parts, split⟩
  · exact .inl ⟨clean, by rw [dirname, split]; rfl, by rw [basename, split, String.ofList_toList]⟩
  · refine .inr ⟨before, name, clean, by rw [← parts, String.ofList_toList],
      by rw [basename, split], ?_⟩
    have stripped : (before ++ ['/']).reverse.dropWhile (· == '/') =
        before.reverse.dropWhile (· == '/') := by
      rw [List.reverse_append]
      rfl
    rw [dirname, split]
    dsimp only
    rw [stripped]
    split
    · exact .inl rfl
    · next some_kept =>
        let slashes := before.reverse.takeWhile (· == '/')
        have same : slashes = List.replicate slashes.length '/' :=
          List.eq_replicate_of_mem fun c hc => by simpa using List.mem_takeWhile_imp hc
        refine .inr ⟨_, slashes.length, by simpa using some_kept, ?_, rfl⟩
        calc before
            = (slashes ++ before.reverse.dropWhile (· == '/')).reverse := by
              rw [List.takeWhile_append_dropWhile, List.reverse_reverse]
          _ = (before.reverse.dropWhile (· == '/')).reverse ++ slashes.reverse :=
              List.reverse_append
          _ = _ := by rw [same, List.reverse_replicate, List.length_replicate]

end Path

namespace Files

variable {files less : Files} {place directory : Place} {path : String}

theorem follow_append (files : Files) (place : Place) (front behind : List String) :
    files.follow place (front ++ behind) =
      files.follow place front >>= fun place => files.follow place behind := by
  induction front generalizing place with
  | nil => rfl
  | cons name rest ih =>
      rw [List.cons_append, follow, follow]
      cases files.at? place with
      | none => rfl
      | some stored =>
          cases stored with
          | directory => exact ih _
          | file _ => rfl
          | blank _ => rfl

theorem follow_last {name : String} (plain : name ∉ ["", ".", ".."])
    (h : files.follow directory [name] = .ok place) :
    files.at? directory = some .directory ∧ place = directory ++ [name] := by
  simp only [List.mem_cons, List.not_mem_nil, or_false, not_or] at plain
  rw [follow] at h
  split at h
  · cases h
  · next there =>
      rw [if_neg (not_or.mpr ⟨plain.1, plain.2.1⟩), if_neg plain.2.2] at h
      exact ⟨there, (Except.ok.inj h).symm⟩
  · cases h

theorem follow_blanks {count : Nat}
    (h : files.follow place (List.replicate count "") = .ok directory) : directory = place := by
  induction count with
  | zero => exact (Except.ok.inj h).symm
  | succ count ih =>
      rw [List.replicate_succ, follow] at h
      split at h
      · cases h
      · rw [if_pos (.inl rfl)] at h
        exact ih h
      · cases h

theorem follow_blanks_iff (there : files.at? place = some .directory) (count : Nat)
    (way : Except FileFault Place) :
    (way >>= fun place => files.follow place (List.replicate count "")) = .ok place ↔
      way = .ok place := by
  have stays (count : Nat) : files.follow place (List.replicate count "") = .ok place := by
    induction count with
    | zero => rfl
    | succ count ih =>
        rw [List.replicate_succ, follow, there]
        exact ih
  constructor
  · intro h
    obtain ⟨directory, front, blanks⟩ := exists_of_bind_ok h
    rw [follow_blanks blanks, front]
  · rintro rfl
    exact stays count

theorem names_slash (before behind : List Char) :
    names (String.ofList (before ++ '/' :: behind)) =
      names (String.ofList before) ++ names (String.ofList behind) := by
  simp only [names, String.toList_ofList, ← List.map_append]
  rw [List.splitOn, List.splitOnP_append_cons _ _ (by simp)]
  rfl

theorem names_of_clean {name : List Char} (clean : '/' ∉ name) :
    names (String.ofList name) = [String.ofList name] := by
  have whole : (['/'].intercalate [name]).splitOn '/' = [name] :=
    List.splitOn_intercalate '/' (by simpa using clean) (by simp)
  rw [List.intercalate_singleton] at whole
  rw [names, String.toList_ofList, whole]
  rfl

theorem names_slashes (cs : List Char) (count : Nat) :
    names (String.ofList (cs ++ List.replicate count '/')) =
      names (String.ofList cs) ++ List.replicate count "" := by
  induction count with
  | zero => simp
  | succ count ih =>
      rw [List.replicate_succ', ← List.append_assoc, names_slash, ih,
        names_of_clean List.not_mem_nil, List.append_assoc, List.replicate_succ', String.ofList_nil]

theorem locate_of_ne (files : Files) (path : String) (h : path ≠ "") :
    files.locate path =
      files.follow (if path.toList.head? = some '/' then ["/"] else []) (names path) :=
  if_neg h

/-- The path of a directory leads to it. The empty path stands for the working directory. -/
def Opens (files : Files) (path : String) (directory : Place) : Prop :=
  path = "" ∧ directory = [] ∨ path ≠ "" ∧ files.locate path = .ok directory

/-- A path leads through names to its directory, and on to its own name there. -/
theorem exists_way (files : Files) (h : path ≠ "") :
    ∃ (start : Place) (cs : List Char), isBase start = true ∧
      files.locate path =
        files.follow start (names (String.ofList cs) ++ [Path.basename path]) ∧
      ∀ directory, files.at? directory = some .directory →
        (files.Opens (Path.dirname path) directory ↔
          files.follow start (names (String.ofList cs)) = .ok directory) := by
  rw [locate_of_ne _ _ h]
  rcases Path.dirname_cases path with
    ⟨clean, here, whole⟩ | ⟨before, name, clean, parts, named, directory⟩
  · have relative : path.toList.head? ≠ some '/' := fun head => clean (List.mem_of_mem_head? head)
    have alone : names path = [path] := by
      rw [← String.ofList_toList (s := path), names_of_clean clean, String.ofList_toList]
    refine ⟨[], [], rfl, ?_, fun directory _ => ?_⟩
    · rw [if_neg relative, alone, whole]
      rfl
    · have stays : files.follow [] (names (String.ofList [])) = .ok [] := rfl
      rw [stays, here]
      simp [Opens, eq_comm]
  · let start : Place := if path.toList.head? = some '/' then ["/"] else []
    have base : isBase start = true := by
      unfold start
      split <;> rfl
    refine ⟨start, before, base, ?_, fun place there => ?_⟩
    · rw [named, ← names_of_clean clean, ← names_slash, ← parts]
    · rcases directory with here | ⟨kept, count, some_kept, rfl, here⟩
      · have nonempty : String.ofList (before ++ ['/']) ≠ "" := by simp
        have head : (before ++ ['/']).head? = path.toList.head? := by
          rw [parts, String.toList_ofList]
          cases before <;> rfl
        rw [here, Opens, locate_of_ne _ _ nonempty, names_slash, names_of_clean List.not_mem_nil,
          follow_append, String.toList_ofList, head]
        simpa [nonempty] using follow_blanks_iff there 1 (files.follow start _)
      · have nonempty : String.ofList kept ≠ "" := by simpa using some_kept
        have head : kept.head? = path.toList.head? := by
          rw [parts, String.toList_ofList]
          cases kept with
          | nil => exact absurd rfl some_kept
          | cons => rfl
        rw [here, Opens, locate_of_ne _ _ nonempty, names_slashes, follow_append,
          String.toList_ofList, head]
        simpa [nonempty, start] using (follow_blanks_iff there count (files.follow start _)).symm

/-- What a path leads to stands in the place of its directory under the name of the path. -/
theorem locate_dirname (h : files.locate path = .ok place)
    (plain : Path.basename path ∉ ["", ".", ".."]) :
    ∃ directory, files.Opens (Path.dirname path) directory ∧
      files.at? directory = some .directory ∧ place = directory ++ [Path.basename path] := by
  have some_path : path ≠ "" := by
    rintro rfl
    exact plain (by decide)
  obtain ⟨start, cs, -, way, opens⟩ := files.exists_way some_path
  rw [way, follow_append] at h
  obtain ⟨directory, front, last⟩ := exists_of_bind_ok h
  obtain ⟨there, rfl⟩ := follow_last plain last
  exact ⟨directory, (opens directory there).mpr front, there, rfl⟩

theorem exists_of_isFile (h : files.isFile path = true) :
    ∃ place stored, files.locate path = .ok place ∧ files.at? place = some stored ∧
      stored ≠ .directory := by
  have stored : ∃ stored, files.node? path = some stored ∧ stored ≠ .directory := by
    unfold isFile at h
    split at h
    · next content stored => exact ⟨_, stored, nofun⟩
    · next size stored => exact ⟨_, stored, nofun⟩
    · cases h
  obtain ⟨stored, holds, file⟩ := stored
  obtain ⟨place, leads, there⟩ := Option.bind_eq_some_iff.mp holds
  refine ⟨place, stored, ?_, there, file⟩
  unfold place? at leads
  cases located : files.locate path with
  | error fault =>
      rw [located] at leads
      cases leads
  | ok found =>
      rw [located] at leads
      rw [Option.some.inj leads]

theorem mem_entries {stored : Stored} (h : files.at? place = some stored)
    (file : stored ≠ .directory) : isBase place = false ∧ (place, stored) ∈ files.entries := by
  unfold at? at h
  split at h
  · exact absurd (Option.some.inj h).symm file
  · next listed =>
      obtain ⟨entry, found, rfl⟩ := Option.map_eq_some_iff.mp h
      obtain rfl : entry.1 = place := by simpa using List.find?_some found
      exact ⟨by simpa using listed, List.mem_of_find?_eq_some found⟩

theorem parent_of_listed {name : String} (h : isBase (directory ++ [name]) = false) :
    parent (directory ++ [name]) = directory := by
  rw [isBase, Bool.or_eq_false_iff] at h
  rw [parent, if_neg (by simp [h.1]), if_neg (by simp only [h.2, Bool.false_eq_true, not_false_eq_true]),
    List.dropLast_concat]

/-- The first files are the second without some places. -/
def Below (less files : Files) : Prop :=
  ∀ place, less.at? place = none ∨ less.at? place = files.at? place

theorem Below.follow (h : less.Below files) {names : List String} {start : Place}
    (follows : less.follow start names = .ok place) : files.follow start names = .ok place := by
  induction names generalizing start with
  | nil => exact follows
  | cons name rest ih =>
      rw [Files.follow] at follows ⊢
      rcases h start with gone | same
      · rw [gone] at follows
        cases follows
      · rw [same] at follows
        split at follows
        · cases follows
        · exact ih follows
        · cases follows

theorem Below.locate (h : less.Below files) (leads : less.locate path = .ok place) :
    files.locate path = .ok place := by
  unfold Files.locate at leads ⊢
  split
  · next nothing =>
      rw [if_pos nothing] at leads
      exact leads
  · next something =>
      rw [if_neg something] at leads
      exact h.follow leads

theorem at?_remove (files : Files) (gone : Place) {place : Place}
    (listed : isBase place = false) :
    (files.remove gone).at? place = if place = gone then none else files.at? place := by
  simp only [at?, remove, listed, Bool.false_eq_true, if_false, List.find?_filter]
  split
  · next same =>
      subst same
      simp
  · next other =>
      congr 2
      funext entry
      by_cases here : entry.1 = place <;> simp [here, other]

/-- Of the places that are taken out only those are left that are above everything listed. -/
theorem at?_foldl_remove (files : Files) (gone : List Place) {place : Place}
    (listed : isBase place = false) :
    (gone.foldl remove files).at? place = if place ∈ gone then none else files.at? place := by
  induction gone generalizing files with
  | nil => simp
  | cons first rest ih =>
      rw [List.foldl_cons, ih, at?_remove files first listed]
      by_cases same : place = first <;> simp [same]

theorem foldl_remove_below (files : Files) (gone : List Place) :
    (gone.foldl remove files).Below files := by
  intro place
  cases listed : isBase place with
  | true => exact .inr (by simp [at?, listed])
  | false =>
      rw [at?_foldl_remove files gone listed]
      split
      · exact .inl rfl
      · exact .inr rfl

end Files

end Reel
