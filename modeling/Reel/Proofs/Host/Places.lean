import Mathlib.Data.List.Nodup
import Reel.Proofs.Host.Files

/-!
# Places of files

Each place holds one thing, and a path leads to places only that lie in directories. Both stay true
whatever is written or made. What a path leads to is found again by any other path with the same
directory and the same name.
-/
namespace Reel.Files

variable {files less : Files} {place directory : Place} {path : String}

/-- No place is listed twice. -/
def Distinct (files : Files) : Prop := (files.entries.map Prod.fst).Nodup

theorem at?_of_mem (distinct : files.Distinct) {stored : Stored} (listed : isBase place = false)
    (mem : (place, stored) ∈ files.entries) : files.at? place = some stored := by
  have found : (files.entries.find? fun entry => entry.1 == place).isSome :=
    List.find?_isSome.mpr ⟨_, mem, by simp⟩
  obtain ⟨entry, found⟩ := Option.isSome_iff_exists.mp found
  have here : entry.1 = place := by simpa using List.find?_some found
  obtain rfl : entry = (place, stored) :=
    List.inj_on_of_nodup_map distinct (List.mem_of_find?_eq_some found) mem here
  rw [at?, if_neg (by simp [listed]), found]
  rfl

theorem Distinct.put (h : files.Distinct) (place : Place) (node : Stored) :
    (files.put place node).Distinct := by
  have others : (files.entries.filter fun entry => entry.1 != place).Sublist files.entries :=
    List.filter_sublist
  unfold Distinct Files.put
  rw [List.map_append, List.map_singleton]
  refine List.Nodup.append (h.sublist (others.map _)) (List.nodup_singleton _) ?_
  simp [List.disjoint_singleton]

theorem Distinct.makeWay (h : files.Distinct) (place : Place) : (files.makeWay place).Distinct := by
  unfold Files.makeWay
  refine List.foldlRecOn _ _ h fun files h n _ => ?_
  dsimp only
  split
  · exact h
  · exact h.put _ _

theorem Distinct.write (h : files.Distinct) (path : String) (node : Stored) :
    (files.write path node).Distinct := by
  unfold Files.write
  split
  · exact (h.makeWay _).put _ _
  · exact (h.makeWay _).put _ _

theorem Distinct.makeDirectory (h : files.Distinct) {path : String} {made : Files}
    (makes : files.makeDirectory path = .ok made) : made.Distinct := by
  unfold Files.makeDirectory at makes
  dsimp only at makes
  split at makes
  · cases makes
  · split at makes
    · cases makes
    · split at makes
      · cases makes
      · rw [← Except.ok.inj makes]
        exact h.put _ _

theorem Distinct.makePath (h : files.Distinct) (path : String) :
    (files.makePath path).1.Distinct := by
  have goes (fuel : Nat) : ∀ {files : Files} (path : String), files.Distinct →
      (makePath.go fuel files path).1.Distinct := by
    induction fuel with
    | zero => exact fun path h => h
    | succ fuel ih =>
        intro files path h
        -- Behind the way to the directory, whatever made it, comes the directory itself.
        have last {way made : Files × Option (FileFault × String)} {itself : Prop}
            [Decidable itself] (h : way.1.Distinct) (makes : made.1.Distinct) :
            (if way.2.isSome then (way.1, way.2)
              else if itself then (way.1, none) else made).1.Distinct := by
          split
          · exact h
          · split
            · exact h
            · exact makes
        rw [makePath.go]
        dsimp only
        split
        all_goals
          split
          · split
            · next passed =>
                have way := (congrArg (·.1.Distinct) passed).mp (ih _ h)
                refine last way ?_
                split
                · next makes => exact way.makeDirectory makes
                · exact way
            · refine last (ih _ h) ?_
              split
              · next makes => exact (ih _ h).makeDirectory makes
              · exact ih _ h
          · refine last h ?_
            split
            · next makes => exact h.makeDirectory makes
            · exact h
  exact goes _ path h

structure IsName (name : String) : Prop where
  plain : name ∉ ["", ".", ".."]
  clean : '/' ∉ name.toList

/-- The place lies in directories, below each of them under a name. -/
inductive Leads (files : Files) : Place → Prop
  | base {place : Place} : isBase place = true → Leads files place
  | inside {directory : Place} {name : String} : Leads files directory →
      files.at? directory = some .directory → IsName name → Leads files (directory ++ [name])

theorem at?_base (files : Files) (h : isBase place = true) : files.at? place = some .directory :=
  if_pos h

theorem IsName.isBase_eq {name : String} (h : IsName name) (directory : Place) :
    isBase (directory ++ [name]) = false := by
  have up : name ≠ ".." := fun same => h.plain (by simp [same])
  have root : name ≠ "/" := fun same => h.clean (by simp [same])
  have other : directory ++ [name] ≠ ["/"] := by
    intro same
    have ends := congrArg List.getLast? same
    simp [root] at ends
  simp [isBase, other, up]

theorem isBase_parent (h : isBase place = true) : isBase (parent place) = true := by
  unfold parent
  split
  · rfl
  · next other =>
      have above : place.all (· == "..") = true := by
        rw [isBase, Bool.or_eq_true] at h
        exact h.resolve_left other
      rw [if_pos above, isBase, List.all_cons, above]
      simp

theorem Leads.parent (h : files.Leads place) :
    files.Leads (parent place) ∧ files.at? (parent place) = some .directory := by
  cases h with
  | base listed => exact ⟨.base (isBase_parent listed), files.at?_base (isBase_parent listed)⟩
  | inside leads there name =>
      rw [parent_of_listed (name.isBase_eq _)]
      exact ⟨leads, there⟩

theorem Leads.follow {names : List String} {start : Place} (h : files.Leads start)
    (clean : ∀ name ∈ names, '/' ∉ name.toList) (follows : files.follow start names = .ok place) :
    files.Leads place := by
  induction names generalizing start with
  | nil =>
      rw [← Except.ok.inj follows]
      exact h
  | cons name rest ih =>
      rw [List.forall_mem_cons] at clean
      rw [Files.follow] at follows
      split at follows
      · cases follows
      · next there =>
          refine ih ?_ clean.2 follows
          split
          · exact h
          · next named =>
              split
              · exact h.parent.1
              · next other => exact .inside h there ⟨by simp_all, clean.1⟩
      · cases follows

theorem clean_of_mem_names {cs : List Char} {name : String}
    (h : name ∈ names (String.ofList cs)) : '/' ∉ name.toList := by
  rcases Path.splitLast_cases cs with ⟨clean, -⟩ | ⟨before, last, clean, parts, -⟩
  · rw [names_of_clean clean, List.mem_singleton] at h
    rwa [h, String.toList_ofList]
  · rw [parts, names_slash, names_of_clean clean, List.mem_append, List.mem_singleton] at h
    rcases h with earlier | rfl
    · have shorter : before.length < cs.length := by simp [parts]
      exact clean_of_mem_names earlier
    · rwa [String.toList_ofList]
termination_by cs.length

theorem leads_of_locate (h : files.locate path = .ok place) : files.Leads place := by
  unfold locate at h
  split at h
  · cases h
  · refine Leads.follow (.base ?_) (fun name hn => ?_) h
    · split <;> rfl
    · rw [← String.ofList_toList (s := path)] at hn
      exact clean_of_mem_names hn

theorem follow_of_directories {names : List String} {start : Place}
    (kept : ∀ place, files.at? place = some .directory → less.at? place = some .directory)
    (h : files.follow start names = .ok place) : less.follow start names = .ok place := by
  induction names generalizing start with
  | nil => exact h
  | cons name rest ih =>
      rw [Files.follow] at h ⊢
      split at h
      · cases h
      · next there =>
          rw [kept _ there]
          exact ih h
      · cases h

theorem locate_of_directories
    (kept : ∀ place, files.at? place = some .directory → less.at? place = some .directory)
    (h : files.locate path = .ok place) : less.locate path = .ok place := by
  unfold Files.locate at h ⊢
  split
  · next nothing =>
      rw [if_pos nothing] at h
      exact h
  · next something =>
      rw [if_neg something] at h
      exact follow_of_directories kept h

theorem basename_plain (h : files.locate path = .ok place)
    (file : files.at? place ≠ some .directory) : Path.basename path ∉ ["", ".", ".."] := by
  have some_path : path ≠ "" := by
    rintro rfl
    cases h
  obtain ⟨start, cs, base, way, -⟩ := files.exists_way some_path
  rw [way, follow_append] at h
  obtain ⟨above, front, last⟩ := exists_of_bind_ok h
  have leads : files.Leads above :=
    Leads.follow (.base base) (fun name hn => clean_of_mem_names hn) front
  intro mem
  rw [Files.follow] at last
  split at last
  · cases last
  · next there =>
      -- A name that stands for no entry leads to a directory again.
      obtain rfl := Except.ok.inj last
      refine file ?_
      split
      · exact there
      · next named =>
          rw [if_pos (by simp_all)]
          exact leads.parent.2
  · cases last

theorem locate_name (opens : files.Opens (Path.dirname path) directory)
    (there : files.at? directory = some .directory)
    (plain : Path.basename path ∉ ["", ".", ".."]) :
    files.locate path = .ok (directory ++ [Path.basename path]) := by
  have some_path : path ≠ "" := by
    rintro rfl
    exact plain (by decide)
  obtain ⟨start, cs, -, way, opened⟩ := files.exists_way some_path
  simp only [List.mem_cons, List.not_mem_nil, or_false, not_or] at plain
  rw [way, follow_append, (opened directory there).mp opens]
  change files.follow directory [Path.basename path] = _
  rw [Files.follow, there]
  dsimp only
  rw [if_neg (not_or.mpr ⟨plain.1, plain.2.1⟩), if_neg plain.2.2]
  rfl

end Reel.Files
