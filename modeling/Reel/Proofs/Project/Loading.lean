import Reel.Proofs.Project.Spared

/-!
# What is read before anything is done

Settings and projects are read from files and from nothing else, and reading them leaves the
machine as it is. So whoever reads them, however often, finds the same. A project that is given
its encoding options is the one that finds its own, but for these options.
-/
namespace Reel

namespace Run

variable {α β : Type} {run : Run α} {next : α → Run β}

/-- The run looks at nothing of the machine but its files, and leaves it as it is. -/
def Reads (run : Run α) : Prop :=
  ∃ answer : Files → Except Error α, ∀ host, run.on host = (answer host.files, host)

namespace Reads

theorem pure (x : α) : Reads (Pure.pure x : Run α) := ⟨fun _ => .ok x, fun _ => rfl⟩

theorem throw (e : Error) : Reads (throw e : Run α) := ⟨fun _ => .error e, fun _ => rfl⟩

theorem ofExcept (r : Except Error α) : Reads (Run.ofExcept r) :=
  ⟨fun _ => r, fun host => by rw [on_ofExcept]⟩

theorem files : Reads Run.files := ⟨fun files => .ok files, fun _ => rfl⟩

theorem bind (first : Reads run) (rest : ∀ x, Reads (next x)) : Reads (run >>= next) := by
  obtain ⟨answer, reads⟩ := first
  choose further follows using rest
  refine ⟨fun files => answer files >>= fun x => further x files, fun host => ?_⟩
  rw [on_bind, reads]
  dsimp only
  cases answer host.files with
  | error e => rfl
  | ok x => exact follows x host

theorem stopped (e : Error) : Reads ((MonadExcept.throw e : Run α) >>= next) :=
  ⟨fun _ => .error e, fun host => by rw [on_bind, on_throw]⟩

theorem on_eq (h : Reads run) (host : Host) : run.on host = ((run.on host).1, host) := by
  obtain ⟨answer, reads⟩ := h
  rw [reads]

theorem outcome_eq (h : Reads run) (host other : Host) (same : host.files = other.files) :
    (run.on host).1 = (run.on other).1 := by
  obtain ⟨answer, reads⟩ := h
  rw [reads, reads, same]

end Reads

end Run

open Run

namespace Settings

theorem override_null {name : String} (known : overridable.contains name = true)
    (values rest : List (String × Value)) :
    override values ((name, .null) :: rest) = override values rest := by
  rw [override, if_pos known]
  rfl

theorem entriesOf_reads (v : Value) : Reads (entriesOf v) := by
  unfold entriesOf
  split
  · exact .pure _
  · split
    · exact .throw _
    · exact .pure _

end Settings

variable [Environment]

theorem documentIn_reads (marked : Bool) (path : String) (written : Value) :
    Reads (documentIn marked path written) := by
  refine Reads.files.bind fun files => ?_
  split
  · exact .throw _
  · exact .throw _
  · exact .throw _
  · exact .ofExcept _

namespace Settings

theorem load_reads (file : Value) (overrides : List (String × Value)) :
    Reads (load file overrides) := by
  have made (entries : List (Value × Value)) : Reads (do
      let field (name : String) (default : Value) : Value :=
        (Value.lookup? (.text name) entries).getD default
      let values ← Run.ofExcept (override
        [("root_path", field "root_path" .null), ("ffmpeg_bin", field "ffmpeg" (.text "ffmpeg")),
          ("ffprobe_bin", field "ffprobe" (.text "ffprobe")),
          ("probe_workers", field "probe_workers" (.int 1)),
          ("cache_dir", field "cache_dir" .null)] overrides)
      let value (name : String) : Value := (values.lookup name).getD .null
      Run.ofExcept (ofValues (value "root_path") (value "ffmpeg_bin") (value "ffprobe_bin")
        (value "probe_workers") (value "cache_dir"))) :=
    (Reads.ofExcept _).bind fun _ => .ofExcept _
  unfold load
  dsimp only
  split
  · exact .stopped _
  · refine (Reads.ofExcept _).bind fun path => Reads.files.bind fun files => ?_
    split
    · refine (documentIn_reads _ _ _).bind fun v => ?_
      exact (entriesOf_reads v).bind fun entries => made entries
    · split
      · exact (Reads.pure _).bind fun entries => made entries
      · exact .stopped _

end Settings

theorem Timeline.load_reads (path : String) (written : String → Value) :
    Reads (Timeline.load path written) := by
  unfold Timeline.load
  dsimp only
  refine Reads.files.bind fun files => ?_
  split
  · exact .stopped _
  · refine (documentIn_reads _ _ _).bind fun v => ?_
    split
    · refine (Reads.ofExcept _).bind fun t => ?_
      split
      · exact .pure _
      · exact .pure _
    · exact .throw _

theorem Timeline.loadAt_reads (path : Value) : Reads (Timeline.loadAt path) := by
  have found : Reads (requireExists path) := by
    refine Reads.files.bind fun files => (Reads.ofExcept _).bind fun there => ?_
    split
    · exact .pure _
    · exact (Reads.ofExcept _).bind fun _ => .throw _
  refine found.bind fun _ => ?_
  split
  · exact load_reads _ _
  · exact load_reads _ _
  · exact .throw _

namespace Project

variable {file : Value} {settings : Settings} {host : Host} {loaded : Project}

theorem load_reads (file : Value) (settings : Settings) (encode : Option EncodeOptions) :
    Reads (load file settings encode) := by
  unfold load
  split
  · exact .throw _
  · exact (Timeline.loadAt_reads _).bind fun t => .ofExcept _

/-- A project that finds its encoding options finds those of its format. -/
theorem load_none (h : ((load file settings none).on host).1 = .ok loaded) :
    EncodeOptions.formatOf loaded.timeline.outputFormat = .ok loaded.encode.outputFormat ∧
      loaded.encode = { outputFormat := loaded.encode.outputFormat } ∧ loaded.keepTemp = false ∧
      ∀ encode, ((load file settings (some encode)).on host).1 = .ok { loaded with encode } := by
  have ends : (load file settings none).on host = (.ok loaded, host) := by
    rw [(load_reads file settings none).on_eq host, h]
  cases file with
  | null => cases ends
  | _ =>
      obtain ⟨timeline, between, read, given⟩ := Run.exists_of_bind_ok ends
      obtain ⟨made, rfl⟩ := Run.exists_of_ofExcept_ok given
      obtain ⟨format, named, made⟩ := exists_of_bind_ok made
      obtain rfl := Except.ok.inj made
      refine ⟨named, rfl, rfl, fun encode => ?_⟩
      simp only [load, on_bind, read]
      rfl

end Project

end Reel
