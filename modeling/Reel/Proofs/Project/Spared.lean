import Reel.Proofs.Graph.Spared
import Reel.Proofs.Project.Compilation
import Reel.Proofs.Project.Passes
import Reel.Proofs.Project.Render

/-!
# Compiled projects spare files

The check of a project finds every medium that is used and finds nothing where the output goes.
Resolving changes durations and no path, so the inputs of the compiled commands are the media that
were found. The commands therefore spare the files that were there when the project was checked.
-/
namespace Reel

namespace Run

variable {α β : Type} {run : Run α} {next : α → Run β} {host after : Host}

/-- A result of two runs in a row comes from one of the first. -/
theorem exists_of_bind_ok {y : β} (h : (run >>= next).on host = (.ok y, after)) :
    ∃ x between, run.on host = (.ok x, between) ∧ (next x).on between = (.ok y, after) := by
  rw [on_bind] at h
  cases ends : run.on host with
  | mk outcome between =>
      rw [ends] at h
      cases outcome with
      | ok x => exact ⟨x, between, rfl, h⟩
      | error e => cases h

theorem exists_of_ofExcept_ok {r : Except Error α} {x : α}
    (h : (Run.ofExcept r).on host = (.ok x, after)) : r = .ok x ∧ after = host := by
  rw [on_ofExcept] at h
  exact ⟨congrArg Prod.fst h, (congrArg Prod.snd h).symm⟩

end Run

namespace Resolve

theorem fillSegments_paths (own : Bool) (segments : List (Segment Double))
    (answers : List (Answer Double)) :
    (fillSegments own segments answers).1.map Segment.path = segments.map Segment.path := by
  fun_induction fillSegments own segments answers with
  | case1 => rfl
  | case2 => simp_all
  | case3 => simp_all
  | case4 => simp_all
  | case5 => rfl

end Resolve

open Resolve

/-- The media of a timeline, whatever is known about their durations. -/
structure Timeline.SameMedia (t resolved : Timeline Double) : Prop where
  segments : resolved.segments.map Segment.path = t.segments.map Segment.path
  policy : resolved.useTrackAudio = t.useTrackAudio
  items : ∃ items, t.audioSequence = .ok items ∧
    resolved.audioItems.map AudioItem.path = items.map AudioItem.path
  folded : resolved.audioPath = .null

theorem Prober.exists_of_resolve_ok {p : Prober} {workers : Int} {t resolved : Timeline Double}
    {host after : Host} (h : (p.resolve workers t).on host = (.ok resolved, after)) :
    ∃ items answers, t.audioSequence = .ok items ∧ resolved = fill { t with
      segments := t.segments.map (still t.projectType t.slide), audioItems := items
      audioPath := .null } answers := by
  obtain ⟨prepared, between, given, h⟩ := Run.exists_of_bind_ok h
  obtain ⟨prepares, -⟩ := Run.exists_of_ofExcept_ok given
  obtain ⟨items, sequence, prepares⟩ := Reel.exists_of_bind_ok prepares
  obtain rfl := Except.ok.inj prepares
  dsimp only at h
  split at h
  · obtain ⟨answers, _, -, h⟩ := Run.exists_of_bind_ok h
    exact ⟨items, answers, sequence, (Except.ok.inj (congrArg Prod.fst h)).symm⟩
  · obtain ⟨answers, _, -, h⟩ := Run.exists_of_bind_ok h
    exact ⟨items, answers, sequence, (Except.ok.inj (congrArg Prod.fst h)).symm⟩

/-- Resolving fills in durations and leaves the paths as they are. -/
theorem Prober.resolve_sameMedia {p : Prober} {workers : Int} {t resolved : Timeline Double}
    {host after : Host} (h : (p.resolve workers t).on host = (.ok resolved, after)) :
    t.SameMedia resolved := by
  obtain ⟨items, answers, sequence, rfl⟩ := Prober.exists_of_resolve_ok h
  refine ⟨?_, rfl, ⟨items, sequence, fill_audioItems_paths _ answers⟩, rfl⟩
  have still (s : Segment Double) : (still t.projectType t.slide s).path = s.path :=
    (still_filled t.projectType t.slide s).1
  rw [fill]
  simp only [fillSegments_paths, List.map_map]
  exact List.map_congr_left fun s _ => still s

namespace Timeline.SameMedia

variable {t resolved : Timeline Double}

theorem segment_mem (h : t.SameMedia resolved) {s : Segment Double} (hs : s ∈ resolved.segments) :
    s.path ∈ t.segments.map Segment.path := by
  rw [← h.segments]
  exact List.mem_map_of_mem hs

theorem item_mem (h : t.SameMedia resolved) {given items : List (AudioItem Double)}
    (sequence : t.audioSequence = .ok given) (resolves : resolved.audioSequence = .ok items)
    {item : AudioItem Double} (hi : item ∈ items) : item.path ∈ given.map AudioItem.path := by
  obtain ⟨same, sequence', paths⟩ := h.items
  obtain rfl : given = same := Except.ok.inj (sequence.symm.trans sequence')
  have listed : item ∈ resolved.audioItems := by
    unfold Timeline.audioSequence at resolves
    split at resolves
    · rw [h.folded] at resolves
      obtain rfl : [] = items := Except.ok.inj resolves
      cases hi
    · exact Except.ok.inj resolves ▸ hi
  rw [← paths]
  exact List.mem_map_of_mem listed

end Timeline.SameMedia

namespace Project

variable {p : Project} {files : Files} {host after : Host}

theorem requireFiles_ok {cause : String → Rejection} {paths : List Value}
    (h : requireFiles files cause paths = .ok ()) : ∀ path ∈ paths, files.isFileAt path = .ok true := by
  induction paths with
  | nil => simp
  | cons path rest ih =>
      obtain ⟨found, isFile, h⟩ := exists_of_bind_ok h
      cases found with
      | true => exact List.forall_mem_cons.mpr ⟨isFile, ih h⟩
      | false =>
          obtain ⟨_, -, h⟩ := exists_of_bind_ok h
          cases h

/-- What a project that passed the check finds among the files. -/
structure Passed (p : Project) (files : Files) : Prop where
  segments : ∀ path ∈ p.timeline.segments.map Segment.path, files.isFileAt path = .ok true
  items : p.timeline.useTrackAudio = false → ∀ items, p.timeline.audioSequence = .ok items →
    ∀ path ∈ items.map AudioItem.path, files.isFileAt path = .ok true
  encode : p.encode.validate = .ok ()
  output : ∀ path, p.outputPath = .ok path → files.existsAt path = .ok false

theorem passed_of_validate (h : p.validate files = .ok ()) : p.Passed files := by
  have last (h : (do
      p.encode.validate
      let output ← p.outputPath
      if ← files.existsAt output then reject (.outputExists (← output.toText)) :
      Except Error Unit) = .ok ()) : p.encode.validate = .ok () ∧
        ∀ path, p.outputPath = .ok path → files.existsAt path = .ok false := by
    obtain ⟨_, valid, h⟩ := exists_of_bind_ok h
    obtain ⟨output, path, h⟩ := exists_of_bind_ok h
    obtain ⟨taken, looked, h⟩ := exists_of_bind_ok h
    cases taken with
    | true =>
        obtain ⟨_, -, h⟩ := exists_of_bind_ok h
        cases h
    | false =>
        refine ⟨valid, fun given here => ?_⟩
        obtain rfl : output = given := Except.ok.inj (path.symm.trans here)
        exact looked
  unfold validate at h
  dsimp only at h
  obtain ⟨-, -, h⟩ := exists_of_bind_ok h
  split at h
  · cases h
  · obtain ⟨_, segments, h⟩ := exists_of_bind_ok h
    split at h
    · next own =>
        obtain ⟨valid, output⟩ := last h
        exact ⟨requireFiles_ok segments, fun policy => by simp [own] at policy, valid, output⟩
    · obtain ⟨items, sequence, h⟩ := exists_of_bind_ok h
      obtain ⟨_, found, h⟩ := exists_of_bind_ok h
      obtain ⟨valid, output⟩ := last h
      refine ⟨requireFiles_ok segments, fun _ given same => ?_, valid, output⟩
      obtain rfl : items = given := Except.ok.inj (sequence.symm.trans same)
      exact requireFiles_ok found

/-- How the parts of a compilation come from each other. -/
structure Compiles (p : Project) (files : Files) (c : Compilation) : Prop where
  passed : p.Passed files
  media : p.timeline.SameMedia c.resolved
  built : Graph.build c.resolved = .ok c.graph
  output : p.outputPath = .ok c.output
  encode : p.passEncode c.output = .ok c.encode
  written : c.graph.invocations c.encode c.output nullDevice = .ok c.invocations

theorem compiles_of_on {c : Compilation} (h : p.compilation.on host = (.ok c, after)) :
    p.Compiles host.files c := by
  obtain ⟨_, between, checked, h⟩ := Run.exists_of_bind_ok h
  obtain ⟨files, _, looked, checked⟩ := Run.exists_of_bind_ok checked
  obtain rfl := Except.ok.inj (congrArg Prod.fst looked)
  obtain rfl := congrArg Prod.snd looked
  obtain ⟨valid, -⟩ := Run.exists_of_ofExcept_ok checked
  obtain ⟨resolved, _, resolves, h⟩ := Run.exists_of_bind_ok h
  obtain ⟨graph, _, builds, h⟩ := Run.exists_of_bind_ok h
  obtain ⟨built, -⟩ := Run.exists_of_ofExcept_ok builds
  obtain ⟨output, _, goes, h⟩ := Run.exists_of_bind_ok h
  obtain ⟨path, -⟩ := Run.exists_of_ofExcept_ok goes
  obtain ⟨encode, _, logs, h⟩ := Run.exists_of_bind_ok h
  obtain ⟨placed, -⟩ := Run.exists_of_ofExcept_ok logs
  obtain ⟨invocations, _, writes, h⟩ := Run.exists_of_bind_ok h
  obtain ⟨written, -⟩ := Run.exists_of_ofExcept_ok writes
  obtain rfl := Except.ok.inj (congrArg Prod.fst h)
  exact ⟨passed_of_validate valid, Prober.resolve_sameMedia resolves, built, path, placed, written⟩

theorem length_invocations {g : Graph Double} {e : EncodeOptions} {output sink : Value}
    {runs : List Invocation} (h : g.invocations e output sink = .ok runs) :
    runs.length = if e.twoPass then 2 else 1 := by
  obtain ⟨_, -, h⟩ := exists_of_bind_ok h
  obtain ⟨text, -, h⟩ := exists_of_bind_ok h
  obtain ⟨codecs, -, h⟩ := exists_of_bind_ok h
  obtain ⟨arguments, -, h⟩ := exists_of_bind_ok h
  rw [← Except.ok.inj h]
  split
  · rfl
  · rfl

namespace Compiles

variable {c : Compilation}

theorem length_invocations (h : p.Compiles files c) :
    c.invocations.length = p.commandTotal := by
  have kept : c.encode.twoPass = p.encode.twoPass := by
    rcases passEncode_eq h.encode with same | ⟨-, log, -, same⟩
    · rw [same]
    · rw [same]
  rw [Project.length_invocations h.written, kept, commandTotal]

theorem length_le (h : p.Compiles files c) : c.invocations.length ≤ 2 := by
  rw [h.length_invocations, commandTotal]
  split <;> omega

/-- The options are those that were checked, but for the place of logs. -/
theorem valid (h : p.Compiles files c) : c.encode.validate = .ok () := by
  rcases passEncode_eq h.encode with same | ⟨-, log, -, same⟩
  · rw [same]
    exact h.passed.encode
  · rw [same]
    exact h.passed.encode

/-- Every input of the graph was found by the check, or is generated. -/
theorem inputs (h : p.Compiles files c) : ∀ b ∈ c.graph.inputs,
    files.isFileAt b.path = .ok true ∨
      ∃ length, b.path = .text silenceSource ∧ b.options = ["-f", "lavfi", "-t", length] := by
  obtain ⟨a⟩ := assembly_of_build h.built
  intro b hb
  cases a.input_from b hb with
  | segment hs path =>
      rw [path]
      exact .inl (h.passed.segments _ (h.media.segment_mem hs))
  | item policy sequence hi path =>
      obtain ⟨given, own, -⟩ := h.media.items
      rw [path]
      exact .inl (h.passed.items (h.media.policy ▸ policy) given own _
        (h.media.item_mem own sequence hi))
  | silence length path options => exact .inr ⟨length, path, options⟩

end Compiles

/-- Where a project goes by a path, or by its own name, if it goes anywhere. -/
def GoesByPath (p : Project) : Prop :=
  p.outputOverride = .null ∨ p.outputOverride = .list [] ∨ ∃ path, p.outputOverride = .text path

theorem Passed.output_free (h : p.Passed files) (goes : p.GoesByPath) {output : Value}
    (path : p.outputPath = .ok output) :
    ∃ path, output = .text path ∧ files.exists? path = false := by
  have free := h.output output path
  have text : ∃ path, output = .text path := by
    unfold outputPath at path
    rcases goes with own | nothing | ⟨given, asked⟩
    · rw [own] at path
      obtain ⟨_, -, path⟩ := exists_of_bind_ok path
      obtain ⟨_, -, path⟩ := exists_of_bind_ok path
      exact ⟨_, (Except.ok.inj path).symm⟩
    · rw [nothing] at path
      obtain rfl := Except.ok.inj path
      cases free
    · rw [asked] at path
      exact ⟨given, (Except.ok.inj path).symm⟩
  obtain ⟨text, rfl⟩ := text
  exact ⟨text, rfl, Except.ok.inj free⟩

/-- Every command of a compiled project spares the files that it was checked with. -/
theorem Compiles.spares {c : Compilation} (h : p.Compiles files c) (goes : p.GoesByPath) :
    ∀ i ∈ c.invocations, i.Spares c.encode files := by
  obtain ⟨a⟩ := assembly_of_build h.built
  obtain ⟨codecs, hc, -⟩ := exists_of_bind_ok h.valid
  obtain ⟨text, rate, -, control, runs⟩ := (Graph.invocations_eq_ok_iff h.valid hc).mp h.written
  have free := h.passed.output_free goes h.output
  rw [runs]
  refine passes_spare c.encode free fun added destination ends => ?_
  exact ⟨_, a.bound.words_reading text rate added destination,
    a.bound.spares text control h.inputs ends, fun s hs => List.mem_append_right _ hs⟩

theorem compilation_does (p : Project) :
    Run.Does (.probes p.probeProgram) (fun _ => True) p.compilation fun _ => True := by
  have reads {α : Type} (r : Except Error α) :
      Run.Does (.probes p.probeProgram) (fun _ => True) (Run.ofExcept r) fun _ => True :=
    .ofExcept ((Yields.any r).mono fun _ _ => trivial)
  have resolves := Prober.resolve_does (Prober.ofProgram_asks p.probeProgram) p.probeWorkers
    p.timeline
  refine (Run.Does.files.bind fun files _ => reads _).bind fun _ _ => ?_
  refine (resolves.widen (.refl _) fun _ _ => trivial).bind fun resolved _ => ?_
  refine (reads _).bind fun graph _ => (reads _).bind fun output _ => ?_
  exact (reads _).bind fun encode _ => (reads _).bind fun invocations _ => .pure trivial

/-- A machine on which a project was run. Programs that ask about media were started, and behind
them commands of what the project compiles to, with their logs taken away. -/
structure Ran (p : Project) (host after : Host) (asked : List Spawn)
    (started : List (List String)) : Prop where
  spawned : after.spawned = (started.map Spawn.ofWords).reverse ++ (asked ++ host.spawned)
  asked : ∀ spawn ∈ asked, spawn.Asks p.probeProgram
  started : started = [] ∨ ∃ c, p.Compiles host.files c ∧
    Run.FromFront p.encoderProgram c.invocations started ∧
      ∃ files, after.files = (p.compiledTo c).withoutLogs files

theorem Ran.of_asked (touched : host.Touched (.probes p.probeProgram) after) :
    ∃ asked, p.Ran host after asked [] := by
  obtain ⟨asked, spawned, allowed⟩ := touched.spawned
  exact ⟨asked, spawned, allowed, .inl rfl⟩

theorem run_ran (p : Project) (goes : p.GoesByPath) (silent : host.listener = .none) :
    ∃ asked started, p.Ran host ((run none).on p host).2.2 asked started := by
  obtain ⟨touched, -⟩ := compilation_does p host silent
  cases ends : p.compilation.on host with
  | mk outcome after =>
      rw [ends] at touched
      cases outcome with
      | error e =>
          obtain ⟨q, -, stopped⟩ := run_on_error ends
          obtain ⟨asked, ran⟩ := Ran.of_asked touched
          rw [stopped]
          exact ⟨asked, [], ran⟩
      | ok c =>
          have compiled := compiles_of_on ends
          have silent := touched.listener.trans silent
          cases dry : p.dryRun with
          | true =>
              obtain ⟨still, -⟩ := rehearse_does p.settings.ffmpeg c.invocations after silent
              obtain ⟨asked, ran⟩ := Ran.of_asked (touched.trans (still.mono (Effects.none_within _)))
              rw [run_on_dry dry ends]
              exact ⟨asked, [], ran⟩
          | false =>
              have plain : ∀ i ∈ c.invocations, i.shellCommand = .null :=
                fun i hi => (compiled.spares goes i hi).1
              obtain ⟨asked, spawned, allowed⟩ := touched.spawned
              obtain ⟨started, spawned', front, cleaned⟩ :=
                render_on (p.compiledTo c) c.output plain after
              rw [run_on_live dry ends compiled.output]
              refine ⟨asked, started, by rw [spawned', spawned], allowed, ?_⟩
              exact cleaned.imp_right fun cleaned => ⟨c, compiled, front, cleaned⟩

end Project

end Reel
