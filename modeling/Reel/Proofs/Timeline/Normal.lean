import Reel.Environment.Plain
import Reel.Proofs.Graph.Frames
import Reel.Proofs.Project.Spared
import Reel.Proofs.Timeline.Stops

/-!
# The normal form of timelines

Whatever values a record holds, a timeline that is read from it has even dimensions, a whole rate
and times within their bounds, and one segment or audio item for each that the record lists. The
construction of a graph makes the dimensions even once more, with defaults of its own. Dimensions
in normal form stay as they are, so the graph asks for those of the timeline.
-/
namespace Reel

open Build

namespace Geometry

variable {v : Value} {default n : Int}

theorem dimension_normal (h : dimension v default = .ok n) : n % 2 = 0 ∧ 2 ≤ n := by
  obtain ⟨whole, -, h⟩ := exists_of_bind_ok h
  obtain rfl := Except.ok.inj h
  exact ⟨evenAtMost_even _, two_le_evenAtMost _⟩

/-- A dimension in normal form is kept, whatever the default is. -/
theorem dimension_of_normal (even : n % 2 = 0) (least : 2 ≤ n) (default : Int) :
    dimension (.int n) default = .ok n := by
  have kept : evenAtMost (if n ≤ 0 then default else n) = n := by
    rw [if_neg (by omega), evenAtMost, if_pos even]
    omega
  exact congrArg Except.ok kept

theorem one_le_of_frameRate (h : frameRate v = .ok n) : 1 ≤ n := by
  obtain ⟨whole, -, h⟩ := exists_of_bind_ok h
  obtain rfl := Except.ok.inj h
  unfold defaultFps
  split <;> omega

end Geometry

namespace Record

variable {files : Files} {record : Entries} {t : Timeline Double} {given : Value}

theorem forall₂_of_items {α : Type} {name : String} {v : Value} {read : Value → Except Error α}
    {items : List α} (h : (do (← Record.items name v).mapM read) = .ok items) :
    List.Forall₂ (fun given item => read given = .ok item) (listed v) items := by
  obtain ⟨given, listed, h⟩ := exists_of_bind_ok h
  rw [listed_eq listed]
  exact forall₂_of_mapM h

variable [Environment]

/-- The item of a record leads to the path that it gives, with the home directory written out. -/
def LeadsTo (given path : Value) : Prop :=
  ∃ expanded, Files.expandHome (field (entriesOf given) "file").shown = .ok expanded ∧
    path = .text expanded

/-- A timeline whose numbers are in their bounds and whose media are those that a record lists. -/
structure InNormalForm (record : Entries) (t : Timeline Double) : Prop where
  width : ∃ n : Int, t.width = .int n ∧ n % 2 = 0 ∧ 2 ≤ n
  height : ∃ n : Int, t.height = .int n ∧ n % 2 = 0 ∧ 2 ≤ n
  fps : ∃ n : Int, t.fps = .int n ∧ 1 ≤ n
  transition : ∃ T, t.transition = some T ∧ T.isNaN = false ∧ Seconds.le shortestTransition T = true
  maxClip : t.maxClip.isNaN = false ∧ Seconds.le Seconds.zero t.maxClip = true
  segments : List.Forall₂ (fun given s => LeadsTo given s.path)
    (listed (field (rename projectSpellings record) "segments")) t.segments
  audioItems : List.Forall₂ (fun given item => LeadsTo given item.path)
    (listed (field (rename projectSpellings record) "audio")) t.audioItems

theorem leadsTo_of_read {refused refused' : Rejection} {entries : Entries} {file path : String}
    (read : itemEntries refused given = .ok entries) (named : itemFile refused' entries = .ok file)
    (expanded : Files.expandHome file = .ok path) : LeadsTo given (.text path) := by
  refine ⟨path, ?_, rfl⟩
  rw [entriesOf_eq read, ← itemFile_eq named]
  exact expanded

theorem segment_leadsTo {s : Segment Double} (h : segment files given = .ok s) :
    LeadsTo given s.path := by
  obtain ⟨entries, file, path, read, named, expanded, same, -⟩ := exists_of_segment_ok h
  exact same ▸ leadsTo_of_read read named expanded

theorem audioItem_leadsTo {item : AudioItem Double} (h : audioItem given = .ok item) :
    LeadsTo given item.path := by
  obtain ⟨entries, file, path, read, named, expanded, same, -⟩ := exists_of_audioItem_ok h
  exact same ▸ leadsTo_of_read read named expanded

theorem Tells.inNormalForm (h : Tells files (rename projectSpellings record) t) :
    InNormalForm record t where
  width := by
    obtain ⟨_, _, w, _, -, dimension, width, -⟩ := h.size
    exact ⟨w, width, Geometry.dimension_normal dimension⟩
  height := by
    obtain ⟨_, _, _, w, -, -, -, dimension, height⟩ := h.size
    exact ⟨w, height, Geometry.dimension_normal dimension⟩
  fps := by
    obtain ⟨n, rate, fps⟩ := h.fps
    exact ⟨n, fps, Geometry.one_le_of_frameRate rate⟩
  transition := by
    obtain ⟨x, -, transition⟩ := h.transition
    have least := Double.le_max (x := shortestTransition) (by decide +kernel) x
    exact ⟨_, transition, (Double.isNaN_of_le least).2, least⟩
  maxClip := by
    obtain ⟨x, -, maxClip⟩ := h.maxClip
    have least := Double.le_max (x := Double.zero) (by decide) x
    rw [maxClip]
    exact ⟨(Double.isNaN_of_le least).2, least⟩
  segments := (forall₂_of_items h.segments).imp fun _ _ => segment_leadsTo
  audioItems := (forall₂_of_items h.audioItems).imp fun _ _ => audioItem_leadsTo

end Record

open Record

theorem Prober.resolve_picture {p : Prober} {workers : Int} {t resolved : Timeline Double}
    {host after : Host} (h : (p.resolve workers t).on host = (.ok resolved, after)) :
    resolved.width = t.width ∧ resolved.height = t.height ∧ resolved.fps = t.fps := by
  obtain ⟨items, answers, -, rfl⟩ := Prober.exists_of_resolve_ok h
  exact ⟨rfl, rfl, rfl⟩

theorem pictureOf_of_normal {t : Timeline Double} {width height : Int} (w : t.width = .int width)
    (h : t.height = .int height) (evenWidth : width % 2 = 0) (leastWidth : 2 ≤ width)
    (evenHeight : height % 2 = 0) (leastHeight : 2 ≤ height) :
    pictureOf t = .ok { width, height, fps := t.fps } := by
  rw [pictureOf, w, h, Geometry.dimension_of_normal evenWidth leastWidth,
    Geometry.dimension_of_normal evenHeight leastHeight]
  rfl

/-- A timeline that a record gives is in normal form, and every graph that is built of it when it
is resolved has pictures of the timeline's size and rate only. -/
theorem timeline_normal [Environment] {files : Files} {record : Entries} {t : Timeline Double}
    (given : timeline files record = .ok t) :
    InNormalForm record t ∧
    ∀ (p : Prober) (workers : Int) (host after : Host) (resolved : Timeline Double)
      (g : Graph Double), (p.resolve workers t).on host = (.ok resolved, after) →
      Graph.build resolved = .ok g →
      ∃ width height : Int, t.width = .int width ∧ t.height = .int height ∧
        Framed { width, height, fps := t.fps } g.nodes g.nodes := by
  have normal := (tells_of_timeline given).inNormalForm
  refine ⟨normal, fun p workers host after resolved g resolves built => ?_⟩
  obtain ⟨width, hw, evenWidth, leastWidth⟩ := normal.width
  obtain ⟨height, hh, evenHeight, leastHeight⟩ := normal.height
  obtain ⟨sameWidth, sameHeight, sameFps⟩ := p.resolve_picture resolves
  obtain ⟨a⟩ := assembly_of_build built
  have picture := pictureOf_of_normal (sameWidth.trans hw) (sameHeight.trans hh) evenWidth
    leastWidth evenHeight leastHeight
  have asked : a.picture = { width, height, fps := t.fps } := by
    rw [← sameFps]
    exact Except.ok.inj (a.picture_eq.symm.trans picture)
  exact ⟨width, height, hw, hh, asked ▸ a.framed⟩

/-- A slide show whose numbers are odd, too small, not even numbers or not numbers at all. -/
def oddRecord : Entries :=
  [("Width", "641"), ("height", .real (.finite (7 / 2))), ("Fps", .int (-5)), ("type", "slideshow"),
    ("transition", .real .nan), ("MaxClipDurationSeconds", .text "-3"),
    ("Items", .list ["~/walk.mp4", .map [("Path", "map.mp4"), ("Kind", "video")]]),
    ("audio", .list [])]

section Plain

attribute [local instance] Environment.plain

theorem timeline_normal_odd :
    ∃ t resolved after g, timeline .empty oddRecord = .ok t ∧ InNormalForm oddRecord t ∧
      ((Prober.constant "4.5" "audio").resolve 4 t).on default = (.ok resolved, after) ∧
      Graph.build resolved = .ok g ∧
      ∃ width height : Int, t.width = .int width ∧ t.height = .int height ∧
        Framed { width, height, fps := t.fps } g.nodes g.nodes := by
  have runs : ((timeline .empty oddRecord).map fun t =>
      ((((Prober.constant "4.5" "audio").resolve 4 t).on default).1 >>= Graph.build).isOk) =
      .ok true := by decide +kernel
  obtain ⟨t, given, runs⟩ := exists_of_map_ok runs
  obtain ⟨g, runs⟩ := exists_of_isOk runs
  obtain ⟨resolved, resolves, built⟩ := exists_of_bind_ok runs
  obtain ⟨normal, framed⟩ := timeline_normal given
  exact ⟨t, resolved, _, g, given, normal, Prod.ext resolves rfl, built,
    framed _ 4 default _ resolved g (Prod.ext resolves rfl) built⟩

end Plain

end Reel
