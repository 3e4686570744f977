import Reel.Proofs.Graph.Written
import Reel.Timeline.Spec

/-!
# Names do not show in a compiled graph

The files of a timeline, its own name and its output format are handed on or left alone: the
construction binds a path without looking at it, and only whether there is an audio file counts.
Two timelines that differ in nothing else are compiled side by side: step by step both stop, or
both drafts get the same labels and nodes and the same number of inputs.
-/
namespace Reel

open Build

variable {α β γ δ : Type}

/-- Both computations stop, or both give results, which are related. -/
inductive Alike (related : α → β → Prop) : Except Error α → Except Error β → Prop
  | ok {x : α} {y : β} : related x y → Alike related (.ok x) (.ok y)
  | error (e f : Error) : Alike related (.error e) (.error f)

namespace Alike

theorem refl {related : α → α → Prop} (h : ∀ x, related x x) (r : Except Error α) :
    Alike related r r := by
  cases r with
  | ok x => exact .ok (h x)
  | error e => exact .error e e

theorem bind {related : α → β → Prop} {after : γ → δ → Prop} {r : Except Error α}
    {s : Except Error β} {f : α → Except Error γ} {g : β → Except Error δ}
    (first : Alike related r s) (rest : ∀ x y, related x y → Alike after (f x) (g y)) :
    Alike after (r >>= f) (s >>= g) := by
  cases first with
  | ok h => exact rest _ _ h
  | error e e' => exact .error e e'

theorem exists_ok {related : α → β → Prop} {s : Except Error β} {x : α}
    (h : Alike related (.ok x) s) : ∃ y, s = .ok y ∧ related x y := by
  cases h with
  | ok h => exact ⟨_, rfl, h⟩

theorem symm {related : α → β → Prop} {r : Except Error α} {s : Except Error β}
    (h : Alike related r s) : Alike (fun y x => related x y) s r := by
  cases h with
  | ok h => exact .ok h
  | error e f => exact .error f e

/-- Computations that end in an error whatever comes before it. -/
theorem of_throw {related : γ → δ → Prop} (r : Except Error α) (s : Except Error β)
    (e : α → Error) (f : β → Error) :
    Alike related (r >>= fun x => .error (e x)) (s >>= fun y => .error (f y)) := by
  cases r <;> cases s <;> exact .error _ _

end Alike

def someFile : Value := "file"

def Segment.anonymous (s : Segment α) : Segment α := { s with path := someFile }

def AudioItem.anonymous (item : AudioItem α) : AudioItem α := { item with path := someFile }

/-- All that counts of the single audio file of older records: whether there is one. A value that
names no file keeps a timeline from being compiled. -/
def anyAudio : Value → Value
  | .null => .null
  | .text path => if Text.blank path then .null else someFile
  | .bytes _ => someFile
  | _ => .bool false

/-- The timeline without its name and output format, all its files under one name. -/
def Timeline.anonymous (t : Timeline α) : Timeline α :=
  { t with
    name := .null
    segments := t.segments.map Segment.anonymous
    audioItems := t.audioItems.map AudioItem.anonymous
    audioPath := anyAudio t.audioPath
    outputFormat := .null }

namespace Draft

/-- The drafts have the same labels and nodes, and as many inputs. -/
structure Mirrors (d e : Draft α) : Prop where
  labels : d.labels = e.labels
  nodes : d.nodes = e.nodes
  bound : d.inputs.length = e.inputs.length

/-- Results with drafts that mirror one another, and with nothing else to tell them apart. -/
def MirrorsWith (r s : β × Draft α) : Prop := r.1 = s.1 ∧ r.2.Mirrors s.2

variable {d e : Draft α}

theorem Mirrors.bind (h : d.Mirrors e) (path other : Value) (options : List String)
    (synthetic : Bool) :
    MirrorsWith (d.bind path options synthetic) (e.bind other options synthetic) :=
  ⟨h.bound, h.labels, h.nodes, by simp [Draft.bind, h.bound]⟩

theorem Mirrors.add (h : d.Mirrors e) (kind : LabelKind) (index : Option Int)
    (inputs : List Source) (filters : List (Filter α)) (offset : Option α) :
    Alike MirrorsWith (d.add kind index inputs filters offset)
      (e.add kind index inputs filters offset) := by
  unfold Draft.add
  rw [h.labels]
  cases e.labels.issue kind index with
  | error defect => exact .error _ _
  | ok issued => exact .ok ⟨rfl, rfl, by simp [h.nodes], h.bound⟩

end Draft

section Parts

open Draft

variable {d e : Draft α}

theorem addSound_alike (h : d.Mirrors e) (i : Nat) (s : Segment α) :
    Alike MirrorsWith (addSound i s d) (addSound i s.anonymous e) := by
  have nameless : addSound i s.anonymous e = addSound i s e := rfl
  rw [nameless]
  unfold addSound
  split
  · exact h.add ..
  · exact h.add ..

theorem addOwnSound_alike (h : d.Mirrors e) (own : Bool) (i : Nat) (s : Segment α) :
    Alike MirrorsWith (addOwnSound own i s d) (addOwnSound own i s.anonymous e) := by
  cases own with
  | false => exact .ok ⟨rfl, h⟩
  | true =>
      refine (addSound_alike h i s).bind fun (l, d) (m, e) ⟨same, mirrors⟩ => ?_
      obtain rfl : l = m := same
      exact .ok ⟨rfl, mirrors⟩

variable [Seconds α]

theorem addPicture_alike (h : d.Mirrors e) (p : Picture) (i : Nat) (s : Segment α) :
    Alike MirrorsWith (addPicture p i s d) (addPicture p i s.anonymous e) := by
  have same : Alike Eq (segmentOptions s) (segmentOptions s.anonymous) := .refl (fun _ => rfl) _
  refine same.bind fun options _ same => ?_
  subst same
  obtain ⟨input, bound⟩ := h.bind s.path someFile options false
  dsimp only
  rw [input]
  exact bound.add ..

theorem addSegments_alike (h : d.Mirrors e) (p : Picture) (own : Bool) (i : Nat)
    (segments : List (Segment α)) :
    Alike (fun r s => r.1 = s.1 ∧ MirrorsWith r.2 s.2) (addSegments p own i segments d)
      (addSegments p own i (segments.map Segment.anonymous) e) := by
  induction segments generalizing i d e with
  | nil => exact .ok ⟨rfl, rfl, h⟩
  | cons s rest ih =>
      refine (addPicture_alike h p i s).bind fun (l, d) (m, e) ⟨same, mirrors⟩ => ?_
      obtain rfl : l = m := same
      refine (addOwnSound_alike mirrors own i s).bind fun (ls, d) (ms, e) ⟨same, mirrors⟩ => ?_
      obtain rfl : ls = ms := same
      refine (ih mirrors (i + 1)).bind
        fun (pictures, sounds, d) (pictures', sounds', e) ⟨same, same', mirrors⟩ => ?_
      obtain rfl : pictures = pictures' := same
      obtain rfl : sounds = sounds' := same'
      exact .ok ⟨rfl, rfl, mirrors⟩

theorem addFade_alike (h : d.Mirrors e) (lane : StreamKind) (T offset : α) (i : Nat)
    (current next : Label) :
    Alike MirrorsWith (addFade lane T offset i current next d)
      (addFade lane T offset i current next e) := by
  cases lane with
  | video => exact h.add ..
  | audio =>
      refine (h.add ..).bind fun (l, d) (m, e) ⟨same, mirrors⟩ => ?_
      obtain rfl : l = m := same
      exact mirrors.add ..

theorem addFades_alike (h : d.Mirrors e) (lane : StreamKind) (T : α) (i : Nat) (current : Label)
    (rest : List (Label × α)) :
    Alike MirrorsWith (addFades lane T i current rest d) (addFades lane T i current rest e) := by
  induction rest generalizing i current d e with
  | nil => exact .ok ⟨rfl, h⟩
  | cons pair rest ih =>
      refine (addFade_alike h lane T pair.2 i current pair.1).bind
        fun (l, d) (m, e) ⟨same, mirrors⟩ => ?_
      obtain rfl : l = m := same
      exact ih mirrors (i + 1) l

theorem joinLane_alike (h : d.Mirrors e) (mode : JoinMode) (lane : StreamKind) (T : α)
    (offsets : List α) (labels : List Label) :
    Alike MirrorsWith (joinLane mode lane T offsets labels d)
      (joinLane mode lane T offsets labels e) := by
  match labels, mode with
  | [], _ => exact .error _ _
  | [_], _ => exact .ok ⟨rfl, h⟩
  | _ :: _ :: _, .crossfade => exact addFades_alike h ..
  | _ :: _ :: _, .concat => exact h.add ..

theorem addItems_alike (h : d.Mirrors e) (transition : Option α) (i : Nat)
    (items : List (AudioItem α)) :
    Alike MirrorsWith (addItems transition i items d)
      (addItems transition i (items.map AudioItem.anonymous) e) := by
  induction items generalizing i d e with
  | nil => exact .ok ⟨rfl, h⟩
  | cons item rest ih =>
      obtain ⟨input, bound⟩ := h.bind item.path someFile [] false
      simp only [addItems, List.map_cons, AudioItem.anonymous, input]
      split
      · exact Alike.of_throw ..
      · have same : Alike Eq (needed transition) (needed transition) := .refl (fun _ => rfl) _
        refine same.bind fun T _ same => ?_
        subst same
        refine (bound.add ..).bind ?_
        rintro ⟨l, d⟩ ⟨m, e⟩ ⟨same, mirrors⟩
        obtain rfl : l = m := same
        refine (ih mirrors (i + 1)).bind ?_
        rintro ⟨ls, d⟩ ⟨ms, e⟩ ⟨same, mirrors⟩
        obtain rfl : ls = ms := same
        exact .ok ⟨rfl, mirrors⟩

theorem addAudioSequence_alike (h : d.Mirrors e) (transition : Option α)
    (items : List (AudioItem α)) :
    Alike MirrorsWith (addAudioSequence transition items d)
      (addAudioSequence transition (items.map AudioItem.anonymous) e) := by
  refine (addItems_alike h transition 0 items).bind fun (ls, d) (ms, e) ⟨same, mirrors⟩ => ?_
  obtain rfl : ls = ms := same
  match ls with
  | [only] => exact .ok ⟨rfl, mirrors⟩
  | [] => exact mirrors.add ..
  | _ :: _ :: _ => exact mirrors.add ..

theorem addSilence_alike (h : d.Mirrors e) (duration : α) :
    Alike MirrorsWith (addSilence duration d) (addSilence duration e) := by
  have same (length : α) : Alike Eq (Seconds.format length) (Seconds.format length) :=
    .refl (fun _ => rfl) _
  refine (same _).bind fun text _ same => ?_
  subst same
  obtain ⟨input, bound⟩ := h.bind silenceSource silenceSource ["-f", "lavfi", "-t", text] true
  dsimp only
  rw [input]
  exact bound.add ..

theorem audioSequence_alike (t : Timeline α) :
    Alike (fun items others => others = items.map AudioItem.anonymous) t.audioSequence
      t.anonymous.audioSequence := by
  unfold Timeline.audioSequence
  simp only [Timeline.anonymous, List.isEmpty_map]
  split
  · cases t.audioPath with
    | null => exact .ok rfl
    | text path =>
        simp only [anyAudio]
        split
        · exact .ok rfl
        · exact .ok rfl
    | bytes content => exact .ok rfl
    | _ => exact .error _ _
  · exact .ok rfl

theorem addSoundLane_alike (h : d.Mirrors e) (t : Timeline α) (fade : α) (offsets : List α)
    (sounds : List Label) (duration : α) :
    Alike MirrorsWith (addSoundLane t fade offsets sounds duration d)
      (addSoundLane t.anonymous fade offsets sounds duration e) := by
  unfold addSoundLane
  have policy : t.anonymous.useTrackAudio = t.useTrackAudio := rfl
  rw [policy]
  split
  · exact joinLane_alike h ..
  · refine (audioSequence_alike t).bind fun items others same => ?_
    subst same
    rw [List.isEmpty_map]
    split
    · exact addSilence_alike h duration
    · exact addAudioSequence_alike h t.transition items

theorem find?_anonymous (segments : List (Segment α)) :
    (segments.map Segment.anonymous).find? (fun s => Seconds.le s.duration Seconds.zero) =
      (segments.find? fun s => Seconds.le s.duration Seconds.zero).map Segment.anonymous :=
  List.find?_map ..

theorem build_alike (t : Timeline α) :
    Alike (fun g h => g.nodes = h.nodes) (Graph.build t) (Graph.build t.anonymous) := by
  have segments : t.anonymous.segments = t.segments.map Segment.anonymous := rfl
  have durations : t.anonymous.segments.map Segment.duration = t.segments.map Segment.duration := by
    rw [segments, List.map_map]
    rfl
  unfold Graph.build
  rw [durations, segments, List.isEmpty_map, find?_anonymous]
  split
  · exact .error _ _
  · cases t.segments.find? fun s => Seconds.le s.duration Seconds.zero with
    | some s => exact Alike.of_throw ..
    | none =>
        have picture : Alike Eq (pictureOf t) (pictureOf t.anonymous) := .refl (fun _ => rfl) _
        refine picture.bind fun p _ same => ?_
        subst same
        have fade : Alike Eq (fadeOf t) (fadeOf t.anonymous) := by
          have count : fadeOf t.anonymous = fadeOf t := by
            unfold fadeOf
            rw [segments, List.length_map]
            rfl
          rw [count]
          exact .refl (fun _ => rfl) _
        refine fade.bind fun T _ same => ?_
        subst same
        have start : Mirrors ({} : Draft α) {} := ⟨rfl, rfl, rfl⟩
        refine (addSegments_alike start p t.useTrackAudio 0 t.segments).bind
          fun (pictures, sounds, d) (pictures', sounds', e) ⟨same, same', laid⟩ => ?_
        obtain rfl : pictures = pictures' := same
        obtain rfl : sounds = sounds' := same'
        refine (joinLane_alike laid t.joinMode .video T _ pictures).bind
          fun (joined, d) (joined', e) ⟨same, fused⟩ => ?_
        obtain rfl : joined = joined' := same
        refine (addSoundLane_alike fused t T _ sounds _).bind
          fun (sound, d) (sound', e) ⟨same, scored⟩ => ?_
        obtain rfl : sound = sound' := same
        refine (scored.add ..).bind fun (video, d) (video', e) ⟨_, closed⟩ => ?_
        exact .ok closed.nodes

end Parts

theorem exists_build_of_anonymous [Seconds α] {t u : Timeline α} {g : Graph α}
    (h : Graph.build t = .ok g) (same : u.anonymous = t.anonymous) :
    ∃ k, Graph.build u = .ok k ∧ k.nodes = g.nodes := by
  have left := build_alike t
  have right := (build_alike u).symm
  rw [h] at left
  obtain ⟨k, hk, nodes⟩ := left.exists_ok
  rw [same, hk] at right
  obtain ⟨k', hk', nodes'⟩ := right.exists_ok
  exact ⟨k', hk', nodes'.trans nodes.symm⟩

/-- The rate of a timeline that was made of fields is a whole number. -/
theorem Timeline.ofSpec_fps {spec : TimelineSpec} {t : Timeline Double}
    (h : Timeline.ofSpec spec = .ok t) : ∃ rate : Int, t.fps = .int rate := by
  obtain ⟨audioDuration, -, h⟩ := exists_of_bind_ok h
  obtain ⟨width, -, h⟩ := exists_of_bind_ok h
  obtain ⟨height, -, h⟩ := exists_of_bind_ok h
  obtain ⟨rate, -, h⟩ := exists_of_bind_ok h
  obtain ⟨transition, -, h⟩ := exists_of_bind_ok h
  obtain ⟨slide, -, h⟩ := exists_of_bind_ok h
  obtain ⟨maxClip, -, h⟩ := exists_of_bind_ok h
  obtain ⟨format, -, h⟩ := exists_of_bind_ok h
  obtain rfl := Except.ok.inj h
  exact ⟨rate, rfl⟩

/-- The text of a compiled graph is read back as its nodes, one part for each: the pads that it
reads, the names of its filters with their formatted arguments, and the pad that it gives. And the
text tells no names: timelines that are alike without them give the same. -/
theorem filterComplex_reads_back {spec : TimelineSpec} {t : Timeline Double} {g : Graph Double}
    {text : String} (made : Timeline.ofSpec spec = .ok t) (built : Graph.build t = .ok g)
    (written : g.filterComplex = .ok text) :
    (∃ parts, g.nodes.mapM Node.part = .ok parts ∧ Part.readAll? text = some parts) ∧
      ∀ u : Timeline Double, u.anonymous = t.anonymous →
        ∃ k, Graph.build u = .ok k ∧ k.filterComplex = .ok text := by
  obtain ⟨a⟩ := assembly_of_build built
  obtain ⟨rate, hr⟩ := Timeline.ofSpec_fps made
  refine ⟨a.readAll?_filterComplex hr written, fun u same => ?_⟩
  obtain ⟨k, hk, nodes⟩ := exists_build_of_anonymous built same
  refine ⟨k, hk, ?_⟩
  rw [Graph.filterComplex, nodes]
  exact written

/-- A picture and a clip whose names are full of marks, faded, with an audio file. -/
def markedSpec : TimelineSpec where
  name := "[v0];"
  projectType := .slideShow
  segments := [{ path := "a;b,c.png", kind := .image, duration := .round (5 / 2) },
    { path := "[x]=1:2.mp4", duration := .round 4 }]
  audioPath := "song, [live].mp3"
  audioDuration := .int 6
  useTrackAudio := .bool false
  transition := .real (.round (1 / 3))

/-- The timeline under another name, with one clip in place of all others. -/
def Timeline.recast (t : Timeline α) : Timeline α :=
  { t with
    name := "trip"
    segments := t.segments.map fun s => { s with path := "clip.mp4" }
    outputFormat := "mkv" }

theorem filterComplex_reads_back_marked :
    ∃ t g text, Timeline.ofSpec markedSpec = .ok t ∧ Graph.build t = .ok g ∧
      g.filterComplex = .ok text ∧ t.recast.anonymous = t.anonymous ∧
      (∃ parts, g.nodes.mapM Node.part = .ok parts ∧ Part.readAll? text = some parts) ∧
      ∃ k, Graph.build t.recast = .ok k ∧ k.filterComplex = .ok text := by
  have given : (do
      let t ← Timeline.ofSpec markedSpec
      let g ← Graph.build t
      g.filterComplex).isOk = true := by decide +kernel
  obtain ⟨text, h⟩ := exists_of_isOk given
  obtain ⟨t, made, h⟩ := exists_of_bind_ok h
  obtain ⟨g, built, written⟩ := exists_of_bind_ok h
  have same : t.recast.anonymous = t.anonymous := by
    simp only [Timeline.anonymous, Timeline.recast, List.map_map]
    rfl
  obtain ⟨reads, nameless⟩ := filterComplex_reads_back made built written
  exact ⟨t, g, text, made, built, written, same, reads, nameless _ same⟩

end Reel
