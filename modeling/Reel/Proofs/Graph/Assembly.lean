import Reel.Proofs.Graph.Shape
import Reel.Proofs.Value.Reading

/-!
# What the construction of a graph yields

Each function of the construction is given a consistent draft in which the labels it needs are
not in use. It then either lays down its part, or stops for a reason that is named: a number that
cannot be written, a value of the wrong kind, or a duration that is not resolved. In particular
the allocator refuses no label. The laws of the parts add up to one law of the whole.
-/
namespace Reel

open Build Label

variable {α : Type} {stops : Error → Prop} {d : Draft α}

theorem dimension_yields (v : Value) (default : Int) :
    Yields Error.IsPlain (Geometry.dimension v default) fun _ => True := by
  have whole : Yields Error.IsPlain (Geometry.whole? v) fun _ => True := by
    unfold Geometry.whole?
    split
    · exact .ok trivial
    · exact .ok trivial
    · exact .ok trivial
    · next e h => exact .error ((toWhole_yields v).of_error h)
  exact whole.bind fun _ _ => .ok trivial

theorem pictureOf_yields (t : Timeline α) :
    Yields Error.IsPlain (pictureOf t) fun p => pictureOf t = .ok p := by
  refine Yields.self ?_
  exact (dimension_yields _ _).bind fun _ _ => (dimension_yields _ _).bind fun _ _ => .ok trivial

theorem audioSequence_yields [Seconds α] (t : Timeline α) :
    Yields Error.IsPlain t.audioSequence fun items => t.audioSequence = .ok items := by
  refine Yields.self ?_
  unfold Timeline.audioSequence
  split <;> try split
  all_goals try split
  all_goals first
    | exact .ok trivial
    | exact .error trivial

theorem needed_yields (transition : Option α) :
    Yields Error.IsPlain (needed transition) fun T => transition = some T := by
  cases transition with
  | some T => exact .ok rfl
  | none => exact .error trivial

theorem fadeOf_yields [Seconds α] (t : Timeline α) :
    Yields Error.IsPlain (fadeOf t) fun T => fadeOf t = .ok T := by
  refine Yields.self ?_
  unfold fadeOf
  split
  · exact .ok trivial
  · exact (needed_yields _).mono fun _ _ => trivial

theorem addSound_yields (h : d.Consistent) (i : Nat) (s : Segment α)
    (free : d.FreeFrom .trackAudio i) (freeSilence : d.FreeFrom .trackSilence i) :
    Yields stops (addSound i s d) fun (l, e) =>
      ∃ m, SoundOf i s m ∧ l = m.output ∧ d.Grows e [] [m] := by
  unfold addSound
  split
  · next own =>
      refine (Draft.add_counted_yields h rfl free _ _ _).mono ?_
      rintro ⟨l, e⟩ ⟨hl, grown⟩
      exact ⟨_, .own _ own, hl, hl ▸ grown⟩
  · next own =>
      refine (Draft.add_counted_yields h rfl freeSilence _ _ _).mono ?_
      rintro ⟨l, e⟩ ⟨hl, grown⟩
      exact ⟨_, .silent _ (by simpa using own), hl, hl ▸ grown⟩

theorem addOwnSound_yields (h : d.Consistent) (own : Bool) (i : Nat) (s : Segment α)
    (free : d.FreeFrom .trackAudio i) (freeSilence : d.FreeFrom .trackSilence i) :
    Yields stops (addOwnSound own i s d) fun (labels, e) =>
      ∃ ms, OwnSound i s own ms ∧ labels = ms.map Node.output ∧ d.Grows e [] ms := by
  cases own with
  | false => exact .ok ⟨[], .without, rfl, .refl h⟩
  | true =>
      refine (addSound_yields h i s free freeSilence).bind fun (l, e) ⟨m, hm, hl, grown⟩ => ?_
      exact .ok ⟨[m], .node hm, by rw [hl]; rfl, grown⟩

theorem OwnSound.output {i : Nat} {s : Segment α} {own : Bool} {ms : List (Node α)}
    (h : OwnSound i s own ms) : ∀ n ∈ ms, n.output.kind ∈ segmentKinds ∧
      n.output.kind ≠ .videoSegment ∧ n.output.index = some (toString i) := by
  cases h with
  | without => simp
  | node hm =>
      intro n hn
      rw [List.mem_singleton.mp hn]
      cases hm <;> simp [segmentKinds, counted]

theorem Sequence.kind_eq {labels : List Label} {ns : List (Node α)} {l : Label}
    (h : Sequence labels ns l) : ∀ n ∈ ns, n.output.kind = .audioSequence := by
  cases h with
  | only => simp
  | several k _ => simp [concatNode, single]

variable [Seconds α]

theorem addPicture_yields {s : Segment α} (bound : Yields stops (segmentOptions s) fun _ => True)
    (h : d.Consistent) (p : Picture) (free : d.FreeFrom .videoSegment d.inputs.length) :
    Yields stops (addPicture p d.inputs.length s d) fun (l, e) =>
      ∃ b n, PictureOf p d.inputs.length s b n ∧ l = n.output ∧ d.Grows e [b] [n] := by
  refine bound.self.bind fun options ho => ?_
  have bound := Draft.Grows.bind h s.path options false
  have free := bound.freeFrom free (by simp)
  refine (Draft.add_counted_yields bound.consistent rfl free _ _ _).mono
    fun (l, e) ⟨hl, grown⟩ => ?_
  exact ⟨_, _, ⟨⟨options, ho, rfl⟩, _, rfl⟩, hl, hl ▸ bound.trans grown⟩

theorem PictureOf.output {p : Picture} {i : Nat} {s : Segment α} {b : Binding} {n : Node α}
    (h : PictureOf p i s b n) :
    n.output.kind = .videoSegment ∧ n.output.index = some (toString i) := by
  obtain ⟨k, rfl⟩ := h.node
  exact ⟨rfl, rfl⟩

theorem Segments.length {p : Picture} {own : Bool} {i : Nat} {segments : List (Segment α)}
    {bs : List Binding} {ns : List (Node α)} {pictures sounds : List Label}
    (h : Segments p own i segments bs ns pictures sounds) :
    bs.length = segments.length ∧ pictures.length = segments.length ∧
      sounds.length = if own then segments.length else 0 := by
  induction h with
  | nil => cases own <;> exact ⟨rfl, rfl, rfl⟩
  | cons _ hs _ ih =>
      obtain ⟨hb, hp, hn⟩ := ih
      refine ⟨by simp [hb], by simp [hp], ?_⟩
      cases hs with
      | without => simpa using hn
      | node _ => simp [hn]

theorem Segments.kind_mem {p : Picture} {own : Bool} {i : Nat} {segments : List (Segment α)}
    {bs : List Binding} {ns : List (Node α)} {pictures sounds : List Label}
    (h : Segments p own i segments bs ns pictures sounds) :
    ∀ n ∈ ns, n.output.kind ∈ segmentKinds := by
  induction h with
  | nil i => simp
  | cons hp hs _ ih =>
      intro n hn
      rcases List.mem_cons.mp hn with rfl | hn
      · rw [hp.output.1]
        decide
      · rcases List.mem_append.mp hn with hn | hn
        · exact (hs.output n hn).1
        · exact ih n hn

/-- The segments from an index on are laid down; segments are bound one after the other, so the
index is also the number of their inputs. -/
theorem addSegments_yields {segments : List (Segment α)}
    (bound : ∀ s ∈ segments, Yields stops (segmentOptions s) fun _ => True) (p : Picture)
    (own : Bool) (h : d.Consistent)
    (free : ∀ kind ∈ segmentKinds, d.FreeFrom kind d.inputs.length) :
    Yields stops (addSegments p own d.inputs.length segments d) fun (pictures, sounds, e) =>
      ∃ bs ns, Segments p own d.inputs.length segments bs ns pictures sounds ∧
        d.Grows e bs ns := by
  induction segments generalizing d with
  | nil => exact .ok ⟨[], [], .nil _, .refl h⟩
  | cons s rest ih =>
      rw [List.forall_mem_cons] at bound
      have step := addPicture_yields bound.1 h p (free _ (by decide))
      refine step.bind fun (picture, e) ⟨b, n, hp, hl, grown⟩ => ?_
      -- The picture uses up a label of its own kind only; the sound's are still unused.
      have after (kind : LabelKind) (hk : kind ∈ segmentKinds) (ne : kind ≠ .videoSegment) :
          e.FreeFrom kind d.inputs.length :=
        grown.freeFrom (free kind hk) fun m hm hm' => by
          rw [List.mem_singleton.mp hm, hp.output.1] at hm'
          exact (ne hm'.symm).elim
      have sound : Yields stops (addOwnSound own d.inputs.length s e) _ :=
        addOwnSound_yields grown.consistent own d.inputs.length s
          (after _ (by decide) (by decide)) (after _ (by decide) (by decide))
      refine sound.bind fun (labels, f) ⟨ms, hm, hlabels, grown'⟩ => ?_
      have both := grown.trans grown'
      have count : f.inputs.length = d.inputs.length + 1 := by simp [both.inputs]
      rw [← count]
      have next : ∀ kind ∈ segmentKinds, f.FreeFrom kind f.inputs.length := by
        intro kind hk
        rw [count]
        refine both.freeFrom_succ (free kind hk) fun m hm' => ?_
        rcases List.mem_append.mp hm' with hm' | hm'
        · rw [List.mem_singleton.mp hm', hp.output.2]
        · exact (hm.output m hm').2.2
      refine (ih bound.2 both.consistent next).bind
        fun (pictures, sounds, g) ⟨bs, ns, hs, grown''⟩ => ?_
      rw [count] at hs
      refine .ok ⟨b :: bs, n :: (ms ++ ns), ?_, ?_⟩
      · rw [hl, hlabels]
        exact .cons hp hm hs
      · simpa using both.trans grown''

theorem Fade.output {T offset : α} {i : Nat} {current next l : Label} {lane : StreamKind}
    {ns : List (Node α)} (h : Fade T offset i current next lane ns l) :
    ∀ n ∈ ns, n.output.kind ∈ fadeKinds lane ∧ n.output.index = some (toString i) := by
  cases h with
  | picture k =>
      intro n hn
      rw [List.mem_singleton.mp hn]
      exact ⟨by simp [fadeKinds, pictureFadeNode, counted], rfl⟩
  | sound j k =>
      intro n hn
      rcases List.mem_pair.mp hn with rfl | rfl
      · exact ⟨by simp [fadeKinds, alignmentNode, counted], rfl⟩
      · exact ⟨by simp [fadeKinds, soundFadeNode, counted], rfl⟩

theorem addFade_yields (h : d.Consistent) (lane : StreamKind) (T offset : α) (i : Nat)
    (current next : Label) (free : ∀ kind ∈ fadeKinds lane, d.FreeFrom kind i) :
    Yields stops (addFade lane T offset i current next d) fun (l, e) =>
      ∃ ns, Fade T offset i current next lane ns l ∧ d.Grows e [] ns := by
  cases lane with
  | video =>
      refine (Draft.add_counted_yields h rfl (free _ (by decide)) _ _ _).mono
        fun (l, e) ⟨hl, grown⟩ => ?_
      subst hl
      exact ⟨_, .picture _, grown⟩
  | audio =>
      refine (Draft.add_counted_yields h rfl (free .audioAlign (by decide)) _ _ _).bind
        fun (aligned, e) ⟨hl, grown⟩ => ?_
      subst hl
      have unused : e.FreeFrom .audioCrossfade i :=
        grown.freeFrom (free _ (by decide)) fun m hm hk => by
          rw [List.mem_singleton.mp hm] at hk
          cases hk
      refine (Draft.add_counted_yields grown.consistent rfl unused _ _ _).mono
        fun (l, f) ⟨hl, grown'⟩ => ?_
      subst hl
      exact ⟨_, .sound _ _, grown.trans grown'⟩

theorem addFades_yields (lane : StreamKind) (T : α) (rest : List (Label × α)) (i : Nat)
    (current : Label) (h : d.Consistent) (free : ∀ kind ∈ fadeKinds lane, d.FreeFrom kind i) :
    Yields stops (addFades lane T i current rest d) fun (l, e) =>
      ∃ ns, Fades lane T i current rest ns l ∧ d.Grows e [] ns := by
  induction rest generalizing i current d with
  | nil => exact .ok ⟨[], .done i current, .refl h⟩
  | cons pair rest ih =>
      obtain ⟨next, offset⟩ := pair
      refine (addFade_yields h lane T offset i current next free).bind
        fun (l, e) ⟨ns, hf, grown⟩ => ?_
      have unused : ∀ kind ∈ fadeKinds lane, e.FreeFrom kind (i + 1) :=
        fun kind hk => grown.freeFrom_succ (free kind hk) fun m hm => (hf.output m hm).2
      refine (ih (i + 1) l grown.consistent unused).mono fun (last, f) ⟨ms, hr, grown'⟩ => ?_
      exact ⟨ns ++ ms, .fade hf hr, grown.trans grown'⟩

theorem Fades.kind_mem {lane : StreamKind} {T : α} {i : Nat} {current last : Label}
    {rest : List (Label × α)} {ns : List (Node α)} (h : Fades lane T i current rest ns last) :
    ∀ n ∈ ns, n.output.kind ∈ fadeKinds lane := by
  induction h with
  | done i current => simp
  | fade hf _ ih =>
      intro n hn
      exact (List.mem_append.mp hn).elim (fun hn => (hf.output n hn).1) (ih n)

theorem Joined.kind_mem {mode : JoinMode} {lane : StreamKind} {T : α} {offsets : List α}
    {labels : List Label} {ns : List (Node α)} {l : Label}
    (h : Joined mode lane T offsets labels ns l) : ∀ n ∈ ns, n.output.kind ∈ joinKinds lane := by
  cases h with
  | only => simp
  | concat k _ => simp [concatNode, joinKinds, single]
  | fades _ hf => exact fun n hn => List.mem_cons_of_mem _ (hf.kind_mem n hn)

theorem joinLane_yields (mode : JoinMode) (lane : StreamKind) (T : α) (offsets : List α)
    {labels : List Label} (nonempty : labels ≠ []) (h : d.Consistent)
    (free : ∀ kind ∈ joinKinds lane, d.Free kind) :
    Yields stops (joinLane mode lane T offsets labels d) fun (l, e) =>
      ∃ ns, Joined mode lane T offsets labels ns l ∧ d.Grows e [] ns := by
  match labels, mode with
  | [], _ => exact (nonempty rfl).elim
  | [only], _ => exact .ok ⟨[], .only only, .refl h⟩
  | first :: second :: rest, .crossfade =>
      have unused : ∀ kind ∈ fadeKinds lane, d.FreeFrom kind 1 :=
        fun kind hk => (free kind (List.mem_cons_of_mem _ hk)).freeFrom 1
      exact (addFades_yields lane T ((second :: rest).zip offsets) 1 first h unused).mono
        fun (l, e) ⟨ns, hf, grown⟩ => ⟨ns, .fades rfl hf, grown⟩
  | first :: second :: rest, .concat =>
      have uncounted : (joinKind lane).isIndexed = false := by cases lane <;> rfl
      refine (Draft.add_single_yields h uncounted (free _ (List.mem_cons_self ..)) _ _ _).mono
        fun (l, e) ⟨hl, grown⟩ => ?_
      subst hl
      exact ⟨_, .concat _ rfl, grown⟩

theorem ItemOf.output {transition : Option α} {i input : Nat} {item : AudioItem α} {b : Binding}
    {n : Node α} (h : ItemOf transition i input item b n) :
    n.output.kind = .audioItem ∧ n.output.index = some (toString i) := by
  obtain ⟨T, k, -, rfl⟩ := h.node
  exact ⟨rfl, rfl⟩

theorem Items.kind_eq {transition : Option α} {i input : Nat} {items : List (AudioItem α)}
    {bs : List Binding} {ns : List (Node α)} {labels : List Label}
    (h : Items transition i input items bs ns labels) : ∀ n ∈ ns, n.output.kind = .audioItem := by
  induction h with
  | nil => simp
  | cons hi _ ih =>
      intro n hn
      rcases List.mem_cons.mp hn with rfl | hn
      · exact hi.output.1
      · exact ih n hn

/-- The stops that audio items without a duration lead to. -/
def ItemStops (stops : Error → Prop) (items : List (AudioItem α)) : Prop :=
  ∀ item ∈ items, Seconds.le item.duration Seconds.zero = true →
    Yields stops item.path.toText fun path => stops (.defect (.audioDurationUnresolved path))

theorem addItems_yields {transition : Option α}
    (needs : Yields stops (needed transition) fun _ => True) (items : List (AudioItem α)) (i : Nat)
    (h : d.Consistent) (free : d.FreeFrom .audioItem i) (unresolved : ItemStops stops items) :
    Yields stops (addItems transition i items d) fun (labels, e) =>
      ∃ bs ns, Items transition i d.inputs.length items bs ns labels ∧ d.Grows e bs ns := by
  induction items generalizing i d with
  | nil => exact .ok ⟨[], [], .nil _ _, .refl h⟩
  | cons item rest ih =>
      have bound := Draft.Grows.bind h item.path [] false
      simp only [addItems]
      split
      · next le =>
          exact (unresolved item (List.mem_cons_self ..) le).bind fun path stop => .error stop
      · next gt =>
          refine needs.self.bind fun T needed => ?_
          have hT := (needed_yields transition).of_ok needed
          have unused := bound.freeFrom free (by simp)
          refine (Draft.add_counted_yields bound.consistent rfl unused _ _ _).bind
            fun (l, e) ⟨hl, grown⟩ => ?_
          subst hl
          have one := bound.trans grown
          have count : e.inputs.length = d.inputs.length + 1 := by simp [one.inputs]
          have next : e.FreeFrom .audioItem (i + 1) := by
            refine one.freeFrom_succ free fun m hm => ?_
            rw [List.mem_singleton.mp hm]
            rfl
          refine (ih (i + 1) one.consistent next
            fun item hi => unresolved item (List.mem_cons_of_mem _ hi)).bind
            fun (labels, f) ⟨bs, ns, hs, grown'⟩ => ?_
          rw [count] at hs
          exact .ok ⟨_, _, .cons ⟨by simpa using gt, rfl, T, _, hT, rfl⟩ hs, one.trans grown'⟩

theorem addAudioSequence_yields {transition : Option α}
    (needs : Yields stops (needed transition) fun _ => True) (items : List (AudioItem α))
    (h : d.Consistent) (free : d.Free .audioItem)
    (freeSequence : d.Free .audioSequence) (unresolved : ItemStops stops items) :
    Yields stops (addAudioSequence transition items d) fun (l, e) =>
      ∃ bs ns ms labels, Items transition 0 d.inputs.length items bs ns labels ∧
        Sequence labels ms l ∧ d.Grows e bs (ns ++ ms) := by
  refine (addItems_yields needs items 0 h (free.freeFrom 0) unresolved).bind
    fun (labels, e) ⟨bs, ns, hi, grown⟩ => ?_
  have unused : e.Free .audioSequence :=
    grown.free freeSequence fun n hn hk => by
      rw [hi.kind_eq n hn] at hk
      cases hk
  have several (ne : labels.length ≠ 1) :
      Yields stops (addConcat .audio .audioSequence labels e) fun (l, f) =>
        ∃ bs ns ms labels, Items transition 0 d.inputs.length items bs ns labels ∧
          Sequence labels ms l ∧ d.Grows f bs (ns ++ ms) := by
    refine (Draft.add_single_yields grown.consistent rfl unused _ _ _).mono
      fun (l, f) ⟨hl, grown'⟩ => ?_
    subst hl
    have both := grown.trans grown'
    rw [List.append_nil] at both
    exact ⟨bs, ns, _, labels, hi, .several _ ne, both⟩
  match labels with
  | [] => exact several (by simp)
  | [only] => exact .ok ⟨bs, ns, [], _, hi, .only only, by simpa using grown⟩
  | _ :: _ :: _ => exact several (by simp)

theorem addSilence_yields {duration : α}
    (written : Yields stops (Seconds.format (Seconds.max shortestSilence duration)) fun _ => True)
    (h : d.Consistent) (free : d.Free .silenceFill) :
    Yields stops (addSilence duration d) fun (l, e) =>
      ∃ b k, SilenceBound (Seconds.max shortestSilence duration) d.inputs.length b ∧
        l = .single .silenceFill k ∧
        d.Grows e [b]
          [{ inputs := [.stream d.inputs.length .audio]
             filters := soundFilters (Seconds.max shortestSilence duration)
             output := .single .silenceFill k }] := by
  refine written.self.bind fun text ht => ?_
  have bound := Draft.Grows.bind h silenceSource ["-f", "lavfi", "-t", text] true
  have unused := bound.free free (by simp)
  refine (Draft.add_single_yields bound.consistent rfl unused _ _ _).mono
    fun (l, e) ⟨hl, grown⟩ => ?_
  subst hl
  exact ⟨_, _, ⟨text, ht, rfl⟩, rfl, bound.trans grown⟩

/-- What stops a soundtrack of audio items or silence are the parts that it is made of. -/
structure SoundStops (t : Timeline α) (duration : α) (stops : Error → Prop) : Prop where
  sequence : Yields stops t.audioSequence fun _ => True
  transition : Yields stops (needed t.transition) fun _ => True
  items : ∀ items, t.audioSequence = .ok items → ItemStops stops items
  silence : Yields stops (Seconds.format (Seconds.max shortestSilence duration)) fun _ => True

/-- The sound of a timeline is laid down behind the bindings and nodes of its picture. -/
theorem addSoundLane_yields {t : Timeline α} {duration : α}
    (parts : t.useTrackAudio = false → SoundStops t duration stops) (T : α)
    (offsets : List α) {sounds : List Label} (own : t.useTrackAudio = true → sounds ≠ [])
    (h : d.Consistent) (free : ∀ kind ∈ soundtrackKinds, d.Free kind) :
    Yields stops (addSoundLane t T offsets sounds duration d) fun (l, e) =>
      ∃ bs ns, Soundtrack t T offsets d.inputs.length sounds duration bs ns l ∧
        d.Grows e bs ns := by
  unfold addSoundLane
  split
  · next policy =>
      have unused : ∀ kind ∈ joinKinds .audio, d.Free kind :=
        fun kind hk => free kind (List.mem_append_right _ hk)
      exact (joinLane_yields t.joinMode .audio T offsets (own policy) h unused).mono
        fun (l, e) ⟨ns, hj, grown⟩ => ⟨[], ns, .own policy hj, grown⟩
  · next policy =>
      rw [Bool.not_eq_true] at policy
      have parts := parts policy
      refine parts.sequence.self.bind fun items hi => ?_
      match items with
      | [] =>
          refine (addSilence_yields parts.silence h (free _ (by decide))).mono
            fun (l, e) ⟨b, k, hb, hl, grown⟩ => ?_
          subst hl
          exact ⟨_, _, .silence k policy hi hb, grown⟩
      | item :: rest =>
          exact (addAudioSequence_yields parts.transition (item :: rest) h (free _ (by decide))
            (free _ (by decide)) (parts.items _ hi)).mono
            fun (l, e) ⟨bs, ns, ms, labels, hs, hq, grown⟩ =>
              ⟨bs, ns ++ ms, .items policy hi (by simp) hs hq, grown⟩

theorem Soundtrack.kind_mem {t : Timeline α} {T : α} {offsets : List α} {input : Nat}
    {sounds : List Label} {duration : α} {bs : List Binding} {ns : List (Node α)} {l : Label}
    (h : Soundtrack t T offsets input sounds duration bs ns l) :
    ∀ n ∈ ns, n.output.kind ∈ soundtrackKinds := by
  cases h with
  | own _ hj => exact fun n hn => List.mem_append_right _ (hj.kind_mem n hn)
  | items _ _ _ hi hs =>
      intro n hn
      rcases List.mem_append.mp hn with hn | hn
      · rw [hi.kind_eq n hn]
        decide
      · rw [hs.kind_eq n hn]
        decide
  | silence k _ _ _ =>
      intro n hn
      rw [List.mem_singleton.mp hn]
      simp [single, soundtrackKinds]

/-- What stops the construction of a timeline's graph are the parts that it is made of. -/
structure BuildStops (t : Timeline α) (stops : Error → Prop) : Prop where
  empty : t.segments = [] → stops (.rejected .segmentsMissing)
  unresolved : ∀ s ∈ t.segments, Seconds.le s.duration Seconds.zero = true →
    Yields stops s.path.toText fun path => stops (.defect (.durationUnresolved path))
  picture : Yields stops (pictureOf t) fun _ => True
  fade : Yields stops (fadeOf t) fun _ => True
  segments : ∀ s ∈ t.segments, Yields stops (segmentOptions s) fun _ => True
  sound : t.useTrackAudio = false → ∀ T, fadeOf t = .ok T → SoundStops t
    (composedDuration t.joinMode T (t.segments.map Segment.duration)) stops

/-- A compiled graph is assembled from its parts; otherwise the compilation stops as one of the
parts does. -/
theorem build_yields_of {t : Timeline α} (parts : BuildStops t stops) :
    Yields stops (Graph.build t) fun g => Nonempty (Assembly t g) := by
  unfold Graph.build
  split
  · next empty => exact .error (parts.empty (List.isEmpty_iff.mp empty))
  · next nonempty =>
      rw [List.isEmpty_iff] at nonempty
      split
      · next s found =>
          exact (parts.unresolved s (List.mem_of_find?_eq_some found)
            (by simpa using List.find?_some found)).bind fun path stop => .error stop
      · next found =>
          have resolved : ∀ s ∈ t.segments, Seconds.le s.duration Seconds.zero = false := by
            simpa using List.find?_eq_none.mp found
          refine parts.picture.self.bind fun p hp => ?_
          refine parts.fade.self.bind fun T hT => ?_
          -- Each part needs labels of kinds that the parts before it leave unused.
          refine (addSegments_yields parts.segments p t.useTrackAudio Draft.consistent_empty
            fun kind _ => (Draft.uses_empty.free List.not_mem_nil).freeFrom _).bind
            fun (pictures, sounds, d) ⟨bs, ns, hs, laid⟩ => ?_
          have used := laid.uses Draft.uses_empty hs.kind_mem
          refine (joinLane_yields t.joinMode .video T
            (crossfadeOffsets (t.segments.map Segment.duration) T)
            (by simpa [← List.length_pos_iff, hs.length.2.1] using nonempty) laid.consistent
            fun kind hk => used.free (by revert kind; decide)).bind
            fun (joined, e) ⟨ms, hj, fused⟩ => ?_
          have used := fused.uses used hj.kind_mem
          have both := laid.trans fused
          have count : e.inputs.length = bs.length := by simp [both.inputs]
          refine (addSoundLane_yields (fun policy => parts.sound policy T hT) T
            (crossfadeOffsets (t.segments.map Segment.duration) T)
            (fun own => by simpa [← List.length_pos_iff, hs.length.2.2, own] using nonempty)
            both.consistent fun kind hk => used.free (by revert kind; decide)).bind
            fun (sound, f) ⟨cs, ls, ht, scored⟩ => ?_
          have used := scored.uses used ht.kind_mem
          have all := both.trans scored
          refine (Draft.add_single_yields all.consistent rfl (used.free (by decide)) _ _ _).bind
            fun (video, g) ⟨hv, closed⟩ => ?_
          subst hv
          have whole := all.trans closed
          have consistent := whole.consistent
          rw [count] at ht
          refine .ok ⟨{
            picture := p, T, segmentInputs := bs, soundInputs := cs, segmentNodes := ns
            pictureNodes := ms, soundNodes := ls, pictures, sounds, joined, sound
            last := f.nodes.length, nonempty, resolved, picture_eq := hp, fade_eq := hT
            segments := hs, join := hj, soundtrack := ht
            inputs_eq := by simpa using whole.inputs
            nodes_eq := by simpa [outputNode] using whole.nodes
            video_eq := rfl, audio_eq := rfl, duration_eq := rfl, join_eq := rfl
            serials := consistent.serials, distinct := consistent.distinct
            numbered := consistent.numbered }⟩

/-- Why the compilation of a timeline may stop. A broken promise is among the reasons only if a
segment or an audio item does not last. -/
inductive Refusal (t : Timeline α) : Error → Prop
  | empty : t.segments = [] → Refusal t (.rejected .segmentsMissing)
  | plain {e : Error} : e.IsPlain → Refusal t e
  | format {e : Error} (x : α) : Seconds.format x = .error e → Refusal t e
  | segment {s : Segment α} (path : String) : s ∈ t.segments →
      Seconds.le s.duration Seconds.zero = true →
      Refusal t (.defect (.durationUnresolved path))
  | item {items : List (AudioItem α)} {item : AudioItem α} (path : String) :
      t.audioSequence = .ok items → item ∈ items →
      Seconds.le item.duration Seconds.zero = true →
      Refusal t (.defect (.audioDurationUnresolved path))

namespace Refusal

variable {t : Timeline α}

/-- What stops with plain errors only stops as the compilation does. -/
theorem of_plain {β : Type} {r : Except Error β} {post : β → Prop}
    (h : Yields Error.IsPlain r post) : Yields (Refusal t) r fun _ => True :=
  (h.widen fun _ => .plain).mono fun _ _ => trivial

theorem formatted (x : α) : Yields (Refusal t) (Seconds.format x) fun _ => True := by
  cases h : Seconds.format x with
  | ok text => exact .ok trivial
  | error e => exact .error (.format x h)

theorem buildStops (t : Timeline α) : BuildStops t (Refusal t) where
  empty := .empty
  unresolved s hs le := (of_plain (toText_yields s.path)).mono fun path _ => .segment path hs le
  picture := of_plain (pictureOf_yields t)
  fade := of_plain (fadeOf_yields t)
  segments s _ := by
    unfold segmentOptions
    split
    · exact (formatted _).bind fun _ _ => .ok trivial
    · exact .ok trivial
  sound _ T _ := {
    sequence := of_plain (audioSequence_yields t)
    transition := of_plain (needed_yields t.transition)
    items := fun items hi item hm le =>
      (of_plain (toText_yields item.path)).mono fun path _ => .item path hi hm le
    silence := formatted _ }

end Refusal

/-- A compiled graph is assembled from its parts; otherwise the compilation stops for a reason
that lies in the timeline. -/
theorem build_yields (t : Timeline α) :
    Yields (Refusal t) (Graph.build t) fun g => Nonempty (Assembly t g) :=
  build_yields_of (Refusal.buildStops t)

theorem assembly_of_build {t : Timeline α} {g : Graph α} (h : Graph.build t = .ok g) :
    Nonempty (Assembly t g) :=
  (build_yields t).of_ok h

/-- The timeline over some segments in which all else has its plainest form. -/
def Timeline.plain (segments : List (Segment α)) (join : JoinMode) (ownSound : Bool) (T : α) :
    Timeline α where
  name := ""
  projectType := .slideShow
  segments
  audioItems := []
  audioPath := .null
  audioDuration := Seconds.zero
  useTrackAudio := ownSound
  width := .int Geometry.defaultWidth
  height := .int Geometry.defaultHeight
  fps := .int Geometry.defaultFps
  transition := some T
  slide := Seconds.zero
  maxClip := Seconds.zero
  outputFormat := "mp4"
  join := some join

end Reel
