import Reel.Proofs.Host.Probe
import Reel.Proofs.Timeline.Resolve

/-!
# What a timeline asks about its media

Every clip is asked how long it runs and, where segments bring their own sound, whether it has
any; where they do not, the audio items without a duration are asked how long they run. Images
are never asked about. If what is answered hangs on the path alone, each segment and each item is
filled in with the answers about its own medium, and each question is asked once.
-/
namespace Reel

open Resolve

/-- What a probe is asked about a medium. -/
inductive Query where
  | duration (path : Value)
  | sound (path : Value)
  deriving Repr, DecidableEq

def Job.query : Job → Query
  | .clip path => .duration path
  | .sound path => .sound path
  | .item path => .duration path

namespace Timeline

variable {α : Type} [Seconds α]

def segmentQueries (t : Timeline α) (s : Segment α) : List Query :=
  if s.isImage then []
  else if t.useTrackAudio then [.duration s.path, .sound s.path]
  else [.duration s.path]

/-- The question about one audio item, if it has no duration and its sound is used. -/
def itemQueries (t : Timeline α) (item : AudioItem α) : List Query :=
  if t.useTrackAudio || Seconds.lt Seconds.zero item.duration then [] else [.duration item.path]

/-- All that has to be asked about a timeline's media. -/
def queries (t : Timeline α) : List Query :=
  match t.audioSequence with
  | .ok items => t.segments.flatMap t.segmentQueries ++ items.flatMap t.itemQueries
  | .error _ => []

end Timeline

/-- What probes find out about media: how long a clip runs within the limit, whether it has
sound, and how long an audio item runs. -/
structure Findings where
  clip : Value → Double
  sound : Value → Bool
  item : Value → Double

namespace Findings

def answer (f : Findings) : Job → Answer Double
  | .clip path => .duration (f.clip path)
  | .sound path => .sound (f.sound path)
  | .item path => .duration (f.item path)

/-- A clip runs as long as was found, and has the sound that was found if it is used. An image
runs for its own time, or in a slide show for that of a slide, half a second at least. -/
def segment (f : Findings) (t : Timeline Double) (s : Segment Double) : Segment Double :=
  if s.isImage then
    let own :=
      if t.projectType = .slideShow ∧ Seconds.le s.duration Seconds.zero then
        Seconds.max oneSecond t.slide
      else s.duration
    { s with duration := Seconds.max shortestItem own, hasAudio := .bool false }
  else
    { s with duration := f.clip s.path
             hasAudio := if t.useTrackAudio then .bool (f.sound s.path) else s.hasAudio }

/-- An audio item keeps a duration that it has; else it runs as long as was found, if its sound is
used, and half a second in any case. -/
def audioItem (f : Findings) (t : Timeline Double) (item : AudioItem Double) :
    AudioItem Double :=
  let own :=
    if t.useTrackAudio || Seconds.lt Seconds.zero item.duration then item.duration
    else f.item item.path
  { item with duration := Seconds.max shortestItem own }

/-- The timeline filled in segment by segment and item by item; all else stays. -/
def resolve (f : Findings) (t : Timeline Double) : Except Error (Timeline Double) := do
  let items ← t.audioSequence
  return { t with
    segments := t.segments.map (f.segment t)
    audioItems := items.map (f.audioItem t)
    audioPath := .null }

end Findings

section Places

variable {f : Findings} {t : Timeline Double} {s : Segment Double}

theorem isImage_still (projectType : ProjectType) (slide : Double) (s : Segment Double) :
    (still projectType slide s).isImage = s.isImage := by
  unfold still
  split <;> rfl

theorem still_eq_segment (image : s.isImage = true) :
    still t.projectType t.slide s = f.segment t s := by
  simp only [still, Findings.segment, image, if_true, Bool.and_eq_true, beq_iff_eq]

theorem still_clip (clip : s.isImage = false) : still t.projectType t.slide s = s := by
  simp only [still, clip, Bool.false_eq_true, if_false]

theorem segmentJobs_query (t : Timeline Double) (s : Segment Double) :
    (segmentJobs t.useTrackAudio (still t.projectType t.slide s)).map Job.query =
      t.segmentQueries s := by
  unfold Timeline.segmentQueries
  cases image : s.isImage with
  | true =>
      rw [segmentJobs, isImage_still, image]
      rfl
  | false =>
      rw [still_clip image, segmentJobs, image]
      cases t.useTrackAudio <;> rfl

/-- The answers for a row of segments reach the segments that they are about, and are used up. -/
theorem fillSegments_answers (f : Findings) (t : Timeline Double)
    (segments : List (Segment Double)) (left : List (Answer Double)) :
    fillSegments t.useTrackAudio (segments.map (still t.projectType t.slide))
        (((segments.map (still t.projectType t.slide)).flatMap
          (segmentJobs t.useTrackAudio)).map f.answer ++ left) =
      (segments.map (f.segment t), left) := by
  induction segments with
  | nil => rfl
  | cons s rest ih =>
      rw [List.map_cons, List.flatMap_cons, List.map_append, List.append_assoc, List.map_cons]
      cases image : s.isImage with
      | true =>
          have still := (isImage_still t.projectType t.slide s).trans image
          rw [segmentJobs, if_pos still, List.map_nil, List.nil_append, fillSegments_image still,
            ih, still_eq_segment (f := f) image]
      | false =>
          rw [still_clip image, segmentJobs, image]
          cases own : t.useTrackAudio with
          | true =>
              rw [own] at ih
              simp only [if_true, Bool.false_eq_true, if_false, List.map_cons, List.map_nil,
                List.cons_append, List.nil_append, Findings.answer]
              rw [fillSegments_sounding image, ih]
              simp [Findings.segment, image, own]
          | false =>
              rw [own] at ih
              simp only [Bool.false_eq_true, if_false, List.map_cons, List.map_nil,
                List.cons_append, List.nil_append, Findings.answer]
              rw [fillSegments_clip image, ih]
              simp [Findings.segment, image, own]

theorem fillItems_dated {item : AudioItem Double} (dated : isUndated item = false)
    (rest : List (AudioItem Double)) (answers : List (Answer Double)) :
    fillItems (item :: rest) answers = item :: fillItems rest answers := by
  rw [fillItems.eq_def]
  simp only [dated, Bool.false_eq_true, if_false]

theorem fillItems_undated {item : AudioItem Double} (undated : isUndated item = true)
    (rest : List (AudioItem Double)) (x : Double) (answers : List (Answer Double)) :
    fillItems (item :: rest) (.duration x :: answers) =
      { item with duration := x } :: fillItems rest answers := by
  rw [fillItems.eq_def]
  simp only [undated, if_true]

/-- The answers for the audio items without a duration reach the items that they are about. -/
theorem fillItems_answers (f : Findings) (policy : t.useTrackAudio = false)
    (items : List (AudioItem Double)) :
    (fillItems items (((items.filter isUndated).map fun item => .item item.path).map
        f.answer)).map (fun item => { item with duration := Seconds.max shortestItem item.duration }) =
      items.map (f.audioItem t) := by
  induction items with
  | nil => rfl
  | cons item rest ih =>
      cases dated : Seconds.lt Seconds.zero item.duration with
      | true =>
          have kept : isUndated item = false := by simp [isUndated, dated]
          rw [List.filter_cons_of_neg (by simp [kept]), fillItems_dated kept, List.map_cons, ih]
          simp [Findings.audioItem, dated]
      | false =>
          have asked : isUndated item = true := by simp [isUndated, dated]
          rw [List.filter_cons_of_pos asked, List.map_cons, List.map_cons, Findings.answer,
            fillItems_undated asked, List.map_cons, ih]
          simp [Findings.audioItem, dated, policy]

theorem itemQueries_undated (policy : t.useTrackAudio = false) (items : List (AudioItem Double)) :
    ((items.filter isUndated).map fun item => Job.item item.path).map Job.query =
      items.flatMap t.itemQueries := by
  induction items with
  | nil => rfl
  | cons item rest ih =>
      rw [List.flatMap_cons, ← ih, Timeline.itemQueries, policy, Bool.false_or]
      cases dated : Seconds.lt Seconds.zero item.duration with
      | true => simp [isUndated, dated]
      | false => simp [isUndated, dated, Job.query]

/-- The jobs for some audio items, if their sound is used. -/
def itemJobs (ownSound : Bool) (items : List (AudioItem Double)) : List Job :=
  if ownSound then [] else (items.filter isUndated).map fun item => .item item.path

theorem itemJobs_query (t : Timeline Double) (items : List (AudioItem Double)) :
    (itemJobs t.useTrackAudio items).map Job.query = items.flatMap t.itemQueries := by
  cases policy : t.useTrackAudio with
  | true => simp [itemJobs, Timeline.itemQueries, policy]
  | false =>
      rw [← itemQueries_undated policy]
      rfl

theorem prepared_jobs (t : Timeline Double) (items : List (AudioItem Double)) :
    (jobs { t with segments := t.segments.map (still t.projectType t.slide), audioItems := items
                   audioPath := .null }).map Job.query =
      t.segments.flatMap t.segmentQueries ++ items.flatMap t.itemQueries := by
  rw [jobs, List.map_append, List.map_flatMap, List.flatMap_map]
  congr 1
  · exact List.flatMap_congr fun s _ => segmentJobs_query t s
  · exact itemJobs_query t items

/-- The jobs of a prepared timeline are its questions, in order, and the answers to them fill it
in as found. -/
theorem fill_answers (f : Findings) {items : List (AudioItem Double)}
    (sequence : t.audioSequence = .ok items) {prepared : Timeline Double}
    (hp : prepare t = .ok prepared) :
    (jobs prepared).map Job.query = t.queries ∧
      f.resolve t = .ok (fill prepared ((jobs prepared).map f.answer)) := by
  rw [prepare_ok sequence] at hp
  obtain rfl := Except.ok.inj hp
  constructor
  · rw [prepared_jobs, Timeline.queries, sequence]
  · have answers := fillSegments_answers f t t.segments
      ((itemJobs t.useTrackAudio items).map f.answer)
    rw [← List.map_append] at answers
    have given : jobs { t with segments := t.segments.map (still t.projectType t.slide)
                               audioItems := items, audioPath := .null } =
        (t.segments.map (still t.projectType t.slide)).flatMap (segmentJobs t.useTrackAudio) ++
          itemJobs t.useTrackAudio items := rfl
    have filled : (if t.useTrackAudio then items
          else fillItems items ((itemJobs t.useTrackAudio items).map f.answer)).map
          (fun item => { item with duration := Seconds.max shortestItem item.duration }) =
        items.map (f.audioItem t) := by
      cases policy : t.useTrackAudio with
      | true => simp [Findings.audioItem, policy]
      | false => exact fillItems_answers f policy items
    rw [Findings.resolve, sequence, given, fill]
    simp only [answers, filled]
    rfl

end Places

namespace Run

variable {α β : Type} {steady : Host → Prop}

/-- On every steady machine the run gives this result, and the machine stays steady. -/
def Settles (steady : Host → Prop) (run : Run α) (x : α) : Prop :=
  ∀ host, steady host → (run.on host).1 = .ok x ∧ steady (run.on host).2

theorem on_bind_pure (run : Run α) (g : α → β) (host : Host) :
    (run >>= fun x => pure (g x)).on host = ((run.on host).1.map g, (run.on host).2) := by
  rw [on_bind]
  cases run.on host with
  | mk outcome after => cases outcome <;> rfl

theorem Settles.bind_pure {run : Run α} {x : α} (h : run.Settles steady x) (g : α → β) :
    Settles steady (run >>= fun x => pure (g x)) (g x) := by
  intro host hs
  obtain ⟨gives, stays⟩ := h host hs
  rw [on_bind_pure, gives]
  exact ⟨rfl, stays⟩

/-- A run that does nothing but ask gives its result, and leaves the machine that was asked. -/
theorem Settles.asking {run : Run α} {x : α} {γ : Type} {ask : Run γ} {host : Host}
    (h : run.Settles steady x) (asks : (run.on host).2 = (ask.on host).2) (g : α → β)
    (hs : steady host) :
    (run >>= fun x => pure (g x)).on host = (.ok (g x), (ask.on host).2) ∧
      steady (ask.on host).2 := by
  obtain ⟨gives, stays⟩ := h host hs
  rw [asks] at stays
  rw [on_bind_pure, gives, asks]
  exact ⟨rfl, stays⟩

/-- A row of runs that give known results goes through the machines that they leave. -/
theorem on_mapM {f : α → Run β} {g : α → β} {next : α → Host → Host}
    (each : ∀ x host, steady host →
      (f x).on host = (.ok (g x), next x host) ∧ steady (next x host))
    (xs : List α) {host : Host} (hs : steady host) :
    (xs.mapM f).on host = (.ok (xs.map g), xs.foldl (fun host x => next x host) host) := by
  induction xs generalizing host with
  | nil => rfl
  | cons x rest ih =>
      obtain ⟨first, stays⟩ := each x host hs
      rw [List.mapM_cons, on_bind, first]
      simp only [on_bind, ih stays]
      rfl

/-- Outcomes without an error among them are collected without looking at the machine. -/
theorem on_collect (xs : List α) (host : Host) :
    ((xs.map Except.ok).mapM Run.ofExcept).on host = (.ok xs, host) := by
  induction xs with
  | nil => rfl
  | cons x rest ih =>
      rw [List.map_cons, List.mapM_cons, on_bind]
      simp only [ofExcept, on_pure, on_bind, ih]

end Run

namespace Prober

variable {p : Prober} {steady : Host → Prop} {limit : Double} {f : Findings} {host : Host}

/-- While the machine is steady, what is answered about a medium hangs on its path alone, and
asking leaves the machine steady. -/
structure AnswersByPath (p : Prober) (steady : Host → Prop) : Prop where
  duration : ∀ path, ∃ v, (p.durationText path).Settles steady v
  sound : ∀ path, ∃ v, (p.soundText path).Settles steady v

/-- A probing program answers by path as long as the machine answers alike, if it never refuses
to start a probe. -/
theorem ofProgram_answersByPath (program : Value) {probes : List Value → ProbeScript}
    (startable : ∀ words, (probes words).fault ≠ some .refused) :
    (ofProgram program).AnswersByPath fun host => host.probes = probes := by
  have printed (words : List Value) :
      ∃ text, (Run.probe words).Settles (fun host => host.probes = probes) text := by
    obtain ⟨text, finds⟩ := ProbeScript.exists_found (startable words)
    refine ⟨text, fun host same => ?_⟩
    have ends := Run.probe_on words host
    rw [ends, congrFun same words, finds]
    exact ⟨rfl, same⟩
  constructor
  · intro path
    obtain ⟨text, settles⟩ := printed (durationQuery program path)
    exact ⟨.text text, settles.bind_pure Value.text⟩
  · intro path
    obtain ⟨text, settles⟩ := printed (soundQuery program path)
    exact ⟨.text text, settles.bind_pure Value.text⟩

/-- The findings are what the prober makes of the answers. -/
structure Finds (p : Prober) (steady : Host → Prop) (limit : Double) (f : Findings) : Prop where
  clip : ∀ path, (p.clipDuration path (.real limit)).Settles steady (f.clip path)
  sound : ∀ path, (p.hasSound path).Settles steady (f.sound path)
  item : ∀ path, (p.itemDuration path).Settles steady (f.item path)

def ask (p : Prober) : Query → Run Value
  | .duration path => p.durationText path
  | .sound path => p.soundText path

/-- The machine after some questions, each asked once. -/
def asked (p : Prober) (queries : List Query) (host : Host) : Host :=
  queries.foldl (fun host query => ((p.ask query).on host).2) host

theorem exists_finds (h : p.AnswersByPath steady) (limit : Double) :
    ∃ f, p.Finds steady limit f := by
  choose duration answers using h.duration
  choose sound present using h.sound
  obtain ⟨x, hx⟩ := exists_clipDuration_eq p limit
  have measured (path : Value) :
      (p.duration path).Settles steady (probedDuration (duration path)) :=
    (answers path).bind_pure probedDuration
  refine ⟨⟨fun path => Resolve.clipDuration x (probedDuration (duration path)),
    fun path => probedSound (sound path),
    fun path => Resolve.itemDuration (probedDuration (duration path))⟩, ?_, ?_, ?_⟩
  · intro path
    rw [hx]
    exact (measured path).bind_pure (Resolve.clipDuration x)
  · intro path
    exact (present path).bind_pure probedSound
  · intro path
    exact (measured path).bind_pure Resolve.itemDuration

theorem duration_snd (p : Prober) (path : Value) (host : Host) :
    ((p.duration path).on host).2 = ((p.durationText path).on host).2 := by
  rw [duration, Run.on_bind_pure]

theorem clipDuration_snd (p : Prober) (path : Value) (limit : Double) (host : Host) :
    ((p.clipDuration path (.real limit)).on host).2 = ((p.durationText path).on host).2 := by
  obtain ⟨x, hx⟩ := exists_clipDuration_eq p limit
  rw [hx, Run.on_bind_pure, duration_snd]

theorem hasSound_snd (p : Prober) (path : Value) (host : Host) :
    ((p.hasSound path).on host).2 = ((p.soundText path).on host).2 := by
  rw [hasSound, Run.on_bind_pure]

theorem itemDuration_snd (p : Prober) (path : Value) (host : Host) :
    ((p.itemDuration path).on host).2 = ((p.durationText path).on host).2 := by
  rw [itemDuration, Run.on_bind_pure, duration_snd]

theorem perform_on (h : p.Finds steady limit f) (job : Job) (host : Host) (hs : steady host) :
    (p.perform limit job).on host = (.ok (f.answer job), ((p.ask job.query).on host).2) ∧
      steady ((p.ask job.query).on host).2 := by
  cases job with
  | clip path => exact (h.clip path).asking (clipDuration_snd p path limit host) Answer.duration hs
  | sound path => exact (h.sound path).asking (hasSound_snd p path host) Answer.sound hs
  | item path => exact (h.item path).asking (itemDuration_snd p path host) Answer.duration hs

theorem asked_map (p : Prober) (jobs : List Job) (host : Host) :
    jobs.foldl (fun host job => ((p.ask job.query).on host).2) host =
      p.asked (jobs.map Job.query) host := by
  rw [asked, List.foldl_map]

theorem mapM_perform_on (h : p.Finds steady limit f) (jobs : List Job) (hs : steady host) :
    (jobs.mapM (p.perform limit)).on host =
      (.ok (jobs.map f.answer), p.asked (jobs.map Job.query) host) := by
  rw [Run.on_mapM (perform_on h) jobs hs, asked_map]

theorem performAll_on (h : p.Finds steady limit f) (jobs : List Job) (hs : steady host) :
    (p.performAll limit jobs).on host =
      (.ok (jobs.map f.answer), p.asked (jobs.map Job.query) host) := by
  have each (job : Job) (host : Host) (hs : steady host) :
      (tryCatch ((p.perform limit job).map Except.ok) fun e => pure (Except.error e) :
          Run (Except Error (Answer Double))).on host =
        (.ok (.ok (f.answer job)), ((p.ask job.query).on host).2) ∧
        steady ((p.ask job.query).on host).2 := by
    obtain ⟨gives, stays⟩ := perform_on h job host hs
    rw [Run.on_tryCatch, Run.on_map, gives]
    exact ⟨rfl, stays⟩
  rw [performAll, Run.on_bind, Run.on_mapM each jobs hs, asked_map]
  have collected := Run.on_collect (jobs.map f.answer) (p.asked (jobs.map Job.query) host)
  rw [List.map_map] at collected
  exact collected

/-- Whatever the number of workers, the timeline is filled in as found, and the machine goes
through the questions of the timeline, each once. -/
theorem resolve_on {t : Timeline Double} (h : p.Finds steady t.maxClip f) (workers : Int)
    (hs : steady host) :
    (p.resolve workers t).on host = (f.resolve t, p.asked t.queries host) := by
  cases sequence : t.audioSequence with
  | error e =>
      have stopped : prepare t = .error e := by
        rw [prepare, sequence]
        rfl
      rw [resolve, stopped, Findings.resolve, Timeline.queries, sequence]
      rfl
  | ok items =>
      obtain ⟨queries, filled⟩ := fill_answers f sequence (prepare_ok sequence)
      rw [resolve, prepare_ok sequence, Run.on_bind, filled, ← queries]
      simp only [Run.ofExcept, Run.on_pure]
      split
      · rw [Run.on_bind, mapM_perform_on h _ hs]
        rfl
      · rw [Run.on_bind, performAll_on h _ hs]
        rfl

end Prober

end Reel
