import Reel.Host
import Reel.Timeline

/-!
# Resolving durations

Before a timeline is compiled, every segment and audio item gets a duration. Images take the
time of a slide; videos and undated audio items are probed. The probes that a timeline needs
are one list of jobs, independent of each other, and their answers are filled in by place, so
neither their order in time nor the number of workers shows in the result. A medium that cannot
be read is no error: it runs for one second, or as long as clips may.
-/
namespace Reel

inductive Job where
  /-- How long a clip runs, cut to the longest clip. -/
  | clip (path : Value)
  /-- Whether a clip has sound. -/
  | sound (path : Value)
  /-- How long an audio item runs. -/
  | item (path : Value)
  deriving Repr, DecidableEq

inductive Answer (α : Type) where
  | duration (x : α)
  | sound (present : Bool)
  deriving Repr

/-- The longest time a probe is believed, about 31 years. -/
def longestProbe : Double := Double.round 1000000000

/-- The duration in a probe's answer; zero for an answer that is no time. -/
def probedDuration : Value → Double
  | .null => .zero
  | v =>
    match Double.read? (Text.strip v.shown) with
    | none => .zero
    | some x => if x.isNaN || x.isInfinite || longestProbe.lt x then .zero else x

def probedSound : Value → Bool
  | .null => false
  | v => !Text.blank v.shown

namespace Resolve

variable {α : Type} [Seconds α]

def oneSecond : α := Seconds.ofRat 1

/-- The shortest time an image or an audio item runs. -/
def shortestItem : α := Seconds.ofRat (1 / 2)

/-- A clip's time: what the probe found, cut to the limit if there is one. -/
def clipDuration (limit probed : α) : α :=
  if Seconds.le probed Seconds.zero then Seconds.max oneSecond limit
  else if Seconds.lt Seconds.zero limit && Seconds.lt limit probed then limit
  else probed

def itemDuration (probed : α) : α :=
  if Seconds.lt Seconds.zero probed then probed else oneSecond

/-- An image runs for its own time or, in a slide show, for that of a slide. It has no sound. -/
def still (projectType : ProjectType) (slide : α) (s : Segment α) : Segment α :=
  if s.isImage then
    let duration :=
      if projectType == .slideShow && Seconds.le s.duration Seconds.zero then
        Seconds.max oneSecond slide
      else s.duration
    { s with duration := Seconds.max shortestItem duration, hasAudio := .bool false }
  else s

/-- What can be filled in without probing: the images, and the list of audio items. -/
def prepare (t : Timeline α) : Except Error (Timeline α) := do
  return { t with
    segments := t.segments.map (still t.projectType t.slide)
    audioItems := ← t.audioSequence
    audioPath := .null }

def segmentJobs (ownSound : Bool) (s : Segment α) : List Job :=
  if s.isImage then []
  else if ownSound then [.clip s.path, .sound s.path]
  else [.clip s.path]

def isUndated (item : AudioItem α) : Bool := !Seconds.lt Seconds.zero item.duration

/-- The jobs of a prepared timeline. Audio items are not probed where segments bring their own
sound. -/
def jobs (t : Timeline α) : List Job :=
  t.segments.flatMap (segmentJobs t.useTrackAudio) ++
    if t.useTrackAudio then []
    else (t.audioItems.filter isUndated).map fun item => .item item.path

/-- Fills in the answers for the segments; the rest of the answers is left over. -/
def fillSegments (ownSound : Bool) :
    List (Segment α) → List (Answer α) → List (Segment α) × List (Answer α)
  | [], answers => ([], answers)
  | s :: rest, answers =>
    if s.isImage then
      let (filled, left) := fillSegments ownSound rest answers
      (s :: filled, left)
    else
      match ownSound, answers with
      | true, .duration x :: .sound present :: answers =>
        let (filled, left) := fillSegments ownSound rest answers
        ({ s with duration := x, hasAudio := .bool present } :: filled, left)
      | false, .duration x :: answers =>
        let (filled, left) := fillSegments ownSound rest answers
        ({ s with duration := x } :: filled, left)
      | _, answers => (s :: rest, answers)

/-- Fills in the answers for the undated audio items. -/
def fillItems : List (AudioItem α) → List (Answer α) → List (AudioItem α)
  | [], _ => []
  | item :: rest, answers =>
    if isUndated item then
      match answers with
      | .duration x :: answers => { item with duration := x } :: fillItems rest answers
      | answers => item :: fillItems rest answers
    else item :: fillItems rest answers

/-- Fills in all answers; audio items run for the shortest time at least. -/
def fill (t : Timeline α) (answers : List (Answer α)) : Timeline α :=
  let (segments, left) := fillSegments t.useTrackAudio t.segments answers
  let items := if t.useTrackAudio then t.audioItems else fillItems t.audioItems left
  { t with
    segments
    audioItems := items.map fun item =>
      { item with duration := Seconds.max shortestItem item.duration } }

end Resolve

/-- Who asks about media: what is answered for the duration and for the sound streams of a path,
an absent value if the medium cannot be read. -/
structure Prober where
  durationText : Value → Run Value
  soundText : Value → Run Value

namespace Prober

/-- How long a medium runs; zero if that cannot be told. -/
def duration (p : Prober) (path : Value) : Run Double :=
  return probedDuration (← p.durationText path)

def hasSound (p : Prober) (path : Value) : Run Bool :=
  return probedSound (← p.soundText path)

/-- How long a clip runs, cut to a limit of any kind. -/
def clipDuration (p : Prober) (path limit : Value) : Run Double := do
  let limit ← Run.ofExcept limit.toDoubleOrZero
  return Resolve.clipDuration limit (← p.duration path)

def itemDuration (p : Prober) (path : Value) : Run Double :=
  return Resolve.itemDuration (← p.duration path)

def perform (p : Prober) (limit : Double) : Job → Run (Answer Double)
  | .clip path => return .duration (← p.clipDuration path (.real limit))
  | .sound path => return .sound (← p.hasSound path)
  | .item path => return .duration (← p.itemDuration path)

/-- Does all jobs, each whether or not one before it is stopped, and then stops with the first
error. -/
def performAll (p : Prober) (limit : Double) (jobs : List Job) : Run (List (Answer Double)) := do
  let outcomes ← jobs.mapM fun job =>
    tryCatch ((p.perform limit job).map Except.ok) fun e => pure (Except.error e)
  outcomes.mapM Run.ofExcept

/-- Resolves a timeline. One worker stops at the first error; several take up every job. -/
def resolve (p : Prober) (workers : Int) (t : Timeline Double) : Run (Timeline Double) := do
  let prepared ← Run.ofExcept (Resolve.prepare t)
  let jobs := Resolve.jobs prepared
  let answers ←
    if workers ≤ 1 ∨ jobs.length ≤ 1 then jobs.mapM (p.perform t.maxClip)
    else p.performAll t.maxClip jobs
  return Resolve.fill prepared answers

end Prober

end Reel
