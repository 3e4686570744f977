import Reel.Proofs.Number.Range
import Reel.Proofs.Timeline.Entries
import Reel.Timeline.Resolve

/-!
# The numbers of records

A number in a record is a numeral, or a double that was read from one; every number of seconds
that a timeline takes from a record is therefore one that rounding keeps. The length of the fades
is at least the shortest, the limit of clips at least zero, and the picture is given in whole
numbers.
-/
namespace Reel

namespace Double

theorem signedZero_kept (sign : Bool) : (signedZero sign).Kept :=
  (signedZero_within sign le_rfl).kept

theorem infinite_kept (sign : Bool) : (infinite sign).Kept := by
  intro v hv
  cases hv

theorem nan_kept : nan.Kept := by
  intro v hv
  cases hv

theorem zero_kept : zero.Kept := signedZero_kept false

theorem ofNumeral_kept (n : Numeral) : (ofNumeral n).Kept := by
  unfold ofNumeral
  split
  · exact signedZero_kept _
  simp only
  split
  · exact infinite_kept _
  split
  · exact signedZero_kept _
  · exact round_kept _

theorem read?_kept {s : String} {x : Double} (h : read? s = some x) : x.Kept := by
  obtain ⟨cs, -, h⟩ := Option.bind_eq_some_iff.mp h
  simp only at h
  split at h
  · exact Option.some.inj h ▸ infinite_kept _
  split at h
  · exact Option.some.inj h ▸ nan_kept
  · obtain ⟨n, -, rfl⟩ := Option.map_eq_some_iff.mp h
    exact ofNumeral_kept n

theorem max_kept {x y : Double} (hx : x.Kept) (hy : y.Kept) : (Seconds.max x y).Kept := by
  unfold Seconds.max
  split
  · exact hy
  · exact hx

end Double

theorem Value.doubleOfDecimal_kept {d : Decimal} {x : Double}
    (h : Value.doubleOfDecimal d = .ok x) : x.Kept := by
  unfold Value.doubleOfDecimal at h
  split at h
  · exact Except.ok.inj h ▸ Double.ofNumeral_kept _
  · exact Except.ok.inj h ▸ Double.infinite_kept _
  · cases h
  · exact Except.ok.inj h ▸ Double.nan_kept

theorem Value.toDoubleOrZero_real (x : Double) :
    ∃ y, (Value.real x).toDoubleOrZero = .ok y ∧ (y = x ∨ y = .zero) := by
  unfold Value.toDoubleOrZero
  split
  · exact ⟨x, rfl, .inl rfl⟩
  · exact ⟨.zero, rfl, .inr rfl⟩

theorem Timecode.secondsOr_kept {default x : Double} {v : Value} (kept : default.Kept)
    (h : Timecode.secondsOr (.real default) v = .ok x) : x.Kept := by
  unfold Timecode.secondsOr at h
  split at h
  · exact Except.ok.inj h ▸ kept
  · split at h
    · exact Except.ok.inj h ▸ kept
    · obtain ⟨time, -, h⟩ := exists_of_bind_ok h
      exact Value.doubleOfDecimal_kept h
  · obtain ⟨time, -, h⟩ := exists_of_bind_ok h
    exact Value.doubleOfDecimal_kept h

/-- What every timeline of a record has in common. -/
structure Timeline.Recorded (t : Timeline Double) : Prop where
  segments : ∀ s ∈ t.segments, s.duration.Kept
  items : ∀ item ∈ t.audioItems, item.duration.Kept
  audioDuration : t.audioDuration.Kept
  transition : ∃ x : Double, x.Kept ∧ t.transition = some (Seconds.max shortestTransition x)
  slide : t.slide.Kept
  maxClip : ∃ x : Double, x.Kept ∧ t.maxClip = Seconds.max .zero x
  width : ∃ n, t.width = .int n
  height : ∃ n, t.height = .int n
  fps : ∃ n, t.fps = .int n
  format : ∃ s, t.outputFormat = .text s

namespace Record

variable {files : Files}

theorem toDoubleOrZero_kept {x y : Double} (kept : x.Kept)
    (h : (Value.real x).toDoubleOrZero = .ok y) : y.Kept := by
  obtain ⟨z, given, rfl | rfl⟩ := Value.toDoubleOrZero_real x
  · exact Except.ok.inj (given.symm.trans h) ▸ kept
  · exact Except.ok.inj (given.symm.trans h) ▸ Double.zero_kept

theorem time_kept {default x : Double} {v : Value} (kept : default.Kept)
    (h : time default v = .ok x) : x.Kept := by
  obtain ⟨seconds, read, taken⟩ := exists_of_bind_ok h
  exact toDoubleOrZero_kept (Timecode.secondsOr_kept kept read) taken

variable [Environment]

theorem Tells.recorded {entries : Entries} {t : Timeline Double} (h : Tells files entries t) :
    t.Recorded where
  segments s mem := by
    obtain ⟨given, -, read⟩ := exists_of_bind_ok h.segments
    obtain ⟨source, -, read⟩ := exists_of_mem_mapM read s mem
    obtain ⟨_, _, _, -, -, -, -, lasting⟩ := exists_of_segment_ok read
    exact time_kept Double.zero_kept lasting
  items item mem := by
    obtain ⟨given, -, read⟩ := exists_of_bind_ok h.audioItems
    obtain ⟨source, -, read⟩ := exists_of_mem_mapM read item mem
    obtain ⟨_, _, _, -, -, -, -, lasting⟩ := exists_of_audioItem_ok read
    exact time_kept Double.zero_kept lasting
  audioDuration := time_kept Double.zero_kept h.audioDuration
  transition := by
    obtain ⟨x, read, fades⟩ := h.transition
    exact ⟨x, Timecode.secondsOr_kept (Double.round_kept 1) read, fades⟩
  slide := Timecode.secondsOr_kept (Double.round_kept 3) h.slide
  maxClip := by
    obtain ⟨x, read, limit⟩ := h.maxClip
    exact ⟨x, time_kept Double.zero_kept read, limit⟩
  width := by
    obtain ⟨_, _, w, _, -, -, width, -⟩ := h.size
    exact ⟨w, width⟩
  height := by
    obtain ⟨_, _, _, w, -, -, -, -, height⟩ := h.size
    exact ⟨w, height⟩
  fps := by
    obtain ⟨n, -, fps⟩ := h.fps
    exact ⟨n, fps⟩
  format := by
    obtain ⟨format, -, named⟩ := h.outputFormat
    exact ⟨format, named⟩

theorem timelineOf_recorded {record : Value} {t : Timeline Double}
    (h : timelineOf files record = .ok t) : t.Recorded := by
  unfold timelineOf at h
  split at h
  · exact (tells_of_timeline h).recorded
  · cases h

end Record

end Reel
