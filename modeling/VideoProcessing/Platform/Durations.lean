import VideoProcessing.Platform.Conformance
import VideoProcessing.Worker.Processing

/-!
# The metadata a client sees

ffprobe's report of an original passes a JSON reader, two roundings to doubles and one to an
integer, the retries and copies of an activity, an integer column and the response of `get_video`.
Whatever the interleaving, a duration that comes out is the reported one to the nearest millisecond.
-/

namespace VideoProcessing

open Python UnitOfWork Transitions

/-- What the columns may hold of a report. -/
def Report.readings (r : Report) : Readings
  | .durationMs => fun v => fitsInteger v = true → r.Rounds v
  | .width => fun v => v = r.width
  | .height => fun v => v = r.height

/-- ffprobe's answers are what `extract_metadata` makes of outputs with this report. -/
def Label.Extracts (decimal : ℕ → Option ℕ) (r : Report) : Label → Prop
  | .resume _ (.probed m _) => ∃ stdout, probed? decimal stdout = some m ∧
    report? decimal stdout = some r
  | _ => True

variable {decimal : ℕ → Option ℕ} {r : Report} {m : VideoMetadata} {s : State} {l : Label}

/-- Such a label reports what ffprobe has printed. -/
theorem Label.Extracts.reports (h : l.Extracts decimal r) : r.readings.Reports l := by
  cases l with
  | resume i ans =>
    cases ans with
    | probed m now =>
      obtain ⟨stdout, hm, hr⟩ := h
      obtain ⟨r', hr', hwidth, hheight, hduration⟩ := probed_measures hm
      obtain rfl : r' = r := Option.some.inj (hr'.symm.trans hr)
      intro c
      cases c with
      | durationMs => exact hduration
      | width => exact hwidth
      | height => exact hheight
    | ok | error | noConnection => trivial
  | _ => trivial

/-- A response has its metadata from the three columns. -/
theorem responseMetadata_eq_some {video : Video} (h : responseMetadata video = some m)
    (c : Column) : video.column c = some (m.column c) := by
  rw [responseMetadata] at h
  split at h
  · next hduration hwidth hheight =>
    obtain rfl := Option.some.inj h
    cases c
    exacts [hduration, hwidth, hheight]
  · cases h

/-- In every run whose probes report the same, whatever attempts overlap, fail, time out and are
repeated, the metadata of a response measures the report. -/
theorem metadata_measures {videoId : UUID} {filename key : Str} {ls : List Label}
    (hls : ∀ l ∈ ls, l.Extracts decimal r)
    (hrun : exec State.step (.created videoId filename key) ls = some s)
    (presign : Str → Str × Time) (assets : List (AssetType × Str))
    (hmetadata : (getVideo presign videoId s.rows.video assets).metadata = some m) :
    m.Measures r := by
  have hfaithful : s.Faithful r.readings := exec_invariant_of_forall_mem
    (fun _ _ _ hl h hstep => (State.Faithful.step h (Label.Extracts.reports hl) hstep).1) hls
    (State.faithful_created r.readings videoId filename key) hrun
  have hrange : s.pool.InRange := State.pool_of_reaches (Pool.inRange_created ..)
    (fun _ _ _ => Pool.InRange.step) (fun _ status h => h.withStatus status) ⟨ls, hrun⟩
  have hcolumn := responseMetadata_eq_some hmetadata
  have hreading (c : Column) : r.readings c (m.column c) :=
    hfaithful.pool.rows.columns c _ (hcolumn c)
  exact ⟨hreading .durationMs (hrange.rows.columns _ _ (hcolumn .durationMs)), hreading .width,
    hreading .height⟩

/-- The response for a video of one second. -/
theorem metadata_measures_clip : ∃ s,
    exec State.step State.clip (State.processing.take 30) = some s ∧
    (getVideo (·, 0) ⟨7⟩ s.rows.video []).metadata = some ⟨1000, 1280, 720⟩ ∧
    VideoMetadata.Measures ⟨1000, 1280, 720⟩ ⟨1, 1280, 720⟩ := by
  have hrun : (exec State.step State.clip (State.processing.take 30)).any fun s =>
      decide ((getVideo (·, 0) ⟨7⟩ s.rows.video []).metadata = some ⟨1000, 1280, 720⟩) := by
    decide +kernel
  obtain ⟨s, hs, hmetadata⟩ := (Option.any_eq_true _ _).mp hrun
  have hmetadata := of_decide_eq_true hmetadata
  have hls : ∀ l ∈ State.processing.take 30, l.Extracts (fun _ => none) ⟨1, 1280, 720⟩ := by
    have hprobes : ∀ l ∈ State.processing.take 30, l.probes ⟨1000, 1280, 720⟩ = true := by
      decide +kernel
    have hprobed : probed? (fun _ => none) ffprobeOutput = some ⟨1000, 1280, 720⟩ ∧
        report? (fun _ => none) ffprobeOutput = some ⟨1, 1280, 720⟩ := by decide +kernel
    intro l hl
    have hl := hprobes l hl
    cases l with
    | resume i ans =>
      cases ans with
      | probed m now =>
        obtain rfl : m = ⟨1000, 1280, 720⟩ := of_decide_eq_true hl
        exact ⟨ffprobeOutput, hprobed⟩
      | ok | error | noConnection => trivial
    | _ => trivial
  exact ⟨s, hs, hmetadata, metadata_measures hls hs (·, 0) [] hmetadata⟩

end VideoProcessing
