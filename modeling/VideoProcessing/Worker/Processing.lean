import VideoProcessing.Library.Json
import VideoProcessing.Library.PyFloat
import VideoProcessing.Worker.Jobs

/-!
# Reading ffprobe's report

`extract_metadata` from ffprobe's standard output on: it picks the first stream and the duration out
of the JSON, turns the duration into a `float`, and rounds a thousand times that to milliseconds.
Nothing checks that the width and the height are integers. What the output says before any rounding
is its `Report`.
-/

namespace VideoProcessing

open Python BinaryFloat

/-- What `extract_metadata` raises on an output. -/
inductive ProbeError where
  /-- `ValueError`; `json.JSONDecodeError` is one -/
  | value
  /-- `KeyError` -/
  | key (name : Str)
  /-- `IndexError` -/
  | index
  /-- `TypeError` -/
  | type
  /-- `OverflowError` -/
  | overflow
deriving DecidableEq

/-! ## The values of the output -/

/-- `value[key]`. -/
def item (value : Json.Value) (key : Str) : Except ProbeError Json.Value :=
  match value with
  | .object _ => (value.get? key).elim (.error (.key key)) .ok
  | _ => .error .type

/-- `value[0]`. -/
def firstItem : Json.Value → Except ProbeError Json.Value
  | .array (first :: _) => .ok first
  | .string (c :: _) => .ok (.string [c])
  | .array [] | .string [] => .error .index
  | .object _ => .error (.key (str "0"))
  | _ => .error .type

/-- The number is an `int`. -/
def isInteger (text : Str) : Bool := text.all fun c => c = 45 || isDecimal c

/-- The integer a value is. -/
def integer? : Json.Value → Option ℤ
  | .number text =>
    let (negative, digits) := readSign text
    if isInteger text then some (if negative then -ofDecimals digits else ofDecimals digits)
    else none
  | _ => none

/-- `float(value)` of a number: what is too large raises if it is an `int`, and is infinite if it
is a `float`. -/
def floatOfNumber (text : Str) (n : Numeral) : Except ProbeError PyFloat :=
  match n.toFloat with
  | .infinity negative => if isInteger text then .error .overflow else .ok (.infinity negative)
  | x => .ok x

/-- `round(x)`. -/
def roundFloat : PyFloat → Except ProbeError ℤ
  | .finite q => .ok (nearest q)
  | .infinity _ => .error .overflow
  | .nan => .error .value

variable (decimal : ℕ → Option ℕ)

/-- What a value denotes that `float` takes. -/
def numeral? : Json.Value → Except ProbeError Numeral
  | .string s => (Numeral.ofText? decimal s).elim (.error .value) .ok
  | .number text => (readNumeral text).elim (.error .value) .ok
  | .bool b => .ok (.exact (if b then 1 else 0))
  | _ => .error .type

/-- `float(value)`. -/
def float (value : Json.Value) : Except ProbeError PyFloat := do
  let n ← numeral? decimal value
  match value with
  | .number text => floatOfNumber text n
  | _ => return n.toFloat

/-! ## `extract_metadata` -/

/-- The `VideoMetadata` that `extract_metadata` builds. -/
structure Extracted where
  durationMs : ℤ
  width : Json.Value
  height : Json.Value

/-- `extract_metadata`, given what ffprobe printed. -/
def extractMetadata (stdout : Str) : Except ProbeError Extracted := do
  let probe ← (Json.loads stdout).elim (.error .value) .ok
  let stream ← firstItem (← item probe (str "streams"))
  let durationSeconds ← float decimal (← item (← item probe (str "format")) (str "duration"))
  return {
    durationMs := ← roundFloat (durationSeconds.mul (.finite 1000))
    width := ← item stream (str "width")
    height := ← item stream (str "height") }

/-- The metadata, when the dimensions are the integers they are taken for. -/
def Extracted.metadata? (e : Extracted) : Option VideoMetadata := do
  let width ← integer? e.width
  let height ← integer? e.height
  return ⟨e.durationMs, width, height⟩

/-- The metadata an attempt goes on with when ffprobe prints this. -/
def probed? (stdout : Str) : Option VideoMetadata :=
  (extractMetadata decimal stdout).toOption.bind Extracted.metadata?

/-! ## The report -/

/-- What ffprobe reports, exactly. -/
structure Report where
  seconds : ℚ
  width : ℤ
  height : ℤ
deriving DecidableEq

/-- The report in an output. -/
def report? (stdout : Str) : Option Report := do
  let probe ← Json.loads stdout
  let streams ← (item probe (str "streams")).toOption
  let stream ← (firstItem streams).toOption
  let format ← (item probe (str "format")).toOption
  let duration ← (item format (str "duration")).toOption
  let numeral ← (numeral? decimal duration).toOption
  let width ← (item stream (str "width")).toOption
  let height ← (item stream (str "height")).toOption
  return ⟨← numeral.exact?, ← integer? width, ← integer? height⟩

/-- The milliseconds are nearest to the seconds reported, but for the error of two roundings, which
a duration of whole microseconds does not show. -/
structure Report.Rounds (r : Report) (durationMs : ℤ) : Prop where
  nearly : |(durationMs : ℚ) - 1000 * r.seconds| ≤ 1 / 2 + 1 / 2 ^ 20
  microseconds : (∃ n : ℤ, 1000000 * r.seconds = n) →
    |(durationMs : ℚ) - 1000 * r.seconds| ≤ 1 / 2

/-- The metadata is what is reported, but for the rounding of the duration. -/
structure VideoMetadata.Measures (m : VideoMetadata) (r : Report) : Prop where
  duration : r.Rounds m.durationMs
  width : m.width = r.width
  height : m.height = r.height

variable {decimal} {stdout : Str} {r : Report} {e : Extracted} {m : VideoMetadata}
  {value : Json.Value} {x : PyFloat}

/-! ## The duration -/

/-- Two steps that may raise have both returned. -/
theorem bind_eq_ok {ε α β : Type*} {a : Except ε α} {f : α → Except ε β} {b : β}
    (h : a.bind f = .ok b) : ∃ v, a = .ok v ∧ f v = .ok b := by
  cases a with
  | error err => cases h
  | ok v => exact ⟨v, rfl, h⟩

/-- A finite float is the rounding of a number. -/
theorem float_eq_finite {q : ℚ} (h : float decimal value = .ok (.finite q)) :
    ∃ n d, numeral? decimal value = .ok n ∧ n.exact? = some d ∧ PyFloat.ofRat d = .finite q := by
  obtain ⟨n, hn, h⟩ := bind_eq_ok h
  have hfinite : n.toFloat = .finite q := by
    cases value with
    | number text =>
      change floatOfNumber text n = .ok (.finite q) at h
      rw [floatOfNumber] at h
      split at h
      · split_ifs at h
        cases h
      · exact Except.ok.inj h
    | _ => exact Except.ok.inj h
  obtain ⟨d, hd, hq⟩ := Numeral.exact_of_toFloat hfinite
  exact ⟨n, d, hn, hd, hq⟩

/-- Only finite products are rounded to an integer. -/
theorem roundFloat_eq_ok {v : ℤ} (h : roundFloat x = .ok v) :
    ∃ q, x = .finite q ∧ v = nearest q := by
  cases x with
  | finite q => exact ⟨q, rfl, (Except.ok.inj h).symm⟩
  | infinity negative => cases h
  | nan => cases h

/-- The two roundings before the last, of a duration that fits its column. -/
theorem milliseconds_near {d q y : ℚ} (hq : PyFloat.ofRat d = .finite q)
    (hy : PyFloat.ofRat (q * 1000) = .finite y) (hfits : fitsInteger (nearest y) = true) :
    |(nearest y : ℚ) - 1000 * d| ≤ 1 / 2 + 1 / 2 ^ 20 := by
  have hnearest := abs_nearest_sub_le y
  have hread := PyFloat.ofRat_near hq
  have hproduct := PyFloat.ofRat_near hy
  -- the column bounds the product, and so the number read
  have hbounded : |(nearest y : ℚ)| ≤ 2 ^ 31 := by
    have hfits := of_decide_eq_true hfits
    rw [abs_le]
    constructor <;> norm_num <;> exact_mod_cast (by omega)
  have hy_le : |y| ≤ |(nearest y : ℚ)| + |(nearest y : ℚ) - y| := by
    have := abs_sub_abs_le_abs_sub y (nearest y)
    rw [abs_sub_comm] at this
    linarith
  have hq_le : |q * 1000| ≤ |y| + |y - q * 1000| := by
    have := abs_sub_abs_le_abs_sub (q * 1000) y
    rw [abs_sub_comm] at this
    linarith
  have hd_le : |d| ≤ |q| + |q - d| := by
    have := abs_sub_abs_le_abs_sub d q
    rw [abs_sub_comm] at this
    linarith
  have hthousand : |q * 1000| = |q| * 1000 := by
    rw [abs_mul]
    norm_num
  have hsplit : |(nearest y : ℚ) - 1000 * d| ≤ |(nearest y : ℚ) - y| + |y - q * 1000| +
      |q - d| * 1000 := by
    have hfirst := abs_sub_le (nearest y : ℚ) y (1000 * d)
    have hsecond := abs_sub_le y (q * 1000) (1000 * d)
    have hlast : |q * 1000 - 1000 * d| = |q - d| * 1000 := by
      rw [mul_comm 1000 d, ← sub_mul, abs_mul]
      norm_num
    linarith
  linarith

/-- An integer number of milliseconds that is nearly nearest to a whole number of microseconds is
nearest to it. -/
theorem milliseconds_nearest {d : ℚ} {v : ℤ} (h : |(v : ℚ) - 1000 * d| ≤ 1 / 2 + 1 / 2 ^ 20)
    (hd : ∃ n : ℤ, 1000000 * d = n) : |(v : ℚ) - 1000 * d| ≤ 1 / 2 := by
  obtain ⟨n, hn⟩ := hd
  have hscaled : (v : ℚ) - 1000 * d = ((1000 * v - n : ℤ) : ℚ) / 1000 := by
    push_cast
    linarith
  rw [hscaled, abs_le] at h ⊢
  have hlow : -501 < 1000 * v - n := by
    have : (-501 : ℚ) < ((1000 * v - n : ℤ) : ℚ) := by linarith
    exact_mod_cast this
  have hhigh : 1000 * v - n < 501 := by
    have : ((1000 * v - n : ℤ) : ℚ) < 501 := by linarith
    exact_mod_cast this
  have hlow' : ((-500 : ℤ) : ℚ) ≤ ((1000 * v - n : ℤ) : ℚ) := Int.cast_le.mpr (by omega)
  have hhigh' : ((1000 * v - n : ℤ) : ℚ) ≤ ((500 : ℤ) : ℚ) := Int.cast_le.mpr (by omega)
  push_cast at hlow' hhigh' ⊢
  constructor <;> linarith

/-! ## The whole -/

/-- What is extracted is what the output reports, and the duration has been rounded three times. -/
theorem extractMetadata_eq_ok (h : extractMetadata decimal stdout = .ok e)
    (hm : e.metadata? = some m) : ∃ r q y, report? decimal stdout = some r ∧ m.width = r.width ∧
      m.height = r.height ∧ PyFloat.ofRat r.seconds = .finite q ∧
      PyFloat.ofRat (q * 1000) = .finite y ∧ m.durationMs = nearest y := by
  -- each step of the function has returned
  obtain ⟨probe, hprobe, h⟩ := bind_eq_ok h
  obtain ⟨streams, hstreams, h⟩ := bind_eq_ok h
  obtain ⟨stream, hstream, h⟩ := bind_eq_ok h
  obtain ⟨format, hformat, h⟩ := bind_eq_ok h
  obtain ⟨duration, hduration, h⟩ := bind_eq_ok h
  obtain ⟨durationSeconds, hfloat, h⟩ := bind_eq_ok h
  obtain ⟨durationMs, hround, h⟩ := bind_eq_ok h
  obtain ⟨width, hwidth, h⟩ := bind_eq_ok h
  obtain ⟨height, hheight, h⟩ := bind_eq_ok h
  obtain rfl := Except.ok.inj h
  have hloads : Json.loads stdout = some probe := by
    cases hloads : Json.loads stdout with
    | none =>
      rw [hloads] at hprobe
      cases hprobe
    | some value =>
      rw [hloads] at hprobe
      exact congrArg some (Except.ok.inj hprobe)
  -- the duration is read, multiplied and rounded
  obtain ⟨product, hproduct, rfl⟩ := roundFloat_eq_ok hround
  obtain ⟨q, rfl, hy⟩ := PyFloat.mul_eq_finite hproduct
  obtain ⟨n, d, hn, hd, hq⟩ := float_eq_finite hfloat
  obtain ⟨w, hw, hm⟩ := Option.bind_eq_some_iff.mp hm
  obtain ⟨z, hz, hm⟩ := Option.bind_eq_some_iff.mp hm
  obtain rfl := Option.some.inj hm
  refine ⟨⟨d, w, z⟩, q, product, ?_, rfl, rfl, hq, hy, rfl⟩
  simp only [report?, hloads, hstreams, hstream, hformat, hduration, hn, hwidth, hheight, hd, hw,
    hz, Except.toOption, Option.bind_eq_bind, Option.bind_some]
  rfl

/-- What ffprobe reports was extracted from its output. -/
theorem probed_eq_some (h : probed? decimal stdout = some m) :
    ∃ e, extractMetadata decimal stdout = .ok e ∧ e.metadata? = some m := by
  obtain ⟨e, he, hm⟩ := Option.bind_eq_some_iff.mp h
  refine ⟨e, ?_, hm⟩
  cases hextract : extractMetadata decimal stdout with
  | error err =>
    rw [hextract] at he
    cases he
  | ok e' =>
    rw [hextract] at he
    exact congrArg _ (Option.some.inj he)

/-- Only an output with a report yields metadata; where that fits its columns, it measures the
report. -/
theorem probed_measures (h : probed? decimal stdout = some m) : ∃ r,
    report? decimal stdout = some r ∧ m.width = r.width ∧ m.height = r.height ∧
      (fitsInteger m.durationMs = true → r.Rounds m.durationMs) := by
  obtain ⟨e, he, hm⟩ := probed_eq_some h
  obtain ⟨r, q, y, hr, hwidth, hheight, hq, hy, hduration⟩ := extractMetadata_eq_ok he hm
  refine ⟨r, hr, hwidth, hheight, fun hfits => ?_⟩
  rw [hduration] at hfits ⊢
  have hnear := milliseconds_near hq hy hfits
  exact ⟨hnear, milliseconds_nearest hnear⟩

/-- ffprobe's output for a second of 1280 by 720 pixels. -/
def ffprobeOutput : Str :=
  str "\x7b\"streams\": [\x7b\"width\": 1280, \"height\": 720\x7d], " ++
    str "\"format\": \x7b\"duration\": \"1.000000\"\x7d\x7d\n"

end VideoProcessing
