import Mathlib.Data.List.DropRight
import VideoProcessing.Library.BinaryFloat
import VideoProcessing.Library.Python

/-!
# Python floats

A `float` is a double, here by the number it denotes; zero has no sign. `float(text)` reads a
numeral and rounds what it denotes, so the text's exact value is at hand to compare with. Which
characters beyond ASCII are decimal digits is a parameter.
-/

namespace Python

open BinaryFloat

/-- A `float`. -/
inductive PyFloat where
  | finite (q : ℚ)
  | infinity (negative : Bool)
  | nan
deriving DecidableEq

def binary64 : Format := ⟨53, -1074⟩

/-- The double nearest to a number. -/
def PyFloat.ofRat (q : ℚ) : PyFloat :=
  if |binary64.round q| < 2 ^ 1024 then .finite (binary64.round q) else .infinity (q < 0)

/-- `x * y`. -/
def PyFloat.mul : PyFloat → PyFloat → PyFloat
  | .finite x, .finite y => .ofRat (x * y)
  | .infinity negative, .finite y =>
    if y = 0 then .nan else .infinity (negative ^^ decide (y < 0))
  | .finite x, .infinity negative =>
    if x = 0 then .nan else .infinity (decide (x < 0) ^^ negative)
  | .infinity negative, .infinity negative' => .infinity (negative ^^ negative')
  | .nan, _ | _, .nan => .nan

/-! ## Reading -/

/-- What the text of a `float` denotes. -/
inductive Numeral where
  | exact (q : ℚ)
  | infinity (negative : Bool)
  | nan
deriving DecidableEq

/-- The number, if it is one. -/
def Numeral.exact? : Numeral → Option ℚ
  | .exact q => some q
  | _ => none

def Numeral.toFloat : Numeral → PyFloat
  | .exact q => .ofRat q
  | .infinity negative => .infinity negative
  | .nan => .nan

def isDecimal (c : ℕ) : Bool := 48 ≤ c && c ≤ 57

/-- The value of decimal digits. -/
def ofDecimals (digits : Str) : ℕ := digits.foldl (fun n c => 10 * n + (c - 48)) 0

/-- `[-+]?`, and whether it was a minus. -/
def readSign : Str → Bool × Str
  | 45 :: s => (true, s)
  | 43 :: s => (false, s)
  | s => (false, s)

/-- `([eE][-+]?[0-9]+)?` and nothing after it. -/
def readExponent : Str → Option ℤ
  | [] => some 0
  | c :: s =>
    let (negative, digits) := readSign s
    if (c = 69 ∨ c = 101) ∧ digits ≠ [] ∧ digits.all isDecimal then
      some (if negative then -ofDecimals digits else ofDecimals digits)
    else none

/-- Digits with a point among them or beside them, and an exponent. -/
def readUnsigned (s : Str) : Option ℚ :=
  let whole := s.takeWhile isDecimal
  let (fraction, rest) := match s.dropWhile isDecimal with
    | 46 :: rest => (rest.takeWhile isDecimal, rest.dropWhile isDecimal)
    | rest => ([], rest)
  if whole ++ fraction = [] then none
  else (readExponent rest).map fun exponent =>
    (ofDecimals (whole ++ fraction) : ℚ) * 10 ^ (exponent - (fraction.length : ℤ))

/-- A number, or the name of one that is not finite, in any case. -/
def readNumeral (s : Str) : Option Numeral :=
  let (negative, s) := readSign s
  let name := s.map asciiLower
  if name = str "inf" ∨ name = str "infinity" then some (.infinity negative)
  else if name = str "nan" then some .nan
  else (readUnsigned s).map fun q => .exact (if negative then -q else q)

/-- Drop the underscores, each of which stands between two digits. -/
def dropUnderscores (previous : ℕ) : Str → Option Str
  | [] => if previous = 95 then none else some []
  | c :: s =>
    if c = 95 then if isDecimal previous then dropUnderscores c s else none
    else if previous = 95 ∧ ¬ isDecimal c then none
    else (dropUnderscores c s).map (c :: ·)

/-- White space that is not ASCII. -/
def isWideSpace (c : ℕ) : Bool :=
  c ∈ [0x85, 0xA0, 0x1680, 0x2028, 0x2029, 0x202F, 0x205F, 0x3000] || (0x2000 ≤ c && c ≤ 0x200A)

/-- A character as `float` reads it, given the digits that are not ASCII. -/
def toAscii (decimal : ℕ → Option ℕ) (c : ℕ) : ℕ :=
  if c < 127 then c
  else if isWideSpace c then 32
  else match decimal c with
    | some digit => 48 + digit
    | none => 63

def isAsciiSpace (c : ℕ) : Bool := c = 32 || (9 ≤ c && c ≤ 13)

/-- `s.strip()`, of ASCII white space. -/
def strip (s : Str) : Str := (s.dropWhile isAsciiSpace).rdropWhile isAsciiSpace

/-- What `float(text)` reads; `none` where it raises `ValueError`. -/
def Numeral.ofText? (decimal : ℕ → Option ℕ) (text : Str) : Option Numeral :=
  (dropUnderscores 0 (strip (text.map (toAscii decimal)))).bind readNumeral

example : Numeral.ofText? (fun _ => none) (str " -1_0.25e-1\n") = some (.exact (-41 / 40)) := by
  decide +kernel

/-! ## The error -/

variable {q x : ℚ}

/-- A finite double comes from a number, and is the one nearest to it. -/
theorem Numeral.exact_of_toFloat {n : Numeral} (h : n.toFloat = .finite x) :
    ∃ d, n.exact? = some d ∧ PyFloat.ofRat d = .finite x := by
  cases n with
  | exact d => exact ⟨d, rfl, h⟩
  | infinity negative => cases h
  | nan => cases h

/-- A finite product has finite factors. -/
theorem PyFloat.mul_eq_finite {a : PyFloat} {factor : ℚ} (h : a.mul (.finite factor) = .finite x) :
    ∃ q, a = .finite q ∧ PyFloat.ofRat (q * factor) = .finite x := by
  cases a with
  | finite q => exact ⟨q, rfl, h⟩
  | infinity negative =>
    rw [PyFloat.mul] at h
    split_ifs at h
  | nan => cases h

/-- A finite float of a number is its rounding. -/
theorem PyFloat.ofRat_eq_finite (h : PyFloat.ofRat q = .finite x) : x = binary64.round q := by
  rw [PyFloat.ofRat] at h
  split_ifs at h
  exact (PyFloat.finite.inj h).symm

/-- A double is near the number it stands for. -/
theorem PyFloat.ofRat_near (h : PyFloat.ofRat q = .finite x) :
    |x - q| ≤ |q| / 2 ^ 53 + 1 / 2 ^ 60 := by
  obtain rfl := PyFloat.ofRat_eq_finite h
  have hround := binary64.abs_round_sub_le_add q
  have hprecision : (2 : ℚ) ^ (-(binary64.precision : ℤ)) = 1 / 2 ^ 53 := by
    rw [zpow_neg, zpow_natCast, one_div]
    rfl
  have hleast : (2 : ℚ) ^ (binary64.leastExponent - 1) ≤ 1 / 2 ^ 60 := by
    have hsixty : (1 : ℚ) / 2 ^ 60 = 2 ^ (-60 : ℤ) := by norm_num
    rw [hsixty]
    exact zpow_le_zpow_right₀ one_le_two (by decide)
  rw [hprecision, mul_one_div] at hround
  exact hround.trans (by gcongr)

end Python
