import VideoProcessing.Library.Python
import VideoProcessing.Library.Utf8

/-!
# JSON

`json.dumps` with its default separators and `ensure_ascii`, and `json.loads`. The reader takes its
recursion bound from the length of the text; objects keep their fields in the order read, and a
field looked up is the last one of its name.
-/

namespace Json

open Python Utf8

inductive Value
  | null
  | bool (b : Bool)
  /-- as it is written -/
  | number (text : Str)
  | string (s : Str)
  | array (items : List Value)
  | object (fields : List (Str × Value))

/-- The field of an object. -/
def Value.get? : Value → Str → Option Value
  | .object fields, key => fields.reverse.lookup key
  | _, _ => none

/-! ## Writing -/

/-- `\uXXXX`. -/
def escapeUnit (u : ℕ) : Str := 92 :: 117 :: hexDigits 4 u

/-- A character of a string; what is not ASCII is written as one or two UTF-16 units. -/
def escapeChar (c : ℕ) : Str :=
  if c = 34 ∨ c = 92 then [92, c]
  else if c = 10 then str "\\n"
  else if c = 13 then str "\\r"
  else if c = 9 then str "\\t"
  else if c = 12 then str "\\f"
  else if c = 8 then str "\\b"
  else if 32 ≤ c ∧ c < 127 then [c]
  else if c < 0x10000 then escapeUnit c
  else escapeUnit (0xD800 + (c - 0x10000) / 0x400) ++ escapeUnit (0xDC00 + (c - 0x10000) % 0x400)

def dumpsString (s : Str) : Str := 34 :: (s.flatMap escapeChar ++ [34])

mutual

/-- `json.dumps`. -/
def dumps : Value → Str
  | .null => str "null"
  | .bool true => str "true"
  | .bool false => str "false"
  | .number text => text
  | .string s => dumpsString s
  | .array [] => str "[]"
  | .array (item :: items) => 91 :: (dumps item ++ dumpsItems items)
  | .object [] => str "\x7b\x7d"
  | .object ((key, value) :: fields) =>
    123 :: (dumpsString key ++ str ": " ++ dumps value ++ dumpsFields fields)

/-- The items after the first, to the end of the array. -/
def dumpsItems : List Value → Str
  | [] => [93]
  | item :: items => str ", " ++ dumps item ++ dumpsItems items

/-- The fields after the first, to the end of the object. -/
def dumpsFields : List (Str × Value) → Str
  | [] => [125]
  | (key, value) :: fields =>
    str ", " ++ dumpsString key ++ str ": " ++ dumps value ++ dumpsFields fields

end

/-! ## Reading -/

/-- Skip blanks, tabs and line ends. -/
def skipWs (s : Str) : Str := s.dropWhile fun c => c = 32 || c = 9 || c = 10 || c = 13

/-- The character after a backslash, other than `u`. -/
def unescape (c : ℕ) : Option ℕ :=
  if c = 34 ∨ c = 92 ∨ c = 47 then some c
  else if c = 110 then some 10
  else if c = 114 then some 13
  else if c = 116 then some 9
  else if c = 102 then some 12
  else if c = 98 then some 8
  else none

/-- Four hexadecimal digits. -/
def readUnit : Str → Option (ℕ × Str)
  | a :: b :: c :: d :: s =>
    if [a, b, c, d].all isHexDigit then some (ofHexDigits [a, b, c, d], s) else none
  | _ => none

def isHighSurrogate (u : ℕ) : Bool := 0xD800 ≤ u && u < 0xDC00

def isLowSurrogate (u : ℕ) : Bool := 0xDC00 ≤ u && u < 0xE000

/-- The rest of a `\u` escape: the unit, joined with the next one where both make a pair. -/
def readEscape (s : Str) : Option (ℕ × Str) :=
  (readUnit s).bind fun (u, s') =>
    match s' with
    | 92 :: 117 :: s'' =>
      if isHighSurrogate u then
        (readUnit s'').map fun (u', rest) =>
          if isLowSurrogate u' then (0x10000 + (u - 0xD800) * 0x400 + (u' - 0xDC00), rest)
          else (u, s')
      else some (u, s')
    | _ => some (u, s')

/-- A string after its opening quote. -/
def scanString : ℕ → Str → Option (Str × Str)
  | 0, _ => none
  | _ + 1, [] => none
  | n + 1, c :: s =>
    if c = 34 then some ([], s)
    -- control characters must be escaped
    else if c < 32 then none
    else if c ≠ 92 then (scanString n s).map fun (t, rest) => (c :: t, rest)
    else match s with
      | [] => none
      | 117 :: s => (readEscape s).bind fun (u, s) =>
        (scanString n s).map fun (t, rest) => (u :: t, rest)
      | e :: s => (unescape e).bind fun d => (scanString n s).map fun (t, rest) => (d :: t, rest)

def isDigit (c : ℕ) : Bool := 48 ≤ c && c ≤ 57

/-- One or more digits after a beginning, or nothing. -/
def scanDigits (start s : Str) : Str × Str :=
  let digits := s.takeWhile isDigit
  if digits = [] then ([], start ++ s) else (start ++ digits, s.dropWhile isDigit)

/-- The digits before a decimal point, without leading zeros. -/
def scanInteger : Str → Option (Str × Str)
  | 48 :: s => some ([48], s)
  | s =>
    let digits := s.takeWhile isDigit
    if digits = [] then none else some (digits, s.dropWhile isDigit)

/-- `.[0-9]+`, if it follows. -/
def scanFraction : Str → Str × Str
  | 46 :: s => scanDigits [46] s
  | s => ([], s)

/-- `[eE][-+]?[0-9]+`, if it follows. -/
def scanExponent : Str → Str × Str
  | c :: s =>
    if c = 69 ∨ c = 101 then
      match s with
      | d :: s' => if d = 43 ∨ d = 45 then scanDigits [c, d] s' else scanDigits [c] s
      | [] => ([], [c])
    else ([], c :: s)
  | [] => ([], [])

/-- A number. `int` refuses more than 4300 digits. -/
def scanNumber (s : Str) : Option (Str × Str) :=
  let (sign, s) := match s with
    | 45 :: s => ([45], s)
    | s => ([], s)
  (scanInteger s).bind fun (digits, s) =>
    let (fraction, s) := scanFraction s
    let (exponent, s) := scanExponent s
    if fraction = [] ∧ exponent = [] ∧ 4300 < digits.length then none
    else some (sign ++ digits ++ fraction ++ exponent, s)

/-- A word at the beginning of the text. -/
def scanWord (word s : Str) : Option Str :=
  if word.isPrefixOf s then some (s.drop word.length) else none

/-- A value that is not a string, an array or an object. -/
def scanAtom (s : Str) : Option (Value × Str) :=
  ((scanWord (str "null") s).map (.null, ·)).or <|
  ((scanWord (str "true") s).map (.bool true, ·)).or <|
  ((scanWord (str "false") s).map (.bool false, ·)).or <|
  ((scanNumber s).map fun (text, rest) => (.number text, rest)).or <|
  [str "NaN", str "Infinity", str "-Infinity"].findSome? fun word =>
    (scanWord word s).map (.number word, ·)

mutual

/-- `scan_once`. -/
def scanValue : ℕ → Str → Option (Value × Str)
  | 0, _ => none
  | n + 1, s =>
    match s with
    | 34 :: s => (scanString n s).map fun (t, rest) => (.string t, rest)
    | 91 :: s =>
      match skipWs s with
      | 93 :: rest => some (.array [], rest)
      | s => (scanValue n s).bind fun (item, s) =>
        (scanItems n s).map fun (items, rest) => (.array (item :: items), rest)
    | 123 :: s =>
      match skipWs s with
      | 125 :: rest => some (.object [], rest)
      | s => (scanField n s).bind fun (field, s) =>
        (scanFields n s).map fun (fields, rest) => (.object (field :: fields), rest)
    | s => scanAtom s

/-- The items after the first, to the end of the array. -/
def scanItems : ℕ → Str → Option (List Value × Str)
  | 0, _ => none
  | n + 1, s =>
    match skipWs s with
    | 93 :: rest => some ([], rest)
    | 44 :: s => (scanValue n (skipWs s)).bind fun (item, s) =>
      (scanItems n s).map fun (items, rest) => (item :: items, rest)
    | _ => none

/-- A name and its value. -/
def scanField : ℕ → Str → Option ((Str × Value) × Str)
  | 0, _ => none
  | n + 1, s =>
    match s with
    | 34 :: s => (scanString n s).bind fun (key, s) =>
      match skipWs s with
      | 58 :: s => (scanValue n (skipWs s)).map fun (value, rest) => ((key, value), rest)
      | _ => none
    | _ => none

/-- The fields after the first, to the end of the object. -/
def scanFields : ℕ → Str → Option (List (Str × Value) × Str)
  | 0, _ => none
  | n + 1, s =>
    match skipWs s with
    | 125 :: rest => some ([], rest)
    | 44 :: s => (scanField n (skipWs s)).bind fun (field, s) =>
      (scanFields n s).map fun (fields, rest) => (field :: fields, rest)
    | _ => none

end

/-- `json.loads`; `none` where it raises. -/
def loads (s : Str) : Option Value :=
  if s.head? = some 0xFEFF then none
  else (scanValue (s.length + 1) (skipWs s)).bind fun (value, rest) =>
    if skipWs rest = [] then some value else none

end Json
