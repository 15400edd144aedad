import Mathlib.Algebra.Ring.Nat
import Mathlib.Data.List.Induction
import Mathlib.Data.Nat.Notation
import Mathlib.Logic.Function.Basic

/-!
# Python text and identifiers

`Str` is a Python `str`, a sequence of code points in which lone surrogates may occur. `UUID` is
`uuid.UUID`, a 128-bit integer printed as 32 lowercase hexadecimal digits in groups of
8-4-4-4-12; reading the printed form gives the integer back.
-/

namespace Python

/-- A Python `str`: its code points. -/
abbrev Str := List ℕ

/-- A string literal. -/
def str (s : String) : Str := s.toList.map Char.toNat

/-- `uuid.UUID`. -/
structure UUID where
  int : Fin (2 ^ 128)
deriving DecidableEq

instance UUID.neZero : NeZero (2 ^ 128) := ⟨by decide⟩

/-- The lowercase hexadecimal digit of a value below 16. -/
def hexDigit (d : ℕ) : ℕ := if d < 10 then 48 + d else 87 + d

/-- `'%0*x' % (width, n)`, the last `width` hexadecimal digits of `n`. -/
def hexDigits : ℕ → ℕ → Str
  | 0, _ => []
  | width + 1, n => hexDigits width (n / 16) ++ [hexDigit (n % 16)]

/-- Put hyphens after the digits 8, 12, 16 and 20. -/
def hyphenate (digits : Str) : Str :=
  digits.take 8 ++ str "-" ++ (digits.drop 8).take 4 ++ str "-" ++ (digits.drop 12).take 4 ++
    str "-" ++ (digits.drop 16).take 4 ++ str "-" ++ digits.drop 20

/-- `str(video_id)`. -/
def UUID.str (id : UUID) : Str := hyphenate (hexDigits 32 id.int)

/-- `s.removesuffix(suffix)`. -/
def removesuffix (s suffix : Str) : Str :=
  if suffix.isSuffixOf s then s.take (s.length - suffix.length) else s

/-- A suffix that is there is removed. -/
theorem removesuffix_append (s suffix : Str) : removesuffix (s ++ suffix) suffix = s := by
  simp [removesuffix, List.isSuffixOf_iff_suffix]

/-- Without the suffix nothing is. -/
theorem removesuffix_of_not_suffix {s suffix : Str} (h : ¬ suffix <:+ s) :
    removesuffix s suffix = s := by
  rw [removesuffix, if_neg (by rwa [List.isSuffixOf_iff_suffix])]

/-- Only the text itself and the text with the suffix added lose the suffix this way. -/
theorem eq_of_removesuffix {s suffix t : Str} (h : removesuffix s suffix = t) :
    s = t ∨ s = t ++ suffix := by
  by_cases hs : suffix <:+ s
  · obtain ⟨u, rfl⟩ := hs
    rw [removesuffix_append] at h
    exact .inr (h ▸ rfl)
  · rw [removesuffix_of_not_suffix hs] at h
    exact .inl h

/-! ## Hexadecimal digits -/

/-- `[0-9a-fA-F]`. -/
def isHexDigit (c : ℕ) : Bool :=
  (48 ≤ c && c ≤ 57) || (97 ≤ c && c ≤ 102) || (65 ≤ c && c ≤ 70)

/-- The value of a hexadecimal digit of either case. -/
def hexValue (c : ℕ) : ℕ := if c ≤ 57 then c - 48 else if c ≤ 70 then c - 55 else c - 87

/-- `int(digits, 16)`. -/
def ofHexDigits (digits : Str) : ℕ := digits.foldl (fun n c => 16 * n + hexValue c) 0

/-- A digit is written as one. -/
theorem isHexDigit_hexDigit : ∀ {d : ℕ}, d < 16 → isHexDigit (hexDigit d) = true := by decide

/-- And read back. -/
theorem hexValue_hexDigit : ∀ {d : ℕ}, d < 16 → hexValue (hexDigit d) = d := by decide

@[simp] theorem length_hexDigits (width n : ℕ) : (hexDigits width n).length = width := by
  induction width generalizing n with
  | zero => rfl
  | succ width ih => rw [hexDigits, List.length_append, ih, List.length_singleton]

/-- A number is written in hexadecimal digits only. -/
theorem isHexDigit_of_mem_hexDigits {width n c : ℕ} (h : c ∈ hexDigits width n) :
    isHexDigit c = true := by
  induction width generalizing n with
  | zero => exact nomatch h
  | succ width ih =>
    rcases List.mem_append.mp h with h | h
    · exact ih h
    · obtain rfl := List.mem_singleton.mp h
      exact isHexDigit_hexDigit (Nat.mod_lt _ (by decide))

/-- Digits are read back, as far as they were wide enough. -/
theorem ofHexDigits_hexDigits (width n : ℕ) : ofHexDigits (hexDigits width n) = n % 16 ^ width := by
  induction width generalizing n with
  | zero => simp [hexDigits, ofHexDigits, Nat.mod_one]
  | succ width ih =>
    have hprefix : (hexDigits width (n / 16)).foldl (fun n c => 16 * n + hexValue c) 0 =
        n / 16 % 16 ^ width := ih (n / 16)
    rw [ofHexDigits, hexDigits, List.foldl_append, hprefix, List.foldl_cons, List.foldl_nil,
      hexValue_hexDigit (Nat.mod_lt _ (by decide)), Nat.pow_succ', Nat.mod_mul,
      Nat.add_comm]

@[simp] theorem UUID.length_str (id : UUID) : id.str.length = 36 := by
  have hhyphen : (Python.str "-").length = 1 := rfl
  simp [UUID.str, hyphenate, hhyphen]

/-- Hyphenating adds only hyphens. -/
theorem mem_hyphenate {digits : Str} {c : ℕ} (h : c ∈ hyphenate digits) : c = 45 ∨ c ∈ digits := by
  have hhyphen : Python.str "-" = [45] := rfl
  simp only [hyphenate, hhyphen, List.mem_append, List.mem_singleton] at h
  rcases h with (((((((h | h) | h) | h) | h) | h) | h) | h) | h
  · exact .inr (List.mem_of_mem_take h)
  · exact .inl h
  · exact .inr (List.mem_of_mem_drop (List.mem_of_mem_take h))
  · exact .inl h
  · exact .inr (List.mem_of_mem_drop (List.mem_of_mem_take h))
  · exact .inl h
  · exact .inr (List.mem_of_mem_drop (List.mem_of_mem_take h))
  · exact .inl h
  · exact .inr (List.mem_of_mem_drop h)

/-- An identifier is printed in ASCII. -/
theorem UUID.lt_of_mem_str {id : UUID} {c : ℕ} (h : c ∈ id.str) : c < 128 := by
  rcases mem_hyphenate h with rfl | h
  · decide
  · have hdigit := isHexDigit_of_mem_hexDigits h
    simp only [isHexDigit, Bool.or_eq_true, Bool.and_eq_true, decide_eq_true_eq] at hdigit
    omega

/-! ## Reading an identifier -/

/-- `uuid.UUID(text)` for a text of hexadecimal digits and hyphens. -/
def UUID.ofText? (text : Str) : Option UUID :=
  let hex := text.filter (· ≠ 45)
  if hex.length = 32 ∧ hex.all isHexDigit then some ⟨Fin.ofNat (2 ^ 128) (ofHexDigits hex)⟩
  else none

/-- And removes nothing else. -/
theorem filter_hyphenate (digits : Str) :
    (hyphenate digits).filter (· ≠ 45) = digits.filter (· ≠ 45) := by
  have hhyphen : (str "-").filter (· ≠ 45) = [] := rfl
  have hgroup (n k : ℕ) :
      (digits.drop n).take k ++ digits.drop (n + k) = digits.drop n := by
    rw [← List.drop_drop, List.take_append_drop]
  have hdigits : digits.take 8 ++ ((digits.drop 8).take 4 ++ ((digits.drop 12).take 4 ++
      ((digits.drop 16).take 4 ++ digits.drop 20))) = digits := by
    rw [hgroup 16 4, hgroup 12 4, hgroup 8 4, List.take_append_drop]
  rw [← congrArg (List.filter (· ≠ 45)) hdigits]
  simp only [hyphenate, List.filter_append, hhyphen, List.nil_append, List.append_assoc]

/-- The digits of the printed form. -/
theorem UUID.filter_str (id : UUID) : id.str.filter (· ≠ 45) = hexDigits 32 id.int := by
  rw [UUID.str, filter_hyphenate]
  refine List.filter_eq_self.mpr fun c hc => ?_
  have hne : c ≠ 45 := by
    rintro rfl
    exact absurd (isHexDigit_of_mem_hexDigits hc) (by decide)
  simpa using hne

/-- An identifier is read back from its text. -/
theorem UUID.ofText?_str (id : UUID) : UUID.ofText? id.str = some id := by
  have hhex {c : ℕ} (hc : c ∈ hexDigits 32 id.int) : isHexDigit c = true :=
    isHexDigit_of_mem_hexDigits hc
  have hint : (id.int : ℕ) % 16 ^ 32 = id.int := Nat.mod_eq_of_lt id.int.isLt
  rw [UUID.ofText?, UUID.filter_str]
  rw [if_pos ⟨length_hexDigits _ _, List.all_eq_true.mpr fun c => hhex⟩, ofHexDigits_hexDigits,
    hint]
  simp

/-- Identifiers are told apart by their texts. -/
theorem UUID.str_injective : Function.Injective UUID.str := by
  intro id id' h
  have hsome := id.ofText?_str
  rw [h, id'.ofText?_str] at hsome
  exact (Option.some.inj hsome).symm

/-! ## Spellings of an identifier -/

/-- The lowercase of an ASCII letter; other characters stay as they are. -/
def asciiLower (c : ℕ) : ℕ := if 65 ≤ c ∧ c ≤ 90 then c + 32 else c

/-- A text that is the printed form of an identifier up to the case of its letters. -/
def UUID.Spells (id : UUID) (text : Str) : Prop := text.map asciiLower = id.str

/-- The hexadecimal digits. -/
theorem isHexDigit_cases {c : ℕ} (hc : isHexDigit c = true) :
    (48 ≤ c ∧ c ≤ 57) ∨ (97 ≤ c ∧ c ≤ 102) ∨ (65 ≤ c ∧ c ≤ 70) := by
  simpa [isHexDigit, or_assoc] using hc

/-- A digit is written back in lower case. -/
theorem hexDigit_hexValue {c : ℕ} (hc : isHexDigit c = true) :
    hexDigit (hexValue c) = asciiLower c := by
  rcases isHexDigit_cases hc with ⟨hlow, hhigh⟩ | ⟨hlow, hhigh⟩ | ⟨hlow, hhigh⟩ <;>
    simp only [hexDigit, hexValue, asciiLower] <;> split_ifs <;> omega

/-- A digit is worth less than sixteen. -/
theorem hexValue_lt {c : ℕ} (hc : isHexDigit c = true) : hexValue c < 16 := by
  rcases isHexDigit_cases hc with ⟨hlow, hhigh⟩ | ⟨hlow, hhigh⟩ | ⟨hlow, hhigh⟩ <;>
    simp only [hexValue] <;> split_ifs <;> omega

/-- A character whose lowercase is a digit is one. -/
theorem isHexDigit_of_asciiLower {c : ℕ} (hc : isHexDigit (asciiLower c) = true) :
    isHexDigit c = true := by
  have hcases := isHexDigit_cases hc
  simp only [asciiLower] at hcases
  simp only [isHexDigit, Bool.or_eq_true, Bool.and_eq_true, decide_eq_true_eq]
  split_ifs at hcases <;> omega

/-- The last digit counts once. -/
theorem ofHexDigits_concat (digits : Str) (c : ℕ) :
    ofHexDigits (digits ++ [c]) = 16 * ofHexDigits digits + hexValue c := by
  rw [ofHexDigits, List.foldl_append]
  rfl

/-- Digits are printed again in lowercase. -/
theorem hexDigits_ofHexDigits {digits : Str} (h : ∀ c ∈ digits, isHexDigit c = true) :
    hexDigits digits.length (ofHexDigits digits) = digits.map asciiLower := by
  induction digits using List.reverseRecOn with
  | nil => rfl
  | append_singleton digits c ih =>
    obtain ⟨hdigits, hc⟩ := List.forall_mem_append.mp h
    have hc := hc c List.mem_cons_self
    have hlast := hexValue_lt hc
    have hdiv : (16 * ofHexDigits digits + hexValue c) / 16 = ofHexDigits digits := by omega
    have hmod : (16 * ofHexDigits digits + hexValue c) % 16 = hexValue c := by omega
    rw [List.length_append, List.length_singleton, hexDigits, ofHexDigits_concat, hdiv, hmod,
      ih hdigits, hexDigit_hexValue hc, List.map_append]
    rfl

/-- The bound by the number of digits. -/
theorem ofHexDigits_lt {digits : Str} (h : ∀ c ∈ digits, isHexDigit c = true) :
    ofHexDigits digits < 16 ^ digits.length := by
  induction digits using List.reverseRecOn with
  | nil => exact Nat.one_pos
  | append_singleton digits c ih =>
    obtain ⟨hdigits, hc⟩ := List.forall_mem_append.mp h
    have hlt := ih hdigits
    have hlast := hexValue_lt (hc c List.mem_cons_self)
    rw [ofHexDigits_concat, List.length_append, List.length_singleton, Nat.pow_succ]
    omega

/-- Hyphens have no case. -/
theorem map_hyphenate (digits : Str) :
    (hyphenate digits).map asciiLower = hyphenate (digits.map asciiLower) := by
  have hhyphen : (str "-").map asciiLower = str "-" := rfl
  simp only [hyphenate, List.map_append, List.map_take, List.map_drop, hhyphen]

/-- Only the hyphen has the hyphen for its lowercase. -/
theorem asciiLower_eq_hyphen {c : ℕ} : asciiLower c = 45 ↔ c = 45 := by
  rw [asciiLower]
  split_ifs <;> omega

/-- `uuid.UUID` reads the identifier whose digits the text has, in any case. -/
theorem UUID.ofText?_eq_some_iff {text : Str} {id : UUID} : UUID.ofText? text = some id ↔
    (text.filter (· ≠ 45)).map asciiLower = hexDigits 32 id.int := by
  rw [UUID.ofText?, Option.ite_none_right_eq_some]
  generalize text.filter (· ≠ 45) = hex
  constructor
  · rintro ⟨⟨hlength, hhex⟩, heq⟩
    have hhex := List.all_eq_true.mp hhex
    -- thirty-two digits print back as they are
    have hprinted := hexDigits_ofHexDigits hhex
    have hlt := ofHexDigits_lt hhex
    rw [hlength] at hprinted hlt
    have hint : (Fin.ofNat (2 ^ 128) (ofHexDigits hex) : ℕ) = ofHexDigits hex :=
      Nat.mod_eq_of_lt hlt
    rw [← Option.some.inj heq, hint, hprinted]
  · intro h
    have hlength : hex.length = 32 := by
      rw [← List.length_map asciiLower, h, length_hexDigits]
    have hhex : ∀ c ∈ hex, isHexDigit c = true := by
      intro c hc
      have hmem : asciiLower c ∈ hexDigits 32 id.int := h ▸ List.mem_map_of_mem hc
      exact isHexDigit_of_asciiLower (isHexDigit_of_mem_hexDigits hmem)
    have hvalue := congrArg ofHexDigits ((hexDigits_ofHexDigits hhex).trans h)
    rw [ofHexDigits_hexDigits, ofHexDigits_hexDigits, hlength] at hvalue
    refine ⟨⟨hlength, List.all_eq_true.mpr hhex⟩, congrArg some ?_⟩
    rw [UUID.mk.injEq, Fin.ext_iff]
    exact hvalue.trans (Nat.mod_eq_of_lt id.int.isLt)

/-- A spelling is read as its identifier. -/
theorem UUID.Spells.ofText? {id : UUID} {text : Str} (h : id.Spells text) :
    UUID.ofText? text = some id := by
  have hfilter : (text.map asciiLower).filter (· ≠ 45) =
      (text.filter (· ≠ 45)).map asciiLower := by
    simp only [List.filter_map, Function.comp_def, ne_eq, asciiLower_eq_hyphen]
  rw [UUID.ofText?_eq_some_iff, ← hfilter, h, UUID.filter_str]

end Python
