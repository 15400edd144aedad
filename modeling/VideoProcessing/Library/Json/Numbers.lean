import VideoProcessing.Library.Json

/-!
# JSON numbers

A number is read where it stands: the reader takes as much of a text as it takes of the number
alone, whatever follows it in an array or an object.
-/

namespace Json

open Python

/-- What may follow a value: nothing, a comma or a closing bracket. -/
def Delimited (rest : Str) : Prop := ∀ c ∈ rest.head?, c = 44 ∨ c = 93 ∨ c = 125

variable {rest : Str}

/-- A run of digits ends where a value does. -/
theorem Delimited.digits (h : Delimited rest) (s : Str) :
    (s ++ rest).takeWhile isDigit = s.takeWhile isDigit ∧
      (s ++ rest).dropWhile isDigit = s.dropWhile isDigit ++ rest := by
  induction s with
  | nil =>
    cases rest with
    | nil => exact ⟨rfl, rfl⟩
    | cons c rest => rcases h c rfl with rfl | rfl | rfl <;> exact ⟨rfl, rfl⟩
  | cons c s ih =>
    cases hc : isDigit c with
    | false => simp [hc]
    | true => simp [hc, ih]

/-- The digits of a number end where it is delimited. -/
theorem scanDigits_append (h : Delimited rest) (start s : Str) : scanDigits start (s ++ rest) =
    ((scanDigits start s).1, (scanDigits start s).2 ++ rest) := by
  obtain ⟨htake, hdrop⟩ := h.digits s
  simp only [scanDigits, htake, hdrop]
  split
  · rw [List.append_assoc]
  · rfl

/-- An integer that does not begin with a zero is all the digits there are. -/
theorem scanInteger_cons {c : ℕ} (hc : c ≠ 48) (s : Str) : scanInteger (c :: s) =
    if (c :: s).takeWhile isDigit = [] then none
    else some ((c :: s).takeWhile isDigit, (c :: s).dropWhile isDigit) := by
  simp [scanInteger, hc]

/-- An integer ends where it is delimited. -/
theorem scanInteger_append (h : Delimited rest) (s : Str) : scanInteger (s ++ rest) =
    (scanInteger s).map fun (digits, t) => (digits, t ++ rest) := by
  cases s with
  | nil =>
    cases rest with
    | nil => rfl
    | cons c rest => rcases h c rfl with rfl | rfl | rfl <;> rfl
  | cons c s =>
    obtain ⟨htake, hdrop⟩ := h.digits (c :: s)
    by_cases hc : c = 48
    · subst hc
      rfl
    · rw [List.cons_append] at htake hdrop ⊢
      rw [scanInteger_cons hc, scanInteger_cons hc, htake, hdrop]
      split <;> rfl

/-- So does a fraction. -/
theorem scanFraction_append (h : Delimited rest) (s : Str) : scanFraction (s ++ rest) =
    ((scanFraction s).1, (scanFraction s).2 ++ rest) := by
  cases s with
  | nil =>
    cases rest with
    | nil => rfl
    | cons c rest => rcases h c rfl with rfl | rfl | rfl <;> rfl
  | cons c s =>
    by_cases hc : c = 46
    · subst hc
      exact scanDigits_append h [46] s
    · simp [scanFraction, hc]

/-- And an exponent. -/
theorem scanExponent_append (h : Delimited rest) (s : Str) : scanExponent (s ++ rest) =
    ((scanExponent s).1, (scanExponent s).2 ++ rest) := by
  cases s with
  | nil =>
    cases rest with
    | nil => rfl
    | cons c rest => rcases h c rfl with rfl | rfl | rfl <;> rfl
  | cons c s =>
    by_cases hc : c = 69 ∨ c = 101
    · cases s with
      | nil =>
        cases rest with
        | nil => simp [scanExponent, hc]
        | cons d rest =>
          rcases h d rfl with rfl | rfl | rfl <;> simp [scanExponent, hc, scanDigits, isDigit]
      | cons d s =>
        by_cases hd : d = 43 ∨ d = 45
        · simp only [List.cons_append, scanExponent, if_pos hc, if_pos hd]
          exact scanDigits_append h [c, d] s
        · simp only [List.cons_append, scanExponent, if_pos hc, if_neg hd]
          exact scanDigits_append h [c] (d :: s)
    · simp only [List.cons_append, scanExponent, if_neg hc]

/-- A number after its sign. -/
def scanUnsigned (sign s : Str) : Option (Str × Str) :=
  (scanInteger s).bind fun (digits, s) =>
    let (fraction, s) := scanFraction s
    let (exponent, s) := scanExponent s
    if fraction = [] ∧ exponent = [] ∧ 4300 < digits.length then none
    else some (sign ++ digits ++ fraction ++ exponent, s)

/-- The sign of a number. -/
theorem scanNumber_minus (s : Str) : scanNumber (45 :: s) = scanUnsigned [45] s := rfl

/-- A number without a sign. -/
theorem scanNumber_plain {c : ℕ} (hc : c ≠ 45) (s : Str) :
    scanNumber (c :: s) = scanUnsigned [] (c :: s) := by
  simp [scanNumber, scanUnsigned, hc]

/-- A number ends where it is delimited. -/
theorem scanUnsigned_append (h : Delimited rest) (sign s : Str) : scanUnsigned sign (s ++ rest) =
    (scanUnsigned sign s).map fun (text, t) => (text, t ++ rest) := by
  rw [scanUnsigned, scanUnsigned, scanInteger_append h]
  cases scanInteger s with
  | none => rfl
  | some found =>
    simp only [Option.map_some, Option.bind_some, scanFraction_append h, scanExponent_append h]
    split <;> rfl

/-- A number is read where it stands. -/
theorem scanNumber_append (h : Delimited rest) {c : ℕ} (s : Str) :
    scanNumber (c :: s ++ rest) = (scanNumber (c :: s)).map fun (text, t) => (text, t ++ rest) := by
  by_cases hc : c = 45
  · subst hc
    rw [List.cons_append, scanNumber_minus, scanNumber_minus]
    exact scanUnsigned_append h [45] s
  · rw [List.cons_append, scanNumber_plain hc, scanNumber_plain hc, ← List.cons_append]
    exact scanUnsigned_append h [] (c :: s)

/-- A number begins with a digit or with its sign. -/
theorem scanNumber_head {c : ℕ} {s : Str} (h : (scanNumber (c :: s)).isSome) :
    c = 45 ∨ isDigit c = true := by
  by_cases hc : c = 45
  · exact .inl hc
  · rw [scanNumber_plain hc, scanUnsigned] at h
    by_cases hzero : c = 48
    · exact .inr (hzero ▸ rfl)
    · rw [scanInteger_cons hzero] at h
      cases hdigit : isDigit c with
      | true => exact .inr rfl
      | false => simp [hdigit] at h

/-- The text of a number. -/
def IsNumber (text : Str) : Prop :=
  scanNumber text = some (text, []) ∨ text ∈ [str "NaN", str "Infinity", str "-Infinity"]

/-- What a number can begin with. -/
theorem IsNumber.head {text : Str} (h : IsNumber text) :
    ∃ c t, text = c :: t ∧ (c = 45 ∨ isDigit c = true ∨ c = 78 ∨ c = 73) := by
  rcases h with h | h
  · cases text with
    | nil => cases h
    | cons c t =>
      have hhead := scanNumber_head (c := c) (s := t) (by rw [h]; rfl)
      exact ⟨c, t, rfl, hhead.imp_right .inl⟩
  · simp only [List.mem_cons, List.not_mem_nil, or_false] at h
    rcases h with rfl | rfl | rfl <;> exact ⟨_, _, rfl, by decide⟩

/-- Another first character is not the word. -/
theorem scanWord_of_ne {c d : ℕ} (h : d ≠ c) (word s : Str) :
    scanWord (d :: word) (c :: s) = none := by
  simp [scanWord, h]

/-- A number is read as a number. -/
theorem scanAtom_number {text : Str} (ht : IsNumber text) (h : Delimited rest) :
    scanAtom (text ++ rest) = some (.number text, rest) := by
  rcases ht with ht | ht
  · cases text with
    | nil => cases ht
    | cons c t =>
      have hhead := scanNumber_head (c := c) (s := t) (by rw [ht]; rfl)
      have hnumber := scanNumber_append h (c := c) t
      rw [ht] at hnumber
      have hword {d : ℕ} (hd : ¬ (d = 45 ∨ isDigit d = true)) (word : Str) :
          scanWord (d :: word) (c :: t ++ rest) = none := by
        refine scanWord_of_ne ?_ word (t ++ rest)
        rintro rfl
        exact hd hhead
      have hnull : scanWord (str "null") (c :: t ++ rest) = none := hword (d := 110) (by decide) _
      have htrue : scanWord (str "true") (c :: t ++ rest) = none := hword (d := 116) (by decide) _
      have hfalse : scanWord (str "false") (c :: t ++ rest) = none := hword (d := 102) (by decide) _
      rw [scanAtom, hnull, htrue, hfalse, hnumber]
      rfl
  · simp only [List.mem_cons, List.not_mem_nil, or_false] at ht
    rcases ht with rfl | rfl | rfl <;> rfl

/-- What begins like no string, array or object is an atom. -/
theorem scanValue_atom {n c : ℕ} (hquote : c ≠ 34) (harray : c ≠ 91) (hobject : c ≠ 123) (s : Str) :
    scanValue (n + 1) (c :: s) = scanAtom (c :: s) := by
  simp [scanValue, hquote, harray, hobject]

end Json
