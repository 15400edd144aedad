import VideoProcessing.Library.Json

/-!
# JSON strings

A string is read back from what `dumps` writes of it, with its surrogates joined: two that make a
pair are read as the character they stand for, and a text without surrogates stays as it is.
-/

namespace Json

open Python Utf8

/-! ## Surrogates -/

/-- A text as it is read back: surrogates that make a pair are joined. -/
def joinSurrogates : Str → Str
  | u :: u' :: s =>
    if isHighSurrogate u && isLowSurrogate u' then
      (0x10000 + (u - 0xD800) * 0x400 + (u' - 0xDC00)) :: joinSurrogates s
    else u :: joinSurrogates (u' :: s)
  | s => s

/-- The range of the high surrogates. -/
theorem isHighSurrogate_iff {u : ℕ} : isHighSurrogate u = true ↔ 0xD800 ≤ u ∧ u < 0xDC00 := by
  simp [isHighSurrogate]

/-- The range of the low surrogates. -/
theorem isLowSurrogate_iff {u : ℕ} : isLowSurrogate u = true ↔ 0xDC00 ≤ u ∧ u < 0xE000 := by
  simp [isLowSurrogate]

/-- Everything outside of it. -/
theorem isHighSurrogate_eq_false {u : ℕ} :
    isHighSurrogate u = false ↔ u < 0xD800 ∨ 0xDC00 ≤ u := by
  rw [Bool.eq_false_iff, ne_eq, isHighSurrogate_iff]
  omega

/-- Everything outside of it. -/
theorem isLowSurrogate_eq_false {u : ℕ} : isLowSurrogate u = false ↔ u < 0xDC00 ∨ 0xE000 ≤ u := by
  rw [Bool.eq_false_iff, ne_eq, isLowSurrogate_iff]
  omega

/-- Only a high surrogate is joined with what follows. -/
theorem joinSurrogates_cons {c : ℕ} (hc : isHighSurrogate c = false) (s : Str) :
    joinSurrogates (c :: s) = c :: joinSurrogates s := by
  cases s with
  | nil => rfl
  | cons d s => simp only [joinSurrogates, hc, Bool.false_and, Bool.false_eq_true, if_false]

/-- A scalar value is no surrogate. -/
theorem isHighSurrogate_of_scalar {c : ℕ} (hc : Scalar c) : isHighSurrogate c = false := by
  have hc : c < 0xD800 ∨ (0xE000 ≤ c ∧ c < 0x110000) := hc
  rw [isHighSurrogate_eq_false]
  omega

/-- A scalar value is a code point. -/
theorem lt_of_scalar {c : ℕ} (hc : Scalar c) : c < 0x110000 := by
  have hc : c < 0xD800 ∨ (0xE000 ≤ c ∧ c < 0x110000) := hc
  omega

/-- A text without surrogates stays as it is. -/
theorem joinSurrogates_of_scalar {s : Str} (hs : ∀ c ∈ s, Scalar c) : joinSurrogates s = s := by
  induction s with
  | nil => rfl
  | cons c s ih =>
    obtain ⟨hc, hs⟩ := List.forall_mem_cons.mp hs
    rw [joinSurrogates_cons (isHighSurrogate_of_scalar hc), ih hs]

/-- No other text is read as one of ASCII characters. -/
theorem joinSurrogates_eq_iff {s t : Str} (ht : ∀ c ∈ t, c < 0x80) :
    joinSurrogates s = t ↔ s = t := by
  constructor
  · fun_induction joinSurrogates s generalizing t with
    | case1 u u' s hpair ih =>
      rintro rfl
      have := ht _ List.mem_cons_self
      omega
    | case2 u u' s hpair ih =>
      rintro rfl
      exact congrArg (u :: ·) (ih (fun c hc => ht c (List.mem_cons_of_mem _ hc)) rfl)
    | case3 s hs => exact id
  · rintro rfl
    exact joinSurrogates_of_scalar fun c hc => .inl (Nat.lt_trans (ht c hc) (by decide))

/-! ## Escapes -/

/-- Four hexadecimal digits are read back. -/
theorem readUnit_hexDigits {u : ℕ} (hu : u < 0x10000) (s : Str) :
    readUnit (hexDigits 4 u ++ s) = some (u, s) := by
  have hall : (hexDigits 4 u).all isHexDigit = true :=
    List.all_eq_true.mpr fun c => isHexDigit_of_mem_hexDigits
  have hvalue : ofHexDigits (hexDigits 4 u) = u := by
    rw [ofHexDigits_hexDigits]
    exact Nat.mod_eq_of_lt hu
  match hdigits : hexDigits 4 u, length_hexDigits 4 u with
  | [a, b, c, d], _ =>
    rw [hdigits] at hall hvalue
    simp only [List.cons_append, List.nil_append, readUnit, hall, if_true, hvalue]

/-- A unit that is not the first of a pair stands for itself. -/
theorem readEscape_unit {u : ℕ} (hu : u < 0x10000) (hhigh : isHighSurrogate u = false) (s : Str) :
    readEscape (hexDigits 4 u ++ s) = some (u, s) := by
  rw [readEscape, readUnit_hexDigits hu, Option.bind_some]
  dsimp only
  split
  · rw [hhigh]
    rfl
  · rfl

/-- So does one that no other unit follows. -/
theorem readEscape_last {u : ℕ} (hu : u < 0x10000) {s : Str} (hs : ∀ t, s ≠ 92 :: 117 :: t) :
    readEscape (hexDigits 4 u ++ s) = some (u, s) := by
  rw [readEscape, readUnit_hexDigits hu, Option.bind_some]
  dsimp only
  split
  · exact absurd rfl (hs _)
  · rfl

/-- So does one that a unit other than the second of a pair follows. -/
theorem readEscape_next {u u' : ℕ} (hu : u < 0x10000) (hu' : u' < 0x10000)
    (hlow : isLowSurrogate u' = false) (s : Str) :
    readEscape (hexDigits 4 u ++ (escapeUnit u' ++ s)) = some (u, escapeUnit u' ++ s) := by
  rw [readEscape, readUnit_hexDigits hu, Option.bind_some]
  simp only [escapeUnit, List.cons_append]
  split
  · rw [readUnit_hexDigits hu', Option.map_some]
    simp only [hlow, Bool.false_eq_true, if_false]
  · rfl

/-- An escaped pair is one character. -/
theorem readEscape_pair {u u' : ℕ} (hhigh : isHighSurrogate u = true)
    (hlow : isLowSurrogate u' = true) (s : Str) :
    readEscape (hexDigits 4 u ++ (escapeUnit u' ++ s)) =
      some (0x10000 + (u - 0xD800) * 0x400 + (u' - 0xDC00), s) := by
  have hu := isHighSurrogate_iff.mp hhigh
  have hu' := isLowSurrogate_iff.mp hlow
  rw [readEscape, readUnit_hexDigits (by omega), Option.bind_some]
  simp only [escapeUnit, List.cons_append, hhigh, if_true]
  rw [readUnit_hexDigits (by omega), Option.map_some]
  simp only [hlow, if_true]

/-- What is written of a character: a simple escape, the character itself, its unit, or the two
units of a pair. -/
inductive Escape (c : ℕ) : Str → Prop
  | simple {e : ℕ} (h : unescape e = some c) : Escape c [92, e]
  | plain (h : 32 ≤ c) (hquote : c ≠ 34) (hslash : c ≠ 92) : Escape c [c]
  | unit (h : c < 0x10000) : Escape c (escapeUnit c)
  | pair (h : 0x10000 ≤ c) : Escape c (escapeUnit (0xD800 + (c - 0x10000) / 0x400) ++
      escapeUnit (0xDC00 + (c - 0x10000) % 0x400))

/-- Every character has one of the escapes. -/
theorem escape_escapeChar (c : ℕ) : Escape c (escapeChar c) := by
  unfold escapeChar
  split_ifs with h₁ h₂ h₃ h₄ h₅ h₆ h₇ h₈
  · rcases h₁ with rfl | rfl <;> exact .simple rfl
  · exact .simple (e := 110) (by rw [h₂]; rfl)
  · exact .simple (e := 114) (by rw [h₃]; rfl)
  · exact .simple (e := 116) (by rw [h₄]; rfl)
  · exact .simple (e := 102) (by rw [h₅]; rfl)
  · exact .simple (e := 98) (by rw [h₆]; rfl)
  · exact .plain h₇.1 (fun h => h₁ (.inl h)) fun h => h₁ (.inr h)
  · exact .unit h₈
  · exact .pair (Nat.le_of_not_lt h₈)

/-- The letter of a unit is none of a simple escape. -/
theorem ne_of_unescape {c e : ℕ} (h : unescape e = some c) : e ≠ 117 := by
  rintro rfl
  cases h

/-- A unit followed by a character that is not the second of a pair. -/
theorem readEscape_escapeChar {u c : ℕ} (hu : u < 0x10000) (hc : c < 0x110000)
    (hlow : isLowSurrogate c = false) (s : Str) :
    readEscape (hexDigits 4 u ++ (escapeChar c ++ s)) = some (u, escapeChar c ++ s) := by
  have hescape := escape_escapeChar c
  generalize escapeChar c = w at hescape ⊢
  cases hescape with
  | simple h =>
    refine readEscape_last hu fun t heq => ne_of_unescape h ?_
    exact (List.cons.inj (List.cons.inj heq).2).1
  | plain _ _ hslash => exact readEscape_last hu fun t heq => hslash (List.cons.inj heq).1
  | unit h => exact readEscape_next hu h hlow s
  | pair h =>
    have hhigh : isLowSurrogate (0xD800 + (c - 0x10000) / 0x400) = false :=
      isLowSurrogate_eq_false.mpr (by omega)
    rw [List.append_assoc]
    exact readEscape_next hu (by omega) hhigh _

/-! ## Whole strings -/

/-- A short escape is one character. -/
theorem scanString_simple {n c e : ℕ} (hc : unescape e = some c) (s : Str) :
    scanString (n + 1) (92 :: e :: s) =
      (scanString n s).map fun (t, rest) => (c :: t, rest) := by
  -- so the branch for a unit is not taken
  have he := ne_of_unescape hc
  simp [scanString, hc]

/-- An escaped unit is read with the one that belongs to it. -/
theorem scanString_unit (n : ℕ) (s : Str) : scanString (n + 1) (92 :: 117 :: s) =
    (readEscape s).bind fun (u, s) => (scanString n s).map fun (t, rest) => (u :: t, rest) := rfl

/-- Any other character stands for itself. -/
theorem scanString_plain {n c : ℕ} (hc : 32 ≤ c) (hquote : c ≠ 34) (hslash : c ≠ 92) (s : Str) :
    scanString (n + 1) (c :: s) = (scanString n s).map fun (t, rest) => (c :: t, rest) := by
  have hcontrol : ¬ c < 32 := by omega
  simp [scanString, hquote, hcontrol, hslash]

/-- Two units that make a pair. -/
theorem scanString_pair {n u u' : ℕ} (hhigh : isHighSurrogate u = true)
    (hlow : isLowSurrogate u' = true) (s : Str) :
    scanString (n + 1) (escapeUnit u ++ (escapeUnit u' ++ s)) = (scanString n s).map
      fun (t, rest) => ((0x10000 + (u - 0xD800) * 0x400 + (u' - 0xDC00)) :: t, rest) := by
  change scanString (n + 1) (92 :: 117 :: (hexDigits 4 u ++ (escapeUnit u' ++ s))) = _
  rw [scanString_unit, readEscape_pair hhigh hlow, Option.bind_some]

/-- An escaped character is read back, unless it can be the first of a pair. -/
theorem scanString_escapeChar {n c : ℕ} (hc : c < 0x110000) (hhigh : isHighSurrogate c = false)
    (s : Str) : scanString (n + 1) (escapeChar c ++ s) =
      (scanString n s).map fun (t, rest) => (c :: t, rest) := by
  have hescape := escape_escapeChar c
  generalize escapeChar c = w at hescape ⊢
  cases hescape with
  | simple h => exact scanString_simple h s
  | plain h hquote hslash => exact scanString_plain h hquote hslash s
  | unit h =>
    rw [escapeUnit, List.cons_append, List.cons_append, scanString_unit, readEscape_unit h hhigh,
      Option.bind_some]
  | pair h =>
    have hfirst : isHighSurrogate (0xD800 + (c - 0x10000) / 0x400) = true :=
      isHighSurrogate_iff.mpr (by omega)
    have hsecond : isLowSurrogate (0xDC00 + (c - 0x10000) % 0x400) = true :=
      isLowSurrogate_iff.mpr (by omega)
    have heq : 0x10000 + (0xD800 + (c - 0x10000) / 0x400 - 0xD800) * 0x400 +
        (0xDC00 + (c - 0x10000) % 0x400 - 0xDC00) = c := by omega
    rw [List.append_assoc, scanString_pair hfirst hsecond, heq]

/-- A surrogate is written as a unit. -/
theorem escapeChar_surrogate {c : ℕ} (hlow : 0xD800 ≤ c) (hhigh : c < 0xE000) :
    escapeChar c = escapeUnit c := by
  rw [escapeChar, if_neg (by omega), if_neg (by omega), if_neg (by omega), if_neg (by omega),
    if_neg (by omega), if_neg (by omega), if_neg (by omega), if_pos (by omega)]

/-- A surrogate that begins no pair. -/
theorem scanString_surrogate {n u : ℕ} (hhigh : isHighSurrogate u = true) {s : Str}
    (hs : readEscape (hexDigits 4 u ++ s) = some (u, s)) : scanString (n + 1) (escapeChar u ++ s) =
      (scanString n s).map fun (t, rest) => (u :: t, rest) := by
  obtain ⟨hlow, hlt⟩ := isHighSurrogate_iff.mp hhigh
  rw [escapeChar_surrogate hlow (Nat.lt_trans hlt (by decide)), escapeUnit, List.cons_append,
    List.cons_append, scanString_unit, hs, Option.bind_some]

/-- An escaped string is read back, with its surrogates joined. -/
theorem scanString_flatMap {s : Str} (hs : ∀ c ∈ s, c < 0x110000) {n : ℕ} (hn : s.length < n)
    (rest : Str) :
    scanString n (s.flatMap escapeChar ++ 34 :: rest) = some (joinSurrogates s, rest) := by
  fun_induction joinSurrogates s generalizing n with
  | case1 u u' s hpair ih =>
    obtain ⟨n, rfl⟩ := Nat.exists_eq_add_one_of_ne_zero (Nat.ne_zero_of_lt hn)
    obtain ⟨hhigh, hlow⟩ := Bool.and_eq_true_iff.mp hpair
    have hu := isHighSurrogate_iff.mp hhigh
    have hu' := isLowSurrogate_iff.mp hlow
    simp only [List.forall_mem_cons] at hs
    simp only [List.length_cons] at hn
    rw [List.flatMap_cons, List.flatMap_cons, escapeChar_surrogate (by omega) (by omega),
      escapeChar_surrogate (by omega) (by omega), List.append_assoc, List.append_assoc,
      scanString_pair hhigh hlow, ih hs.2.2 (by omega), Option.map_some]
  | case2 u u' s hpair ih =>
    obtain ⟨n, rfl⟩ := Nat.exists_eq_add_one_of_ne_zero (Nat.ne_zero_of_lt hn)
    obtain ⟨hu, hs⟩ := List.forall_mem_cons.mp hs
    have htail := ih hs (Nat.lt_of_succ_lt_succ hn)
    rw [List.flatMap_cons, List.append_assoc]
    cases hhigh : isHighSurrogate u with
    | false => rw [scanString_escapeChar hu hhigh, htail, Option.map_some]
    | true =>
      -- the next character is written as no unit, or as one that makes no pair with this
      have hlow : isLowSurrogate u' = false := by simpa [hhigh] using hpair
      have hread : readEscape (hexDigits 4 u ++ ((u' :: s).flatMap escapeChar ++ 34 :: rest)) =
          some (u, (u' :: s).flatMap escapeChar ++ 34 :: rest) := by
        have hlt := (isHighSurrogate_iff.mp hhigh).2
        rw [List.flatMap_cons, List.append_assoc]
        exact readEscape_escapeChar (by omega) (hs u' List.mem_cons_self) hlow _
      rw [scanString_surrogate hhigh hread, htail, Option.map_some]
  | case3 s hshort =>
    obtain ⟨n, rfl⟩ := Nat.exists_eq_add_one_of_ne_zero (Nat.ne_zero_of_lt hn)
    match s, hs with
    | [], _ => rfl
    | [u], hs =>
      obtain ⟨n, rfl⟩ :=
        Nat.exists_eq_add_one_of_ne_zero (Nat.ne_zero_of_lt (Nat.lt_of_succ_lt_succ hn))
      have hlast : scanString (n + 1) (34 :: rest) = some ([], rest) := rfl
      rw [List.flatMap_singleton]
      cases hhigh : isHighSurrogate u with
      | false =>
        rw [scanString_escapeChar (hs u List.mem_cons_self) hhigh, hlast, Option.map_some]
      | true =>
        have hlt := (isHighSurrogate_iff.mp hhigh).2
        have hread := readEscape_last (u := u) (by omega) (s := 34 :: rest) (by simp)
        rw [scanString_surrogate hhigh hread, hlast, Option.map_some]
    | u :: u' :: s, _ => exact absurd rfl (hshort u u' s)

/-- No character is written as nothing. -/
theorem escapeChar_ne_nil (c : ℕ) : escapeChar c ≠ [] := by
  have hescape := escape_escapeChar c
  generalize escapeChar c = w at hescape ⊢
  cases hescape <;> exact List.cons_ne_nil _ _

/-- Escaping makes no string shorter. -/
theorem length_le_flatMap (s : Str) : s.length ≤ (s.flatMap escapeChar).length := by
  induction s with
  | nil => exact Nat.le_refl _
  | cons c s ih =>
    have hc := List.length_pos_iff.mpr (escapeChar_ne_nil c)
    rw [List.flatMap_cons, List.length_append, List.length_cons]
    omega

/-- A string between its quotes. -/
theorem scanString_dumpsString {s : Str} (hs : ∀ c ∈ s, c < 0x110000) {n : ℕ}
    (hn : (dumpsString s).length ≤ n + 1) (rest : Str) :
    dumpsString s ++ rest = 34 :: (s.flatMap escapeChar ++ 34 :: rest) ∧
      scanString n (s.flatMap escapeChar ++ 34 :: rest) = some (joinSurrogates s, rest) := by
  refine ⟨by simp [dumpsString], scanString_flatMap hs ?_ rest⟩
  have hlength := length_le_flatMap s
  rw [dumpsString, List.length_cons, List.length_append, List.length_singleton] at hn
  omega

end Json
