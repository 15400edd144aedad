import VideoProcessing.Library.Python
import VideoProcessing.Library.Utf8

/-!
# Quoting in URLs

`quote_plus` and `unquote_plus` of `urllib.parse`. What the first writes the second reads back.
-/

namespace Url

open Python Utf8

/-! ## Quoting -/

/-- `_ALWAYS_SAFE`: letters, digits and `_.-~`. -/
def alwaysSafe (b : ℕ) : Bool :=
  (65 ≤ b && b ≤ 90) || (97 ≤ b && b ≤ 122) || (48 ≤ b && b ≤ 57) ||
    b = 95 || b = 46 || b = 45 || b = 126

/-- The uppercase hexadecimal digit of a value below 16. -/
def upperHexDigit (d : ℕ) : ℕ := if d < 10 then 48 + d else 55 + d

def quoteByte (safe : Str) (b : ℕ) : Str :=
  if alwaysSafe b || safe.contains b then [b]
  else [37, upperHexDigit (b / 16), upperHexDigit (b % 16)]

/-- `quote(s, safe)`; `none` where `s` cannot be encoded. -/
def quote (safe s : Str) : Option Str := (encode s).map fun bytes => bytes.flatMap (quoteByte safe)

/-- `s.replace(old, new)` for single characters. -/
def replaceChar (old new : ℕ) (s : Str) : Str := s.map fun c => if c = old then new else c

def quotePlus (s : Str) : Option Str :=
  if 32 ∈ s then (quote [32] s).map (replaceChar 32 43) else quote [] s

/-! ## Unquoting -/

/-- `unquote_to_bytes` of an ASCII text. -/
def unquoteToBytes : Str → List ℕ
  | [] => []
  | 37 :: a :: b :: s =>
    if isHexDigit a && isHexDigit b then (16 * hexValue a + hexValue b) :: unquoteToBytes s
    else 37 :: unquoteToBytes (a :: b :: s)
  | c :: s => c :: unquoteToBytes s

/-- The parts of `unquote`: every run of ASCII characters is decoded, the others stay. -/
def unquoteParts (run : Str) : Str → Str
  | [] => decode (unquoteToBytes run)
  | c :: s =>
    if c < 0x80 then unquoteParts (run ++ [c]) s
    else decode (unquoteToBytes run) ++ c :: unquoteParts [] s

def unquote (s : Str) : Str := if 37 ∈ s then unquoteParts [] s else s

def unquotePlus (s : Str) : Str := unquote (replaceChar 43 32 s)

/-! ## Reading back -/

variable {safe s q : Str}

/-- A safe byte is ASCII, and neither a space, a percent sign nor a plus. -/
theorem alwaysSafe_bounds {b : ℕ} (h : alwaysSafe b = true) :
    b < 0x80 ∧ b ≠ 32 ∧ b ≠ 37 ∧ b ≠ 43 := by
  simp only [alwaysSafe, Bool.or_eq_true, Bool.and_eq_true, decide_eq_true_eq] at h
  omega

/-- The digits `quote` writes. -/
theorem upperHexDigit_bounds : ∀ {d : ℕ}, d < 16 →
    (48 ≤ upperHexDigit d ∧ upperHexDigit d ≤ 57) ∨
      (65 ≤ upperHexDigit d ∧ upperHexDigit d ≤ 70) := by decide

/-- They are hexadecimal digits. -/
theorem isHexDigit_upperHexDigit : ∀ {d : ℕ}, d < 16 → isHexDigit (upperHexDigit d) = true := by
  decide

/-- And are read back. -/
theorem hexValue_upperHexDigit : ∀ {d : ℕ}, d < 16 → hexValue (upperHexDigit d) = d := by decide

/-- What a byte is written as: itself, or three characters that are always safe but for the
percent sign. -/
theorem mem_quoteByte {b c : ℕ} (hb : b < 0x100) (hc : c ∈ quoteByte safe b) :
    c < 0x80 ∧ c ≠ 32 ∧ c ≠ 43 ∨ c = b ∧ b ∈ safe := by
  unfold quoteByte at hc
  split at hc
  · rename_i hsafe
    obtain rfl := List.mem_singleton.mp hc
    rcases Bool.or_eq_true_iff.mp hsafe with halways | hmem
    · obtain ⟨hlt, hspace, -, hplus⟩ := alwaysSafe_bounds halways
      exact .inl ⟨hlt, hspace, hplus⟩
    · exact .inr ⟨rfl, by simpa using hmem⟩
  · left
    have hhigh := upperHexDigit_bounds (d := b / 16) (by omega)
    have hlow := upperHexDigit_bounds (d := b % 16) (by omega)
    simp only [List.mem_cons, List.not_mem_nil, or_false] at hc
    omega

/-- What is not quoted stands for itself. -/
theorem unquoteToBytes_cons {c : ℕ} (hc : c ≠ 37) (s : Str) :
    unquoteToBytes (c :: s) = c :: unquoteToBytes s := by
  rw [unquoteToBytes.eq_def]
  split
  · rename_i heq
    exact nomatch heq
  · rename_i heq
    exact absurd (List.cons.inj heq).1 hc
  · rename_i heq
    obtain ⟨rfl, rfl⟩ := List.cons.inj heq
    rfl

/-- A quoted byte is read back. -/
theorem unquoteToBytes_quoteByte {b : ℕ} (hb : b < 0x100) (hsafe : 37 ∉ safe) (s : Str) :
    unquoteToBytes (quoteByte safe b ++ s) = b :: unquoteToBytes s := by
  unfold quoteByte
  split
  · rename_i hb
    refine unquoteToBytes_cons ?_ s
    rintro rfl
    exact absurd hb (by simpa using ⟨by decide, hsafe⟩)
  · have hhigh : b / 16 < 16 := by omega
    have hlow : b % 16 < 16 := by omega
    simp only [List.cons_append, List.nil_append, unquoteToBytes, isHexDigit_upperHexDigit hhigh,
      isHexDigit_upperHexDigit hlow, Bool.and_self, if_true, hexValue_upperHexDigit hhigh,
      hexValue_upperHexDigit hlow]
    rw [Nat.div_add_mod]

/-- So are quoted bytes. -/
theorem unquoteToBytes_flatMap {bytes : List ℕ} (hbytes : ∀ b ∈ bytes, b < 0x100)
    (hsafe : 37 ∉ safe) : unquoteToBytes (bytes.flatMap (quoteByte safe)) = bytes := by
  induction bytes with
  | nil => rfl
  | cons b bs ih =>
    obtain ⟨hb, hbs⟩ := List.forall_mem_cons.mp hbytes
    rw [List.flatMap_cons, unquoteToBytes_quoteByte hb hsafe, ih hbs]

/-- Without a percent sign nothing is unquoted. -/
theorem unquoteToBytes_of_not_mem (h : 37 ∉ s) : unquoteToBytes s = s := by
  induction s with
  | nil => rfl
  | cons c s ih =>
    obtain ⟨hc, hs⟩ := not_or.mp fun hmem => h (List.mem_cons.mpr hmem)
    rw [unquoteToBytes_cons (Ne.symm hc), ih hs]

/-- An ASCII text is unquoted as a whole. -/
theorem unquoteParts_ascii (h : ∀ c ∈ s, c < 0x80) (run : Str) :
    unquoteParts run s = decode (unquoteToBytes (run ++ s)) := by
  induction s generalizing run with
  | nil => rw [unquoteParts, List.append_nil]
  | cons c s ih =>
    obtain ⟨hc, hs⟩ := List.forall_mem_cons.mp h
    rw [unquoteParts, if_pos hc, ih hs, List.append_assoc]
    rfl

/-- ASCII text is decoded as a whole. -/
theorem unquote_ascii (h : ∀ c ∈ s, c < 0x80) : unquote s = decode (unquoteToBytes s) := by
  rw [unquote]
  split
  · rw [unquoteParts_ascii h, List.nil_append]
  · rename_i hmem
    rw [unquoteToBytes_of_not_mem hmem, decode_ascii h]

/-- A character that is not there is not replaced. -/
theorem replaceChar_of_not_mem {old new : ℕ} (h : old ∉ s) : replaceChar old new s = s := by
  have hsame : ∀ c ∈ s, (if c = old then new else c) = id c := by
    intro c hc
    refine if_neg ?_
    rintro rfl
    exact h hc
  rw [replaceChar, List.map_congr_left hsame, List.map_id]

/-- Replacing a character by one that does not occur can be undone. -/
theorem replaceChar_replaceChar {old new : ℕ} (h : new ∉ s) :
    replaceChar new old (replaceChar old new s) = s := by
  have hsame : ∀ c ∈ s, (if (if c = old then new else c) = new then old else
      (if c = old then new else c)) = id c := by
    intro c hc
    by_cases hold : c = old
    · simp [hold]
    · have hnew : c ≠ new := fun heq => h (heq ▸ hc)
      simp [hold, hnew]
  rw [replaceChar, replaceChar, List.map_map]
  exact (List.map_congr_left hsame).trans (List.map_id s)

/-- What a quoted text is made of. -/
theorem mem_quote {c : ℕ} (hq : quote safe s = some q) (hc : c ∈ q) :
    c < 0x80 ∧ c ≠ 32 ∧ c ≠ 43 ∨ c ∈ safe := by
  obtain ⟨bytes, hbytes, rfl⟩ := Option.map_eq_some_iff.mp hq
  obtain ⟨b, hb, hc⟩ := List.mem_flatMap.mp hc
  rcases mem_quoteByte (lt_of_mem_encode hbytes hb) hc with h | ⟨rfl, hmem⟩
  exacts [.inl h, .inr hmem]

/-- Where only ASCII characters other than the percent sign are spared, a quoted text is read
back. -/
theorem unquote_quote (hsafe : ∀ c ∈ safe, c < 0x80 ∧ c ≠ 37) (hq : quote safe s = some q) :
    unquote q = s := by
  have hascii : ∀ c ∈ q, c < 0x80 := fun c hc =>
    (mem_quote hq hc).elim And.left fun hmem => (hsafe c hmem).1
  obtain ⟨bytes, hbytes, rfl⟩ := Option.map_eq_some_iff.mp hq
  rw [unquote_ascii hascii, unquoteToBytes_flatMap (fun b hb => lt_of_mem_encode hbytes hb)
    fun hmem => (hsafe 37 hmem).2 rfl, decode_encode hbytes]

/-- `unquote_plus` reads back what `quote_plus` writes. -/
theorem unquotePlus_quotePlus (hq : quotePlus s = some q) : unquotePlus q = s := by
  rw [quotePlus] at hq
  split at hq
  · obtain ⟨q', hquote, rfl⟩ := Option.map_eq_some_iff.mp hq
    have hplus : 43 ∉ q' := fun hmem => by
      rcases mem_quote hquote hmem with h | h
      · exact h.2.2 rfl
      · exact absurd h (by decide)
    rw [unquotePlus, replaceChar_replaceChar hplus]
    exact unquote_quote (by decide) hquote
  · have hplus : 43 ∉ q := fun hmem => by
      rcases mem_quote hq hmem with h | h
      · exact h.2.2 rfl
      · exact nomatch h
    rw [unquotePlus, replaceChar_of_not_mem hplus]
    exact unquote_quote (by decide) hq

/-- A text without surrogates can be quoted. -/
theorem quotePlus_isSome (h : ∀ c ∈ s, Scalar c) : (quotePlus s).isSome := by
  have hencode : encode s = some (s.flatMap encodeChar) := by
    rw [encode, if_pos]
    simpa using h
  rw [quotePlus]
  split <;> simp [quote, hencode]

/-- A quoted text is ASCII. -/
theorem lt_of_mem_quotePlus {c : ℕ} (hq : quotePlus s = some q) (hc : c ∈ q) : c < 0x80 := by
  rw [quotePlus] at hq
  split at hq
  · obtain ⟨q', hquote, rfl⟩ := Option.map_eq_some_iff.mp hq
    obtain ⟨d, hd, rfl⟩ := List.mem_map.mp hc
    split
    · decide
    · rename_i hne
      exact (mem_quote hquote hd).elim And.left fun hmem => absurd (List.mem_singleton.mp hmem) hne
  · exact (mem_quote hq hc).elim And.left fun hmem => nomatch hmem

/-- It has no surrogates. -/
theorem scalar_of_mem_quotePlus (hq : quotePlus s = some q) : ∀ c ∈ q, Scalar c :=
  fun _ hc => .inl (Nat.lt_trans (lt_of_mem_quotePlus hq hc) (by decide))

end Url
