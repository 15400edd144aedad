import Mathlib.Data.Nat.Notation
import Mathlib.Tactic.SplitIfs

/-!
# UTF-8

Code points and bytes are natural numbers. `decode` never fails: like the error handler `replace`
it puts U+FFFD for every longest beginning of a character that is not continued, and for every byte
that begins none. What `encode` writes it reads back.
-/

namespace Utf8

/-- A code point that is not a surrogate. -/
def Scalar (c : ℕ) : Prop := c < 0xD800 ∨ (0xE000 ≤ c ∧ c < 0x110000)

instance (c : ℕ) : Decidable (Scalar c) := inferInstanceAs (Decidable (_ ∨ _))

def encodeChar (c : ℕ) : List ℕ :=
  if c < 0x80 then [c]
  else if c < 0x800 then [0xC0 + c / 0x40, 0x80 + c % 0x40]
  else if c < 0x10000 then [0xE0 + c / 0x1000, 0x80 + c / 0x40 % 0x40, 0x80 + c % 0x40]
  else [0xF0 + c / 0x40000, 0x80 + c / 0x1000 % 0x40, 0x80 + c / 0x40 % 0x40, 0x80 + c % 0x40]

/-- The strict encoder: surrogates have no encoding. -/
def encode (s : List ℕ) : Option (List ℕ) :=
  if s.all fun c => Scalar c then some (s.flatMap encodeChar) else none

/-- A character that has begun. -/
structure Pending where
  /-- the bytes still to come -/
  need : ℕ
  /-- the bounds of the next one -/
  low : ℕ
  high : ℕ
  /-- the bits so far -/
  value : ℕ
deriving DecidableEq

/-- A byte between characters: what it adds to the text, and the character it begins. -/
def first (b : ℕ) : List ℕ × Option Pending :=
  if b < 0x80 then ([b], none)
  else if 0xC2 ≤ b ∧ b < 0xE0 then ([], some ⟨1, 0x80, 0xBF, b - 0xC0⟩)
  else if b = 0xE0 then ([], some ⟨2, 0xA0, 0xBF, 0⟩)
  else if b = 0xED then ([], some ⟨2, 0x80, 0x9F, 0xD⟩)
  else if 0xE1 ≤ b ∧ b < 0xF0 then ([], some ⟨2, 0x80, 0xBF, b - 0xE0⟩)
  else if b = 0xF0 then ([], some ⟨3, 0x90, 0xBF, 0⟩)
  else if 0xF1 ≤ b ∧ b < 0xF4 then ([], some ⟨3, 0x80, 0xBF, b - 0xF0⟩)
  else if b = 0xF4 then ([], some ⟨3, 0x80, 0x8F, 4⟩)
  else ([0xFFFD], none)

/-- One byte. A byte that does not continue the character begins the next one. -/
def step (b : ℕ) : Option Pending → List ℕ × Option Pending
  | none => first b
  | some p =>
    if p.low ≤ b ∧ b ≤ p.high then
      let value := p.value * 0x40 + (b - 0x80)
      if p.need = 1 then ([value], none) else ([], some ⟨p.need - 1, 0x80, 0xBF, value⟩)
    else (0xFFFD :: (first b).1, (first b).2)

def decodeFrom : Option Pending → List ℕ → List ℕ
  | none, [] => []
  | some _, [] => [0xFFFD]
  | p, b :: bs => (step b p).1 ++ decodeFrom (step b p).2 bs

/-- `decode("utf-8", "replace")`. -/
def decode (bytes : List ℕ) : List ℕ := decodeFrom none bytes

/-! ## Reading back -/

/-- A byte that continues a character. -/
theorem decodeFrom_next {p : Pending} {b : ℕ} {bs : List ℕ} (hlow : p.low ≤ b) (hhigh : b ≤ p.high)
    (hneed : p.need ≠ 1) : decodeFrom (some p) (b :: bs) =
      decodeFrom (some ⟨p.need - 1, 0x80, 0xBF, p.value * 0x40 + (b - 0x80)⟩) bs := by
  simp [decodeFrom, step, hlow, hhigh, hneed]

/-- A byte that ends a character. -/
theorem decodeFrom_last {p : Pending} {b : ℕ} {bs : List ℕ} (hlow : p.low ≤ b) (hhigh : b ≤ p.high)
    (hneed : p.need = 1) : decodeFrom (some p) (b :: bs) =
      (p.value * 0x40 + (b - 0x80)) :: decodeFrom none bs := by
  simp [decodeFrom, step, hlow, hhigh, hneed]

/-- An ASCII byte is a character. -/
theorem decodeFrom_ascii {b : ℕ} {bs : List ℕ} (hb : b < 0x80) :
    decodeFrom none (b :: bs) = b :: decodeFrom none bs := by
  simp [decodeFrom, step, first, hb]

/-- A byte that begins a character. -/
theorem decodeFrom_first {b : ℕ} {bs : List ℕ} {p : Pending} (hb : first b = ([], some p)) :
    decodeFrom none (b :: bs) = decodeFrom (some p) bs := by
  simp [decodeFrom, step, hb]

/-- The first byte of two. -/
theorem first_two {b : ℕ} (hlow : 0xC2 ≤ b) (hhigh : b < 0xE0) :
    first b = ([], some ⟨1, 0x80, 0xBF, b - 0xC0⟩) := by
  rw [first, if_neg (by omega), if_pos ⟨hlow, hhigh⟩]

/-- The bounds of the second of three bytes leave out longer forms and surrogates. -/
theorem first_three : ∀ d < 0x10, first (0xE0 + d) = ([], some
    ⟨2, if d = 0 then 0xA0 else 0x80, if d = 0xD then 0x9F else 0xBF, d⟩) := by decide

/-- The bounds of the second of four bytes leave out longer forms and what is beyond U+10FFFF. -/
theorem first_four : ∀ d < 5, first (0xF0 + d) = ([], some
    ⟨3, if d = 0 then 0x90 else 0x80, if d = 4 then 0x8F else 0xBF, d⟩) := by decide

/-- An encoded character is decoded. -/
theorem decode_encodeChar {c : ℕ} (hc : Scalar c) (bs : List ℕ) :
    decodeFrom none (encodeChar c ++ bs) = c :: decodeFrom none bs := by
  have hc : c < 0xD800 ∨ (0xE000 ≤ c ∧ c < 0x110000) := hc
  unfold encodeChar
  -- one case for each length of the code
  split_ifs with h₁ h₂ h₃
  · exact decodeFrom_ascii h₁
  · simp only [List.cons_append, List.nil_append]
    rw [decodeFrom_first (first_two (by omega) (by omega)),
      decodeFrom_last (by dsimp only; omega) (by dsimp only; omega) rfl]
    refine List.cons_eq_cons.mpr ⟨?_, rfl⟩
    dsimp only
    omega
  · simp only [List.cons_append, List.nil_append]
    rw [decodeFrom_first (first_three _ (by omega)),
      decodeFrom_next (by dsimp only; split_ifs <;> omega) (by dsimp only; split_ifs <;> omega)
        (show 2 ≠ 1 by decide),
      decodeFrom_last (by dsimp only; omega) (by dsimp only; omega) rfl]
    refine List.cons_eq_cons.mpr ⟨?_, rfl⟩
    dsimp only
    omega
  · simp only [List.cons_append, List.nil_append]
    rw [decodeFrom_first (first_four _ (by omega)),
      decodeFrom_next (by dsimp only; split_ifs <;> omega) (by dsimp only; split_ifs <;> omega)
        (show 3 ≠ 1 by decide),
      decodeFrom_next (by dsimp only; omega) (by dsimp only; omega) (show 2 ≠ 1 by decide),
      decodeFrom_last (by dsimp only; omega) (by dsimp only; omega) rfl]
    refine List.cons_eq_cons.mpr ⟨?_, rfl⟩
    dsimp only
    omega

/-- A text without surrogates is read back from its encoding. -/
theorem decode_encode {s bytes : List ℕ} (h : encode s = some bytes) : decode bytes = s := by
  rw [encode, Option.ite_none_right_eq_some] at h
  obtain ⟨hs, rfl⟩ := (by simpa using h : (∀ c ∈ s, Scalar c) ∧ s.flatMap encodeChar = bytes)
  clear h
  rw [decode]
  induction s with
  | nil => rfl
  | cons c s ih =>
    obtain ⟨hc, hs⟩ := List.forall_mem_cons.mp hs
    rw [List.flatMap_cons, decode_encodeChar hc, ih hs]

/-- Its encoding is bytes. -/
theorem lt_of_mem_encodeChar {c b : ℕ} (hc : Scalar c) (hb : b ∈ encodeChar c) : b < 0x100 := by
  have hc : c < 0xD800 ∨ (0xE000 ≤ c ∧ c < 0x110000) := hc
  unfold encodeChar at hb
  split_ifs at hb <;> simp only [List.mem_cons, List.not_mem_nil, or_false] at hb <;> omega

/-- The encoder writes bytes. -/
theorem lt_of_mem_encode {s bytes : List ℕ} {b : ℕ} (h : encode s = some bytes) (hb : b ∈ bytes) :
    b < 0x100 := by
  rw [encode, Option.ite_none_right_eq_some] at h
  obtain ⟨hs, rfl⟩ := (by simpa using h : (∀ c ∈ s, Scalar c) ∧ s.flatMap encodeChar = bytes)
  obtain ⟨c, hc, hb⟩ := List.mem_flatMap.mp hb
  exact lt_of_mem_encodeChar (hs c hc) hb

/-- ASCII text is its own encoding. -/
theorem decode_ascii {bytes : List ℕ} (h : ∀ b ∈ bytes, b < 0x80) : decode bytes = bytes := by
  rw [decode]
  induction bytes with
  | nil => rfl
  | cons b bs ih =>
    obtain ⟨hb, hbs⟩ := List.forall_mem_cons.mp h
    rw [decodeFrom_ascii hb, ih hbs]

end Utf8
