import VideoProcessing.Common.S3Events

/-!
# Upload keys

Which texts `parse_video_id_from_key` takes for upload keys. The pattern ends in `$`, which also
matches before a line feed that ends the text: the keys recognised are those of the grammar and
those of the grammar with one line feed after them.

The pattern is taken apart with the lemmas on regular expressions of `Library/Regex`, and what is
captured is read as a UUID and printed again.
-/

namespace VideoProcessing

open Python

/-! ## The grammar -/

/-- The keys of the original of a video: the identifier in any case, an optional extension, an
optional backslash. -/
def UploadKey (id : UUID) (key : Str) : Prop :=
  ∃ videoId extension backslash,
    key = str "uploads/" ++ (videoId ++ (str "/original" ++ (extension ++ backslash))) ∧
      id.Spells videoId ∧
      (extension = [] ∨ ∃ e, extension = 46 :: e ∧ e ≠ [] ∧ ∀ c ∈ e, isAlnum c = true) ∧
      (backslash = [] ∨ backslash = [92])

/-- `parse_video_id_from_key` with its exceptions kept apart: `none` where `uuid.UUID` raises. -/
def parseVideoIdFromKeyResult (objectKey : Str) : Option (Option UUID) :=
  match uploadKeyMatch objectKey with
  | none => some none
  | some videoId => (UUID.ofText? videoId).map some

/-- Exactly the keys of the grammar are recognised, each with its identifier, and no other text
makes an exception. -/
def RecognisedExactly (objectKey : Str) : Prop :=
  (∀ id, parseVideoIdFromKeyResult objectKey = some (some id) ↔ UploadKey id objectKey) ∧
    ((∀ id, ¬ UploadKey id objectKey) → parseVideoIdFromKeyResult objectKey = some none)

/-! ## The group -/

/-- A text of the group is its digits with the hyphens put between them. -/
theorem videoIdPattern_hyphenate {g : Str} (hg : videoIdPattern.Matches g) :
    g = hyphenate (g.filter (· ≠ 45)) := by
  obtain ⟨a, b, c, d, e, rfl, ⟨ha, hb, hc, hd, he⟩, hx⟩ := videoIdPattern_matches.mp hg
  rw [filter_group hx]
  simp (disch := omega) [hyphenate, List.drop_append, List.drop_of_length_le, ha, hb, hc]

/-- A hyphen is its own lower case. -/
theorem eq_hyphen {s : Str} (h : s.map asciiLower = str "-") : s = str "-" := by
  obtain ⟨c, rfl, hc⟩ := List.map_eq_singleton_iff.mp h
  rw [asciiLower_eq_hyphen.mp hc]
  rfl

/-- The group leaves the case of its letters open. -/
theorem videoIdPattern_of_map {g : Str} (hg : videoIdPattern.Matches (g.map asciiLower)) :
    videoIdPattern.Matches g := by
  obtain ⟨a, b, c, d, e, heq, ⟨ha, hb, hc, hd, he⟩, hx⟩ := videoIdPattern_matches.mp hg
  obtain ⟨a, _, rfl, rfl, heq₁⟩ := List.map_eq_append_iff.mp heq
  obtain ⟨h₁, _, rfl, hh₁, heq₂⟩ := List.map_eq_append_iff.mp heq₁
  obtain ⟨b, _, rfl, rfl, heq₃⟩ := List.map_eq_append_iff.mp heq₂
  obtain ⟨h₂, _, rfl, hh₂, heq₄⟩ := List.map_eq_append_iff.mp heq₃
  obtain ⟨c, _, rfl, rfl, heq₅⟩ := List.map_eq_append_iff.mp heq₄
  obtain ⟨h₃, _, rfl, hh₃, heq₆⟩ := List.map_eq_append_iff.mp heq₅
  obtain ⟨d, _, rfl, rfl, heq₇⟩ := List.map_eq_append_iff.mp heq₆
  obtain ⟨h₄, e, rfl, hh₄, rfl⟩ := List.map_eq_append_iff.mp heq₇
  rw [List.length_map] at ha hb hc hd he
  obtain rfl := eq_hyphen hh₁
  obtain rfl := eq_hyphen hh₂
  obtain rfl := eq_hyphen hh₃
  obtain rfl := eq_hyphen hh₄
  refine videoIdPattern_matches.mpr ⟨a, b, c, d, e, rfl, ⟨ha, hb, hc, hd, he⟩, ?_⟩
  intro x hmem
  refine isHexDigit_of_asciiLower (hx _ ?_)
  simp only [← List.map_append]
  exact List.mem_map_of_mem hmem

/-- The spellings of an identifier are the texts of the group that `uuid.UUID` reads as it. -/
theorem spells_iff {id : UUID} {g : Str} :
    id.Spells g ↔ videoIdPattern.Matches g ∧ UUID.ofText? g = some id := by
  constructor
  · intro h
    have hmap : g.map asciiLower = id.str := h
    exact ⟨videoIdPattern_of_map (hmap ▸ videoIdPattern_str id), h.ofText?⟩
  · rintro ⟨hg, h⟩
    have hdigits := UUID.ofText?_eq_some_iff.mp h
    rw [UUID.Spells, videoIdPattern_hyphenate hg, map_hyphenate, hdigits]
    rfl

/-! ## The whole key -/

/-- What is recognised: a key of the grammar, and what `$` lets stand after it. -/
theorem parseVideoIdFromKey_eq_some_iff {id : UUID} {objectKey : Str} :
    parseVideoIdFromKey objectKey = some id ↔
      ∃ key rest, objectKey = key ++ rest ∧ UploadKey id key ∧ atEnd rest = true := by
  have hlong : (Regex.literal (str "uploads/")).Long 8 := Regex.literal_long _
  simp only [parseVideoIdFromKey, uploadKeyMatch, Option.bind_eq_some_iff,
    Regex.capture_eq_some_iff hlong videoIdPattern_long, Regex.literal_matches,
    originalPattern_matches]
  constructor
  · rintro ⟨g, ⟨_, _, rest, rfl, rfl, hg, ⟨extension, backslash, rfl, hext, hback⟩, hrest⟩, hid⟩
    refine ⟨_, rest, ?_, ⟨g, extension, backslash, rfl, spells_iff.mpr ⟨hg, hid⟩, hext, hback⟩,
      hrest⟩
    simp only [List.append_assoc]
  · rintro ⟨_, rest, rfl, ⟨g, extension, backslash, rfl, hspells, hext, hback⟩, hrest⟩
    obtain ⟨hg, hid⟩ := spells_iff.mp hspells
    refine ⟨g, ⟨_, _, rest, ?_, rfl, hg, ⟨extension, backslash, rfl, hext, hback⟩, hrest⟩, hid⟩
    simp only [List.append_assoc]

/-- `uuid.UUID` raises at no text of the group. -/
theorem parseVideoIdFromKeyResult_eq (objectKey : Str) :
    parseVideoIdFromKeyResult objectKey = some (parseVideoIdFromKey objectKey) := by
  have hlong : (Regex.literal (str "uploads/")).Long 8 := Regex.literal_long _
  rw [parseVideoIdFromKeyResult, parseVideoIdFromKey]
  cases hmatch : uploadKeyMatch objectKey with
  | none => rfl
  | some g =>
    obtain ⟨_, _, _, -, -, hg, -⟩ :=
      (Regex.capture_eq_some_iff hlong videoIdPattern_long).mp hmatch
    obtain ⟨id, hid⟩ := Option.isSome_iff_exists.mp (isSome_ofText hg)
    simp only [Option.bind_some, hid, Option.map_some]

/-- No key of the grammar ends in a line feed. -/
theorem UploadKey.ne_concat {id : UUID} {key : Str} (h : UploadKey id key) (word : Str) :
    key ≠ word ++ [10] := by
  obtain ⟨videoId, extension, backslash, rfl, -, hext, hback⟩ := h
  have hnot : 10 ∉ str "/original" ++ (extension ++ backslash) := by
    simp only [List.mem_append, not_or]
    refine ⟨by decide, ?_, ?_⟩
    · rcases hext with rfl | ⟨e, rfl, -, he⟩
      · exact List.not_mem_nil
      · intro hmem
        rcases List.mem_cons.mp hmem with heq | hmem
        · exact absurd heq (by decide)
        · exact absurd (he 10 hmem) (by decide)
    · rcases hback with rfl | rfl <;> decide
  have hne : str "/original" ++ (extension ++ backslash) ≠ [] :=
    List.append_ne_nil_of_left_ne_nil (by decide) _
  intro heq
  -- the last character is one of `/original` or of what follows it
  have hlast := congrArg List.getLast? heq
  rw [← List.append_assoc, List.getLast?_append_of_ne_nil _ hne, List.getLast?_concat] at hlast
  exact hnot (List.mem_of_getLast? hlast)

/-- Exactly the keys of the grammar are recognised but for one line feed after such a key. -/
theorem recognisedExactly_iff (objectKey : Str) : RecognisedExactly objectKey ↔
    ∀ id key, UploadKey id key → objectKey ≠ key ++ [10] := by
  simp only [RecognisedExactly, parseVideoIdFromKeyResult_eq, Option.some.injEq]
  constructor
  · rintro ⟨hexact, -⟩ id key hkey rfl
    -- `$` lets the line feed stand, and with it the text is no key of the grammar
    have hparse := parseVideoIdFromKey_eq_some_iff.mpr ⟨key, [10], rfl, hkey, rfl⟩
    exact ((hexact id).mp hparse).ne_concat key rfl
  · intro hline
    have hexact (id : UUID) : parseVideoIdFromKey objectKey = some id ↔ UploadKey id objectKey := by
      rw [parseVideoIdFromKey_eq_some_iff]
      constructor
      · rintro ⟨key, rest, rfl, hkey, hrest⟩
        have hrest : rest = [] ∨ rest = [10] := by simpa [atEnd] using hrest
        rcases hrest with rfl | rfl
        · rwa [List.append_nil]
        · exact absurd rfl (hline id key hkey)
      · intro hkey
        exact ⟨objectKey, [], (List.append_nil _).symm, hkey, rfl⟩
    refine ⟨hexact, fun hnone => ?_⟩
    cases hparse : parseVideoIdFromKey objectKey with
    | none => rfl
    | some id => exact absurd ((hexact id).mp hparse) (hnone id)

/-- The line feed after a key is overlooked. -/
theorem not_recognisedExactly : ¬ RecognisedExactly
    (str "uploads/28e8c6e2-9a4b-4c1d-8f3e-5d6a7b8c9d0e/original.mp4\n") := by
  intro h
  have hsome : (parseVideoIdFromKeyResult
      (str "uploads/28e8c6e2-9a4b-4c1d-8f3e-5d6a7b8c9d0e/original.mp4\n")).any
      Option.isSome = true := by decide +kernel
  obtain ⟨result, hresult, hid⟩ := (Option.any_eq_true _ _).mp hsome
  obtain ⟨id, rfl⟩ := Option.isSome_iff_exists.mp hid
  exact ((h.1 id).mp hresult).ne_concat
    (str "uploads/28e8c6e2-9a4b-4c1d-8f3e-5d6a7b8c9d0e/original.mp4") (by decide +kernel)

end VideoProcessing
