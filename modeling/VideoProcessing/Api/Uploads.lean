import VideoProcessing.Common.Models
import VideoProcessing.Common.S3Events
import VideoProcessing.Library.Pathlib

/-!
# Uploads

`CreateVideoRequest` of `api/schemas/video_request.py`, `create_video` and the message of
`retry_video` in `api/services/video_service.py`. A request that was refused has no value here, and
a `VideoTable` has only rows that `create_video` built.
-/

namespace VideoProcessing

open Python Utf8

/-! ## The request -/

/-- An entry of `ValidationError.errors()`. -/
structure ErrorDetails where
  loc : String
  msg : String
deriving DecidableEq

/-- A `str` field with a `max_length` and a validator behind it. Surrogates are no text. -/
def strField (loc : String) (maxLength : ℕ) (validate : Str → Except String Str) (s : Str) :
    Except ErrorDetails Str :=
  if ∃ c ∈ s, ¬ Scalar c then
    .error ⟨loc, "Input should be a valid string, unable to parse raw data as a unicode string"⟩
  else if maxLength < s.length then
    .error ⟨loc, s!"String should have at most {maxLength} characters"⟩
  else (validate s).mapError fun msg => ⟨loc, "Value error, " ++ msg⟩

def validateFilename (filename : Str) : Except String Str :=
  if Pathlib.name filename ≠ filename ∨ Pathlib.suffix filename = [] then
    .error "filename must be a basename with an extension"
  else .ok filename

def validateContentType (contentType : Str) : Except String Str :=
  if ¬ (str "video/").isPrefixOf contentType then .error "content_type must be a video type"
  else .ok contentType

def filenameField : Str → Except ErrorDetails Str := strField "filename" 255 validateFilename

def contentTypeField : Str → Except ErrorDetails Str :=
  strField "content_type" 255 validateContentType

/-- A request that was accepted. -/
structure CreateVideoRequest where
  filename : Str
  contentType : Str
  filename_ok : filenameField filename = .ok filename
  contentType_ok : contentTypeField contentType = .ok contentType

/-- A field accepts a text without surrogates that is short enough and valid. -/
theorem strField_eq_ok {loc : String} {maxLength : ℕ} {validate : Str → Except String Str}
    {s t : Str} : strField loc maxLength validate s = .ok t ↔
      (∀ c ∈ s, Scalar c) ∧ s.length ≤ maxLength ∧ validate s = .ok t := by
  unfold strField
  split
  · rename_i h
    simp only [reduceCtorEq, false_iff, not_and]
    intro hs
    obtain ⟨c, hc, hsurrogate⟩ := h
    exact absurd (hs c hc) hsurrogate
  · rename_i hscalar
    have hs : ∀ c ∈ s, Scalar c := fun c hc => not_not.mp fun h => hscalar ⟨c, hc, h⟩
    split
    · rename_i hlength
      simp only [reduceCtorEq, false_iff, not_and]
      intro _ h
      exact absurd hlength (Nat.not_lt.mpr h)
    · rename_i hlength
      rw [and_iff_right hs, and_iff_right (Nat.not_lt.mp hlength)]
      cases validate s <;> simp [Except.mapError]

/-- A filename is accepted as it is, if it is a base name with a suffix. -/
theorem validateFilename_eq_ok {filename t : Str} : validateFilename filename = .ok t ↔
    t = filename ∧ Pathlib.name filename = filename ∧ Pathlib.suffix filename ≠ [] := by
  unfold validateFilename
  split
  · rename_i h
    simp only [reduceCtorEq, false_iff, not_and, not_not]
    intro _ hname
    exact h.resolve_left (not_not.mpr hname)
  · rename_i h
    rw [not_or, not_not] at h
    simp [h, eq_comm]

/-- A content type is accepted as it is, if it is one of a video. -/
theorem validateContentType_eq_ok {contentType t : Str} : validateContentType contentType = .ok t ↔
    t = contentType ∧ (str "video/").isPrefixOf contentType = true := by
  unfold validateContentType
  split
  · rename_i h
    simp [h]
  · rename_i h
    rw [not_not] at h
    simp [h, eq_comm]

/-- The accepted filenames: a base name with an extension, where not only dots come before the
last dot. -/
theorem filenameField_eq_ok {filename t : Str} : filenameField filename = .ok t ↔
    t = filename ∧ (∀ c ∈ filename, Scalar c) ∧ filename.length ≤ 255 ∧ 47 ∉ filename ∧
      ∃ stem extension, filename = stem ++ 46 :: extension ∧ 46 ∉ extension ∧
        ∃ c ∈ stem, c ≠ 46 := by
  rw [filenameField, strField_eq_ok, validateFilename_eq_ok]
  constructor
  · rintro ⟨hscalar, hlength, rfl, hname, hsuffix⟩
    obtain ⟨extension, hext⟩ := Pathlib.suffix_ne_nil.mp hsuffix
    rw [Pathlib.suffix, hname] at hext
    -- the suffix is what `splitext` finds
    obtain ⟨hdot, stem, heq, hstem⟩ := Pathlib.splitext_snd.mp hext
    have hne : t ≠ [] := by
      rw [heq]
      exact List.append_ne_nil_of_right_ne_nil _ (List.cons_ne_nil _ _)
    exact ⟨rfl, hscalar, hlength, ((Pathlib.name_eq_self hne).mp hname).1, stem, extension, heq,
      hdot, hstem⟩
  · rintro ⟨rfl, hscalar, hlength, hslash, stem, extension, heq, hdot, hstem⟩
    have hne : t ≠ [] := by
      rw [heq]
      exact List.append_ne_nil_of_right_ne_nil _ (List.cons_ne_nil _ _)
    -- a stem with another character is not the name "."
    have hsingle : t ≠ [46] := by
      rintro h
      obtain ⟨c, hc, -⟩ := hstem
      rw [h] at heq
      have hlength := congrArg List.length heq
      simp only [List.length_append, List.length_cons, List.length_nil] at hlength
      have := List.length_pos_of_mem hc
      omega
    have hname := (Pathlib.name_eq_self hne).mpr ⟨hslash, hsingle⟩
    refine ⟨hscalar, hlength, rfl, hname, Pathlib.suffix_ne_nil.mpr ⟨extension, ?_⟩⟩
    rw [Pathlib.suffix, hname]
    exact Pathlib.splitext_snd.mpr ⟨hdot, stem, heq, hstem⟩

/-- The accepted content types. -/
theorem contentTypeField_eq_ok {contentType t : Str} : contentTypeField contentType = .ok t ↔
    t = contentType ∧ (∀ c ∈ contentType, Scalar c) ∧ contentType.length ≤ 255 ∧
      (str "video/").isPrefixOf contentType = true := by
  rw [contentTypeField, strField_eq_ok, validateContentType_eq_ok]
  exact ⟨fun h => ⟨h.2.2.1, h.1, h.2.1, h.2.2.2⟩, fun h => ⟨h.2.1, h.2.2.1, h.1, h.2.2.2⟩⟩

/-- What the field returns it accepts again. -/
theorem filenameField_self {s t : Str} (h : filenameField s = .ok t) : filenameField t = .ok t := by
  obtain rfl := (filenameField_eq_ok.mp h).1
  exact h

/-- The same for a content type. -/
theorem contentTypeField_self {s t : Str} (h : contentTypeField s = .ok t) :
    contentTypeField t = .ok t := by
  obtain rfl := (contentTypeField_eq_ok.mp h).1
  exact h

/-- `CreateVideoRequest(filename=..., content_type=...)`; the errors of both fields are reported. -/
def CreateVideoRequest.validate (filename contentType : Str) :
    Except (List ErrorDetails) CreateVideoRequest :=
  match hf : filenameField filename, hc : contentTypeField contentType with
  | .ok f, .ok c => .ok ⟨f, c, filenameField_self hf, contentTypeField_self hc⟩
  | .ok _, .error e => .error [e]
  | .error e, .ok _ => .error [e]
  | .error e, .error e' => .error [e, e']

/-- An error stands under the name of its field. -/
theorem strField_eq_error {loc : String} {maxLength : ℕ} {validate : Str → Except String Str}
    {s : Str} {e : ErrorDetails} (h : strField loc maxLength validate s = .error e) :
    e.loc = loc := by
  unfold strField at h
  split at h
  · exact (Except.error.inj h) ▸ rfl
  · split at h
    · exact (Except.error.inj h) ▸ rfl
    · cases hvalidate : validate s with
      | ok t =>
        rw [hvalidate] at h
        exact nomatch h
      | error msg =>
        rw [hvalidate] at h
        exact (Except.error.inj h) ▸ rfl

/-- A refused request gets one error for each field that is refused, under the field's name. -/
theorem CreateVideoRequest.validate_eq_error {filename contentType : Str} {es : List ErrorDetails}
    (h : validate filename contentType = .error es) :
    (es.map ErrorDetails.loc).Sublist ["filename", "content_type"] ∧
      ("filename" ∈ es.map ErrorDetails.loc ↔ ∀ t, filenameField filename ≠ .ok t) ∧
      ("content_type" ∈ es.map ErrorDetails.loc ↔ ∀ t, contentTypeField contentType ≠ .ok t) := by
  unfold validate at h
  split at h
  · exact nomatch h
  · rename_i e hf hc
    obtain rfl := Except.error.inj h
    simp [hf, hc, strField_eq_error hc]
  · rename_i e t hf hc
    obtain rfl := Except.error.inj h
    simp [hf, hc, strField_eq_error hf]
  · rename_i e e' hf hc
    obtain rfl := Except.error.inj h
    simp [hf, hc, strField_eq_error hf, strField_eq_error hc]

/-! ## The row -/

/-- `_build_upload_object_key`. -/
def buildUploadObjectKey (videoId : UUID) (filename : Str) : Str :=
  str "uploads/" ++ videoId.str ++ str "/original" ++ Pathlib.suffix filename

/-- The `videos` table, with the rows that `create_video` built. -/
structure VideoTable where
  row : UUID → Option Video
  built : ∀ id video, row id = some video → ∃ request : CreateVideoRequest,
    video.filename = request.filename ∧
      video.originalObjectKey = buildUploadObjectKey id request.filename

/-- The table before the first video. -/
def VideoTable.empty : VideoTable := ⟨fun _ => none, fun _ _ h => nomatch h⟩

/-- `Video(id=video_id, filename=filename, original_object_key=object_key, ...)`. -/
def builtVideo (videoId : UUID) (request : CreateVideoRequest) : Video :=
  .new request.filename (buildUploadObjectKey videoId request.filename)

/-- Add the row of a request. -/
def VideoTable.insert (table : VideoTable) (videoId : UUID) (request : CreateVideoRequest) :
    VideoTable where
  row := Function.update table.row videoId (some (builtVideo videoId request))
  built := by
    intro id video h
    by_cases hid : id = videoId
    · subst hid
      rw [Function.update_self] at h
      obtain rfl := Option.some.inj h
      exact ⟨request, rfl, rfl⟩
    · rw [Function.update_of_ne hid] at h
      exact table.built id video h

/-- `CreatedUploadDto`. -/
structure CreatedUploadDto where
  id : UUID
  video : Video
  uploadUrl : Str
  expiresAt : Time

/-- `create_video` with the identifier `uuid4` drew. `none` where the presigning fails, or the
commit because the identifier has a row. -/
def createVideo (presign : Str → Str → Option (Str × Time)) (videoId : UUID)
    (request : CreateVideoRequest) (table : VideoTable) : Option (VideoTable × CreatedUploadDto) :=
  (presign (buildUploadObjectKey videoId request.filename) request.contentType).bind
    fun (uploadUrl, expiresAt) =>
      if (table.row videoId).isSome then none
      else some (table.insert videoId request,
        ⟨videoId, builtVideo videoId request, uploadUrl, expiresAt⟩)

/-- A key names its video. -/
theorem buildUploadObjectKey_id {id id' : UUID} {filename filename' : Str}
    (h : buildUploadObjectKey id filename = buildUploadObjectKey id' filename') : id = id' := by
  simp only [buildUploadObjectKey, List.append_assoc] at h
  have hrest := List.append_cancel_left h
  exact UUID.str_injective
    (List.append_inj hrest (id.length_str.trans id'.length_str.symm)).1

/-- `original_object_key` is unique. -/
theorem VideoTable.eq_of_originalObjectKey {table : VideoTable} {id id' : UUID}
    {video video' : Video} (h : table.row id = some video) (h' : table.row id' = some video')
    (hkey : video.originalObjectKey = video'.originalObjectKey) : id = id' := by
  obtain ⟨request, -, hbuilt⟩ := table.built id video h
  obtain ⟨request', -, hbuilt'⟩ := table.built id' video' h'
  rw [hbuilt, hbuilt'] at hkey
  exact buildUploadObjectKey_id hkey

/-- The filename of an accepted request has a suffix. -/
theorem CreateVideoRequest.suffix_ne_nil (request : CreateVideoRequest) :
    Pathlib.suffix request.filename ≠ [] :=
  (validateFilename_eq_ok.mp (strField_eq_ok.mp request.filename_ok).2.2).2.2

/-- A key has no surrogates. -/
theorem CreateVideoRequest.scalar_key (request : CreateVideoRequest) (videoId : UUID) :
    ∀ c ∈ buildUploadObjectKey videoId request.filename, Scalar c := by
  obtain ⟨hfilename, -, hvalid⟩ := strField_eq_ok.mp request.filename_ok
  obtain ⟨-, hname, hsuffix⟩ := validateFilename_eq_ok.mp hvalid
  obtain ⟨extension, hextension⟩ := Pathlib.suffix_ne_nil.mp hsuffix
  rw [Pathlib.suffix, hname] at hextension
  obtain ⟨-, stem, hparts, -⟩ := Pathlib.splitext_snd.mp hextension
  have hfront : ∀ c ∈ str "uploads/", c < 128 := by decide
  have hmiddle : ∀ c ∈ str "/original", c < 128 := by decide
  have hascii {c : ℕ} (hc : c < 128) : Scalar c := .inl (by omega)
  intro c hc
  rw [buildUploadObjectKey, Pathlib.suffix, hname, hextension] at hc
  simp only [List.mem_append] at hc
  rcases hc with ((hc | hc) | hc) | hc
  · exact hascii (hfront c hc)
  · exact hascii (UUID.lt_of_mem_str hc)
  · exact hascii (hmiddle c hc)
  · exact hfilename c (hparts ▸ List.mem_append_right _ hc)

/-! ## The retry -/

/-- The setting `retry_video` reads; a `str` of a settings class has no surrogates. -/
structure Settings where
  s3BucketName : Str
  s3BucketName_ok : ∀ c ∈ s3BucketName, Scalar c

/-- The body `retry_video` publishes. -/
def retryMessage (settings : Settings) (video : Video) : Option Str :=
  buildObjectCreatedMessage settings.s3BucketName video.originalObjectKey

end VideoProcessing
