import VideoProcessing.Api.Uploads
import VideoProcessing.Worker.Shim

/-!
# Which uploads are recognised

The filenames a request may have, the keys built from them and the keys the shim accepts, over a
table whose rows `create_video` built. The three agree exactly on the filenames whose extension is
one or more letters and digits.

The extension is what is left of a filename from its last dot. The key has it after the video's id,
where the shim's pattern wants letters and digits alone.
-/

namespace VideoProcessing

open Python Utf8 Shim

/-- The reads of a table that always answers. -/
def VideoTable.read (table : VideoTable) (videoId : UUID) : Option (Option Video) :=
  some (table.row videoId)

/-- The message is read as one event, which resolves to the video. -/
def ResolvesTo (table : VideoTable) (messageBody : Str) (videoId : UUID) : Prop :=
  ∃ event, parseObjectCreatedEvents messageBody = some [event] ∧
    resolveVideoId table.read event.key = some (some videoId)

/-- The keys that resolve to a video are its own and its own with a backslash, and it is what S3's
notification of the upload and the message of a retry resolve to. -/
def Recognised (settings : Settings) (table : VideoTable) : Prop :=
  (∀ objectKey videoId, resolveVideoId table.read objectKey = some (some videoId) ↔
    ∃ video, table.row videoId = some video ∧
      (objectKey = video.originalObjectKey ∨ objectKey = video.originalObjectKey ++ str "\\")) ∧
  ∀ videoId video, table.row videoId = some video →
    (∀ messageBody, Notifies messageBody video.originalObjectKey →
      ResolvesTo table messageBody videoId) ∧
    ∃ messageBody, retryMessage settings video = some messageBody ∧
      ResolvesTo table messageBody videoId

/-- The extension of the filename is a dot and one or more letters and digits. -/
def PlainExtension (filename : Str) : Prop :=
  ∃ extension, Pathlib.suffix filename = 46 :: extension ∧ extension ≠ [] ∧
    ∀ c ∈ extension, isAlnum c = true

/-- A backslash is no letter or digit. -/
theorem isAlnum_ne_backslash {c : ℕ} (h : isAlnum c = true) : c ≠ 92 := by
  rintro rfl
  exact absurd h (by decide)

/-- A key is recognised with a backslash behind it only where its extension is plain. -/
theorem plainExtension_of_tail {filename : Str} (hsuffix : Pathlib.suffix filename ≠ [])
    (h : OriginalTail (Pathlib.suffix filename ++ str "\\")) : PlainExtension filename := by
  obtain ⟨extension, backslash, rest, heq, hextension, hbackslash, hrest⟩ := h
  have hlast := congrArg List.getLast? heq
  have hrest : rest = [] ∨ rest = [10] := by simpa [atEnd] using hrest
  -- the text ends in the backslash, so not in a line end
  rcases hrest with rfl | rfl
  · rcases hbackslash with rfl | rfl
    · simp only [List.append_nil] at heq
      rcases hextension with rfl | ⟨e, rfl, -, he⟩
      · exact absurd heq (List.append_ne_nil_of_left_ne_nil hsuffix _)
      · have hmem : 92 ∈ 46 :: e := heq ▸ List.mem_append_right _ (List.mem_singleton_self 92)
        rcases List.mem_cons.mp hmem with hdot | hmem
        · exact absurd hdot (by decide)
        · exact absurd rfl (isAlnum_ne_backslash (he 92 hmem))
    · have hsame : Pathlib.suffix filename = extension := List.append_cancel_right heq
      rcases hextension with rfl | ⟨e, rfl, hne, he⟩
      · exact absurd hsame hsuffix
      · exact ⟨e, hsame, hne, he⟩
  · rw [← List.append_assoc, List.getLast?_concat] at hlast
    exact absurd ((List.getLast?_concat ..).symm.trans hlast) (by decide)

/-- A plain extension is one the pattern knows, with a backslash or without. -/
theorem PlainExtension.tail {filename : Str} (h : PlainExtension filename) :
    OriginalTail (Pathlib.suffix filename) ∧
      OriginalTail (Pathlib.suffix filename ++ str "\\") := by
  obtain ⟨extension, hsuffix, hne, halnum⟩ := h
  refine ⟨⟨_, [], [], ?_, .inr ⟨extension, hsuffix, hne, halnum⟩, .inl rfl, rfl⟩,
    ⟨_, [92], [], ?_, .inr ⟨extension, hsuffix, hne, halnum⟩, .inr rfl, rfl⟩⟩
  · simp
  · rfl

/-- A key with a plain extension does not end in a backslash. -/
theorem PlainExtension.removesuffix {filename : Str} (h : PlainExtension filename)
    (videoId : UUID) : removesuffix (buildUploadObjectKey videoId filename) (str "\\") =
      buildUploadObjectKey videoId filename := by
  obtain ⟨extension, hsuffix, hne, halnum⟩ := h
  refine removesuffix_of_not_suffix ?_
  rintro ⟨front, hfront⟩
  obtain ⟨init, c, rfl⟩ := (List.eq_nil_or_concat extension).resolve_left hne
  rw [List.concat_eq_append] at hsuffix halnum
  rw [buildUploadObjectKey, hsuffix, ← List.cons_append, ← List.append_assoc] at hfront
  obtain rfl := List.singleton_inj.mp (List.append_inj_right' hfront rfl)
  exact isAlnum_ne_backslash (halnum _ (List.mem_append_right _ (List.mem_singleton_self _))) rfl

/-- With a plain extension both spellings of the key resolve. -/
theorem resolveVideoId_upload {table : VideoTable} {videoId : UUID} {video : Video}
    {objectKey : Str} (hrow : table.row videoId = some video)
    (hplain : PlainExtension video.filename) (hkey : objectKey = video.originalObjectKey ∨
      objectKey = video.originalObjectKey ++ str "\\") :
    resolveVideoId table.read objectKey = some (some videoId) := by
  obtain ⟨request, hname, hbuilt⟩ := table.built videoId video hrow
  rw [hname] at hplain
  have hread : table.read videoId = some (some video) := congrArg some hrow
  rcases hkey with rfl | rfl
  · refine resolveVideoId_eq_some ?_ hread ?_
    · rw [hbuilt]
      exact parseVideoIdFromKey_upload.mpr hplain.tail.1
    · rw [hbuilt]
      exact hplain.removesuffix videoId
  · refine resolveVideoId_eq_some ?_ hread (removesuffix_append _ _)
    rw [hbuilt, buildUploadObjectKey, List.append_assoc]
    exact parseVideoIdFromKey_upload.mpr hplain.tail.2

/-- The key of a row can always be published. -/
theorem isSome_retryMessage (settings : Settings) {table : VideoTable} {videoId : UUID}
    {video : Video} (hrow : table.row videoId = some video) :
    (retryMessage settings video).isSome := by
  obtain ⟨request, -, hbuilt⟩ := table.built videoId video hrow
  rw [retryMessage, buildObjectCreatedMessage, Option.isSome_map, hbuilt]
  exact Url.quotePlus_isSome (request.scalar_key videoId)

/-- **Which uploads are recognised.** Both event sources start every video of a table exactly if the
extensions of all filenames are plain: ASCII letters and digits. -/
theorem recognised_iff (settings : Settings) (table : VideoTable) :
    Recognised settings table ↔
      ∀ videoId video, table.row videoId = some video → PlainExtension video.filename := by
  constructor
  · rintro ⟨hkeys, -⟩ videoId video hrow
    obtain ⟨request, hname, hkey⟩ := table.built videoId video hrow
    -- the key with a backslash after it resolves, so its extension is plain
    have hresolved := (hkeys _ videoId).mpr ⟨video, hrow, .inr rfl⟩
    have hparse := (eq_of_resolveVideoId hresolved).1
    rw [hkey, buildUploadObjectKey, List.append_assoc] at hparse
    rw [hname]
    exact plainExtension_of_tail request.suffix_ne_nil (parseVideoIdFromKey_upload.mp hparse)
  · intro hplain
    have hkeys : ∀ objectKey videoId,
        resolveVideoId table.read objectKey = some (some videoId) ↔
          ∃ video, table.row videoId = some video ∧ (objectKey = video.originalObjectKey ∨
            objectKey = video.originalObjectKey ++ str "\\") := by
      intro objectKey videoId
      constructor
      · intro h
        obtain ⟨-, video, hread, hkey⟩ := eq_of_resolveVideoId h
        exact ⟨video, Option.some.inj hread, hkey⟩
      · rintro ⟨video, hrow, hkey⟩
        exact resolveVideoId_upload hrow (hplain videoId video hrow) hkey
    refine ⟨hkeys, fun videoId video hrow => ?_⟩
    have hown := (hkeys _ videoId).mpr ⟨video, hrow, .inl rfl⟩
    -- both event sources bring the stored key through unchanged
    have hnotified : ∀ messageBody, Notifies messageBody video.originalObjectKey →
        ResolvesTo table messageBody videoId := by
      intro messageBody h
      obtain ⟨name, hparse⟩ := h.parse
      exact ⟨_, hparse, hown⟩
    obtain ⟨messageBody, hmessage⟩ :=
      Option.isSome_iff_exists.mp (isSome_retryMessage settings hrow)
    exact ⟨hnotified, messageBody, hmessage,
      hnotified _ (notifies_build settings.s3BucketName_ok hmessage)⟩

/-- An upload whose name ends in `.mp4~`. -/
def backupRequest : CreateVideoRequest where
  filename := str "clip.mp4~"
  contentType := str "video/mp4"
  filename_ok := by rfl
  contentType_ok := by rfl

def backupTable : VideoTable := VideoTable.empty.insert ⟨0⟩ backupRequest

/-- Its filename is accepted, and its own key resolves to no video. -/
theorem backupTable_not_recognised :
    resolveVideoId backupTable.read (buildUploadObjectKey ⟨0⟩ backupRequest.filename) = some none ∧
      ∀ settings, ¬ Recognised settings backupTable := by
  have hnone : resolveVideoId backupTable.read
      (buildUploadObjectKey ⟨0⟩ backupRequest.filename) = some none := by decide +kernel
  refine ⟨hnone, ?_⟩
  rintro settings ⟨hkeys, -⟩
  have hresolved := (hkeys (buildUploadObjectKey ⟨0⟩ backupRequest.filename) ⟨0⟩).mpr
    ⟨_, rfl, .inl rfl⟩
  cases hnone.symm.trans hresolved

end VideoProcessing
