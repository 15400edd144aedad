import VideoProcessing.Library.Json.ReadBack
import VideoProcessing.Library.Regex
import VideoProcessing.Library.Url

/-!
# S3 events

`common/queue/s3_events.py`: reading the `ObjectCreated` records of a message body, reading the
video out of an upload key, and writing the body that `retry_video` publishes. `none` stands for an
exception, except in `parseVideoIdFromKey`, where it is the source's `None`.
-/

namespace VideoProcessing

open Python Utf8

/-! ## Upload keys -/

/-- `[A-Za-z0-9]`. -/
def isAlnum (c : ℕ) : Bool :=
  (65 ≤ c && c ≤ 90) || (97 ≤ c && c ≤ 122) || (48 ≤ c && c ≤ 57)

/-- The group `video_id` of `_UPLOAD_KEY_PATTERN`. -/
def videoIdPattern : Regex ℕ :=
  .seq (.times 8 (.set isHexDigit)) <| .seq (.literal (str "-")) <|
  .seq (.times 4 (.set isHexDigit)) <| .seq (.literal (str "-")) <|
  .seq (.times 4 (.set isHexDigit)) <| .seq (.literal (str "-")) <|
  .seq (.times 4 (.set isHexDigit)) <| .seq (.literal (str "-")) <|
  .times 12 (.set isHexDigit)

/-- `/original(\.[A-Za-z0-9]+)?\\?`. -/
def originalPattern : Regex ℕ :=
  .seq (.literal (str "/original")) <|
  .seq (.opt (.seq (.literal (str ".")) (.plus isAlnum))) <| .opt (.literal (str "\\"))

/-- `$`: the end of the text, or a line end that ends it. -/
def atEnd (rest : Str) : Bool := rest = [] || rest = [10]

/-- `_UPLOAD_KEY_PATTERN.match(object_key)["video_id"]`. -/
def uploadKeyMatch (objectKey : Str) : Option Str :=
  Regex.capture (.literal (str "uploads/")) videoIdPattern originalPattern atEnd objectKey

/-- `parse_video_id_from_key`. -/
def parseVideoIdFromKey (objectKey : Str) : Option UUID :=
  (uploadKeyMatch objectKey).bind UUID.ofText?

/-- The pattern is five groups of hexadecimal digits between hyphens. -/
theorem videoIdPattern_matches {g : Str} : videoIdPattern.Matches g ↔ ∃ a b c d e : Str,
    g = a ++ (str "-" ++ (b ++ (str "-" ++ (c ++ (str "-" ++ (d ++ (str "-" ++ e))))))) ∧
      (a.length = 8 ∧ b.length = 4 ∧ c.length = 4 ∧ d.length = 4 ∧ e.length = 12) ∧
      ∀ x ∈ a ++ b ++ c ++ d ++ e, isHexDigit x = true := by
  simp only [videoIdPattern, Regex.Matches, Regex.literal_matches, Regex.times_set_matches]
  constructor
  · rintro ⟨a, _, rfl, ⟨ha, hxa⟩, _, _, rfl, rfl, b, _, rfl, ⟨hb, hxb⟩, _, _, rfl, rfl, c, _, rfl,
      ⟨hc, hxc⟩, _, _, rfl, rfl, d, _, rfl, ⟨hd, hxd⟩, _, e, rfl, rfl, he, hxe⟩
    refine ⟨a, b, c, d, e, rfl, ⟨ha, hb, hc, hd, he⟩, ?_⟩
    simp only [List.forall_mem_append]
    exact ⟨⟨⟨⟨hxa, hxb⟩, hxc⟩, hxd⟩, hxe⟩
  · rintro ⟨a, b, c, d, e, rfl, ⟨ha, hb, hc, hd, he⟩, hx⟩
    simp only [List.forall_mem_append] at hx
    obtain ⟨⟨⟨⟨hxa, hxb⟩, hxc⟩, hxd⟩, hxe⟩ := hx
    exact ⟨a, _, rfl, ⟨ha, hxa⟩, _, _, rfl, rfl, b, _, rfl, ⟨hb, hxb⟩, _, _, rfl, rfl, c, _, rfl,
      ⟨hc, hxc⟩, _, _, rfl, rfl, d, _, rfl, ⟨hd, hxd⟩, _, e, rfl, rfl, he, hxe⟩

/-- An identifier has 36 characters. -/
theorem videoIdPattern_long : videoIdPattern.Long 36 := by
  intro g hg
  obtain ⟨a, b, c, d, e, rfl, ⟨ha, hb, hc, hd, he⟩, -⟩ := videoIdPattern_matches.mp hg
  have hhyphen : (str "-").length = 1 := rfl
  simp only [List.length_append, hhyphen]
  omega

/-- The text of an identifier has the form of the group. -/
theorem videoIdPattern_str (id : UUID) : videoIdPattern.Matches id.str := by
  have hlength := length_hexDigits 32 id.int
  refine videoIdPattern_matches.mpr ⟨(hexDigits 32 id.int).take 8,
    ((hexDigits 32 id.int).drop 8).take 4, ((hexDigits 32 id.int).drop 12).take 4,
    ((hexDigits 32 id.int).drop 16).take 4, (hexDigits 32 id.int).drop 20, ?_, ?_, ?_⟩
  · simp only [UUID.str, hyphenate, List.append_assoc]
  · simp only [List.length_take, List.length_drop, hlength]
    decide
  · intro x hx
    suffices hmem : x ∈ hexDigits 32 id.int from isHexDigit_of_mem_hexDigits hmem
    simp only [List.mem_append] at hx
    rcases hx with (((hx | hx) | hx) | hx) | hx
    · exact List.mem_of_mem_take hx
    · exact List.mem_of_mem_drop (List.mem_of_mem_take hx)
    · exact List.mem_of_mem_drop (List.mem_of_mem_take hx)
    · exact List.mem_of_mem_drop (List.mem_of_mem_take hx)
    · exact List.mem_of_mem_drop hx

/-- The digits of a text of the group. -/
theorem filter_group {a b c d e : Str}
    (hx : ∀ x ∈ a ++ b ++ c ++ d ++ e, isHexDigit x = true) :
    (a ++ (str "-" ++ (b ++ (str "-" ++ (c ++ (str "-" ++ (d ++ (str "-" ++ e)))))))).filter
      (· ≠ 45) = a ++ b ++ c ++ d ++ e := by
  have hhyphen : (str "-").filter (· ≠ 45) = [] := rfl
  have hfilter : (a ++ b ++ c ++ d ++ e).filter (· ≠ 45) = a ++ b ++ c ++ d ++ e := by
    refine List.filter_eq_self.mpr fun x hmem => ?_
    have hne : x ≠ 45 := by
      rintro rfl
      exact absurd (hx 45 hmem) (by decide)
    simpa using hne
  rw [← hfilter]
  simp only [List.filter_append, hhyphen, List.nil_append, List.append_assoc]

/-- `uuid.UUID` accepts every text of the group. -/
theorem isSome_ofText {g : Str} (hg : videoIdPattern.Matches g) : (UUID.ofText? g).isSome := by
  obtain ⟨a, b, c, d, e, rfl, ⟨ha, hb, hc, hd, he⟩, hx⟩ := videoIdPattern_matches.mp hg
  have hlength : (a ++ b ++ c ++ d ++ e).length = 32 := by
    simp only [List.length_append]
    omega
  rw [UUID.ofText?, filter_group hx, if_pos ⟨hlength, List.all_eq_true.mpr hx⟩]
  rfl

/-- What may follow `/original` in a key that is recognised. -/
def OriginalTail (tail : Str) : Prop :=
  ∃ extension backslash rest, tail = extension ++ (backslash ++ rest) ∧
    (extension = [] ∨ ∃ e, extension = 46 :: e ∧ e ≠ [] ∧ ∀ c ∈ e, isAlnum c = true) ∧
    (backslash = [] ∨ backslash = [92]) ∧ atEnd rest = true

/-- The rest of a key is `/original`, an extension or none, and a backslash or none. -/
theorem originalPattern_matches {v : Str} : originalPattern.Matches v ↔
    ∃ extension backslash, v = str "/original" ++ (extension ++ backslash) ∧
      (extension = [] ∨ ∃ e, extension = 46 :: e ∧ e ≠ [] ∧ ∀ c ∈ e, isAlnum c = true) ∧
      (backslash = [] ∨ backslash = [92]) := by
  simp only [originalPattern, Regex.Matches, Regex.literal_matches]
  constructor
  · rintro ⟨_, _, rfl, rfl, extension, backslash, rfl, hextension, hbackslash⟩
    refine ⟨extension, backslash, rfl, hextension.imp id ?_, hbackslash⟩
    rintro ⟨_, e, rfl, rfl, hne, he⟩
    exact ⟨e, rfl, hne, he⟩
  · rintro ⟨extension, backslash, rfl, hextension, hbackslash⟩
    refine ⟨_, _, rfl, rfl, extension, backslash, rfl, hextension.imp id ?_, hbackslash⟩
    rintro ⟨e, rfl, hne, he⟩
    exact ⟨_, e, rfl, rfl, hne, he⟩

/-- The keys with the identifier of a video in front are recognised by their end. -/
theorem parseVideoIdFromKey_upload {id : UUID} {tail : Str} :
    parseVideoIdFromKey (str "uploads/" ++ id.str ++ str "/original" ++ tail) = some id ↔
      OriginalTail tail := by
  have hlong : (Regex.literal (str "uploads/")).Long 8 := Regex.literal_long _
  simp only [parseVideoIdFromKey, uploadKeyMatch, Option.bind_eq_some_iff,
    Regex.capture_eq_some_iff hlong videoIdPattern_long, Regex.literal_matches,
    originalPattern_matches, List.append_assoc]
  constructor
  · rintro ⟨g, ⟨_, _, rest, heq, rfl, hg, ⟨extension, backslash, rfl, hext, hback⟩, hrest⟩, -⟩
    have hgroup := List.append_inj (List.append_cancel_left heq)
      (id.length_str.trans (videoIdPattern_long g hg).symm)
    refine ⟨extension, backslash, rest, ?_, hext, hback, hrest⟩
    simpa only [List.append_assoc, List.append_cancel_left_eq] using hgroup.2
  · rintro ⟨extension, backslash, rest, rfl, hext, hback, hrest⟩
    refine ⟨id.str, ⟨_, _, rest, ?_, rfl, videoIdPattern_str id,
      ⟨extension, backslash, rfl, hext, hback⟩, hrest⟩, id.ofText?_str⟩
    simp only [List.append_assoc]

/-! ## Message bodies -/

/-- `ObjectCreatedEvent`. The bucket is whatever the record has for its name. -/
structure ObjectCreatedEvent where
  bucket : Json.Value
  key : Str

/-- What `for record in records` goes through. -/
def iterate : Json.Value → Option (List Json.Value)
  | .array items => some items
  | .object fields => some (fields.map fun field => .string field.1)
  | .string s => some (s.map fun c => .string [c])
  | _ => none

/-- The event of a record; `some none` where the record has no `s3` section. -/
def recordEvent (record : Json.Value) : Option (Option ObjectCreatedEvent) :=
  match record with
  | .object _ =>
    match record.get? (str "s3") with
    | none | some .null => some none
    | some s3Data =>
      ((s3Data.get? (str "bucket")).bind (·.get? (str "name"))).bind fun bucket =>
      ((s3Data.get? (str "object")).bind (·.get? (str "key"))).bind fun
        | .string key => some (some ⟨bucket, Url.unquotePlus key⟩)
        | _ => none
  | _ => none

/-- The events of the records in their order. -/
def recordEvents : List Json.Value → Option (List ObjectCreatedEvent)
  | [] => some []
  | record :: records => (recordEvent record).bind fun event =>
    (recordEvents records).map fun events => event.toList ++ events

/-- `parse_object_created_events`. -/
def parseObjectCreatedEvents (messageBody : Str) : Option (List ObjectCreatedEvent) :=
  (Json.loads messageBody).bind fun body =>
    match body with
    | .object _ => (iterate ((body.get? (str "Records")).getD (.array []))).bind recordEvents
    | _ => none

/-- The value `build_object_created_message` writes, for a key already quoted. -/
def objectCreatedValue (bucket key : Str) : Json.Value :=
  .object [(str "Records", .array [.object [(str "s3", .object [
    (str "bucket", .object [(str "name", .string bucket)]),
    (str "object", .object [(str "key", .string key)])])]])]

/-- `build_object_created_message`. -/
def buildObjectCreatedMessage (bucket key : Str) : Option Str :=
  (Url.quotePlus key).map fun quoted => Json.dumps (objectCreatedValue bucket quoted)

/-- A notification of one object: its record names the bucket and has the key as `quote_plus`
writes it. -/
def Notifies (messageBody key : Str) : Prop :=
  ∃ body record s3Data bucket object name quoted,
    Json.loads messageBody = some body ∧ body.get? (str "Records") = some (.array [record]) ∧
      record.get? (str "s3") = some s3Data ∧ s3Data.get? (str "bucket") = some bucket ∧
      bucket.get? (str "name") = some name ∧ s3Data.get? (str "object") = some object ∧
      object.get? (str "key") = some (.string quoted) ∧ Url.quotePlus key = some quoted

/-- The notification of an object is read as one event with its key. -/
theorem Notifies.parse {messageBody key : Str} (h : Notifies messageBody key) :
    ∃ name, parseObjectCreatedEvents messageBody = some [⟨name, key⟩] := by
  obtain ⟨body, record, s3Data, bucket, object, name, quoted, hbody, hrecords, hs3, hbucket, hname,
    hobject, hkey, hquoted⟩ := h
  -- what has a field is an object
  cases body with
  | object =>
    cases record with
    | object =>
      cases s3Data with
      | object =>
        refine ⟨name, ?_⟩
        simp only [parseObjectCreatedEvents, hbody, Option.bind_some, hrecords, Option.getD_some,
          iterate, recordEvents, recordEvent, hs3, hbucket, hname, hobject, hkey,
          Url.unquotePlus_quotePlus hquoted]
        rfl
      | _ => exact nomatch hbucket
    | _ => exact nomatch hs3
  | _ => exact nomatch hrecords

/-- A message is text if its bucket and key are. -/
theorem objectCreatedValue_textual {bucket key : Str} (hbucket : ∀ c ∈ bucket, Scalar c)
    (hkey : ∀ c ∈ key, Scalar c) : Json.Textual (objectCreatedValue bucket key) := by
  have hnames : Json.Textual (.object [(str "name", .string bucket)]) :=
    .singleton (by decide) (.string hbucket)
  have hkeys : Json.Textual (.object [(str "key", .string key)]) :=
    .singleton (by decide) (.string hkey)
  have hs3 : Json.Textual (.object [(str "bucket", .object [(str "name", .string bucket)]),
      (str "object", .object [(str "key", .string key)])]) := by
    have hb : ∀ c ∈ str "bucket", Scalar c := by decide
    have ho : ∀ c ∈ str "object", Scalar c := by decide
    exact .object (List.forall_mem_cons.mpr ⟨hb, List.forall_mem_singleton.mpr ho⟩)
      (List.forall_mem_cons.mpr ⟨hnames, List.forall_mem_singleton.mpr hkeys⟩)
  have hrecord : Json.Textual (.object [(str "s3", _)]) := .singleton (by decide) hs3
  exact .singleton (by decide) (.array (List.forall_mem_singleton.mpr hrecord))

/-- The body `retry_video` publishes is such a notification. -/
theorem notifies_build {bucket key messageBody : Str} (hbucket : ∀ c ∈ bucket, Scalar c)
    (h : buildObjectCreatedMessage bucket key = some messageBody) : Notifies messageBody key := by
  obtain ⟨quoted, hquoted, rfl⟩ := Option.map_eq_some_iff.mp h
  have htextual := objectCreatedValue_textual hbucket (Url.scalar_of_mem_quotePlus hquoted)
  exact ⟨_, _, _, _, _, _, quoted, Json.loads_dumps htextual, rfl, rfl, rfl, rfl, rfl, rfl, hquoted⟩

end VideoProcessing
