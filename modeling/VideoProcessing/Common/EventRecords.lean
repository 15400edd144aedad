import VideoProcessing.Common.S3Events

/-!
# Records of a notification

A body may hold several records: those of objects that were created, each with the bucket and the
quoted key as `build_object_created_message` writes them, and others that have no `s3` section.
`parse_object_created_events` reads the events of the former out of it, in their order.

Reading is the inverse of writing, record by record: the JSON text reads back, the key is unquoted
to what was quoted, and a record of another kind is passed over.
-/

namespace VideoProcessing

open Python Utf8

/-! ## Bodies -/

/-- A record without an `s3` section. -/
def Sectionless (record : Json.Value) : Prop :=
  ∃ fields, record = .object fields ∧
    (record.get? (str "s3") = none ∨ record.get? (str "s3") = some .null)

/-- A record of a body. -/
inductive EventRecord
  /-- of an object that was created, its names of Unicode scalar values -/
  | created (bucket key : Str) (hbucket : ∀ c ∈ bucket, Scalar c) (hkey : ∀ c ∈ key, Scalar c)
  /-- any other -/
  | other (record : Json.Value) (hs3 : Sectionless record) (hform : Json.WellFormed record)

/-- The record `build_object_created_message` writes, for a key already quoted. -/
def objectCreatedRecord (bucket key : Str) : Json.Value :=
  .object [(str "s3", .object [
    (str "bucket", .object [(str "name", .string bucket)]),
    (str "object", .object [(str "key", .string key)])])]

/-- The record as it stands in the body. -/
def EventRecord.value : EventRecord → Json.Value
  | .created bucket key _ hkey =>
    objectCreatedRecord bucket ((Url.quotePlus key).get (Url.quotePlus_isSome hkey))
  | .other record _ _ => record

/-- The event the record is of. -/
def EventRecord.event : EventRecord → Option ObjectCreatedEvent
  | .created bucket key _ _ => some ⟨.string bucket, key⟩
  | .other _ _ _ => none

/-- The body that holds the records in their order. -/
def recordsMessage (records : List EventRecord) : Str :=
  Json.dumps (.object [(str "Records", .array (records.map EventRecord.value))])

/-- The body of one object is what `build_object_created_message` writes. -/
theorem buildObjectCreatedMessage_eq {bucket key : Str} (hbucket : ∀ c ∈ bucket, Scalar c)
    (hkey : ∀ c ∈ key, Scalar c) :
    buildObjectCreatedMessage bucket key =
      some (recordsMessage [.created bucket key hbucket hkey]) := by
  have hquoted := Option.some_get (Url.quotePlus_isSome hkey)
  rw [buildObjectCreatedMessage, ← hquoted]
  rfl

/-! ## One record -/

/-- A record S3 sends is read back, with its key unquoted. -/
theorem recordEvent_objectCreatedRecord {bucket key quoted : Str}
    (hquoted : Url.quotePlus key = some quoted) :
    recordEvent (objectCreatedRecord bucket quoted) = some (some ⟨.string bucket, key⟩) := by
  rw [← Url.unquotePlus_quotePlus hquoted]
  rfl

/-- A record without its `s3` section is passed over. -/
theorem Sectionless.recordEvent {record : Json.Value} (h : Sectionless record) :
    recordEvent record = some none := by
  obtain ⟨fields, rfl, hs3⟩ := h
  rcases hs3 with hs3 | hs3 <;> simp only [VideoProcessing.recordEvent, hs3]

/-- Reading a record back gives it no `s3` section. -/
theorem Sectionless.joined {record : Json.Value} (h : Sectionless record) :
    Sectionless record.joined := by
  have hs3 : record.joined.get? (str "s3") = (record.get? (str "s3")).map Json.Value.joined :=
    Json.get?_joined (by decide) record
  obtain ⟨fields, rfl, hnone⟩ := h
  refine ⟨_, by rw [Json.Value.joined], ?_⟩
  rw [hs3]
  rcases hnone with hnone | hnone <;> rw [hnone]
  · exact .inl rfl
  · exact .inr (by rw [Option.map_some, Json.Value.joined])

/-- A record is text if its bucket and key are. -/
theorem objectCreatedRecord_textual {bucket key : Str} (hbucket : ∀ c ∈ bucket, Scalar c)
    (hkey : ∀ c ∈ key, Scalar c) : Json.Textual (objectCreatedRecord bucket key) := by
  have hbody : Json.Textual (.object [(str "Records", .array [objectCreatedRecord bucket key])]) :=
    objectCreatedValue_textual hbucket hkey
  cases hbody with
  | object _ hfields =>
    cases hfields _ List.mem_cons_self with
    | array hitems => exact hitems _ List.mem_cons_self

namespace EventRecord

/-- The record of an object that was created has no surrogates. -/
theorem value_textual {bucket key : Str} (hbucket : ∀ c ∈ bucket, Scalar c)
    (hkey : ∀ c ∈ key, Scalar c) : Json.Textual (created bucket key hbucket hkey).value :=
  objectCreatedRecord_textual hbucket
    (Url.scalar_of_mem_quotePlus (Option.some_get (Url.quotePlus_isSome hkey)).symm)

/-- The value of a record can be dumped. -/
theorem value_wellFormed (record : EventRecord) : Json.WellFormed record.value := by
  cases record with
  | created bucket key hbucket hkey => exact (value_textual hbucket hkey).wellFormed
  | other record hs3 hform => exact hform

/-- A record is read as its event. -/
theorem recordEvent_value (record : EventRecord) :
    recordEvent record.value = some record.event := by
  cases record with
  | created bucket key hbucket hkey =>
    exact recordEvent_objectCreatedRecord (Option.some_get (Url.quotePlus_isSome hkey)).symm
  | other record hs3 hform => exact hs3.recordEvent

/-- So is what is read back of it. -/
theorem recordEvent_joined (record : EventRecord) :
    recordEvent record.value.joined = some record.event := by
  cases record with
  | created bucket key hbucket hkey =>
    rw [(value_textual hbucket hkey).joined]
    exact recordEvent_value _
  | other record hs3 hform => exact hs3.joined.recordEvent

end EventRecord

/-! ## The records of a body -/

/-- The events of records that are read one by one. -/
theorem recordEvents_map {f : EventRecord → Json.Value}
    (hf : ∀ record, recordEvent (f record) = some record.event) (records : List EventRecord) :
    recordEvents (records.map f) = some (records.filterMap EventRecord.event) := by
  induction records with
  | nil => rfl
  | cons record records ih =>
    rw [List.map_cons, recordEvents, hf, ih, Option.bind_some, Option.map_some]
    cases hrecord : record.event with
    | none => rw [List.filterMap_cons_none hrecord, Option.toList_none, List.nil_append]
    | some event => rw [List.filterMap_cons_some hrecord, Option.toList_some, List.singleton_append]

/-- Records that are read one by one are read as a list. -/
theorem parseObjectCreatedEvents_eq {messageBody : Str} {body : Json.Value}
    {f : EventRecord → Json.Value} (hf : ∀ record, recordEvent (f record) = some record.event)
    {records : List EventRecord} (hbody : Json.loads messageBody = some body)
    (hrecords : body.get? (str "Records") = some (.array (records.map f))) :
    parseObjectCreatedEvents messageBody = some (records.filterMap EventRecord.event) := by
  cases body with
  | object fields =>
    simp only [parseObjectCreatedEvents, hbody, Option.bind_some, hrecords, Option.getD_some,
      iterate, recordEvents_map hf]
  | _ => cases hrecords

/-- What is read back of the body has the records read back. -/
theorem loads_recordsMessage (records : List EventRecord) :
    ∃ body, Json.loads (recordsMessage records) = some body ∧ body.get? (str "Records") =
      some (.array (records.map fun record => record.value.joined)) := by
  have hname : ∀ c ∈ str "Records", c < 0x110000 := by decide
  have hform : Json.WellFormed
      (.object [(str "Records", .array (records.map EventRecord.value))]) := by
    refine .object (List.forall_mem_singleton.mpr hname)
      (List.forall_mem_singleton.mpr (.array fun value hvalue => ?_))
    obtain ⟨record, -, rfl⟩ := List.mem_map.mp hvalue
    exact record.value_wellFormed
  refine ⟨_, Json.loads_dumps_joined hform, ?_⟩
  have hitems : records.map (fun record => record.value.joined) =
      (records.map EventRecord.value).map Json.Value.joined := by
    rw [List.map_map]
    rfl
  rw [Json.get?_joined (by decide), hitems, ← Json.Value.joined_array]
  rfl

/-- Parsing undoes building: of one object, and of the objects between other records, in the body
`json.dumps` writes and in any other text with these records. -/
theorem parse_undoes_build :
    (∀ bucket key : Str, (∀ c ∈ bucket, Scalar c) → (∀ c ∈ key, Scalar c) →
      (buildObjectCreatedMessage bucket key).bind parseObjectCreatedEvents =
        some [⟨.string bucket, key⟩]) ∧
      (∀ records : List EventRecord, parseObjectCreatedEvents (recordsMessage records) =
        some (records.filterMap EventRecord.event)) ∧
      ∀ (records : List EventRecord) (messageBody : Str) (body : Json.Value),
        Json.loads messageBody = some body →
        body.get? (str "Records") = some (.array (records.map EventRecord.value)) →
        parseObjectCreatedEvents messageBody = some (records.filterMap EventRecord.event) := by
  have hmessage (records : List EventRecord) : parseObjectCreatedEvents (recordsMessage records) =
      some (records.filterMap EventRecord.event) := by
    obtain ⟨body, hbody, hrecords⟩ := loads_recordsMessage records
    exact parseObjectCreatedEvents_eq EventRecord.recordEvent_joined hbody hrecords
  refine ⟨fun bucket key hbucket hkey => ?_, hmessage, fun records messageBody body => ?_⟩
  · rw [buildObjectCreatedMessage_eq hbucket hkey, Option.bind_some, hmessage]
    rfl
  · exact parseObjectCreatedEvents_eq EventRecord.recordEvent_value

/-- A record with a number and no `s3` section. -/
def sizeRecord : EventRecord :=
  .other (.object [(str "Size", .number (str "-1.5e+3"))]) ⟨_, rfl, .inl rfl⟩
    (.object (List.forall_mem_singleton.mpr (by decide))
      (List.forall_mem_singleton.mpr (.number (.inl rfl))))

/-- A key with an accent, a blank, a percent sign, a plus sign and a quote in it, alone and before
a record without an `s3` section. -/
theorem parse_undoes_build_accent :
    (buildObjectCreatedMessage (str "videos") (str "uploads/caf\u00e9 100%+\".mp4")).bind
        parseObjectCreatedEvents =
      some [⟨.string (str "videos"), str "uploads/caf\u00e9 100%+\".mp4"⟩] ∧
    parseObjectCreatedEvents (recordsMessage [
        .created (str "videos") (str "uploads/caf\u00e9 100%+\".mp4") (by decide) (by decide),
        sizeRecord]) =
      some [⟨.string (str "videos"), str "uploads/caf\u00e9 100%+\".mp4"⟩] :=
  ⟨parse_undoes_build.1 _ _ (by decide) (by decide), parse_undoes_build.2.1 _⟩

end VideoProcessing
