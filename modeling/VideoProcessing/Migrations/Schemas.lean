import VideoProcessing.Common.Models
import VideoProcessing.Library.Sql

/-!
# The schemas of the database

The tables as the first migration creates them and as the classes of `common/models/` declare them.
Left out are the indexes that are not unique, the server defaults and `ON DELETE CASCADE`: no
migration that follows depends on them.
-/

namespace VideoProcessing.Migrations

open Python Sql

inductive Table where
  | videos
  | generatedAssets
  | processingJobs
deriving DecidableEq, Repr

/-- The columns of all tables. -/
inductive Column where
  | id
  | filename
  | originalObjectKey
  | status
  | durationMs
  | width
  | height
  | createdAt
  | videoId
  | assetType
  | objectKey
  | jobType
  | attempts
  | startedAt
  | completedAt
deriving DecidableEq, Repr

/-- The names of the check constraints. -/
inductive CheckName where
  | videostatus
  | assettype
  | jobtype
  | jobstatus
deriving DecidableEq, Repr

instance Table.fintype : Fintype Table :=
  Fintype.ofList [.videos, .generatedAssets, .processingJobs] fun t => by cases t <;> decide

instance Column.fintype : Fintype Column :=
  Fintype.ofList [.id, .filename, .originalObjectKey, .status, .durationMs, .width, .height,
    .createdAt, .videoId, .assetType, .objectKey, .jobType, .attempts, .startedAt, .completedAt]
    fun c => by cases c <;> decide

instance CheckName.fintype : Fintype CheckName :=
  Fintype.ofList [.videostatus, .assettype, .jobtype, .jobstatus] fun n => by cases n <;> decide

abbrev TableDef := Sql.TableDef Table Column CheckName

abbrev Schema := Sql.Schema Table Column CheckName

abbrev Rows := Sql.Rows Table Column

abbrev Database := Sql.Database Table Column CheckName

abbrev Stmt := Sql.Stmt Table Column CheckName

/-- The column of an `Enum` that is not native: a `VARCHAR` as long as its longest value. -/
def enumColumn (values : List Str) : ColumnDef where
  type := .varchar ((values.map List.length).foldl max 0)
  nullable := false

/-- `FOREIGN KEY (video_id) REFERENCES videos (id)`. -/
def videoIdKey : ForeignKey Table Column := ⟨.videoId, .videos, .id⟩

/-! ## `6765fb435cbe_create_initial_tables.py` -/

namespace CreateInitialTables

def videoStatuses : List Str :=
  [str "pending_upload", str "processing", str "completed", str "failed"]

def assetTypes : List Str := [str "thumbnail"]

def jobTypes : List Str := [str "metadata_and_thumbnail"]

def jobStatuses : List Str := [str "pending", str "processing", str "completed", str "failed"]

def videos : TableDef where
  columns
    | .id => some ⟨.uuid, false⟩
    | .filename => some ⟨.varchar 255, false⟩
    | .originalObjectKey => some ⟨.varchar 1024, false⟩
    | .status => some (enumColumn videoStatuses)
    | .durationMs => some ⟨.integer, true⟩
    | .width => some ⟨.integer, true⟩
    | .height => some ⟨.integer, true⟩
    | .createdAt => some ⟨.timestamptz, false⟩
    | _ => none
  primaryKey := [.id]
  uniques := [[.originalObjectKey]]
  checks
    | .videostatus => some ⟨.status, videoStatuses⟩
    | _ => none
  foreignKeys := []

def generatedAssets : TableDef where
  columns
    | .id => some ⟨.uuid, false⟩
    | .videoId => some ⟨.uuid, false⟩
    | .assetType => some (enumColumn assetTypes)
    | .objectKey => some ⟨.varchar 1024, false⟩
    | .createdAt => some ⟨.timestamptz, false⟩
    | _ => none
  primaryKey := [.id]
  uniques := [[.objectKey], [.videoId, .assetType]]
  checks
    | .assettype => some ⟨.assetType, assetTypes⟩
    | _ => none
  foreignKeys := [videoIdKey]

def processingJobs : TableDef where
  columns
    | .id => some ⟨.uuid, false⟩
    | .videoId => some ⟨.uuid, false⟩
    | .jobType => some (enumColumn jobTypes)
    | .status => some (enumColumn jobStatuses)
    | .attempts => some ⟨.integer, false⟩
    | .startedAt => some ⟨.timestamptz, true⟩
    | .completedAt => some ⟨.timestamptz, true⟩
    | _ => none
  primaryKey := [.id]
  uniques := [[.videoId, .jobType]]
  checks
    | .jobtype => some ⟨.jobType, jobTypes⟩
    | .jobstatus => some ⟨.status, jobStatuses⟩
    | _ => none
  foreignKeys := [videoIdKey]

def upgrade : List Stmt :=
  [.createTable .videos videos,
    .createTable .generatedAssets generatedAssets,
    .createTable .processingJobs processingJobs]

/-- The schema the first migration leaves. -/
def schema : Schema
  | .videos => some videos
  | .generatedAssets => some generatedAssets
  | .processingJobs => some processingJobs

end CreateInitialTables

/-! ## `common/models/` -/

namespace Models

/-- `enum_type(VideoStatus)` and so on: the values of the members. -/
def videoStatuses : List Str := VideoStatus.members.map VideoStatus.value

def assetTypes : List Str := AssetType.members.map AssetType.value

def jobTypes : List Str := JobType.members.map JobType.value

def jobStatuses : List Str := JobStatus.members.map JobStatus.value

/-- `Video`. -/
def video : TableDef where
  columns
    | .id => some ⟨.uuid, false⟩
    | .filename => some ⟨.varchar 255, false⟩
    | .originalObjectKey => some ⟨.varchar 1024, false⟩
    | .status => some (enumColumn videoStatuses)
    | .durationMs => some ⟨.integer, true⟩
    | .width => some ⟨.integer, true⟩
    | .height => some ⟨.integer, true⟩
    | .createdAt => some ⟨.timestamptz, false⟩
    | _ => none
  primaryKey := [.id]
  uniques := [[.originalObjectKey]]
  checks
    | .videostatus => some ⟨.status, videoStatuses⟩
    | _ => none
  foreignKeys := []

/-- `GeneratedAsset`. -/
def generatedAsset : TableDef where
  columns
    | .id => some ⟨.uuid, false⟩
    | .videoId => some ⟨.uuid, false⟩
    | .assetType => some (enumColumn assetTypes)
    | .objectKey => some ⟨.varchar 1024, false⟩
    | .createdAt => some ⟨.timestamptz, false⟩
    | _ => none
  primaryKey := [.id]
  uniques := [[.objectKey], [.videoId, .assetType]]
  checks
    | .assettype => some ⟨.assetType, assetTypes⟩
    | _ => none
  foreignKeys := [videoIdKey]

/-- `ProcessingJob`. -/
def processingJob : TableDef where
  columns
    | .id => some ⟨.uuid, false⟩
    | .videoId => some ⟨.uuid, false⟩
    | .jobType => some (enumColumn jobTypes)
    | .status => some (enumColumn jobStatuses)
    | .attempts => some ⟨.integer, false⟩
    | .startedAt => some ⟨.timestamptz, true⟩
    | .completedAt => some ⟨.timestamptz, true⟩
    | _ => none
  primaryKey := [.id]
  uniques := [[.videoId, .jobType]]
  checks
    | .jobtype => some ⟨.jobType, jobTypes⟩
    | .jobstatus => some ⟨.status, jobStatuses⟩
    | _ => none
  foreignKeys := [videoIdKey]

/-- `Base.metadata`. -/
def schema : Schema
  | .videos => some video
  | .generatedAssets => some generatedAsset
  | .processingJobs => some processingJob

end Models

end VideoProcessing.Migrations
