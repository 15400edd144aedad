import VideoProcessing.Migrations.Schemas

/-!
# `530ddff684ef_add_transcode_job_types_and_preview_.py`

The statements of the second migration, run on a database with arbitrary rows. The upgrade gets to
its end from every database of the first schema. The downgrade writes no row, so what it finds has
to satisfy the first schema as it stands.

Each statement is followed from the schema it finds to the schema it leaves, with a condition on the
rows where it can be refused.
-/

namespace VideoProcessing.Migrations

open Python Sql Transitions

namespace AddTranscodeJobTypes

def upgrade : List Stmt :=
  [.dropCheck .generatedAssets .assettype,
    .alterType .generatedAssets .assetType (.varchar 13),
    .addCheck .generatedAssets .assettype
      ⟨.assetType, [str "thumbnail", str "preview_1080p", str "preview_720p", str "preview_480p"]⟩,
    .dropCheck .processingJobs .jobtype,
    .update .processingJobs .jobType (.text (str "metadata"))
      (.jobType, .text (str "metadata_and_thumbnail")),
    .alterType .processingJobs .jobType (.varchar 9),
    .addCheck .processingJobs .jobtype
      ⟨.jobType, [str "metadata", str "thumbnail", str "transcode"]⟩]

def downgrade : List Stmt :=
  [.dropCheck .processingJobs .jobtype,
    .alterType .processingJobs .jobType (.varchar 22),
    .addCheck .processingJobs .jobtype ⟨.jobType, [str "metadata_and_thumbnail"]⟩,
    .dropCheck .generatedAssets .assettype,
    .alterType .generatedAssets .assetType (.varchar 9),
    .addCheck .generatedAssets .assettype ⟨.assetType, [str "thumbnail"]⟩]

end AddTranscodeJobTypes

/-! ## The schemas along the way -/

/-- The statements of the first migration create the schema it is said to leave. -/
theorem foldl_createInitialTables :
    CreateInitialTables.upgrade.foldl Stmt.schema (fun _ => none) = CreateInitialTables.schema := by
  funext t
  cases t <;> rfl

/-- The upgrade leaves the schema that the models declare. -/
theorem foldl_upgrade :
    AddTranscodeJobTypes.upgrade.foldl Stmt.schema CreateInitialTables.schema = Models.schema := by
  funext t
  cases t <;>
    refine congrArg some (TableDef.ext (funext fun c => ?_) rfl rfl (funext fun n => ?_) rfl)
  all_goals first | cases c <;> rfl | cases n <;> rfl

/-- The downgrade leaves the schema of the first migration. -/
theorem foldl_downgrade :
    AddTranscodeJobTypes.downgrade.foldl Stmt.schema Models.schema =
      CreateInitialTables.schema := by
  funext t
  cases t <;>
    refine congrArg some (TableDef.ext (funext fun c => ?_) rfl rfl (funext fun n => ?_) rfl)
  all_goals first | cases c <;> rfl | cases n <;> rfl

/-! ## What the rows of each schema hold -/

/-- The first schema knows thumbnails only. -/
theorem assetType_initial {rows : Rows} (h : CreateInitialTables.schema.Holds rows)
    {r : Row Column} (hr : r ∈ rows .generatedAssets) :
    r .assetType = .text (str "thumbnail") := by
  obtain ⟨v, hv, htext⟩ := h.exists_text .generatedAssets .assettype rfl rfl rfl rfl hr
  rwa [List.mem_singleton.mp hv] at htext

/-- And one type of job. -/
theorem jobType_initial {rows : Rows} (h : CreateInitialTables.schema.Holds rows)
    {r : Row Column} (hr : r ∈ rows .processingJobs) :
    r .jobType = .text (str "metadata_and_thumbnail") := by
  obtain ⟨v, hv, htext⟩ := h.exists_text .processingJobs .jobtype rfl rfl rfl rfl hr
  rwa [List.mem_singleton.mp hv] at htext

/-- Which the models no longer know. -/
theorem jobType_models {rows : Rows} (h : Models.schema.Holds rows) {r : Row Column}
    (hr : r ∈ rows .processingJobs) :
    r .jobType ≠ .text (str "metadata_and_thumbnail") := by
  obtain ⟨v, hv, htext⟩ := h.exists_text .processingJobs .jobtype rfl rfl rfl rfl hr
  have hnot : str "metadata_and_thumbnail" ∉ Models.jobTypes := by decide
  intro heq
  have hsame : v = str "metadata_and_thumbnail" := Value.text.inj (htext.symm.trans heq)
  exact hnot (hsame ▸ hv)

/-- There is one job for each video, whatever becomes of its type. -/
theorem jobs_distinct {rows : Rows} (h : CreateInitialTables.schema.Holds rows) :
    ∀ key ∈ CreateInitialTables.processingJobs.keys, Column.jobType ∈ key →
      (rows .processingJobs).Pairwise fun r r' =>
        ¬ Collide (key.filter (· ≠ Column.jobType)) r r' := by
  intro key hkey _
  have hfits : CreateInitialTables.processingJobs.Fits (rows .processingJobs) :=
    h.fits .processingJobs _ rfl
  refine (hfits.unique key hkey).imp_of_mem fun hr hr' hne hcol => hne ?_
  refine hcol.of_filter ?_ ?_
  · rw [jobType_initial h hr]
    rintro ⟨⟩
  · rw [jobType_initial h hr, jobType_initial h hr']

/-! ## The upgrade -/

/-- The rows after the upgrade. -/
def upgraded (rows : Rows) : Rows :=
  Function.update rows .processingJobs
    ((rows .processingJobs).map fun r => Function.update r .jobType (.text (str "metadata")))

/-- Every row is one the `UPDATE` is about. -/
theorem map_assign_initial {rows : Rows} (h : CreateInitialTables.schema.Holds rows) :
    (rows .processingJobs).map (assign .jobType (.text (str "metadata"))
        (.jobType, .text (str "metadata_and_thumbnail"))) =
      (rows .processingJobs).map fun r =>
        Function.update r .jobType (.text (str "metadata")) := by
  refine List.map_congr_left fun r hr => ?_
  rw [assign, if_pos]
  refine ⟨?_, jobType_initial h hr⟩
  rintro ⟨⟩

/-- The schema when the `UPDATE` runs: job types have no check then. -/
def schemaOfUpdate : Schema :=
  (AddTranscodeJobTypes.upgrade.take 4).foldl Stmt.schema CreateInitialTables.schema

/-- The rows of that type are rewritten one by one. -/
theorem migrates_update {rows : Rows} (h : CreateInitialTables.schema.Holds rows) :
    Migrates schemaOfUpdate rows
      [.update .processingJobs .jobType (.text (str "metadata"))
        (.jobType, .text (str "metadata_and_thumbnail"))]
      schemaOfUpdate (upgraded rows) := by
  have hdef : schemaOfUpdate .processingJobs =
      some (CreateInitialTables.processingJobs.setCheck .jobtype none) := rfl
  rw [upgraded, ← map_assign_initial h]
  refine .update hdef rfl rfl ?_ (jobs_distinct h) (by decide) ?_
  · intro name check hcheck
    cases name <;> cases hcheck
    decide
  · -- both foreign keys are to `videos`
    intro t d hd fk hfk ht
    cases t <;> cases hd
    · exact absurd hfk List.not_mem_nil
    all_goals
      obtain rfl := List.mem_singleton.mp hfk
      cases ht

/-- The statements of the upgrade, one after another. -/
theorem migrates_upgrade {rows : Rows} (h : CreateInitialTables.schema.Holds rows) :
    Migrates CreateInitialTables.schema rows AddTranscodeJobTypes.upgrade Models.schema
      (upgraded rows) := by
  have hassets : ∀ r ∈ rows .generatedAssets, r .assetType = .text (str "thumbnail") :=
    fun r hr => assetType_initial h hr
  have hjobs : ∀ r ∈ upgraded rows .processingJobs, r .jobType = .text (str "metadata") := by
    intro r hr
    rw [upgraded, Function.update_self] at hr
    obtain ⟨r₀, -, rfl⟩ := List.mem_map.mp hr
    exact Function.update_self ..
  rw [← foldl_upgrade]
  -- left to show: the two new types and the two new checks suit the values that are there
  refine .cons (.dropCheck rfl) (.cons (.alterType rfl ?_) (.cons (.addCheck rfl ?_)
    (.cons (.dropCheck rfl) (.cons (migrates_update h) (.cons (.alterType rfl ?_)
      (.cons (.addCheck rfl ?_) (.nil _ _)))))))
  · intro r hr _
    rw [hassets r hr]
    decide
  · intro r hr
    exact .inr ⟨str "thumbnail", by decide, hassets r hr⟩
  · intro r hr _
    rw [hjobs r hr]
    decide
  · intro r hr
    exact .inr ⟨str "metadata", by decide, hjobs r hr⟩

/-- **The upgrade keeps every database.** From any rows of the first schema it runs to its end, and
leaves a database of the schema the models declare: the same videos and assets, and the same jobs
but for their type. -/
theorem upgrade_preserves (rows : Rows) (h : CreateInitialTables.schema.Holds rows) :
    ∃ rows', ∃ h' : Models.schema.Holds rows',
      exec Database.step ⟨CreateInitialTables.schema, rows, h⟩ AddTranscodeJobTypes.upgrade =
        some ⟨Models.schema, rows', h'⟩ ∧
      rows' .videos = rows .videos ∧ rows' .generatedAssets = rows .generatedAssets ∧
      rows' .processingJobs = (rows .processingJobs).map fun r =>
        Function.update r .jobType (.text (str "metadata")) := by
  obtain ⟨h', hrun⟩ := migrates_upgrade h h
  exact ⟨upgraded rows, h', hrun, rfl, rfl, rfl⟩

/-- A video with its thumbnail, and a job of the given type. -/
def rowsOfClip (jobType : Option Str) : Rows
  | .videos => [fun
      | .id => .uuid 7
      | .filename => .text (str "clip.mp4")
      | .originalObjectKey => .text (str "uploads/7/original.mp4")
      | .status => .text (str "completed")
      | .durationMs => .integer 5000
      | .createdAt => .timestamp 0
      | _ => .null]
  | .generatedAssets => [fun
      | .id => .uuid 8
      | .videoId => .uuid 7
      | .assetType => .text (str "thumbnail")
      | .objectKey => .text (str "assets/7/thumbnail.jpg")
      | .createdAt => .timestamp 1
      | _ => .null]
  | .processingJobs => jobType.toList.map fun t => fun
      | .id => .uuid 9
      | .videoId => .uuid 7
      | .jobType => .text t
      | .status => .text (str "completed")
      | .attempts => .integer 1
      | _ => .null

/-- The clip as the first schema has it. -/
def initialClip : Rows := rowsOfClip (some (str "metadata_and_thumbnail"))

/-- A database with one video, its asset and its job. -/
theorem upgrade_preserves_clip :
    ∃ rows', ∃ h' : Models.schema.Holds rows',
      exec Database.step ⟨CreateInitialTables.schema, initialClip, by decide +kernel⟩
        AddTranscodeJobTypes.upgrade = some ⟨Models.schema, rows', h'⟩ ∧
      rows' .videos = initialClip .videos ∧
      rows' .generatedAssets = initialClip .generatedAssets ∧
      rows' .processingJobs = (initialClip .processingJobs).map fun r =>
        Function.update r .jobType (.text (str "metadata")) :=
  upgrade_preserves initialClip (by decide +kernel)

/-! ## The downgrade -/

/-- Rows that satisfy both schemas have no job and no preview. -/
theorem rows_of_both {rows : Rows} (h : Models.schema.Holds rows)
    (h' : CreateInitialTables.schema.Holds rows) :
    rows .processingJobs = [] ∧
      ∀ r ∈ rows .generatedAssets, r .assetType = .text (str "thumbnail") := by
  refine ⟨List.eq_nil_iff_forall_not_mem.mpr fun r hr => ?_, fun r hr => assetType_initial h' hr⟩
  exact jobType_models h hr (jobType_initial h' hr)

/-- The statements of the downgrade, where none is refused. -/
theorem migrates_downgrade {rows : Rows} (hjobs : rows .processingJobs = [])
    (hassets : ∀ r ∈ rows .generatedAssets, r .assetType = .text (str "thumbnail")) :
    Migrates Models.schema rows AddTranscodeJobTypes.downgrade CreateInitialTables.schema rows := by
  have hnone : ∀ r, r ∉ rows .processingJobs := List.eq_nil_iff_forall_not_mem.mp hjobs
  rw [← foldl_downgrade]
  refine .cons (.dropCheck rfl) (.cons (.alterType rfl ?_) (.cons (.addCheck rfl ?_)
    (.cons (.dropCheck rfl) (.cons (.alterType rfl ?_) (.cons (.addCheck rfl ?_) (.nil _ _))))))
  · exact fun r hr => absurd hr (hnone r)
  · exact fun r hr => absurd hr (hnone r)
  · intro r hr _
    rw [hassets r hr]
    decide
  · intro r hr
    exact .inr ⟨str "thumbnail", by decide, hassets r hr⟩

/-- **When the downgrade restores the first schema.** It writes no row, and the checks it adds are
held against the rows that are there, so one job of any type stops it, as does one preview. -/
theorem downgrade_restores_iff (rows : Rows) (h : Models.schema.Holds rows) :
    (∃ rows', ∃ h' : CreateInitialTables.schema.Holds rows',
      exec Database.step ⟨Models.schema, rows, h⟩ AddTranscodeJobTypes.downgrade =
        some ⟨CreateInitialTables.schema, rows', h'⟩) ↔
      rows .processingJobs = [] ∧
        ∀ r ∈ rows .generatedAssets, r .assetType = .text (str "thumbnail") := by
  constructor
  · rintro ⟨rows', h', hrun⟩
    have hrows : rows' = rows := rows_eq_of_exec rfl hrun
    exact rows_of_both h (hrows ▸ h')
  · rintro ⟨hjobs, hassets⟩
    exact ⟨rows, migrates_downgrade hjobs hassets h⟩

/-- One database goes back, the other one is refused. -/
theorem downgrade_restores_iff_clip :
    (∃ rows', ∃ h' : CreateInitialTables.schema.Holds rows',
      exec Database.step ⟨Models.schema, rowsOfClip none, by decide +kernel⟩
        AddTranscodeJobTypes.downgrade = some ⟨CreateInitialTables.schema, rows', h'⟩) ↔
      rowsOfClip none .processingJobs = [] ∧
        ∀ r ∈ rowsOfClip none .generatedAssets, r .assetType = .text (str "thumbnail") :=
  downgrade_restores_iff (rowsOfClip none) (by decide +kernel)

/-- A database with one metadata job cannot be downgraded. -/
theorem downgrade_fails :
    ∃ h : Models.schema.Holds (rowsOfClip (some (str "metadata"))),
      exec Database.step ⟨Models.schema, rowsOfClip (some (str "metadata")), h⟩
        AddTranscodeJobTypes.downgrade = none :=
  ⟨by decide +kernel, Option.isNone_iff_eq_none.mp (by decide +kernel)⟩

/-! ## All migrations -/

/-- The first migration creates the tables it is said to leave. -/
theorem migrates_createInitialTables :
    Migrates (fun _ => none) (fun _ => []) CreateInitialTables.upgrade CreateInitialTables.schema
      fun _ => [] := by
  rw [← foldl_createInitialTables]
  exact .cons (.createTable rfl) (.cons (.createTable rfl) (.cons (.createTable rfl) (.nil _ _)))

/-- From no tables, all upgrades lead to the schema the models declare. -/
theorem upgrade_head :
    ∃ h : Models.schema.Holds fun _ => [], exec Database.step Database.empty
      (CreateInitialTables.upgrade ++ AddTranscodeJobTypes.upgrade) =
        some ⟨Models.schema, fun _ => [], h⟩ := by
  have hvalid : CreateInitialTables.schema.Holds fun _ => [] := by decide +kernel
  have hrows : upgraded (fun _ => []) = fun _ => [] := Function.update_eq_self ..
  have hupgrade := migrates_upgrade hvalid
  rw [hrows] at hupgrade
  exact migrates_createInitialTables.append hupgrade Database.empty.valid

end VideoProcessing.Migrations
