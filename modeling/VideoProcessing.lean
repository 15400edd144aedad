import VideoProcessing.Api.Uploads
import VideoProcessing.Api.Videos
import VideoProcessing.Common.EventRecords
import VideoProcessing.Common.UploadKeys
import VideoProcessing.Infra.Stacks
import VideoProcessing.Migrations.AddTranscodeJobTypes
import VideoProcessing.Platform
import VideoProcessing.Platform.Budget
import VideoProcessing.Platform.Closing
import VideoProcessing.Platform.Conformance
import VideoProcessing.Platform.Durations
import VideoProcessing.Platform.Healing
import VideoProcessing.Platform.History
import VideoProcessing.Platform.Idle
import VideoProcessing.Platform.Metadata
import VideoProcessing.Platform.Moves
import VideoProcessing.Platform.Orphans
import VideoProcessing.Platform.Progress
import VideoProcessing.Platform.Projection
import VideoProcessing.Platform.Readers
import VideoProcessing.Platform.Realization
import VideoProcessing.Platform.Replay
import VideoProcessing.Platform.Results
import VideoProcessing.Platform.Retries
import VideoProcessing.Platform.Stored
import VideoProcessing.Platform.Undisturbed
import VideoProcessing.Worker.Absorbing
import VideoProcessing.Worker.Alone
import VideoProcessing.Worker.Assets
import VideoProcessing.Worker.Attempts
import VideoProcessing.Worker.Bookkeeping
import VideoProcessing.Worker.Claims
import VideoProcessing.Worker.Copies
import VideoProcessing.Worker.Failures
import VideoProcessing.Worker.Isolation
import VideoProcessing.Worker.Ordered
import VideoProcessing.Worker.Publication
import VideoProcessing.Worker.Refinement
import VideoProcessing.Worker.Shim.Batch
import VideoProcessing.Worker.Shim.Deliveries
import VideoProcessing.Worker.Shim.Recognition
import VideoProcessing.Worker.Siblings
import VideoProcessing.Worker.Stored
import VideoProcessing.Worker.Succeeding
import VideoProcessing.Worker.Tally
