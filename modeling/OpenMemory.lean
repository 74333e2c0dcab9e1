import OpenMemory.Lib.Dict
import OpenMemory.Lib.Txn
import OpenMemory.Store.Invariant
import OpenMemory.Store.Deletion
import OpenMemory.Store.Replay
import OpenMemory.Store.Recall
import OpenMemory.Store.Isolation
import OpenMemory.Store.Vectors
import OpenMemory.Store.Reimport
import OpenMemory.Store.Transfer
import OpenMemory.Mcp.Search
import OpenMemory.Mcp.Effects
import OpenMemory.Postgres.Index
import OpenMemory.Postgres.Staleness
import OpenMemory.Postgres.Discard
import OpenMemory.Postgres.ExactlyOnce
import OpenMemory.Postgres.Rotation
import OpenMemory.Postgres.Revisions
import OpenMemory.Postgres.Rewrapping
import OpenMemory.Postgres.Regression
import OpenMemory.Postgres.ReportRuns
import OpenMemory.Store.Coroutines
import OpenMemory.Mcp.Tenants
import OpenMemory.Cloud.WriteKeys
import OpenMemory.Cloud.Recovery
import OpenMemory.Cloud.Reembedding
import OpenMemory.Cloud.Isolation
import OpenMemory.Server.Tokens
import OpenMemory.Server.CloudServer
import OpenMemory.Worker.Overlap
import OpenMemory.Worker.Retry
import OpenMemory.Worker.Replays
import OpenMemory.Mcp.Connections
import OpenMemory.Mcp.Spaces
import OpenMemory.Mcp.Backends
import OpenMemory.Admin.Deletion
import OpenMemory.Admin.Expiry
import OpenMemory.Store.Inbox
import OpenMemory.Store.Contradiction
import OpenMemory.Store.Explained
import OpenMemory.Store.Ranking
import OpenMemory.Lib.Brackets
import OpenMemory.Application.Canonical
import OpenMemory.Store.Agreement
import OpenMemory.Store.Originals
import OpenMemory.Store.Histories
import OpenMemory.Admin.Redaction
import OpenMemory.Mcp.Updates
import OpenMemory.Lib.Patch
import OpenMemory.Mcp.Patches
import OpenMemory.Mcp.Fidelity
import OpenMemory.Lib.Window
import OpenMemory.Mcp.RateLimits
import OpenMemory.Lib.Keyset
import OpenMemory.Postgres.Sweep
import OpenMemory.Lib.Grouping
import OpenMemory.Evals.Metrics
import OpenMemory.Evals.Harness
import OpenMemory.Evals.Runs
import OpenMemory.Lib.Folds
import OpenMemory.Evals.Calibration
import OpenMemory.Lib.Tags
import OpenMemory.Worker.Signatures
import OpenMemory.Lib.Checks
import OpenMemory.Lib.Naming
import OpenMemory.Lib.Nesting
import OpenMemory.Mcp.LocalFiles
import OpenMemory.Lib.Lockstep
import OpenMemory.Mcp.Local
import OpenMemory.Domain.Serialization
import OpenMemory.Application.Codec
import OpenMemory.Application.Decoder
import OpenMemory.Domain.Conditions
import OpenMemory.Mcp.Contract
import OpenMemory.Mcp.Overruns
import OpenMemory.Lib.Members
import OpenMemory.Server.Packages
import OpenMemory.Server.Validation
import OpenMemory.Server.RoundTrip
