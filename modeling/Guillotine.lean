import Guillotine.Batch.Basic
import Guillotine.Batch.Solution
import Guillotine.Board.Audit
import Guillotine.Board.Filling
import Guillotine.Board.Fit
import Guillotine.Board.FreeList
import Guillotine.Board.Layout
import Guillotine.Cache.Backend
import Guillotine.Cache.Entry
import Guillotine.Cache.FolderStore
import Guillotine.Cache.MemoryStore
import Guillotine.Cache.Monitored
import Guillotine.Cache.Results
import Guillotine.Cache.ScoredSet
import Guillotine.Cache.Storage
import Guillotine.Calendar.Date
import Guillotine.Calendar.Duration
import Guillotine.Calendar.Timestamp
import Guillotine.Calendar.TimestampReader
import Guillotine.CommandLine.Arguments
import Guillotine.CommandLine.Session
import Guillotine.Decimal.Binary64
import Guillotine.Decimal.Fixed
import Guillotine.Decimal.Nearest
import Guillotine.Decimal.Order
import Guillotine.Decimal.Shortest
import Guillotine.Documents.Board
import Guillotine.Documents.Report
import Guillotine.Documents.Request
import Guillotine.Documents.Settings
import Guillotine.Documents.Stock
import Guillotine.Documents.Timestamp
import Guillotine.Fault
import Guillotine.Files.Disk
import Guillotine.Files.Path
import Guillotine.Journal
import Guillotine.Json.Basic
import Guillotine.Json.Codec
import Guillotine.Json.Lexer
import Guillotine.Json.Parser
import Guillotine.Json.Writer
import Guillotine.Main
import Guillotine.Plan.Basic
import Guillotine.Plan.Packer
import Guillotine.Plane.Rect
import Guillotine.Plane.Split
import Guillotine.Report.Basic
import Guillotine.Report.OfPlan
import Guillotine.Request.Basic
import Guillotine.Request.Canonical
import Guillotine.Request.Intake
import Guillotine.Request.Sha256
import Guillotine.Service
import Guillotine.Settings
import Guillotine.Stock.Material
import Guillotine.Stock.Piece
import Guillotine.Stock.Rejection
import Guillotine.Table
import Guillotine.Text
import Guillotine.Proofs.Returns
import Guillotine.Proofs.Plane.Cuttable
import Guillotine.Proofs.Plane.Parts
import Guillotine.Proofs.Board.FreeList
import Guillotine.Proofs.Board.Reached
import Guillotine.Proofs.Board.Feasible
import Guillotine.Proofs.Board.Room
import Guillotine.Proofs.Plan.Run
import Guillotine.Proofs.Plan.Solutions
import Guillotine.Proofs.Plan.Leftovers
import Guillotine.Proofs.Decimal.Packing
import Guillotine.Proofs.Decimal.Nearest
import Guillotine.Proofs.Json.Numerals
import Guillotine.Proofs.Json.Tokens
import Guillotine.Proofs.Json.Trees
import Guillotine.Proofs.Json.Values
import Guillotine.Proofs.Documents.Report
import Guillotine.Proofs.Decimal.Order
import Guillotine.Proofs.Request.Canonical
import Guillotine.Proofs.Alike
import Guillotine.Proofs.Board.Alike
import Guillotine.Proofs.Plan.Alike
import Guillotine.Proofs.Report.Alike
import Guillotine.Proofs.Request.Demand
import Guillotine.Proofs.Request.Order
import Guillotine.Proofs.Request.Classes
import Guillotine.Proofs.Cache.Results
import Guillotine.Proofs.Service.Answers
import Guillotine.Proofs.Service.History
import Guillotine.Proofs.Service.Permuted
import Guillotine.Proofs.Board.Tiling
import Guillotine.Proofs.Plan.Tiling
import Guillotine.Proofs.Cache.Composed
import Guillotine.Proofs.Cache.TextStore
import Guillotine.Proofs.Documents.Entry
import Guillotine.Proofs.Service.Recall
import Guillotine.Proofs.Service.Retrieval
import Guillotine.Proofs.Files.Disk
import Guillotine.Proofs.Calendar.Date
import Guillotine.Proofs.Calendar.Timestamp
import Guillotine.Proofs.Decimal.Signed
import Guillotine.Proofs.Cache.ScoredSet
import Guillotine.Proofs.Documents.Stored
import Guillotine.Proofs.Cache.FolderStore
import Guillotine.Proofs.Cache.Mirror
import Guillotine.Proofs.Service.Backends
import Guillotine.Proofs.Plane.Areas
import Guillotine.Proofs.Plane.Edges
import Guillotine.Proofs.Plane.Exact
import Guillotine.Proofs.Board.Exact
import Guillotine.Proofs.Board.Audit
import Guillotine.Proofs.Request.Mentions
import Guillotine.Proofs.Service.Mentions
import Guillotine.Proofs.Service.Breaks
import Guillotine.Proofs.Plan.Accounts
import Guillotine.Proofs.Plan.Separate
import Guillotine.Proofs.Plan.Watched
import Guillotine.Proofs.Leads
import Guillotine.Proofs.Plan.Following
import Guillotine.Proofs.Board.BestFit
import Guillotine.Proofs.Board.Sifted
import Guillotine.Proofs.Plan.Sifted
import Guillotine.Proofs.Board.Moved
import Guillotine.Proofs.Plan.Moved
import Guillotine.Proofs.Board.Distances
import Guillotine.Proofs.Plan.Totals
import Guillotine.Proofs.Plan.Limited
import Guillotine.Proofs.Plan.Blocks
import Guillotine.Proofs.Plan.Ranked
import Guillotine.Proofs.Plan.Respelled
import Guillotine.Proofs.Plan.Rejected
import Guillotine.Proofs.Documents.Stock
import Guillotine.Proofs.Documents.Solution
import Guillotine.Proofs.Documents.Stable
import Guillotine.Proofs.Board.BestSpot
import Guillotine.Proofs.Board.Pruning
import Guillotine.Proofs.Bytes
import Guillotine.Proofs.Cache.Scores
import Guillotine.Proofs.Cache.Pages
import Guillotine.Proofs.Board.Changes
import Guillotine.Proofs.Board.Arena
import Guillotine.Proofs.Files.Changes
import Guillotine.Proofs.Cache.Failures
import Guillotine.Proofs.Cache.FolderTexts
import Guillotine.Proofs.Cache.Additions
import Guillotine.Proofs.Cache.Spared
import Guillotine.Proofs.Batch.Solutions
import Guillotine.Proofs.Board.Replaced
import Guillotine.Proofs.Plane.Rules
