import FaultDrill.Main
import FaultDrill.Inspection
import FaultDrill.Pool.Bench
import FaultDrill.World.Session
import FaultDrill.Config.Json
import FaultDrill.Proofs.Pool.Step
import FaultDrill.Proofs.Pool.Run
import FaultDrill.Proofs.Pool.Total
import FaultDrill.Proofs.Pool.Latch
import FaultDrill.Proofs.Pool.Shutdown
import FaultDrill.Proofs.Pool.Sentinel
import FaultDrill.Proofs.Pool.Ledger
import FaultDrill.Proofs.Pool.Waiting
import FaultDrill.Proofs.Pool.Progress
import FaultDrill.Proofs.Pool.Rank
import FaultDrill.Proofs.Report
import FaultDrill.Proofs.Source
import FaultDrill.Proofs.Driver.Exact
import FaultDrill.Proofs.Policy
import FaultDrill.Proofs.Timeline
import FaultDrill.Proofs.Driver.Pool
import FaultDrill.Proofs.FaultRun
import FaultDrill.Proofs.World
import FaultDrill.Proofs.Driver.Message
import FaultDrill.Proofs.Store.History
import FaultDrill.Proofs.World.Step
import FaultDrill.Proofs.Outage
import FaultDrill.Proofs.Outage.Overlap
import FaultDrill.Proofs.Driver.Supply
import FaultDrill.Proofs.Pool.Answers
import FaultDrill.Proofs.Source.Streams
import FaultDrill.Proofs.Store.Holding
import FaultDrill.Proofs.Aggregate
import FaultDrill.Proofs.World.Stock
import FaultDrill.Proofs.World.Post
import FaultDrill.Proofs.Rehearsal
import FaultDrill.Proofs.Pool.Flag
import FaultDrill.Proofs.Collection
import FaultDrill.Proofs.World.Await
import FaultDrill.Proofs.Pool.Bound
import FaultDrill.Proofs.Pool.Service
import FaultDrill.Proofs.Pool.Settle
import FaultDrill.Proofs.Decimal
import FaultDrill.Proofs.Json.Reading
import FaultDrill.Proofs.Json.Data
import FaultDrill.Proofs.Sink
import FaultDrill.Proofs.Store.Place
import FaultDrill.Proofs.Store.Serial
import FaultDrill.Proofs.Store.Failure
import FaultDrill.Proofs.Store.Latest
import FaultDrill.Proofs.Pool.Accept
import FaultDrill.Proofs.Driver.Cover
import FaultDrill.Proofs.Driver.Rest
import FaultDrill.Proofs.Report.Timeless
import FaultDrill.Proofs.Driver.Accounts
import FaultDrill.Proofs.World.Alone
import FaultDrill.Proofs.World.ReadBack
import FaultDrill.Proofs.Toml.Quoted
import FaultDrill.Proofs.Toml.Reading
import FaultDrill.Proofs.Toml.Document
import FaultDrill.Proofs.Toml.Range
import FaultDrill.Proofs.Config
import FaultDrill.Proofs.Config.Start
import FaultDrill.Proofs.Driver.Tale
import FaultDrill.Proofs.World.Chronicle
import FaultDrill.Proofs.Record
import FaultDrill.Proofs.Rehearsal.Story
import FaultDrill.Proofs.Rehearsal.Log
import FaultDrill.Proofs.Pool.Order
import FaultDrill.Proofs.Pool.Bench
import FaultDrill.Proofs.Pool.Rounds
import FaultDrill.Proofs.Policy.Looser
import FaultDrill.Proofs.Window
import FaultDrill.Proofs.Window.Waiting
import FaultDrill.Proofs.World.Bracket
import FaultDrill.Proofs.Policy.Saturation
import FaultDrill.Proofs.Aggregate.Release
import FaultDrill.Proofs.Driver.Turn
import FaultDrill.Proofs.Pool.Offer
import FaultDrill.Proofs.Pool.Drain
import FaultDrill.Proofs.Driver.Course
import FaultDrill.Proofs.Driver.Intake
import FaultDrill.Proofs.Driver.Quit
import FaultDrill.Proofs.Driver.Abandon
import FaultDrill.Proofs.Driver.Halt
import FaultDrill.Proofs.World.Course
import FaultDrill.Proofs.World.Stopping
import FaultDrill.Proofs.World.Abandon
import FaultDrill.Proofs.Source.Answers
import FaultDrill.Proofs.Source.Naming
import FaultDrill.Proofs.Source.Copies
import FaultDrill.Proofs.Outage.Deletion
import FaultDrill.Proofs.Outage.Degraded
import FaultDrill.Proofs.Aggregate.Accounting
import FaultDrill.Proofs.Store.Corruption
