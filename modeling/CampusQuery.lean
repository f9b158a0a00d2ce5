import CampusQuery.Dataset.Operation
import CampusQuery.Main
import CampusQuery.Service.Startup
import CampusQuery.Proofs.Query.Grammar
import CampusQuery.Proofs.Query.Options
import CampusQuery.Proofs.Query.Documents
import CampusQuery.Proofs.Query.Matching
import CampusQuery.Proofs.Query.Aggregates
import CampusQuery.Proofs.Query.Rows
import CampusQuery.Proofs.Query.Running
import CampusQuery.Proofs.Numeric.Finiteness
import CampusQuery.Proofs.Json.Entries
import CampusQuery.Proofs.Numeric.Numerals
import CampusQuery.Proofs.Query.FiniteCells
import CampusQuery.Proofs.Dataset.History
import CampusQuery.Proofs.Query.Naming
import CampusQuery.Proofs.Query.Independence
import CampusQuery.Proofs.Numeric.Closest
import CampusQuery.Proofs.Record.Decoding
import CampusQuery.Proofs.Query.Ingestion
import CampusQuery.Proofs.Service.Routes
import CampusQuery.Proofs.Service.Outcomes
import CampusQuery.Proofs.Service.Bodies
import CampusQuery.Proofs.Service.Exchanges
import CampusQuery.Proofs.Query.BooleanLaws
import CampusQuery.Proofs.Query.Classes
import CampusQuery.Proofs.Query.Identity
import CampusQuery.Proofs.Query.Groups
import CampusQuery.Proofs.Query.Variants
import CampusQuery.Proofs.Query.Rephrasing
import CampusQuery.Proofs.Config.Settings
import CampusQuery.Proofs.Numeric.PlainValues
import CampusQuery.Proofs.Numeric.DecimalValues
import CampusQuery.Proofs.Numeric.HundredthNumbers
import CampusQuery.Proofs.Query.Sums
import CampusQuery.Proofs.Numeric.Quotients
import CampusQuery.Proofs.Query.Means
import CampusQuery.Proofs.Numeric.Positions
import CampusQuery.Proofs.Numeric.Comparison
import CampusQuery.Proofs.Numeric.Intervals
import CampusQuery.Proofs.Numeric.ShortestDecimals
import CampusQuery.Proofs.Query.CellTypes
import CampusQuery.Proofs.Query.Sorting
import CampusQuery.Proofs.Query.RowCap
import CampusQuery.Proofs.Query.Globs
import CampusQuery.Proofs.Query.Distinct
import CampusQuery.Proofs.Query.Extremes
import CampusQuery.Proofs.Json.Lists
import CampusQuery.Proofs.Json.PlainNumbers
import CampusQuery.Proofs.Dataset.SeedFiles
import CampusQuery.Proofs.Dataset.Seeding
import CampusQuery.Proofs.Record.Roundtrip
import CampusQuery.Proofs.Query.Splitting
import CampusQuery.Proofs.Service.Origins
import CampusQuery.Proofs.Text.Csv
import CampusQuery.Proofs.CommandLine.Runs
import CampusQuery.Proofs.CommandLine.Reports
import CampusQuery.Proofs.Text.Table
import CampusQuery.Proofs.CommandLine.Tables
import CampusQuery.Proofs.Query.WorkQueue
import CampusQuery.Proofs.Query.Descent
import CampusQuery.Proofs.Query.EqualityGroups
