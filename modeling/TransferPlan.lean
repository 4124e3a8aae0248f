import TransferPlan.Binary64.Basic
import TransferPlan.Binary64.Decimal
import TransferPlan.Compile.Bridge
import TransferPlan.Compile.Expression
import TransferPlan.Compile.Mutation
import TransferPlan.Compile.Stage
import TransferPlan.Connection.Address
import TransferPlan.Connection.Basic
import TransferPlan.Connection.Url
import TransferPlan.Definition.Lookup
import TransferPlan.Definition.Service
import TransferPlan.Digest.Sha256
import TransferPlan.Drift
import TransferPlan.Endpoint.Basic
import TransferPlan.Endpoint.Request
import TransferPlan.Graph.Components
import TransferPlan.Graph.Countdown
import TransferPlan.Json.Basic
import TransferPlan.Json.Reader
import TransferPlan.Json.Writer
import TransferPlan.Keyed
import TransferPlan.Pass.Basic
import TransferPlan.Pass.Order
import TransferPlan.Plan
import TransferPlan.Proofs.Compile.Arguments
import TransferPlan.Proofs.Compile.Assignments
import TransferPlan.Proofs.Compile.Branches
import TransferPlan.Proofs.Compile.Bridge
import TransferPlan.Proofs.Compile.CacheKey
import TransferPlan.Proofs.Compile.Configuration
import TransferPlan.Proofs.Compile.Content
import TransferPlan.Proofs.Compile.Definitions
import TransferPlan.Proofs.Compile.Fetched
import TransferPlan.Proofs.Compile.Functions
import TransferPlan.Proofs.Compile.Lines
import TransferPlan.Proofs.Compile.Partition
import TransferPlan.Proofs.Compile.Quotation
import TransferPlan.Proofs.Compile.Run
import TransferPlan.Proofs.Compile.Stages
import TransferPlan.Proofs.Compile.Treatment
import TransferPlan.Proofs.Connection.Forms
import TransferPlan.Proofs.Connection.Malformed
import TransferPlan.Proofs.Definition.Address
import TransferPlan.Proofs.Definition.Answer
import TransferPlan.Proofs.Drift
import TransferPlan.Proofs.Endpoint.Compile
import TransferPlan.Proofs.Endpoint.RowCount
import TransferPlan.Proofs.Graph.Components
import TransferPlan.Proofs.Graph.Countdown
import TransferPlan.Proofs.Graph.Least
import TransferPlan.Proofs.Graph.Linear
import TransferPlan.Proofs.Graph.Search
import TransferPlan.Proofs.Keyed
import TransferPlan.Proofs.Lists
import TransferPlan.Proofs.Pass.Blocked
import TransferPlan.Proofs.Pass.Circle
import TransferPlan.Proofs.Pass.Completeness
import TransferPlan.Proofs.Pass.Groups
import TransferPlan.Proofs.Pass.Interleaving
import TransferPlan.Proofs.Pass.Least
import TransferPlan.Proofs.Pass.Line
import TransferPlan.Proofs.Pass.Part
import TransferPlan.Proofs.Pass.Plan
import TransferPlan.Proofs.Pass.Precedence
import TransferPlan.Proofs.Pass.Reordered
import TransferPlan.Proofs.Pass.Satisfaction
import TransferPlan.Proofs.Pass.Scope
import TransferPlan.Proofs.Pass.Split
import TransferPlan.Proofs.Pass.Success
import TransferPlan.Proofs.Pass.Validity
import TransferPlan.Proofs.Plan.Binding
import TransferPlan.Proofs.Plan.Bridging
import TransferPlan.Proofs.Plan.Build
import TransferPlan.Proofs.Plan.Cancellation
import TransferPlan.Proofs.Plan.Columns
import TransferPlan.Proofs.Plan.Content
import TransferPlan.Proofs.Plan.Definitions
import TransferPlan.Proofs.Plan.Permutation
import TransferPlan.Proofs.Plan.Places
import TransferPlan.Proofs.Plan.Positions
import TransferPlan.Proofs.Plan.Transformers
import TransferPlan.Proofs.Plan.Unmapped
import TransferPlan.Proofs.Reference
import TransferPlan.Proofs.Schema.Folding
import TransferPlan.Proofs.Schema.Lookup
import TransferPlan.Proofs.Schema.Served
import TransferPlan.Proofs.Schema.Styles
import TransferPlan.Proofs.Schema.Unreadable
import TransferPlan.Proofs.TableName
import TransferPlan.Proofs.Text.Ascii
import TransferPlan.Proofs.Text.Names
import TransferPlan.Proofs.Text.Percent
import TransferPlan.Proofs.Text.Trimmed
import TransferPlan.Reading.Basic
import TransferPlan.Reading.Value
import TransferPlan.Reference
import TransferPlan.RowCount
import TransferPlan.Schema.Column
import TransferPlan.Schema.Constraint
import TransferPlan.Schema.Row
import TransferPlan.Settings
import TransferPlan.TableName
import TransferPlan.Text.Blank
import TransferPlan.Text.LetterCase
import TransferPlan.Text.Numeral
import TransferPlan.Text.Percent
import TransferPlan.Text.Printable
import TransferPlan.Text.Quoted
import TransferPlan.Text.Ranges
import TransferPlan.Transformer.Config
import TransferPlan.Transformer.Mapping
import TransferPlan.Transformer.Source
