import DocMapper.Cascade
import DocMapper.Context.Basic
import DocMapper.Context.Entities
import DocMapper.Context.Links
import DocMapper.Entity.Basic
import DocMapper.Entity.Chunk
import DocMapper.Entity.Id
import DocMapper.Error
import DocMapper.Fields
import DocMapper.Filter.Basic
import DocMapper.Filter.Compile
import DocMapper.Json.Extended
import DocMapper.Json.Reader
import DocMapper.Number.Decimal128
import DocMapper.Number.Double
import DocMapper.Number.Text
import DocMapper.Path.Rendering
import DocMapper.Proofs.Cascade.Batching
import DocMapper.Proofs.Cascade.Calls
import DocMapper.Proofs.Cascade.Clearing
import DocMapper.Proofs.Cascade.Effect
import DocMapper.Proofs.Cascade.IdDelete
import DocMapper.Proofs.Cascade.Keeping
import DocMapper.Proofs.Cascade.Matching
import DocMapper.Proofs.Cascade.Paging
import DocMapper.Proofs.Cascade.Reports
import DocMapper.Proofs.Cascade.Sides
import DocMapper.Proofs.Cascade.Skipped
import DocMapper.Proofs.Cascade.Unlinking
import DocMapper.Proofs.Context.Confinement
import DocMapper.Proofs.Context.Finding
import DocMapper.Proofs.Context.Positions
import DocMapper.Proofs.Context.Routes
import DocMapper.Proofs.Context.SavedRuns
import DocMapper.Proofs.Context.Saving
import DocMapper.Proofs.Context.Steps
import DocMapper.Proofs.Context.Tokens
import DocMapper.Proofs.Entity.Identifiers
import DocMapper.Proofs.Filter.Grammar
import DocMapper.Proofs.Filter.ListedValues
import DocMapper.Proofs.Filter.Membership
import DocMapper.Proofs.Filter.Merging
import DocMapper.Proofs.Filter.Ranges
import DocMapper.Proofs.Integrity.Counting
import DocMapper.Proofs.Integrity.Invariant
import DocMapper.Proofs.Integrity.Operations
import DocMapper.Proofs.Integrity.RelationRuns
import DocMapper.Proofs.Integrity.Runs
import DocMapper.Proofs.Json.Contents
import DocMapper.Proofs.Json.Items
import DocMapper.Proofs.Json.Nesting
import DocMapper.Proofs.Number.Integers
import DocMapper.Proofs.Number.Rounding
import DocMapper.Proofs.Number.TotalOrder
import DocMapper.Proofs.Path.Forms
import DocMapper.Proofs.Path.Numbering
import DocMapper.Proofs.Path.ReadingBack
import DocMapper.Proofs.Path.Validity
import DocMapper.Proofs.Regex.Language
import DocMapper.Proofs.Relation.Acceptance
import DocMapper.Proofs.Relation.BothEnds
import DocMapper.Proofs.Relation.Building
import DocMapper.Proofs.Relation.Declarations
import DocMapper.Proofs.Relation.HandleRuns
import DocMapper.Proofs.Relation.JoinNames
import DocMapper.Proofs.Relation.LinkChanges
import DocMapper.Proofs.Relation.LinkRows
import DocMapper.Proofs.Relation.LinkRuns
import DocMapper.Proofs.Relation.Linking
import DocMapper.Proofs.Relation.Listing
import DocMapper.Proofs.Relation.OwnerRuns
import DocMapper.Proofs.Relation.Registry
import DocMapper.Proofs.Relation.RemovingEach
import DocMapper.Proofs.Store.Contents
import DocMapper.Proofs.Store.Cursors
import DocMapper.Proofs.Store.Deletion
import DocMapper.Proofs.Store.Evolution
import DocMapper.Proofs.Store.Histories
import DocMapper.Proofs.Store.Identity
import DocMapper.Proofs.Store.Issuing
import DocMapper.Proofs.Store.Journals
import DocMapper.Proofs.Store.Reading
import DocMapper.Proofs.Store.Refusals
import DocMapper.Proofs.Store.Replacing
import DocMapper.Proofs.Store.Runs
import DocMapper.Proofs.Store.Snapshots
import DocMapper.Proofs.Store.Steps
import DocMapper.Proofs.Store.Writing
import DocMapper.Proofs.Template.Appending
import DocMapper.Proofs.Template.Division
import DocMapper.Proofs.Template.Registrations
import DocMapper.Proofs.Template.Rendering
import DocMapper.Proofs.Template.SelfNaming
import DocMapper.Proofs.Template.Splicing
import DocMapper.Proofs.Template.Stages
import DocMapper.Proofs.Traversal
import DocMapper.Proofs.Value.KeyEquality
import DocMapper.Proofs.Value.Keys
import DocMapper.Proofs.Value.NumberOrder
import DocMapper.Proofs.Value.Positions
import DocMapper.Proofs.Value.Symmetry
import DocMapper.Proofs.Value.TypeOrder
import DocMapper.Regex.Parser
import DocMapper.Regex.Pattern
import DocMapper.Regex.Plan
import DocMapper.Regex.Space
import DocMapper.Relation.Descriptor
import DocMapper.Relation.JoinCollection
import DocMapper.Relation.JoinName
import DocMapper.Results
import DocMapper.Sample.Model
import DocMapper.Sample.Publishing
import DocMapper.Sample.Shop
import DocMapper.Store.Basic
import DocMapper.Store.Catalog
import DocMapper.Store.Collection
import DocMapper.Store.Find
import DocMapper.Store.Write
import DocMapper.Template.Basic
import DocMapper.Text.Alphanumeric
import DocMapper.Text.CodeRange
import DocMapper.Text.Encoding
import DocMapper.Text.Printable
import DocMapper.Text.Segments
import DocMapper.Text.Utf8
import DocMapper.Time.Timestamp
import DocMapper.Uuid
import DocMapper.Value.Basic
import DocMapper.Value.Key
import DocMapper.Value.Order
import DocMapper.Value.Reach
import DocMapper.Value.Scalar
import DocMapper.Value.Tagged
import DocMapper.Value.Text
