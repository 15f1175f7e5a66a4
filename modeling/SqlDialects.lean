import SqlDialects.Config
import SqlDialects.Describe
import SqlDialects.Proofs.Aggregate.Arrangement
import SqlDialects.Proofs.Aggregate.Embedded
import SqlDialects.Proofs.Aggregate.Filters
import SqlDialects.Proofs.Aggregate.Over
import SqlDialects.Proofs.Building.Calls
import SqlDialects.Proofs.Building.Pending
import SqlDialects.Proofs.Building.Slots
import SqlDialects.Proofs.Condition.Negation
import SqlDialects.Proofs.Cte.Additive
import SqlDialects.Proofs.Cte.Emission
import SqlDialects.Proofs.Cte.Prologue
import SqlDialects.Proofs.Cte.References
import SqlDialects.Proofs.Cte.Walk
import SqlDialects.Proofs.Data.Independence
import SqlDialects.Proofs.Data.Kinds
import SqlDialects.Proofs.Data.Similar
import SqlDialects.Proofs.Engines.Requote
import SqlDialects.Proofs.Engines.Rows
import SqlDialects.Proofs.Engines.Selects
import SqlDialects.Proofs.Engines.Shared
import SqlDialects.Proofs.Engines.Whole
import SqlDialects.Proofs.Insert.Header
import SqlDialects.Proofs.Operator.Rendered
import SqlDialects.Proofs.Operator.Success
import SqlDialects.Proofs.Operator.Vetted
import SqlDialects.Proofs.Operator.Whitelist
import SqlDialects.Proofs.Paging.Clauses
import SqlDialects.Proofs.Paging.Modes
import SqlDialects.Proofs.Paging.Numbered
import SqlDialects.Proofs.Paging.Offset
import SqlDialects.Proofs.Paging.Ordering
import SqlDialects.Proofs.Paging.Pages
import SqlDialects.Proofs.Paging.Selects
import SqlDialects.Proofs.Paging.Statements
import SqlDialects.Proofs.Paging.Top
import SqlDialects.Proofs.Paging.Window
import SqlDialects.Proofs.Placeholder.Agreement
import SqlDialects.Proofs.Placeholder.Alignment
import SqlDialects.Proofs.Placeholder.Batch
import SqlDialects.Proofs.Placeholder.Conditions
import SqlDialects.Proofs.Placeholder.Expand
import SqlDialects.Proofs.Placeholder.Fill
import SqlDialects.Proofs.Placeholder.Order
import SqlDialects.Proofs.Placeholder.Parts
import SqlDialects.Proofs.Placeholder.Reference
import SqlDialects.Proofs.Placeholder.Rows
import SqlDialects.Proofs.Placeholder.Selects
import SqlDialects.Proofs.Quoting.Aliases
import SqlDialects.Proofs.Quoting.Conditions
import SqlDialects.Proofs.Quoting.Keywords
import SqlDialects.Proofs.Quoting.Names
import SqlDialects.Proofs.Quoting.Scan
import SqlDialects.Proofs.Quoting.Selects
import SqlDialects.Proofs.Quoting.Texts
import SqlDialects.Proofs.Quoting.Whole
import SqlDialects.Proofs.Reading.Atoms
import SqlDialects.Proofs.Reading.Denotation
import SqlDialects.Proofs.Reading.Grammar
import SqlDialects.Proofs.Reading.Meaning
import SqlDialects.Proofs.Reading.Operands
import SqlDialects.Proofs.Reading.Rendered
import SqlDialects.Proofs.Reading.Selects
import SqlDialects.Proofs.Reading.Tokens
import SqlDialects.Proofs.Registry.History
import SqlDialects.Proofs.Scope.Conditions
import SqlDialects.Proofs.Scope.Early
import SqlDialects.Proofs.Scope.Lexical
import SqlDialects.Proofs.Scope.Rewrite
import SqlDialects.Proofs.Scope.Rows
import SqlDialects.Proofs.Scope.Selects
import SqlDialects.Proofs.Scope.Standing
import SqlDialects.Proofs.Scope.Values
import SqlDialects.Proofs.Scope.Whole
import SqlDialects.Proofs.Select.Parts
import SqlDialects.Proofs.Select.SameFilter
import SqlDialects.Proofs.Select.SameRows
import SqlDialects.Proofs.SetOperation.Rows
import SqlDialects.Proofs.Special.Bindings
import SqlDialects.Proofs.Special.Plain
import SqlDialects.Proofs.Special.Template
import SqlDialects.Proofs.Statement.Aggregated
import SqlDialects.Proofs.Statement.Ctes
import SqlDialects.Proofs.Statement.Filtered
import SqlDialects.Proofs.Statement.Lookup
import SqlDialects.Proofs.Statement.Steps
import SqlDialects.Proofs.Statement.Terms
import SqlDialects.Proofs.Storage.Families
import SqlDialects.Proofs.Storage.Numerals
import SqlDialects.Proofs.Storage.Pending
import SqlDialects.Proofs.Storage.Printed
import SqlDialects.Proofs.Storage.Reread
import SqlDialects.Proofs.Storage.RoundTrip
import SqlDialects.Proofs.Storage.Stored
import SqlDialects.Proofs.Storage.Texts
import SqlDialects.Proofs.Storage.Values
import SqlDialects.Proofs.Storage.Written
import SqlDialects.Proofs.Text.BraceLists
import SqlDialects.Proofs.Text.Caseless
import SqlDialects.Proofs.Text.Mark
import SqlDialects.Proofs.Text.Occurs
import SqlDialects.Proofs.Text.Passes
import SqlDialects.Proofs.Text.Pieces
import SqlDialects.Proofs.Text.Unbraced
import SqlDialects.Proofs.Text.Unescaped
import SqlDialects.Proofs.Text.Verbatim
import SqlDialects.Proofs.Text.Words
import SqlDialects.Proofs.Twin.Alike
import SqlDialects.Proofs.Twin.Compiled
import SqlDialects.Proofs.Twin.Conditions
import SqlDialects.Proofs.Twin.Rows
import SqlDialects.Proofs.Twin.Selects
import SqlDialects.Proofs.Visibility.Foreign
import SqlDialects.Proofs.Visibility.Scoped
import SqlDialects.Registry
import SqlDialects.Statement.Same
import SqlDialects.Storage.Read
import SqlDialects.Storage.Write
