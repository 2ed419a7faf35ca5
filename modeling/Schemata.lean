import Schemata.Main
import Schemata.Store.Scripted
import Schemata.Proofs.Text.Basic
import Schemata.Proofs.Text.Scan
import Schemata.Proofs.Dialect.Lines
import Schemata.Proofs.Dialect.Layout
import Schemata.Proofs.Dialect.RoundTrip
import Schemata.Proofs.Ddl.Clauses
import Schemata.Proofs.Dialect.Fate
import Schemata.Proofs.Ddl.Account
import Schemata.Proofs.Materialize.Trace
import Schemata.Proofs.Materialize.Isolation
import Schemata.Proofs.Store.Writes
import Schemata.Proofs.Store.Rollback
import Schemata.Proofs.Store.Patterns
import Schemata.Proofs.Sql.Transactions
import Schemata.Proofs.Sql.Definitions
import Schemata.Proofs.Sql.Tables
import Schemata.Proofs.Sql.Reads
import Schemata.Proofs.Sql.DeclaredKeys
import Schemata.Proofs.Materialize.Tables
import Schemata.Proofs.Materialize.Applied
import Schemata.Proofs.Materialize.Idempotence
import Schemata.Proofs.Materialize.Atomicity
import Schemata.Proofs.Materialize.ForeignKeys
import Schemata.Proofs.Connection.Masking
import Schemata.Proofs.Materialize.Listing
import Schemata.Proofs.Dialect.Down
import Schemata.Proofs.Dialect.Extent
import Schemata.Proofs.Dialect.Gaps
import Schemata.Proofs.Dialect.Joined
import Schemata.Proofs.Ddl.Joined
import Schemata.Proofs.Text.Places
import Schemata.Proofs.Dialect.Tokens
import Schemata.Proofs.Dialect.Findings
import Schemata.Proofs.Dialect.Places
import Schemata.Proofs.Ddl.Places
import Schemata.Proofs.Ddl.Trimmed
import Schemata.Proofs.Generator.Fences
import Schemata.Proofs.Materialize.Generated
import Schemata.Proofs.Connection.KeyValues
import Schemata.Proofs.Connection.UrlMasking
import Schemata.Proofs.Text.Returns
import Schemata.Proofs.Ddl.LineEndings
import Schemata.Proofs.Dialect.Entries
import Schemata.Proofs.Ddl.LocalColumns
import Schemata.Proofs.Materialize.Duplicates
import Schemata.Proofs.Json.Layout
import Schemata.Proofs.Json.Scalars
import Schemata.Proofs.Json.Members
import Schemata.Proofs.Json.Keeping
import Schemata.Proofs.Config.RoundTrip
import Schemata.Proofs.Dialect.ConstraintSets
import Schemata.Proofs.Ddl.AutoIncrement
import Schemata.Proofs.Ddl.QuotedDefaults
import Schemata.Proofs.Dialect.Comments
import Schemata.Proofs.Dialect.Groups
import Schemata.Proofs.Text.Grammar
import Schemata.Proofs.Dialect.Grammar
import Schemata.Proofs.Dialect.Blocks
import Schemata.Proofs.Dialect.Runs
import Schemata.Proofs.Dialect.Pieces
import Schemata.Proofs.Dialect.Splitting
import Schemata.Proofs.Text.Words
import Schemata.Proofs.Dialect.Phrases
import Schemata.Proofs.Ddl.Meaning
import Schemata.Proofs.Ddl.Defaults
import Schemata.Proofs.Generator.Cleaning
import Schemata.Proofs.Materialize.StatementCount
