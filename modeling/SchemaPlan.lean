import SchemaPlan.Main
import SchemaPlan.Proofs.Body.Names
import SchemaPlan.Proofs.Body.Semicolons
import SchemaPlan.Proofs.Body.Skeleton
import SchemaPlan.Proofs.Definition.Additions
import SchemaPlan.Proofs.Definition.Bodies
import SchemaPlan.Proofs.Definition.Defaults
import SchemaPlan.Proofs.Definition.Discipline
import SchemaPlan.Proofs.Definition.Division
import SchemaPlan.Proofs.Definition.Header
import SchemaPlan.Proofs.Join.DottedNames
import SchemaPlan.Proofs.Join.Fixpoint
import SchemaPlan.Proofs.Join.Presence
import SchemaPlan.Proofs.Json.Unambiguous
import SchemaPlan.Proofs.Plan.Directions
import SchemaPlan.Proofs.Plan.ResultNames
import SchemaPlan.Proofs.Procedure.ClauseWords
import SchemaPlan.Proofs.Procedure.Isolation
import SchemaPlan.Proofs.Procedure.ResultSets
import SchemaPlan.Proofs.Query.Names
import SchemaPlan.Proofs.Query.SingleRow
import SchemaPlan.Proofs.Resolve.ColumnLists
import SchemaPlan.Proofs.Resolve.Nullability
import SchemaPlan.Proofs.Resolve.Recasing
import SchemaPlan.Proofs.Resolve.UsableAliases
import SchemaPlan.Proofs.Schema.ColumnNames
import SchemaPlan.Proofs.Schema.Identity
import SchemaPlan.Proofs.Schema.Keys
import SchemaPlan.Proofs.Schema.Order
import SchemaPlan.Proofs.Schema.Relationships
import SchemaPlan.Proofs.Schema.UnknownTypes
import SchemaPlan.Proofs.Script.Fallback
import SchemaPlan.Proofs.Script.Lines
import SchemaPlan.Proofs.Script.Partition
import SchemaPlan.Proofs.Token.Slices
import SchemaPlan.Proofs.View.Search
