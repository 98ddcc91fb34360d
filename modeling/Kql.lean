import Kql.Database.Recorder
import Kql.Main
import Kql.Pipeline.Call
import Kql.Schema.OfJson
import Kql.Proofs.BuilderSteps
import Kql.Proofs.Reachable
import Kql.Proofs.ExprTokens
import Kql.Proofs.JoinColumns
import Kql.Proofs.ExprReader
import Kql.Proofs.ArithmeticText
import Kql.Proofs.BooleanText
import Kql.Proofs.Conditions
import Kql.Proofs.FilterMeaning
import Kql.Proofs.Substitution
import Kql.Proofs.Relaxation
import Kql.Proofs.Brackets
import Kql.Proofs.EnclosedTexts
import Kql.Proofs.ClauseBoundaries
import Kql.Proofs.ExecutorLog
import Kql.Proofs.ListedColumns
import Kql.Proofs.Retyping
import Kql.Proofs.ColumnLookup
import Kql.Proofs.OpenSchemas
import Kql.Proofs.OutputColumns
import Kql.Proofs.HandleTypes
import Kql.Proofs.NumberTexts
import Kql.Proofs.LiteralReader
import Kql.Proofs.TableReader
import Kql.Proofs.DynamicOperands
import Kql.Proofs.FieldText
import Kql.Proofs.Concatenation
import Kql.Proofs.SetCommands
import Kql.Proofs.CommandKinds
import Kql.Proofs.SummarizeCalls
import Kql.Proofs.KeptAggregates
import Kql.Proofs.AssignedColumns
import Kql.Proofs.AppendedClauses
import Kql.Proofs.NamedColumns
import Kql.Proofs.SchemaForms
import Kql.Proofs.SchemasOfColumns
import Kql.Proofs.WrittenSchemas
import Kql.Proofs.FieldChains
import Kql.Proofs.AggregateNames
