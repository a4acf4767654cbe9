import LateralSql.DateTime
import LateralSql.Decimal
import LateralSql.Double.Binary
import LateralSql.Double.Convert
import LateralSql.Double.Shortest
import LateralSql.Double.Text
import LateralSql.Geometry.Basic
import LateralSql.Geometry.Crs
import LateralSql.Geometry.GeoJson
import LateralSql.Geometry.Read
import LateralSql.Geometry.WellKnownText
import LateralSql.Json.Basic
import LateralSql.Json.Outline
import LateralSql.Json.Printer
import LateralSql.Json.Reader
import LateralSql.Json.Record
import LateralSql.Json.Skim
import LateralSql.Keyed
import LateralSql.Proofs.AcceptedSchemas
import LateralSql.Proofs.Additions
import LateralSql.Proofs.AggregateExpressions
import LateralSql.Proofs.AggregateResults
import LateralSql.Proofs.AliasAgreement
import LateralSql.Proofs.AlikeRequests
import LateralSql.Proofs.CheckedAccess
import LateralSql.Proofs.Clauses
import LateralSql.Proofs.ClosedQueries
import LateralSql.Proofs.ColumnSharing
import LateralSql.Proofs.Connectives
import LateralSql.Proofs.Contents
import LateralSql.Proofs.Correlations
import LateralSql.Proofs.DanglingReferences
import LateralSql.Proofs.DateTimeTexts
import LateralSql.Proofs.DigitTexts
import LateralSql.Proofs.DistinctKeys
import LateralSql.Proofs.Drafts
import LateralSql.Proofs.EquivalentSystems
import LateralSql.Proofs.Evaluation
import LateralSql.Proofs.ExposedKeys
import LateralSql.Proofs.FilterFaults
import LateralSql.Proofs.FilterMeaning
import LateralSql.Proofs.FilterPaths
import LateralSql.Proofs.Footprints
import LateralSql.Proofs.Grouping
import LateralSql.Proofs.IntegerLiterals
import LateralSql.Proofs.InverseRelations
import LateralSql.Proofs.JoinKeyAgreement
import LateralSql.Proofs.JsonTrees
import LateralSql.Proofs.KeyMaps
import LateralSql.Proofs.KeyTables
import LateralSql.Proofs.KeyedLists
import LateralSql.Proofs.KeyedRows
import LateralSql.Proofs.Lexing
import LateralSql.Proofs.ListedColumns
import LateralSql.Proofs.Lockstep
import LateralSql.Proofs.MaskedSelects
import LateralSql.Proofs.NearestDoubles
import LateralSql.Proofs.NestedFetching
import LateralSql.Proofs.NodeParts
import LateralSql.Proofs.NormalConditions
import LateralSql.Proofs.Outcomes
import LateralSql.Proofs.Outputs
import LateralSql.Proofs.PagingNumbers
import LateralSql.Proofs.ParamModes
import LateralSql.Proofs.Phrases
import LateralSql.Proofs.Positions
import LateralSql.Proofs.Precedence
import LateralSql.Proofs.QualifiedTables
import LateralSql.Proofs.ReadIntegers
import LateralSql.Proofs.Reading
import LateralSql.Proofs.ReferenceSystems
import LateralSql.Proofs.Regrouping
import LateralSql.Proofs.Relations
import LateralSql.Proofs.Rendering
import LateralSql.Proofs.RestrictedJoins
import LateralSql.Proofs.RewrittenSelects
import LateralSql.Proofs.Runs
import LateralSql.Proofs.ScopedConditions
import LateralSql.Proofs.Scoping
import LateralSql.Proofs.Shapes
import LateralSql.Proofs.StableGrouping
import LateralSql.Proofs.StatementLexing
import LateralSql.Proofs.Suppression
import LateralSql.Proofs.Symbols
import LateralSql.Proofs.TotalOrder
import LateralSql.Proofs.Truth
import LateralSql.Proofs.ValueEquality
import LateralSql.Proofs.ValueIndependence
import LateralSql.Proofs.ValueOrder
import LateralSql.Proofs.WellKnownGrammar
import LateralSql.Proofs.WellKnownReading
import LateralSql.Proofs.WellKnownTexts
import LateralSql.Query.Aggregate
import LateralSql.Query.Compiled
import LateralSql.Query.Compiler
import LateralSql.Query.Condition
import LateralSql.Query.Draft
import LateralSql.Query.Error
import LateralSql.Query.Keys
import LateralSql.Query.Link
import LateralSql.Query.Node
import LateralSql.Query.Settings
import LateralSql.Query.Spatial
import LateralSql.Request.Basic
import LateralSql.Request.Filter
import LateralSql.Row.Assembler
import LateralSql.Row.Grouping
import LateralSql.Schema.Basic
import LateralSql.Schema.Document
import LateralSql.Schema.Error
import LateralSql.Sql.Statement
import LateralSql.Sql.Token
import LateralSql.Sql.Tree
import LateralSql.Text.Digits
import LateralSql.Text.Listing
import LateralSql.Text.Quoted
import LateralSql.Text.Unreadable
import LateralSql.Value.Basic
import LateralSql.Value.KeyMap
import LateralSql.Value.Read
import LateralSql.Value.Text
