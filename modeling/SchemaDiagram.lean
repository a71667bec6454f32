import SchemaDiagram.Main
import SchemaDiagram.MemorySource
import SchemaDiagram.Proofs.Course
import SchemaDiagram.Proofs.Firsts
import SchemaDiagram.Proofs.Worklist
import SchemaDiagram.Proofs.Ledger
import SchemaDiagram.Proofs.Growth
import SchemaDiagram.Proofs.Input
import SchemaDiagram.Proofs.Candidates
import SchemaDiagram.Proofs.Draining
import SchemaDiagram.Proofs.BodyLines
import SchemaDiagram.Proofs.Relationships
import SchemaDiagram.Proofs.Entities
import SchemaDiagram.Proofs.Requests
import SchemaDiagram.Proofs.CandidateOrder
import SchemaDiagram.Proofs.Findings
import SchemaDiagram.Proofs.NormalPath
import SchemaDiagram.Proofs.Tree
import SchemaDiagram.Proofs.Mirror
import SchemaDiagram.Proofs.Placement
import SchemaDiagram.Proofs.Sources
import SchemaDiagram.Proofs.Words
import SchemaDiagram.Proofs.Trimming
import SchemaDiagram.Proofs.Clauses
import SchemaDiagram.Proofs.LocalEdges
import SchemaDiagram.Proofs.Arrays
import SchemaDiagram.Proofs.KnownTypes
import SchemaDiagram.Proofs.CommentScan
import SchemaDiagram.Proofs.OneLine
import SchemaDiagram.Proofs.LineEnds.Text
import SchemaDiagram.Proofs.LineEnds.Token
import SchemaDiagram.Proofs.Extents
import SchemaDiagram.Proofs.Fence
import SchemaDiagram.Proofs.Braces
import SchemaDiagram.Proofs.Printing
import SchemaDiagram.Proofs.Quoting
import SchemaDiagram.Proofs.SavedDocument
import SchemaDiagram.Proofs.Writing
import SchemaDiagram.Proofs.Spelling
import SchemaDiagram.Proofs.Ways
import SchemaDiagram.Proofs.Documents
import SchemaDiagram.Proofs.Batch
import SchemaDiagram.Proofs.Layering
import SchemaDiagram.Proofs.SavedLayer
import SchemaDiagram.Proofs.RoundTrip
import SchemaDiagram.Proofs.LineEnds.Declaration
import SchemaDiagram.Proofs.LineEnds.Statement
import SchemaDiagram.Proofs.LineEnds.Run
import SchemaDiagram.Proofs.LineEnds.Report
import SchemaDiagram.Proofs.Cuts
import SchemaDiagram.Proofs.Separation
import SchemaDiagram.Proofs.Headers
import SchemaDiagram.Proofs.Casing
import SchemaDiagram.Proofs.ViewScan
import SchemaDiagram.Proofs.Views
import SchemaDiagram.Proofs.Joining
import SchemaDiagram.Proofs.Queries
import SchemaDiagram.Proofs.Recasing
import SchemaDiagram.Proofs.Phrases
import SchemaDiagram.Proofs.ClauseWords
import SchemaDiagram.Proofs.ClauseTokens
import SchemaDiagram.Proofs.ClauseCase
import SchemaDiagram.Proofs.KeywordCase
import SchemaDiagram.Proofs.Slices
import SchemaDiagram.Proofs.Endings
import SchemaDiagram.Proofs.CutOut
import SchemaDiagram.Proofs.Nesting
import SchemaDiagram.Proofs.Fronts
import SchemaDiagram.Proofs.Bodies
import SchemaDiagram.Proofs.StatementTokens
import SchemaDiagram.Proofs.OpenBrackets
import SchemaDiagram.Proofs.NamespaceScan
import SchemaDiagram.Proofs.Annotations
import SchemaDiagram.Proofs.Seams
import SchemaDiagram.Proofs.Fillings
import SchemaDiagram.Proofs.Insertions
import SchemaDiagram.Proofs.AnnotatedStatements
import SchemaDiagram.Proofs.InertAnnotations
import SchemaDiagram.Proofs.Agreement
import SchemaDiagram.Proofs.WrittenClauses
import SchemaDiagram.Proofs.Modifiers
import SchemaDiagram.Proofs.Multiplicity
import SchemaDiagram.Proofs.Conditions
import SchemaDiagram.Proofs.NamespaceSearch
import SchemaDiagram.Proofs.Registrations
import SchemaDiagram.Proofs.Networks
import SchemaDiagram.Proofs.WorklistCalls
import SchemaDiagram.Proofs.Tiles
import SchemaDiagram.Proofs.KeptLines
import SchemaDiagram.Proofs.FirstBody
import SchemaDiagram.Proofs.Shapes
import SchemaDiagram.Proofs.Precedence
import SchemaDiagram.Proofs.Groups
