import Registrar.Main
import Registrar.Proofs.Identifier
import Registrar.Proofs.Identifier.Freshness
import Registrar.Proofs.Identifier.Sanitizing
import Registrar.Proofs.QualifiedName
import Registrar.Proofs.Operator
import Registrar.Proofs.Operator.Attachment
import Registrar.Proofs.Plan
import Registrar.Proofs.TopologicalOrder
import Registrar.Proofs.TopologicalOrder.Greedy
import Registrar.Proofs.TopologicalOrder.Circles
import Registrar.Proofs.TopologicalOrder.Renaming
import Registrar.TranslationUnit.Assembly
import Registrar.Proofs.Schedule.Units
import Registrar.Proofs.Property
import Registrar.Proofs.Property.Pairing
import Registrar.Proofs.Property.Clashes
import Registrar.Proofs.Schedule.Items
import Registrar.Proofs.Schedule.Once
import Registrar.Proofs.Schedule.Exchange
import Registrar.Proofs.Schedule.Circles
import Registrar.Proofs.Schedule.Anchors
import Registrar.Proofs.Record.Items
import Registrar.Proofs.Record.Stretches
import Registrar.Proofs.Record.Scopes
import Registrar.Proofs.Record.Scoping
import Registrar.Proofs.Record.Shape
import Registrar.Proofs.References
import Registrar.Proofs.Record.Arguments
import Registrar.Proofs.Record.Overloads
import Registrar.Proofs.Graph.Ancestors
import Registrar.Proofs.Graph.Rooting
import Registrar.Proofs.Graph.Partition
import Registrar.Proofs.Graph.Circles
import Registrar.Proofs.Graph.Placement
import Registrar.Proofs.Merging.Conflicts
import Registrar.Proofs.Merging.Requests
import Registrar.Proofs.Emission
import Registrar.Proofs.Hidden
import Registrar.Proofs.Exposure
import Registrar.Proofs.Restriction
import Registrar.Proofs.Relocation
import Registrar.Proofs.Record.Blocks
import Registrar.Proofs.Record.Aliases
import Registrar.Proofs.Record.Deleted
import Registrar.Proofs.Instantiation
import Registrar.Proofs.Instantiation.Conflicts
import Registrar.Proofs.Inheritance.Takes
import Registrar.Proofs.Inheritance.Lineage
import Registrar.Proofs.Inheritance.Access
import Registrar.Proofs.Inheritance.Circles
import Registrar.Proofs.Hierarchy
import Registrar.Proofs.Renumbering.Entities
import Registrar.Proofs.Renumbering.Graph
import Registrar.Proofs.Renumbering.Visibility
import Registrar.Proofs.Renumbering.Instantiations
import Registrar.Proofs.Renumbering.Inheritance
import Registrar.Proofs.Renumbering.Properties
import Registrar.Proofs.Renumbering.Operators
import Registrar.Proofs.Renumbering.Items
import Registrar.Proofs.Renumbering.Schedule
import Registrar.Proofs.Renumbering.Records
import Registrar.Proofs.Renumbering.Plan
import Registrar.Proofs.Renumbering.Groups
import Registrar.Proofs.Renumbering.Declarations
import Registrar.Proofs.Renumbering.Moves
import Registrar.Proofs.Renumbering.Arena
import Registrar.Proofs.Reordering
import Registrar.Proofs.Failure
import Registrar.Proofs.Marking.Parsing
import Registrar.Proofs.Marking.Tokens
import Registrar.Proofs.Json.WellFormed
import Registrar.Proofs.Json.Part
import Registrar.Proofs.Json.Printer
import Registrar.Proofs.Json.Reader
import Registrar.Proofs.Declaration.Encoding
import Registrar.Proofs.Marking.Payload
import Registrar.Proofs.MarkingTable
import Registrar.Proofs.TranslationUnit.Encoding
import Registrar.Proofs.TranslationUnit.Validity
import Registrar.Proofs.Outline
import Registrar.Proofs.Graph.Resolution
import Registrar.Proofs.Json.Lossless
import Registrar.Proofs.MessagePack
import Registrar.Proofs.Record.Encoding
import Registrar.Proofs.Spelling
import Registrar.Proofs.Spelling.Blanks
import Registrar.Proofs.Instantiation.Requests
