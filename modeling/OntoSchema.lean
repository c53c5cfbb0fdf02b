import OntoSchema.ClassBuild.Step
import OntoSchema.CommandLine.FileTree
import OntoSchema.Main
import OntoSchema.Proofs.Expression
import OntoSchema.Proofs.Hierarchy
import OntoSchema.Proofs.Naming
import OntoSchema.Proofs.SchemaNames
import OntoSchema.Proofs.Entries
import OntoSchema.Proofs.Formation
import OntoSchema.Proofs.PropertyItems
import OntoSchema.Proofs.Visit
import OntoSchema.Proofs.Conversion
import OntoSchema.Proofs.Inheritance
import OntoSchema.Proofs.Stages
import OntoSchema.Proofs.PropertyNames
import OntoSchema.Proofs.Policies
import OntoSchema.Proofs.Compilation
import OntoSchema.Proofs.References
import OntoSchema.Proofs.Steady
import OntoSchema.Proofs.Inflection
import OntoSchema.Proofs.Idempotence
import OntoSchema.Proofs.InheritanceModes
import OntoSchema.Proofs.Requiredness
import OntoSchema.Proofs.ConvertedProperties
import OntoSchema.Proofs.Shapes
import OntoSchema.Proofs.Exclusive
import OntoSchema.Proofs.NotedNames
import OntoSchema.Proofs.Lint
import OntoSchema.Proofs.Selection
import OntoSchema.Proofs.Outcomes
import OntoSchema.Proofs.MergedTables
import OntoSchema.Proofs.Classwise
import OntoSchema.Proofs.Documentation
import OntoSchema.Proofs.TableRows
import OntoSchema.Proofs.ExampleProblems
import OntoSchema.Proofs.Locality
import OntoSchema.Proofs.ConfigurationDefaults
import OntoSchema.Proofs.Search
import OntoSchema.Proofs.DistinctKeys
import OntoSchema.Proofs.Rereading
import OntoSchema.Proofs.ParentReferences
import OntoSchema.Proofs.SurvivingAncestors
import OntoSchema.Proofs.Spelling
import OntoSchema.Proofs.EffectiveOperations
import OntoSchema.Proofs.PropertyHistories
import OntoSchema.Proofs.Numerals
import OntoSchema.Proofs.ExampleNotes
import OntoSchema.Proofs.Examples
import OntoSchema.Proofs.Cardinalities
import OntoSchema.Proofs.DefaultProperties
import OntoSchema.Proofs.Endpoints
import OntoSchema.Proofs.ReferencedRanges
import OntoSchema.Proofs.Enumerations
