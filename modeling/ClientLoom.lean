import ClientLoom.Client
import ClientLoom.Cli.Program
import ClientLoom.Decode.Config
import ClientLoom.Diff.Unified
import ClientLoom.FileSystem.Store
import ClientLoom.Inference
import ClientLoom.Json.Printer
import ClientLoom.Json.Text
import ClientLoom.Main
import ClientLoom.Output.Export
import ClientLoom.PathTemplate
import ClientLoom.RuntimeValue
import ClientLoom.Spec.Encode
import ClientLoom.Template.Library
import ClientLoom.Template.Parser
import ClientLoom.Text.Literal
import ClientLoom.Text.Quoted
import ClientLoom.Toml.Document
import ClientLoom.TypeNode.Printer
import ClientLoom.Proofs.DeclaredNames
import ClientLoom.Proofs.TagSearch
import ClientLoom.Proofs.DistinctPaths
import ClientLoom.Proofs.FileSystemGrowth
import ClientLoom.Proofs.DiskPaths
import ClientLoom.Proofs.ExportFrame
import ClientLoom.Proofs.ExportConvergence
import ClientLoom.Proofs.CacheHistory
import ClientLoom.Proofs.DeclaredTypes
import ClientLoom.Proofs.ConfigRoundTrip
import ClientLoom.Proofs.Codecs
import ClientLoom.Proofs.OutputDrafts
import ClientLoom.Proofs.BuildOutcome
import ClientLoom.Proofs.ServiceGrowth
import ClientLoom.Proofs.PathTokens
import ClientLoom.Proofs.TemplateLiterals
import ClientLoom.Proofs.ParameterPlaces
import ClientLoom.Proofs.TypeShapes
import ClientLoom.Proofs.ExampleShapes
import ClientLoom.Proofs.Conformance
import ClientLoom.Proofs.DeclarationOrder
import ClientLoom.Proofs.UnknownTags
import ClientLoom.Proofs.ElementTypes
import ClientLoom.Proofs.UnionAlternatives
import ClientLoom.Proofs.StringLiterals
import ClientLoom.Proofs.RuntimeValues
import ClientLoom.Proofs.HookInputs
import ClientLoom.Proofs.Enablement
import ClientLoom.Proofs.ServiceChecks
import ClientLoom.Proofs.Invalidation
import ClientLoom.Proofs.ServiceFaults
import ClientLoom.Proofs.TokenSpans
import ClientLoom.Proofs.CaseLetters
import ClientLoom.Proofs.CompiledNames
import ClientLoom.Proofs.GeneratedIdentifiers
import ClientLoom.Proofs.ExportedNames
import ClientLoom.Proofs.WrittenKeys
import ClientLoom.Proofs.FreshNames
import ClientLoom.Proofs.ImportedNames
import ClientLoom.Proofs.DeclarationText
import ClientLoom.Proofs.GivenPairs
