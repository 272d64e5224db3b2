import XmlPublishing.Layout.Edit
import XmlPublishing.Query.Publisher
import XmlPublishing.Schema.Document
import XmlPublishing.Xsd.OfLayout
import XmlPublishing.Proofs.FreshName
import XmlPublishing.Proofs.Agreement
import XmlPublishing.Proofs.Text.Case
import XmlPublishing.Proofs.Text.Splitting
import XmlPublishing.Proofs.Text.Masking
import XmlPublishing.Proofs.Text.QuotedLines
import XmlPublishing.Proofs.Naming.Standard
import XmlPublishing.Proofs.Layout.Tree
import XmlPublishing.Proofs.Layout.Built
import XmlPublishing.Proofs.Layout.DistinctNames
import XmlPublishing.Proofs.Layout.Requests
import XmlPublishing.Proofs.Layout.EmbedAll
import XmlPublishing.Proofs.Query.Aliases
import XmlPublishing.Proofs.Query.NameResolution
import XmlPublishing.Proofs.Query.Rendering
import XmlPublishing.Proofs.Query.Namespaces
import XmlPublishing.Proofs.Query.MaskedLines
import XmlPublishing.Proofs.Query.Tokens
import XmlPublishing.Proofs.Query.QuotedNames
import XmlPublishing.Proofs.ElementTree
import XmlPublishing.Proofs.Query.Reading
import XmlPublishing.Proofs.Query.WrittenElements
import XmlPublishing.Proofs.Query.WrittenQueries
import XmlPublishing.Proofs.Query.BuiltElements
import XmlPublishing.Proofs.Xsd.Markup
import XmlPublishing.Proofs.Xsd.Reading
import XmlPublishing.Proofs.Xsd.Runs
import XmlPublishing.Proofs.Publishing
import XmlPublishing.Proofs.Xsd.EqualLayouts
import XmlPublishing.Proofs.Xsd.Registry
import XmlPublishing.Proofs.Xsd.Growth
import XmlPublishing.Proofs.Xsd.DistinctTypes
import XmlPublishing.Proofs.Xsd.Grammar
import XmlPublishing.Proofs.Xsd.TargetNamespace
import XmlPublishing.Proofs.Query.StandardText
import XmlPublishing.Proofs.Query.Calls
import XmlPublishing.Proofs.Query.MissingMetadata
import XmlPublishing.Proofs.Query.Indentation
import XmlPublishing.Proofs.Json.Grammar
import XmlPublishing.Proofs.Query.HiddenAttributes
import XmlPublishing.Proofs.Query.AliasSpelling
import XmlPublishing.Proofs.Query.DerivedTables
import XmlPublishing.Proofs.Query.Correlation
import XmlPublishing.Proofs.Query.InStep
import XmlPublishing.Proofs.Query.SwappedSides
import XmlPublishing.Proofs.Json.Reading
import XmlPublishing.Proofs.Json.Written
import XmlPublishing.Proofs.Schema.Documents
import XmlPublishing.Proofs.Query.AliasKeywords
import XmlPublishing.Proofs.Layout.DefaultNames
import XmlPublishing.Proofs.Naming.DistinctNames
import XmlPublishing.Proofs.Layout.Clashes
import XmlPublishing.Proofs.Query.Fragments
import XmlPublishing.Proofs.Query.CallOrder
import XmlPublishing.Proofs.Xsd.UnknownNames
import XmlPublishing.Proofs.Schema.RelationId
import XmlPublishing.Proofs.Layout.SortOrder
import XmlPublishing.Proofs.Schema.Acceptance
import XmlPublishing.Proofs.Text.Delimited
import XmlPublishing.Proofs.Naming.KeySelection
import XmlPublishing.Proofs.Naming.TypeNames
import XmlPublishing.Proofs.Equality
import XmlPublishing.Proofs.Layout.FieldSelection
import XmlPublishing.Proofs.LeastFreeName
