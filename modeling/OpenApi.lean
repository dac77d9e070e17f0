import OpenApi.Bundle.Bundler
import OpenApi.Bundle.Loader
import OpenApi.Bundle.Position
import OpenApi.Bundle.Source
import OpenApi.Document
import OpenApi.Endpoint.Basic
import OpenApi.Endpoint.Naming
import OpenApi.Endpoint.Object
import OpenApi.Endpoint.Resolution
import OpenApi.Error
import OpenApi.Json.Basic
import OpenApi.Json.Parser
import OpenApi.Json.Printer
import OpenApi.Number.Binary64
import OpenApi.Number.Literal
import OpenApi.Number.Shortest
import OpenApi.Options.Basic
import OpenApi.Options.Reader
import OpenApi.Pattern.Parser
import OpenApi.Pattern.Program
import OpenApi.Pattern.Property
import OpenApi.Pattern.Replacement
import OpenApi.Pattern.Syntax
import OpenApi.Pointer
import OpenApi.Proofs.Bundle.Assembly
import OpenApi.Proofs.Bundle.Bisimulation
import OpenApi.Proofs.Bundle.Image
import OpenApi.Proofs.Bundle.Meaning
import OpenApi.Proofs.Bundle.Origin
import OpenApi.Proofs.Bundle.Progress
import OpenApi.Proofs.Bundle.Regular
import OpenApi.Proofs.Bundle.Run
import OpenApi.Proofs.Bundle.Step
import OpenApi.Proofs.Bundle.Termination
import OpenApi.Proofs.Bundle.Whole
import OpenApi.Proofs.Document.Chain
import OpenApi.Proofs.Endpoint.Closure
import OpenApi.Proofs.Endpoint.Declarations
import OpenApi.Proofs.Endpoint.Masking
import OpenApi.Proofs.Endpoint.Reading
import OpenApi.Proofs.Json.Path
import OpenApi.Proofs.Pointer.RoundTrip
import OpenApi.Proofs.Schema.Reachability
import OpenApi.Proofs.Schema.Views
import OpenApi.Proofs.Url.Fragment
import OpenApi.Reference
import OpenApi.Schema.Access
import OpenApi.Schema.Basic
import OpenApi.Schema.Lowering
import OpenApi.Settings
import OpenApi.Text.Case
import OpenApi.Text.CaseTable
import OpenApi.Text.CategoryTable
import OpenApi.Text.CharClass
import OpenApi.Text.Percent
import OpenApi.Text.Split
import OpenApi.Text.Utf8
import OpenApi.Text.WordTable
import OpenApi.Text.Words
import OpenApi.TypeExpr
import OpenApi.Url.Basic
import OpenApi.Url.File
import OpenApi.Url.Host
import OpenApi.Url.Parser
import OpenApi.Url.Punycode
import OpenApi.Yaml.Cursor
import OpenApi.Yaml.Document
import OpenApi.Yaml.Node
import OpenApi.Yaml.Plain
import OpenApi.Yaml.Scalar
import OpenApi.Yaml.Token
import OpenApi.Proofs.Bundle.Retention
import OpenApi.Proofs.Bundle.Call
import OpenApi.Proofs.Bundle.Sharing
import OpenApi.Proofs.Bundle.Fault
import OpenApi.Proofs.Bundle.Success
import OpenApi.Proofs.Bundle.Allocation
import OpenApi.Proofs.Bundle.Siblings
import OpenApi.Proofs.Bundle.Trail
import OpenApi.Proofs.Bundle.Transparency
import OpenApi.Proofs.Endpoint.Uniqueness
import OpenApi.Proofs.Url.Document
import OpenApi.Proofs.Bundle.Identity
import OpenApi.Proofs.Schema.Agreement
import OpenApi.Proofs.Endpoint.Locality
import OpenApi.Proofs.Endpoint.Faults
import OpenApi.Proofs.Json.Blank
import OpenApi.Proofs.Schema.Concealment
import OpenApi.Proofs.Schema.Blank
import OpenApi.Proofs.Endpoint.Chains
import OpenApi.Proofs.Endpoint.Blank
import OpenApi.Proofs.Endpoint.Withholding
import OpenApi.Proofs.Endpoint.Secrecy
import OpenApi.Proofs.Bundle.Frame
import OpenApi.Proofs.Schema.Search
import OpenApi.Proofs.Endpoint.Enumeration
import OpenApi.Proofs.Schema.Outline
import OpenApi.Proofs.Schema.Nullability
import OpenApi.Proofs.TypeExpr.Normal
import OpenApi.Proofs.TypeExpr.Reader
import OpenApi.Proofs.TypeExpr.Reading
import OpenApi.Proofs.TypeExpr.Relabelling
import OpenApi.Proofs.Document.Acceptance
import OpenApi.Proofs.Endpoint.Following
import OpenApi.Proofs.Bundle.Home
import OpenApi.Proofs.Endpoint.Template
import OpenApi.Proofs.Document.Lookup
import OpenApi.Proofs.Bundle.Registration
import OpenApi.Proofs.Bundle.Culprit
import OpenApi.Proofs.Pointer.Construction
import OpenApi.Proofs.Schema.Keywords
import OpenApi.Proofs.Bundle.Placement
