import BoundaryProxy.Main
import BoundaryProxy.Naming.Accessor
import BoundaryProxy.Registry.Classification
import BoundaryProxy.Source.Spelling
import BoundaryProxy.Proofs.Check.Scope
import BoundaryProxy.Proofs.Naming.Supply
import BoundaryProxy.Proofs.Proxy.Inline
import BoundaryProxy.Proofs.Proxy.Assembler
import BoundaryProxy.Proofs.Synthesis.Crossing
import BoundaryProxy.Proofs.Synthesis.Draft
import BoundaryProxy.Proofs.Synthesis.Member
import BoundaryProxy.Proofs.Catalog.DepthFirst
import BoundaryProxy.Proofs.Members.Enumeration
import BoundaryProxy.Proofs.Synthesis.Session
import BoundaryProxy.Proofs.Synthesis.Family
import BoundaryProxy.Proofs.Synthesis.Findings
import BoundaryProxy.Proofs.Check.Exact
import BoundaryProxy.Proofs.Proxy.History
import BoundaryProxy.Proofs.Synthesis.Accounting
import BoundaryProxy.Proofs.Synthesis.Frame
import BoundaryProxy.Proofs.Synthesis.Events
import BoundaryProxy.Proofs.Synthesis.Concealment
import BoundaryProxy.Proofs.Text.Blank
import BoundaryProxy.Proofs.Text.Utf8
import BoundaryProxy.Proofs.Text.Identifier
import BoundaryProxy.Proofs.TypeExpr.Grammar
import BoundaryProxy.Proofs.TypeExpr.Reading
import BoundaryProxy.Proofs.TypeExpr.Cursor
import BoundaryProxy.Proofs.TypeExpr.RoundTrip
import BoundaryProxy.Proofs.Synthesis.Overloads
import BoundaryProxy.Proofs.Naming.Pairing
import BoundaryProxy.Proofs.Proxy.Renaming
import BoundaryProxy.Proofs.Proxy.Twin
import BoundaryProxy.Proofs.Synthesis.Lockstep
import BoundaryProxy.Proofs.Synthesis.Independence
import BoundaryProxy.Proofs.Synthesis.Wiring
import BoundaryProxy.Proofs.Document.Decoder
import BoundaryProxy.Proofs.Catalog.Lookup
import BoundaryProxy.Proofs.Registry.Lookup
import BoundaryProxy.Proofs.Synthesis.Consultation
import BoundaryProxy.Proofs.Json.Literal
import BoundaryProxy.Proofs.Json.RoundTrip
import BoundaryProxy.Proofs.Interface.Document
import BoundaryProxy.Proofs.Catalog.RoundTrip
import BoundaryProxy.Proofs.Host.Disk
import BoundaryProxy.Proofs.CommandLine.Run
import BoundaryProxy.Proofs.CommandLine.Generate
import BoundaryProxy.Proofs.Text.Fragment
import BoundaryProxy.Proofs.Compile.Command
import BoundaryProxy.Proofs.Toml.Text
import BoundaryProxy.Proofs.Toml.Statement
import BoundaryProxy.Proofs.Toml.RoundTrip
import BoundaryProxy.Proofs.Profile.RoundTrip
import BoundaryProxy.Proofs.Profile.Validation
import BoundaryProxy.Proofs.Registry.Discovery
import BoundaryProxy.Proofs.Registry.Classification
import BoundaryProxy.Proofs.Catalog.Position
import BoundaryProxy.Proofs.Catalog.FullName
import BoundaryProxy.Proofs.Catalog.VisitOrder
import BoundaryProxy.Proofs.Members.Declared
import BoundaryProxy.Proofs.Members.Taking
import BoundaryProxy.Proofs.Members.Precedence
import BoundaryProxy.Proofs.Source.Spelling
import BoundaryProxy.Proofs.Source.Wording
import BoundaryProxy.Proofs.Source.Atom
import BoundaryProxy.Proofs.Source.Layout
import BoundaryProxy.Proofs.Source.Canonical
import BoundaryProxy.Proofs.Source.Reading
import BoundaryProxy.Proofs.Source.Unambiguous
import BoundaryProxy.Proofs.Compile.Scratch
import BoundaryProxy.Proofs.CommandLine.Effects
import BoundaryProxy.Proofs.CommandLine.AllOrNothing
