import BoundaryProxy.Catalog.Basic
import BoundaryProxy.Interface.Document
import BoundaryProxy.Json.Printer
import BoundaryProxy.Json.Reader

/-!
# `BoundaryProxy.Catalog.Json` — catalogs as JSON text

A catalog is a record of the host's root type, which may be missing, and the list of interfaces. The index is
not written; reading a catalog makes it anew.
-/

namespace BoundaryProxy.Catalog

open Document Reading

/-- A catalog as a document. -/
def document (c : Catalog) : Document :=
  ofFields <|
    (match c.host with
      | some host => [("host", host.document)]
      | none => []) ++
    [("types", .list (c.models.map Interface.document))]

/-- The catalog of a list of interfaces and a host's root type. -/
def ofParts (host : Option TypeExpr) (models : List Interface) : Catalog :=
  { ofModels models with host }

/-- The catalog a document describes. -/
def decoder (conv : Convention) : Decoder Catalog :=
  decode conv ["host", "types"] <|
    ofParts <$> optional "host" (Decoder.nullable Decoder.type) none
      <*> optional "types" (Decoder.list (Interface.decoder conv)) []

/-- The catalog a JSON text describes. -/
def ofJson (s : String) : Except Fault Catalog :=
  Json.decode (decoder Json.convention) s

/-- The catalog as JSON text. -/
def toJson (c : Catalog) : String :=
  Json.pretty c.document

end BoundaryProxy.Catalog
