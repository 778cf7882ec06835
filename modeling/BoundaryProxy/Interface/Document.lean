import BoundaryProxy.Document.Decoder
import BoundaryProxy.Interface.Basic

/-!
# `BoundaryProxy.Interface.Document` — interfaces as documents

The field names, defaults and order of the parts of an interface. What equals its default is left out where
a reader would not miss it: the mark of a special method and the payload of an event.
-/

namespace BoundaryProxy

open Document

/-! ## To documents -/

/-- The names of the directions. -/
def Direction.names : List (String × Direction) :=
  [("in", .input), ("out", .output)]

/-- A direction as a document. -/
def Direction.document : Direction → Document
  | input => ofString "in"
  | output => ofString "out"

/-- A type as a document. -/
def TypeExpr.document (t : TypeExpr) : Document :=
  ofString t.text

/-- A parameter as a document. -/
def Parameter.document (p : Parameter) : Document :=
  ofFields [("name", ofString p.name), ("type", p.type.document), ("direction", p.direction.document)]

/-- A method as a document. -/
def MethodDecl.document (m : MethodDecl) : Document :=
  ofFields <|
    [("name", ofString m.name), ("params", .list (m.params.map Parameter.document)),
      ("return_type", m.returns.document)] ++
    if m.special then [("special_name", .flag true)] else []

/-- A property as a document. -/
def PropertyDecl.document (p : PropertyDecl) : Document :=
  ofFields [("name", ofString p.name), ("type", p.type.document), ("can_read", .flag p.canRead),
    ("can_write", .flag p.canWrite)]

/-- An event as a document. -/
def EventDecl.document (e : EventDecl) : Document :=
  ofFields <|
    ("name", ofString e.name) ::
    match e.payload with
    | some payload => [("payload", payload.document)]
    | none => []

/-- An interface as a document. -/
def Interface.document (i : Interface) : Document :=
  ofFields [("type", i.type.document), ("methods", .list (i.methods.map MethodDecl.document)),
    ("properties", .list (i.properties.map PropertyDecl.document)),
    ("events", .list (i.events.map EventDecl.document)),
    ("interfaces", .list (i.bases.map TypeExpr.document))]

/-! ## From documents -/

open Reading in
/-- The parameter a document describes. -/
def Parameter.decoder (conv : Convention) : Decoder Parameter :=
  decode conv ["name", "type", "direction"] <|
    Parameter.mk <$> required "name" Decoder.text <*> required "type" Decoder.type
      <*> optional "direction" (Decoder.variant conv Direction.names) .input

open Reading in
/-- The method a document describes. -/
def MethodDecl.decoder (conv : Convention) : Decoder MethodDecl :=
  decode conv ["name", "params", "return_type", "special_name"] <|
    MethodDecl.mk <$> required "name" Decoder.text
      <*> optional "params" (Decoder.list (Parameter.decoder conv)) []
      <*> optional "return_type" Decoder.type .void
      <*> optional "special_name" Decoder.flag false

open Reading in
/-- The property a document describes. -/
def PropertyDecl.decoder (conv : Convention) : Decoder PropertyDecl :=
  decode conv ["name", "type", "can_read", "can_write"] <|
    PropertyDecl.mk <$> required "name" Decoder.text <*> required "type" Decoder.type
      <*> optional "can_read" Decoder.flag true <*> optional "can_write" Decoder.flag false

open Reading in
/-- The event a document describes. -/
def EventDecl.decoder (conv : Convention) : Decoder EventDecl :=
  decode conv ["name", "payload"] <|
    EventDecl.mk <$> required "name" Decoder.text
      <*> optional "payload" (Decoder.nullable Decoder.type) none

open Reading in
/-- The interface a document describes. -/
def Interface.decoder (conv : Convention) : Decoder Interface :=
  decode conv ["type", "methods", "properties", "events", "interfaces"] <|
    Interface.mk <$> required "type" Decoder.type
      <*> optional "methods" (Decoder.list (MethodDecl.decoder conv)) []
      <*> optional "properties" (Decoder.list (PropertyDecl.decoder conv)) []
      <*> optional "events" (Decoder.list (EventDecl.decoder conv)) []
      <*> optional "interfaces" (Decoder.list Decoder.type) []

end BoundaryProxy
