import BoundaryProxy.Interface.Basic
import BoundaryProxy.TypeExpr.Printer
import Std.Data.HashMap

/-!
# `BoundaryProxy.Catalog.Basic` — the known interfaces

A catalog holds interfaces in order and may name the type that is the root of the host's services. An index
from types to positions answers `get?`; where a type occurs more than once the last interface answers.

`find?` takes a name as a user types it: the full name with or without arguments first, and only if no
interface has it the name after the last dot. There the first interface answers.
-/

namespace BoundaryProxy

/-- Interfaces in order, the host's root type, and the position at which each type is looked up. -/
structure Catalog where
  host : Option TypeExpr
  models : List Interface
  index : Std.HashMap TypeExpr Nat

namespace Catalog

/-- The position of the last interface of each type. -/
def positions (models : List Interface) : Std.HashMap TypeExpr Nat :=
  models.zipIdx.foldl (fun index (model, i) => index.insert model.type i) ∅

/-- The catalog of a list of interfaces. -/
def ofModels (models : List Interface) : Catalog :=
  ⟨none, models, positions models⟩

/-- The catalog with its host root named. -/
def withHost (c : Catalog) (host : TypeExpr) : Catalog :=
  { c with host := some host }

/-- The catalog with one more interface at its end. -/
def add (c : Catalog) (model : Interface) : Catalog :=
  { c with models := c.models ++ [model], index := c.index.insert model.type c.models.length }

/-- The position at which a type is looked up. -/
def position? (c : Catalog) (t : TypeExpr) : Option Nat :=
  c.index[t]?

/-- The interface of a type. -/
def get? (c : Catalog) (t : TypeExpr) : Option Interface :=
  (c.position? t).bind (c.models[·]?)

/-- Whether a name is the full name of an interface, with or without its arguments. -/
def hasFullName (name : String) (model : Interface) : Bool :=
  model.type.name == name || model.type.text == name

/-- The position of the interface that a name given by a user means. -/
def findIdx? (c : Catalog) (name : String) : Option Nat :=
  (c.models.findIdx? (hasFullName name)).or (c.models.findIdx? (·.type.simpleName == name))

/-- The interface that a name given by a user means. -/
def find? (c : Catalog) (name : String) : Option Interface :=
  (c.models.find? (hasFullName name)).or (c.models.find? (·.type.simpleName == name))

end Catalog

end BoundaryProxy
