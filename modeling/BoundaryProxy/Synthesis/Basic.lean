import BoundaryProxy.Source.Render
import BoundaryProxy.Synthesis.Session

/-!
# `BoundaryProxy.Synthesis.Basic` — from an interface to a class

A proxy specification names the interface to wrap and the families of members to convert. Asking for a
family twice changes nothing and the order of asking does not matter: the families are always converted in
the order getters, setters, methods, events.
-/

namespace BoundaryProxy

/-- A family of members. -/
inductive Family where
  | getters
  | setters
  | methods
  | events
deriving Repr, DecidableEq

/-- The families in the order in which they are converted. -/
def Family.all : List Family :=
  [.getters, .setters, .methods, .events]

/-- What a family is called. -/
def Family.text : Family → String
  | getters => "getters"
  | setters => "setters"
  | methods => "methods"
  | events => "events"

/-- A set of families. -/
structure FamilySet where
  getters : Bool := false
  setters : Bool := false
  methods : Bool := false
  events : Bool := false
deriving Repr, DecidableEq

namespace FamilySet

/-- Whether the set has a family. -/
def has (s : FamilySet) : Family → Bool
  | .getters => s.getters
  | .setters => s.setters
  | .methods => s.methods
  | .events => s.events

/-- The set with a family added. -/
def insert (s : FamilySet) : Family → FamilySet
  | .getters => { s with getters := true }
  | .setters => { s with setters := true }
  | .methods => { s with methods := true }
  | .events => { s with events := true }

/-- The set of all families. -/
def all : FamilySet :=
  Family.all.foldl insert {}

/-- The families of the set in the order in which they are converted. -/
def toList (s : FamilySet) : List Family :=
  Family.all.filter s.has

end FamilySet

/-- What to synthesize. -/
structure ProxySpec where
  wrapped : Interface
  catalog : Catalog
  registries : RegistrySet
  profile : Profile
  families : FamilySet := {}

namespace ProxySpec

open Synthesis

/-- Ask for a family. -/
def withFamily (spec : ProxySpec) (f : Family) : ProxySpec :=
  { spec with families := spec.families.insert f }

/-- Ask for every family. -/
def withAll (spec : ProxySpec) : ProxySpec :=
  Family.all.foldl withFamily spec

/-- The members of the wrapped interface. -/
def members (spec : ProxySpec) : MemberSet :=
  spec.catalog.members spec.profile.outParams spec.wrapped

/-- Convert one family of the members. -/
def convertFamily (s : Subject) (members : MemberSet) : Family → StateM Session Unit
  | .getters => members.getters.forM s.addGetter
  | .setters => members.setters.forM s.addSetter
  | .methods => do
    members.rejected.forM s.reportRejected
    members.methods.forM s.convertMethod
  | .events => s.addEvents members.events

/-- The generated class and what was reported on the way. -/
def synthesize (spec : ProxySpec) : ProxyUnit × List Notice :=
  let (subject, session) := Subject.start spec.wrapped.type spec.registries spec.profile
  let session := (spec.families.toList.forM (convertFamily subject spec.members) session).2
  (session.unit.finish, session.notices)

/-- The source text of the generated class. -/
def source (spec : ProxySpec) : String :=
  Source.render spec.synthesize.1

end ProxySpec

end BoundaryProxy
