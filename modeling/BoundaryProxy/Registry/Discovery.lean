import BoundaryProxy.Catalog.Reach
import BoundaryProxy.Diagnostic
import BoundaryProxy.Profile.Basic
import BoundaryProxy.Registry.Basic
import BoundaryProxy.Text.Fragment

/-!
# `BoundaryProxy.Registry.Discovery` — finding the registries of a host

The host's root has a property whose type lists the registries: each property of that type is a container.
A container is a registry if it, or an interface it reaches by inheritance, directly implements the marker
interface with one argument; the argument is the type of the members. A container without the marker is
reported and left out, one whose name the profile excludes is left out silently.
-/

namespace BoundaryProxy.Discovery

/-- Why a registry or all of them were not found. -/
inductive Notice where
  | noRegistryProperty (root : TypeExpr) (property : String)
  | noRegistryRoot (type : TypeExpr)
  | noMarker (root : TypeExpr) (property : String) (container : TypeExpr) (marker : String)
deriving Repr, DecidableEq

/-- The notice as a diagnostic. -/
def Notice.diagnostic (n : Notice) : Diagnostic :=
  ⟨.warning, some .registrySkipped,
    match n with
    | noRegistryProperty root property =>
      s!"{root} has no '{property}' property; no registries discovered"
    | noRegistryRoot type => s!"registry root type {type} is not available"
    | noMarker root property container marker =>
      s!"{root}.{property} ({container}) does not implement {marker}<T>; skipped"⟩

/-- The member type that a type names if it is the marker with one argument. -/
def markerArgument? (marker : String) (t : TypeExpr) : Option TypeExpr :=
  match t.args with
  | [member] => if t.name = marker then some member else none
  | _ => none

/-- The member type of a container: the argument of the first marker on the first interface that has one,
    where the last base of an interface is visited first. -/
def memberType? (c : Catalog) (marker : String) (container : TypeExpr) : Option TypeExpr :=
  (c.reach (·.bases.reverse) [container] []).findSome? (·.bases.findSome? (markerArgument? marker))

/-- Whether a profile leaves a container out. -/
def isExcluded (p : Profile) (container : TypeExpr) : Bool :=
  p.excludedRegistries.any (Text.hasFragment · container.simpleName)

/-- What becomes of one property of the registry root: nothing, a descriptor or a notice. -/
def examine (c : Catalog) (p : Profile) (root : TypeExpr) (property : PropertyDecl) :
    Option (Notice ⊕ RegistryDescriptor) :=
  if isExcluded p property.type then none
  else
    match memberType? c p.registryMarker property.type with
    | some member => some (.inr ⟨property.name, property.type, member, .int⟩)
    | none => some (.inl (.noMarker root property.name property.type p.registryMarker))

/-- The registry property of a host's root. -/
def registryProperty? (p : Profile) (root : Interface) : Option PropertyDecl :=
  root.properties.find? (·.name == p.registryProperty)

end BoundaryProxy.Discovery

namespace BoundaryProxy

/-- The registries of a host, in the order of the properties that list them, and what was not found. -/
def discoverRegistries (c : Catalog) (p : Profile) (root : Interface) :
    List RegistryDescriptor × List Discovery.Notice :=
  match Discovery.registryProperty? p root with
  | none => ([], [.noRegistryProperty root.type p.registryProperty])
  | some property =>
    match c.get? property.type with
    | none => ([], [.noRegistryRoot property.type])
    | some registries =>
      let found := registries.properties.filterMap (Discovery.examine c p property.type)
      (found.filterMap Sum.getRight?, found.filterMap Sum.getLeft?)

end BoundaryProxy
