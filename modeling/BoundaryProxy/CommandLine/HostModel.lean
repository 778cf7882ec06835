import BoundaryProxy.Catalog.Json
import BoundaryProxy.CommandLine.Failure
import BoundaryProxy.Registry.Discovery
import BoundaryProxy.Synthesis.Basic

/-!
# `BoundaryProxy.CommandLine.HostModel` — what a command knows of the host

Every command but one begins by reading a catalog and a profile and finding the registries of the host.
-/

namespace BoundaryProxy.CommandLine

open BoundaryProxy.Host

/-- The profile that is read if none is named. -/
def defaultProfilePath : String :=
  "proxygen.toml"

/-- The catalog, profile and registries of a host. -/
structure HostModel where
  catalog : Catalog
  profile : Profile
  registries : RegistrySet

/-- The root that a catalog names but does not have. -/
structure MissingRoot where
  type : TypeExpr
deriving Repr, DecidableEq

/-- The missing root as a diagnostic. -/
def MissingRoot.diagnostic (m : MissingRoot) : Diagnostic :=
  ⟨.warning, none, s!"host root {m.type} is not in the catalog; no registries"⟩

/-- Read a catalog. -/
def readCatalog (disk : Disk) (here : Place) (path : String) : Except Failure Catalog := do
  let text ← (disk.readText here path).mapError (.catalogUnreadable path)
  (Catalog.ofJson text).mapError (.catalogInvalid path)

/-- The path of the profile to read: the one that is named, or the default one if it is there. -/
def profilePath? (disk : Disk) (here : Place) (named : Option String) : Option String :=
  match named with
  | some path => some path
  | none =>
    match disk.look? here defaultProfilePath with
    | some (.file ..) => some defaultProfilePath
    | _ => none

/-- Read a profile; without one the defaults hold. -/
def readProfile (disk : Disk) (here : Place) (named : Option String) : Except Failure Profile := do
  match profilePath? disk here named with
  | none => return .default
  | some path =>
    let text ← (disk.readText here path).mapError (.profileUnreadable path)
    (Profile.ofToml text).mapError (.profileInvalid path)

/-- The registries of a host and what is reported on the way; a catalog without a root has none. -/
def findRegistries (c : Catalog) (p : Profile) : Except Failure RegistrySet × List Diagnostic :=
  match c.host with
  | none => (.ok .empty, [])
  | some host =>
    match c.get? host with
    | none => (.ok .empty, [(MissingRoot.mk host).diagnostic])
    | some root =>
      let (descriptors, notices) := discoverRegistries c p root
      ((RegistrySet.ofList descriptors).mapError .conflictingRegistries, notices.map (·.diagnostic))

namespace HostModel

/-- What a command wraps in a proxy: one interface with all its members. -/
def spec (h : HostModel) (wrapped : Interface) : ProxySpec :=
  ({ wrapped, catalog := h.catalog, registries := h.registries, profile := h.profile } : ProxySpec).withAll

/-- The interface of a name. -/
def find (h : HostModel) (name : String) : Except Failure Interface :=
  match h.catalog.find? name with
  | some i => .ok i
  | none => .error (.interfaceNotFound name)

/-- The type of the property that lists the registries. -/
def registryRoot? (h : HostModel) : Option TypeExpr := do
  let root ← h.catalog.get? (← h.catalog.host)
  let property ← Discovery.registryProperty? h.profile root
  return property.type

/-- The interfaces that are wrapped if none is named: all but the root, the type that lists the registries,
    and the containers. -/
def defaultTargets (h : HostModel) : List Interface :=
  h.catalog.models.filter fun i =>
    some i.type ≠ h.catalog.host && some i.type ≠ h.registryRoot? && (h.registries.byContainer? i.type).isNone

/-- The interfaces of names, or those that are wrapped if none is named. -/
def targets (h : HostModel) (names : List String) : Except Failure (List Interface) :=
  if names.isEmpty then .ok h.defaultTargets else names.mapM h.find

end HostModel

end BoundaryProxy.CommandLine
