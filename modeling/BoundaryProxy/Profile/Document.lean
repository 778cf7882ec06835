import BoundaryProxy.Document.Decoder
import BoundaryProxy.Json.Reader
import BoundaryProxy.Profile.Basic
import BoundaryProxy.Toml.Printer
import BoundaryProxy.Toml.Reader

/-!
# `BoundaryProxy.Profile.Document` — profiles as documents and as TOML text

Every key of a profile has a default, so any part of a document may be missing. A profile that is read from
text is validated; one that is decoded from a document is not.
-/

namespace BoundaryProxy

open Document Reading

/-! ## Bindings and policies -/

/-- The names of the policies. -/
def OutParamPolicy.names : List (String × OutParamPolicy) :=
  [("reject", .reject), ("discard", .discard)]

/-- A policy as a document. -/
def OutParamPolicy.document : OutParamPolicy → Document
  | reject => ofString "reject"
  | discard => ofString "discard"

/-- A binding as a document. -/
def SingletonBinding.document (b : SingletonBinding) : Document :=
  ofFields [("type_name", ofString b.typeName), ("path", ofString b.path)]

/-- The binding a document describes. -/
def SingletonBinding.decoder (conv : Convention) : Decoder SingletonBinding :=
  decode conv ["type_name", "path"] <|
    SingletonBinding.mk <$> required "type_name" Decoder.text <*> required "path" Decoder.text

namespace Profile

/-! ## Profiles -/

/-- A profile as a document. -/
def document (p : Profile) : Document :=
  ofFields [("service_root", ofString p.serviceRoot), ("registry_path", ofString p.registryPath),
    ("registry_property", ofString p.registryProperty), ("registry_marker", ofString p.registryMarker),
    ("excluded_registries", .list (p.excludedRegistries.map ofString)),
    ("event_proxy", ofString p.eventProxy), ("class_suffix", ofString p.classSuffix),
    ("namespace_suffix", ofString p.namespaceSuffix), ("name_prefix", ofString p.namePrefix),
    ("out_params", p.outParams.document),
    ("singletons", .list (p.singletons.map SingletonBinding.document))]

/-- The keys of a profile. -/
def keys : List String :=
  ["service_root", "registry_path", "registry_property", "registry_marker", "excluded_registries",
    "event_proxy", "class_suffix", "namespace_suffix", "name_prefix", "out_params", "singletons"]

/-- The profile a document describes, with the default for each key that is missing. -/
def decoder (conv : Convention) : Decoder Profile :=
  decode conv keys <|
    Profile.mk <$> optional "service_root" Decoder.text default.serviceRoot
      <*> optional "registry_path" Decoder.text default.registryPath
      <*> optional "registry_property" Decoder.text default.registryProperty
      <*> optional "registry_marker" Decoder.text default.registryMarker
      <*> optional "excluded_registries" (Decoder.list Decoder.text) default.excludedRegistries
      <*> optional "event_proxy" Decoder.text default.eventProxy
      <*> optional "class_suffix" Decoder.text default.classSuffix
      <*> optional "namespace_suffix" Decoder.text default.namespaceSuffix
      <*> optional "name_prefix" Decoder.text default.namePrefix
      <*> optional "out_params" (Decoder.variant conv OutParamPolicy.names) default.outParams
      <*> optional "singletons" (Decoder.list (SingletonBinding.decoder conv)) default.singletons

/-! ## Text -/

/-- Why a text gives no profile. -/
inductive LoadError where
  /-- The text is no TOML, or its values do not fit the keys. -/
  | unreadable
  | invalid (flaw : ProfileFlaw)
deriving Repr, DecidableEq

/-- The profile a TOML text describes, if it keeps every rule. -/
def ofToml (s : String) : Except LoadError Profile :=
  match Toml.read s with
  | none => .error .unreadable
  | some d =>
    match decoder Toml.convention d with
    | .error _ => .error .unreadable
    | .ok p => p.validate.mapError .invalid

/-- The profile as TOML text. -/
def toToml (p : Profile) : String :=
  Toml.pretty p.document

end Profile

end BoundaryProxy
