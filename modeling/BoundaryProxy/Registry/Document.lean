import BoundaryProxy.Interface.Document
import BoundaryProxy.Registry.Basic

/-!
# `BoundaryProxy.Registry.Document` — registry descriptors as documents

The field names, the default and the order of the parts of a descriptor.
-/

namespace BoundaryProxy.RegistryDescriptor

open Document Reading

/-- A descriptor as a document. -/
def document (d : RegistryDescriptor) : Document :=
  ofFields [("name", ofString d.name), ("registry_type", d.registryType.document),
    ("member_type", d.memberType.document), ("key_type", d.keyType.document)]

/-- The descriptor a document describes. -/
def decoder (conv : Convention) : Decoder RegistryDescriptor :=
  decode conv ["name", "registry_type", "member_type", "key_type"] <|
    RegistryDescriptor.mk <$> required "name" Decoder.text <*> required "registry_type" Decoder.type
      <*> required "member_type" Decoder.type <*> optional "key_type" Decoder.type .int

end BoundaryProxy.RegistryDescriptor
