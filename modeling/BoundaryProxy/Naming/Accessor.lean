import BoundaryProxy.Text.Letter
import BoundaryProxy.Text.Uppercase
import BoundaryProxy.Text.Utf8

/-!
# `BoundaryProxy.Naming.Accessor` — names derived from other names

The accessor `get_Title` reads the property `Title` and becomes the method `GetTitle`; `set_Title` becomes
`SetTitle`. The names of a proxy's namespace and class are built from the letters of the wrapped type's
simple name.
-/

namespace BoundaryProxy.Naming

open Text

/-- The property an accessor belongs to: its name after the first four bytes, nothing if it is shorter or
    the cut would fall inside a character. -/
def propertyName (accessor : String) : String :=
  String.ofList ((dropBytes 4 accessor.toList).getD [])

/-- The method that stands in for an accessor; a name that is no accessor's is kept. -/
def accessorMethodName (accessor : String) : String :=
  match accessor.toList with
  | 'g' :: 'e' :: 't' :: '_' :: property => String.ofList ("Get".toList ++ capitalize property)
  | 's' :: 'e' :: 't' :: '_' :: property => String.ofList ("Set".toList ++ capitalize property)
  | _ => accessor

/-- The letters of a name. -/
def letterName (name : String) : String :=
  String.ofList (name.toList.filter isLetter)

end BoundaryProxy.Naming
