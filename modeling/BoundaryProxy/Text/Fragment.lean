/-!
# `BoundaryProxy.Text.Fragment` — parts of a text

Whether a text begins with another or has it as a part, and the replacement of every part that equals a
placeholder.
-/

namespace BoundaryProxy.Text

/-- Whether a text begins with another. -/
def beginsWith (start s : String) : Bool :=
  start.toList.isPrefixOf s.toList

/-- Whether a list of characters has another as a part. -/
def hasPart (part : List Char) : List Char → Bool
  | [] => part.isEmpty
  | c :: rest => part.isPrefixOf (c :: rest) || hasPart part rest

/-- Whether a text has another as a part. -/
def hasFragment (fragment s : String) : Bool :=
  hasPart fragment.toList s.toList

/-- Replace, from left to right, every occurrence of a placeholder whose characters begin with `p` and go on
    with `lace`; `skip` characters of an occurrence are still to be passed over. -/
def replaceFrom (p : Char) (lace value : List Char) : Nat → List Char → List Char
  | _, [] => []
  | skip + 1, _ :: rest => replaceFrom p lace value skip rest
  | 0, c :: rest =>
    if (p :: lace).isPrefixOf (c :: rest) then value ++ replaceFrom p lace value lace.length rest
    else c :: replaceFrom p lace value 0 rest

/-- The text with every occurrence of a placeholder replaced by a value. -/
def replace (placeholder value s : String) : String :=
  match placeholder.toList with
  | [] => s
  | p :: lace => String.ofList (replaceFrom p lace value.toList 0 s.toList)

end BoundaryProxy.Text
