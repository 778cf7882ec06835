import BoundaryProxy.Catalog.Reach
import BoundaryProxy.Profile.Basic
import BoundaryProxy.Text.Fragment

/-!
# `BoundaryProxy.Members.Basic` — the members a proxy converts

The members of a wrapped interface are its own and those of every interface it inherits from, taken in the
order of a depth-first visit. A name that was met before is not met again: the methods of a name, with all
their overloads, come from the first interface that has the name, and a getter, setter or event of a name is
the first there is.

Methods with a parameter that only hands a value out are kept or set aside as the profile says.
-/

namespace BoundaryProxy

/-- The members to convert, and the methods set aside. -/
structure MemberSet where
  methods : List MethodDecl := []
  getters : List MethodDecl := []
  setters : List MethodDecl := []
  events : List EventDecl := []
  rejected : List MethodDecl := []
deriving Repr, DecidableEq

namespace MemberSet

/-- The list with those of the given items whose name it does not have yet; of items that share a name only
    the first is taken. -/
def addNew {α : Type} (name : α → String) (have_ new : List α) : List α :=
  new.foldl (fun items x => if items.any (name · == name x) then items else items ++ [x]) have_

/-- Whether a method is the accessor that reads. -/
def isGetter (m : MethodDecl) : Bool :=
  m.special && Text.beginsWith "get_" m.name

/-- Whether a method is the accessor that writes. -/
def isSetter (m : MethodDecl) : Bool :=
  m.special && Text.beginsWith "set_" m.name

/-- The set with what an interface adds to it. -/
def absorb (s : MemberSet) (i : Interface) : MemberSet :=
  { s with
    methods := s.methods ++
      i.allMethods.filter fun m => !m.special && !(s.methods.any (·.name == m.name))
    getters := addNew MethodDecl.name s.getters (i.allMethods.filter isGetter)
    setters := addNew MethodDecl.name s.setters (i.allMethods.filter isSetter)
    events := addNew EventDecl.name s.events i.events }

/-- The set with its methods treated as the policy says. -/
def applyPolicy (s : MemberSet) : OutParamPolicy → MemberSet
  | .discard => s
  | .reject =>
    { s with
      methods := s.methods.filter (!·.hasOutParams)
      rejected := s.methods.filter (·.hasOutParams) }

end MemberSet

namespace Catalog

/-- A wrapped interface and those it inherits from, in the order in which their members count. -/
def lineage (c : Catalog) (wrapped : Interface) : List Interface :=
  wrapped :: c.reach Interface.bases wrapped.bases [wrapped.type]

/-- The members of a wrapped interface. -/
def members (c : Catalog) (policy : OutParamPolicy) (wrapped : Interface) : MemberSet :=
  ((c.lineage wrapped).foldl MemberSet.absorb {}).applyPolicy policy

end Catalog

end BoundaryProxy
