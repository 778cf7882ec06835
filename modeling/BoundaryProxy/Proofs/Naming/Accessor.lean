import BoundaryProxy.Naming.Accessor
import BoundaryProxy.Text.Fragment

/-!
# `Proofs.Naming.Accessor` — the names of accessors and of what stands in for them

An accessor's name is `get_` or `set_` followed by its property, and both parts are found again: the property
by `propertyName`, the method by `accessorMethodName`. The name of the method (`accessName`) is the verb and the
property, whose first letter is put in upper case.
-/

namespace BoundaryProxy.Naming

open Text

/-- A text begins with another exactly when it is that text and some rest. -/
theorem beginsWith_iff {start s : String} : beginsWith start s = true ↔ ∃ rest, s = start ++ rest := by
  rw [beginsWith, List.isPrefixOf_iff_prefix]
  constructor
  · rintro ⟨rest, h⟩
    refine ⟨String.ofList rest, String.toList_injective ?_⟩
    rw [String.toList_append, String.toList_ofList, h]
  · rintro ⟨rest, rfl⟩
    exact ⟨rest.toList, String.toList_append.symm⟩

theorem dropBytes_ascii {a b c d : Char} (ha : a.utf8Size = 1) (hb : b.utf8Size = 1) (hc : c.utf8Size = 1)
    (hd : d.utf8Size = 1) (rest : List Char) : dropBytes 4 (a :: b :: c :: d :: rest) = some rest := by
  simp [dropBytes, ha, hb, hc, hd]

/-- A property is found again behind four letters of one byte each. -/
theorem propertyName_append {start : String} {a b c d : Char} (hstart : start.toList = [a, b, c, d])
    (ha : a.utf8Size = 1) (hb : b.utf8Size = 1) (hc : c.utf8Size = 1) (hd : d.utf8Size = 1)
    (property : String) : propertyName (start ++ property) = property := by
  have hcut : dropBytes 4 (start ++ property).toList = some property.toList := by
    rw [String.toList_append, hstart]
    exact dropBytes_ascii ha hb hc hd _
  rw [propertyName, hcut, Option.getD_some, String.ofList_toList]

@[simp] theorem propertyName_get (property : String) : propertyName ("get_" ++ property) = property :=
  propertyName_append rfl rfl rfl rfl rfl property

@[simp] theorem propertyName_set (property : String) : propertyName ("set_" ++ property) = property :=
  propertyName_append rfl rfl rfl rfl rfl property

/-- The name of a method that accesses a property: a verb, and the property with its first letter in upper case. -/
def accessName (verb property : String) : String :=
  match property.toList with
  | [] => verb
  | first :: rest => verb ++ String.ofList (uppercase first ++ rest)

/-- The capital of a letter from `a` to `z` is the letter from `A` to `Z`, and other characters of one byte have none. -/
theorem uppercase_ascii {c : Char} (hc : c.toNat < 128) : uppercase c = [c.toUpper] := by
  have hall : ∀ n : Fin 128, uppercase (Char.ofNat n) = [(Char.ofNat n).toUpper] := by decide +kernel
  have hcap := hall ⟨c.toNat, hc⟩
  rwa [Char.ofNat_toNat] at hcap

/-- Behind a first letter of one byte, the property is kept. -/
theorem accessName_ascii {verb property : String} {first : Char} {rest : List Char}
    (hproperty : property.toList = first :: rest) (hfirst : first.toNat < 128) :
    accessName verb property = verb ++ String.ofList (first.toUpper :: rest) := by
  rw [accessName, hproperty]
  exact congrArg (fun capital => verb ++ String.ofList (capital ++ rest)) (uppercase_ascii hfirst)

theorem accessName_eq (verb property : String) :
    accessName verb property = verb ++ String.ofList (capitalize property.toList) := by
  rw [accessName]
  cases property.toList with
  | nil => exact String.append_empty.symm
  | cons first rest => rfl

@[simp] theorem accessorMethodName_get (property : String) :
    accessorMethodName ("get_" ++ property) = accessName "Get" property := by
  have hlist : ("get_" ++ property).toList = 'g' :: 'e' :: 't' :: '_' :: property.toList := by
    rw [String.toList_append]
    rfl
  rw [accessorMethodName, hlist, accessName_eq]
  exact String.ofList_append

@[simp] theorem accessorMethodName_set (property : String) :
    accessorMethodName ("set_" ++ property) = accessName "Set" property := by
  have hlist : ("set_" ++ property).toList = 's' :: 'e' :: 't' :: '_' :: property.toList := by
    rw [String.toList_append]
    rfl
  rw [accessorMethodName, hlist, accessName_eq]
  exact String.ofList_append

end BoundaryProxy.Naming
