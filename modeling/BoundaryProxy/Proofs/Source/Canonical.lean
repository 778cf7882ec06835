import BoundaryProxy.Proofs.Source.Atom
import BoundaryProxy.Text.Numeral

/-!
# `Proofs.Source.Canonical` — what the text of code does not tell apart

A field is printed as a method of the proxy is, a parameter as a local is, and a type as all types that are spelled
like it. The canonical form has the field, the parameter and the type with keywords for its primitives, which well-named
types share exactly if they are spelled alike (`TypeExpr.spelling_eq_iff`). Code that agrees in its canonical form is
printed alike (`stmtText_canonical`). Code is plain if it holds no path, which could be any text, and is
named with identifiers that are no words of the language (`Atom.Plain`).
-/

namespace BoundaryProxy

open Text Source

/-! ## Canonical types -/

namespace TypeExpr

theorem keywordFor_idem (name : String) : keywordFor (keywordFor name) = keywordFor name := by
  have hnone : ∀ row ∈ keywords, keywordFor row.2 = row.2 := by
    decide +kernel
  rcases keywordFor_cases name with hmem | hname
  · exact hnone _ hmem
  · rw [hname, hname]

mutual

theorem keyworded_idem : ∀ t : TypeExpr, t.keyworded.keyworded = t.keyworded
  | ⟨name, [], rank⟩ => by
    rw [keyworded, keyworded, keywordFor_idem]
  | ⟨name, a :: as, rank⟩ => by
    rw [keyworded, keyworded, keyworded_idem a, keywordedArgs_idem as]

theorem keywordedArgs_idem : ∀ as : List TypeExpr, keywordedArgs (keywordedArgs as) = keywordedArgs as
  | [] => by
    rw [keywordedArgs, keywordedArgs]
  | a :: as => by
    rw [keywordedArgs, keywordedArgs, keyworded_idem a, keywordedArgs_idem as]

end

/-- A type is spelled like the one with its keywords. -/
theorem spelling_keyworded (t : TypeExpr) : t.keyworded.spelling = t.spelling := by
  rw [spelling_eq, spelling_eq, keyworded_idem]

end TypeExpr

/-! ## Canonical code -/

namespace Proxy

mutual

/-- The expression with fields for methods of the proxy, parameters for locals, and keywords for primitives. -/
def Expr.canonical : Expr → Expr
  | .null => .null
  | .field name => .field name
  | .param name => .param name
  | .localVar name => .param name
  | .property target name => .property target.canonical name
  | .index target keys => .index target.canonical (canonicalExprs keys)
  | .invoke target method args => .invoke target.canonical method (canonicalArgs args)
  | .methodRef name => .field name
  | .new type args => .new type.keyworded (canonicalExprs args)
  | .path text => .path text

/-- The canonical forms of several expressions. -/
def canonicalExprs : List Expr → List Expr
  | [] => []
  | e :: es => e.canonical :: canonicalExprs es

/-- The canonical form of an argument. -/
def Arg.canonical : Arg → Arg
  | .value e => .value e.canonical
  | .discard => .discard

/-- The canonical forms of several arguments. -/
def canonicalArgs : List Arg → List Arg
  | [] => []
  | a :: as => a.canonical :: canonicalArgs as

end

/-- The statement with its expressions and types in canonical form. -/
def Stmt.canonical : Stmt → Stmt
  | .declare type name init => .declare type.keyworded name (init.map Expr.canonical)
  | .assign target value => .assign target.canonical value.canonical
  | .return value => .return (value.map Expr.canonical)
  | .expr e => .expr e.canonical
  | .attach target event handler => .attach target.canonical event handler.canonical
  | .raise event args => .raise event (canonicalExprs args)

end Proxy

open Proxy

namespace Source

mutual

theorem exprText_canonical : ∀ e : Expr, exprText e.canonical = exprText e
  | .null => by rw [Expr.canonical]
  | .field name => by rw [Expr.canonical]
  | .param name => by rw [Expr.canonical]
  | .localVar name => by rw [Expr.canonical, exprText, exprText]
  | .property target name => by rw [Expr.canonical, exprText, exprText, exprText_canonical target]
  | .index target keys => by
    rw [Expr.canonical, exprText, exprText, exprText_canonical target, exprTexts_canonical keys]
  | .invoke target method args => by
    rw [Expr.canonical, exprText, exprText, exprText_canonical target, argTexts_canonical args]
  | .methodRef name => by rw [Expr.canonical, exprText, exprText]
  | .new type args => by
    rw [Expr.canonical, exprText, exprText, type.spelling_keyworded, exprTexts_canonical args]
  | .path text => by rw [Expr.canonical]

theorem exprTexts_canonical : ∀ es : List Expr, exprTexts (canonicalExprs es) = exprTexts es
  | [] => by rw [canonicalExprs]
  | e :: es => by rw [canonicalExprs, exprTexts, exprTexts, exprText_canonical e, exprTexts_canonical es]

theorem argText_canonical : ∀ a : Arg, argText a.canonical = argText a
  | .value e => by rw [Arg.canonical, argText, argText, exprText_canonical e]
  | .discard => by rw [Arg.canonical]

theorem argTexts_canonical : ∀ args : List Arg, argTexts (canonicalArgs args) = argTexts args
  | [] => by rw [canonicalArgs]
  | a :: args => by rw [canonicalArgs, argTexts, argTexts, argText_canonical a, argTexts_canonical args]

end

/-- A statement is printed like its canonical form. -/
theorem stmtText_canonical (s : Stmt) : stmtText s.canonical = stmtText s := by
  cases s with
  | declare type name init =>
    cases init <;> simp [Stmt.canonical, stmtText, type.spelling_keyworded, exprText_canonical]
  | «return» value => cases value <;> simp [Stmt.canonical, stmtText, exprText_canonical]
  | assign | expr | attach | raise => simp [Stmt.canonical, stmtText, exprText_canonical, exprTexts_canonical]

end Source

/-! ## Plain code -/

namespace Proxy

/-- The words that the text of code has a use for. -/
def reserved : List String :=
  ["this", "null", "new", "out", "return"]

/-- Identifiers are runs of letters, numerals and underscores that are no reserved words. -/
structure IsWord (name : String) : Prop where
  nonempty : name ≠ ""
  chars : ∀ c ∈ name.toList, continuesIdentifier c = true
  free : name ∉ reserved

instance (name : String) : Decidable (IsWord name) :=
  decidable_of_iff (name ≠ "" ∧ Within (continuesIdentifier · = true) name ∧ name ∉ reserved)
    ⟨fun h => ⟨h.1, h.2.1, h.2.2⟩, fun h => ⟨h.nonempty, h.chars, h.free⟩⟩

/-- A plain atom is an identifier or a type with names throughout that is itself not named `return`. -/
def Atom.Plain : Atom → Prop
  | name text => IsWord text
  | type t => t.WellNamed ∧ t.name ≠ "return"
  | path _ => False

/-- All atoms are plain. -/
def AllPlain (atoms : List Atom) : Prop :=
  ∀ a ∈ atoms, a.Plain

variable {as bs : List Atom}

@[simp] theorem allPlain_nil : AllPlain [] :=
  List.forall_mem_nil _

@[simp] theorem allPlain_name {text : String} : AllPlain (.name text :: as) ↔ IsWord text ∧ AllPlain as :=
  List.forall_mem_cons

@[simp] theorem allPlain_type {t : TypeExpr} :
    AllPlain (.type t :: as) ↔ (t.WellNamed ∧ t.name ≠ "return") ∧ AllPlain as :=
  List.forall_mem_cons

@[simp] theorem allPlain_path {text : String} : ¬AllPlain (.path text :: as) :=
  fun h => h _ List.mem_cons_self

@[simp] theorem allPlain_append : AllPlain (as ++ bs) ↔ AllPlain as ∧ AllPlain bs :=
  List.forall_mem_append

end Proxy

/-! ## Characters of plain code -/

namespace TypeExpr

theorem name_mem_names : ∀ t : TypeExpr, t.name ∈ t.names
  | ⟨_, _, _⟩ => by
    rw [names]
    exact List.mem_cons_self

mutual

theorem WellNamed.isTypeName_of_mem : ∀ {t : TypeExpr}, WellNamed t → ∀ name ∈ t.names, IsTypeName name
  | ⟨_, args, _⟩, .intro hname hargs => by
    rw [names]
    exact List.forall_mem_cons.mpr ⟨hname, isTypeName_of_mem_namesIn hargs⟩

theorem isTypeName_of_mem_namesIn : ∀ {ts : List TypeExpr}, (∀ t ∈ ts, WellNamed t) →
    ∀ name ∈ namesIn ts, IsTypeName name
  | [], _ => by
    rw [namesIn]
    exact List.forall_mem_nil _
  | t :: ts, h => by
    obtain ⟨ht, hts⟩ := List.forall_mem_cons.mp h
    rw [namesIn, List.forall_mem_append]
    exact ⟨ht.isTypeName_of_mem, isTypeName_of_mem_namesIn hts⟩

end

end TypeExpr

namespace Proxy

theorem isNameChar_of_continuesIdentifier {c : Char} (h : continuesIdentifier c = true) :
    TypeExpr.isNameChar c = true := by
  simp only [continuesIdentifier, Bool.or_eq_true, beq_iff_eq] at h
  exact TypeExpr.isNameChar_iff.mpr (h.imp_right .inl)

variable {kind : Char → Prop} (hname : ∀ c, TypeExpr.isNameChar c = true → kind c)
include hname

theorem within_typeName {name : String} (h : TypeExpr.IsTypeName name) : Within kind name :=
  fun c hc => hname c ((TypeExpr.isTypeName_iff.mp h).2 c hc)

/-- What holds of the characters of type names holds of all that plain atoms are written with. -/
theorem AllPlain.atomsWithin (h : AllPlain as) : AtomsWithin kind as := by
  intro a ha
  have hplain := h a ha
  cases a with
  | name text =>
    exact List.forall_mem_singleton.mpr fun c hc => hname c (isNameChar_of_continuesIdentifier (hplain.chars c hc))
  | type t => exact fun name hn => within_typeName hname (hplain.1.isTypeName_of_mem name hn)
  | path text => exact hplain.elim

theorem within_spelling_of_wellNamed (hfixed : FixedWithin spellingChars kind) {t : TypeExpr} (h : t.WellNamed) :
    Within kind t.spelling :=
  within_spelling hfixed fun name hn => within_typeName hname (h.isTypeName_of_mem name hn)

end Proxy

end BoundaryProxy
