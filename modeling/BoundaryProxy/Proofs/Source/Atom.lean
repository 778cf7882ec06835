import BoundaryProxy.Proofs.Source.Spelling

/-!
# `Proofs.Source.Atom` — what printed code is made of

A unit brings names, types and paths of its own; these are its `Atom`s. All else in its text is fixed. So a character of
the text that is none of the fixed ones comes from an atom: what holds of the fixed characters and of those of the atoms
holds of every character of the text (`within_spelling`, `within_exprText`).
-/

namespace BoundaryProxy

namespace Proxy

/-! ## Atoms -/

/-- A part of code that is not fixed. -/
inductive Atom where
  | name (text : String)
  | type (t : TypeExpr)
  | path (text : String)
deriving DecidableEq

/-- The texts an atom is written with; those of a type are the names in it. -/
def Atom.texts : Atom → List String
  | name text => [text]
  | type t => t.names
  | path text => [text]

mutual

/-- The atoms of an expression, at any depth. -/
def Expr.atoms : Expr → List Atom
  | .null => []
  | .field name => [.name name]
  | .param name => [.name name]
  | .localVar name => [.name name]
  | .property target name => target.atoms ++ [.name name]
  | .index target keys => target.atoms ++ exprsAtoms keys
  | .invoke target method args => target.atoms ++ .name method :: argsAtoms args
  | .methodRef name => [.name name]
  | .new type args => .type type :: exprsAtoms args
  | .path text => [.path text]

/-- The atoms of several expressions. -/
def exprsAtoms : List Expr → List Atom
  | [] => []
  | e :: es => e.atoms ++ exprsAtoms es

/-- The atoms of an argument. -/
def Arg.atoms : Arg → List Atom
  | .value e => e.atoms
  | .discard => []

/-- The atoms of several arguments. -/
def argsAtoms : List Arg → List Atom
  | [] => []
  | a :: as => a.atoms ++ argsAtoms as

end

/-- The atoms of a statement. -/
def Stmt.atoms : Stmt → List Atom
  | .declare type name init => .type type :: .name name :: init.toList.flatMap Expr.atoms
  | .assign target value => target.atoms ++ value.atoms
  | .return value => value.toList.flatMap Expr.atoms
  | .expr e => e.atoms
  | .attach target event handler => target.atoms ++ .name event :: handler.atoms
  | .raise event args => .name event :: exprsAtoms args

/-- The atoms of a parameter. -/
def Param.atoms (p : Param) : List Atom :=
  [.type p.type, .name p.name]

/-- The atoms that a field is declared with. Which parameter gives it its value is not said there. -/
def Field.atoms (f : Field) : List Atom :=
  .type f.type :: .name f.name ::
    match f.init with
    | .fixed path => [.path path]
    | .fromParam _ => []

/-- The atoms of a member. -/
def Member.atoms : Member → List Atom
  | .field f => f.atoms
  | .constructor c => c.params.flatMap Param.atoms ++ c.body.flatMap Stmt.atoms
  | .method m => .type m.returns :: .name m.name :: m.params.flatMap Param.atoms ++ m.body.flatMap Stmt.atoms
  | .event e => [.type e.handlerType, .name e.name]

end Proxy

open Proxy

/-- The atoms of a unit. -/
def ProxyUnit.atoms (u : ProxyUnit) : List Atom :=
  .name u.namespaceName :: .name u.className :: u.members.flatMap Member.atoms

namespace Source

/-! ## Characters -/

/-- Every character of a text is of a kind. -/
def Within (kind : Char → Prop) (s : String) : Prop :=
  ∀ c ∈ s.toList, kind c

/-- Every character of the texts that atoms are written with is of a kind. -/
def AtomsWithin (kind : Char → Prop) (atoms : List Atom) : Prop :=
  ∀ a ∈ atoms, ∀ text ∈ a.texts, Within kind text

variable {kind : Char → Prop} {as bs : List Atom}

instance [DecidablePred kind] (s : String) : Decidable (Within kind s) :=
  List.decidableBAll kind s.toList

instance [DecidablePred kind] (atoms : List Atom) : Decidable (AtomsWithin kind atoms) :=
  inferInstanceAs (Decidable (∀ a ∈ atoms, ∀ text ∈ a.texts, Within kind text))

@[simp] theorem within_append {s t : String} : Within kind (s ++ t) ↔ Within kind s ∧ Within kind t := by
  unfold Within
  rw [String.toList_append, List.forall_mem_append]

@[simp] theorem atomsWithin_nil : AtomsWithin kind [] :=
  List.forall_mem_nil _

@[simp] theorem atomsWithin_name {text : String} :
    AtomsWithin kind (.name text :: as) ↔ Within kind text ∧ AtomsWithin kind as :=
  List.forall_mem_cons.trans (and_congr_left' List.forall_mem_singleton)

@[simp] theorem atomsWithin_type {t : TypeExpr} :
    AtomsWithin kind (.type t :: as) ↔ (∀ name ∈ t.names, Within kind name) ∧ AtomsWithin kind as :=
  List.forall_mem_cons

@[simp] theorem atomsWithin_path {text : String} :
    AtomsWithin kind (.path text :: as) ↔ Within kind text ∧ AtomsWithin kind as :=
  List.forall_mem_cons.trans (and_congr_left' List.forall_mem_singleton)

@[simp] theorem atomsWithin_append :
    AtomsWithin kind (as ++ bs) ↔ AtomsWithin kind as ∧ AtomsWithin kind bs :=
  List.forall_mem_append

theorem atomsWithin_flatMap {α : Type} {f : α → List Atom} {xs : List α} :
    AtomsWithin kind (xs.flatMap f) ↔ ∀ x ∈ xs, AtomsWithin kind (f x) := by
  unfold AtomsWithin
  simp only [List.mem_flatMap]
  constructor
  · intro h x hx a ha
    exact h a ⟨x, hx, ha⟩
  · rintro h a ⟨x, hx, ha⟩
    exact h x hx a ha

/-- The characters that the spelling of a type has of itself. -/
def spellingChars : List Char :=
  ", []<>".toList ++ TypeExpr.keywordNames.flatMap String.toList

/-- The characters that the text of an expression has of itself. -/
def fixedChars : List Char :=
  "null this.() new out _".toList ++ spellingChars

/-- These characters are of a kind. -/
def FixedWithin (chars : List Char) (kind : Char → Prop) : Prop :=
  ∀ c ∈ chars, kind c

instance [DecidablePred kind] (chars : List Char) : Decidable (FixedWithin chars kind) :=
  List.decidableBAll kind chars

theorem FixedWithin.spelling (h : FixedWithin fixedChars kind) : FixedWithin spellingChars kind :=
  fun c hc => h c (List.mem_append_right _ hc)

theorem FixedWithin.within {chars : List Char} (h : FixedWithin chars kind) {s : String} (hs : s.toList ⊆ chars) :
    Within kind s :=
  fun c hc => h c (hs hc)

section Spelling

variable (hfixed : FixedWithin spellingChars kind)
include hfixed

theorem within_commaSeparated {items : List String} (h : ∀ item ∈ items, Within kind item) :
    Within kind (commaSeparated items) := by
  unfold commaSeparated
  induction items with
  | nil => exact fun c hc => absurd hc List.not_mem_nil
  | cons item items ih =>
    obtain ⟨hitem, hitems⟩ := List.forall_mem_cons.mp h
    cases items with
    | nil => rwa [String.intercalate_singleton]
    | cons next rest =>
      have hcomma : Within kind ", " := hfixed.within (by decide)
      rw [String.intercalate_cons_cons, within_append, within_append]
      exact ⟨⟨hitem, hcomma⟩, ih hitems⟩

theorem within_keywordOr {name : String} (h : Within kind name) : Within kind (TypeExpr.keywordOr name) := by
  rw [TypeExpr.keywordOr_eq]
  rcases TypeExpr.keywordFor_cases name with hmem | hname
  · refine hfixed.within fun c hc => ?_
    exact List.mem_append_right _ (List.mem_flatMap.mpr ⟨_, TypeExpr.keyword_mem_keywordNames hmem, hc⟩)
  · rwa [hname]

theorem within_brackets (n : Nat) : Within kind (TypeExpr.brackets n) := by
  induction n with
  | zero => exact fun c hc => absurd hc List.not_mem_nil
  | succ n ih =>
    rw [TypeExpr.brackets_succ, within_append]
    exact ⟨hfixed.within (by decide), ih⟩

end Spelling

mutual

/-- The characters of a type's spelling are those of its names and fixed ones. -/
theorem within_spelling (hfixed : FixedWithin spellingChars kind) : ∀ {t : TypeExpr},
    (∀ name ∈ t.names, Within kind name) → Within kind t.spelling
  | ⟨name, [], rank⟩, h => by
    rw [TypeExpr.spelling, within_append]
    exact ⟨within_keywordOr hfixed (h name (by simp [TypeExpr.names])), within_brackets hfixed rank.val⟩
  | ⟨name, t :: ts, rank⟩, h => by
    simp only [TypeExpr.names, TypeExpr.namesIn, List.forall_mem_cons, List.forall_mem_append] at h
    obtain ⟨hname, ht, hts⟩ := h
    simp only [TypeExpr.spelling, within_append]
    have hopen : Within kind "<" := hfixed.within (by decide)
    have hclose : Within kind ">" := hfixed.within (by decide)
    exact ⟨⟨⟨⟨⟨hname, hopen⟩, within_spelling hfixed ht⟩, within_restSpelling hfixed hts⟩, hclose⟩,
      within_brackets hfixed rank.val⟩

theorem within_restSpelling (hfixed : FixedWithin spellingChars kind) : ∀ {ts : List TypeExpr},
    (∀ name ∈ TypeExpr.namesIn ts, Within kind name) → Within kind (TypeExpr.restSpelling ts)
  | [], _ => by
    rw [TypeExpr.restSpelling]
    exact fun c hc => absurd hc List.not_mem_nil
  | t :: ts, h => by
    rw [TypeExpr.namesIn, List.forall_mem_append] at h
    simp only [TypeExpr.restSpelling, within_append]
    exact ⟨⟨hfixed.within (by decide), within_spelling hfixed h.1⟩, within_restSpelling hfixed h.2⟩

end

mutual

/-- The characters of an expression's text are those of its atoms and fixed ones. -/
theorem within_exprText (hfixed : FixedWithin fixedChars kind) : ∀ {e : Expr}, AtomsWithin kind e.atoms →
    Within kind (exprText e)
  | .null, _ => by
    rw [exprText]
    exact hfixed.within (by decide)
  | .field name, h => by
    simp only [Expr.atoms, atomsWithin_name] at h
    rw [exprText, within_append]
    exact ⟨hfixed.within (by decide), h.1⟩
  | .param name, h => by
    simp only [Expr.atoms, atomsWithin_name] at h
    rw [exprText]
    exact h.1
  | .localVar name, h => by
    simp only [Expr.atoms, atomsWithin_name] at h
    rw [exprText]
    exact h.1
  | .property target name, h => by
    simp only [Expr.atoms, atomsWithin_append, atomsWithin_name] at h
    simp only [exprText, within_append]
    have hdot : Within kind "." := hfixed.within (by decide)
    exact ⟨⟨within_exprText hfixed h.1, hdot⟩, h.2.1⟩
  | .index target keys, h => by
    simp only [Expr.atoms, atomsWithin_append] at h
    simp only [exprText, within_append]
    have hopen : Within kind "[" := hfixed.within (by decide)
    have hclose : Within kind "]" := hfixed.within (by decide)
    have hkeys := within_commaSeparated hfixed.spelling (within_exprTexts hfixed h.2)
    exact ⟨⟨⟨within_exprText hfixed h.1, hopen⟩, hkeys⟩, hclose⟩
  | .invoke target method args, h => by
    simp only [Expr.atoms, atomsWithin_append, atomsWithin_name] at h
    simp only [exprText, within_append]
    have hdot : Within kind "." := hfixed.within (by decide)
    have hopen : Within kind "(" := hfixed.within (by decide)
    have hclose : Within kind ")" := hfixed.within (by decide)
    have hargs := within_commaSeparated hfixed.spelling (within_argTexts hfixed h.2.2)
    exact ⟨⟨⟨⟨⟨within_exprText hfixed h.1, hdot⟩, h.2.1⟩, hopen⟩, hargs⟩, hclose⟩
  | .methodRef name, h => by
    simp only [Expr.atoms, atomsWithin_name] at h
    rw [exprText, within_append]
    exact ⟨hfixed.within (by decide), h.1⟩
  | .new type args, h => by
    simp only [Expr.atoms, atomsWithin_type] at h
    simp only [exprText, within_append]
    have hnew : Within kind "new " := hfixed.within (by decide)
    have hopen : Within kind "(" := hfixed.within (by decide)
    have hclose : Within kind ")" := hfixed.within (by decide)
    have hargs := within_commaSeparated hfixed.spelling (within_exprTexts hfixed h.2)
    exact ⟨⟨⟨⟨hnew, within_spelling hfixed.spelling h.1⟩, hopen⟩, hargs⟩, hclose⟩
  | .path text, h => by
    simp only [Expr.atoms, atomsWithin_path] at h
    rw [exprText]
    exact h.1

theorem within_exprTexts (hfixed : FixedWithin fixedChars kind) : ∀ {es : List Expr}, AtomsWithin kind (exprsAtoms es) →
    ∀ text ∈ exprTexts es, Within kind text
  | [], _ => by
    rw [exprTexts]
    exact fun text htext => absurd htext List.not_mem_nil
  | e :: es, h => by
    rw [exprsAtoms, atomsWithin_append] at h
    rw [exprTexts]
    exact List.forall_mem_cons.mpr ⟨within_exprText hfixed h.1, within_exprTexts hfixed h.2⟩

theorem within_argText (hfixed : FixedWithin fixedChars kind) : ∀ {a : Arg}, AtomsWithin kind a.atoms →
    Within kind (argText a)
  | .value e, h => by
    rw [Arg.atoms] at h
    rw [argText]
    exact within_exprText hfixed h
  | .discard, _ => by
    rw [argText]
    exact hfixed.within (by decide)

theorem within_argTexts (hfixed : FixedWithin fixedChars kind) : ∀ {args : List Arg},
    AtomsWithin kind (argsAtoms args) → ∀ text ∈ argTexts args, Within kind text
  | [], _ => by
    rw [argTexts]
    exact fun text htext => absurd htext List.not_mem_nil
  | a :: args, h => by
    rw [argsAtoms, atomsWithin_append] at h
    rw [argTexts]
    exact List.forall_mem_cons.mpr ⟨within_argText hfixed h.1, within_argTexts hfixed h.2⟩

end

end Source

end BoundaryProxy
