import BoundaryProxy.Proofs.Source.Spelling
import BoundaryProxy.Proxy.Unit

/-!
# `Proofs.Source.Wording` — what the lines of a class say

Which words stand on the lines that declare a member, and which pieces make up an expression or a statement, in the
order of the text and with no mention of how it is printed. A type is worded as its written form is, with keywords
for primitives. The printer prints just that (`stmtText_eq`, `fieldText_eq`, `eventText_eq`, `constructorText_eq`,
`methodText_eq`).
-/

namespace BoundaryProxy

open Proxy

namespace Source

/-- The words for a type. -/
def typeWords (t : TypeExpr) : String :=
  t.keyworded.text

/-- Pieces of text with a comma and a blank between those of one item and those of the next. -/
def between (items : List (List String)) : List String :=
  [", "].intercalate items

mutual

/-- The pieces of an expression's text. -/
def exprPieces : Expr → List String
  | .null => ["null"]
  | .field name => ["this.", name]
  | .param name => [name]
  | .localVar name => [name]
  | .property target name => exprPieces target ++ [".", name]
  | .index target keys => exprPieces target ++ ["["] ++ between (eachPieces keys) ++ ["]"]
  | .invoke target method args => exprPieces target ++ [".", method, "("] ++ between (eachArgPieces args) ++ [")"]
  | .methodRef name => ["this.", name]
  | .new type args => ["new ", typeWords type, "("] ++ between (eachPieces args) ++ [")"]
  | .path text => [text]

/-- The pieces of each of several expressions. -/
def eachPieces : List Expr → List (List String)
  | [] => []
  | e :: es => exprPieces e :: eachPieces es

/-- The pieces of an argument. -/
def argPieces : Arg → List String
  | .value e => exprPieces e
  | .discard => ["out _"]

/-- The pieces of each of several arguments. -/
def eachArgPieces : List Arg → List (List String)
  | [] => []
  | a :: as => argPieces a :: eachArgPieces as

end

/-- The pieces of a statement's text. -/
def stmtPieces : Stmt → List String
  | .declare type name none => [typeWords type, " ", name, ";"]
  | .declare type name (some init) => [typeWords type, " ", name, " = "] ++ exprPieces init ++ [";"]
  | .assign target value => exprPieces target ++ [" = "] ++ exprPieces value ++ [";"]
  | .return none => ["return;"]
  | .return (some value) => ["return "] ++ exprPieces value ++ [";"]
  | .expr e => exprPieces e ++ [";"]
  | .attach target event handler => exprPieces target ++ [".", event, " += "] ++ exprPieces handler ++ [";"]
  | .raise event args => ["this.", event, "?.Invoke("] ++ between (eachPieces args) ++ [");"]

/-- The line of a statement. -/
def stmtWords (s : Stmt) : String :=
  String.join (stmtPieces s)

/-- The words of a parameter list. -/
def paramsWords (params : List Param) : String :=
  String.intercalate ", " (params.map fun p => s!"{typeWords p.type} {p.name}")

/-- The line that declares a field. What a path of the host gives is said there, what a parameter gives is not. -/
def fieldWords : Field → String
  | ⟨name, type, .fixed path⟩ => s!"private {typeWords type} {name} = {path};"
  | ⟨name, type, .fromParam _⟩ => s!"private {typeWords type} {name};"

/-- The line that declares an event. -/
def eventWords : Event → String
  | ⟨name, handlerType⟩ => s!"public event {typeWords handlerType} {name};"

/-- The signature of a constructor. -/
def constructorWords (className : String) (c : Constructor) : String :=
  s!"public {className}({paramsWords c.params})"

/-- The signature of a method. -/
def methodWords (m : Method) : String :=
  s!"public {typeWords m.returns} {m.name}({paramsWords m.params})"

/-! ## The printer says it -/

@[simp] theorem join_append (pieces pieces' : List String) :
    String.join (pieces ++ pieces') = String.join pieces ++ String.join pieces' := by
  induction pieces with
  | nil => rw [List.nil_append, String.join_nil, String.empty_append]
  | cons piece pieces ih => rw [List.cons_append, String.join_cons, String.join_cons, ih, String.append_assoc]

theorem join_between (items : List (List String)) :
    String.join (between items) = commaSeparated (items.map String.join) := by
  unfold between commaSeparated
  induction items with
  | nil => rfl
  | cons item items ih =>
    cases items with
    | nil => rw [List.intercalate_singleton, List.map_singleton, String.intercalate_singleton]
    | cons next rest =>
      rw [List.intercalate_cons_cons, join_append, join_append, ih]
      simp [String.intercalate_cons_cons]

mutual

/-- An expression is printed piece by piece. -/
theorem exprText_eq : ∀ e : Expr, exprText e = String.join (exprPieces e)
  | .null | .field _ | .param _ | .localVar _ | .methodRef _ | .path _ => by
    simp [exprText, exprPieces]
  | .property target name => by
    simp [exprText, exprPieces, exprText_eq target, String.append_assoc]
  | .index target keys => by
    simp [exprText, exprPieces, exprText_eq target, exprTexts_eq keys, join_between, String.append_assoc]
  | .invoke target method args => by
    simp [exprText, exprPieces, exprText_eq target, argTexts_eq args, join_between, String.append_assoc]
  | .new type args => by
    simp [exprText, exprPieces, typeWords, TypeExpr.spelling_eq, exprTexts_eq args, join_between,
      String.append_assoc]

theorem exprTexts_eq : ∀ es : List Expr, exprTexts es = (eachPieces es).map String.join
  | [] => by rw [exprTexts, eachPieces, List.map_nil]
  | e :: es => by rw [exprTexts, eachPieces, List.map_cons, exprText_eq e, exprTexts_eq es]

theorem argText_eq : ∀ a : Arg, argText a = String.join (argPieces a)
  | .value e => by rw [argText, argPieces, exprText_eq e]
  | .discard => by simp [argText, argPieces]

theorem argTexts_eq : ∀ as : List Arg, argTexts as = (eachArgPieces as).map String.join
  | [] => by rw [argTexts, eachArgPieces, List.map_nil]
  | a :: as => by rw [argTexts, eachArgPieces, List.map_cons, argText_eq a, argTexts_eq as]

end

/-- **A statement** is printed piece by piece. -/
theorem stmtText_eq (s : Stmt) : stmtText s = stmtWords s := by
  unfold stmtWords
  cases s with
  | declare type name init =>
    cases init <;>
      simp [stmtText, stmtPieces, typeWords, TypeExpr.spelling_eq, exprText_eq, String.append_assoc]
  | «return» value => cases value <;> simp [stmtText, stmtPieces, exprText_eq, String.append_assoc]
  | raise event args => simp [stmtText, stmtPieces, exprTexts_eq, join_between, String.append_assoc]
  | assign | expr | attach => simp [stmtText, stmtPieces, exprText_eq, String.append_assoc]

theorem paramsText_eq (params : List Param) : paramsText params = paramsWords params := by
  have hone : (fun p : Param => p.type.spelling ++ " " ++ p.name) = fun p => s!"{typeWords p.type} {p.name}" := by
    funext p
    rw [TypeExpr.spelling_eq]
    rfl
  rw [paramsText, hone]
  rfl

theorem fieldText_eq (f : Field) : fieldText f = fieldWords f := by
  obtain ⟨name, type, init⟩ := f
  cases init <;> rw [fieldText, TypeExpr.spelling_eq] <;> rfl

theorem eventText_eq (e : Event) : eventText e = eventWords e := by
  rw [eventText, TypeExpr.spelling_eq]
  rfl

theorem constructorText_eq (className : String) (c : Constructor) :
    constructorText className c = constructorWords className c := by
  rw [constructorText, paramsText_eq]
  rfl

theorem methodText_eq (m : Method) : methodText m = methodWords m := by
  rw [methodText, paramsText_eq, TypeExpr.spelling_eq]
  rfl

end Source

end BoundaryProxy
