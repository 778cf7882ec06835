import BoundaryProxy.Proxy.Unit
import BoundaryProxy.Source.Spelling

/-!
# `BoundaryProxy.Source.Render` — the source text of a generated class

The text depends on the unit alone. It is laid out as sections: the fields together, each constructor, the
events together, each method, each section in the order of the members it holds. One blank line stands
between two sections and one between the header and the namespace. A line is indented by four spaces for
every brace that is open before it.
-/

namespace BoundaryProxy.Source

open Proxy

/-! ## Expressions and statements -/

/-- Items with `, ` between them. -/
def commaSeparated (items : List String) : String :=
  String.intercalate ", " items

mutual

/-- The text of an expression. -/
def exprText : Expr → String
  | .null => "null"
  | .field name => "this." ++ name
  | .param name => name
  | .localVar name => name
  | .property target name => exprText target ++ "." ++ name
  | .index target keys => exprText target ++ "[" ++ commaSeparated (exprTexts keys) ++ "]"
  | .invoke target method args =>
    exprText target ++ "." ++ method ++ "(" ++ commaSeparated (argTexts args) ++ ")"
  | .methodRef name => "this." ++ name
  | .new type args => "new " ++ type.spelling ++ "(" ++ commaSeparated (exprTexts args) ++ ")"
  | .path text => text

/-- The texts of several expressions. -/
def exprTexts : List Expr → List String
  | [] => []
  | e :: rest => exprText e :: exprTexts rest

/-- The text of an argument. -/
def argText : Arg → String
  | .value e => exprText e
  | .discard => "out _"

/-- The texts of several arguments. -/
def argTexts : List Arg → List String
  | [] => []
  | a :: rest => argText a :: argTexts rest

end

/-- The text of a statement. -/
def stmtText : Stmt → String
  | .declare type name (some init) => type.spelling ++ " " ++ name ++ " = " ++ exprText init ++ ";"
  | .declare type name none => type.spelling ++ " " ++ name ++ ";"
  | .assign target value => exprText target ++ " = " ++ exprText value ++ ";"
  | .return (some value) => "return " ++ exprText value ++ ";"
  | .return none => "return;"
  | .expr e => exprText e ++ ";"
  | .attach target event handler =>
    exprText target ++ "." ++ event ++ " += " ++ exprText handler ++ ";"
  | .raise event args => "this." ++ event ++ "?.Invoke(" ++ commaSeparated (exprTexts args) ++ ");"

/-! ## Members -/

/-- The text of a parameter list. -/
def paramsText (params : List Param) : String :=
  commaSeparated (params.map fun p => p.type.spelling ++ " " ++ p.name)

/-- The line that declares a field. -/
def fieldText (f : Field) : String :=
  match f.init with
  | .fixed path => "private " ++ f.type.spelling ++ " " ++ f.name ++ " = " ++ path ++ ";"
  | .fromParam _ => "private " ++ f.type.spelling ++ " " ++ f.name ++ ";"

/-- The line that declares an event. -/
def eventText (e : Event) : String :=
  "public event " ++ e.handlerType.spelling ++ " " ++ e.name ++ ";"

/-- The first line of a constructor. -/
def constructorText (className : String) (c : Constructor) : String :=
  "public " ++ className ++ "(" ++ paramsText c.params ++ ")"

/-- The first line of a method. -/
def methodText (m : Method) : String :=
  "public " ++ m.returns.spelling ++ " " ++ m.name ++ "(" ++ paramsText m.params ++ ")"

/-! ## Layout -/

/-- A line and the number of braces open before it. -/
structure Line where
  depth : Nat
  text : String
deriving Repr, DecidableEq

/-- A line as it is printed. -/
def Line.render (l : Line) : String :=
  String.join (List.replicate l.depth "    ") ++ l.text ++ "\n"

/-- A signature and the statements of its body between braces. -/
def block (depth : Nat) (signature : String) (body : List Stmt) : List Line :=
  ⟨depth, signature⟩ :: ⟨depth, "\x7b"⟩ :: (body.map fun s => ⟨depth + 1, stmtText s⟩) ++ [⟨depth, "\x7d"⟩]

/-- The sections of a class, those without a line left out. -/
def sections (u : ProxyUnit) : List (List Line) :=
  let fields := u.fields.map fun f => ⟨2, fieldText f⟩
  let events := u.events.map fun e => ⟨2, eventText e⟩
  ([fields] ++ u.constructors.map (fun c => block 2 (constructorText u.className c) c.body) ++
    [events] ++ u.methods.map fun m => block 2 (methodText m) m.body).filter (!·.isEmpty)

/-- The lines of a section. -/
def renderSection (lines : List Line) : String :=
  String.join (lines.map Line.render)

/-- The comment that every generated file begins with. -/
def header : List Line :=
  ["//------------------------------------------------------------------------------",
    "// <auto-generated>",
    "//     This code was generated by proxygen.",
    "//",
    "//     Changes to this file may cause incorrect behavior and will be lost if",
    "//     the code is regenerated.",
    "// </auto-generated>",
    "//------------------------------------------------------------------------------"].map (Line.mk 0)

/-- The source text of a unit. -/
def render (u : ProxyUnit) : String :=
  renderSection header ++ "\n" ++
    renderSection [⟨0, "namespace " ++ u.namespaceName⟩, ⟨0, "\x7b"⟩,
      ⟨1, "public class " ++ u.className⟩, ⟨1, "\x7b"⟩] ++
    String.intercalate "\n" ((sections u).map renderSection) ++
    renderSection [⟨1, "\x7d"⟩, ⟨0, "\x7d"⟩]

end BoundaryProxy.Source
