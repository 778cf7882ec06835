import BoundaryProxy.TypeExpr.Basic

/-!
# `BoundaryProxy.Proxy.Code` — expressions and statements of generated bodies

The code of a proxy is small: it reads fields, parameters and locals, reads properties and slots, calls
methods, constructs objects and returns. There are no loops and no branches, so a body is a list of
statements that run one after another.
-/

namespace BoundaryProxy.Proxy

mutual

/-- An expression of a generated body. -/
inductive Expr where
  | null
  /-- A field of the proxy. -/
  | field (name : String)
  /-- A parameter of the member. -/
  | param (name : String)
  /-- A local of the member. -/
  | localVar (name : String)
  | property (target : Expr) (name : String)
  | index (target : Expr) (keys : List Expr)
  | invoke (target : Expr) (method : String) (args : List Arg)
  /-- A method of the proxy as the target of a delegate. -/
  | methodRef (name : String)
  | new (type : TypeExpr) (args : List Expr)
  /-- A dotted path, printed as it is. -/
  | path (text : String)
deriving Repr

/-- An argument of a call: a value, or a place for a value that is thrown away. -/
inductive Arg where
  | value (e : Expr)
  | discard
deriving Repr

end

instance : Inhabited Expr :=
  ⟨.null⟩

/-- A statement of a generated body. -/
inductive Stmt where
  | declare (type : TypeExpr) (name : String) (init : Option Expr)
  | assign (target value : Expr)
  | return (value : Option Expr)
  | expr (e : Expr)
  /-- Add a handler to an event of the target. -/
  | attach (target : Expr) (event : String) (handler : Expr)
  /-- Notify the handlers of an event of the proxy. -/
  | raise (event : String) (args : List Expr)
deriving Repr, Inhabited

/-- Whether a statement is a return. -/
def Stmt.isReturn : Stmt → Bool
  | .return _ => true
  | _ => false

end BoundaryProxy.Proxy
