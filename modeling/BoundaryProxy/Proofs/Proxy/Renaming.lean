import BoundaryProxy.Proofs.Naming.Pairing
import BoundaryProxy.Proxy.Unit

/-!
# `Proofs.Proxy.Renaming` — code under other names

The names a generated class takes from its supply are those of fields, parameters and locals. `renamed` replaces
them throughout and keeps every other name: those of methods, properties and events, and host paths. Code agrees
under a pairing when its parts do; one lemma a construct that mentions a name or has parts.
-/

namespace BoundaryProxy.Proxy

/-! ## Renaming -/

mutual

/-- An expression with its fields, parameters and locals renamed. -/
def Expr.renamed (rename : String → String) : Expr → Expr
  | .null => .null
  | .field name => .field (rename name)
  | .param name => .param (rename name)
  | .localVar name => .localVar (rename name)
  | .property target name => .property (target.renamed rename) name
  | .index target keys => .index (target.renamed rename) (renamedKeys rename keys)
  | .invoke target method args => .invoke (target.renamed rename) method (renamedArgs rename args)
  | .methodRef name => .methodRef name
  | .new type args => .new type (renamedKeys rename args)
  | .path text => .path text

/-- Several expressions renamed. -/
def renamedKeys (rename : String → String) : List Expr → List Expr
  | [] => []
  | e :: es => e.renamed rename :: renamedKeys rename es

/-- An argument renamed. -/
def Arg.renamed (rename : String → String) : Arg → Arg
  | .value e => .value (e.renamed rename)
  | .discard => .discard

/-- Several arguments renamed. -/
def renamedArgs (rename : String → String) : List Arg → List Arg
  | [] => []
  | a :: as => a.renamed rename :: renamedArgs rename as

end

theorem renamedKeys_eq (rename : String → String) (es : List Expr) :
    renamedKeys rename es = each Expr.renamed rename es := by
  induction es with
  | nil => rfl
  | cons e es ih => exact congrArg (e.renamed rename :: ·) ih

theorem renamedArgs_eq (rename : String → String) (as : List Arg) :
    renamedArgs rename as = each Arg.renamed rename as := by
  induction as with
  | nil => rfl
  | cons a as ih => exact congrArg (a.renamed rename :: ·) ih

/-- A statement renamed. -/
def Stmt.renamed (rename : String → String) : Stmt → Stmt
  | .declare type name init => .declare type (rename name) (init.map (Expr.renamed rename))
  | .assign target value => .assign (target.renamed rename) (value.renamed rename)
  | .return value => .return (value.map (Expr.renamed rename))
  | .expr e => .expr (e.renamed rename)
  | .attach target event handler => .attach (target.renamed rename) event (handler.renamed rename)
  | .raise event args => .raise event (renamedKeys rename args)

/-- A parameter renamed. -/
def Param.renamed (rename : String → String) (p : Param) : Param :=
  { p with name := rename p.name }

/-- A method with its parameters and locals and the fields it mentions renamed; its own name is kept. -/
def Method.renamed (rename : String → String) (m : Method) : Method :=
  { m with params := m.params.map (Param.renamed rename), body := m.body.map (Stmt.renamed rename) }

/-! ## Agreement -/

section Agreement

variable {ρ : Pairing} {x y : String} {e e' k k' : Expr} {es es' : List Expr}

theorem agree_field (h : (x, y) ∈ ρ) : Agree Expr.renamed ρ (.field x) (.field y) := by
  intro rename hfollows
  exact congrArg Expr.field (hfollows _ h)

theorem agree_param (h : (x, y) ∈ ρ) : Agree Expr.renamed ρ (.param x) (.param y) := by
  intro rename hfollows
  exact congrArg Expr.param (hfollows _ h)

theorem agree_localVar (h : (x, y) ∈ ρ) : Agree Expr.renamed ρ (.localVar x) (.localVar y) := by
  intro rename hfollows
  exact congrArg Expr.localVar (hfollows _ h)

theorem agree_property (h : Agree Expr.renamed ρ e e') (name : String) :
    Agree Expr.renamed ρ (.property e name) (.property e' name) := by
  intro rename hfollows
  exact congrArg (Expr.property · name) (h rename hfollows)

theorem agree_index (h : Agree Expr.renamed ρ e e')
    (hs : Agree (each Expr.renamed) ρ es es') :
    Agree Expr.renamed ρ (.index e es) (.index e' es') := by
  intro rename hfollows
  show Expr.index (e.renamed rename) (renamedKeys rename es) = _
  rw [h rename hfollows, renamedKeys_eq, hs rename hfollows]

theorem agree_invoke {as as' : List Arg} (h : Agree Expr.renamed ρ e e') (method : String)
    (hs : Agree (each Arg.renamed) ρ as as') :
    Agree Expr.renamed ρ (.invoke e method as) (.invoke e' method as') := by
  intro rename hfollows
  show Expr.invoke (e.renamed rename) method (renamedArgs rename as) = _
  rw [h rename hfollows, renamedArgs_eq, hs rename hfollows]

theorem agree_value (h : Agree Expr.renamed ρ e e') : Agree Arg.renamed ρ (.value e) (.value e') := by
  intro rename hfollows
  exact congrArg Arg.value (h rename hfollows)

theorem agree_discard : Agree Arg.renamed ρ .discard .discard :=
  fun _ _ => rfl

theorem agree_declare (type : TypeExpr) (hname : (x, y) ∈ ρ) (h : Agree Expr.renamed ρ e e') :
    Agree Stmt.renamed ρ (.declare type x (some e)) (.declare type y (some e')) := by
  intro rename hfollows
  show Stmt.declare type (rename x) (some (e.renamed rename)) = _
  rw [h rename hfollows, hfollows _ hname]

theorem agree_assign (h : Agree Expr.renamed ρ e e') (hk : Agree Expr.renamed ρ k k') :
    Agree Stmt.renamed ρ (.assign e k) (.assign e' k') := by
  intro rename hfollows
  show Stmt.assign (e.renamed rename) (k.renamed rename) = _
  rw [h rename hfollows, hk rename hfollows]

theorem agree_return (h : Agree Expr.renamed ρ e e') :
    Agree Stmt.renamed ρ (.return (some e)) (.return (some e')) := by
  intro rename hfollows
  exact congrArg (Stmt.return ∘ some) (h rename hfollows)

theorem agree_expr (h : Agree Expr.renamed ρ e e') : Agree Stmt.renamed ρ (.expr e) (.expr e') := by
  intro rename hfollows
  exact congrArg Stmt.expr (h rename hfollows)

theorem agree_raise (event : String) (hs : Agree (each Expr.renamed) ρ es es') :
    Agree Stmt.renamed ρ (.raise event es) (.raise event es') := by
  intro rename hfollows
  show Stmt.raise event (renamedKeys rename es) = _
  rw [renamedKeys_eq, hs rename hfollows]

/-- A handler that is a method of the class is attached to the same event of what stands for the target. -/
theorem agree_attach (h : Agree Expr.renamed ρ e e') (event : String) (type : TypeExpr) (method : String) :
    Agree Stmt.renamed ρ (.attach e event (.new type [.methodRef method]))
      (.attach e' event (.new type [.methodRef method])) := by
  intro rename hfollows
  exact congrArg (Stmt.attach · event (.new type [.methodRef method])) (h rename hfollows)

theorem agree_newParam (type : TypeExpr) (h : (x, y) ∈ ρ) : Agree Param.renamed ρ ⟨x, type⟩ ⟨y, type⟩ := by
  intro rename hfollows
  exact congrArg (Param.mk · type) (hfollows _ h)

theorem agree_newMethod (name : String) (returns : TypeExpr) :
    Agree Method.renamed ρ { name, returns } { name, returns } :=
  fun _ _ => rfl

variable {m n : Method}

theorem agree_addParam {p q : Param} (h : Agree Method.renamed ρ m n) (hp : Agree Param.renamed ρ p q) :
    Agree Method.renamed ρ { m with params := m.params ++ [p] } { n with params := n.params ++ [q] } := by
  intro rename hfollows
  rw [← h rename hfollows, ← hp rename hfollows]
  simp [Method.renamed]

theorem agree_addStmt {s u : Stmt} (h : Agree Method.renamed ρ m n) (hs : Agree Stmt.renamed ρ s u) :
    Agree Method.renamed ρ { m with body := m.body ++ [s] } { n with body := n.body ++ [u] } := by
  intro rename hfollows
  rw [← h rename hfollows, ← hs rename hfollows]
  simp [Method.renamed]

theorem agree_setReturns (t : TypeExpr) (h : Agree Method.renamed ρ m n) :
    Agree Method.renamed ρ { m with returns := t } { n with returns := t } := by
  intro rename hfollows
  rw [← h rename hfollows]
  rfl

end Agreement

end BoundaryProxy.Proxy
