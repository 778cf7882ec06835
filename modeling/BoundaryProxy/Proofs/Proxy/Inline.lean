import BoundaryProxy.Proofs.Check.Scope

/-!
# `Proofs.Proxy.Inline` — a body without its locals

A generated body declares locals and then does one thing. `inlineLocals` reads it back: each local that is
declared with a value is replaced by that value in the statements after it, and the declaration goes away.
What is left says what the body does in terms of fields and parameters only.

The declarations that generated bodies begin with are **lookups**, `x = this.f[p]`. A body of lookups with
distinct locals leaves nothing behind but the environment in which each local stands for its lookup
(`inlineLocals_lookups`, `envAfter_apply`).
-/

namespace BoundaryProxy.Proxy

/-! ## Replacing locals -/

mutual

/-- An expression with each local replaced by what it stands for. -/
def Expr.inlined (env : String → Expr) : Expr → Expr
  | .null => .null
  | .field name => .field name
  | .param name => .param name
  | .localVar name => env name
  | .property target name => .property (target.inlined env) name
  | .index target keys => .index (target.inlined env) (inlinedKeys env keys)
  | .invoke target method args => .invoke (target.inlined env) method (inlinedArgs env args)
  | .methodRef name => .methodRef name
  | .new type args => .new type (inlinedKeys env args)
  | .path text => .path text

/-- Several expressions with their locals replaced. -/
def inlinedKeys (env : String → Expr) : List Expr → List Expr
  | [] => []
  | e :: es => e.inlined env :: inlinedKeys env es

/-- An argument with its locals replaced. -/
def Arg.inlined (env : String → Expr) : Arg → Arg
  | .value e => .value (e.inlined env)
  | .discard => .discard

/-- Several arguments with their locals replaced. -/
def inlinedArgs (env : String → Expr) : List Arg → List Arg
  | [] => []
  | a :: as => a.inlined env :: inlinedArgs env as

end

/-- A statement with its locals replaced. -/
def Stmt.inlined (env : String → Expr) : Stmt → Stmt
  | .declare type name init => .declare type name (init.map (Expr.inlined env))
  | .assign target value => .assign (target.inlined env) (value.inlined env)
  | .return value => .return (value.map (Expr.inlined env))
  | .expr e => .expr (e.inlined env)
  | .attach target event handler => .attach (target.inlined env) event (handler.inlined env)
  | .raise event args => .raise event (inlinedKeys env args)

/-- The environment in which one more local stands for a value. -/
def bindLocal (env : String → Expr) (name : String) (e : Expr) : String → Expr :=
  fun x => if x = name then e else env x

/-- What is left of statements when every local declared with a value is replaced by it. -/
def inlineLocals (env : String → Expr) : List Stmt → List Stmt
  | [] => []
  | .declare _ name (some e) :: rest => inlineLocals (bindLocal env name (e.inlined env)) rest
  | s :: rest => s.inlined env :: inlineLocals env rest

/-- The body of a method without its locals. -/
def Method.inlinedBody (m : Method) : List Stmt :=
  inlineLocals .localVar m.body

/-! ## Lookups -/

/-- The statement declares a local that holds what a field has under a parameter as key. -/
inductive IsLookup (fields params : List String) : Stmt → Prop
  | intro {type : TypeExpr} {name f p : String} : f ∈ fields → p ∈ params →
      IsLookup fields params (.declare type name (some (.index (.field f) [.param p])))

variable {fields fields' params params' : List String} {body rest : List Stmt} {env : String → Expr}

theorem IsLookup.mono {s : Stmt} (hf : fields ⊆ fields') (hp : params ⊆ params')
    (h : IsLookup fields params s) : IsLookup fields' params' s := by
  cases h with
  | intro h k => exact .intro (hf h) (hp k)

/-- The environment after declarations. -/
def envAfter (env : String → Expr) : List Stmt → String → Expr
  | [] => env
  | .declare _ name (some e) :: rest => envAfter (bindLocal env name (e.inlined env)) rest
  | _ :: rest => envAfter env rest

/-- Lookups leave nothing behind but their environment. -/
theorem inlineLocals_lookups (h : ∀ s ∈ body, IsLookup fields params s) :
    inlineLocals env (body ++ rest) = inlineLocals (envAfter env body) rest := by
  induction body generalizing env with
  | nil => rfl
  | cons s body ih =>
    have hs := h s List.mem_cons_self
    cases hs with
    | intro => exact ih fun t ht => h t (List.mem_cons_of_mem _ ht)

theorem envAfter_of_not_mem {x : String} (h : ∀ s ∈ body, IsLookup fields params s)
    (hx : x ∉ declaredLocals body) : envAfter env body x = env x := by
  induction body generalizing env with
  | nil => rfl
  | cons s body ih =>
    have hs := h s List.mem_cons_self
    rw [Check.declaredLocals_cons, List.mem_append, not_or] at hx
    cases hs with
    | @intro type name f p _ _ =>
      have hne : x ≠ name := by simpa [Stmt.local?] using hx.1
      rw [envAfter, ih (fun t ht => h t (List.mem_cons_of_mem _ ht)) hx.2, bindLocal, if_neg hne]

/-- **A local stands for its lookup** after a body that declares no local twice. -/
theorem envAfter_apply {type : TypeExpr} {x : String} {e : Expr}
    (h : ∀ s ∈ body, IsLookup fields params s) (hnodup : (declaredLocals body).Nodup)
    (hmem : .declare type x (some e) ∈ body) : envAfter env body x = e := by
  induction body generalizing env with
  | nil => exact absurd hmem List.not_mem_nil
  | cons s body ih =>
    have hbody := fun t ht => h t (List.mem_cons_of_mem s ht)
    have hs := h s List.mem_cons_self
    rw [Check.declaredLocals_cons, List.nodup_append] at hnodup
    cases hs with
    | @intro type' name f p _ _ =>
      rcases List.mem_cons.mp hmem with heq | hmem
      · cases heq
        -- no later declaration has the name, so this one is not overwritten
        have hx : x ∉ declaredLocals body := fun hx =>
          hnodup.2.2 x (by simp [Stmt.local?]) x hx rfl
        rw [envAfter, envAfter_of_not_mem hbody hx, bindLocal, if_pos rfl]
        rfl
      · exact ih hbody hnodup.2.1 hmem

/-! ## Returns -/

/-- Inlining keeps every return and whether it has a value. -/
theorem return_mem_inlineLocals {value : Option Expr} (h : .return value ∈ body) :
    ∃ value', .return value' ∈ inlineLocals env body ∧ value'.isSome = value.isSome := by
  induction body generalizing env with
  | nil => exact absurd h List.not_mem_nil
  | cons s body ih =>
    rcases List.mem_cons.mp h with rfl | hrest
    · exact ⟨_, List.mem_cons_self, by simp⟩
    · cases s with
      | declare type name init =>
        cases init with
        | some e => exact ih hrest
        | none =>
          obtain ⟨value', hmem, hsome⟩ := @ih env hrest
          exact ⟨value', List.mem_cons_of_mem _ hmem, hsome⟩
      | assign | «return» | expr | attach | raise =>
        obtain ⟨value', hmem, hsome⟩ := @ih env hrest
        exact ⟨value', List.mem_cons_of_mem _ hmem, hsome⟩

end BoundaryProxy.Proxy
