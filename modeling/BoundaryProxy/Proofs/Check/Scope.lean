import BoundaryProxy.Check.Basic

/-!
# `Proofs.Check.Scope` — what it means for a body to be well scoped

The checker walks a body once and carries a scope. This module says what it looks for without the walk:

* **Occurrence.** `Expr.Occurs x e`: `x` stands somewhere inside `e`, at any depth.
* **Resolution.** An expression is `Resolved` when every name that occurs in it is declared; a statement when
  its expressions are and the event it raises is one of the class.
* **Bodies.** `BodyScoped`: parameters and locals have distinct names, and each statement is resolved by the
  locals declared *before* it.

The walk reports nothing about names exactly on well scoped bodies (`bodyScoped_iff`); whatever else it
reports is about a return (`mem_checkBody`).
-/

namespace BoundaryProxy

open Check

theorem TypeExpr.isVoid_iff {t : TypeExpr} : t.isVoid = true ↔ t = .void := by
  obtain ⟨name, args, rank⟩ := t
  simp [TypeExpr.isVoid, TypeExpr.void, TypeExpr.named, List.isEmpty_iff, and_assoc]

namespace Proxy

/-! ## Occurrence -/

/-- `x` stands somewhere inside an expression, at any depth. -/
inductive Expr.Occurs (x : Expr) : Expr → Prop
  | here : Occurs x x
  | property {target : Expr} {name : String} : Occurs x target → Occurs x (.property target name)
  | indexTarget {target : Expr} {keys : List Expr} : Occurs x target → Occurs x (.index target keys)
  | indexKey {target key : Expr} {keys : List Expr} :
      key ∈ keys → Occurs x key → Occurs x (.index target keys)
  | invokeTarget {target : Expr} {method : String} {args : List Arg} :
      Occurs x target → Occurs x (.invoke target method args)
  | invokeArg {target e : Expr} {method : String} {args : List Arg} :
      .value e ∈ args → Occurs x e → Occurs x (.invoke target method args)
  | newArg {type : TypeExpr} {arg : Expr} {args : List Expr} :
      arg ∈ args → Occurs x arg → Occurs x (.new type args)

/-- The expressions a statement is made of. -/
def Stmt.exprs : Stmt → List Expr
  | .declare _ _ init => init.toList
  | .assign target value => [target, value]
  | .return value => value.toList
  | .expr e => [e]
  | .attach target _ handler => [target, handler]
  | .raise _ args => args

/-- The local a statement declares. -/
def Stmt.local? : Stmt → Option String
  | .declare _ name _ => some name
  | _ => none

/-- The locals that statements declare, in order. -/
def declaredLocals (body : List Stmt) : List String :=
  body.filterMap Stmt.local?

/-! ## Resolution -/

/-- A name that stands alone is declared where it has to be. -/
def Expr.IsDeclared (names : ClassNames) (scope : Scope) : Expr → Prop
  | .field f => f ∈ names.fields
  | .methodRef m => m ∈ names.methods
  | .param p => p ∈ scope.params
  | .localVar x => x ∈ scope.locals
  | _ => True

/-- Every name that occurs in the expression is declared. -/
def Expr.Resolved (names : ClassNames) (scope : Scope) (e : Expr) : Prop :=
  ∀ x : Expr, x.Occurs e → x.IsDeclared names scope

/-- Every name that occurs in the statement is declared. -/
structure Stmt.Resolved (names : ClassNames) (scope : Scope) (s : Stmt) : Prop where
  exprs : ∀ e ∈ s.exprs, e.Resolved names scope
  event : ∀ event args, s = .raise event args → event ∈ names.events

/-- Parameters and locals have distinct names, and every statement is resolved by what is declared before it. -/
structure BodyScoped (names : ClassNames) (params : List Param) (body : List Stmt) : Prop where
  params_nodup : (params.map Param.name).Nodup
  locals_nodup : (declaredLocals body).Nodup
  locals_new : ∀ x ∈ declaredLocals body, x ∉ params.map Param.name
  uses : ∀ before s after, body = before ++ s :: after →
    s.Resolved names ⟨params.map Param.name, declaredLocals before⟩

section Resolution

variable {names : ClassNames} {scope : Scope}

@[simp] theorem resolved_null : Expr.null.Resolved names scope := by
  rintro x ⟨⟩; trivial

@[simp] theorem resolved_path {text : String} : (Expr.path text).Resolved names scope := by
  rintro x ⟨⟩; trivial

@[simp] theorem resolved_field {f : String} : (Expr.field f).Resolved names scope ↔ f ∈ names.fields :=
  ⟨fun h => h _ .here, by rintro h x ⟨⟩; exact h⟩

@[simp] theorem resolved_methodRef {m : String} :
    (Expr.methodRef m).Resolved names scope ↔ m ∈ names.methods :=
  ⟨fun h => h _ .here, by rintro h x ⟨⟩; exact h⟩

@[simp] theorem resolved_param {p : String} : (Expr.param p).Resolved names scope ↔ p ∈ scope.params :=
  ⟨fun h => h _ .here, by rintro h x ⟨⟩; exact h⟩

@[simp] theorem resolved_localVar {x : String} :
    (Expr.localVar x).Resolved names scope ↔ x ∈ scope.locals :=
  ⟨fun h => h _ .here, by rintro h x ⟨⟩; exact h⟩

@[simp] theorem resolved_property {target : Expr} {name : String} :
    (Expr.property target name).Resolved names scope ↔ target.Resolved names scope := by
  constructor
  · intro h x hx
    exact h x (.property hx)
  · intro h x hx
    cases hx with
    | here => trivial
    | property hx => exact h x hx

@[simp] theorem resolved_index {target : Expr} {keys : List Expr} :
    (Expr.index target keys).Resolved names scope ↔
      target.Resolved names scope ∧ ∀ k ∈ keys, k.Resolved names scope := by
  constructor
  · intro h
    exact ⟨fun x hx => h x (.indexTarget hx), fun k hk x hx => h x (.indexKey hk hx)⟩
  · rintro ⟨ht, hk⟩ x hx
    cases hx with
    | here => trivial
    | indexTarget hx => exact ht x hx
    | indexKey hmem hx => exact hk _ hmem x hx

@[simp] theorem resolved_invoke {target : Expr} {method : String} {args : List Arg} :
    (Expr.invoke target method args).Resolved names scope ↔
      target.Resolved names scope ∧ ∀ e, .value e ∈ args → e.Resolved names scope := by
  constructor
  · intro h
    exact ⟨fun x hx => h x (.invokeTarget hx), fun e he x hx => h x (.invokeArg he hx)⟩
  · rintro ⟨ht, ha⟩ x hx
    cases hx with
    | here => trivial
    | invokeTarget hx => exact ht x hx
    | invokeArg hmem hx => exact ha _ hmem x hx

@[simp] theorem resolved_new {type : TypeExpr} {args : List Expr} :
    (Expr.new type args).Resolved names scope ↔ ∀ e ∈ args, e.Resolved names scope := by
  constructor
  · intro h e he x hx
    exact h x (.newArg he hx)
  · rintro ha x hx
    cases hx with
    | here => trivial
    | newArg hmem hx => exact ha _ hmem x hx

end Resolution

/-! ## More names, larger scopes -/

/-- Every name declared by one class is declared by the other. -/
structure NamesLe (names names' : ClassNames) : Prop where
  fields : names.fields ⊆ names'.fields
  methods : names.methods ⊆ names'.methods
  events : names.events ⊆ names'.events

theorem NamesLe.refl (names : ClassNames) : NamesLe names names :=
  ⟨List.Subset.refl _, List.Subset.refl _, List.Subset.refl _⟩

section Growth

variable {names names' : ClassNames} {scope scope' : Scope}

theorem Expr.Resolved.mono {e : Expr} (h : e.Resolved names scope) (hn : NamesLe names names')
    (hp : scope.params ⊆ scope'.params) (hl : scope.locals ⊆ scope'.locals) :
    e.Resolved names' scope' := by
  intro x hx
  have hd := h x hx
  -- only names that stand alone are declared anywhere; there is nothing to ask of a compound expression
  cases x with
  | field f => exact hn.fields hd
  | methodRef m => exact hn.methods hd
  | param p => exact hp hd
  | localVar y => exact hl hd
  | null | path | property | index | invoke | new => trivial

theorem Stmt.Resolved.mono {s : Stmt} (h : s.Resolved names scope) (hn : NamesLe names names')
    (hp : scope.params ⊆ scope'.params) (hl : scope.locals ⊆ scope'.locals) :
    s.Resolved names' scope' where
  exprs := fun e he => (h.exprs e he).mono hn hp hl
  event := fun event args hs => hn.events (h.event event args hs)

end Growth

/-! ## Building a body -/

section Building

variable {names names' : ClassNames} {params : List Param} {body : List Stmt}

theorem bodyScoped_nil (names : ClassNames) : BodyScoped names [] [] where
  params_nodup := List.nodup_nil
  locals_nodup := List.nodup_nil
  locals_new := fun _ hx => absurd hx List.not_mem_nil
  uses := fun before s after h => absurd h.symm (by simp)

theorem BodyScoped.mono (h : BodyScoped names params body) (hn : NamesLe names names') :
    BodyScoped names' params body where
  params_nodup := h.params_nodup
  locals_nodup := h.locals_nodup
  locals_new := h.locals_new
  uses := fun before s after hb =>
    (h.uses before s after hb).mono hn (List.Subset.refl _) (List.Subset.refl _)

/-- A parameter with a new name may be added to a body that is written already. -/
theorem BodyScoped.addParam (h : BodyScoped names params body) {p : Param}
    (hp : p.name ∉ params.map Param.name) (hl : p.name ∉ declaredLocals body) :
    BodyScoped names (params ++ [p]) body where
  params_nodup := by
    rw [List.map_append, List.nodup_append]
    refine ⟨h.params_nodup, by simp, ?_⟩
    rintro x hx y hy rfl
    exact hp (List.mem_singleton.mp hy ▸ hx)
  locals_nodup := h.locals_nodup
  locals_new := by
    intro x hx hmem
    rw [List.map_append, List.mem_append] at hmem
    rcases hmem with hmem | hmem
    · exact h.locals_new x hx hmem
    · exact hl (List.mem_singleton.mp hmem ▸ hx)
  uses := by
    intro before s after hb
    have hparams : params.map Param.name ⊆ (params ++ [p]).map Param.name := by simp
    exact (h.uses before s after hb).mono (.refl _) hparams (List.Subset.refl _)

/-- A statement is added at the end of a body when it is resolved there and declares nothing twice. -/
theorem BodyScoped.snoc (h : BodyScoped names params body) {s : Stmt}
    (hs : s.Resolved names ⟨params.map Param.name, declaredLocals body⟩)
    (hnew : ∀ x, s.local? = some x → x ∉ params.map Param.name ∧ x ∉ declaredLocals body) :
    BodyScoped names params (body ++ [s]) := by
  have hlocals : declaredLocals (body ++ [s]) = declaredLocals body ++ s.local?.toList := by
    cases hx : s.local? <;> simp [declaredLocals, hx]
  refine ⟨h.params_nodup, ?_, ?_, ?_⟩
  · rw [hlocals, List.nodup_append]
    refine ⟨h.locals_nodup, ?_, ?_⟩
    · cases s.local? <;> simp
    · rintro x hx y hy rfl
      exact (hnew x (Option.mem_toList.mp hy)).2 hx
  · intro x hx
    rw [hlocals, List.mem_append] at hx
    rcases hx with hx | hx
    · exact h.locals_new x hx
    · exact (hnew x (Option.mem_toList.mp hx)).1
  · intro before t after hb
    -- either the statement is the new one, or it stands where it stood before
    rcases List.eq_nil_or_concat after with rfl | ⟨after, u, rfl⟩
    · obtain ⟨rfl, ht⟩ := List.append_inj' hb rfl
      cases ht
      exact hs
    · rw [List.concat_eq_append, ← List.cons_append, ← List.append_assoc] at hb
      obtain ⟨rfl, -⟩ := List.append_inj' hb rfl
      exact h.uses before t after rfl

end Building

end Proxy

namespace Check

open Proxy

variable {names : ClassNames} {scope : Scope}

@[simp] theorem findIf_eq_nil {condition : Bool} {f : Finding} :
    findIf condition f = [] ↔ condition = false := by
  cases condition <;> simp [findIf]

theorem mem_findIf {condition : Bool} {f g : Finding} :
    f ∈ findIf condition g ↔ condition = true ∧ f = g := by
  cases condition <;> simp [findIf]

/-! ## Expressions and statements -/

mutual

/-- Nothing is wrong with an expression exactly when it is resolved. -/
theorem checkExpr_eq_nil : ∀ e : Expr, checkExpr names scope e = [] ↔ e.Resolved names scope
  | .null => by simp [checkExpr]
  | .path _ => by simp [checkExpr]
  | .field _ => by simp [checkExpr]
  | .methodRef _ => by simp [checkExpr]
  | .param _ => by simp [checkExpr]
  | .localVar _ => by simp [checkExpr]
  | .property target _ => by simp [checkExpr, checkExpr_eq_nil target]
  | .index target keys => by simp [checkExpr, checkExpr_eq_nil target, checkExprs_eq_nil keys]
  | .invoke target _ args => by simp [checkExpr, checkExpr_eq_nil target, checkArgs_eq_nil args]
  | .new _ args => by simp [checkExpr, checkExprs_eq_nil args]

theorem checkExprs_eq_nil : ∀ es : List Expr,
    checkExprs names scope es = [] ↔ ∀ e ∈ es, e.Resolved names scope
  | [] => by simp [checkExprs]
  | e :: es => by simp [checkExprs, checkExpr_eq_nil e, checkExprs_eq_nil es]

theorem checkArgs_eq_nil : ∀ as : List Arg,
    checkArgs names scope as = [] ↔ ∀ e, .value e ∈ as → e.Resolved names scope
  | [] => by simp [checkArgs]
  | .value e :: as => by
    simp [checkArgs, checkArg, checkExpr_eq_nil e, checkArgs_eq_nil as, or_imp, forall_and]
  | .discard :: as => by simp [checkArgs, checkArg, checkArgs_eq_nil as]

end

theorem checkOptional_eq_nil {e : Option Expr} :
    checkOptional names scope e = [] ↔ ∀ x ∈ e.toList, x.Resolved names scope := by
  cases e <;> simp [checkOptional, checkExpr_eq_nil]

/-- A statement declares no name that is taken. -/
def DeclaresNew (scope : Scope) (s : Stmt) : Prop :=
  ∀ x, s.local? = some x → x ∉ scope.params ∧ x ∉ scope.locals

/-- The scope after a statement. -/
def scopeAfter (scope : Scope) (s : Stmt) : Scope :=
  { scope with locals := s.local?.toList ++ scope.locals }

theorem stmt_resolved_iff_exprs {s : Stmt} (h : ∀ event args, s ≠ .raise event args) :
    s.Resolved names scope ↔ ∀ e ∈ s.exprs, e.Resolved names scope :=
  ⟨fun hs => hs.exprs, fun hs => ⟨hs, fun event args he => absurd he (h event args)⟩⟩

/-- Nothing is wrong with a statement exactly when it is resolved and what it declares is new. -/
theorem checkStmt_eq_nil {s : Stmt} :
    (checkStmt names scope s).1 = [] ↔ s.Resolved names scope ∧ DeclaresNew scope s := by
  cases s with
  | declare type name init =>
    rw [stmt_resolved_iff_exprs (by simp)]
    simp only [checkStmt, DeclaresNew, Stmt.local?, Stmt.exprs, Option.some.injEq, forall_eq',
      ← checkOptional_eq_nil]
    -- hiding a parameter and repeating a local are two findings, but either way the local is not new
    split
    · simp_all
    · split <;> simp_all
  | assign target value =>
    rw [stmt_resolved_iff_exprs (by simp)]
    simp [checkStmt, DeclaresNew, Stmt.local?, Stmt.exprs, checkExpr_eq_nil]
  | «return» value =>
    rw [stmt_resolved_iff_exprs (by simp)]
    simp [checkStmt, DeclaresNew, Stmt.local?, Stmt.exprs, checkOptional_eq_nil]
  | expr e =>
    rw [stmt_resolved_iff_exprs (by simp)]
    simp [checkStmt, DeclaresNew, Stmt.local?, Stmt.exprs, checkExpr_eq_nil]
  | attach target event handler =>
    rw [stmt_resolved_iff_exprs (by simp)]
    simp [checkStmt, DeclaresNew, Stmt.local?, Stmt.exprs, checkExpr_eq_nil]
  | raise event args =>
    constructor
    · intro h
      simp only [checkStmt, List.append_eq_nil_iff, findIf_eq_nil, checkExprs_eq_nil] at h
      refine ⟨⟨h.2, ?_⟩, by simp [DeclaresNew, Stmt.local?]⟩
      rintro _ _ ⟨⟩
      simpa using h.1
    · rintro ⟨h, -⟩
      simp only [checkStmt, List.append_eq_nil_iff, findIf_eq_nil, checkExprs_eq_nil]
      exact ⟨by simpa using h.event event args rfl, h.exprs⟩

theorem checkStmt_scope {s : Stmt} (h : DeclaresNew scope s) :
    (checkStmt names scope s).2 = scopeAfter scope s := by
  cases s with
  | declare type name init =>
    obtain ⟨hp, hl⟩ := h name rfl
    simp [checkStmt, scopeAfter, Stmt.local?, hp, hl]
  | assign | «return» | expr | attach | raise => rfl

/-! ## Bodies -/

theorem declaredLocals_cons (s : Stmt) (rest : List Stmt) :
    declaredLocals (s :: rest) = s.local?.toList ++ declaredLocals rest := by
  cases h : s.local? <;> simp [declaredLocals, h]

/-- The walk puts each local in front of those before it and the rule appends: the same names are declared. -/
theorem resolved_after_iff {s t : Stmt} {before : List Stmt} :
    t.Resolved names ⟨scope.params, declaredLocals before ++ (scopeAfter scope s).locals⟩ ↔
      t.Resolved names ⟨scope.params, declaredLocals (s :: before) ++ scope.locals⟩ := by
  have hsame (x : String) : x ∈ declaredLocals before ++ (scopeAfter scope s).locals ↔
      x ∈ declaredLocals (s :: before) ++ scope.locals := by
    rw [declaredLocals_cons]
    simp only [scopeAfter, List.mem_append]
    exact or_left_comm.trans or_assoc.symm
  constructor
  · exact fun h => h.mono (.refl _) (fun _ hx => hx) fun x hx => (hsame x).mp hx
  · exact fun h => h.mono (.refl _) (fun _ hx => hx) fun x hx => (hsame x).mpr hx

/-- Statement by statement, the walk admits a body. -/
def Admits (names : ClassNames) : Scope → List Stmt → Prop
  | _, [] => True
  | scope, s :: rest =>
    (s.Resolved names scope ∧ DeclaresNew scope s) ∧ Admits names (scopeAfter scope s) rest

/-- The walk without its remarks on returns reports nothing exactly when it admits the body. -/
theorem checkBody_eq_nil_iff_admits {body : List Stmt} :
    checkBody names (fun _ => []) scope body = [] ↔ Admits names scope body := by
  induction body generalizing scope with
  | nil => simp [checkBody, Admits]
  | cons s rest ih =>
    have hstep : checkBody names (fun _ => []) scope (s :: rest) =
        (checkStmt names scope s).1 ++
          checkBody names (fun _ => []) (checkStmt names scope s).2 rest := by
      cases s <;> rfl
    rw [hstep, Admits, List.append_eq_nil_iff, checkStmt_eq_nil]
    constructor
    · rintro ⟨hs, hrest⟩
      rw [checkStmt_scope hs.2] at hrest
      exact ⟨hs, ih.mp hrest⟩
    · rintro ⟨hs, hrest⟩
      rw [checkStmt_scope hs.2]
      exact ⟨hs, ih.mpr hrest⟩

/-- The walk's scope at a statement holds what was declared before it. -/
theorem admits_iff {body : List Stmt} :
    Admits names scope body ↔
      (declaredLocals body).Nodup ∧
      (∀ x ∈ declaredLocals body, x ∉ scope.params ∧ x ∉ scope.locals) ∧
      ∀ before s after, body = before ++ s :: after →
        s.Resolved names ⟨scope.params, declaredLocals before ++ scope.locals⟩ := by
  induction body generalizing scope with
  | nil => simp [Admits, declaredLocals]
  | cons s rest ih =>
    rw [Admits, ih, declaredLocals_cons]
    constructor
    · rintro ⟨⟨hs, hnew⟩, hnodup, hfresh, huses⟩
      refine ⟨?_, ?_, ?_⟩
      · rw [List.nodup_append]
        refine ⟨by cases s.local? <;> simp, hnodup, ?_⟩
        rintro x hx y hy rfl
        exact (hfresh x hy).2 (List.mem_append_left _ hx)
      · intro x hx
        rcases List.mem_append.mp hx with hx | hx
        · exact hnew x (Option.mem_toList.mp hx)
        · exact ⟨(hfresh x hx).1, fun hl => (hfresh x hx).2 (List.mem_append_right _ hl)⟩
      · intro before t after hb
        cases before with
        | nil =>
          obtain ⟨rfl, rfl⟩ := List.cons.inj hb
          exact hs
        | cons b before =>
          obtain ⟨rfl, rfl⟩ := List.cons.inj hb
          exact resolved_after_iff.mp (huses before t after rfl)
    · rintro ⟨hnodup, hfresh, huses⟩
      rw [List.nodup_append] at hnodup
      refine ⟨⟨huses [] s rest rfl, ?_⟩, hnodup.2.1, ?_, ?_⟩
      · intro x hx
        exact hfresh x (List.mem_append_left _ (Option.mem_toList.mpr hx))
      · intro x hx
        refine ⟨(hfresh x (List.mem_append_right _ hx)).1, fun hl => ?_⟩
        rcases List.mem_append.mp hl with hl | hl
        · exact hnodup.2.2 x hl x hx rfl
        · exact (hfresh x (List.mem_append_right _ hx)).2 hl
      · intro before t after hb
        exact resolved_after_iff.mpr (huses (s :: before) t after (by rw [hb]; rfl))

theorem checkParams_eq_nil {before : List String} {params : List Param} :
    checkParams before params = [] ↔
      (params.map Param.name).Nodup ∧ ∀ p ∈ params.map Param.name, p ∉ before := by
  induction params generalizing before with
  | nil => simp [checkParams]
  | cons p rest ih =>
    simp only [checkParams, List.append_eq_nil_iff, findIf_eq_nil, List.contains_eq_mem,
      decide_eq_false_iff_not, ih, List.map_cons, List.nodup_cons, List.mem_cons, forall_eq_or_imp,
      not_or]
    constructor
    · rintro ⟨hp, hnodup, hrest⟩
      exact ⟨⟨fun hmem => (hrest _ hmem).1 rfl, hnodup⟩, hp, fun x hx => (hrest x hx).2⟩
    · rintro ⟨⟨hp, hnodup⟩, hnew, hrest⟩
      exact ⟨hnew, hnodup, fun x hx => ⟨fun h => hp (h ▸ hx), hrest x hx⟩⟩

/-- **The walk and the rule agree.** The checker has nothing to say about the names of a body, its remarks on
    returns apart, exactly when the body is well scoped. -/
theorem bodyScoped_iff {params : List Param} {body : List Stmt} :
    BodyScoped names params body ↔
      checkParams [] params = [] ∧ checkBody names (fun _ => []) (.start params) body = [] := by
  rw [checkParams_eq_nil, checkBody_eq_nil_iff_admits, admits_iff]
  constructor
  · intro h
    refine ⟨⟨h.params_nodup, by simp⟩, h.locals_nodup, fun x hx => ⟨h.locals_new x hx, by simp [Scope.start]⟩, ?_⟩
    intro before s after hb
    simpa [Scope.start] using h.uses before s after hb
  · rintro ⟨⟨hparams, -⟩, hlocals, hnew, huses⟩
    refine ⟨hparams, hlocals, fun x hx => (hnew x hx).1, ?_⟩
    intro before s after hb
    simpa [Scope.start] using huses before s after hb

/-- A finding about a body is about one of its returns or about its names. -/
theorem mem_checkBody {onReturn : Option Expr → List Finding} {body : List Stmt} {f : Finding} :
    f ∈ checkBody names onReturn scope body ↔
      (∃ value, .return value ∈ body ∧ f ∈ onReturn value) ∨
        f ∈ checkBody names (fun _ => []) scope body := by
  induction body generalizing scope with
  | nil => simp [checkBody]
  | cons s rest ih =>
    simp only [checkBody, List.mem_append, List.mem_cons]
    rw [ih]
    -- only a return has a remark of its own, which comes before what is wrong with its names
    cases s with
    | «return» value =>
      simp only [Stmt.return.injEq, List.not_mem_nil, false_or]
      constructor
      · rintro ((h | h) | (⟨v, hv, h⟩ | h))
        · exact .inl ⟨value, .inl rfl, h⟩
        · exact .inr (.inl h)
        · exact .inl ⟨v, .inr hv, h⟩
        · exact .inr (.inr h)
      · rintro (⟨v, rfl | hv, h⟩ | (h | h))
        · exact .inl (.inl h)
        · exact .inr (.inl ⟨v, hv, h⟩)
        · exact .inl (.inr h)
        · exact .inr (.inr h)
    | declare | assign | expr | attach | raise =>
      simp only [reduceCtorEq, false_or, List.not_mem_nil]
      exact or_left_comm

/-! ## Members -/

/-- The codes of findings about two members of a class whose names clash. -/
def clashCodes : List String :=
  ["CS0102", "CS0111", "CS0542"]

theorem code_of_mem_checkName {className name : String} {taken : Taken} {kind : NameKind} {f : Finding}
    (h : f ∈ (checkName className taken name kind).1) : f.code ∈ clashCodes := by
  simp only [checkName, List.mem_append, mem_findIf] at h
  rcases h with ⟨-, rfl⟩ | ⟨-, rfl⟩
  · simp [Finding.code, clashCodes]
  · simp [Finding.code, clashCodes]

theorem code_of_mem_checkMember {className : String} {taken : Taken} {m : Member} {f : Finding}
    (h : f ∈ (checkMember className taken m).1) : f.code ∈ clashCodes := by
  cases m with
  | constructor c => exact absurd h List.not_mem_nil
  | field g => exact code_of_mem_checkName h
  | event e => exact code_of_mem_checkName h
  | method m =>
    simp only [checkMember] at h
    split at h
    · exact code_of_mem_checkName h
    · rcases List.mem_append.mp h with h | h
      · exact code_of_mem_checkName h
      · obtain ⟨-, rfl⟩ := mem_findIf.mp h
        simp [Finding.code, clashCodes]

/-- The pass over the members reports clashes and nothing else. -/
theorem code_of_mem_checkMembers {className : String} {taken : Taken} {members : List Member} {f : Finding}
    (h : f ∈ checkMembers className taken members) : f.code ∈ clashCodes := by
  induction members generalizing taken with
  | nil => exact absurd h List.not_mem_nil
  | cons m rest ih =>
    rcases List.mem_append.mp h with h | h
    · exact code_of_mem_checkMember h
    · exact ih h

/-- A method that promises a value ends with a return and returns values only. -/
structure ReturnsValue (m : Method) : Prop where
  ends : m.returns.isVoid = false → endsWithReturn m.body = true
  value : m.returns.isVoid = false → .return none ∉ m.body

theorem checkMemberBody_constructor {c : Constructor} (h : BodyScoped names c.params c.body)
    (hret : ∀ value, .return value ∉ c.body) : checkMemberBody names (.constructor c) = [] := by
  obtain ⟨hparams, hbody⟩ := bodyScoped_iff.mp h
  rw [checkMemberBody, hparams, List.nil_append, List.eq_nil_iff_forall_not_mem]
  intro f hf
  rcases mem_checkBody.mp hf with ⟨value, hmem, -⟩ | hf
  · exact hret value hmem
  · rw [hbody] at hf
    exact List.not_mem_nil hf

/-- All that can be wrong with a well scoped method is that it returns a value it does not promise. -/
theorem mem_checkMemberBody_method {m : Method} (h : BodyScoped names m.params m.body)
    (hret : ReturnsValue m) {f : Finding} (hf : f ∈ checkMemberBody names (.method m)) :
    f = .voidReturnsValue m.name ∧ m.returns.isVoid = true ∧ ∃ e, .return (some e) ∈ m.body := by
  obtain ⟨hparams, hbody⟩ := bodyScoped_iff.mp h
  rw [checkMemberBody, hparams, List.nil_append, List.mem_append, mem_checkBody, hbody] at hf
  rcases hf with (⟨value, hmem, hf⟩ | hf) | hf
  · cases hvoid : m.returns.isVoid with
    | true =>
      simp only [methodReturn, hvoid, if_true, mem_findIf] at hf
      obtain ⟨e, rfl⟩ := Option.isSome_iff_exists.mp hf.1
      exact ⟨hf.2, rfl, e, hmem⟩
    | false =>
      simp only [methodReturn, hvoid, Bool.false_eq_true, if_false, mem_findIf,
        Option.isNone_iff_eq_none] at hf
      exact absurd (hf.1 ▸ hmem) (hret.value hvoid)
  · exact absurd hf List.not_mem_nil
  · obtain ⟨hend, -⟩ := mem_findIf.mp hf
    simp only [Bool.and_eq_true, Bool.not_eq_true'] at hend
    exact absurd (hret.ends hend.1) (by simp [hend.2])

end Check

end BoundaryProxy
