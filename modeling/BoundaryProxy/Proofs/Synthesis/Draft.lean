import BoundaryProxy.Proofs.Proxy.Assembler
import BoundaryProxy.Proofs.Synthesis.Crossing
import Mathlib.Data.List.Forall2

/-!
# `Proofs.Synthesis.Draft` — a method while it is written

While values come in, the body of a draft consists of lookups and nothing else. `Open d` says so, and that the
class is sound and every name of the draft was issued by its supply; each step of a draft keeps it.

* `Means d e e'`: in the draft as it stands, `e` is resolved and reads as `e'` once the locals are replaced.
  Later steps do not change what an expression means (`Means.mono`).
* `Took d R S x out`: one step took parameters for `x` and left the value `out.1`. What it took and left is
  described by `R` and `S`; `mapM_took` carries this over a list, in order.

The rules of `Crossing` then hold step by step: `incoming_took`, `argument_took`.
-/

namespace BoundaryProxy.Proxy

open Check

/-! ## Reading without locals -/

mutual

/-- Only the locals that occur in an expression decide how it reads. -/
theorem inlined_congr {env env' : String → Expr} : ∀ e : Expr,
    (∀ x, (Expr.localVar x).Occurs e → env x = env' x) → e.inlined env = e.inlined env'
  | .null, _ | .field _, _ | .param _, _ | .methodRef _, _ | .path _, _ => rfl
  | .localVar x, h => h x .here
  | .property target name, h => by
    rw [Expr.inlined, Expr.inlined, inlined_congr target fun x hx => h x (.property hx)]
  | .index target keys, h => by
    rw [Expr.inlined, Expr.inlined, inlined_congr target fun x hx => h x (.indexTarget hx),
      inlinedKeys_congr keys fun x k hk hx => h x (.indexKey hk hx)]
  | .invoke target method args, h => by
    rw [Expr.inlined, Expr.inlined, inlined_congr target fun x hx => h x (.invokeTarget hx),
      inlinedArgs_congr args fun x e he hx => h x (.invokeArg he hx)]
  | .new type args, h => by
    rw [Expr.inlined, Expr.inlined, inlinedKeys_congr args fun x e he hx => h x (.newArg he hx)]

theorem inlinedKeys_congr {env env' : String → Expr} : ∀ es : List Expr,
    (∀ x, ∀ e ∈ es, (Expr.localVar x).Occurs e → env x = env' x) →
      inlinedKeys env es = inlinedKeys env' es
  | [], _ => rfl
  | e :: es, h => by
    rw [inlinedKeys, inlinedKeys, inlined_congr e fun x hx => h x e List.mem_cons_self hx,
      inlinedKeys_congr es fun x k hk hx => h x k (List.mem_cons_of_mem _ hk) hx]

theorem inlinedArgs_congr {env env' : String → Expr} : ∀ as : List Arg,
    (∀ x e, .value e ∈ as → (Expr.localVar x).Occurs e → env x = env' x) →
      inlinedArgs env as = inlinedArgs env' as
  | [], _ => rfl
  | .value e :: as, h => by
    rw [inlinedArgs, inlinedArgs, Arg.inlined, Arg.inlined,
      inlined_congr e fun x hx => h x e List.mem_cons_self hx,
      inlinedArgs_congr as fun x k hk hx => h x k (List.mem_cons_of_mem _ hk) hx]
  | .discard :: as, h => by
    rw [inlinedArgs, inlinedArgs, Arg.inlined, Arg.inlined,
      inlinedArgs_congr as fun x k hk hx => h x k (List.mem_cons_of_mem _ hk) hx]

end

end BoundaryProxy.Proxy

namespace BoundaryProxy.Synthesis.Draft

open Proxy Check

variable {d d' d'' : Draft} {t : TypeExpr}

/-! ## Open drafts -/

/-- The names of the parameters. -/
def paramNames (d : Draft) : List String :=
  d.method.params.map Param.name

/-- The parameters and the locals declared so far. -/
def scope (d : Draft) : Scope :=
  ⟨d.paramNames, declaredLocals d.method.body⟩

/-- What each local of the draft stands for. -/
def env (d : Draft) : String → Expr :=
  envAfter .localVar d.method.body

/-- The class is sound, the body so far is well scoped and consists of lookups, and all its names were issued. -/
structure Open (d : Draft) : Prop where
  sound : d.unit.Sound
  wellScoped : BodyScoped d.unit.classNames d.method.params d.method.body
  issued : ∀ x, x ∈ d.paramNames ∨ x ∈ declaredLocals d.method.body → d.unit.names.Issued x
  lookups : ∀ s ∈ d.method.body, IsLookup d.unit.classNames.fields d.paramNames s

/-- Parameters and statements were only added, the parameters being `taken`, and no method was. -/
structure Grows (d : Draft) (taken : List Param) (d' : Draft) : Prop where
  unit : d.unit.Grows [] d'.unit
  name : d'.method.name = d.method.name
  returns : d'.method.returns = d.method.returns
  params : d'.method.params = d.method.params ++ taken
  body : d.method.body <+: d'.method.body

theorem Grows.refl (d : Draft) : Grows d [] d :=
  ⟨.refl _, rfl, rfl, by simp, List.prefix_refl _⟩

theorem Grows.trans {ps qs : List Param} (h : Grows d ps d') (k : Grows d' qs d'') :
    Grows d (ps ++ qs) d'' where
  unit := h.unit.trans k.unit
  name := k.name.trans h.name
  returns := k.returns.trans h.returns
  params := by rw [k.params, h.params, List.append_assoc]
  body := h.body.trans k.body

theorem Grows.paramNames {taken : List Param} (h : Grows d taken d') : d.paramNames ⊆ d'.paramNames := by
  rw [Draft.paramNames, Draft.paramNames, h.params, List.map_append]
  exact List.subset_append_left _ _

theorem Grows.locals {taken : List Param} (h : Grows d taken d') :
    declaredLocals d.method.body ⊆ declaredLocals d'.method.body :=
  (h.body.filterMap _).subset

/-- A draft of a method without parameters and body is open. -/
theorem open_start {a : Assembler} (h : a.Sound) (name : String) (returns : TypeExpr) :
    Open ⟨a, { name, returns }⟩ where
  sound := h
  wellScoped := bodyScoped_nil _
  issued := fun x hx => by simp [paramNames, declaredLocals] at hx
  lookups := fun s hs => absurd hs List.not_mem_nil

/-! ## What an expression means -/

/-- In the draft as it stands `e` is resolved and reads as `e'`. -/
structure Means (d : Draft) (e e' : Expr) : Prop where
  resolved : e.Resolved d.unit.classNames d.scope
  reads : e.inlined d.env = e'

/-- The same of an argument. -/
structure MeansArg (d : Draft) (a a' : Arg) : Prop where
  resolved : ∀ e, a = .value e → e.Resolved d.unit.classNames d.scope
  reads : a.inlined d.env = a'

/-- A local that is declared keeps what it stands for. -/
theorem env_eq_of_grows {taken : List Param} (hd : d.Open) (hd' : d'.Open) (hg : Grows d taken d')
    {x : String} (hx : x ∈ declaredLocals d.method.body) : d'.env x = d.env x := by
  -- the declaration is in both bodies, and in each it decides what its local stands for
  obtain ⟨s, hs, hlocal⟩ := List.mem_filterMap.mp hx
  have hlookup := hd.lookups s hs
  cases hlookup with
  | intro hf hp =>
    obtain rfl : _ = x := Option.some.inj hlocal
    rw [env, env, envAfter_apply hd.lookups hd.wellScoped.locals_nodup hs,
      envAfter_apply hd'.lookups hd'.wellScoped.locals_nodup (hg.body.subset hs)]

theorem resolved_of_grows {taken : List Param} {e : Expr} (hg : Grows d taken d')
    (h : e.Resolved d.unit.classNames d.scope) : e.Resolved d'.unit.classNames d'.scope :=
  h.mono hg.unit.classNames hg.paramNames hg.locals

theorem inlined_of_grows {taken : List Param} {e : Expr} (hd : d.Open) (hd' : d'.Open)
    (hg : Grows d taken d') (h : e.Resolved d.unit.classNames d.scope) :
    e.inlined d'.env = e.inlined d.env :=
  inlined_congr e fun _ hx => env_eq_of_grows hd hd' hg (h _ hx)

/-- **Later steps do not change what an expression means.** -/
theorem Means.mono {taken : List Param} {e e' : Expr} (hd : d.Open) (hd' : d'.Open)
    (hg : Grows d taken d') (h : Means d e e') : Means d' e e' :=
  ⟨resolved_of_grows hg h.resolved, (inlined_of_grows hd hd' hg h.resolved).trans h.reads⟩

theorem MeansArg.mono {taken : List Param} {a a' : Arg} (hd : d.Open) (hd' : d'.Open)
    (hg : Grows d taken d') (h : MeansArg d a a') : MeansArg d' a a' := by
  cases a with
  | discard => exact ⟨fun e he => (by cases he), h.reads⟩
  | value e =>
    have he := h.resolved e rfl
    refine ⟨fun k hk => ?_, ?_⟩
    · cases hk
      exact resolved_of_grows hg he
    · rw [← h.reads, Arg.inlined, Arg.inlined, inlined_of_grows hd hd' hg he]

/-! ## Steps -/

/-- The draft after its next name was issued. -/
def afterName (d : Draft) : Draft :=
  ⟨d.unit.afterName, d.method⟩

/-- The draft with one more parameter. -/
def withParam (d : Draft) (p : Param) : Draft :=
  ⟨d.unit, { d.method with params := d.method.params ++ [p] }⟩

/-- The draft with one more statement. -/
def withStmt (d : Draft) (s : Stmt) : Draft :=
  ⟨d.unit, { d.method with body := d.method.body ++ [s] }⟩

/-- The draft with another return type. -/
def withReturns (d : Draft) (t : TypeExpr) : Draft :=
  ⟨d.unit, { d.method with returns := t }⟩

theorem grows_afterName (d : Draft) : Grows d [] d.afterName :=
  { Grows.refl d with unit := d.unit.grows_afterName }

theorem grows_withParam (d : Draft) (p : Param) : Grows d [p] (d.withParam p) :=
  { Grows.refl d with params := rfl }

theorem grows_withStmt (d : Draft) (s : Stmt) : Grows d [] (d.withStmt s) :=
  { Grows.refl d with body := List.prefix_append _ _ }

theorem paramNames_withParam (d : Draft) (p : Param) : (d.withParam p).paramNames = d.paramNames ++ [p.name] := by
  simp [paramNames, withParam]

theorem declaredLocals_append (body rest : List Stmt) :
    declaredLocals (body ++ rest) = declaredLocals body ++ declaredLocals rest :=
  List.filterMap_append

theorem Open.afterName (h : d.Open) : d.afterName.Open where
  sound := h.sound.afterName
  wellScoped := h.wellScoped
  issued := fun x hx => (h.issued x hx).mono d.unit.names.later_next
  lookups := h.lookups

/-- The next name is no name of the draft yet. -/
theorem Open.next_new (h : d.Open) :
    d.unit.names.next.1 ∉ d.paramNames ∧ d.unit.names.next.1 ∉ declaredLocals d.method.body :=
  ⟨fun hx => (h.issued _ (.inl hx)).ne_next rfl, fun hx => (h.issued _ (.inr hx)).ne_next rfl⟩

/-- A parameter under the next name comes in as itself. -/
theorem param_spec (h : d.Open) (t : TypeExpr) :
    let p : Param := ⟨d.unit.names.next.1, t⟩
    (d.afterName.withParam p).Open ∧ Grows d [p] (d.afterName.withParam p) ∧
      Means (d.afterName.withParam p) (.param p.name) (.param p.name) := by
  intro p
  have hg : Grows d [p] (d.afterName.withParam p) := (grows_afterName d).trans (grows_withParam _ p)
  refine ⟨⟨h.afterName.sound, ?_, ?_, ?_⟩, hg, ?_, rfl⟩
  · exact h.afterName.wellScoped.addParam h.next_new.1 h.next_new.2
  · intro x hx
    rw [paramNames_withParam, List.mem_append, List.mem_singleton] at hx
    rcases hx with (hx | rfl) | hx
    · exact h.afterName.issued x (.inl hx)
    · exact d.unit.names.issued_next
    · exact h.afterName.issued x (.inr hx)
  · intro s hs
    exact (h.lookups s hs).mono (fun _ hf => hf) hg.paramNames
  · rw [resolved_param]
    show p.name ∈ (d.afterName.withParam p).paramNames
    rw [paramNames_withParam]
    exact List.mem_append_right _ List.mem_cons_self

/-- The object found in a field under a parameter comes in as a local under the next name. -/
theorem lookup_spec (h : d.Open) {f p : String} (hf : f ∈ d.unit.classNames.fields) (hp : p ∈ d.paramNames)
    (t : TypeExpr) :
    let x := d.unit.names.next.1
    let s : Stmt := .declare t x (some (.index (.field f) [.param p]))
    (d.afterName.withStmt s).Open ∧ Grows d [] (d.afterName.withStmt s) ∧
      Means (d.afterName.withStmt s) (.localVar x) (.index (.field f) [.param p]) := by
  intro x s
  have hg : Grows d [] (d.afterName.withStmt s) := (grows_afterName d).trans (grows_withStmt _ s)
  have hlocals : declaredLocals (d.method.body ++ [s]) = declaredLocals d.method.body ++ [x] := by
    rw [declaredLocals_append]
    rfl
  have hs : s.Resolved d.unit.classNames d.scope := by
    rw [stmt_resolved_iff_exprs (by simp [s])]
    simpa [s, Stmt.exprs] using ⟨hf, hp⟩
  have hopen : (d.afterName.withStmt s).Open := by
    refine ⟨h.afterName.sound, ?_, ?_, ?_⟩
    · refine h.afterName.wellScoped.snoc hs ?_
      intro y hy
      obtain rfl : x = y := Option.some.inj hy
      exact h.next_new
    · intro y hy
      have hy' : (y ∈ d.paramNames ∨ y ∈ declaredLocals d.method.body) ∨ y = x := by
        rw [or_assoc, ← List.mem_singleton, ← List.mem_append, ← hlocals]
        exact hy
      rcases hy' with hy' | rfl
      · exact h.afterName.issued y hy'
      · exact d.unit.names.issued_next
    · intro u hu
      rcases List.mem_append.mp hu with hu | hu
      · exact h.lookups u hu
      · obtain rfl := List.mem_singleton.mp hu
        exact .intro hf hp
  refine ⟨hopen, hg, ?_, ?_⟩
  · rw [resolved_localVar]
    show x ∈ declaredLocals (d.method.body ++ [s])
    rw [hlocals]
    exact List.mem_append_right _ List.mem_cons_self
  · have hmem : s ∈ (d.afterName.withStmt s).method.body := List.mem_append_right _ List.mem_cons_self
    exact envAfter_apply hopen.lookups hopen.wellScoped.locals_nodup hmem

/-- **Looking an object up** takes one parameter, of the descriptor's key type. -/
theorem resolve_spec (h : d.Open) (descriptor : RegistryDescriptor) {registry : FieldRef}
    (hr : registry.name ∈ d.unit.classNames.fields) :
    let out := resolve descriptor registry d
    out.2.Open ∧ ∃ key : Param, key.type = descriptor.keyType ∧ Grows d [key] out.2 ∧
      Means out.2 out.1 (.index (.field registry.name) [.param key.name]) := by
  intro out
  let key : Param := ⟨d.unit.names.next.1, descriptor.keyType⟩
  obtain ⟨hopen, hgrows, hmeans⟩ := param_spec h descriptor.keyType
  have hkey : key.name ∈ (d.afterName.withParam key).paramNames := by
    rw [paramNames_withParam]
    exact List.mem_append_right _ List.mem_cons_self
  obtain ⟨hopen', hgrows', hmeans'⟩ :=
    lookup_spec hopen (hgrows.unit.classNames.fields hr) hkey descriptor.memberType
  exact ⟨hopen', key, rfl, hgrows.trans hgrows', hmeans'⟩

/-! ## Values that come in -/

/-- A step on `d` took parameters for `x` and left a value: `R` says what was taken and what for, `S` how the
    value reads now. -/
def Took {α β γ : Type} (d : Draft) (R : List Field → α → List Param → γ → Prop) (S : Draft → β → γ → Prop)
    (x : α) (out : β × Draft) : Prop :=
  ∃ taken c, out.2.Open ∧ Grows d taken out.2 ∧ R out.2.unit.fields x taken c ∧ S out.2 out.1 c

/-- A list is taken in order, if each item is taken and later steps keep what is known of it. -/
theorem mapM_took {α β γ : Type} {R : List Field → α → List Param → γ → Prop} {S : Draft → β → γ → Prop}
    {step : α → StateM Draft β}
    (hR : ∀ {fs fs' x ps c}, fs <+: fs' → R fs x ps c → R fs' x ps c)
    (hS : ∀ {d d' taken v c}, Open d → Open d' → Grows d taken d' → S d v c → S d' v c)
    (hstep : ∀ d x, Open d → Took d R S x (step x d)) (xs : List α) (h : d.Open) :
    Took d (fun fs => InOrder (R fs)) (fun d => List.Forall₂ (S d)) xs (xs.mapM step d) := by
  induction xs generalizing d with
  | nil => exact ⟨[], [], h, .refl d, .nil, .nil⟩
  | cons x xs ih =>
    -- what the first item took and left is still so described after the others were taken
    obtain ⟨ps, c, hopen, hgrows, hr, hs⟩ := hstep d x h
    obtain ⟨qs, cs, hopen', hgrows', hr', hs'⟩ := ih hopen
    have hrun : (x :: xs).mapM step d =
        ((step x d).1 :: (xs.mapM step (step x d).2).1, (xs.mapM step (step x d).2).2) := by
      rw [List.mapM_cons]
      rfl
    rw [hrun]
    exact ⟨ps ++ qs, c :: cs, hopen', hgrows.trans hgrows', .cons (hR hgrows'.unit.fields hr) hr',
      .cons (hS hopen hopen' hgrows' hs) hs'⟩

variable {r : RegistrySet}

theorem mem_classNames_of_find {a : Assembler} {f : Field}
    (h : a.fields.find? (·.type = t) = some f) : f.name ∈ a.classNames.fields :=
  List.mem_map_of_mem (List.mem_of_find?_eq_some h)

/-- A step on the class only leaves the draft open. -/
theorem Open.withUnit (h : d.Open) {a : Assembler} (ha : a.Sound) (hg : d.unit.Grows [] a) :
    Open ⟨a, d.method⟩ ∧ Grows d [] ⟨a, d.method⟩ := by
  have hgrows : Grows d [] ⟨a, d.method⟩ := { Grows.refl d with unit := hg }
  refine ⟨⟨ha, h.wellScoped.mono hg.classNames, fun x hx => (h.issued x hx).mono hg.names, ?_⟩, hgrows⟩
  intro s hs
  exact (h.lookups s hs).mono hg.classNames.fields fun _ hp => hp

/-- **A foreign parameter comes in** under one proxy parameter, by the rule of its type. -/
theorem incoming_took (h : d.Open) (q : Parameter) : Took d (Takes r) Means q (incoming r q d) := by
  cases hq : r.byMember? q.type with
  | none =>
    let p : Param := ⟨d.unit.names.next.1, q.type⟩
    have hrun : incoming r q d = (.param p.name, d.afterName.withParam p) := by
      rw [incoming, hq]
      rfl
    obtain ⟨hopen, hgrows, hmeans⟩ := param_spec h q.type
    rw [hrun]
    exact ⟨[p], .param p.name, hopen, hgrows, .intro (.same hq rfl), hmeans⟩
  | some descriptor =>
    let placed := Assembler.constructorField descriptor.registryType d.unit
    have hrun : incoming r q d = resolve descriptor placed.1 ⟨placed.2, d.method⟩ := by
      rw [incoming, hq]
      rfl
    obtain ⟨hsound, hgrows, f, hf, hname⟩ := Assembler.constructorField_spec h.sound descriptor.registryType
    obtain ⟨hopen, hd⟩ := h.withUnit hsound hgrows
    have hmem : placed.1.name ∈ placed.2.classNames.fields := hname ▸ mem_classNames_of_find hf
    obtain ⟨hopen', key, hkey, hgrows', hmeans⟩ := resolve_spec hopen descriptor hmem
    rw [hrun]
    refine ⟨[key], _, hopen', hd.trans hgrows', .intro (.key hq hkey (hgrows'.unit.findField hf)), ?_⟩
    rw [hname]
    exact hmeans

theorem argument_took (h : d.Open) (q : Parameter) : Took d (Passes r) MeansArg q (argument r q d) := by
  cases hout : q.isOut with
  | true =>
    have hrun : argument r q d = (.discard, d) := by
      rw [argument, hout]
      rfl
    rw [hrun]
    exact ⟨[], .discard, h, .refl d, .out hout, ⟨fun e he => (by cases he), rfl⟩⟩
  | false =>
    have hrun : argument r q d = (.value (incoming r q d).1, (incoming r q d).2) := by
      rw [argument, hout]
      rfl
    obtain ⟨taken, e, hopen, hgrows, ⟨hcross⟩, hmeans⟩ := incoming_took (r := r) h q
    rw [hrun]
    refine ⟨_, .value e, hopen, hgrows, .value hout hcross, ⟨fun k hk => ?_, ?_⟩⟩
    · cases hk
      exact hmeans.resolved
    · rw [Arg.inlined, hmeans.reads]

/-- The arguments of a call, in order. -/
theorem arguments_took (h : d.Open) (qs : List Parameter) :
    Took d (fun fs => InOrder (Passes r fs)) (fun d => List.Forall₂ (MeansArg d)) qs
      (qs.mapM (argument r) d) :=
  mapM_took (fun hf hp => hp.mono hf) (fun hd hd' hg hm => hm.mono hd hd' hg)
    (fun _ q hd => argument_took hd q) qs h

/-- The keys of a slot, in order. -/
theorem keys_took (h : d.Open) (qs : List Parameter) :
    Took d (fun fs => InOrder (Takes r fs)) (fun d => List.Forall₂ (Means d)) qs
      (qs.mapM (incoming r) d) :=
  mapM_took (fun hf hp => hp.mono hf) (fun hd hd' hg hm => hm.mono hd hd' hg)
    (fun _ q hd => incoming_took hd q) qs h

/-! ## Compound expressions -/

theorem Means.property {e e' : Expr} (h : Means d e e') (name : String) :
    Means d (.property e name) (.property e' name) :=
  ⟨resolved_property.mpr h.resolved, by rw [Expr.inlined, h.reads]⟩

theorem inlinedKeys_of_means {ks ks' : List Expr} (h : List.Forall₂ (Means d) ks ks') :
    (∀ k ∈ ks, k.Resolved d.unit.classNames d.scope) ∧ inlinedKeys d.env ks = ks' := by
  induction h with
  | nil => exact ⟨fun _ hk => absurd hk List.not_mem_nil, rfl⟩
  | cons hk _ ih =>
    refine ⟨List.forall_mem_cons.mpr ⟨hk.resolved, ih.1⟩, ?_⟩
    rw [inlinedKeys, hk.reads, ih.2]

theorem inlinedArgs_of_means {as as' : List Arg} (h : List.Forall₂ (MeansArg d) as as') :
    (∀ e, .value e ∈ as → e.Resolved d.unit.classNames d.scope) ∧ inlinedArgs d.env as = as' := by
  induction h with
  | nil => exact ⟨fun _ hk => absurd hk List.not_mem_nil, rfl⟩
  | cons ha _ ih =>
    refine ⟨fun e he => ?_, ?_⟩
    · rcases List.mem_cons.mp he with he | he
      · exact ha.resolved e he.symm
      · exact ih.1 e he
    · rw [inlinedArgs, ha.reads, ih.2]

theorem Means.index {e e' : Expr} {ks ks' : List Expr} (h : Means d e e')
    (hk : List.Forall₂ (Means d) ks ks') : Means d (.index e ks) (.index e' ks') := by
  obtain ⟨hresolved, hreads⟩ := inlinedKeys_of_means hk
  exact ⟨resolved_index.mpr ⟨h.resolved, hresolved⟩, by rw [Expr.inlined, h.reads, hreads]⟩

theorem Means.invoke {e e' : Expr} {as as' : List Arg} (h : Means d e e')
    (ha : List.Forall₂ (MeansArg d) as as') (method : String) :
    Means d (.invoke e method as) (.invoke e' method as') := by
  obtain ⟨hresolved, hreads⟩ := inlinedArgs_of_means ha
  exact ⟨resolved_invoke.mpr ⟨h.resolved, hresolved⟩, by rw [Expr.inlined, h.reads, hreads]⟩

theorem Means.delivered {e e' : Expr} (h : Means d e e') (t : TypeExpr) :
    Means d (delivered r t e) (delivered r t e') := by
  unfold Synthesis.delivered
  cases r.byMember? t with
  | none => exact h
  | some => exact h.property _

/-! ## The last statements -/

theorem endsWithReturn_append (body : List Stmt) (value : Option Expr) :
    endsWithReturn (body ++ [.return value]) = true := by
  simp [endsWithReturn, Stmt.isReturn]

/-- Lookups return nothing. -/
theorem Open.return_not_mem (h : d.Open) (value : Option Expr) : .return value ∉ d.method.body := by
  intro hmem
  cases h.lookups _ hmem

/-- The body of an open draft may be ended by a statement that declares nothing. -/
theorem Open.close (h : d.Open) {s : Stmt} (hs : s.Resolved d.unit.classNames d.scope)
    (hlocal : s.local? = none) :
    BodyScoped d.unit.classNames d.method.params (d.method.body ++ [s]) := by
  refine h.wellScoped.snoc hs ?_
  intro x hx
  rw [hlocal] at hx
  cases hx

/-- What is left of the body of an open draft and the statements after it. -/
theorem Open.inlined (h : d.Open) (rest : List Stmt) :
    inlineLocals .localVar (d.method.body ++ rest) = inlineLocals d.env rest :=
  inlineLocals_lookups h.lookups

end BoundaryProxy.Synthesis.Draft
