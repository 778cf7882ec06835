import BoundaryProxy.Proofs.Naming.Accessor
import BoundaryProxy.Proofs.Proxy.Inline
import BoundaryProxy.Synthesis.Basic

/-!
# `Proofs.Synthesis.Crossing` — how a proxy method stands in for a foreign member

The rules by which values cross the boundary, stated of a finished method and the fields of its class, with
no mention of how the method was written:

* `Crosses`: a proxy parameter and the foreign value it stands for, itself or the object under it as key;
* `Reaches`: the wrapped object, held in a field or looked up under the leading parameter;
* `Delegates`, `ReadsSlot`, `WritesSlot`, `RaisesEvent`: what the method of a foreign method, getter, setter
  or event does, once its locals are replaced by their values.

`InOrder` pairs a list of foreign parameters with the proxy parameters taken for them, one after the other.
-/

namespace BoundaryProxy

/-- The type under which values of a type cross the boundary: the key type if they are registry members. -/
def RegistrySet.crossingType (r : RegistrySet) (t : TypeExpr) : TypeExpr :=
  match r.byMember? t with
  | some d => d.keyType
  | none => t

/-- The type of the field through which an object of a type is reached, its registry if it has one. -/
def RegistrySet.homeType (r : RegistrySet) (t : TypeExpr) : TypeExpr :=
  match r.byMember? t with
  | some d => d.registryType
  | none => t

namespace Synthesis

open Proxy

section Rules

variable (r : RegistrySet) (fields : List Field)

/-- The parameter `p` stands for a foreign value of type `t`, which the expression computes. -/
inductive Crosses (t : TypeExpr) (p : Param) : Expr → Prop
  /-- Other values come in unchanged. -/
  | same : r.byMember? t = none → p.type = t → Crosses t p (.param p.name)
  /-- A registry member is looked up in the field of its registry. -/
  | key {d : RegistryDescriptor} {f : Field} : r.byMember? t = some d → p.type = d.keyType →
      fields.find? (·.type = d.registryType) = some f →
      Crosses t p (.index (.field f.name) [.param p.name])

/-- The wrapped object of type `t` is reached by an expression, at the cost of the leading parameters. -/
inductive Reaches (t : TypeExpr) : List Param → Expr → Prop
  | held {f : Field} : r.byMember? t = none → fields.find? (·.type = t) = some f →
      Reaches t [] (.field f.name)
  | lookedUp {key : Param} {e : Expr} : (r.byMember? t).isSome → Crosses r fields t key e →
      Reaches t [key] e

/-- One parameter is taken for a foreign parameter, whatever its direction. -/
inductive Takes (q : Parameter) : List Param → Expr → Prop
  | intro {p : Param} {e : Expr} : Crosses r fields q.type p e → Takes q [p] e

/-- What is taken for a foreign parameter, and the argument passed in its place. -/
inductive Passes (q : Parameter) : List Param → Arg → Prop
  | out : q.isOut = true → Passes q [] .discard
  | value {p : Param} {e : Expr} : q.isOut = false → Crosses r fields q.type p e → Passes q [p] (.value e)

/-- Each item takes its parameters after those of the items before it. -/
inductive InOrder {α γ : Type} (R : α → List Param → γ → Prop) : List α → List Param → List γ → Prop
  | nil : InOrder R [] [] []
  | cons {x : α} {xs : List α} {ps qs : List Param} {c : γ} {cs : List γ} :
      R x ps c → InOrder R xs qs cs → InOrder R (x :: xs) (ps ++ qs) (c :: cs)

/-- The property of an accessor, or its slot if there are keys. -/
inductive IsSlot (property : String) (target : Expr) : List Parameter → List Param → Expr → Prop
  | plain : IsSlot property target [] [] (.property target property)
  | keyed {keys : List Parameter} {ps : List Param} {es : List Expr} : keys ≠ [] →
      InOrder (Takes r fields) keys ps es → IsSlot property target keys ps (.index target es)

/-- What leaves the boundary for a value of a type: the identifier of a registry member, else the value. -/
def delivered (t : TypeExpr) (e : Expr) : Expr :=
  match r.byMember? t with
  | some _ => .property e idProperty
  | none => e

/-- The types of the leading parameters by which the wrapped object is reached. -/
def leadTypes (t : TypeExpr) : List TypeExpr :=
  (r.byMember? t).toList.map (·.keyType)

/-- The statement that is left of a call: the call alone if it has no result, else the return of it. -/
def callStatement (returns : TypeExpr) (call : Expr) : Stmt :=
  if returns.isVoid then .expr call else .return (some (delivered r returns call))

end Rules

/-! ## Members -/

section Members

variable (r : RegistrySet) (fields : List Field) (t : TypeExpr)

/-- **Delegation.** The method `p` calls `m`, and nothing else, on the wrapped object of type `t`. -/
structure Delegates (m : MethodDecl) (p : Method) : Prop where
  name : p.name = m.name
  paramTypes : p.paramTypes =
    leadTypes r t ++ (m.params.filter (!·.isOut)).map (r.crossingType ·.type)
  returns : p.returns = if m.returns.isVoid then .void else r.crossingType m.returns
  params_nodup : (p.params.map Param.name).Nodup
  body : ∃ lead params target args, p.params = lead ++ params ∧ Reaches r fields t lead target ∧
    InOrder (Passes r fields) m.params params args ∧
    p.inlinedBody = [callStatement r m.returns (.invoke target m.name args)]

/-- **Reading.** The method `p` returns the property or slot that the getter `g` of a property names. -/
structure ReadsSlot (property : String) (g : MethodDecl) (p : Method) : Prop where
  accessor : g.name = "get_" ++ property
  name : p.name = Naming.accessName "Get" property
  paramTypes : p.paramTypes = leadTypes r t ++ g.params.map (r.crossingType ·.type)
  returns : p.returns = r.crossingType g.returns
  params_nodup : (p.params.map Param.name).Nodup
  body : ∃ lead params target slot, p.params = lead ++ params ∧ Reaches r fields t lead target ∧
    IsSlot r fields property target g.params params slot ∧
    p.inlinedBody = [.return (some (delivered r g.returns slot))]

/-- **Writing.** The method `p` assigns its last parameter to the property or slot that the setter `m` of a
    property names; the last parameter of `m` is the value, those before it are keys. -/
structure WritesSlot (property : String) (m : MethodDecl) (p : Method) : Prop where
  accessor : m.name = "set_" ++ property
  name : p.name = Naming.accessName "Set" property
  paramTypes : p.paramTypes = leadTypes r t ++ m.params.map (r.crossingType ·.type)
  returns : p.returns = .void
  params_nodup : (p.params.map Param.name).Nodup
  body : ∃ keys value lead params last target slot written, m.params = keys ++ [value] ∧
    p.params = lead ++ params ++ [last] ∧ Reaches r fields t lead target ∧
    IsSlot r fields property target keys params slot ∧ Crosses r fields value.type last written ∧
    p.inlinedBody = [.assign slot written]

/-- **Raising.** The method that raises an event with no sender takes the payload, if there is one, and hands it on. -/
inductive RaisesEvent (e : EventDecl) : Method → Prop
  | bare (hpayload : e.payload = none) :
      RaisesEvent e ⟨"Raise" ++ e.name, [], .void, [.raise e.name [.null, .null]]⟩
  | payload {t : TypeExpr} (x : String) (hpayload : e.payload = some t) :
      RaisesEvent e ⟨"Raise" ++ e.name, [⟨x, t⟩], .void, [.raise e.name [.null, .param x]]⟩

end Members

/-! ## Signatures of methods that raise events -/

section Raising

variable {e : EventDecl} {p : Method}

theorem RaisesEvent.name (h : RaisesEvent e p) : p.name = "Raise" ++ e.name := by
  cases h <;> rfl

theorem RaisesEvent.paramTypes (h : RaisesEvent e p) : p.paramTypes = e.payload.toList := by
  cases h with
  | bare hpayload | payload x hpayload =>
    rw [hpayload]
    rfl

theorem RaisesEvent.returns (h : RaisesEvent e p) : p.returns = .void := by
  cases h <;> rfl

end Raising

/-! ## Names of methods that access properties -/

section Names

variable {r : RegistrySet} {fields : List Field} {t : TypeExpr} {property : String} {m : MethodDecl} {p : Method}

theorem ReadsSlot.methodName (h : ReadsSlot r fields t property m p) :
    p.name = Naming.accessorMethodName m.name := by
  rw [h.name, h.accessor, Naming.accessorMethodName_get]

theorem WritesSlot.methodName (h : WritesSlot r fields t property m p) :
    p.name = Naming.accessorMethodName m.name := by
  rw [h.name, h.accessor, Naming.accessorMethodName_set]

end Names

/-! ## Types of parameters -/

section Types

variable {r : RegistrySet} {fields fields' : List Field} {t : TypeExpr}

theorem Crosses.type {p : Param} {e : Expr} (h : Crosses r fields t p e) : p.type = r.crossingType t := by
  cases h with
  | same hr ht => rw [RegistrySet.crossingType, hr, ht]
  | key hr ht hf => rw [RegistrySet.crossingType, hr, ht]

theorem Reaches.types {lead : List Param} {target : Expr} (h : Reaches r fields t lead target) :
    lead.map Param.type = leadTypes r t := by
  cases h with
  | held hr hf => simp [leadTypes, hr]
  | lookedUp hr hc =>
    obtain ⟨d, hd⟩ := Option.isSome_iff_exists.mp hr
    simp [leadTypes, hd, hc.type, RegistrySet.crossingType]

theorem InOrder.takesTypes {qs : List Parameter} {ps : List Param} {es : List Expr}
    (h : InOrder (Takes r fields) qs ps es) : ps.map Param.type = qs.map (r.crossingType ·.type) := by
  induction h with
  | nil => rfl
  | cons hx _ ih =>
    cases hx with
    | intro hc => simp [hc.type, ih]

theorem InOrder.passesTypes {qs : List Parameter} {ps : List Param} {as : List Arg}
    (h : InOrder (Passes r fields) qs ps as) :
    ps.map Param.type = (qs.filter (!·.isOut)).map (r.crossingType ·.type) := by
  induction h with
  | nil => rfl
  | cons hx _ ih =>
    cases hx with
    | out hout => simp [hout, ih]
    | value hin hc => simp [hin, hc.type, ih]

theorem IsSlot.types {property : String} {target slot : Expr} {keys : List Parameter} {ps : List Param}
    (h : IsSlot r fields property target keys ps slot) :
    ps.map Param.type = keys.map (r.crossingType ·.type) := by
  cases h with
  | plain => rfl
  | keyed _ hk => exact hk.takesTypes

/-! ## More fields -/

theorem Crosses.mono {p : Param} {e : Expr} (hf : fields <+: fields') (h : Crosses r fields t p e) :
    Crosses r fields' t p e := by
  cases h with
  | same hr ht => exact .same hr ht
  | key hr ht hfind => exact .key hr ht (hf.find?_eq_some hfind)

theorem Reaches.mono {lead : List Param} {target : Expr} (hf : fields <+: fields')
    (h : Reaches r fields t lead target) : Reaches r fields' t lead target := by
  cases h with
  | held hr hfind => exact .held hr (hf.find?_eq_some hfind)
  | lookedUp hr hc => exact .lookedUp hr (hc.mono hf)

theorem Takes.mono {q : Parameter} {ps : List Param} {e : Expr} (hf : fields <+: fields')
    (h : Takes r fields q ps e) : Takes r fields' q ps e := by
  cases h with
  | intro hc => exact .intro (hc.mono hf)

theorem Passes.mono {q : Parameter} {ps : List Param} {a : Arg} (hf : fields <+: fields')
    (h : Passes r fields q ps a) : Passes r fields' q ps a := by
  cases h with
  | out hout => exact .out hout
  | value hin hc => exact .value hin (hc.mono hf)

theorem InOrder.mono {α γ : Type} {R R' : α → List Param → γ → Prop} {xs : List α} {ps : List Param}
    {cs : List γ} (hR : ∀ x ps c, R x ps c → R' x ps c) (h : InOrder R xs ps cs) : InOrder R' xs ps cs := by
  induction h with
  | nil => exact .nil
  | cons hx _ ih => exact .cons (hR _ _ _ hx) ih

theorem IsSlot.mono {property : String} {target slot : Expr} {keys : List Parameter} {ps : List Param}
    (hf : fields <+: fields') (h : IsSlot r fields property target keys ps slot) :
    IsSlot r fields' property target keys ps slot := by
  cases h with
  | plain => exact .plain
  | keyed hne hk => exact .keyed hne (hk.mono fun _ _ _ hx => hx.mono hf)

theorem Delegates.mono {m : MethodDecl} {p : Method} (hf : fields <+: fields')
    (h : Delegates r fields t m p) : Delegates r fields' t m p := by
  obtain ⟨lead, params, target, args, hparams, htarget, hargs, hbody⟩ := h.body
  exact { h with body := ⟨lead, params, target, args, hparams, htarget.mono hf,
    hargs.mono fun _ _ _ hx => hx.mono hf, hbody⟩ }

theorem ReadsSlot.mono {property : String} {g : MethodDecl} {p : Method} (hf : fields <+: fields')
    (h : ReadsSlot r fields t property g p) : ReadsSlot r fields' t property g p := by
  obtain ⟨lead, params, target, slot, hparams, htarget, hslot, hbody⟩ := h.body
  exact { h with body := ⟨lead, params, target, slot, hparams, htarget.mono hf, hslot.mono hf, hbody⟩ }

theorem WritesSlot.mono {property : String} {m : MethodDecl} {p : Method} (hf : fields <+: fields')
    (h : WritesSlot r fields t property m p) : WritesSlot r fields' t property m p := by
  obtain ⟨keys, value, lead, params, last, target, slot, written, hsplit, hparams, htarget, hslot, hlast,
    hbody⟩ := h.body
  exact { h with body := ⟨keys, value, lead, params, last, target, slot, written, hsplit, hparams,
    htarget.mono hf, hslot.mono hf, hlast.mono hf, hbody⟩ }

end Types

end Synthesis

end BoundaryProxy
