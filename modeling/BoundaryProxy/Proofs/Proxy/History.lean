import BoundaryProxy.Proofs.Proxy.Assembler
import Mathlib.Data.List.Forall2
import Mathlib.Data.List.Induction
import Mathlib.Data.List.Nodup

/-!
# `Proofs.Proxy.History` — a class after any sequence of operations

A history is a sequence of operations on a class under construction, each with the answer it got. What the class
holds is told by the entries of its history alone, less the requests of a field whose type had one already
(`firsts`): each of these entries added the member it says (`Adds`) and the constructor statement it says (`Runs`),
in the order of the history.

`Kept` says this of one state. Each operation keeps it (`Kept.step`), so it holds after every history
(`kept_history`). That a repeated request gets the answer of the first is `Answered`, kept in the same way because
fields are only added. Together they are `finish_history`.
-/

namespace BoundaryProxy.Proxy

/-! ## Operations -/

/-- An operation on a class under construction. -/
inductive Operation where
  | nextName
  | constructorField (t : TypeExpr)
  | fixedField (t : TypeExpr) (path : String)
  | fieldOfType (t : TypeExpr)
  | addConstructorStatement (s : Stmt)
  | pushMethod (m : Method)
  | pushEvent (e : Event)

/-- What an operation gives back. -/
inductive Answer where
  | name (x : String)
  | field (f : FieldRef)
  | found (f : Option FieldRef)
  | done

/-- The name that was issued to the caller. -/
def Answer.name? : Answer → Option String
  | name x => some x
  | _ => none

namespace Operation

/-- Perform an operation. -/
def run : Operation → StateM Assembler Answer
  | nextName => return .name (← Assembler.nextName)
  | constructorField t => return .field (← Assembler.constructorField t)
  | fixedField t path => return .field (← Assembler.fixedField t path)
  | fieldOfType t => return .found ((← get).fieldOfType? t)
  | addConstructorStatement s => do
    Assembler.addConstructorStatement s
    return .done
  | pushMethod m => do
    Assembler.pushMethod m
    return .done
  | pushEvent e => do
    Assembler.pushEvent e
    return .done

/-- The type whose field is requested, by either function that makes one. -/
def type? : Operation → Option TypeExpr
  | constructorField t => some t
  | fixedField t _ => some t
  | _ => none

/-- Whether an operation may add a member. -/
def addsMember : Operation → Bool
  | constructorField _ | fixedField .. | pushMethod _ | pushEvent _ => true
  | _ => false

/-- Whether an operation may add a statement to the constructor. -/
def addsStatement : Operation → Bool
  | constructorField _ | addConstructorStatement _ => true
  | _ => false

end Operation

/-- An operation that was performed and the answer it got. -/
structure Entry where
  operation : Operation
  answer : Answer

/-- Perform operations one after the other. -/
def history (ops : List Operation) : StateM Assembler (List Entry) :=
  ops.mapM fun op => return ⟨op, ← op.run⟩

variable {a : Assembler} {op : Operation} {e : Entry} {kept entries : List Entry} {t : TypeExpr}

theorem history_snoc (ops : List Operation) (op : Operation) (a : Assembler) :
    history (ops ++ [op]) a =
      ((history ops a).1 ++ [⟨op, (op.run (history ops a).2).1⟩], (op.run (history ops a).2).2) := by
  unfold history
  rw [List.mapM_append]
  rfl

/-! ## First requests -/

/-- The types whose fields were requested. -/
def requested (entries : List Entry) : List TypeExpr :=
  entries.filterMap (·.operation.type?)

/-- An entry is kept unless it requests a type that a kept one requested before. -/
def keepFirst (kept : List Entry) (e : Entry) : List Entry :=
  match e.operation.type? with
  | some t => if t ∈ requested kept then kept else kept ++ [e]
  | none => kept ++ [e]

/-- A history without the repeated requests of a type. -/
def firsts (entries : List Entry) : List Entry :=
  entries.foldl keepFirst []

theorem firsts_snoc (entries : List Entry) (e : Entry) : firsts (entries ++ [e]) = keepFirst (firsts entries) e := by
  unfold firsts
  rw [List.foldl_append]
  rfl

theorem keepFirst_of_mem (ht : e.operation.type? = some t) (h : t ∈ requested kept) : keepFirst kept e = kept := by
  simp only [keepFirst, ht, if_pos h]

theorem keepFirst_of_not_mem (ht : e.operation.type? = some t) (h : t ∉ requested kept) :
    keepFirst kept e = kept ++ [e] := by
  simp only [keepFirst, ht, if_neg h]

theorem keepFirst_of_none (ht : e.operation.type? = none) : keepFirst kept e = kept ++ [e] := by
  simp only [keepFirst, ht]

theorem requested_snoc (kept : List Entry) (e : Entry) :
    requested (kept ++ [e]) = requested kept ++ e.operation.type?.toList := by
  cases h : e.operation.type? <;> simp [requested, h]

theorem nodup_requested_keepFirst (h : (requested kept).Nodup) (e : Entry) : (requested (keepFirst kept e)).Nodup := by
  cases ht : e.operation.type? with
  | none => rwa [keepFirst_of_none ht, requested_snoc, ht, Option.toList_none, List.append_nil]
  | some t =>
    by_cases hmem : t ∈ requested kept
    · rwa [keepFirst_of_mem ht hmem]
    · rw [keepFirst_of_not_mem ht hmem, requested_snoc, ht]
      exact h.append (List.nodup_singleton t) (by simpa using hmem)

/-- No type is requested twice by the entries that are kept. -/
theorem nodup_requested_firsts (entries : List Entry) : (requested (firsts entries)).Nodup := by
  induction entries using List.reverseRecOn with
  | nil => exact List.nodup_nil
  | append_singleton entries e ih =>
    rw [firsts_snoc]
    exact nodup_requested_keepFirst ih e

/-! ## What an entry adds -/

/-- The constructor's parameter that a field is bound from. -/
def Field.injectedParam? (f : Field) : Option Param :=
  match f.init with
  | .fromParam p => some ⟨p, f.type⟩
  | .fixed _ => none

/-- The member an entry added. A new field has the name that was answered and is initialised as requested. -/
inductive Adds : Entry → Member → Prop
  | injected {t : TypeExpr} {name param : String} :
      Adds ⟨.constructorField t, .field ⟨name, t⟩⟩ (.field ⟨name, t, .fromParam param⟩)
  | fixed {t : TypeExpr} {name path : String} :
      Adds ⟨.fixedField t path, .field ⟨name, t⟩⟩ (.field ⟨name, t, .fixed path⟩)
  | method {m : Method} : Adds ⟨.pushMethod m, .done⟩ (.method m)
  | event {e : Event} : Adds ⟨.pushEvent e, .done⟩ (.event e)

/-- The constructor statement an entry added: the assignment of its parameter to a new injected field, or the
    statement itself. -/
inductive Runs (fields : List Field) : Entry → Stmt → Prop
  | injected {t : TypeExpr} {name param : String} : ⟨name, t, .fromParam param⟩ ∈ fields →
      Runs fields ⟨.constructorField t, .field ⟨name, t⟩⟩ (.assign (.field name) (.param param))
  | added {s : Stmt} : Runs fields ⟨.addConstructorStatement s, .done⟩ s

theorem Runs.mono {fields more : List Field} {s : Stmt} (hsub : fields ⊆ more) (h : Runs fields e s) :
    Runs more e s := by
  cases h with
  | injected hmem => exact .injected (hsub hmem)
  | added => exact .added

/-! ## What a class holds -/

open Assembler

/-- A class holds what the kept entries of its history added, and the names in use differ: those of the fields and
    of the constructor's parameters, and the ones issued to the caller. -/
structure Kept (kept : List Entry) (issued : List String) (a : Assembler) : Prop where
  types : a.fields.map (·.type) = requested kept
  members : List.Forall₂ Adds (kept.filter (·.operation.addsMember)) a.members
  params : a.constructor.params = a.fields.filterMap Field.injectedParam?
  body : List.Forall₂ (Runs a.fields) (kept.filter (·.operation.addsStatement)) a.constructor.body
  names : a.names.Apart (a.fields.map (·.name) ++ (a.constructor.params.map (·.name) ++ issued))

variable {issued : List String}

theorem kept_start (namespaceName className stem : String) : Kept [] [] (start namespaceName className stem) where
  types := rfl
  members := .nil
  params := rfl
  body := .nil
  names := ⟨List.nodup_nil, fun _ hx => absurd hx List.not_mem_nil⟩

/-- A type has a field when it was requested. -/
theorem Kept.fieldOfType?_eq_none (h : Kept kept issued a) : a.fieldOfType? t = none ↔ t ∉ requested kept := by
  rw [fieldOfType?_eq, Option.map_eq_none_iff, List.find?_eq_none, ← h.types, List.mem_map]
  simp

theorem perm_snoc_append {α : Type} (xs : List α) (x : α) (ys : List α) :
    (xs ++ [x] ++ ys).Perm (x :: (xs ++ ys)) := by
  rw [List.append_assoc]
  exact List.perm_middle

section Filter

variable {β : Type} {R : Entry → β → Prop} {test : Entry → Bool} {xs : List β} {x : β}

theorem filter_snoc_of_neg (htest : test e = false) : (kept ++ [e]).filter test = kept.filter test := by
  simp [List.filter_append, htest]

theorem forall₂_filter_snoc (h : List.Forall₂ R (kept.filter test) xs) (htest : test e = true) (he : R e x) :
    List.Forall₂ R ((kept ++ [e]).filter test) (xs ++ [x]) := by
  rw [List.filter_append, List.filter_cons_of_pos htest]
  exact List.rel_append h (.cons he .nil)

end Filter

/-- An operation that adds nothing. -/
theorem Kept.idle (h : Kept kept issued a) (htype : e.operation.type? = none)
    (hmember : e.operation.addsMember = false) (hstatement : e.operation.addsStatement = false) :
    Kept (kept ++ [e]) issued a where
  types := by rw [requested_snoc, htype, Option.toList_none, List.append_nil]; exact h.types
  members := by rw [filter_snoc_of_neg hmember]; exact h.members
  params := h.params
  body := by rw [filter_snoc_of_neg hstatement]; exact h.body
  names := h.names

/-- A name that is issued joins those in use. -/
theorem Kept.afterName (h : Kept kept issued a) : Kept kept (issued ++ [a.names.next.1]) a.afterName := by
  refine ⟨h.types, h.members, h.params, h.body, h.names.next.perm ?_⟩
  have hlast := List.perm_append_singleton a.names.next.1
    (a.fields.map (·.name) ++ (a.constructor.params.map (·.name) ++ issued))
  rwa [List.append_assoc, List.append_assoc] at hlast

/-- A statement is added to the constructor. -/
theorem Kept.withStatement (h : Kept kept issued a) (s : Stmt) :
    Kept (kept ++ [⟨.addConstructorStatement s, .done⟩]) issued (a.withStatement s) where
  types := by rw [requested_snoc]; exact h.types.trans (List.append_nil _).symm
  members := by rw [filter_snoc_of_neg rfl]; exact h.members
  params := h.params
  body := forall₂_filter_snoc h.body rfl .added
  names := h.names

/-- A method or an event is added. -/
theorem Kept.withMember {m : Member} (h : Kept kept issued a) (hadds : Adds e m) (hfield : m.field? = none)
    (htype : e.operation.type? = none) (hmember : e.operation.addsMember = true)
    (hstatement : e.operation.addsStatement = false) : Kept (kept ++ [e]) issued (a.withMember m) := by
  have hfields : (a.withMember m).fields = a.fields := by
    rw [fields_withMember, hfield, Option.toList_none, List.append_nil]
  refine ⟨?_, forall₂_filter_snoc h.members hmember hadds, ?_, ?_, ?_⟩
  · rw [hfields, requested_snoc, htype, Option.toList_none, List.append_nil]
    exact h.types
  · rw [hfields]
    exact h.params
  · rw [hfields, filter_snoc_of_neg hstatement]
    exact h.body
  · rw [hfields]
    exact h.names

/-- A field with a path of the host is added. -/
theorem Kept.withFixed (h : Kept kept issued a) (t : TypeExpr) (path : String) :
    Kept (kept ++ [⟨.fixedField t path, .field ⟨a.names.next.1, t⟩⟩]) issued
      (a.afterName.withMember (.field ⟨a.names.next.1, t, .fixed path⟩)) := by
  let f : Field := ⟨a.names.next.1, t, .fixed path⟩
  have hfields : (a.afterName.withMember (.field f)).fields = a.fields ++ [f] := fields_withMember _
  refine ⟨?_, forall₂_filter_snoc h.members rfl .fixed, ?_, ?_, ?_⟩
  · rw [hfields, requested_snoc, List.map_append, h.types]
    rfl
  · rw [hfields, List.filterMap_append, ← h.params]
    exact (List.append_nil _).symm
  · rw [hfields, filter_snoc_of_neg rfl]
    exact h.body.imp fun _ _ hruns => hruns.mono (List.subset_append_left _ _)
  · refine h.names.next.perm ?_
    rw [hfields, List.map_append]
    exact perm_snoc_append _ _ _

/-- A field with a parameter of the constructor is added. -/
theorem Kept.withInjected (h : Kept kept issued a) (t : TypeExpr) :
    Kept (kept ++ [⟨.constructorField t, .field ⟨a.afterName.names.next.1, t⟩⟩]) issued
      (((a.afterName.withParam ⟨a.names.next.1, t⟩).afterName.withMember
          (.field ⟨a.afterName.names.next.1, t, .fromParam a.names.next.1⟩)).withStatement
            (.assign (.field a.afterName.names.next.1) (.param a.names.next.1))) := by
  let p : Param := ⟨a.names.next.1, t⟩
  let f : Field := ⟨a.afterName.names.next.1, t, .fromParam p.name⟩
  let b := (a.afterName.withParam p).afterName.withMember (.field f)
  have hfields : b.fields = a.fields ++ [f] := fields_withMember _
  have hparams : b.constructor.params = a.constructor.params ++ [p] := rfl
  refine ⟨?_, forall₂_filter_snoc h.members rfl .injected, ?_, ?_, ?_⟩
  · show b.fields.map (·.type) = _
    rw [hfields, requested_snoc, List.map_append, h.types]
    rfl
  · show b.constructor.params = b.fields.filterMap Field.injectedParam?
    rw [hparams, hfields, List.filterMap_append, h.params]
    rfl
  · show List.Forall₂ (Runs b.fields) _ (a.constructor.body ++ [_])
    have hmem : f ∈ b.fields := by rw [hfields]; exact List.mem_append_right _ (List.mem_singleton_self f)
    refine forall₂_filter_snoc ?_ rfl (.injected hmem)
    rw [hfields]
    exact h.body.imp fun _ _ hruns => hruns.mono (List.subset_append_left _ _)
  · -- two names are issued, the parameter's and then the field's
    refine h.names.next.next.perm ?_
    show (b.fields.map (·.name) ++ (b.constructor.params.map (·.name) ++ issued)).Perm _
    rw [hfields, hparams, List.map_append, List.map_append]
    have hparam : (a.fields.map (·.name) ++ (a.constructor.params.map (·.name) ++ [p.name] ++ issued)).Perm
        (p.name :: (a.fields.map (·.name) ++ (a.constructor.params.map (·.name) ++ issued))) :=
      ((perm_snoc_append _ _ _).append_left _).trans List.perm_middle
    exact (perm_snoc_append _ _ _).trans (hparam.cons f.name)

/-! ## Steps -/

theorem run_constructorField (t : TypeExpr) (a : Assembler) :
    (Operation.constructorField t).run a = (.field (constructorField t a).1, (constructorField t a).2) := rfl

theorem run_fixedField (t : TypeExpr) (path : String) (a : Assembler) :
    (Operation.fixedField t path).run a = (.field (fixedField t path a).1, (fixedField t path a).2) := rfl

theorem append_unnamed {r : Answer} (h : r.name? = none) (issued : List String) :
    issued ++ r.name?.toList = issued := by
  rw [h]
  exact List.append_nil issued

/-- **Asking again.** A type that has a field already gets that field, by either function, and nothing changes. -/
theorem run_of_fieldOfType? {r : FieldRef} (htype : op.type? = some t) (hfield : a.fieldOfType? t = some r) :
    op.run a = (.field r, a) := by
  cases op with
  | constructorField u =>
    obtain rfl := Option.some.inj htype
    rw [run_constructorField, constructorField_of_some hfield]
  | fixedField u path =>
    obtain rfl := Option.some.inj htype
    rw [run_fixedField, fixedField_of_some hfield]
  | _ => cases htype

/-- An operation that asks for no field adds what its entry says. -/
theorem Kept.step_of_type?_eq_none (h : Kept kept issued a) (htype : op.type? = none) :
    Kept (kept ++ [⟨op, (op.run a).1⟩]) (issued ++ (op.run a).1.name?.toList) (op.run a).2 := by
  cases op with
  | nextName => exact h.afterName.idle rfl rfl rfl
  | fieldOfType u =>
    rw [append_unnamed rfl]
    exact h.idle rfl rfl rfl
  | addConstructorStatement s =>
    rw [append_unnamed rfl]
    exact h.withStatement s
  | pushMethod m =>
    rw [append_unnamed rfl]
    exact h.withMember .method rfl rfl rfl rfl
  | pushEvent ev =>
    rw [append_unnamed rfl]
    exact h.withMember .event rfl rfl rfl rfl
  | constructorField u => cases htype
  | fixedField u path => cases htype

/-- The first request of a type adds its field. -/
theorem Kept.step_of_fieldOfType?_eq_none (h : Kept kept issued a) (htype : op.type? = some t)
    (hfield : a.fieldOfType? t = none) :
    Kept (kept ++ [⟨op, (op.run a).1⟩]) (issued ++ (op.run a).1.name?.toList) (op.run a).2 := by
  cases op with
  | constructorField u =>
    obtain rfl := Option.some.inj htype
    rw [run_constructorField, constructorField_of_none hfield, append_unnamed rfl]
    exact h.withInjected u
  | fixedField u path =>
    obtain rfl := Option.some.inj htype
    rw [run_fixedField, fixedField_of_none hfield, append_unnamed rfl]
    exact h.withFixed u path
  | _ => cases htype

/-- **Every operation** adds what its entry says, or repeats a request and adds nothing. -/
theorem Kept.step (h : Kept kept issued a) (op : Operation) :
    Kept (keepFirst kept ⟨op, (op.run a).1⟩) (issued ++ (op.run a).1.name?.toList) (op.run a).2 := by
  cases htype : op.type? with
  | none =>
    rw [keepFirst_of_none htype]
    exact h.step_of_type?_eq_none htype
  | some t =>
    -- the class has a field of the type exactly when a kept entry requested it
    cases hfield : a.fieldOfType? t with
    | none =>
      rw [keepFirst_of_not_mem htype (h.fieldOfType?_eq_none.mp hfield)]
      exact h.step_of_fieldOfType?_eq_none htype hfield
    | some r =>
      have hmem : t ∈ requested kept := by
        by_contra hnew
        rw [h.fieldOfType?_eq_none.mpr hnew] at hfield
        cases hfield
      rw [keepFirst_of_mem htype hmem, run_of_fieldOfType? htype hfield, append_unnamed rfl]
      exact h

/-- The names issued to the caller of a history. -/
def issuedNames (entries : List Entry) : List String :=
  entries.filterMap (·.answer.name?)

theorem issuedNames_snoc (entries : List Entry) (e : Entry) :
    issuedNames (entries ++ [e]) = issuedNames entries ++ e.answer.name?.toList := by
  cases h : e.answer.name? <;> simp [issuedNames, h]

/-- **Every history** leaves the class with what its entries added. -/
theorem kept_history (h : Kept [] [] a) (ops : List Operation) :
    Kept (firsts (history ops a).1) (issuedNames (history ops a).1) (history ops a).2 := by
  induction ops using List.reverseRecOn with
  | nil => exact h
  | append_singleton ops op ih =>
    rw [history_snoc, firsts_snoc, issuedNames_snoc]
    exact ih.step op

/-! ## Repeated requests -/

/-- The operation of an entry, if it asks for a field, got the field of its type. -/
def Answered (a : Assembler) (e : Entry) : Prop :=
  ∀ t, e.operation.type? = some t → ∃ r, e.answer = .field r ∧ a.fieldOfType? t = some r

/-- The first request of a type adds one field, the one that is answered. -/
theorem fields_run_request (htype : op.type? = some t) (hfield : a.fieldOfType? t = none) :
    ∃ f : Field, f.type = t ∧ (op.run a).1 = .field ⟨f.name, t⟩ ∧ (op.run a).2.fields = a.fields ++ [f] := by
  cases op with
  | constructorField u =>
    obtain rfl := Option.some.inj htype
    rw [run_constructorField, constructorField_of_none hfield]
    exact ⟨_, rfl, rfl, fields_withMember _⟩
  | fixedField u path =>
    obtain rfl := Option.some.inj htype
    rw [run_fixedField, fixedField_of_none hfield]
    exact ⟨_, rfl, rfl, fields_withMember _⟩
  | _ => cases htype

theorem fields_prefix_run (op : Operation) (a : Assembler) : a.fields <+: (op.run a).2.fields := by
  cases htype : op.type? with
  | some t =>
    cases hfield : a.fieldOfType? t with
    | some r =>
      have hsame : (op.run a).2.fields = a.fields := by rw [run_of_fieldOfType? htype hfield]
      exact hsame ▸ List.prefix_refl a.fields
    | none =>
      obtain ⟨f, -, -, hfields⟩ := fields_run_request htype hfield
      rw [hfields]
      exact List.prefix_append _ _
  | none =>
    cases op with
    | pushMethod m => exact (grows_withMember a (.method m) rfl).fields
    | pushEvent ev => exact (grows_withMember a (.event ev) rfl).fields
    | constructorField u => cases htype
    | fixedField u path => cases htype
    | _ => exact List.prefix_refl _

/-- A request gets the first field of its type, old or new. -/
theorem answered_run (op : Operation) (a : Assembler) : Answered (op.run a).2 ⟨op, (op.run a).1⟩ := by
  intro t htype
  cases hfield : a.fieldOfType? t with
  | some r =>
    rw [run_of_fieldOfType? htype hfield]
    exact ⟨r, rfl, hfield⟩
  | none =>
    obtain ⟨f, rfl, hanswer, hfields⟩ := fields_run_request htype hfield
    refine ⟨_, hanswer, ?_⟩
    rw [fieldOfType?_eq, Option.map_eq_none_iff] at hfield
    rw [fieldOfType?_eq, hfields, List.find?_append, hfield]
    simp

theorem Answered.run (h : Answered a e) (op : Operation) : Answered (op.run a).2 e := by
  intro t htype
  obtain ⟨r, hanswer, hfield⟩ := h t htype
  rw [fieldOfType?_eq] at hfield
  obtain ⟨f, hfind, rfl⟩ := Option.map_eq_some_iff.mp hfield
  refine ⟨_, hanswer, ?_⟩
  rw [fieldOfType?_eq, (fields_prefix_run op a).find?_eq_some hfind, Option.map_some]

/-- Every request of a history got the field its type has in the end. -/
theorem answered_history (ops : List Operation) (a : Assembler) :
    ∀ e ∈ (history ops a).1, Answered (history ops a).2 e := by
  induction ops using List.reverseRecOn with
  | nil => exact fun _ he => absurd he List.not_mem_nil
  | append_singleton ops op ih =>
    rw [history_snoc]
    intro e he
    rcases List.mem_append.mp he with he | he
    · exact (ih e he).run op
    · rw [List.mem_singleton.mp he]
      exact answered_run op _

/-! ## The finished class -/

/-- **What operations leave behind**, whatever they were and in whatever order.

    No two fields share a type. The names of the fields, of the constructor's parameters and those issued to the
    caller differ from each other. The members are those the first requests and the additions made, in order, with
    the constructor after them; its parameters are those of the injected fields, in order, and its statements are
    the assignment each injected field came with and the ones that were added, in order. Whoever asks for a field
    again gets the answer of before, and nothing changes. -/
theorem finish_history (namespaceName className stem : String) (ops : List Operation) :
    ∃ (entries : List Entry) (a : Assembler) (added : List Member) (c : Constructor),
      history ops (start namespaceName className stem) = (entries, a) ∧
      a.finish.members = added ++ [.constructor c] ∧
      (a.finish.fields.map (·.type)).Nodup ∧
      (a.finish.fields.map (·.name) ++ (c.params.map (·.name) ++ issuedNames entries)).Nodup ∧
      List.Forall₂ Adds ((firsts entries).filter (·.operation.addsMember)) added ∧
      c.params = a.finish.fields.filterMap Field.injectedParam? ∧
      List.Forall₂ (Runs a.finish.fields) ((firsts entries).filter (·.operation.addsStatement)) c.body ∧
      ∀ e ∈ entries, ∀ t, e.operation.type? = some t →
        (∀ op : Operation, op.type? = some t → op.run a = (e.answer, a)) ∧
        ∃ r, e.answer = .field r ∧ (Operation.fieldOfType t).run a = (.found (some r), a) := by
  have hkept := kept_history (kept_start namespaceName className stem) ops
  have hanswered := answered_history ops (start namespaceName className stem)
  set entries := (history ops (start namespaceName className stem)).1
  set a := (history ops (start namespaceName className stem)).2
  refine ⟨entries, a, a.members, a.constructor, rfl, rfl, ?_, ?_, hkept.members, ?_, ?_, ?_⟩
  · rw [fields_finish, hkept.types]
    exact nodup_requested_firsts entries
  · rw [fields_finish]
    exact hkept.names.nodup
  · rw [fields_finish]
    exact hkept.params
  · rw [fields_finish]
    exact hkept.body
  · intro e he t htype
    obtain ⟨r, hanswer, hfield⟩ := hanswered e he t htype
    refine ⟨?_, r, hanswer, ?_⟩
    · intro op hop
      rw [hanswer]
      exact run_of_fieldOfType? hop hfield
    · show (Answer.found (a.fieldOfType? t), a) = _
      rw [hfield]

/-- A field that the constructor injects is not replaced by one with a path of the host. -/
theorem finish_history_injected : ∃ (a : Assembler) (r : FieldRef),
    (history [.constructorField (.named "Ns.IHost"), .nextName] (start "Ns" "HostSvc" "var")).2 = a ∧
      (Operation.fixedField (.named "Ns.IHost") "Host.Current").run a = (.field r, a) := by
  obtain ⟨entries, a, added, c, hrun, -, -, -, -, -, -, hagain⟩ :=
    finish_history "Ns" "HostSvc" "var" [.constructorField (.named "Ns.IHost"), .nextName]
  have hmem : ∃ r, ⟨.constructorField (.named "Ns.IHost"), .field r⟩ ∈
      (history [.constructorField (.named "Ns.IHost"), .nextName] (start "Ns" "HostSvc" "var")).1 :=
    ⟨_, List.mem_cons_self⟩
  rw [hrun] at hmem ⊢
  obtain ⟨r, hr⟩ := hmem
  exact ⟨a, r, rfl, (hagain _ hr _ rfl).1 (.fixedField _ "Host.Current") rfl⟩

end Proxy

end BoundaryProxy
