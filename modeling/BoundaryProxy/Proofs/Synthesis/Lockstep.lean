import BoundaryProxy.Proofs.Proxy.Twin
import BoundaryProxy.Proofs.Synthesis.Session

/-!
# `Proofs.Synthesis.Lockstep` — two sessions that take the same steps

`Lockstep I R ρ₀ f g`: from states that `I` relates under a pairing that has grown from `ρ₀`, the steps `f` and `g`
lead to states that `I` relates again and to results that `R` relates, both under a pairing that has grown further.
The rules `Lockstep.pure`, `Lockstep.bind`, `Lockstep.mapM` and `Lockstep.forM` carry this through programs; what is
left is one lemma a rule of synthesis, which puts what the two steps produced side by side.

Drafts are related when their classes are twins and their methods agree, sessions when their classes are twins.
`convertFamily_lockstep`: converting a family keeps two sessions in lockstep.
-/

namespace BoundaryProxy.Synthesis

open Proxy Proxy.Assembler Pairing

/-! ## Rules -/

section Rules

variable {S α β γ : Type}

/-- The steps keep related states related and have related results, under pairings that only grow. -/
def Lockstep (I : Pairing → S → S → Prop) (R : Pairing → α → α → Prop) (ρ₀ : Pairing) (f g : StateM S α) : Prop :=
  ∀ ρ s t, ρ₀ ⊆ ρ → I ρ s t → ∃ ρ', ρ ⊆ ρ' ∧ R ρ' (f s).1 (g t).1 ∧ I ρ' (f s).2 (g t).2

/-- Results that are not compared. -/
def Any (_ : Pairing) (_ _ : α) : Prop :=
  True

namespace Lockstep

variable {I : Pairing → S → S → Prop} {R : Pairing → α → α → Prop} {Q : Pairing → β → β → Prop} {ρ₀ ρ₁ : Pairing}

theorem mono {f g : StateM S α} (h : Lockstep I R ρ₀ f g) (hρ : ρ₀ ⊆ ρ₁) : Lockstep I R ρ₁ f g :=
  fun ρ s t hgrown hI => h ρ s t (List.Subset.trans hρ hgrown) hI

theorem pure {x y : α} (h : ∀ ρ, ρ₀ ⊆ ρ → R ρ x y) : Lockstep I R ρ₀ (Pure.pure x) (Pure.pure y) :=
  fun ρ _ _ hgrown hI => ⟨ρ, List.Subset.refl ρ, h ρ hgrown, hI⟩

theorem bind {f g : StateM S α} {k l : α → StateM S β} (h : Lockstep I R ρ₀ f g)
    (hk : ∀ ρ x y, ρ₀ ⊆ ρ → R ρ x y → Lockstep I Q ρ (k x) (l y)) : Lockstep I Q ρ₀ (f >>= k) (g >>= l) := by
  intro ρ s t hgrown hI
  obtain ⟨ρ₁, hρ₁, hR, hI₁⟩ := h ρ s t hgrown hI
  obtain ⟨ρ₂, hρ₂, hQ, hI₂⟩ := hk ρ₁ _ _ (List.Subset.trans hgrown hρ₁) hR ρ₁ _ _ (List.Subset.refl ρ₁) hI₁
  exact ⟨ρ₂, List.Subset.trans hρ₁ hρ₂, hQ, hI₂⟩

/-- One step after another, where the second does not look at the result of the first. -/
theorem seq {f g : StateM S α} {k l : StateM S β} (h : Lockstep I R ρ₀ f g) (hk : Lockstep I Q ρ₀ k l) :
    Lockstep I Q ρ₀ (do let _ ← f; k) (do let _ ← g; l) :=
  h.bind fun _ _ _ hgrown _ => hk.mono hgrown

/-- A loop that collects results, if those of each step agree. -/
theorem mapM {renamed : (String → String) → β → β} {step : α → StateM S β}
    (h : ∀ x, Lockstep I (Agree renamed) ρ₀ (step x) (step x)) (xs : List α) :
    Lockstep I (Agree (each renamed)) ρ₀ (xs.mapM step) (xs.mapM step) := by
  induction xs generalizing ρ₀ with
  | nil => exact .pure fun _ _ => .nil
  | cons x xs ih =>
    rw [List.mapM_cons]
    refine (h x).bind fun ρ₁ y z hρ₁ hy => ?_
    refine (ih fun x => (h x).mono hρ₁).bind fun ρ₂ ys zs hρ₂ hys => ?_
    exact .pure fun ρ hgrown => (hy.mono (List.Subset.trans hρ₂ hgrown)).cons (hys.mono hgrown)

/-- A loop whose results are not collected. -/
theorem forM {step : α → StateM S Unit} (h : ∀ x, Lockstep I Any ρ₀ (step x) (step x)) (xs : List α) :
    Lockstep I Any ρ₀ (xs.forM step) (xs.forM step) := by
  induction xs with
  | nil => exact .pure fun _ _ => trivial
  | cons x xs ih => exact (h x).seq ih

end Lockstep

end Rules

/-! ## Drafts -/

namespace Draft

variable {b₀ : Assembler} {ρ₀ : Pairing}

/-- The classes are twins and the methods agree. -/
structure Twin (b₀ : Assembler) (ρ : Pairing) (d e : Draft) : Prop where
  unit : b₀.Twin ρ d.unit e.unit
  method : Agree Method.renamed ρ d.method e.method

/-- The results are names that are paired. -/
def Paired (ρ : Pairing) (x y : String) : Prop :=
  (x, y) ∈ ρ

/-- The results are fields whose names are paired. -/
def PairedFields (ρ : Pairing) (f g : FieldRef) : Prop :=
  (f.name, g.name) ∈ ρ

theorem freshName_lockstep : Lockstep (Twin b₀) Paired ρ₀ freshName freshName :=
  fun _ _ _ _ h => ⟨_, List.subset_cons_self _ _, List.mem_cons_self,
    h.unit.fresh, h.method.mono (List.subset_cons_self _ _)⟩

theorem addParam_lockstep {p q : Param} (hp : Agree Param.renamed ρ₀ p q) :
    Lockstep (Twin b₀) Any ρ₀ (addParam p) (addParam q) :=
  fun ρ _ _ hgrown h =>
    ⟨ρ, List.Subset.refl ρ, trivial, h.unit, agree_addParam h.method (hp.mono hgrown)⟩

theorem addStmt_lockstep {s u : Stmt} (hs : Agree Stmt.renamed ρ₀ s u) :
    Lockstep (Twin b₀) Any ρ₀ (addStmt s) (addStmt u) :=
  fun ρ _ _ hgrown h =>
    ⟨ρ, List.Subset.refl ρ, trivial, h.unit, agree_addStmt h.method (hs.mono hgrown)⟩

theorem setReturns_lockstep (t : TypeExpr) : Lockstep (Twin b₀) Any ρ₀ (setReturns t) (setReturns t) :=
  fun ρ _ _ _ h => ⟨ρ, List.Subset.refl ρ, trivial, h.unit, agree_setReturns t h.method⟩

theorem constructorField_lockstep (t : TypeExpr) :
    Lockstep (Twin b₀) PairedFields ρ₀ (onUnit (constructorField t)) (onUnit (constructorField t)) := by
  intro ρ d e _ h
  obtain ⟨ρ', hgrown, hpair, htwin⟩ := h.unit.constructorField t
  exact ⟨ρ', hgrown, hpair, htwin, h.method.mono hgrown⟩

/-! ## Values that cross -/

theorem resolve_lockstep (descriptor : RegistryDescriptor) {f g : FieldRef} (h : PairedFields ρ₀ f g) :
    Lockstep (Twin b₀) (Agree Expr.renamed) ρ₀ (resolve descriptor f) (resolve descriptor g) := by
  refine freshName_lockstep.bind fun ρ₁ key key' hρ₁ hkey => ?_
  refine (addParam_lockstep (agree_newParam _ hkey)).seq ?_
  refine freshName_lockstep.bind fun ρ₂ object object' hρ₂ hobject => ?_
  have hlookup : Agree Expr.renamed ρ₂ (.index f.expr [.param key]) (.index g.expr [.param key']) :=
    agree_index (agree_field (hρ₂ (hρ₁ h))) (.cons (agree_param (hρ₂ hkey)) .nil)
  refine (addStmt_lockstep (agree_declare _ hobject hlookup)).seq ?_
  exact .pure fun ρ hgrown => agree_localVar (hgrown hobject)

theorem incoming_lockstep (r : RegistrySet) (p : Parameter) :
    Lockstep (Twin b₀) (Agree Expr.renamed) ρ₀ (incoming r p) (incoming r p) := by
  unfold incoming
  cases r.byMember? p.type with
  | some descriptor =>
    exact (constructorField_lockstep _).bind fun ρ₁ f g _ hfield => resolve_lockstep descriptor hfield
  | none =>
    refine freshName_lockstep.bind fun ρ₁ name name' _ hname => ?_
    refine (addParam_lockstep (agree_newParam _ hname)).seq ?_
    exact .pure fun ρ hgrown => agree_param (hgrown hname)

theorem argument_lockstep (r : RegistrySet) (p : Parameter) :
    Lockstep (Twin b₀) (Agree Arg.renamed) ρ₀ (argument r p) (argument r p) := by
  unfold argument
  cases p.isOut with
  | true => exact .pure fun _ _ => agree_discard
  | false =>
    refine (incoming_lockstep r p).bind fun ρ₁ e e' _ he => ?_
    exact .pure fun ρ hgrown => agree_value (he.mono hgrown)

variable {e e' : Expr}

theorem returnRead_lockstep (r : RegistrySet) (he : Agree Expr.renamed ρ₀ e e') (t : TypeExpr) :
    Lockstep (Twin b₀) Any ρ₀ (returnRead r e t) (returnRead r e' t) := by
  unfold returnRead
  cases r.byMember? t with
  | some descriptor =>
    exact (setReturns_lockstep _).seq (addStmt_lockstep (agree_return (agree_property he _)))
  | none => exact addStmt_lockstep (agree_return he)

theorem returnCall_lockstep (r : RegistrySet) (he : Agree Expr.renamed ρ₀ e e') (t : TypeExpr) :
    Lockstep (Twin b₀) Any ρ₀ (returnCall r e t) (returnCall r e' t) := by
  unfold returnCall
  cases t.isVoid with
  | true => exact addStmt_lockstep (agree_expr he)
  | false =>
    cases r.byMember? t with
    | none => exact addStmt_lockstep (agree_return he)
    | some descriptor =>
      refine freshName_lockstep.bind fun ρ₁ object object' hρ₁ hobject => ?_
      refine (addStmt_lockstep (agree_declare t hobject (he.mono hρ₁))).seq ?_
      refine (setReturns_lockstep _).seq (addStmt_lockstep (agree_return ?_))
      exact agree_property (agree_localVar hobject) _

end Draft

/-! ## Members -/

section Members

open Draft

variable {b₀ : Assembler} {ρ₀ : Pairing} {s : Subject}

/-- What every method begins with is reached through the subject's field. -/
theorem target_lockstep (hs : PairedFields ρ₀ s.field s.field) :
    Lockstep (Draft.Twin b₀) (Agree Expr.renamed) ρ₀ s.target s.target := by
  unfold Subject.target
  cases s.access.member? with
  | some descriptor => exact resolve_lockstep descriptor hs
  | none => exact .pure fun ρ hgrown => agree_field (hgrown hs)

theorem slot_lockstep (s : Subject) (accessor : String) (keys : List Parameter) {e e' : Expr}
    (he : Agree Expr.renamed ρ₀ e e') :
    Lockstep (Draft.Twin b₀) (Agree Expr.renamed) ρ₀ (s.slot accessor keys e) (s.slot accessor keys e') := by
  unfold Subject.slot
  cases keys.isEmpty with
  | true => exact .pure fun ρ hgrown => agree_property (he.mono hgrown) _
  | false =>
    refine (Lockstep.mapM (incoming_lockstep s.registries) keys).bind fun ρ₁ ks ks' hρ₁ hks => ?_
    exact .pure fun ρ hgrown => agree_index (he.mono (List.Subset.trans hρ₁ hgrown)) (hks.mono hgrown)

theorem writeGetter_lockstep (hs : PairedFields ρ₀ s.field s.field) (g : MethodDecl) :
    Lockstep (Draft.Twin b₀) Any ρ₀ (s.writeGetter g) (s.writeGetter g) := by
  refine (target_lockstep hs).bind fun ρ₁ e e' hρ₁ he => ?_
  refine (slot_lockstep s g.name g.params he).bind fun ρ₂ k k' hρ₂ hk => ?_
  exact returnRead_lockstep s.registries hk g.returns

theorem writeSetter_lockstep (hs : PairedFields ρ₀ s.field s.field) (m : MethodDecl) (keys : List Parameter)
    (value : Parameter) :
    Lockstep (Draft.Twin b₀) Any ρ₀ (s.writeSetter m keys value) (s.writeSetter m keys value) := by
  refine (target_lockstep hs).bind fun ρ₁ e e' hρ₁ he => ?_
  refine (slot_lockstep s m.name keys he).bind fun ρ₂ k k' hρ₂ hk => ?_
  refine (incoming_lockstep s.registries value).bind fun ρ₃ v v' hρ₃ hv => ?_
  exact addStmt_lockstep (agree_assign (hk.mono hρ₃) hv)

theorem writeCall_lockstep (hs : PairedFields ρ₀ s.field s.field) (m : MethodDecl) :
    Lockstep (Draft.Twin b₀) Any ρ₀ (s.writeCall m) (s.writeCall m) := by
  refine (target_lockstep hs).bind fun ρ₁ e e' hρ₁ he => ?_
  refine (Lockstep.mapM (argument_lockstep s.registries) m.params).bind fun ρ₂ as as' hρ₂ has => ?_
  exact returnCall_lockstep s.registries (agree_invoke (he.mono hρ₂) m.name has) m.returns

theorem writeRaise_lockstep (e : EventDecl) :
    Lockstep (Draft.Twin b₀) Any ρ₀ (Subject.writeRaise e) (Subject.writeRaise e) := by
  have hnull : ∀ ρ, Agree Expr.renamed ρ .null .null := fun ρ rename _ => by rw [Expr.renamed]
  unfold Subject.writeRaise
  cases e.payload with
  | none => exact addStmt_lockstep (agree_raise _ ((hnull _).cons ((hnull _).cons .nil)))
  | some payload =>
    refine freshName_lockstep.bind fun ρ₁ name name' _ hname => ?_
    refine (addParam_lockstep (agree_newParam payload hname)).seq ?_
    exact addStmt_lockstep (agree_raise _ ((hnull _).cons ((agree_param hname).cons .nil)))

end Members

/-! ## Sessions -/

section Sessions

open Draft

variable {b₀ : Assembler} {ρ₀ : Pairing} {s : Subject}

/-- The classes are twins. -/
def Session.Twin (b₀ : Assembler) (ρ : Pairing) (σ τ : Session) : Prop :=
  b₀.Twin ρ σ.unit τ.unit

/-- A step that leaves the class as it is. -/
theorem still_lockstep {step : StateM Session Unit} (h : ∀ σ, (step σ).2.unit = σ.unit) :
    Lockstep (Session.Twin b₀) Any ρ₀ step step := by
  intro ρ σ τ _ htwin
  refine ⟨ρ, List.Subset.refl ρ, trivial, ?_⟩
  rw [Session.Twin, h, h]
  exact htwin

/-- A method that is written in lockstep is added in lockstep. -/
theorem addMethod_lockstep (name : String) (returns : TypeExpr) {write : StateM Draft Unit}
    (h : Lockstep (Draft.Twin b₀) Any ρ₀ write write) :
    Lockstep (Session.Twin b₀) Any ρ₀ (Session.addMethod name returns write)
      (Session.addMethod name returns write) := by
  intro ρ σ τ hgrown htwin
  obtain ⟨ρ', hgrown', -, hunit, hmethod⟩ := h ρ ⟨σ.unit, { name, returns }⟩ ⟨τ.unit, { name, returns }⟩ hgrown
    ⟨htwin, agree_newMethod name returns⟩
  exact ⟨ρ', hgrown', trivial, hunit.pushMethod hmethod⟩

theorem reportLeak_lockstep (s : Subject) (member : String) (t : TypeExpr) :
    Lockstep (Session.Twin b₀) Any ρ₀ (s.reportLeak member t) (s.reportLeak member t) :=
  still_lockstep (reportLeak_unit s member t)

theorem report_lockstep (n : Notice) :
    Lockstep (Session.Twin b₀) Any ρ₀ (Session.report n) (Session.report n) :=
  still_lockstep fun _ => rfl

theorem addGetter_lockstep (hs : PairedFields ρ₀ s.field s.field) (g : MethodDecl) :
    Lockstep (Session.Twin b₀) Any ρ₀ (s.addGetter g) (s.addGetter g) :=
  (reportLeak_lockstep s _ _).seq (addMethod_lockstep _ _ (writeGetter_lockstep hs g))

theorem addSetter_lockstep (hs : PairedFields ρ₀ s.field s.field) (m : MethodDecl) :
    Lockstep (Session.Twin b₀) Any ρ₀ (s.addSetter m) (s.addSetter m) := by
  unfold Subject.addSetter
  cases m.params.getLast? with
  | none => exact report_lockstep _
  | some value => exact addMethod_lockstep _ _ (writeSetter_lockstep hs m _ value)

theorem convertMethod_lockstep (hs : PairedFields ρ₀ s.field s.field) (m : MethodDecl) :
    Lockstep (Session.Twin b₀) Any ρ₀ (s.convertMethod m) (s.convertMethod m) :=
  (reportLeak_lockstep s _ _).seq
    ((Lockstep.forM (fun _ => report_lockstep _) _).seq (addMethod_lockstep _ _ (writeCall_lockstep hs m)))

theorem forwardEvent_lockstep (hs : PairedFields ρ₀ s.field s.field) (e : EventDecl) :
    Lockstep (Session.Twin b₀) Any ρ₀ (s.forwardEvent e) (s.forwardEvent e) := by
  have hdeclared : Lockstep (Session.Twin b₀) Any ρ₀
      (Session.onUnit (pushEvent ⟨e.name, Subject.overPayload "System.EventHandler" e⟩))
      (Session.onUnit (pushEvent ⟨e.name, Subject.overPayload "System.EventHandler" e⟩)) :=
    fun ρ _ _ _ htwin => ⟨ρ, List.Subset.refl ρ, trivial, htwin.pushEvent _⟩
  let attach : Stmt := .attach s.field.expr e.name
    (.new (Subject.overPayload s.profile.eventProxy e) [.methodRef (Subject.raiseName e)])
  have hattached : Lockstep (Session.Twin b₀) Any ρ₀ (Session.onUnit (addConstructorStatement attach))
      (Session.onUnit (addConstructorStatement attach)) :=
    fun ρ _ _ hgrown htwin => ⟨ρ, List.Subset.refl ρ, trivial,
      htwin.attach (agree_attach (agree_field (hgrown hs)) _ _ _) ⟨rfl, rfl⟩⟩
  exact hdeclared.seq ((addMethod_lockstep _ _ (writeRaise_lockstep e)).seq hattached)

theorem addEvents_lockstep (hs : PairedFields ρ₀ s.field s.field) (events : List EventDecl) :
    Lockstep (Session.Twin b₀) Any ρ₀ (s.addEvents events) (s.addEvents events) := by
  rcases addEvents_cases s events with ⟨-, hrun⟩ | ⟨-, -, hrun⟩ | ⟨-, -, hrun⟩
  · rw [hrun]
    exact .pure fun _ _ => trivial
  · rw [hrun]
    exact report_lockstep _
  · rw [hrun]
    exact .forM (forwardEvent_lockstep hs) events

/-- **Converting a family** keeps two sessions in lockstep. -/
theorem convertFamily_lockstep (hs : PairedFields ρ₀ s.field s.field) (members : MemberSet) (f : Family) :
    Lockstep (Session.Twin b₀) Any ρ₀ (ProxySpec.convertFamily s members f)
      (ProxySpec.convertFamily s members f) := by
  cases f with
  | getters => exact .forM (addGetter_lockstep hs) members.getters
  | setters => exact .forM (addSetter_lockstep hs) members.setters
  | methods =>
    exact (Lockstep.forM (fun _ => report_lockstep _) members.rejected).seq
      (.forM (convertMethod_lockstep hs) members.methods)
  | events => exact addEvents_lockstep hs members.events

end Sessions

end BoundaryProxy.Synthesis
