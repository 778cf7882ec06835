import BoundaryProxy.Proofs.Proxy.Twin
import BoundaryProxy.Synthesis.Basic

/-!
# `Proofs.Synthesis.Frame` — what converting accessors and methods leaves alone

Writing the method of an accessor or of a method may issue names and inject fields, and nothing else happens to the
class. `Assembler.Frame a b` says what such steps leave alone: the class's name, the events, the attached handlers, the
methods that raise events, and the constructor's statements so far, behind which others may be added.

The relation is reflexive and transitive, so a step frames the class if its parts do: one lemma a conversion rule, for
drafts (`Draft.Frames`) and for sessions (`Session.Frames`). Only the forwarding of events is not among the rules.
-/

namespace BoundaryProxy

namespace Proxy

/-- Whether a statement notifies the handlers of an event. -/
def Stmt.isRaise : Stmt → Bool
  | .raise .. => true
  | _ => false

/-- Whether a method notifies the handlers of an event. -/
def Method.raisesEvent (m : Method) : Bool :=
  m.body.any Stmt.isRaise

namespace Assembler

variable {a b c : Assembler}

/-- What steps that forward no event leave alone. -/
structure Frame (a b : Assembler) : Prop where
  className : b.className = a.className
  events : b.events = a.events
  raising : b.methods.filter Method.raisesEvent = a.methods.filter Method.raisesEvent
  body : a.constructor.body <+: b.constructor.body
  attachments : b.attachments = a.attachments

theorem Frame.refl (a : Assembler) : Frame a a :=
  ⟨rfl, rfl, rfl, List.prefix_refl _, rfl⟩

theorem Frame.trans (h : Frame a b) (k : Frame b c) : Frame a c where
  className := k.className.trans h.className
  events := k.events.trans h.events
  raising := k.raising.trans h.raising
  body := h.body.trans k.body
  attachments := k.attachments.trans h.attachments

/-- A field that is added is no method, no event and no handler. -/
theorem frame_withField (a : Assembler) (f : Field) : Frame a (a.withMember (.field f)) where
  className := rfl
  events := (events_withMember (.field f)).trans (List.append_nil _)
  raising := by rw [methods_withMember]; exact congrArg _ (List.append_nil _)
  body := List.prefix_refl _
  attachments := rfl

/-- A method that raises no event may be added. -/
theorem frame_withMethod (a : Assembler) {m : Method} (hm : m.raisesEvent = false) :
    Frame a (a.withMember (.method m)) where
  className := rfl
  events := (events_withMember (.method m)).trans (List.append_nil _)
  raising := by
    have hnone : [m].filter Method.raisesEvent = [] := List.filter_cons_of_neg (by rw [hm]; exact Bool.false_ne_true)
    rw [methods_withMember]
    show (a.methods ++ [m]).filter Method.raisesEvent = a.methods.filter Method.raisesEvent
    rw [List.filter_append, hnone, List.append_nil]
  body := List.prefix_refl _
  attachments := rfl

/-- The assignment of an injected field is no handler. -/
theorem frame_withAssign (a : Assembler) (target value : Expr) : Frame a (a.withStatement (.assign target value)) where
  className := rfl
  events := rfl
  raising := rfl
  body := List.prefix_append _ _
  attachments := (List.filter_append _ _).trans (List.append_nil _)

theorem frame_constructorField (t : TypeExpr) (a : Assembler) : Frame a (constructorField t a).2 := by
  cases hfield : a.fieldOfType? t with
  | some r =>
    rw [constructorField_of_some hfield]
    exact .refl a
  | none =>
    rw [constructorField_of_none hfield]
    -- names and parameters come first, they are no part of what is framed
    let b : Assembler := (a.afterName.withParam ⟨a.names.next.1, t⟩).afterName
    have hb : Frame a b := ⟨rfl, rfl, rfl, List.prefix_refl _, rfl⟩
    exact (hb.trans (frame_withField b _)).trans (frame_withAssign _ _ _)

theorem frame_fixedField (t : TypeExpr) (path : String) (a : Assembler) : Frame a (fixedField t path a).2 := by
  cases hfield : a.fieldOfType? t with
  | some r =>
    rw [fixedField_of_some hfield]
    exact .refl a
  | none =>
    rw [fixedField_of_none hfield]
    have hb : Frame a a.afterName := ⟨rfl, rfl, rfl, List.prefix_refl _, rfl⟩
    exact hb.trans (frame_withField _ _)

end Assembler

end Proxy

namespace Synthesis

open Proxy Proxy.Assembler

variable {α β : Type}

/-! ## Writing a method -/

namespace Draft

/-- From one draft to another, the class is framed and the method raises no more events than before. -/
structure Frame (d d' : Draft) : Prop where
  unit : d.unit.Frame d'.unit
  raises : d'.method.raisesEvent = d.method.raisesEvent

/-- Whatever the draft, the step frames it. -/
def Frames (step : StateM Draft α) : Prop :=
  ∀ d : Draft, d.Frame (step d).2

namespace Frames

theorem pure (x : α) : Frames (pure x) := fun d => ⟨.refl d.unit, rfl⟩

theorem bind {first : StateM Draft α} {next : α → StateM Draft β} (h : Frames first) (k : ∀ x, Frames (next x)) :
    Frames (first >>= next) := by
  intro d
  have hfirst := h d
  have hnext := k (first d).1 (first d).2
  exact ⟨hfirst.unit.trans hnext.unit, hnext.raises.trans hfirst.raises⟩

theorem mapM {step : α → StateM Draft β} (h : ∀ x, Frames (step x)) (xs : List α) : Frames (xs.mapM step) := by
  induction xs with
  | nil => exact pure []
  | cons x xs ih =>
    rw [List.mapM_cons]
    exact (h x).bind fun y => ih.bind fun ys => pure (y :: ys)

end Frames

theorem freshName_frames : Frames freshName := fun _ => ⟨⟨rfl, rfl, rfl, List.prefix_refl _, rfl⟩, rfl⟩

theorem addParam_frames (p : Param) : Frames (addParam p) := fun d => ⟨.refl d.unit, rfl⟩

theorem setReturns_frames (t : TypeExpr) : Frames (setReturns t) := fun d => ⟨.refl d.unit, rfl⟩

theorem addStmt_frames {s : Stmt} (hs : s.isRaise = false) : Frames (addStmt s) := by
  intro d
  refine ⟨.refl d.unit, ?_⟩
  show (d.method.body ++ [s]).any Stmt.isRaise = d.method.body.any Stmt.isRaise
  rw [List.any_append, List.any_cons, hs, List.any_nil, Bool.or_false, Bool.or_false]

theorem constructorField_frames (t : TypeExpr) : Frames (onUnit (constructorField t)) :=
  fun d => ⟨frame_constructorField t d.unit, rfl⟩

theorem resolve_frames (descriptor : RegistryDescriptor) (registry : FieldRef) :
    Frames (resolve descriptor registry) :=
  freshName_frames.bind fun _ => (addParam_frames _).bind fun _ =>
    freshName_frames.bind fun _ => (addStmt_frames rfl).bind fun _ => .pure _

theorem incoming_frames (r : RegistrySet) (p : Parameter) : Frames (incoming r p) := by
  unfold incoming
  cases r.byMember? p.type with
  | some d => exact (constructorField_frames _).bind fun _ => resolve_frames d _
  | none => exact freshName_frames.bind fun _ => (addParam_frames _).bind fun _ => .pure _

theorem argument_frames (r : RegistrySet) (p : Parameter) : Frames (argument r p) := by
  unfold argument
  by_cases hout : p.isOut
  · rw [if_pos hout]
    exact .pure _
  · rw [if_neg hout]
    exact (incoming_frames r p).bind fun _ => .pure _

theorem returnRead_frames (r : RegistrySet) (read : Expr) (t : TypeExpr) : Frames (returnRead r read t) := by
  unfold returnRead
  cases r.byMember? t with
  | some d => exact (setReturns_frames _).bind fun _ => addStmt_frames rfl
  | none => exact addStmt_frames rfl

theorem returnCall_frames (r : RegistrySet) (call : Expr) (t : TypeExpr) : Frames (returnCall r call t) := by
  unfold returnCall
  by_cases hvoid : t.isVoid
  · rw [if_pos hvoid]
    exact addStmt_frames rfl
  · rw [if_neg hvoid]
    cases r.byMember? t with
    | some d =>
      exact freshName_frames.bind fun _ => (addStmt_frames rfl).bind fun _ =>
        (setReturns_frames _).bind fun _ => addStmt_frames rfl
    | none => exact addStmt_frames rfl

end Draft

namespace Subject

open Draft

theorem target_frames (s : Subject) : Frames s.target := by
  unfold target
  cases s.access.member? with
  | some d => exact resolve_frames d _
  | none => exact .pure _

theorem slot_frames (s : Subject) (accessor : String) (keys : List Parameter) (object : Expr) :
    Frames (s.slot accessor keys object) := by
  unfold slot
  by_cases hkeys : keys.isEmpty
  · rw [if_pos hkeys]
    exact .pure _
  · rw [if_neg hkeys]
    exact (Frames.mapM (incoming_frames s.registries) keys).bind fun _ => .pure _

theorem writeGetter_frames (s : Subject) (g : MethodDecl) : Frames (s.writeGetter g) :=
  s.target_frames.bind fun _ => (s.slot_frames _ _ _).bind fun _ => returnRead_frames _ _ _

theorem writeSetter_frames (s : Subject) (m : MethodDecl) (keys : List Parameter) (value : Parameter) :
    Frames (s.writeSetter m keys value) :=
  s.target_frames.bind fun _ => (s.slot_frames _ _ _).bind fun _ =>
    (incoming_frames _ _).bind fun _ => addStmt_frames rfl

theorem writeCall_frames (s : Subject) (m : MethodDecl) : Frames (s.writeCall m) :=
  s.target_frames.bind fun _ => (Frames.mapM (argument_frames s.registries) m.params).bind fun _ =>
    returnCall_frames _ _ _

end Subject

/-- The field of the wrapped object frames the empty class that a session starts from. -/
theorem start_frame (t : TypeExpr) (r : RegistrySet) (p : Profile) :
    (Subject.shell t p).Frame (Subject.start t r p).2.unit := by
  show (Subject.shell t p).Frame (Subject.wrappedField t p (Access.of t r p) (Subject.shell t p)).2
  cases Access.of t r p with
  | injected => exact frame_constructorField _ _
  | resolved d => exact frame_fixedField _ _ _
  | container d => exact frame_fixedField _ _ _
  | singleton path => exact frame_fixedField _ _ _

/-! ## The rules of a session -/

namespace Session

/-- Whatever the session, the step frames its class. -/
def Frames (step : StateM Session Unit) : Prop :=
  ∀ σ : Session, σ.unit.Frame (step σ).2.unit

namespace Frames

theorem pure : Frames (pure ()) := fun σ => .refl σ.unit

theorem seq {first second : StateM Session Unit} (h : Frames first) (k : Frames second) :
    Frames (do first; second) :=
  fun σ => (h σ).trans (k (first σ).2)

theorem forM {step : α → StateM Session Unit} (h : ∀ x, Frames (step x)) (items : List α) :
    Frames (items.forM step) := by
  induction items with
  | nil => exact pure
  | cons x items ih => exact (h x).seq ih

end Frames

theorem report_frames (n : Notice) : Frames (report n) := fun σ => .refl σ.unit

theorem addMethod_frames {write : StateM Draft Unit} (h : Draft.Frames write) (name : String) (returns : TypeExpr) :
    Frames (addMethod name returns write) := by
  intro σ
  let d := (write ⟨σ.unit, { name, returns }⟩).2
  -- the method is written from an empty one, which raises nothing
  have hd : Draft.Frame ⟨σ.unit, { name, returns }⟩ d := h _
  exact hd.unit.trans (frame_withMethod d.unit hd.raises)

end Session

namespace Subject

open Session

theorem reportLeak_frames (s : Subject) (member : String) (t : TypeExpr) : Frames (s.reportLeak member t) := by
  unfold reportLeak
  cases t.sequenceElement?.bind s.registries.byMember? with
  | some d => exact report_frames _
  | none => exact .pure

theorem addGetter_frames (s : Subject) (g : MethodDecl) : Frames (s.addGetter g) :=
  (s.reportLeak_frames _ _).seq (addMethod_frames (s.writeGetter_frames g) _ _)

theorem addSetter_frames (s : Subject) (m : MethodDecl) : Frames (s.addSetter m) := by
  unfold addSetter
  cases m.params.getLast? with
  | none => exact report_frames _
  | some value => exact addMethod_frames (s.writeSetter_frames m _ value) _ _

theorem convertMethod_frames (s : Subject) (m : MethodDecl) : Frames (s.convertMethod m) :=
  (s.reportLeak_frames _ _).seq
    ((Frames.forM (fun _ => report_frames _) _).seq (addMethod_frames (s.writeCall_frames m) _ _))

end Subject

/-- **Every family but the events** frames the class. -/
theorem convertFamily_frames (s : Subject) (members : MemberSet) {f : Family} (hf : f ≠ .events) :
    Session.Frames (ProxySpec.convertFamily s members f) := by
  cases f with
  | getters => exact .forM s.addGetter_frames members.getters
  | setters => exact .forM s.addSetter_frames members.setters
  | methods =>
    have hrejected : Session.Frames (members.rejected.forM s.reportRejected) :=
      .forM (fun _ => Session.report_frames _) members.rejected
    exact hrejected.seq (.forM s.convertMethod_frames members.methods)
  | events => exact absurd rfl hf

end Synthesis

end BoundaryProxy
