import BoundaryProxy.Proofs.Check.Scope
import BoundaryProxy.Proofs.Naming.Supply
import BoundaryProxy.Proxy.Assembler

/-!
# `Proofs.Proxy.Assembler` — what a class under construction keeps

Two relations carry every proof about a session.

* **Growth.** `Grows a added b`: from `a` to `b` members were only added, and the methods among them are
  exactly `added`. Names that were declared stay declared, and a field found by its type stays found
  (`Grows.findField`).
* **Soundness.** `Sound a`: the constructor and every method of `a` are well scoped for the members `a`
  already has.

One lemma an operation says what it does to both: `constructorField_spec`, `fixedField_spec`,
`pushMethod_spec`, `pushEvent_spec`, `addConstructorStatement_spec`.
-/

namespace BoundaryProxy.Proxy.Assembler

open Check

variable {a b c : Assembler} {t : TypeExpr}

/-! ## Views -/

/-- The fields in order. -/
def fields (a : Assembler) : List Field :=
  a.members.filterMap Member.field?

/-- The methods in order. -/
def methods (a : Assembler) : List Method :=
  a.members.filterMap Member.method?

/-- The events in order. -/
def events (a : Assembler) : List Event :=
  a.members.filterMap Member.event?

/-- The constructors among the members, of which there are none before the class is finished. -/
def constructors (a : Assembler) : List Constructor :=
  a.members.filterMap Member.constructor?

/-- The names the members declare so far. -/
def classNames (a : Assembler) : ClassNames :=
  ⟨a.fields.map (·.name), a.methods.map (·.name), a.events.map (·.name)⟩

@[simp] theorem fields_finish (a : Assembler) : a.finish.fields = a.fields := by
  simp [finish, ProxyUnit.fields, fields, Member.field?]

@[simp] theorem methods_finish (a : Assembler) : a.finish.methods = a.methods := by
  simp [finish, ProxyUnit.methods, methods, Member.method?]

@[simp] theorem events_finish (a : Assembler) : a.finish.events = a.events := by
  simp [finish, ProxyUnit.events, events, Member.event?]

theorem classNames_finish (a : Assembler) : ClassNames.of a.finish = a.classNames := by
  simp [ClassNames.of, classNames]

theorem fieldOfType?_eq (a : Assembler) (t : TypeExpr) :
    a.fieldOfType? t = (a.fields.find? (·.type = t)).map fun f => ⟨f.name, f.type⟩ := by
  unfold fieldOfType? fields
  induction a.members.filterMap Member.field? with
  | nil => rfl
  | cons f rest ih =>
    by_cases h : f.type = t
    · simp [h]
    · simpa [h] using ih

/-! ## Growth -/

/-- Members were only added, the methods among them are `added`. -/
structure Grows (a : Assembler) (added : List Method) (b : Assembler) : Prop where
  className : b.className = a.className
  names : a.names.Later b.names
  fields : a.fields <+: b.fields
  methods : b.methods = a.methods ++ added
  events : a.events <+: b.events
  constructors : b.constructors = a.constructors

theorem Grows.refl (a : Assembler) : Grows a [] a :=
  ⟨rfl, .refl _, List.prefix_refl _, by simp, List.prefix_refl _, rfl⟩

theorem Grows.trans {ms ns : List Method} (h : Grows a ms b) (k : Grows b ns c) :
    Grows a (ms ++ ns) c where
  className := k.className.trans h.className
  names := h.names.trans k.names
  fields := h.fields.trans k.fields
  methods := by rw [k.methods, h.methods, List.append_assoc]
  events := h.events.trans k.events
  constructors := k.constructors.trans h.constructors

theorem Grows.classNames {ms : List Method} (h : Grows a ms b) : NamesLe a.classNames b.classNames where
  fields := (h.fields.map _).subset
  methods := by
    rw [Assembler.classNames, Assembler.classNames, h.methods, List.map_append]
    exact List.subset_append_left _ _
  events := (h.events.map _).subset

/-- The first field of a type stays the first. -/
theorem Grows.findField {ms : List Method} {f : Field} (h : Grows a ms b)
    (hf : a.fields.find? (·.type = t) = some f) : b.fields.find? (·.type = t) = some f :=
  h.fields.find?_eq_some hf

/-! ## Soundness -/

/-- The constructor and the methods are well scoped for the members so far, and the constructor, which joins
    the members in the end, is the only one. -/
structure Sound (a : Assembler) : Prop where
  constructor : BodyScoped a.classNames a.constructor.params a.constructor.body
  issued : ∀ p ∈ a.constructor.params, a.names.Issued p.name
  noLocals : declaredLocals a.constructor.body = []
  noReturn : ∀ value, .return value ∉ a.constructor.body
  methods : ∀ m ∈ a.methods, BodyScoped a.classNames m.params m.body ∧ ReturnsValue m
  single : a.constructors = []

theorem sound_start (namespaceName className stem : String) : Sound (start namespaceName className stem) where
  constructor := bodyScoped_nil _
  issued := fun _ hp => absurd hp List.not_mem_nil
  noLocals := rfl
  noReturn := fun _ hv => absurd hv List.not_mem_nil
  methods := fun _ hm => absurd hm List.not_mem_nil
  single := rfl

/-- Growth that leaves the constructor alone keeps soundness, if the methods added are well scoped. -/
theorem Sound.grow {ms : List Method} (h : a.Sound) (hg : Grows a ms b) (hc : b.constructor = a.constructor)
    (hms : ∀ m ∈ ms, BodyScoped b.classNames m.params m.body ∧ ReturnsValue m) : b.Sound where
  constructor := hc ▸ h.constructor.mono hg.classNames
  issued := fun p hp => (h.issued p (hc ▸ hp)).mono hg.names
  noLocals := hc ▸ h.noLocals
  noReturn := fun value hv => h.noReturn value (hc ▸ hv)
  methods := by
    intro m hm
    rw [hg.methods, List.mem_append] at hm
    rcases hm with hm | hm
    · exact ⟨(h.methods m hm).1.mono hg.classNames, (h.methods m hm).2⟩
    · exact hms m hm
  single := hg.constructors.trans h.single

/-! ## Names and members -/

/-- The class after its next name was issued. -/
def afterName (a : Assembler) : Assembler :=
  { a with names := a.names.next.2 }

/-- The class with one more member. -/
def withMember (a : Assembler) (m : Member) : Assembler :=
  { a with members := a.members ++ [m] }

@[simp] theorem fields_withMember (m : Member) : (a.withMember m).fields = a.fields ++ m.field?.toList := by
  cases h : m.field? <;> simp [withMember, fields, h]

@[simp] theorem methods_withMember (m : Member) : (a.withMember m).methods = a.methods ++ m.method?.toList := by
  cases h : m.method? <;> simp [withMember, methods, h]

@[simp] theorem events_withMember (m : Member) : (a.withMember m).events = a.events ++ m.event?.toList := by
  cases h : m.event? <;> simp [withMember, events, h]

theorem grows_afterName (a : Assembler) : Grows a [] a.afterName :=
  { Grows.refl a with names := a.names.later_next }

theorem grows_withMember (a : Assembler) (m : Member) (hm : m.constructor? = none) :
    Grows a m.method?.toList (a.withMember m) where
  className := rfl
  names := .refl _
  fields := by rw [fields_withMember]; exact List.prefix_append _ _
  methods := methods_withMember m
  events := by rw [events_withMember]; exact List.prefix_append _ _
  constructors := by simp [withMember, constructors, hm]

theorem Sound.afterName (h : a.Sound) : a.afterName.Sound :=
  h.grow (grows_afterName a) rfl fun _ hm => absurd hm List.not_mem_nil

/-- A method that is well scoped for the members so far may be added. -/
theorem pushMethod_spec (h : a.Sound) {m : Method} (hm : BodyScoped a.classNames m.params m.body)
    (hret : ReturnsValue m) :
    (pushMethod m a).2.Sound ∧ Grows a [m] (pushMethod m a).2 := by
  have hg : Grows a [m] (a.withMember (.method m)) := grows_withMember a (.method m) rfl
  refine ⟨h.grow hg rfl ?_, hg⟩
  intro m' hm'
  obtain rfl := List.mem_singleton.mp hm'
  exact ⟨hm.mono hg.classNames, hret⟩

theorem pushEvent_spec (h : a.Sound) (e : Event) :
    (pushEvent e a).2.Sound ∧ Grows a [] (pushEvent e a).2 ∧ e ∈ (pushEvent e a).2.events := by
  have hg : Grows a [] (a.withMember (.event e)) := grows_withMember a (.event e) rfl
  refine ⟨h.grow hg rfl fun _ hm => absurd hm List.not_mem_nil, hg, ?_⟩
  show e ∈ (a.withMember (.event e)).events
  simp [Member.event?]

/-! ## The constructor -/

/-- The class with one more statement at the end of its constructor. -/
def withStatement (a : Assembler) (s : Stmt) : Assembler :=
  { a with constructor := { a.constructor with body := a.constructor.body ++ [s] } }

/-- The class with one more parameter at the end of its constructor's. -/
def withParam (a : Assembler) (p : Param) : Assembler :=
  { a with constructor := { a.constructor with params := a.constructor.params ++ [p] } }

theorem grows_withStatement (a : Assembler) (s : Stmt) : Grows a [] (a.withStatement s) :=
  { Grows.refl a with }

theorem grows_withParam (a : Assembler) (p : Param) : Grows a [] (a.withParam p) :=
  { Grows.refl a with }

/-- A statement that declares nothing and returns nothing, and mentions only fields, methods and parameters
    that are there, may be added to the constructor. -/
theorem addConstructorStatement_spec (h : a.Sound) {s : Stmt}
    (hs : s.Resolved a.classNames ⟨a.constructor.params.map Param.name, []⟩)
    (hlocal : s.local? = none) (hret : ∀ value, s ≠ .return value) :
    (addConstructorStatement s a).2.Sound ∧ Grows a [] (addConstructorStatement s a).2 := by
  have hg : Grows a [] (a.withStatement s) := grows_withStatement a s
  refine ⟨⟨?_, h.issued, ?_, ?_, h.methods, h.single⟩, hg⟩
  · refine h.constructor.snoc (hs.mono (.refl _) (fun _ hx => hx) (List.nil_subset _)) ?_
    intro x hx
    rw [hlocal] at hx
    cases hx
  · show declaredLocals (a.constructor.body ++ [s]) = []
    rw [declaredLocals, List.filterMap_append, List.append_eq_nil_iff]
    exact ⟨h.noLocals, by simp [hlocal]⟩
  · intro value hv
    rcases List.mem_append.mp hv with hv | hv
    · exact h.noReturn value hv
    · exact hret value (List.mem_singleton.mp hv).symm

/-- The name issued last may become a parameter of the constructor. -/
theorem Sound.withParam (h : a.Sound) (t : TypeExpr) :
    (a.afterName.withParam ⟨a.names.next.1, t⟩).Sound := by
  -- the parameters' names were issued, and the next name is none of these
  have hnew : a.names.next.1 ∉ a.constructor.params.map Param.name := by
    intro hmem
    obtain ⟨p, hp, hname⟩ := List.mem_map.mp hmem
    exact (h.issued p hp).ne_next hname
  refine ⟨?_, ?_, h.noLocals, h.noReturn, h.methods, h.single⟩
  · exact h.constructor.addParam hnew (by rw [h.noLocals]; exact List.not_mem_nil)
  · intro p hp
    rcases List.mem_append.mp hp with hp | hp
    · exact (h.issued p hp).mono a.names.later_next
    · rw [List.mem_singleton.mp hp]
      exact a.names.issued_next

/-! ## Fields -/

theorem Sound.withField (h : a.Sound) (f : Field) : (a.withMember (.field f)).Sound :=
  h.grow (grows_withMember a (.field f) rfl) rfl fun _ hm => absurd hm List.not_mem_nil

/-- A field added where its type had none is the field of its type. -/
theorem findField_withMember {f : Field} (h : a.fieldOfType? f.type = none) :
    (a.withMember (.field f)).fields.find? (·.type = f.type) = some f := by
  rw [fieldOfType?_eq, Option.map_eq_none_iff] at h
  rw [fields_withMember, List.find?_append, h]
  simp [Member.field?]

theorem findField_of_fieldOfType? {r : FieldRef} (h : a.fieldOfType? t = some r) :
    ∃ f, a.fields.find? (·.type = t) = some f ∧ f.name = r.name := by
  rw [fieldOfType?_eq] at h
  obtain ⟨f, hf, rfl⟩ := Option.map_eq_some_iff.mp h
  exact ⟨f, hf, rfl⟩

/-- A type that has a field already gets that field again and nothing changes. -/
theorem constructorField_of_some {r : FieldRef} (h : a.fieldOfType? t = some r) :
    constructorField t a = (r, a) := by
  simp only [constructorField, bind, StateT.bind, get, getThe, MonadStateOf.get, StateT.get, pure, h]
  rfl

/-- A new injected field takes two names, a parameter and an assignment of one to the other. -/
theorem constructorField_of_none (h : a.fieldOfType? t = none) :
    constructorField t a =
      (⟨a.afterName.names.next.1, t⟩,
        ((a.afterName.withParam ⟨a.names.next.1, t⟩).afterName.withMember
          (.field ⟨a.afterName.names.next.1, t, .fromParam a.names.next.1⟩)).withStatement
            (.assign (.field a.afterName.names.next.1) (.param a.names.next.1))) := by
  simp only [constructorField, bind, StateT.bind, get, getThe, MonadStateOf.get, StateT.get, pure, h]
  rfl

theorem fixedField_of_some {r : FieldRef} {path : String} (h : a.fieldOfType? t = some r) :
    fixedField t path a = (r, a) := by
  simp only [fixedField, bind, StateT.bind, get, getThe, MonadStateOf.get, StateT.get, pure, h]
  rfl

theorem fixedField_of_none {path : String} (h : a.fieldOfType? t = none) :
    fixedField t path a =
      (⟨a.names.next.1, t⟩, a.afterName.withMember (.field ⟨a.names.next.1, t, .fixed path⟩)) := by
  simp only [fixedField, bind, StateT.bind, get, getThe, MonadStateOf.get, StateT.get, pure, h]
  rfl

/-- What asking for a field of a type gives: the class stays sound, and the field is the one of its type. -/
structure GivesField (t : TypeExpr) (a : Assembler) (r : FieldRef × Assembler) : Prop where
  sound : r.2.Sound
  grows : Grows a [] r.2
  found : ∃ f, r.2.fields.find? (·.type = t) = some f ∧ f.name = r.1.name

theorem givesField_of_some (h : a.Sound) {r : FieldRef} (hr : a.fieldOfType? t = some r) :
    GivesField t a (r, a) :=
  ⟨h, .refl a, findField_of_fieldOfType? hr⟩

theorem constructorField_spec (h : a.Sound) (t : TypeExpr) : GivesField t a (constructorField t a) := by
  cases hfield : a.fieldOfType? t with
  | some r => exact constructorField_of_some hfield ▸ givesField_of_some h hfield
  | none =>
    rw [constructorField_of_none hfield]
    -- `b` has the parameter and the field already, so the assignment mentions nothing that is not there
    let p : Param := ⟨a.names.next.1, t⟩
    let f : Field := ⟨a.afterName.names.next.1, t, .fromParam a.names.next.1⟩
    let b := (a.afterName.withParam p).afterName.withMember (.field f)
    have hb : b.Sound := (h.withParam t).afterName.withField f
    have hab : Grows a [] b :=
      ((grows_afterName a).trans (grows_withParam _ p)).trans
        ((grows_afterName _).trans (grows_withMember _ (.field f) rfl))
    have hf : f ∈ b.fields := by simp [b, Member.field?]
    have hp : p ∈ b.constructor.params := by simp [b, withMember, afterName, Assembler.withParam]
    have hresolved : (Stmt.assign (.field f.name) (.param p.name)).Resolved b.classNames
        ⟨b.constructor.params.map Param.name, []⟩ := by
      rw [stmt_resolved_iff_exprs (by simp)]
      simp only [Stmt.exprs, List.mem_cons, List.not_mem_nil, or_false, forall_eq_or_imp, forall_eq,
        resolved_field, resolved_param]
      exact ⟨List.mem_map_of_mem hf, List.mem_map_of_mem hp⟩
    obtain ⟨hsound, hgrows⟩ := addConstructorStatement_spec hb hresolved rfl (by simp)
    exact ⟨hsound, hab.trans hgrows, f, findField_withMember (f := f) hfield, rfl⟩

theorem fixedField_spec (h : a.Sound) (t : TypeExpr) (path : String) :
    GivesField t a (fixedField t path a) := by
  cases hfield : a.fieldOfType? t with
  | some r => exact fixedField_of_some hfield ▸ givesField_of_some h hfield
  | none =>
    rw [fixedField_of_none hfield]
    let f : Field := ⟨a.names.next.1, t, .fixed path⟩
    exact ⟨h.afterName.withField f, (grows_afterName a).trans (grows_withMember _ (.field f) rfl), f,
      findField_withMember (f := f) hfield, rfl⟩

end BoundaryProxy.Proxy.Assembler
