import BoundaryProxy.Interface.Document
import BoundaryProxy.Proofs.Document.Decoder
import BoundaryProxy.Proofs.Json.RoundTrip
import BoundaryProxy.Proofs.TypeExpr.RoundTrip

/-!
# `Proofs.Interface.Document` — interfaces are decoded from their documents

`Codec P write read` ties a way of writing values as documents to a decoder: what is decoded has the property `P`, and
a value with that property is decoded from what was written. Writer and decoder treat fields differently, in that some
are left out and others have defaults; so a record is a codec because of its fields one by one, where a field that was
left out must have its default (`run_optional_of_missing`), and a default must have the property that is asked of what
is decoded.

The property of an interface is that its types are written as a reader of types accepts them (`Interface.WellTyped`).
-/

namespace BoundaryProxy

open Document Reading

/-- Values are written so that the decoder gives them back, and it gives no others. -/
structure Codec {α : Type} (P : α → Prop) (write : α → Document) (read : Decoder α) : Prop where
  plain : ∀ a, (write a).Plain
  sound : ∀ d a, read d = .ok a → P a
  complete : ∀ a, P a → read (write a) = .ok a

variable {α β : Type} {P : α → Prop} {write : α → Document} {read : Decoder α}

/-! ## Values -/

theorem codec_text : Codec (fun _ => True) ofString Decoder.text where
  plain := Document.Plain.text
  sound := fun _ _ _ => trivial
  complete := fun _ _ => rfl

theorem codec_flag : Codec (fun _ => True) Document.flag Decoder.flag where
  plain := Document.Plain.flag
  sound := fun _ _ _ => trivial
  complete := fun _ _ => rfl

theorem codec_type : Codec TypeExpr.WellNamed TypeExpr.document Decoder.type where
  plain := fun t => Document.Plain.text t.text
  sound := by
    intro d t h
    obtain ⟨s, -, hparse⟩ := Decoder.type_eq_ok_iff.mp h
    exact (TypeExpr.compact_of_parse hparse).1
  complete := fun t h => Decoder.type_eq_ok_iff.mpr ⟨t.text, rfl, TypeExpr.parse_text h⟩

theorem codec_direction (conv : Convention) :
    Codec (fun _ => True) Direction.document (Decoder.variant conv Direction.names) where
  plain := by
    intro d
    cases d with
    | input => exact Document.Plain.text "in"
    | output => exact Document.Plain.text "out"
  sound := fun _ _ _ => trivial
  complete := by
    intro d _
    cases d <;> rfl

theorem Codec.list (h : Codec P write read) :
    Codec (fun xs : List α => ∀ x ∈ xs, P x) (fun xs => .list (xs.map write)) (Decoder.list read) where
  plain := by
    intro xs
    refine Document.Plain.list fun d hd => ?_
    obtain ⟨x, -, rfl⟩ := List.mem_map.mp hd
    exact h.plain x
  sound := by
    intro d xs hread x hx
    obtain ⟨items, -, hitems⟩ := Decoder.list_eq_ok_iff.mp hread
    clear hread
    induction hitems with
    | nil => cases hx
    | cons hfirst _ ih =>
      rcases List.mem_cons.mp hx with rfl | hx
      · exact h.sound _ _ hfirst
      · exact ih hx
  complete := by
    intro xs hxs
    refine Decoder.list_eq_ok_iff.mpr ⟨xs.map write, rfl, ?_⟩
    rw [List.forall₂_map_left_iff, List.forall₂_same]
    exact fun x hx => h.complete x (hxs x hx)

/-- A value that may be missing, where the written form of a value is not the one of nothing. -/
theorem Codec.nullable (h : Codec P write read) (hnull : ∀ a, write a ≠ .null) :
    Codec (fun a? : Option α => ∀ a, a? = some a → P a) (fun a? => a?.elim .null write) (Decoder.nullable read) where
  plain := by
    intro a?
    cases a? with
    | none => exact Document.Plain.null
    | some a => exact h.plain a
  sound := by
    intro d a? hread a ha
    rcases Decoder.nullable_eq_ok_iff.mp hread with ⟨-, rfl⟩ | ⟨-, a', ha', rfl⟩
    · cases ha
    · exact Option.some.inj ha ▸ h.sound d a' ha'
  complete := by
    intro a? ha
    cases a? with
    | none => exact Decoder.nullable_eq_ok_iff.mpr (.inl ⟨rfl, rfl⟩)
    | some a => exact Decoder.nullable_eq_ok_iff.mpr (.inr ⟨hnull a, a, h.complete a (ha a rfl), rfl⟩)

theorem codec_nullable_type : Codec (fun t? : Option TypeExpr => ∀ t, t? = some t → t.WellNamed)
    (fun t? => t?.elim .null TypeExpr.document) (Decoder.nullable Decoder.type) :=
  codec_type.nullable fun _ h => nomatch h

/-! ## Fields -/

variable {name : String} {es : Entries} {d : Document} {i : Nat} {a : α}

theorem run_field_of_occurs {missing : Except Fault α} (h : occurrences name es = [(d, i)]) (hd : read d = .ok a) :
    (field name read missing).run es = .ok a :=
  run_field_eq_ok_iff.mpr (.inr ⟨d, i, h, hd⟩)

/-- A field that was left out has its default. -/
theorem run_optional_of_missing (h : occurrences name es = []) : (optional name read a).run es = .ok a :=
  run_field_eq_ok_iff.mpr (.inl ⟨h, rfl⟩)

theorem run_seq_of_run {f : Reading (α → β)} {x : Reading α} {g : α → β} (hf : f.run es = .ok g)
    (hx : x.run es = .ok a) : (f <*> x).run es = .ok (g a) :=
  run_seq_eq_ok_iff.mpr ⟨g, a, hf, hx, rfl⟩

theorem run_map_of_run {f : α → β} {x : Reading α} (hx : x.run es = .ok a) : (f <$> x).run es = .ok (f a) :=
  run_map_eq_ok_iff.mpr ⟨a, hx, rfl⟩

/-- A required field has the property of what its decoder gives. -/
theorem Codec.of_required (h : Codec P write read) (hrun : (required name read).run es = .ok a) : P a := by
  rcases run_field_eq_ok_iff.mp hrun with ⟨-, hmissing⟩ | ⟨d, i, -, hd⟩
  · cases hmissing
  · exact h.sound d a hd

/-- So has a field with a default, if the default has it. -/
theorem Codec.of_optional (h : Codec P write read) {default : α} (hdefault : P default)
    (hrun : (optional name read default).run es = .ok a) : P a := by
  rcases run_field_eq_ok_iff.mp hrun with ⟨-, hmissing⟩ | ⟨d, i, -, hd⟩
  · exact Except.ok.inj hmissing ▸ hdefault
  · exact h.sound d a hd

/-! ## Well typed interfaces -/

/-- The types of a method are written as they are read. -/
structure MethodDecl.WellTyped (m : MethodDecl) : Prop where
  params : ∀ p ∈ m.params, p.type.WellNamed
  returns : m.returns.WellNamed

/-- The types of an interface are written as they are read. -/
structure Interface.WellTyped (i : Interface) : Prop where
  type : i.type.WellNamed
  methods : ∀ m ∈ i.methods, m.WellTyped
  properties : ∀ p ∈ i.properties, p.type.WellNamed
  events : ∀ e ∈ i.events, ∀ t, e.payload = some t → t.WellNamed
  bases : ∀ t ∈ i.bases, t.WellNamed

theorem wellNamed_void : TypeExpr.void.WellNamed :=
  (TypeExpr.compact_of_parse (s := "System.Void") (by decide +kernel)).1

/-! ## Parts of an interface -/

variable (conv : Convention)

theorem codec_parameter :
    Codec (fun p : Parameter => p.type.WellNamed) Parameter.document (Parameter.decoder conv) where
  plain := by
    intro p
    refine Document.Plain.record fun f hf => ?_
    simp only [List.mem_cons, List.not_mem_nil, or_false] at hf
    rcases hf with rfl | rfl | rfl
    · exact codec_text.plain _
    · exact codec_type.plain _
    · exact (codec_direction conv).plain _
  sound := by
    intro d p h
    obtain ⟨es, -, hrun, -⟩ := decode_eq_ok_iff.mp h
    obtain ⟨make₂, direction, hrun₂, -, rfl⟩ := run_seq_eq_ok_iff.mp hrun
    obtain ⟨make₁, type, hrun₁, htype, rfl⟩ := run_seq_eq_ok_iff.mp hrun₂
    obtain ⟨name, -, rfl⟩ := run_map_eq_ok_iff.mp hrun₁
    exact codec_type.of_required htype
  complete := by
    intro p h
    refine decode_eq_ok_iff.mpr ⟨_, rfl, ?_, rfl⟩
    have hname := codec_text.complete p.name trivial
    have htype := codec_type.complete p.type h
    have hdirection := (codec_direction conv).complete p.direction trivial
    exact run_seq_of_run (run_seq_of_run (run_map_of_run (run_field_of_occurs rfl hname))
      (run_field_of_occurs rfl htype)) (run_field_of_occurs rfl hdirection)

theorem codec_method : Codec MethodDecl.WellTyped MethodDecl.document (MethodDecl.decoder conv) where
  plain := by
    intro m
    refine Document.Plain.record fun f hf => ?_
    simp only [List.mem_append, List.mem_cons, List.not_mem_nil, or_false] at hf
    rcases hf with (rfl | rfl | rfl) | hspecial
    · exact codec_text.plain _
    · exact (codec_parameter conv).list.plain _
    · exact codec_type.plain _
    · split at hspecial
      · rw [List.mem_singleton.mp hspecial]
        exact codec_flag.plain true
      · cases hspecial
  sound := by
    intro d m h
    obtain ⟨es, -, hrun, -⟩ := decode_eq_ok_iff.mp h
    obtain ⟨make₃, special, hrun₃, -, rfl⟩ := run_seq_eq_ok_iff.mp hrun
    obtain ⟨make₂, returns, hrun₂, hreturns, rfl⟩ := run_seq_eq_ok_iff.mp hrun₃
    obtain ⟨make₁, params, hrun₁, hparams, rfl⟩ := run_seq_eq_ok_iff.mp hrun₂
    obtain ⟨name, -, rfl⟩ := run_map_eq_ok_iff.mp hrun₁
    exact ⟨(codec_parameter conv).list.of_optional (fun _ hp => absurd hp List.not_mem_nil) hparams,
      codec_type.of_optional wellNamed_void hreturns⟩
  complete := by
    intro m h
    have hname := codec_text.complete m.name trivial
    have hparams := (codec_parameter conv).list.complete m.params h.params
    have hreturns := codec_type.complete m.returns h.returns
    obtain ⟨name, params, returns, special⟩ := m
    -- the mark of a special method is there only if it is set
    cases special with
    | false =>
      refine decode_eq_ok_iff.mpr ⟨_, rfl, ?_, rfl⟩
      exact run_seq_of_run (run_seq_of_run (run_seq_of_run (run_map_of_run (run_field_of_occurs rfl hname))
        (run_field_of_occurs rfl hparams)) (run_field_of_occurs rfl hreturns)) (run_optional_of_missing rfl)
    | true =>
      refine decode_eq_ok_iff.mpr ⟨_, rfl, ?_, rfl⟩
      have hspecial := codec_flag.complete true trivial
      exact run_seq_of_run (run_seq_of_run (run_seq_of_run (run_map_of_run (run_field_of_occurs rfl hname))
        (run_field_of_occurs rfl hparams)) (run_field_of_occurs rfl hreturns)) (run_field_of_occurs rfl hspecial)

theorem codec_property :
    Codec (fun p : PropertyDecl => p.type.WellNamed) PropertyDecl.document (PropertyDecl.decoder conv) where
  plain := by
    intro p
    refine Document.Plain.record fun f hf => ?_
    simp only [List.mem_cons, List.not_mem_nil, or_false] at hf
    rcases hf with rfl | rfl | rfl | rfl
    · exact codec_text.plain _
    · exact codec_type.plain _
    · exact codec_flag.plain _
    · exact codec_flag.plain _
  sound := by
    intro d p h
    obtain ⟨es, -, hrun, -⟩ := decode_eq_ok_iff.mp h
    obtain ⟨make₃, canWrite, hrun₃, -, rfl⟩ := run_seq_eq_ok_iff.mp hrun
    obtain ⟨make₂, canRead, hrun₂, -, rfl⟩ := run_seq_eq_ok_iff.mp hrun₃
    obtain ⟨make₁, type, hrun₁, htype, rfl⟩ := run_seq_eq_ok_iff.mp hrun₂
    obtain ⟨name, -, rfl⟩ := run_map_eq_ok_iff.mp hrun₁
    exact codec_type.of_required htype
  complete := by
    intro p h
    refine decode_eq_ok_iff.mpr ⟨_, rfl, ?_, rfl⟩
    have hname := codec_text.complete p.name trivial
    have htype := codec_type.complete p.type h
    have hread := codec_flag.complete p.canRead trivial
    have hwrite := codec_flag.complete p.canWrite trivial
    exact run_seq_of_run (run_seq_of_run (run_seq_of_run (run_map_of_run (run_field_of_occurs rfl hname))
      (run_field_of_occurs rfl htype)) (run_field_of_occurs rfl hread)) (run_field_of_occurs rfl hwrite)

theorem codec_event : Codec (fun e : EventDecl => ∀ t, e.payload = some t → t.WellNamed) EventDecl.document
    (EventDecl.decoder conv) where
  plain := by
    intro e
    obtain ⟨name, payload⟩ := e
    refine Document.Plain.record fun f hf => ?_
    rcases List.mem_cons.mp hf with rfl | hpayload
    · exact codec_text.plain _
    · cases payload with
      | none => cases hpayload
      | some t =>
        rw [List.mem_singleton.mp hpayload]
        exact codec_type.plain t
  sound := by
    intro d e h
    obtain ⟨es, -, hrun, -⟩ := decode_eq_ok_iff.mp h
    obtain ⟨make, payload, hmake, hpayload, rfl⟩ := run_seq_eq_ok_iff.mp hrun
    obtain ⟨name, -, rfl⟩ := run_map_eq_ok_iff.mp hmake
    exact codec_nullable_type.of_optional (by rintro t ⟨⟩) hpayload
  complete := by
    intro e h
    have hname := codec_text.complete e.name trivial
    obtain ⟨name, payload⟩ := e
    cases payload with
    | none =>
      refine decode_eq_ok_iff.mpr ⟨_, rfl, ?_, rfl⟩
      exact run_seq_of_run (run_map_of_run (run_field_of_occurs rfl hname)) (run_optional_of_missing rfl)
    | some t =>
      refine decode_eq_ok_iff.mpr ⟨_, rfl, ?_, rfl⟩
      have hpayload := codec_nullable_type.complete (some t) h
      exact run_seq_of_run (run_map_of_run (run_field_of_occurs rfl hname)) (run_field_of_occurs rfl hpayload)

/-- **Interfaces** are decoded from their documents if their types are well formed, and no others are decoded. -/
theorem codec_interface : Codec Interface.WellTyped Interface.document (Interface.decoder conv) where
  plain := by
    intro m
    refine Document.Plain.record fun f hf => ?_
    simp only [List.mem_cons, List.not_mem_nil, or_false] at hf
    rcases hf with rfl | rfl | rfl | rfl | rfl
    · exact codec_type.plain _
    · exact (codec_method conv).list.plain _
    · exact (codec_property conv).list.plain _
    · exact (codec_event conv).list.plain _
    · exact codec_type.list.plain _
  sound := by
    intro d m h
    obtain ⟨es, -, hrun, -⟩ := decode_eq_ok_iff.mp h
    obtain ⟨make₄, bases, hrun₄, hbases, rfl⟩ := run_seq_eq_ok_iff.mp hrun
    obtain ⟨make₃, events, hrun₃, hevents, rfl⟩ := run_seq_eq_ok_iff.mp hrun₄
    obtain ⟨make₂, properties, hrun₂, hproperties, rfl⟩ := run_seq_eq_ok_iff.mp hrun₃
    obtain ⟨make₁, methods, hrun₁, hmethods, rfl⟩ := run_seq_eq_ok_iff.mp hrun₂
    obtain ⟨type, htype, rfl⟩ := run_map_eq_ok_iff.mp hrun₁
    exact {
      type := codec_type.of_required htype
      methods := (codec_method conv).list.of_optional (fun _ hm => absurd hm List.not_mem_nil) hmethods
      properties := (codec_property conv).list.of_optional (fun _ hp => absurd hp List.not_mem_nil) hproperties
      events := (codec_event conv).list.of_optional (fun _ he => absurd he List.not_mem_nil) hevents
      bases := codec_type.list.of_optional (fun _ ht => absurd ht List.not_mem_nil) hbases }
  complete := by
    intro m h
    refine decode_eq_ok_iff.mpr ⟨_, rfl, ?_, rfl⟩
    have htype := codec_type.complete m.type h.type
    have hmethods := (codec_method conv).list.complete m.methods h.methods
    have hproperties := (codec_property conv).list.complete m.properties h.properties
    have hevents := (codec_event conv).list.complete m.events h.events
    have hbases := codec_type.list.complete m.bases h.bases
    exact run_seq_of_run (run_seq_of_run (run_seq_of_run (run_seq_of_run
      (run_map_of_run (run_field_of_occurs rfl htype)) (run_field_of_occurs rfl hmethods))
      (run_field_of_occurs rfl hproperties)) (run_field_of_occurs rfl hevents)) (run_field_of_occurs rfl hbases)

end BoundaryProxy
