import BoundaryProxy.CommandLine.HostModel
import BoundaryProxy.Proofs.Host.Disk
import BoundaryProxy.Proofs.Interface.Document
import BoundaryProxy.Proofs.Toml.RoundTrip

/-!
# `Proofs.Profile.RoundTrip` — profiles are read back from TOML

A profile is a record of eleven fields, of which the last one is an array of tables unless it is empty. Any of the
fields can be missing. What is read then does not depend on which others are there: a field that was kept occurs once,
and one that was removed occurs nowhere and has its default (`run_optional_without`).

The rules of a profile are looked at only when all fields were read, so a profile that breaks one is written and read
like any other, and the rule is reported in place of it.

* **`ofToml_toToml`**: a profile is read back from the file it is written to, and from any part of its text.
-/

namespace BoundaryProxy

open Document Reading Host CommandLine

/-! ## Values -/

theorem codec_policy (conv : Convention) :
    Codec (fun _ => True) OutParamPolicy.document (Decoder.variant conv OutParamPolicy.names) where
  plain := by
    intro policy
    cases policy with
    | reject => exact Document.Plain.text "reject"
    | discard => exact Document.Plain.text "discard"
  sound := fun _ _ _ => trivial
  complete := by
    intro policy _
    cases policy <;> rfl

theorem codec_binding (conv : Convention) :
    Codec (fun _ => True) SingletonBinding.document (SingletonBinding.decoder conv) where
  plain := by
    intro b
    refine Document.Plain.record fun f hf => ?_
    simp only [List.mem_cons, List.not_mem_nil, or_false] at hf
    rcases hf with rfl | rfl
    · exact codec_text.plain _
    · exact codec_text.plain _
  sound := fun _ _ _ => trivial
  complete := by
    intro b _
    refine decode_eq_ok_iff.mpr ⟨_, rfl, ?_, rfl⟩
    have htype := codec_text.complete b.typeName trivial
    have hpath := codec_text.complete b.path trivial
    exact run_seq_of_run (run_map_of_run (run_field_of_occurs rfl htype)) (run_field_of_occurs rfl hpath)

/-- The fields of a binding. -/
def SingletonBinding.fields (b : SingletonBinding) : List (String × Document) :=
  [("type_name", ofString b.typeName), ("path", ofString b.path)]

namespace Profile

/-! ## Fields -/

/-- The fields of a profile that are written as values, with their keys. -/
def values (p : Profile) : List (String × Document) :=
  [("service_root", ofString p.serviceRoot), ("registry_path", ofString p.registryPath),
    ("registry_property", ofString p.registryProperty), ("registry_marker", ofString p.registryMarker),
    ("excluded_registries", .list (p.excludedRegistries.map ofString)),
    ("event_proxy", ofString p.eventProxy), ("class_suffix", ofString p.classSuffix),
    ("namespace_suffix", ofString p.namespaceSuffix), ("name_prefix", ofString p.namePrefix),
    ("out_params", p.outParams.document)]

/-- The fields of a profile. -/
def fields (p : Profile) : List (String × Document) :=
  p.values ++ [("singletons", .list (p.singletons.map SingletonBinding.document))]

theorem document_eq (p : Profile) : p.document = ofFields p.fields :=
  rfl

theorem map_fields (p : Profile) : p.fields.map (·.1) = keys :=
  rfl

theorem nodup_keys : keys.Nodup := by
  decide

/-- The fields of a profile that are kept when some keys are removed. -/
def fieldsWithout (p : Profile) (removed : List String) : List (String × Document) :=
  p.fields.filter fun f => f.1 ∉ removed

/-- The profile with the defaults for some of its keys. -/
def without (p : Profile) (removed : List String) : Profile where
  serviceRoot := if "service_root" ∈ removed then default.serviceRoot else p.serviceRoot
  registryPath := if "registry_path" ∈ removed then default.registryPath else p.registryPath
  registryProperty := if "registry_property" ∈ removed then default.registryProperty else p.registryProperty
  registryMarker := if "registry_marker" ∈ removed then default.registryMarker else p.registryMarker
  excludedRegistries := if "excluded_registries" ∈ removed then default.excludedRegistries else p.excludedRegistries
  eventProxy := if "event_proxy" ∈ removed then default.eventProxy else p.eventProxy
  classSuffix := if "class_suffix" ∈ removed then default.classSuffix else p.classSuffix
  namespaceSuffix := if "namespace_suffix" ∈ removed then default.namespaceSuffix else p.namespaceSuffix
  namePrefix := if "name_prefix" ∈ removed then default.namePrefix else p.namePrefix
  outParams := if "out_params" ∈ removed then default.outParams else p.outParams
  singletons := if "singletons" ∈ removed then default.singletons else p.singletons

/-- A field that was written is read, and one that was removed has its default. -/
theorem run_optional_without {α : Type} {P : α → Prop} {write : α → Document} {read : Decoder α} (p : Profile)
    (removed : List String) (h : Codec P write read) (key : String) (a default : α) (hmem : (key, write a) ∈ p.fields)
    (ha : P a) :
    (optional key read default).run (Json.named (p.fieldsWithout removed)) =
      .ok (if key ∈ removed then default else a) := by
  by_cases hremoved : key ∈ removed
  · rw [if_pos hremoved]
    refine run_optional_of_missing (occurrences_eq_nil ?_)
    rintro e he heq
    obtain ⟨f, hf, rfl⟩ := List.mem_map.mp he
    obtain rfl : f.1 = key := Option.some.inj heq
    exact absurd hremoved (of_decide_eq_true (List.mem_filter.mp hf).2)
  · rw [if_neg hremoved]
    have hkept : (some key, write a) ∈ Json.named (p.fieldsWithout removed) :=
      List.mem_map.mpr ⟨_, List.mem_filter.mpr ⟨hmem, decide_eq_true hremoved⟩, rfl⟩
    -- a reader refuses a key that occurs twice
    have hdistinct : ((Json.named (p.fieldsWithout removed)).map (·.1)).Nodup := by
      have hkeys : ((p.fieldsWithout removed).map (·.1)).Nodup := nodup_keys.sublist (List.filter_sublist.map _)
      have hnames : (Json.named (p.fieldsWithout removed)).map (·.1) =
          ((p.fieldsWithout removed).map (·.1)).map some := by
        rw [Json.named, List.map_map, List.map_map]
        rfl
      rw [hnames]
      exact List.Pairwise.map some (fun _ _ hne heq => hne (Option.some.inj heq)) hkeys
    obtain ⟨i, hi⟩ := exists_occurrence hkept hdistinct
    exact run_field_of_occurs hi (h.complete a ha)

/-- **A profile is decoded** from what is kept of its document, with the defaults for the rest. -/
theorem decoder_without (conv : Convention) (p : Profile) (removed : List String) :
    decoder conv (ofFields (p.fieldsWithout removed)) = .ok (p.without removed) := by
  have hstrange : (Json.named (p.fieldsWithout removed)).findIdx? (isStrange keys) = none := by
    refine List.findIdx?_eq_none_iff.mpr fun e he => ?_
    obtain ⟨f, hf, rfl⟩ := List.mem_map.mp he
    have hknown : keys.contains f.1 = true :=
      List.contains_iff_mem.mpr (map_fields p ▸ List.mem_map_of_mem (List.mem_of_mem_filter hf))
    show (!keys.contains f.1 && !f.2.isWhole) = false
    rw [hknown]
    rfl
  have htext (key s default : String) (hmem : (key, ofString s) ∈ p.fields) :
      (optional key Decoder.text default).run (Json.named (p.fieldsWithout removed)) =
        .ok (if key ∈ removed then default else s) :=
    run_optional_without p removed codec_text key s default hmem trivial
  have hroot := htext "service_root" p.serviceRoot default.serviceRoot (by simp [fields, values])
  have hpath := htext "registry_path" p.registryPath default.registryPath (by simp [fields, values])
  have hproperty := htext "registry_property" p.registryProperty default.registryProperty (by simp [fields, values])
  have hmarker := htext "registry_marker" p.registryMarker default.registryMarker (by simp [fields, values])
  have hexcluded := run_optional_without p removed codec_text.list "excluded_registries" p.excludedRegistries
    default.excludedRegistries (by simp [fields, values]) (fun _ _ => trivial)
  have hproxy := htext "event_proxy" p.eventProxy default.eventProxy (by simp [fields, values])
  have hclass := htext "class_suffix" p.classSuffix default.classSuffix (by simp [fields, values])
  have hspace := htext "namespace_suffix" p.namespaceSuffix default.namespaceSuffix (by simp [fields, values])
  have hprefix := htext "name_prefix" p.namePrefix default.namePrefix (by simp [fields, values])
  have hpolicy := run_optional_without p removed (codec_policy conv) "out_params" p.outParams default.outParams
    (by simp [fields, values]) trivial
  have hsingletons := run_optional_without p removed (codec_binding conv).list "singletons" p.singletons
    default.singletons (by simp [fields, values]) (fun _ _ => trivial)
  refine decode_eq_ok_iff.mpr ⟨_, rfl, ?_, hstrange⟩
  exact run_seq_of_run (run_seq_of_run (run_seq_of_run (run_seq_of_run (run_seq_of_run (run_seq_of_run
    (run_seq_of_run (run_seq_of_run (run_seq_of_run (run_seq_of_run (run_map_of_run hroot) hpath) hproperty) hmarker)
      hexcluded) hproxy) hclass) hspace) hprefix) hpolicy) hsingletons

/-! ## Text -/

theorem bare_keys : ∀ key ∈ keys, Toml.BareKey key := by
  decide +kernel

theorem value_values (p : Profile) : ∀ f ∈ p.values, Toml.Value f.2 := by
  intro f hf
  simp only [values, List.mem_cons, List.not_mem_nil, or_false] at hf
  have hpolicy : Toml.Value p.outParams.document := by
    cases p.outParams with
    | reject => exact .text "reject"
    | discard => exact .text "discard"
  rcases hf with rfl | rfl | rfl | rfl | rfl | rfl | rfl | rfl | rfl | rfl
  case inr.inr.inr.inr.inl => exact .texts p.excludedRegistries
  case inr.inr.inr.inr.inr.inr.inr.inr.inr => exact hpolicy
  all_goals exact .text _

/-- How a profile is laid out: bindings make an array of tables if there are any, and an empty list otherwise. -/
def layout (p : Profile) : Toml.Layout :=
  match p.singletons with
  | [] => ⟨p.fields, []⟩
  | b :: bs => ⟨p.values, [("singletons", (b :: bs).map SingletonBinding.fields)]⟩

theorem fields_layout (p : Profile) : p.layout.fields = p.fields := by
  unfold layout Toml.Layout.fields
  split
  · exact List.append_nil p.fields
  · next b bs h =>
    rw [fields, h, List.map_singleton, List.map_map]
    rfl

theorem plainKeys_binding (b : SingletonBinding) : Toml.PlainKeys b.fields where
  bare := by
    have hkeys : ∀ key ∈ ["type_name", "path"], Toml.BareKey key := by decide +kernel
    exact fun f hf => hkeys f.1 (List.mem_map_of_mem hf)
  distinct := show ["type_name", "path"].Nodup by decide

theorem value_binding (b : SingletonBinding) : ∀ f ∈ b.fields, Toml.Value f.2 := by
  intro f hf
  simp only [SingletonBinding.fields, List.mem_cons, List.not_mem_nil, or_false] at hf
  rcases hf with rfl | rfl
  · exact .text b.typeName
  · exact .text b.path

/-- **Every profile can be written.** -/
theorem plain_layout (p : Profile) : p.layout.Plain where
  keys := by
    rw [fields_layout]
    exact ⟨fun f hf => bare_keys f.1 (map_fields p ▸ List.mem_map_of_mem hf), nodup_keys⟩
  values := by
    unfold layout
    split
    · next h =>
      intro f hf
      rcases List.mem_append.mp hf with hf | hf
      · exact p.value_values f hf
      · rw [List.mem_singleton.mp hf, h]
        exact .texts []
    · exact p.value_values
  nonempty := by
    unfold layout
    split
    · exact fun a ha => absurd ha List.not_mem_nil
    · intro a ha
      rw [List.mem_singleton.mp ha]
      exact List.cons_ne_nil _ _
  records := by
    unfold layout
    split
    · exact fun a ha => absurd ha List.not_mem_nil
    · intro a ha r hr
      rw [List.mem_singleton.mp ha] at hr
      obtain ⟨b, -, rfl⟩ := List.mem_map.mp hr
      exact ⟨plainKeys_binding b, value_binding b⟩

/-- The parts of a profile's text with the keys they are for: the line or lines of a value, the tables of the
    bindings. -/
def parts (p : Profile) : List (String × String) :=
  p.fields.map fun f => (f.1, Toml.fieldText f)

/-- The text that is left when the parts for some keys are removed. -/
def textWithout (p : Profile) (removed : List String) : String :=
  String.join ((p.parts.filter fun part => part.1 ∉ removed).map (·.2))

theorem toToml_eq (p : Profile) : p.toToml = String.join (p.parts.map (·.2)) := by
  have htext := p.plain_layout.pretty_eq
  rw [fields_layout] at htext
  rw [toToml, document_eq, htext, parts, List.map_map]
  rfl

/-- **What is left of a profile's text** is read as the profile with the defaults for the keys that were removed. -/
theorem ofToml_textWithout (p : Profile) (removed : List String) :
    ofToml (p.textWithout removed) = (p.without removed).validate.mapError .invalid := by
  have hread := p.plain_layout.read_kept fun key => key ∉ removed
  rw [fields_layout] at hread
  have htext : p.textWithout removed =
      String.join ((p.fields.filter fun f => f.1 ∉ removed).map Toml.fieldText) := by
    rw [textWithout, parts, List.filter_map, List.map_map]
    rfl
  have hdecode : decoder Toml.convention (ofFields (p.fields.filter fun f => f.1 ∉ removed)) =
      .ok (p.without removed) :=
    decoder_without Toml.convention p removed
  unfold ofToml
  simp only [htext, hread, hdecode]

theorem validate_of_flaw?_eq_none {p : Profile} (h : p.flaw? = none) : p.validate = .ok p := by
  unfold validate
  rw [h]

theorem textWithout_nil (p : Profile) : p.textWithout [] = p.toToml := by
  have hall : (p.parts.filter fun part => part.1 ∉ ([] : List String)) = p.parts :=
    List.filter_eq_self.mpr fun part _ => decide_eq_true List.not_mem_nil
  rw [textWithout, hall, toToml_eq]

theorem without_nil (p : Profile) : p.without [] = p := by
  simp only [without, List.not_mem_nil, if_false]

/-- **Profiles are read back.** A profile that was written to a file, by any path that leads to no device, is what is
    read from there, or the rule it breaks is what is reported. And when the parts for any of the keys are removed from
    its text, what is left is read as the profile with the defaults for just these keys, or the rule is reported that
    this profile breaks. -/
theorem ofToml_toToml (p : Profile) :
    (∀ (disk written : Disk) (here : Place) (path : String), disk.device? here path = none →
      disk.write here path (Text.toUtf8 p.toToml) = .ok written →
      readProfile written here (some path) = p.validate.mapError fun flaw => .profileInvalid path (.invalid flaw)) ∧
    p.toToml = String.join (p.parts.map (·.2)) ∧
    ∀ removed : List String, ofToml (p.textWithout removed) = (p.without removed).validate.mapError .invalid := by
  refine ⟨?_, p.toToml_eq, p.ofToml_textWithout⟩
  intro disk written here path hdevice hwrite
  have hback : ofToml p.toToml = p.validate.mapError .invalid := by
    have hwhole := p.ofToml_textWithout []
    rwa [textWithout_nil, without_nil] at hwhole
  show ((written.readText here path).mapError (Failure.profileUnreadable path)).bind
    (fun text => (ofToml text).mapError (Failure.profileInvalid path)) = _
  rw [Disk.readText_of_write hdevice hwrite]
  show (ofToml p.toToml).mapError (Failure.profileInvalid path) = _
  rw [hback]
  cases p.validate <;> rfl

/-- A profile whose texts have quotes of both kinds, line breaks, control characters and nothing at all. -/
def odd : Profile where
  serviceRoot := "a\"b'\n\\\x01é"
  excludedRegistries := []
  classSuffix := ""
  namespaceSuffix := "\r\n'''\t"
  outParams := .discard
  singletons := [⟨"'''\"\"\"", "\"\"\"\""⟩, ⟨"T", "\x7f"⟩]

/-- It is read back from the file it is written to, and without two of its keys as what the others say. -/
theorem ofToml_toToml_odd :
    ∃ written, ({} : Disk).device? [] "p.toml" = none ∧
      ({} : Disk).write [] "p.toml" (Text.toUtf8 odd.toToml) = .ok written ∧
      readProfile written [] (some "p.toml") = .ok odd ∧
      ofToml (odd.textWithout ["service_root", "singletons"]) =
        .ok { odd with serviceRoot := default.serviceRoot, singletons := default.singletons } := by
  have hstored : Disk.Stored "p.toml" :=
    ⟨by decide, "p.toml", by decide, by decide, Disk.device?_concat (by decide) (by decide)⟩
  have hplace : ({} : Disk).place [] "p.toml" = .ok ["p.toml"] := by
    rw [Disk.place_eq hstored.slash, Disk.route_eq_ok_iff.mpr ⟨by simp, by decide, by decide, rfl⟩]
    rfl
  have hdevice : ({} : Disk).device? [] "p.toml" = none := Disk.device?_of_stored hstored hplace
  obtain ⟨written, hwrite, -⟩ := Disk.exists_write hstored hplace rfl (Text.toUtf8 odd.toToml)
  obtain ⟨hfile, -, hparts⟩ := ofToml_toToml odd
  have hvalid : odd.validate = .ok odd := validate_of_flaw?_eq_none (by decide +kernel)
  have hwithout : odd.without ["service_root", "singletons"] =
      { odd with serviceRoot := default.serviceRoot, singletons := default.singletons } := by decide +kernel
  refine ⟨written, hdevice, hwrite, ?_, ?_⟩
  · rw [hfile {} written [] "p.toml" hdevice hwrite, hvalid]
    rfl
  · rw [hparts, hwithout, validate_of_flaw?_eq_none (by decide +kernel)]
    rfl

end Profile

end BoundaryProxy
