import BoundaryProxy.Proofs.Catalog.Lookup
import BoundaryProxy.Proofs.Interface.Document
import Mathlib

/-!
# `Proofs.Catalog.RoundTrip` — catalogs are read back from JSON

A catalog is written without its index. What is read back is the list of interfaces with the host, and the index made
anew answers as the old one did, however that one came to be, since both answer with the last interface of a type
(`Built.get?_eq`).

* **`ofJson_toJson`**: a catalog whose types are well formed is read back from its text, and every catalog that is read
  is of this kind.
-/

namespace BoundaryProxy.Catalog

open Document Reading

/-- The types of a catalog are written as they are read. -/
structure WellTyped (c : Catalog) : Prop where
  host : ∀ t, c.host = some t → t.WellNamed
  models : ∀ i ∈ c.models, i.WellTyped

variable {c : Catalog} (conv : Convention)

theorem plain_document (c : Catalog) : c.document.Plain := by
  refine Document.Plain.record fun f hf => ?_
  rcases List.mem_append.mp hf with hhost | hmodels
  · cases hh : c.host with
    | none =>
      rw [hh] at hhost
      cases hhost
    | some t =>
      rw [hh] at hhost
      rw [List.mem_singleton.mp hhost]
      exact codec_type.plain t
  · rw [List.mem_singleton.mp hmodels]
    exact (codec_interface Json.convention).list.plain c.models

/-- What is decoded is well typed. -/
theorem wellTyped_of_decoder {d : Document} (h : decoder conv d = .ok c) : c.WellTyped := by
  obtain ⟨es, host, models, -, hhost, hmodels, rfl⟩ := decoder_eq_ok h
  exact {
    host := codec_nullable_type.of_optional (by rintro t ⟨⟩) hhost
    models := (codec_interface conv).list.of_optional (fun _ hi => absurd hi List.not_mem_nil) hmodels }

/-- A well typed catalog is decoded from its document, with a new index. -/
theorem decoder_document (h : c.WellTyped) : decoder conv c.document = .ok (ofParts c.host c.models) := by
  have hmodels := (codec_interface conv).list.complete c.models h.models
  obtain ⟨host, models, index⟩ := c
  -- without a host the field is not written, and its default is none
  cases host with
  | none =>
    refine decode_eq_ok_iff.mpr ⟨_, rfl, ?_, rfl⟩
    exact run_seq_of_run (run_map_of_run (run_optional_of_missing rfl)) (run_field_of_occurs rfl hmodels)
  | some t =>
    refine decode_eq_ok_iff.mpr ⟨_, rfl, ?_, rfl⟩
    have hhost := codec_nullable_type.complete (some t) h.host
    exact run_seq_of_run (run_map_of_run (run_field_of_occurs rfl hhost)) (run_field_of_occurs rfl hmodels)

/-- A well typed catalog is read back from its text, with a new index. -/
theorem ofJson_eq_ofParts (h : c.WellTyped) : ofJson c.toJson = .ok (ofParts c.host c.models) := by
  have hread : Json.read c.toJson = (c.document, some []) := Json.read_pretty c.plain_document
  refine Json.decode_eq_ok_iff.mpr ⟨?_, ?_⟩
  · rw [hread]
    exact decoder_document Json.convention h
  · rw [hread]
    rfl

/-- **Catalogs are read back.** What is read from a text is well typed. And a well typed catalog, however it was built,
    is read back from its text: the host and the list of interfaces are the same, and so is what is found for every
    type and every name. -/
theorem ofJson_toJson :
    (∀ (text : String) (c : Catalog), ofJson text = .ok c → c.WellTyped) ∧
    ∀ c : Catalog, c.Built → c.WellTyped → ∃ c', ofJson c.toJson = .ok c' ∧ c'.host = c.host ∧ c'.models = c.models ∧
      (∀ t, c'.get? t = c.get? t) ∧ ∀ name, c'.find? name = c.find? name := by
  constructor
  · intro text c h
    obtain ⟨d, hd⟩ := exists_decode_of_ofJson h
    exact wellTyped_of_decoder Json.convention hd
  · intro c hbuilt htyped
    -- the old index may have been made in other ways than the new one, but both are built
    have hread := ofJson_eq_ofParts htyped
    have hget : (ofParts c.host c.models).get? = c.get? := hbuilt.get?_congr (.ofJson hread) rfl
    exact ⟨_, hread, rfl, rfl, fun t => congrFun hget t, fun _ => rfl⟩

set_option maxRecDepth 1024 in
/-- A text that leaves out what has a default is read, and a catalog that repeats a type, one of whose methods has a
    name that needs escapes, is read back. -/
theorem ofJson_toJson_repeated :
    let text := "\x7b\"types\":[\x7b\"type\":\"Ns.A\",\"methods\":[\x7b\"name\":\"M\"\x7d]\x7d]\x7d"
    let defaulted := ofParts none [{ type := .named "Ns.A", methods := [⟨"M", [], .void, false⟩] }]
    let odd : Interface := {
      type := .named "Ns.A"
      methods := [⟨"\"a\\b\"\n\x01ä/", [⟨"", .int, .output⟩], .void, true⟩]
      events := [⟨"", none⟩] }
    let c := (defaulted.add odd).withHost (.named "Ns.IHost")
    ofJson text = .ok defaulted ∧ defaulted.WellTyped ∧ c.Built ∧ c.WellTyped ∧
      ∃ c', ofJson c.toJson = .ok c' ∧ c'.host = some (.named "Ns.IHost") ∧ c'.models = c.models ∧
        c'.get? (.named "Ns.A") = some odd := by
  intro text defaulted odd c
  let d : Document := ofFields [("types", .list [ofFields [("type", ofString "Ns.A"),
    ("methods", .list [ofFields [("name", ofString "M")]])]])]
  have hdocument : Json.read text = (d, some []) := by cbv
  have hread : ofJson text = .ok defaulted := by
    refine Json.decode_eq_ok_iff.mpr ⟨?_, ?_⟩
    · rw [hdocument]
      rfl
    · rw [hdocument]
      rfl
  have hdefaulted : defaulted.WellTyped := ofJson_toJson.1 text defaulted hread
  have hbuilt : c.Built := .withHost _ (.add _ (.ofJson hread))
  have hint : TypeExpr.int.WellNamed := (TypeExpr.compact_of_parse (s := "System.Int32") (by decide +kernel)).1
  have hhost : (TypeExpr.named "Ns.IHost").WellNamed :=
    (TypeExpr.compact_of_parse (s := "Ns.IHost") (by decide +kernel)).1
  have hodd : odd.WellTyped := {
    type := (hdefaulted.models _ List.mem_cons_self).type
    methods := by
      intro m hm
      rw [List.mem_singleton.mp hm]
      exact ⟨fun p hp => List.mem_singleton.mp hp ▸ hint, wellNamed_void⟩
    properties := fun _ hp => absurd hp List.not_mem_nil
    events := by
      intro e he t ht
      rw [List.mem_singleton.mp he] at ht
      cases ht
    bases := fun _ ht => absurd ht List.not_mem_nil }
  have htyped : c.WellTyped := by
    constructor
    · rintro t ⟨⟩
      exact hhost
    · intro i hi
      rcases List.mem_append.mp hi with hi | hi
      · exact hdefaulted.models i hi
      · exact List.mem_singleton.mp hi ▸ hodd
  obtain ⟨c', hback, hhost', hmodels, hget, -⟩ := ofJson_toJson.2 c hbuilt htyped
  refine ⟨hread, hdefaulted, hbuilt, htyped, c', hback, hhost', hmodels, ?_⟩
  rw [hget, hbuilt.get?_eq]
  rfl

end BoundaryProxy.Catalog
