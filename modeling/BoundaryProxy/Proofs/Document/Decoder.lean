import BoundaryProxy.Json.Reader
import Mathlib.Data.List.Forall2

/-!
# `Proofs.Document.Decoder` — when a decoder gives a value

A decoder gives a value if every part of it does, and for each way of putting decoders together this is an
equivalence: lists (`list_eq_ok_iff`), single fields (`run_field_eq_ok_iff`), fields after fields
(`run_seq_eq_ok_iff`), whole records (`Reading.decode_eq_ok_iff`) and texts (`Json.decode_eq_ok_iff`). Read from left to
right they say what is known of a decoded value, from right to left they decode what was written. Where names are
distinct, a field occurs once or not at all (`exists_occurrence`, `occurrences_eq_nil`).
-/

namespace BoundaryProxy

variable {α β ε ε' : Type}

namespace Decoder

theorem bind_eq_ok_iff {x : Except ε α} {f : α → Except ε β} {b : β} :
    (x >>= f) = .ok b ↔ ∃ a, x = .ok a ∧ f a = .ok b := by
  cases x with
  | error e => exact ⟨fun h => (nomatch h), fun ⟨_, hx, _⟩ => (nomatch hx)⟩
  | ok a => exact ⟨fun h => ⟨a, rfl, h⟩, fun ⟨_, hx, hf⟩ => Except.ok.inj hx ▸ hf⟩

/-- In which words an error is reported does not matter to a value. -/
theorem mapError_eq_ok_iff {x : Except ε α} {f : ε → ε'} {a : α} : x.mapError f = .ok a ↔ x = .ok a := by
  cases x <;> simp [Except.mapError]

/-! ## Single values -/

theorem type_eq_ok_iff {d : Document} {t : TypeExpr} :
    Decoder.type d = .ok t ↔ ∃ s, d = .text (some s) ∧ TypeExpr.parse s = .ok t := by
  constructor
  · intro h
    unfold Decoder.type at h
    split at h
    · rename_i s
      split at h
      · rename_i hparse
        exact ⟨s, rfl, Except.ok.inj h ▸ hparse⟩
      · cases h
    · cases h
  · rintro ⟨s, rfl, hparse⟩
    unfold Decoder.type
    dsimp only
    rw [hparse]

theorem nullable_eq_ok_iff {value : Decoder α} {d : Document} {a : Option α} :
    nullable value d = .ok a ↔ (d = .null ∧ a = none) ∨ (d ≠ .null ∧ ∃ x, value d = .ok x ∧ a = some x) := by
  cases d with
  | null =>
    refine ⟨fun h => .inl ⟨rfl, (Except.ok.inj h).symm⟩, ?_⟩
    rintro (⟨-, rfl⟩ | ⟨hne, -⟩)
    · rfl
    · exact absurd rfl hne
  | _ =>
    simp only [nullable, reduceCtorEq, false_and, false_or, ne_eq, not_false_eq_true, true_and]
    constructor
    · intro h
      cases hx : value _ with
      | error e =>
        rw [hx] at h
        cases h
      | ok x =>
        rw [hx] at h
        exact ⟨x, rfl, (Except.ok.inj h).symm⟩
    · rintro ⟨x, hx, rfl⟩
      rw [hx]
      rfl

/-- A list is decoded item by item. -/
theorem mapM_eq_ok_iff {value : Decoder α} {items : List Document} {xs : List α} :
    items.mapM value = .ok xs ↔ List.Forall₂ (fun d x => value d = .ok x) items xs := by
  induction items generalizing xs with
  | nil =>
    rw [List.mapM_nil, List.forall₂_nil_left_iff]
    exact ⟨fun h => (Except.ok.inj h).symm, fun h => congrArg Except.ok h.symm⟩
  | cons d items ih =>
    rw [List.mapM_cons, List.forall₂_cons_left_iff, bind_eq_ok_iff]
    constructor
    · rintro ⟨x, hx, h⟩
      obtain ⟨rest, hrest, h⟩ := bind_eq_ok_iff.mp h
      exact ⟨x, rest, hx, ih.mp hrest, (Except.ok.inj h).symm⟩
    · rintro ⟨x, rest, hx, hrest, rfl⟩
      exact ⟨x, hx, bind_eq_ok_iff.mpr ⟨rest, ih.mpr hrest, rfl⟩⟩

theorem list_eq_ok_iff {value : Decoder α} {d : Document} {xs : List α} :
    Decoder.list value d = .ok xs ↔
      ∃ items, d = .list items ∧ List.Forall₂ (fun d x => value d = .ok x) items xs := by
  cases d with
  | list items =>
    rw [Decoder.list, mapM_eq_ok_iff]
    refine ⟨fun h => ⟨items, rfl, h⟩, ?_⟩
    rintro ⟨items', hitems, h⟩
    obtain rfl := Document.list.inj hitems
    exact h
  | _ => simp [Decoder.list]

end Decoder

/-! ## Records -/

namespace Reading

/-- A value is read without a look at the fields. -/
theorem run_pure (a : α) (es : Entries) : (pure a : Reading α).run es = .ok a :=
  rfl

theorem run_seq_eq_ok_iff {f : Reading (α → β)} {x : Reading α} {es : Entries} {b : β} :
    (f <*> x).run es = .ok b ↔ ∃ g a, f.run es = .ok g ∧ x.run es = .ok a ∧ g a = b := by
  show (Reading.seq f fun _ => x).run es = .ok b ↔ _
  -- a value comes of two values only, the other three cases are faults
  dsimp only [Reading.seq]
  cases f.run es with
  | error e => cases x.run es <;> simp
  | ok g => cases x.run es <;> simp

theorem run_map_eq_ok_iff {f : α → β} {x : Reading α} {es : Entries} {b : β} :
    (f <$> x).run es = .ok b ↔ ∃ a, x.run es = .ok a ∧ f a = b := by
  show (pure f <*> x : Reading β).run es = .ok b ↔ _
  rw [run_seq_eq_ok_iff]
  constructor
  · rintro ⟨g, a, hg, ha, hb⟩
    obtain rfl := Except.ok.inj ((run_pure f es).symm.trans hg)
    exact ⟨a, ha, hb⟩
  · rintro ⟨a, ha, hb⟩
    exact ⟨f, a, rfl, ha, hb⟩

/-- A field gives a value if it is missing and has a default, or occurs once. -/
theorem run_field_eq_ok_iff {name : String} {value : Decoder α} {missing : Except Fault α} {es : Entries} {a : α} :
    (field name value missing).run es = .ok a ↔
      (occurrences name es = [] ∧ missing = .ok a) ∨
        ∃ d i, occurrences name es = [(d, i)] ∧ value d = .ok a := by
  dsimp only [field]
  cases occurrences name es with
  | nil => cases missing <;> simp [Except.mapError]
  | cons first others =>
    obtain ⟨d, i⟩ := first
    cases hd : value d with
    | error fault => simp [hd]
    | ok x => cases others <;> simp [hd]

/-- A field that no entry is for occurs nowhere, from whatever position the entries are counted. -/
theorem filterMap_zipIdx_eq_nil (name : String) {es : Entries} (h : ∀ e ∈ es, e.1 ≠ some name) (k : Nat) :
    ((es.zipIdx k).filterMap fun ((key, value), i) => if key = some name then some (value, i) else none) = [] := by
  refine List.filterMap_eq_nil_iff.mpr fun e he => if_neg ?_
  exact h e.1 (List.fst_mem_of_mem_zipIdx he)

theorem occurrences_eq_nil {name : String} {es : Entries} (h : ∀ e ∈ es, e.1 ≠ some name) : occurrences name es = [] :=
  filterMap_zipIdx_eq_nil name h 0

/-- A field occurs once if no other entry has its name. -/
theorem exists_occurrence {name : String} {es : Entries} {d : Document} (hmem : (some name, d) ∈ es)
    (hdistinct : (es.map (·.1)).Nodup) :
    ∃ i, occurrences name es = [(d, i)] := by
  obtain ⟨front, back, rfl⟩ := List.append_of_mem hmem
  rw [List.map_append, List.map_cons, List.nodup_append, List.nodup_cons] at hdistinct
  obtain ⟨-, ⟨hback, -⟩, hfront⟩ := hdistinct
  have hbefore : occurrences name front = [] :=
    occurrences_eq_nil fun e he heq => hfront _ (List.mem_map_of_mem he) _ List.mem_cons_self heq
  have hnone : ∀ e ∈ back, e.1 ≠ some name := fun e he heq => hback (List.mem_map.mpr ⟨e, he, heq⟩)
  have hafter := filterMap_zipIdx_eq_nil name hnone (0 + front.length + 1)
  refine ⟨0 + front.length, ?_⟩
  unfold occurrences at hbefore ⊢
  rw [List.zipIdx_append, List.filterMap_append, hbefore, List.nil_append, List.zipIdx_cons, List.filterMap_cons]
  simp only [hafter, if_true]

theorem decode_eq_ok_iff {conv : Convention} {names : List String} {reading : Reading α} {d : Document} {a : α} :
    decode conv names reading d = .ok a ↔
      ∃ es, entries? conv names d = some es ∧ reading.run es = .ok a ∧ es.findIdx? (isStrange names) = none := by
  have hpass : ∀ es : Entries, (passOver names).run es = .ok () ↔ es.findIdx? (isStrange names) = none := by
    intro es
    dsimp only [passOver]
    cases es.findIdx? (isStrange names) <;> simp
  unfold decode
  cases entries? conv names d with
  | none => simp
  | some es =>
    -- the position of a fault is dropped, which no value notices
    simp only [Decoder.mapError_eq_ok_iff, run_seq_eq_ok_iff, run_map_eq_ok_iff, Option.some.injEq, exists_eq_left']
    constructor
    · rintro ⟨g, u, ⟨x, hx, rfl⟩, hu, rfl⟩
      exact ⟨hx, (hpass es).mp hu⟩
    · rintro ⟨hx, hstrange⟩
      exact ⟨fun _ => a, (), ⟨a, hx, rfl⟩, (hpass es).mpr hstrange, rfl⟩

end Reading

/-! ## Texts -/

theorem Json.decode_eq_ok_iff {value : Decoder α} {s : String} {a : α} :
    Json.decode value s = .ok a ↔ value (Json.read s).1 = .ok a ∧ Json.isEnd (Json.read s).2 = true := by
  unfold Json.decode
  obtain ⟨d, rest⟩ := Json.read s
  dsimp only
  cases value d with
  | error fault => simp
  | ok a' => cases Json.isEnd rest <;> simp

end BoundaryProxy
