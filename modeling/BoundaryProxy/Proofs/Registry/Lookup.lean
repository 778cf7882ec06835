import BoundaryProxy.Proofs.Catalog.Lookup

/-!
# `Proofs.Registry.Lookup` — registry sets by what they answer

A list of descriptors is a registry set exactly if no type occurs twice in one role (`ofList_eq_ok_iff`), so any order
of the descriptors of a set is a set too. What a set answers about a type depends neither on the order nor on
descriptors of other types (`byMember?_of_perm_append`, `byContainer?_of_perm_append`).
-/

namespace BoundaryProxy

/-- No type occurs twice in one role. -/
def Distinct (ds : List RegistryDescriptor) : Prop :=
  (ds.map (·.memberType)).Nodup ∧ (ds.map (·.registryType)).Nodup

/-- Descriptors that repeat no type are passed: they move over to those that were met. -/
theorem firstConflict_append {before front rest : List RegistryDescriptor} (h : Distinct (before ++ front)) :
    firstConflict before (front ++ rest) = firstConflict (before ++ front) rest := by
  induction front generalizing before with
  | nil => rw [List.nil_append, List.append_nil]
  | cons d front ih =>
    rw [List.cons_append, firstConflict, if_neg (not_mem_of_nodup_map h.1), if_neg (not_mem_of_nodup_map h.2),
      ih (List.append_cons before d front ▸ h), ← List.append_cons]

/-- Descriptors that repeat no type are met without a conflict. -/
theorem firstConflict_eq_none {before ds : List RegistryDescriptor}
    (hm : ((before ++ ds).map (·.memberType)).Nodup) (hr : ((before ++ ds).map (·.registryType)).Nodup) :
    firstConflict before ds = none := by
  have hpass : firstConflict before (ds ++ []) = firstConflict (before ++ ds) [] := firstConflict_append ⟨hm, hr⟩
  rwa [List.append_nil] at hpass

/-- Where keys do not repeat, what is found by its key depends neither on the order nor on items of other keys. -/
theorem find?_key_of_perm_append {α κ : Type} [DecidableEq κ] {key : α → κ} {xs ys extra : List α} {k : κ}
    (h : ys.Perm (xs ++ extra)) (hnodup : (ys.map key).Nodup) (hextra : ∀ x ∈ extra, key x ≠ k) :
    ys.find? (key · = k) = xs.find? (key · = k) := by
  have hnone : extra.find? (key · = k) = none := by
    rw [List.find?_eq_none]
    intro x hx
    simpa using hextra x hx
  rw [find?_key_of_perm h hnodup, List.find?_append, hnone, Option.or_none]

namespace RegistrySet

variable {r r' : RegistrySet} {ds extra : List RegistryDescriptor} {t : TypeExpr}

/-- **A set is the list it is made of**, in that order. -/
theorem ofList_eq_ok_iff : ofList ds = .ok r ↔ r.descriptors = ds := by
  constructor
  · intro h
    unfold ofList at h
    split at h
    · cases h
    · exact congrArg RegistrySet.descriptors (Except.ok.inj h).symm
  · rintro rfl
    have hnone : firstConflict [] r.descriptors = none := firstConflict_eq_none r.members_nodup r.containers_nodup
    unfold ofList
    split
    · rename_i conflict hsome
      rw [hnone] at hsome
      cases hsome
    · rfl

/-- Any order of the descriptors of a set is a set. -/
theorem exists_ofList_of_perm (h : ds.Perm r.descriptors) : ∃ r', ofList ds = .ok r' :=
  ⟨⟨ds, (h.map _).nodup_iff.mpr r.members_nodup, (h.map _).nodup_iff.mpr r.containers_nodup⟩,
    ofList_eq_ok_iff.mpr rfl⟩

/-- A member type leads to the descriptor it led to before others were added and all were reordered. -/
theorem byMember?_of_perm_append (h : r'.descriptors.Perm (r.descriptors ++ extra))
    (hextra : ∀ d ∈ extra, d.memberType ≠ t) : r'.byMember? t = r.byMember? t :=
  find?_key_of_perm_append h r'.members_nodup hextra

/-- And so does a container type. -/
theorem byContainer?_of_perm_append (h : r'.descriptors.Perm (r.descriptors ++ extra))
    (hextra : ∀ d ∈ extra, d.registryType ≠ t) : r'.byContainer? t = r.byContainer? t :=
  find?_key_of_perm_append h r'.containers_nodup hextra

end RegistrySet

end BoundaryProxy
