import BoundaryProxy.Catalog.Json
import BoundaryProxy.Members.Basic
import BoundaryProxy.Proofs.Document.Decoder
import BoundaryProxy.Registry.Discovery
import Mathlib.Data.List.Find
import Mathlib.Data.List.Induction
import Mathlib.Data.List.Nodup

/-!
# `Proofs.Catalog.Lookup` — the index of a catalog

However a catalog came to be (`Catalog.Built`), its index answers with the last interface of a type
(`Built.get?_eq`). Each way of making a catalog is a row of additions to an empty one, so this needs to be shown of
one addition only.

The walks over a catalog look at it through `get?` alone: two catalogs that answer alike give the same members and
the same registries. Where no type occurs twice, the answers do not depend on the order of the interfaces.
-/

namespace BoundaryProxy

/-! ## Lists whose keys do not repeat -/

section Keys

variable {α κ : Type} {key : α → κ} {xs ys : List α} {x : α} {k : κ}

theorem not_mem_of_nodup_map (h : ((xs ++ x :: ys).map key).Nodup) : key x ∉ xs.map key := by
  rw [List.map_append, List.map_cons] at h
  intro hmem
  exact List.disjoint_of_nodup_append h hmem List.mem_cons_self

variable [DecidableEq κ]

/-- What is found by its key is the one item that has it. -/
theorem find?_key_eq_some_iff (h : (xs.map key).Nodup) : xs.find? (key · = k) = some x ↔ x ∈ xs ∧ key x = k := by
  constructor
  · intro hfind
    exact ⟨List.mem_of_find?_eq_some hfind, by simpa using List.find?_some hfind⟩
  · rintro ⟨hx, rfl⟩
    have hsome : (xs.find? (key · = key x)).isSome := List.find?_isSome.mpr ⟨x, hx, decide_eq_true rfl⟩
    obtain ⟨y, hy⟩ := Option.isSome_iff_exists.mp hsome
    have hkey : key y = key x := by simpa using List.find?_some hy
    rw [hy, List.inj_on_of_nodup_map h (List.mem_of_find?_eq_some hy) hx hkey]

/-- What is found by its key does not depend on the order. -/
theorem find?_key_of_perm (h : xs.Perm ys) (hnodup : (xs.map key).Nodup) (k : κ) :
    xs.find? (key · = k) = ys.find? (key · = k) := by
  refine List.find?_eq_find?_of_perm h ?_
  rintro x ⟨hx, hkey⟩ y ⟨hy, hkey'⟩
  refine List.inj_on_of_nodup_map hnodup hx hy ?_
  rw [of_decide_eq_true hkey, of_decide_eq_true hkey']

end Keys

namespace Catalog

variable {c c' : Catalog} {t : TypeExpr}

/-! ## The index -/

/-- The index leads to interfaces of the catalog, for each type to the last. -/
structure Indexed (c : Catalog) : Prop where
  bound : ∀ (t : TypeExpr) (i : Nat), c.index[t]? = some i → i < c.models.length
  last : ∀ t, c.get? t = c.models.reverse.find? (·.type = t)

theorem indexed_empty : (ofModels []).Indexed where
  bound := fun t i h => by
    have hnone : (ofModels []).index[t]? = none := Std.HashMap.getElem?_empty
    rw [hnone] at h
    cases h
  last := fun t => by
    have hnone : (ofModels []).position? t = none := Std.HashMap.getElem?_empty
    rw [get?, hnone]
    rfl

/-- The interface that is added is looked up at the end of the list, the others where they were. -/
theorem position?_add (c : Catalog) (model : Interface) (t : TypeExpr) :
    (c.add model).position? t = if model.type = t then some c.models.length else c.position? t := by
  show (c.index.insert model.type c.models.length)[t]? = _
  rw [Std.HashMap.getElem?_insert]
  by_cases ht : model.type = t <;> simp [ht, position?]

/-- The interface that is added answers for its type, the others as before. -/
theorem Indexed.add (h : c.Indexed) (model : Interface) : (c.add model).Indexed := by
  have hindex : ∀ t, (c.add model).index[t]? =
      if model.type = t then some c.models.length else c.index[t]? := c.position?_add model
  have hlength : (c.add model).models.length = c.models.length + 1 := List.length_append
  constructor
  · intro t i hi
    rw [hindex] at hi
    rw [hlength]
    by_cases ht : model.type = t
    · rw [if_pos ht] at hi
      obtain rfl := Option.some.inj hi
      exact Nat.lt_succ_self _
    · rw [if_neg ht] at hi
      exact Nat.lt_succ_of_lt (h.bound t i hi)
  · intro t
    show ((c.add model).index[t]?).bind ((c.models ++ [model])[·]?) =
      (c.models ++ [model]).reverse.find? (·.type = t)
    rw [hindex, List.reverse_append]
    by_cases ht : model.type = t
    · rw [if_pos ht]
      simp [ht]
    · rw [if_neg ht]
      have hlast : c.index[t]?.bind (c.models[·]?) = c.models.reverse.find? (·.type = t) := h.last t
      have hrest : ([model].reverse ++ c.models.reverse).find? (·.type = t) =
          c.models.reverse.find? (·.type = t) := by
        simp [ht]
      rw [hrest, ← hlast]
      -- a position of the index lies before the interface that is added
      cases hi : c.index[t]? with
      | none => rfl
      | some i => exact List.getElem?_append_left (h.bound t i hi)

/-- A list of interfaces is indexed as if they were added one by one. -/
theorem ofModels_concat (models : List Interface) (model : Interface) :
    ofModels (models ++ [model]) = (ofModels models).add model := by
  unfold ofModels add positions
  rw [List.zipIdx_append, List.foldl_append]
  simp

theorem Indexed.withHost (h : c.Indexed) (host : Option TypeExpr) : ({ c with host } : Catalog).Indexed :=
  ⟨h.bound, h.last⟩

/-! ## The catalogs there are -/

/-- A catalog comes from a list of interfaces or from a JSON text, gets more interfaces at its end and may have its
    host named. -/
inductive Built : Catalog → Prop
  | ofModels (models : List Interface) : Built (.ofModels models)
  | ofJson {text : String} {c : Catalog} : Catalog.ofJson text = .ok c → Built c
  | add {c : Catalog} (model : Interface) : Built c → Built (c.add model)
  | withHost {c : Catalog} (host : TypeExpr) : Built c → Built (c.withHost host)

/-- A catalog that is read is made from what the text says. -/
theorem exists_decode_of_ofJson {text : String} (h : ofJson text = .ok c) :
    ∃ d, decoder Json.convention d = .ok c := by
  exact ⟨_, (Json.decode_eq_ok_iff.mp h).1⟩

open Reading in
/-- A catalog is decoded from its two parts. -/
theorem decoder_eq_ok {conv : Convention} {d : Document} (h : decoder conv d = .ok c) :
    ∃ es host models, entries? conv ["host", "types"] d = some es ∧
      (optional "host" (Decoder.nullable Decoder.type) none).run es = .ok host ∧
      (optional "types" (Decoder.list (Interface.decoder conv)) []).run es = .ok models ∧
      c = ofParts host models := by
  obtain ⟨es, hes, hrun, -⟩ := decode_eq_ok_iff.mp h
  obtain ⟨make, models, hmake, hmodels, rfl⟩ := run_seq_eq_ok_iff.mp hrun
  obtain ⟨host, hhost, rfl⟩ := run_map_eq_ok_iff.mp hmake
  exact ⟨es, host, models, hes, hhost, hmodels, rfl⟩

/-- **What holds of every catalog.** It is enough that it holds of the empty one and is kept by an addition and by
    naming the host. -/
theorem Built.invariant {P : Catalog → Prop} (h : c.Built) (empty : P (.ofModels []))
    (add : ∀ c model, P c → P (c.add model)) (named : ∀ (c : Catalog) host, P c → P { c with host }) : P c := by
  have hmodels : ∀ models, P (.ofModels models) := by
    intro models
    induction models using List.reverseRecOn with
    | nil => exact empty
    | append_singleton models model ih =>
      rw [ofModels_concat]
      exact add _ model ih
  induction h with
  | ofModels models => exact hmodels models
  | ofJson h =>
    obtain ⟨d, hd⟩ := exists_decode_of_ofJson h
    obtain ⟨-, host, models, -, -, -, rfl⟩ := decoder_eq_ok hd
    exact named _ host (hmodels models)
  | add model _ ih => exact add _ model ih
  | withHost host _ ih => exact named _ (some host) ih

theorem Built.indexed (h : c.Built) : c.Indexed :=
  h.invariant indexed_empty (fun _ model hc => hc.add model) fun _ host hc => hc.withHost host

/-- **Of a type the last interface answers.** -/
theorem Built.get?_eq (h : c.Built) (t : TypeExpr) : c.get? t = c.models.reverse.find? (·.type = t) :=
  h.indexed.last t

/-- Catalogs of the same interfaces answer alike. -/
theorem Built.get?_congr (h : c.Built) (h' : c'.Built) (hmodels : c'.models = c.models) : c'.get? = c.get? := by
  funext t
  rw [h.get?_eq, h'.get?_eq, hmodels]

/-- Catalogs of the same interfaces in any order answer alike, where no type occurs twice. -/
theorem Built.get?_of_perm (h : c.Built) (h' : c'.Built) (hnodup : (c.models.map (·.type)).Nodup)
    (hperm : c'.models.Perm c.models) : c'.get? = c.get? := by
  have hperm' : c.models.reverse.Perm c'.models.reverse :=
    c.models.reverse_perm.trans (hperm.symm.trans c'.models.reverse_perm.symm)
  have hnodup' : (c.models.reverse.map (·.type)).Nodup := by
    rw [List.map_reverse]
    exact List.nodup_reverse.mpr hnodup
  funext t
  rw [h.get?_eq, h'.get?_eq]
  exact (find?_key_of_perm hperm' hnodup' t).symm

/-! ## What looks at a catalog -/

/-- A walk depends on the answers alone. -/
theorem reach_congr (h : c'.get? = c.get?) (next : Interface → List TypeExpr) (pending visited : List TypeExpr) :
    c'.reach next pending visited = c.reach next pending visited := by
  induction pending, visited using reach.induct c next with
  | case1 visited => rw [reach_nil, reach_nil]
  | case2 visited t rest hmem ih => rw [reach_cons_of_mem hmem, reach_cons_of_mem hmem, ih]
  | case3 visited t rest hnew hnone ih =>
    rw [reach_cons_of_get?_eq_none hnew hnone, reach_cons_of_get?_eq_none hnew (h ▸ hnone), ih]
  | case4 visited t rest hnew model hsome ih =>
    rw [reach_cons_of_get?_eq_some hnew hsome, reach_cons_of_get?_eq_some hnew (h ▸ hsome), ih]

/-- So do the members of an interface, -/
theorem members_congr (h : c'.get? = c.get?) (policy : OutParamPolicy) (wrapped : Interface) :
    c'.members policy wrapped = c.members policy wrapped := by
  unfold members lineage
  rw [reach_congr h]

/-- and the registries of a host, with what is reported on the way. -/
theorem discoverRegistries_congr (h : c'.get? = c.get?) (p : Profile) (root : Interface) :
    discoverRegistries c' p root = discoverRegistries c p root := by
  have hexamine : Discovery.examine c' p = Discovery.examine c p := by
    funext root property
    unfold Discovery.examine Discovery.memberType?
    rw [reach_congr h]
  unfold discoverRegistries
  rw [h, hexamine]

end Catalog

end BoundaryProxy
