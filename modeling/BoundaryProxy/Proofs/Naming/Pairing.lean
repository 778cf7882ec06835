import BoundaryProxy.Proofs.Naming.Supply
import Mathlib.Logic.Equiv.Basic

/-!
# `Proofs.Naming.Pairing` — names of one run beside names of another

Two runs that do the same may issue different names. A `Pairing` lists which name of the second stands for which of
the first; it only grows while they run. A renaming `Follows` a pairing if it takes each name to the one beside it.
As long as no name occurs twice on a side there is a permutation of all names that does (`exists_perm_follows`).

What the runs produce is compared by `Agree`: every renaming that follows the pairing takes the one to the other. So
what agrees once agrees for good (`Agree.mono`).
-/

namespace BoundaryProxy

variable {α β : Type}

/-- Names of one run, each beside the name that stands for it in another. -/
abbrev Pairing :=
  List (String × String)

namespace Pairing

variable {ρ ρ' : Pairing} {x y : String}

/-- The names of the first run. -/
def left (ρ : Pairing) : List String :=
  ρ.map Prod.fst

/-- The names of the second run. -/
def right (ρ : Pairing) : List String :=
  ρ.map Prod.snd

/-- The renaming takes each name to the one beside it. -/
def Follows (rename : String → String) (ρ : Pairing) : Prop :=
  ∀ p ∈ ρ, rename p.1 = p.2

theorem Follows.mono {rename : String → String} (h : Follows rename ρ') (hρ : ρ ⊆ ρ') : Follows rename ρ :=
  fun p hp => h p (hρ hp)

theorem left_mem (h : (x, y) ∈ ρ) : x ∈ ρ.left :=
  List.mem_map_of_mem h

theorem right_mem (h : (x, y) ∈ ρ) : y ∈ ρ.right :=
  List.mem_map_of_mem h

/-- **A pairing without repetitions is followed by a permutation.** To pair one more name, the name it has so far is
    swapped with the one it is to have; neither stands for any other name of the pairing. -/
theorem exists_perm_follows (hleft : ρ.left.Nodup) (hright : ρ.right.Nodup) :
    ∃ rename : Equiv.Perm String, Follows rename ρ := by
  induction ρ with
  | nil => exact ⟨Equiv.refl String, fun _ hp => absurd hp List.not_mem_nil⟩
  | cons p ρ ih =>
    obtain ⟨x, y⟩ := p
    obtain ⟨hx, hleft⟩ := List.nodup_cons.mp hleft
    obtain ⟨hy, hright⟩ := List.nodup_cons.mp hright
    obtain ⟨rename, hfollows⟩ := ih hleft hright
    refine ⟨rename.trans (Equiv.swap (rename x) y), List.forall_mem_cons.mpr ⟨Equiv.swap_apply_left _ _, ?_⟩⟩
    rintro ⟨u, v⟩ huv
    have hu : rename u = v := hfollows _ huv
    have hux : v ≠ rename x := by
      rw [← hu]
      intro heq
      exact hx (rename.injective heq ▸ left_mem huv)
    have hvy : v ≠ y := by
      rintro rfl
      exact hy (right_mem huv)
    show Equiv.swap (rename x) y (rename u) = v
    rw [hu, Equiv.swap_apply_of_ne_of_ne hux hvy]

end Pairing

open Pairing

/-- Every renaming that follows the pairing takes `x` to `y`. -/
def Agree (renamed : (String → String) → α → β) (ρ : Pairing) (x : α) (y : β) : Prop :=
  ∀ rename, Follows rename ρ → renamed rename x = y

variable {renamed : (String → String) → α → β} {ρ ρ' : Pairing}

/-- What agrees goes on to agree when more names are paired. -/
theorem Agree.mono {x : α} {y : β} (h : Agree renamed ρ x y) (hρ : ρ ⊆ ρ') : Agree renamed ρ' x y :=
  fun rename hfollows => h rename (hfollows.mono hρ)

/-- A list with every item renamed. -/
def each (renamed : (String → String) → α → β) (rename : String → String) (xs : List α) : List β :=
  xs.map (renamed rename)

/-- A list with every item renamed, behind what is there already. -/
def behind (front : List β) (renamed : (String → String) → α → β) (rename : String → String) (xs : List α) :
    List β :=
  front ++ xs.map (renamed rename)

theorem Agree.nil : Agree (each renamed) ρ [] [] :=
  fun _ _ => rfl

theorem Agree.cons {x : α} {y : β} {xs : List α} {ys : List β} (h : Agree renamed ρ x y)
    (hs : Agree (each renamed) ρ xs ys) : Agree (each renamed) ρ (x :: xs) (y :: ys) := by
  intro rename hfollows
  rw [each, List.map_cons, h rename hfollows, ← hs rename hfollows, each]

/-- What agrees may be added at the end on both sides. -/
theorem Agree.snoc {front : List β} {x : α} {y : β} {xs : List α} {ys : List β} (h : Agree renamed ρ x y)
    (hs : Agree (behind front renamed) ρ xs ys) :
    Agree (behind front renamed) ρ (xs ++ [x]) (ys ++ [y]) := by
  intro rename hfollows
  rw [behind, ← hs rename hfollows, behind, List.map_append, List.map_singleton, h rename hfollows,
    List.append_assoc]

end BoundaryProxy
