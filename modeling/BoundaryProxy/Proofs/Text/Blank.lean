import BoundaryProxy.Text.Blank
import BoundaryProxy.Text.Numeral
import Mathlib.Data.List.DropRight

/-!
# `Proofs.Text.Blank` — blanks and what they keep apart

White space separates other text because it has no character in common with it: no blank is a letter or a numeral
(`isAlphanumeric_of_isBlank`). The table of blanks is short, so its points are compared with the long tables one by
one.

Skipping blanks takes off a run of blanks and nothing else (`exists_blank_run`), whatever run stands there
(`skipBlanks_append`). Trimming takes off such a run at either end (`trim_eq_iff`).
-/

namespace BoundaryProxy.Text

/-! ## The points of a class -/

/-- The code points of a class. -/
def CharClass.points (k : CharClass) : List Nat :=
  k.ranges.flatMap fun (first, last) => List.range' first (last + 1 - first)

theorem mem_points_of_covers {ranges : List (Nat × Nat)} {n : Nat} (h : CharClass.covers ranges n = true) :
    n ∈ (CharClass.mk ranges).points := by
  induction ranges with
  | nil => cases h
  | cons range rest ih =>
    rw [CharClass.points, List.flatMap_cons, List.mem_append]
    rw [CharClass.covers] at h
    split at h
    · cases h
    · rename_i hfirst
      rcases Bool.or_eq_true _ _ ▸ h with hlast | hrest
      · left
        rw [List.mem_range'_1]
        have := of_decide_eq_true hlast
        omega
      · exact .inr (ih hrest)

theorem alphanumeric_points : ∀ n ∈ blanks.points,
    CharClass.covers letters.ranges n = false ∧ CharClass.covers numerals.ranges n = false := by
  decide +kernel

/-- **No blank is a letter or a numeral.** -/
theorem isAlphanumeric_of_isBlank {c : Char} (h : isBlank c = true) : isAlphanumeric c = false := by
  obtain ⟨hletter, hnumeral⟩ := alphanumeric_points c.toNat (mem_points_of_covers h)
  rw [isAlphanumeric, Bool.or_eq_false_iff]
  exact ⟨hletter, hnumeral⟩

/-! ## Runs of blanks -/

/-- A text of nothing but blanks. -/
def BlankRun (ws : List Char) : Prop :=
  ∀ c ∈ ws, isBlank c = true

variable {ws s : List Char}

theorem blankRun_nil : BlankRun [] :=
  fun _ hc => absurd hc List.not_mem_nil

theorem BlankRun.append {vs : List Char} (h : BlankRun ws) (k : BlankRun vs) : BlankRun (ws ++ vs) :=
  List.forall_mem_append.mpr ⟨h, k⟩

theorem BlankRun.filter_eq_nil (h : BlankRun ws) : ws.filter (!isBlank ·) = [] :=
  List.filter_eq_nil_iff.mpr fun c hc => by simp [h c hc]

/-- Which run of blanks stands before a text does not matter. -/
theorem skipBlanks_append (h : BlankRun ws) (s : List Char) : skipBlanks (ws ++ s) = skipBlanks s :=
  List.dropWhile_append_of_pos h

theorem skipBlanks_cons {c : Char} (h : isBlank c = false) (s : List Char) : skipBlanks (c :: s) = c :: s :=
  List.dropWhile_cons_of_neg (Bool.not_eq_true _ ▸ h)

theorem skipBlanks_skipBlanks (s : List Char) : skipBlanks (skipBlanks s) = skipBlanks s :=
  List.dropWhile_idempotent isBlank s

/-- What is skipped is a run of blanks. -/
theorem exists_blank_run (s : List Char) : ∃ ws, BlankRun ws ∧ s = ws ++ skipBlanks s :=
  ⟨s.takeWhile isBlank, fun _ hc => List.mem_takeWhile_imp hc, List.takeWhile_append_dropWhile.symm⟩

/-- What is left does not begin with a blank. -/
theorem head?_skipBlanks (s : List Char) : ∀ c ∈ (skipBlanks s).head?, isBlank c = false := by
  intro c hc
  have hhead := List.head?_dropWhile_not isBlank s
  rw [show (s.dropWhile isBlank).head? = some c from hc] at hhead
  exact hhead

/-! ## Trimming -/

/-- A text is another between two runs of blanks, and the other begins and ends with no blank. -/
structure Trims (s t : List Char) : Prop where
  between : ∃ before after, BlankRun before ∧ BlankRun after ∧ s = before ++ t ++ after
  head : ∀ c ∈ t.head?, isBlank c = false
  last : ∀ c ∈ t.getLast?, isBlank c = false

theorem trims_trim (s : List Char) : Trims s (trim s) := by
  obtain ⟨before, hbefore, hs⟩ := exists_blank_run s
  obtain ⟨after, hafter, hrest⟩ := exists_blank_run (skipBlanks s).reverse
  have hskip : skipBlanks s = trim s ++ after.reverse := by
    rw [trim, ← List.reverse_append, ← hrest, List.reverse_reverse]
  refine ⟨⟨before, after.reverse, hbefore, fun c hc => hafter c (List.mem_reverse.mp hc), ?_⟩, fun c hc => ?_, ?_⟩
  · rw [List.append_assoc, ← hskip, ← hs]
  · refine head?_skipBlanks s c ?_
    rw [hskip, List.head?_append, Option.mem_def.mp hc]
    rfl
  · rw [trim, List.getLast?_reverse]
    exact head?_skipBlanks _

/-- Nothing is skipped of a text that does not begin with a blank. -/
theorem skipBlanks_of_head (h : ∀ c ∈ s.head?, isBlank c = false) : skipBlanks s = s := by
  cases s with
  | nil => rfl
  | cons c s => exact skipBlanks_cons (h c rfl) s

theorem BlankRun.skipBlanks_eq (h : BlankRun ws) : skipBlanks ws = [] :=
  List.dropWhile_eq_nil_iff.mpr h

/-- **Trimming** leaves a text without the blanks at its ends. -/
theorem trim_eq_iff {t : List Char} : trim s = t ↔ Trims s t := by
  refine ⟨fun h => h ▸ trims_trim s, fun ⟨⟨before, after, hbefore, hafter, hs⟩, hhead, hlast⟩ => ?_⟩
  have hblanks : BlankRun after.reverse := fun c hc => hafter c (List.mem_reverse.mp hc)
  rw [trim, hs, List.append_assoc, skipBlanks_append hbefore]
  cases t with
  | nil =>
    rw [List.nil_append, hafter.skipBlanks_eq]
    rfl
  | cons c t =>
    have hskip : skipBlanks (c :: t ++ after) = c :: t ++ after := skipBlanks_cons (hhead c rfl) _
    rw [hskip, List.reverse_append, skipBlanks_append hblanks, skipBlanks_of_head, List.reverse_reverse]
    rwa [List.head?_reverse]

end BoundaryProxy.Text
