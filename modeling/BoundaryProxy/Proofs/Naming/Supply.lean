import BoundaryProxy.Naming.Supply

/-!
# `Proofs.Naming.Supply` — issued names are distinct

A supply never issues a name twice: its names differ by their numbers, whatever the stem (`nth_injective`).
`Issued` is the set of names handed out so far; it only grows (`Issued.mono`), and the next name is never in
it (`not_issued_next`). Freshness of every generated parameter, local and field rests on these facts alone.
Names in use are `Apart`, and stay so when the next one joins them.
-/

namespace BoundaryProxy.NameSupply

variable {s t u : NameSupply} {x : String}

/-- Decimal numerals are read back, so the number of a name is determined by the name. -/
theorem nth_injective (s : NameSupply) : Function.Injective s.nth := by
  intro m n h
  have hnum : toString m = toString n := (String.append_right_inj s.stem).mp h
  rw [Nat.toString_eq_ofList_toDigits, Nat.toString_eq_ofList_toDigits] at hnum
  have hdigits : Nat.toDigits 10 m = Nat.toDigits 10 n := String.ofList_injective hnum
  rw [← Nat.ofDigitChars_ten_toDigits (n := m), hdigits, Nat.ofDigitChars_ten_toDigits]

/-- The supply has handed out this name. -/
def Issued (s : NameSupply) (x : String) : Prop :=
  ∃ n < s.issued, x = s.nth n

/-- A later state of the same supply. -/
structure Later (s t : NameSupply) : Prop where
  stem : t.stem = s.stem
  issued : s.issued ≤ t.issued

theorem Later.refl (s : NameSupply) : Later s s := ⟨rfl, Nat.le_refl _⟩

theorem Later.trans (h : Later s t) (k : Later t u) : Later s u :=
  ⟨k.stem.trans h.stem, Nat.le_trans h.issued k.issued⟩

theorem later_next (s : NameSupply) : Later s s.next.2 := ⟨rfl, Nat.le_succ _⟩

theorem Issued.mono (h : Later s t) : s.Issued x → t.Issued x := by
  rintro ⟨n, hn, rfl⟩
  exact ⟨n, Nat.lt_of_lt_of_le hn h.issued, by rw [nth, nth, h.stem]⟩

theorem issued_next (s : NameSupply) : s.next.2.Issued s.next.1 :=
  ⟨s.issued, Nat.lt_succ_self _, rfl⟩

/-- **The next name is new.** -/
theorem not_issued_next (s : NameSupply) : ¬ s.Issued s.next.1 := by
  rintro ⟨n, hn, h⟩
  exact absurd (nth_injective s h) (by omega)

/-- A name that was issued is not the next one. -/
theorem Issued.ne_next (h : s.Issued x) : x ≠ s.next.1 := by
  rintro rfl
  exact not_issued_next s h

/-! ## Names issued one after the other -/

/-- The supply after a number of further names were issued. -/
def after (s : NameSupply) : Nat → NameSupply
  | 0 => s
  | n + 1 => (s.after n).next.2

theorem after_eq (s : NameSupply) (n : Nat) : s.after n = { s with issued := s.issued + n } := by
  induction n with
  | zero => rfl
  | succ n ih =>
    rw [after, ih]
    rfl

/-- The name that is issued next has the number of those that were issued before it. -/
theorem next_after (s : NameSupply) (n : Nat) : (s.after n).next.1 = s.nth (s.issued + n) := by
  rw [after_eq]
  rfl

/-! ## Names in use -/

/-- Names of a supply that differ from each other. -/
structure Apart (s : NameSupply) (names : List String) : Prop where
  nodup : names.Nodup
  issued : ∀ x ∈ names, s.Issued x

theorem Apart.perm {names names' : List String} (h : s.Apart names) (hperm : names'.Perm names) : s.Apart names' :=
  ⟨hperm.nodup_iff.mpr h.nodup, fun x hx => h.issued x (hperm.mem_iff.mp hx)⟩

theorem Apart.mono {names : List String} (h : s.Apart names) (hlater : Later s t) : t.Apart names :=
  ⟨h.nodup, fun x hx => (h.issued x hx).mono hlater⟩

/-- A name that was issued meanwhile joins those in use. -/
theorem Apart.insert {names : List String} (h : s.Apart names) (hlater : Later s t) (hnew : ¬ s.Issued x)
    (hx : t.Issued x) : t.Apart (x :: names) where
  nodup := List.nodup_cons.mpr ⟨fun hmem => hnew (h.issued x hmem), h.nodup⟩
  issued := List.forall_mem_cons.mpr ⟨hx, (h.mono hlater).issued⟩

/-- The next name joins those in use. -/
theorem Apart.next {names : List String} (h : s.Apart names) : s.next.2.Apart (s.next.1 :: names) where
  nodup := List.nodup_cons.mpr ⟨fun hmem => (h.issued _ hmem).ne_next rfl, h.nodup⟩
  issued := by
    intro x hx
    rcases List.mem_cons.mp hx with rfl | hx
    · exact s.issued_next
    · exact (h.issued x hx).mono s.later_next

end BoundaryProxy.NameSupply
