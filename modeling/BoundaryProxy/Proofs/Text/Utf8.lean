import BoundaryProxy.Text.Utf8
import Mathlib.Data.List.Forall2

/-!
# `Proofs.Text.Utf8` — which text any bytes are read as

The sequences that stand for characters are those of a table (`utf8Rows`): a range for the first byte, and one range for
each byte after it. That the table has the form of every character, and nothing else, is arithmetic on code points
(`utf8EncodeChar_eq_iff`, `exists_form`). The first byte decides the row (`leadByte_eq_some_iff`), so a reader knows at
every byte whether a form can still be finished (`begins_iff`).

* **`reads_iff`**: bytes are read character by character; where no form stands, a replacement stands for the longest run
  that some form begins with, or for one byte that begins none.
* **`ofUtf8Lossy_toUtf8`**: the bytes of a text are read as the text.
-/

namespace BoundaryProxy.Text

/-! ## Bytes of a text -/

/-- The bytes that are left to be listed. -/
theorem toList_loop (bytes : ByteArray) (n : Nat) (done : List UInt8) :
    ByteArray.toList.loop bytes n done = done.reverse ++ bytes.data.toList.drop n := by
  fun_induction ByteArray.toList.loop bytes n done with
  | case1 n done hn ih =>
    have hget : bytes.data.toList.drop n = bytes.get! n :: bytes.data.toList.drop (n + 1) := by
      rw [List.drop_eq_getElem_cons (show n < bytes.data.toList.length from hn)]
      refine congrArg (· :: _) ?_
      show bytes.data[n] = bytes.data[n]!
      rw [getElem!_pos]
    rw [ih, hget, List.reverse_cons, List.append_assoc]
    rfl
  | case2 n done hn =>
    rw [List.drop_eq_nil_of_le (Nat.le_of_not_lt hn), List.append_nil]

theorem toUtf8_eq_data (s : String) : toUtf8 s = s.toByteArray.data.toList :=
  toList_loop s.toByteArray 0 []

/-- The bytes of a text are read as the text. -/
theorem ofUtf8?_toUtf8 (s : String) : ofUtf8? (toUtf8 s) = some s := by
  unfold ofUtf8?
  rw [toUtf8_eq_data]
  exact dif_pos s.isValidUTF8

/-- The bytes of a text are the forms of its characters, one after the other. -/
theorem toUtf8_eq (s : String) : toUtf8 s = s.toList.flatMap String.utf8EncodeChar := by
  have hbytes : s.toByteArray = s.toList.utf8Encode := by
    conv_lhs => rw [← String.ofList_toList (s := s)]
    rw [String.toByteArray_ofList]
  rw [toUtf8_eq_data, hbytes, List.utf8Encode, List.data_toByteArray]

/-! ## The table of sequences -/

/-- A row of the table: the first byte, what is taken off it for its share of the code point, and the bytes after it. -/
structure Utf8Row where
  first : ByteRange
  base : Nat
  later : List ByteRange
deriving DecidableEq

/-- The table of the sequences that stand for characters. -/
def utf8Rows : List Utf8Row :=
  [⟨⟨0x00, 0x7F⟩, 0x00, []⟩,
   ⟨⟨0xC2, 0xDF⟩, 0xC0, [⟨0x80, 0xBF⟩]⟩,
   ⟨⟨0xE0, 0xE0⟩, 0xE0, [⟨0xA0, 0xBF⟩, ⟨0x80, 0xBF⟩]⟩,
   ⟨⟨0xE1, 0xEC⟩, 0xE0, [⟨0x80, 0xBF⟩, ⟨0x80, 0xBF⟩]⟩,
   ⟨⟨0xED, 0xED⟩, 0xE0, [⟨0x80, 0x9F⟩, ⟨0x80, 0xBF⟩]⟩,
   ⟨⟨0xEE, 0xEF⟩, 0xE0, [⟨0x80, 0xBF⟩, ⟨0x80, 0xBF⟩]⟩,
   ⟨⟨0xF0, 0xF0⟩, 0xF0, [⟨0x90, 0xBF⟩, ⟨0x80, 0xBF⟩, ⟨0x80, 0xBF⟩]⟩,
   ⟨⟨0xF1, 0xF3⟩, 0xF0, [⟨0x80, 0xBF⟩, ⟨0x80, 0xBF⟩, ⟨0x80, 0xBF⟩]⟩,
   ⟨⟨0xF4, 0xF4⟩, 0xF0, [⟨0x80, 0x8F⟩, ⟨0x80, 0xBF⟩, ⟨0x80, 0xBF⟩]⟩]

/-- Bytes lie in ranges, one in each. -/
abbrev Continues : List ByteRange → List UInt8 → Prop :=
  List.Forall₂ fun range b => range.has b = true

/-- The code point of a sequence: behind the share of its first byte, six bits of each byte after it. -/
def pointFrom (point : Nat) (bytes : List UInt8) : Nat :=
  bytes.foldl (fun point b => point * 64 + (b.toNat - 0x80)) point

variable {b : UInt8} {bytes bs rest run : List UInt8} {c : Char} {row : Utf8Row}

theorem ByteRange.has_iff {r : ByteRange} :
    r.has b = true ↔ r.low.toNat ≤ b.toNat ∧ b.toNat ≤ r.high.toNat := by
  rw [has, Bool.and_eq_true, decide_eq_true_iff, decide_eq_true_iff, UInt8.le_iff_toNat_le, UInt8.le_iff_toNat_le]

/-- The first byte decides the row. -/
theorem leadByte_eq_some_iff {lead : Nat × List ByteRange} : leadByte b = some lead ↔
    ∃ row ∈ utf8Rows, row.first.has b = true ∧ lead = (b.toNat - row.base, row.later) := by
  have hall : ∀ n : Fin 256, (leadByte (UInt8.ofNat n)).toList =
      (utf8Rows.filter (·.first.has (UInt8.ofNat n))).map fun row => (n.val - row.base, row.later) := by
    decide +kernel
  have hb : UInt8.ofNat (⟨b.toNat, b.toNat_lt⟩ : Fin 256) = b := UInt8.ofNat_toNat
  have hrows := hall ⟨b.toNat, b.toNat_lt⟩
  rw [hb] at hrows
  rw [← Option.mem_toList, hrows, List.mem_map]
  constructor
  · rintro ⟨row, hrow, rfl⟩
    obtain ⟨hmem, hfirst⟩ := List.mem_filter.mp hrow
    exact ⟨row, hmem, hfirst, rfl⟩
  · rintro ⟨row, hmem, hfirst, rfl⟩
    exact ⟨row, List.mem_filter.mpr ⟨hmem, hfirst⟩, rfl⟩

theorem later_unique {row' : Utf8Row} (hrow : row ∈ utf8Rows) (hfirst : row.first.has b = true)
    (hrow' : row' ∈ utf8Rows) (hfirst' : row'.first.has b = true) : row'.later = row.later := by
  have hlead := leadByte_eq_some_iff.mpr ⟨row, hrow, hfirst, rfl⟩
  have hlead' := leadByte_eq_some_iff.mpr ⟨row', hrow', hfirst', rfl⟩
  exact congrArg Prod.snd (Option.some.inj (hlead'.symm.trans hlead))

/-- No range of a row is empty. -/
theorem has_low_of_row : ∀ row ∈ utf8Rows, ∀ range ∈ row.later, range.has range.low = true := by
  decide

/-! ## The forms of characters -/

/-- The bytes of a character's form as numbers. -/
def utf8Numbers (n : Nat) : List Nat :=
  if n ≤ 0x7F then [n]
  else if n ≤ 0x7FF then [n / 64 + 0xC0, n % 64 + 0x80]
  else if n ≤ 0xFFFF then [n / 4096 + 0xE0, n / 64 % 64 + 0x80, n % 64 + 0x80]
  else [n / 262144 + 0xF0, n / 4096 % 64 + 0x80, n / 64 % 64 + 0x80, n % 64 + 0x80]

theorem toNat_utf8EncodeChar (c : Char) : (String.utf8EncodeChar c).map UInt8.toNat = utf8Numbers c.toNat := by
  have hvalid : c.toNat < 0xD800 ∨ 0xDFFF < c.toNat ∧ c.toNat < 0x110000 := c.valid
  have hval : c.val.toNat = c.toNat := rfl
  simp only [String.utf8EncodeChar, utf8Numbers, hval]
  split
  · simp
    omega
  split
  · simp
    omega
  split
  · simp
    omega
  · simp
    omega

/-- A sequence of the table has a code point that is a character's, and is its form. -/
theorem numbers_of_row (hrow : row ∈ utf8Rows) (hfirst : row.first.has b = true)
    (hlater : Continues row.later bytes) :
    (pointFrom (b.toNat - row.base) bytes).isValidChar ∧
      (b :: bytes).map UInt8.toNat = utf8Numbers (pointFrom (b.toNat - row.base) bytes) := by
  generalize hpoint : pointFrom (b.toNat - row.base) bytes = n
  unfold Nat.isValidChar utf8Numbers
  rw [ByteRange.has_iff] at hfirst
  simp only [utf8Rows, List.mem_cons, List.not_mem_nil, or_false] at hrow
  rcases hrow with rfl | rfl | rfl | rfl | rfl | rfl | rfl | rfl | rfl
  all_goals
    simp only [Continues, List.forall₂_cons_left_iff, List.forall₂_nil_left_iff, ByteRange.has_iff] at hlater
  · subst hlater
    simp [pointFrom] at hpoint hfirst
    rw [if_pos (by omega)]
    simp
    omega
  · obtain ⟨x, _, hx, rfl, rfl⟩ := hlater
    simp [pointFrom] at hpoint hfirst hx
    rw [if_neg (by omega), if_pos (by omega)]
    simp
    omega
  all_goals
    first
    | obtain ⟨x, _, hx, ⟨y, _, hy, rfl, rfl⟩, rfl⟩ := hlater
      simp [pointFrom] at hpoint hfirst hx hy
      rw [if_neg (by omega), if_neg (by omega), if_pos (by omega)]
      simp
      omega
    | obtain ⟨x, _, hx, ⟨y, _, hy, ⟨z, _, hz, rfl, rfl⟩, rfl⟩, rfl⟩ := hlater
      simp [pointFrom] at hpoint hfirst hx hy hz
      rw [if_neg (by omega), if_neg (by omega), if_neg (by omega)]
      simp
      omega

/-- The form of a character is a sequence of the table. -/
theorem exists_row_of_numbers {n : Nat} (hvalid : n.isValidChar)
    (hnumbers : (b :: bytes).map UInt8.toNat = utf8Numbers n) :
    ∃ row ∈ utf8Rows, row.first.has b = true ∧ Continues row.later bytes ∧
      pointFrom (b.toNat - row.base) bytes = n := by
  unfold Nat.isValidChar at hvalid
  rw [List.map_cons, utf8Numbers] at hnumbers
  split at hnumbers
  · obtain ⟨hb, hrest⟩ := List.cons.inj hnumbers
    obtain rfl := List.map_eq_nil_iff.mp hrest
    simp [utf8Rows, ByteRange.has_iff, pointFrom]
    omega
  split at hnumbers
  · obtain ⟨hb, hrest⟩ := List.cons.inj hnumbers
    obtain ⟨x, _, rfl, hx, hrest⟩ := List.map_eq_cons_iff.mp hrest
    obtain rfl := List.map_eq_nil_iff.mp hrest
    simp [utf8Rows, ByteRange.has_iff, pointFrom]
    omega
  split at hnumbers
  · obtain ⟨hb, hrest⟩ := List.cons.inj hnumbers
    obtain ⟨x, _, rfl, hx, hrest⟩ := List.map_eq_cons_iff.mp hrest
    obtain ⟨y, _, rfl, hy, hrest⟩ := List.map_eq_cons_iff.mp hrest
    obtain rfl := List.map_eq_nil_iff.mp hrest
    simp [utf8Rows, ByteRange.has_iff, pointFrom]
    omega
  · obtain ⟨hb, hrest⟩ := List.cons.inj hnumbers
    obtain ⟨x, _, rfl, hx, hrest⟩ := List.map_eq_cons_iff.mp hrest
    obtain ⟨y, _, rfl, hy, hrest⟩ := List.map_eq_cons_iff.mp hrest
    obtain ⟨z, _, rfl, hz, hrest⟩ := List.map_eq_cons_iff.mp hrest
    obtain rfl := List.map_eq_nil_iff.mp hrest
    simp [utf8Rows, ByteRange.has_iff, pointFrom]
    omega

/-- **The forms of characters** are the sequences of the table. -/
theorem utf8EncodeChar_eq_iff : String.utf8EncodeChar c = b :: bytes ↔
    ∃ row ∈ utf8Rows, row.first.has b = true ∧ Continues row.later bytes ∧
      pointFrom (b.toNat - row.base) bytes = c.toNat := by
  constructor
  · intro h
    exact exists_row_of_numbers c.valid (h ▸ toNat_utf8EncodeChar c)
  · rintro ⟨row, hrow, hfirst, hlater, hpoint⟩
    have hinj : Function.Injective (List.map UInt8.toNat) := List.map_injective_iff.mpr fun _ _ => UInt8.toNat_inj.mp
    apply hinj
    rw [toNat_utf8EncodeChar, (numbers_of_row hrow hfirst hlater).2, hpoint]

/-- The row of the first byte says which sequences are forms. -/
theorem exists_form_iff (hrow : row ∈ utf8Rows) (hfirst : row.first.has b = true) :
    (∃ c, String.utf8EncodeChar c = b :: bytes) ↔ Continues row.later bytes := by
  constructor
  · rintro ⟨c, hc⟩
    obtain ⟨row', hrow', hfirst', hlater, -⟩ := utf8EncodeChar_eq_iff.mp hc
    exact later_unique hrow hfirst hrow' hfirst' ▸ hlater
  · intro hlater
    obtain ⟨hvalid, -⟩ := numbers_of_row hrow hfirst hlater
    have hpoint : (Char.ofNat (pointFrom (b.toNat - row.base) bytes)).toNat = pointFrom (b.toNat - row.base) bytes := by
      rw [Char.ofNat, dif_pos hvalid]
      rfl
    exact ⟨_, utf8EncodeChar_eq_iff.mpr ⟨row, hrow, hfirst, hlater, hpoint.symm⟩⟩

theorem utf8EncodeChar_ne_nil (c : Char) : String.utf8EncodeChar c ≠ [] := by
  intro h
  have hlength := String.length_utf8EncodeChar c
  rw [h, List.length_nil] at hlength
  exact absurd hlength.symm (Nat.ne_of_gt c.utf8Size_pos)

/-! ## Forms that break off -/

/-- The form of some character begins with the bytes. -/
def Begins (run : List UInt8) : Prop :=
  ∃ c, run <+: String.utf8EncodeChar c

theorem exists_row_of_begins (h : Begins (b :: bytes)) : ∃ row ∈ utf8Rows, row.first.has b = true := by
  obtain ⟨c, rest, hc⟩ := h
  obtain ⟨row, hrow, hfirst, -⟩ := utf8EncodeChar_eq_iff.mp hc.symm
  exact ⟨row, hrow, hfirst⟩

/-- Bytes begin a form as long as they lie in the ranges of their row. -/
theorem begins_iff (hrow : row ∈ utf8Rows) (hfirst : row.first.has b = true) :
    Begins (b :: bytes) ↔ ∃ taken left, row.later = taken ++ left ∧ Continues taken bytes := by
  constructor
  · rintro ⟨c, rest, h⟩
    have hlater : Continues row.later (bytes ++ rest) := (exists_form_iff hrow hfirst).mp ⟨c, h.symm⟩
    exact ⟨row.later.take bytes.length, row.later.drop bytes.length, (List.take_append_drop _ _).symm,
      List.forall₂_take_append _ _ _ hlater⟩
  · rintro ⟨taken, left, hsplit, htaken⟩
    -- the form is finished with the least bytes there are
    have hleft : Continues left (left.map ByteRange.low) := by
      rw [Continues, List.forall₂_map_right_iff, List.forall₂_same]
      intro range hrange
      exact has_low_of_row row hrow range (hsplit ▸ List.mem_append_right taken hrange)
    have hlater : Continues row.later (bytes ++ left.map ByteRange.low) := by
      rw [hsplit]
      exact List.rel_append htaken hleft
    obtain ⟨c, hc⟩ := (exists_form_iff hrow hfirst).mpr hlater
    exact ⟨c, left.map ByteRange.low, hc.symm⟩

/-- A run of bytes breaks off: some form begins with it, none is it, and none goes on as the bytes after it do. -/
structure BreaksOff (run rest : List UInt8) : Prop where
  begins : Begins run
  unfinished : ∀ c, String.utf8EncodeChar c ≠ run
  longest : ∀ b ∈ rest.head?, ¬ Begins (run ++ [b])

/-- Where a run breaks off, the next byte leaves the ranges of its row. -/
theorem breaksOff_iff (hrow : row ∈ utf8Rows) (hfirst : row.first.has b = true) :
    BreaksOff (b :: bytes) rest ↔ ∃ taken range left, row.later = taken ++ range :: left ∧ Continues taken bytes ∧
      ∀ x ∈ rest.head?, range.has x = false := by
  constructor
  · intro h
    obtain ⟨taken, left, hsplit, htaken⟩ := (begins_iff hrow hfirst).mp h.begins
    cases left with
    | nil =>
      -- nothing is left of the row, so the run is a form
      rw [List.append_nil] at hsplit
      obtain ⟨c, hc⟩ := (exists_form_iff hrow hfirst).mpr (hsplit ▸ htaken)
      exact absurd hc (h.unfinished c)
    | cons range left =>
      refine ⟨taken, range, left, hsplit, htaken, fun x hx => ?_⟩
      by_contra hhas
      have hrange : Continues [range] [x] := .cons (Bool.not_eq_false _ ▸ hhas) .nil
      refine h.longest x hx ((begins_iff hrow hfirst).mpr ⟨taken ++ [range], left, ?_, List.rel_append htaken hrange⟩)
      rw [hsplit, List.append_assoc, List.singleton_append]
  · rintro ⟨taken, range, left, hsplit, htaken, hrest⟩
    have hlength := htaken.length_eq
    refine ⟨(begins_iff hrow hfirst).mpr ⟨taken, range :: left, hsplit, htaken⟩, fun c hc => ?_, fun x hx hbegins => ?_⟩
    · have hform := (exists_form_iff hrow hfirst).mp ⟨c, hc⟩
      have hlater := congrArg List.length hsplit
      rw [hform.length_eq, List.length_append, List.length_cons] at hlater
      omega
    · obtain ⟨taken', left', hsplit', htaken'⟩ := (begins_iff hrow hfirst).mp hbegins
      change Continues taken' (bytes ++ [x]) at htaken'
      have hlast : Continues (taken'.drop bytes.length) [x] := List.forall₂_drop_append _ _ _ htaken'
      obtain ⟨range', _, hrange, hnil, hdrop⟩ := List.forall₂_cons_right_iff.mp hlast
      have hshort : bytes.length ≤ taken'.length := by
        rw [htaken'.length_eq, List.length_append]
        exact Nat.le_add_right _ _
      -- both splits of the row leave the same ranges after those of the run
      have hdropped : row.later.drop bytes.length = range :: left := hsplit ▸ List.drop_left' hlength
      have hleft : range' :: left' = range :: left := by
        rw [← hdropped, hsplit', List.drop_append_of_le_length hshort,
          hdrop, List.forall₂_nil_right_iff.mp hnil, List.singleton_append]
      rw [(List.cons.inj hleft).1, hrest x hx] at hrange
      cases hrange

/-- **Reading bytes as text.** A form is read as its character. Where no form stands, a replacement is read for the
    longest run of bytes that some form begins with, or for one byte that no form begins with. -/
inductive Reads : List UInt8 → List Char → Prop
  | nil : Reads [] []
  | form {rest : List UInt8} {cs : List Char} (c : Char) : Reads rest cs →
      Reads (String.utf8EncodeChar c ++ rest) (c :: cs)
  | broken {run rest : List UInt8} {cs : List Char} : run ≠ [] → BreaksOff run rest → Reads rest cs →
      Reads (run ++ rest) (replacement :: cs)
  | stray {b : UInt8} {rest : List UInt8} {cs : List Char} : ¬ Begins [b] → Reads rest cs →
      Reads (b :: rest) (replacement :: cs)

/-! ## The reader -/

variable {point : Nat} {range : ByteRange} {ranges taken : List ByteRange}

theorem continueSequence_of_continues (h : Continues ranges bytes) (point : Nat) (rest : List UInt8) :
    continueSequence point ranges (bytes ++ rest) = (some (pointFrom point bytes), rest) := by
  induction h generalizing point with
  | nil => rfl
  | @cons range b ranges bytes hb _ ih => rw [List.cons_append, continueSequence, if_pos hb, ih, pointFrom, pointFrom,
      List.foldl_cons]

theorem continueSequence_of_breaks (h : Continues taken bytes) (hrest : ∀ b ∈ rest.head?, range.has b = false)
    (point : Nat) : continueSequence point (taken ++ range :: ranges) (bytes ++ rest) = (none, rest) := by
  induction h generalizing point with
  | nil =>
    cases rest with
    | nil => rfl
    | cons b rest => rw [List.nil_append, List.nil_append, continueSequence, if_neg (by simpa using hrest b rfl)]
  | @cons range' b taken bytes hb _ ih => rw [List.cons_append, List.cons_append, continueSequence, if_pos hb, ih]

/-- Bytes either lie in all ranges or leave them at one. -/
theorem continues_or_breaks (ranges : List ByteRange) (bytes : List UInt8) :
    (∃ bs rest, bytes = bs ++ rest ∧ Continues ranges bs) ∨
      ∃ taken range left bs rest, ranges = taken ++ range :: left ∧ bytes = bs ++ rest ∧ Continues taken bs ∧
        ∀ b ∈ rest.head?, range.has b = false := by
  induction ranges generalizing bytes with
  | nil => exact .inl ⟨[], bytes, rfl, .nil⟩
  | cons range ranges ih =>
    cases bytes with
    | nil => exact .inr ⟨[], range, ranges, [], [], rfl, rfl, .nil, fun _ hb => absurd hb (Option.not_mem_none _)⟩
    | cons b bytes =>
      cases hb : range.has b with
      | false =>
        refine .inr ⟨[], range, ranges, [], b :: bytes, rfl, rfl, .nil, fun b' hb' => ?_⟩
        obtain rfl := Option.some.inj hb'
        exact hb
      | true =>
        rcases ih bytes with ⟨bs, rest, rfl, hbs⟩ | ⟨taken, range', left, bs, rest, rfl, rfl, hbs, hrest⟩
        · exact .inl ⟨b :: bs, rest, rfl, .cons hb hbs⟩
        · exact .inr ⟨range :: taken, range', left, b :: bs, rest, rfl, rfl, .cons hb hbs, hrest⟩

theorem ofUtf8Lossy_form (c : Char) (rest : List UInt8) :
    ofUtf8Lossy (String.utf8EncodeChar c ++ rest) = c :: ofUtf8Lossy rest := by
  obtain ⟨b, bytes, hform⟩ := List.exists_cons_of_ne_nil (utf8EncodeChar_ne_nil c)
  obtain ⟨row, hrow, hfirst, hlater, hpoint⟩ := utf8EncodeChar_eq_iff.mp hform
  have hlead := leadByte_eq_some_iff.mpr ⟨row, hrow, hfirst, rfl⟩
  rw [hform, List.cons_append, ofUtf8Lossy, hlead]
  simp only [continueSequence_of_continues hlater, hpoint, Option.map_some, Option.getD_some, Char.ofNat_toNat]

theorem ofUtf8Lossy_broken (hrun : run ≠ []) (h : BreaksOff run rest) :
    ofUtf8Lossy (run ++ rest) = replacement :: ofUtf8Lossy rest := by
  obtain ⟨b, bytes, rfl⟩ := List.exists_cons_of_ne_nil hrun
  obtain ⟨row, hrow, hfirst⟩ := exists_row_of_begins h.begins
  obtain ⟨taken, range, left, hsplit, htaken, hrest⟩ := (breaksOff_iff hrow hfirst).mp h
  have hlead := leadByte_eq_some_iff.mpr ⟨row, hrow, hfirst, rfl⟩
  rw [List.cons_append, ofUtf8Lossy, hlead]
  simp only [hsplit, continueSequence_of_breaks htaken hrest, Option.map_none, Option.getD_none]

theorem ofUtf8Lossy_stray (h : ¬ Begins [b]) (rest : List UInt8) :
    ofUtf8Lossy (b :: rest) = replacement :: ofUtf8Lossy rest := by
  cases hlead : leadByte b with
  | none => rw [ofUtf8Lossy, hlead]
  | some lead =>
    obtain ⟨row, hrow, hfirst, -⟩ := leadByte_eq_some_iff.mp hlead
    exact absurd ((begins_iff hrow hfirst).mpr ⟨[], row.later, rfl, .nil⟩) h

/-- At any byte there stands a form, a run that breaks off, or a byte that begins no form. -/
theorem exists_piece (b : UInt8) (bytes : List UInt8) :
    (∃ c rest, b :: bytes = String.utf8EncodeChar c ++ rest) ∨
      (∃ run rest, run ≠ [] ∧ b :: bytes = run ++ rest ∧ BreaksOff run rest) ∨ ¬ Begins [b] := by
  by_cases hrow : ∃ row ∈ utf8Rows, row.first.has b = true
  · obtain ⟨row, hrow, hfirst⟩ := hrow
    rcases continues_or_breaks row.later bytes with ⟨bs, rest, rfl, hbs⟩ |
      ⟨taken, range, left, bs, rest, hsplit, rfl, hbs, hrest⟩
    · obtain ⟨c, hc⟩ := (exists_form_iff hrow hfirst).mpr hbs
      exact .inl ⟨c, rest, by rw [hc, List.cons_append]⟩
    · have hbreaks := (breaksOff_iff hrow hfirst).mpr ⟨taken, range, left, hsplit, hbs, hrest⟩
      exact .inr (.inl ⟨b :: bs, rest, List.cons_ne_nil _ _, rfl, hbreaks⟩)
  · exact .inr (.inr fun h => hrow (exists_row_of_begins h))

theorem Reads.eq {cs : List Char} (h : Reads bytes cs) : ofUtf8Lossy bytes = cs := by
  induction h with
  | nil => exact ofUtf8Lossy.eq_def []
  | form c _ ih => rw [ofUtf8Lossy_form, ih]
  | broken hrun hbreaks _ ih => rw [ofUtf8Lossy_broken hrun hbreaks, ih]
  | stray hbegins _ ih => rw [ofUtf8Lossy_stray hbegins, ih]

/-- All bytes can be read. -/
theorem exists_reads (bytes : List UInt8) : ∃ cs, Reads bytes cs := by
  induction hlength : bytes.length using Nat.strongRecOn generalizing bytes with
  | ind n ih =>
    subst hlength
    cases bytes with
    | nil => exact ⟨[], .nil⟩
    | cons b bytes =>
      rcases exists_piece b bytes with ⟨c, rest, hpiece⟩ | ⟨run, rest, hrun, hpiece, hbreaks⟩ | hstray
      · have hshort : rest.length < (b :: bytes).length := by
          rw [hpiece, List.length_append, String.length_utf8EncodeChar]
          exact Nat.lt_add_of_pos_left c.utf8Size_pos
        obtain ⟨cs, hcs⟩ := ih _ hshort rest rfl
        exact ⟨c :: cs, hpiece ▸ .form c hcs⟩
      · have hshort : rest.length < (b :: bytes).length := by
          rw [hpiece, List.length_append]
          exact Nat.lt_add_of_pos_left (List.length_pos_of_ne_nil hrun)
        obtain ⟨cs, hcs⟩ := ih _ hshort rest rfl
        exact ⟨replacement :: cs, hpiece ▸ .broken hrun hbreaks hcs⟩
      · obtain ⟨cs, hcs⟩ := ih _ (Nat.lt_succ_self _) bytes rfl
        exact ⟨replacement :: cs, .stray hstray hcs⟩

/-- **Any bytes are read** in one way. -/
theorem reads_iff {cs : List Char} : Reads bytes cs ↔ ofUtf8Lossy bytes = cs := by
  refine ⟨Reads.eq, ?_⟩
  rintro rfl
  obtain ⟨cs, h⟩ := exists_reads bytes
  exact h.eq ▸ h

/-- The bytes of a text are read as the text. -/
theorem ofUtf8Lossy_toUtf8 (s : String) : ofUtf8Lossy (toUtf8 s) = s.toList := by
  rw [toUtf8_eq]
  induction s.toList with
  | nil => exact ofUtf8Lossy.eq_def []
  | cons c cs ih => rw [List.flatMap_cons, ofUtf8Lossy_form, ih]

end BoundaryProxy.Text
