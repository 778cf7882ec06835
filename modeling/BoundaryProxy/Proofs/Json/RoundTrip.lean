import BoundaryProxy.Json.Printer
import BoundaryProxy.Json.Reader
import BoundaryProxy.Proofs.Json.Literal
import Mathlib.Data.List.Basic

/-!
# `Proofs.Json.RoundTrip` — documents are read back from their long form

A document of truth values, strings, lists and records with names (`Document.Plain`) is read back from its long form,
whatever blanks stand before it and whatever follows (`ReadsBack`). The layout does not get in the way: a value never
begins with a blank or a bracket that closes, so the blanks between tokens are exactly what is skipped. The induction
is on the document; in a list or a record it goes along the items, each of which is read with the bound that the
items before it have left.
-/

namespace BoundaryProxy

/-- The document consists of truth values, strings, lists, and records with names. -/
inductive Document.Plain : Document → Prop
  | null : Plain .null
  | flag (b : Bool) : Plain (.flag b)
  | text (s : String) : Plain (ofString s)
  | list {items : List Document} : (∀ d ∈ items, Plain d) → Plain (.list items)
  | record {fields : List (String × Document)} : (∀ f ∈ fields, Plain f.2) → Plain (ofFields fields)

namespace Json

/-! ## Blanks -/

/-- A run of blanks between tokens. -/
def SpaceRun (ws : List Char) : Prop :=
  ∀ c ∈ ws, isSpace c = true

theorem spaceRun_nil : SpaceRun [] :=
  fun _ hc => absurd hc List.not_mem_nil

theorem spaceRun_newline (level : Nat) : SpaceRun (newline level).toList := by
  intro c hc
  rw [newline, String.toList_append, String.toList_join, List.mem_append, List.mem_flatMap] at hc
  rcases hc with hc | ⟨s, hs, hc⟩
  · rw [List.mem_singleton.mp hc]
    rfl
  · rw [List.eq_of_mem_replicate hs] at hc
    have hblank : c = ' ' := by simpa using hc
    rw [hblank]
    rfl

theorem skipSpace_append {ws : List Char} (h : SpaceRun ws) (s : List Char) : skipSpace (ws ++ s) = skipSpace s :=
  List.dropWhile_append_of_pos h

theorem skipSpace_cons {c : Char} (h : isSpace c = false) (s : List Char) : skipSpace (c :: s) = c :: s :=
  List.dropWhile_cons_of_neg (Bool.not_eq_true _ ▸ h)

/-! ## Names and values -/

theorem toList_quote (s : String) : (quote s).toList = '"' :: quoteBody s.toList :=
  String.toList_ofList

/-- The name of a field is read up to the blank behind its colon. -/
theorem readName_prettyName {ws : List Char} (h : SpaceRun ws) (name : String) (rest : List Char) :
    readName (ws ++ ((prettyName (some name)).toList ++ rest)) = some (some name, ' ' :: rest) := by
  have htext : (prettyName (some name)).toList ++ rest =
      '"' :: (quoteBody name.toList ++ (':' :: ' ' :: rest)) := by
    rw [prettyName, String.toList_append, toList_quote]
    simp
  have hquote : skipSpace ('"' :: (quoteBody name.toList ++ (':' :: ' ' :: rest))) =
      '"' :: (quoteBody name.toList ++ (':' :: ' ' :: rest)) := skipSpace_cons rfl _
  have hcolon : skipSpace (':' :: ' ' :: rest) = ':' :: ' ' :: rest := skipSpace_cons rfl _
  rw [readName, skipSpace_append h, htext, hquote]
  simp only [readString_quoteBody, hcolon, Option.map_some, String.ofList_toList]

/-- Blanks before a value are skipped. -/
theorem readValue_append {ws : List Char} (h : SpaceRun ws) (fuel : Nat) (s : List Char) :
    readValue fuel (ws ++ s) = readValue fuel s := by
  cases fuel with
  | zero => rw [readValue, readValue]
  | succ fuel => rw [readValue, readValue, skipSpace_append h]

/-- The document is read back from its long form. -/
structure ReadsBack (d : Document) : Prop where
  opens : ∀ level, ∃ c cs, (prettyAt level d).toList = c :: cs ∧ isSpace c = false ∧ c ≠ ']'
  read : ∀ level fuel rest, 2 * (prettyAt level d).toList.length ≤ fuel →
    readValue fuel ((prettyAt level d).toList ++ rest) = (d, some rest)

/-- A value whose text begins with a token of its own is read back if it is from behind that token. -/
theorem readsBack_of_open {d : Document} {c : Char} {cs : Nat → List Char}
    (htext : ∀ level, (prettyAt level d).toList = c :: cs level) (hspace : isSpace c = false) (hclose : c ≠ ']')
    (hread : ∀ level fuel rest, 2 * (cs level).length + 1 ≤ fuel →
      readValue (fuel + 1) (c :: (cs level ++ rest)) = (d, some rest)) : ReadsBack d where
  opens := fun level => ⟨c, cs level, htext level, hspace, hclose⟩
  read := by
    intro level fuel rest hfuel
    -- there is fuel for the first step, since the text is not empty
    rw [htext, List.length_cons] at hfuel
    obtain ⟨fuel, rfl⟩ := Nat.exists_eq_add_one.mpr (Nat.lt_of_lt_of_le (Nat.succ_pos _) hfuel)
    rw [htext]
    exact hread level fuel rest (by omega)

theorem readsBack_null : ReadsBack .null :=
  readsBack_of_open (fun _ => by rw [prettyAt]; rfl) rfl (by decide) fun _ _ _ _ => by
    rw [readValue, skipSpace_cons rfl]
    rfl

theorem readsBack_flag (b : Bool) : ReadsBack (.flag b) := by
  cases b with
  | false =>
    refine readsBack_of_open (fun _ => by rw [prettyAt]; rfl) rfl (by decide) fun _ _ _ _ => ?_
    rw [readValue, skipSpace_cons rfl]
    rfl
  | true =>
    refine readsBack_of_open (fun _ => by rw [prettyAt]; rfl) rfl (by decide) fun _ _ _ _ => ?_
    rw [readValue, skipSpace_cons rfl]
    rfl

theorem readsBack_text (s : String) : ReadsBack (.ofString s) := by
  have htext : ∀ level, (prettyAt level (.ofString s)).toList = '"' :: quoteBody s.toList := by
    intro level
    rw [Document.ofString, prettyAt, toList_quote]
  refine readsBack_of_open htext rfl (by decide) fun level fuel rest _ => ?_
  rw [readValue, skipSpace_cons rfl]
  simp only [readString_quoteBody, Option.map_some, String.ofList_toList, Document.ofString]

/-! ## Lists -/

/-- The items of a list are read up to the closing bracket. -/
theorem readItems_pretty {level fuel : Nat} {ds : List Document} (hds : ∀ e ∈ ds, ReadsBack e) {d : Document}
    (hd : ReadsBack d) {ws ws' : List Char} (hws : SpaceRun ws) (hws' : SpaceRun ws')
    (hfuel : 2 * ((prettyAt level d).toList.length + (prettyItems level ds).toList.length) + 1 ≤ fuel)
    (rest : List Char) :
    readItems fuel (ws ++ ((prettyAt level d).toList ++ ((prettyItems level ds).toList ++ (ws' ++ ']' :: rest)))) =
      (d :: ds, some rest) := by
  -- the blanks before an item differ from the first item to the others, so they are generalised with the item
  induction ds generalizing d ws fuel with
  | nil =>
    obtain ⟨fuel, rfl⟩ := Nat.exists_eq_add_one.mpr (Nat.lt_of_lt_of_le (Nat.succ_pos _) hfuel)
    have hnone : (prettyItems level []).toList = [] := by rw [prettyItems]; rfl
    have hvalue := hd.read level fuel (ws' ++ ']' :: rest) (by omega)
    have hclose : skipSpace (ws' ++ ']' :: rest) = ']' :: rest :=
      (skipSpace_append hws' _).trans (skipSpace_cons rfl _)
    rw [hnone, List.nil_append, readItems, readValue_append hws, hvalue]
    simp only [hclose]
  | cons e ds ih =>
    obtain ⟨fuel, rfl⟩ := Nat.exists_eq_add_one.mpr (Nat.lt_of_lt_of_le (Nat.succ_pos _) hfuel)
    obtain ⟨he, hds⟩ := List.forall_mem_cons.mp hds
    have htext : (prettyItems level (e :: ds)).toList =
        ',' :: ((newline level).toList ++ ((prettyAt level e).toList ++ (prettyItems level ds).toList)) := by
      rw [prettyItems]
      simp
    rw [htext] at hfuel ⊢
    simp only [List.length_cons, List.length_append] at hfuel
    simp only [List.cons_append, List.append_assoc]
    -- behind the comma comes the next item, on a line of its own
    have hvalue := hd.read level fuel (',' :: ((newline level).toList ++ ((prettyAt level e).toList ++
      ((prettyItems level ds).toList ++ (ws' ++ ']' :: rest))))) (by omega)
    have hitems : readItems fuel ((newline level).toList ++ ((prettyAt level e).toList ++
        ((prettyItems level ds).toList ++ (ws' ++ ']' :: rest)))) = (e :: ds, some rest) :=
      ih hds he (spaceRun_newline level) (by omega)
    rw [readItems, readValue_append hws, hvalue]
    simp only [skipSpace_cons (show isSpace ',' = false from rfl), hitems]

/-- Behind the bracket of a list that is not empty, its items are read. -/
theorem readValue_bracket {ws cs : List Char} {c : Char} (hws : SpaceRun ws) (hspace : isSpace c = false)
    (hclose : c ≠ ']') (fuel : Nat) :
    readValue (fuel + 1) ('[' :: (ws ++ c :: cs)) =
      (.list (readItems fuel (c :: cs)).1, (readItems fuel (c :: cs)).2) := by
  rw [readValue, skipSpace_cons rfl]
  simp only [skipSpace_append hws, skipSpace_cons hspace]
  split
  · rename_i heq
    exact absurd (List.cons.inj heq).1 hclose
  · rfl

theorem readsBack_list {items : List Document} (h : ∀ d ∈ items, ReadsBack d) : ReadsBack (.list items) := by
  cases items with
  | nil =>
    refine readsBack_of_open (fun _ => by rw [prettyAt]; rfl) rfl (by decide) fun _ _ _ _ => ?_
    rw [readValue, skipSpace_cons rfl]
    rfl
  | cons d ds =>
    obtain ⟨hd, hds⟩ := List.forall_mem_cons.mp h
    have htext : ∀ level, (prettyAt level (.list (d :: ds))).toList = '[' :: ((newline (level + 1)).toList ++
        ((prettyAt (level + 1) d).toList ++ ((prettyItems (level + 1) ds).toList ++
          ((newline level).toList ++ [']'])))) := by
      intro level
      rw [prettyAt]
      simp
    refine readsBack_of_open htext rfl (by decide) fun level fuel rest hfuel => ?_
    simp only [List.length_append, List.length_cons, List.length_nil] at hfuel
    have hitems := readItems_pretty hds hd spaceRun_nil (spaceRun_newline level)
      (show 2 * ((prettyAt (level + 1) d).toList.length + (prettyItems (level + 1) ds).toList.length) + 1 ≤ fuel by
        omega) rest
    -- the first item does not look like the end of an empty list
    obtain ⟨c, cs, hopens, hspace, hclose⟩ := hd.opens (level + 1)
    rw [hopens, List.nil_append, List.cons_append] at hitems
    simp only [hopens, List.append_assoc, List.cons_append, List.nil_append]
    rw [readValue_bracket (spaceRun_newline (level + 1)) hspace hclose, hitems]

/-! ## Records -/

/-- Fields as they are read. -/
def named (fields : List (String × Document)) : List (Option String × Document) :=
  fields.map fun (name, value) => (some name, value)

/-- The fields of a record are read up to the closing brace. -/
theorem readFields_pretty {level fuel : Nat} {fs : List (String × Document)} (hfs : ∀ f ∈ fs, ReadsBack f.2)
    (name : String) {d : Document} (hd : ReadsBack d) {ws ws' : List Char} (hws : SpaceRun ws) (hws' : SpaceRun ws')
    (hfuel : 2 * ((prettyAt level d).toList.length + (prettyFields level (named fs)).toList.length) + 1 ≤ fuel)
    (rest : List Char) :
    readFields fuel (ws ++ ((prettyName (some name)).toList ++ ((prettyAt level d).toList ++
        ((prettyFields level (named fs)).toList ++ (ws' ++ '\x7d' :: rest))))) =
      (named ((name, d) :: fs), some rest) := by
  have hblank : SpaceRun [' '] := fun c hc => by rw [List.mem_singleton.mp hc]; rfl
  induction fs generalizing name d ws fuel with
  | nil =>
    obtain ⟨fuel, rfl⟩ := Nat.exists_eq_add_one.mpr (Nat.lt_of_lt_of_le (Nat.succ_pos _) hfuel)
    have hnone : (prettyFields level (named [])).toList = [] := by rw [named, List.map_nil, prettyFields]; rfl
    have hvalue : readValue fuel (' ' :: ((prettyAt level d).toList ++ (ws' ++ '\x7d' :: rest))) =
        (d, some (ws' ++ '\x7d' :: rest)) :=
      (readValue_append hblank fuel _).trans (hd.read level fuel _ (by omega))
    have hclose : skipSpace (ws' ++ '\x7d' :: rest) = '\x7d' :: rest :=
      (skipSpace_append hws' _).trans (skipSpace_cons rfl _)
    rw [hnone, List.nil_append, readFields, readName_prettyName hws]
    simp only [hvalue, hclose]
    rfl
  | cons f fs ih =>
    obtain ⟨fuel, rfl⟩ := Nat.exists_eq_add_one.mpr (Nat.lt_of_lt_of_le (Nat.succ_pos _) hfuel)
    obtain ⟨name', e⟩ := f
    have he : ReadsBack e := hfs (name', e) List.mem_cons_self
    have hrest : ∀ f ∈ fs, ReadsBack f.2 := fun f hf => hfs f (List.mem_cons_of_mem _ hf)
    have htext : (prettyFields level (named ((name', e) :: fs))).toList = ',' :: ((newline level).toList ++
        ((prettyName (some name')).toList ++ ((prettyAt level e).toList ++
          (prettyFields level (named fs)).toList))) := by
      rw [named, List.map_cons, prettyFields]
      simp [named]
    rw [htext] at hfuel ⊢
    simp only [List.length_cons, List.length_append] at hfuel
    simp only [List.cons_append, List.append_assoc]
    -- a field is its name, the value one blank behind it, and then the fields on the next lines
    have hvalue : ∀ s, readValue fuel (' ' :: ((prettyAt level d).toList ++ s)) = (d, some s) := fun s =>
      (readValue_append hblank fuel _).trans (hd.read level fuel _ (by omega))
    have hfields : readFields fuel ((newline level).toList ++ ((prettyName (some name')).toList ++
        ((prettyAt level e).toList ++ ((prettyFields level (named fs)).toList ++ (ws' ++ '\x7d' :: rest))))) =
          (named ((name', e) :: fs), some rest) :=
      ih hrest name' he (spaceRun_newline level) (by omega)
    rw [readFields, readName_prettyName hws]
    simp only [hvalue, skipSpace_cons (show isSpace ',' = false from rfl), hfields]
    rfl

/-- Behind the brace of a record that is not empty, its fields are read. -/
theorem readValue_brace {ws cs : List Char} (hws : SpaceRun ws) (fuel : Nat) :
    readValue (fuel + 1) ('\x7b' :: (ws ++ '"' :: cs)) =
      (.record (readFields fuel ('"' :: cs)).1, (readFields fuel ('"' :: cs)).2) := by
  rw [readValue, skipSpace_cons rfl]
  simp only [skipSpace_append hws, skipSpace_cons (show isSpace '"' = false from rfl)]
  rfl

theorem readsBack_record {fields : List (String × Document)} (h : ∀ f ∈ fields, ReadsBack f.2) :
    ReadsBack (.ofFields fields) := by
  cases fields with
  | nil =>
    refine readsBack_of_open (fun _ => by rw [Document.ofFields, List.map_nil, prettyAt]; rfl) rfl (by decide)
      fun _ _ _ _ => ?_
    rw [readValue, skipSpace_cons rfl]
    rfl
  | cons f fs =>
    obtain ⟨name, d⟩ := f
    have hd : ReadsBack d := h (name, d) List.mem_cons_self
    have hfs : ∀ f ∈ fs, ReadsBack f.2 := fun f hf => h f (List.mem_cons_of_mem _ hf)
    have htext : ∀ level, (prettyAt level (.ofFields ((name, d) :: fs))).toList =
        '\x7b' :: ((newline (level + 1)).toList ++ ((prettyName (some name)).toList ++
          ((prettyAt (level + 1) d).toList ++ ((prettyFields (level + 1) (named fs)).toList ++
            ((newline level).toList ++ ['\x7d']))))) := by
      intro level
      rw [Document.ofFields, List.map_cons, prettyAt]
      simp [named]
    refine readsBack_of_open htext rfl (by decide) fun level fuel rest hfuel => ?_
    simp only [List.length_append, List.length_cons, List.length_nil] at hfuel
    have hfields := readFields_pretty hfs name hd spaceRun_nil (spaceRun_newline level)
      (show 2 * ((prettyAt (level + 1) d).toList.length + (prettyFields (level + 1) (named fs)).toList.length) + 1 ≤
        fuel by omega) rest
    have hname : (prettyName (some name)).toList = '"' :: (quoteBody name.toList ++ [':', ' ']) := by
      rw [prettyName, String.toList_append, toList_quote]
      rfl
    simp only [hname, List.append_assoc, List.cons_append, List.nil_append] at hfields ⊢
    rw [readValue_brace (spaceRun_newline (level + 1)), hfields]
    rfl

/-! ## Documents -/

/-- **A plain document is read back** from its long form. -/
theorem Document.Plain.readsBack {d : Document} (h : d.Plain) : ReadsBack d := by
  induction h with
  | null => exact readsBack_null
  | flag b => exact readsBack_flag b
  | text s => exact readsBack_text s
  | list _ ih => exact readsBack_list ih
  | record _ ih => exact readsBack_record ih

/-- The long form of a plain document is that document and nothing else. -/
theorem read_pretty {d : Document} (h : d.Plain) : read (pretty d) = (d, some []) := by
  have hread := (Document.Plain.readsBack h).read 0 (2 * (pretty d).toList.length + 2) [] (Nat.le_add_right _ 2)
  rw [List.append_nil] at hread
  exact hread

end Json

end BoundaryProxy
