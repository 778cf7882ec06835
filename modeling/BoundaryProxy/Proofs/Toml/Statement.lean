import BoundaryProxy.Proofs.Toml.Text
import BoundaryProxy.Toml.Printer
import BoundaryProxy.Toml.Reader

/-!
# `Proofs.Toml.Statement` — statements are read back

A text that the printer writes is made of pairs of a bare key and a value, a line or more each, and of headers behind an
empty line (`Statement.Plain`). Between two tokens of it stand only blanks and line breaks, and each token begins with a
character that is neither (`opens`), so what the reader skips is exactly the layout.

A list of texts has a line for each, and the line break before one is skipped with the blanks of its line: the induction
over the items begins each time at a line break. The values are read with a bound, which the length of their text
exceeds.
-/

namespace BoundaryProxy.Toml

open Document

variable {c : Char} {s rest : List Char} {key : String} {fuel level : Nat} {d : Document}

/-! ## Between tokens -/

/-- A character at which a token begins: no blank, no comment and no line break. -/
def opens (c : Char) : Bool :=
  !isBlank c && c != '#' && c != '\n' && c != '\r'

theorem skipBlanks_cons (hc : opens c = true) (s : List Char) : skipBlanks (c :: s) = c :: s := by
  refine List.dropWhile_cons_of_neg ?_
  simp_all [opens]

theorem skipComment_cons (hc : opens c = true) (s : List Char) : skipComment (c :: s) = c :: s := by
  rw [skipComment]
  rintro rest heq
  rw [(List.cons.inj heq).1] at hc
  cases hc

theorem lineBreak?_of_opens (hc : opens c = true) (s : List Char) : lineBreak? (c :: s) = none := by
  refine lineBreak?_cons ?_ ?_
  · rintro rfl
    cases hc
  · rintro rfl
    cases hc

/-- Blanks before a token are skipped. -/
theorem skipLines_blanks (ws : List Char) (hws : ws.all isBlank = true) (hc : opens c = true) (s : List Char) :
    skipLines (fuel + 1) (ws ++ c :: s) = c :: s := by
  have hskip : skipBlanks (ws ++ c :: s) = c :: s :=
    (List.dropWhile_append_of_pos (List.all_eq_true.mp hws)).trans (skipBlanks_cons hc s)
  rw [skipLines, hskip, skipComment_cons hc, lineBreak?_of_opens hc]

/-- Where a token begins, nothing is skipped. -/
theorem skipLines_cons (hc : opens c = true) (s : List Char) : skipLines fuel (c :: s) = c :: s := by
  cases fuel with
  | zero => rfl
  | succ fuel => exact skipLines_blanks [] rfl hc s

theorem skipLines_newline (s : List Char) : skipLines (fuel + 1) ('\n' :: s) = skipLines fuel s := by
  rw [skipLines]
  rfl

theorem readLineEnd_newline (s : List Char) : readLineEnd ('\n' :: s) = some s :=
  rfl

/-! ## Values -/

/-- A value that is written behind an equals sign: a text or a list of texts. -/
inductive Value : Document → Prop
  | text (s : String) : Value (ofString s)
  | texts (ss : List String) : Value (.list (ss.map ofString))

theorem exists_writeString (s : String) :
    ∃ quote more, (writeString s).toList = quote :: more ∧ (quote = '"' ∨ quote = '\'') := by
  have htext : (writeString s).toList = writeIn (.of s.toList) s.toList := String.toList_ofList
  rw [htext]
  cases StringStyle.of s.toList with
  | basic | basicLines => exact ⟨'"', _, rfl, .inl rfl⟩
  | literal | literalLines => exact ⟨'\'', _, rfl, .inr rfl⟩

theorem opens_of_quote (h : c = '"' ∨ c = '\'') : opens c = true := by
  rcases h with rfl | rfl
  · rfl
  · rfl

/-- A text is read back where no quote follows. -/
theorem readValue_writeString (fuel level : Nat) (s : String) (hdouble : c ≠ '"') (hsingle : c ≠ '\'')
    (rest : List Char) :
    readValue (fuel + 1) level ((writeString s).toList ++ c :: rest) = some (ofString s, c :: rest) := by
  have hstring : readString ((writeString s).toList ++ c :: rest) = some (s.toList, c :: rest) := by
    have htext : (writeString s).toList = writeIn (.of s.toList) s.toList := String.toList_ofList
    rw [htext]
    exact readString_writeIn s.toList (fun _ h => hdouble (List.cons.inj h).1) fun _ h => hsingle (List.cons.inj h).1
  obtain ⟨quote, more, hopen, hquote⟩ := exists_writeString s
  rw [hopen, List.cons_append] at hstring ⊢
  have hplain : readPlainValue (quote :: (more ++ c :: rest)) = some (ofString s, c :: rest) := by
    have hback : (some (s.toList, c :: rest)).map (fun r => (ofString (String.ofList r.1), r.2)) =
        some (ofString s, c :: rest) := by
      rw [Option.map_some, String.ofList_toList]
    rcases hquote with rfl | rfl
    · exact (congrArg (Option.map _) hstring).trans hback
    · exact (congrArg (Option.map _) hstring).trans hback
  rw [readValue, hplain]
  · rintro after heq
    rcases hquote with rfl | rfl <;> cases (List.cons.inj heq).1
  · rintro after heq
    rcases hquote with rfl | rfl <;> cases (List.cons.inj heq).1

/-! ## Lists of texts -/

/-- Where the list ends. -/
theorem readItems_close (hskip : skipLines s.length s = ']' :: rest) :
    readItems (fuel + 1) level s = some ([], rest) := by
  rw [readItems, hskip]
  rfl

/-- Where a text stands that a comma follows. -/
theorem readItems_comma {text : String} {items : List Document} {after : List Char}
    (hskip : skipLines s.length s = (writeString text).toList ++ ',' :: rest)
    (hitems : readItems (fuel + 1) level rest = some (items, after)) :
    readItems (fuel + 2) level s = some (ofString text :: items, after) := by
  obtain ⟨quote, more, hopen, hquote⟩ := exists_writeString text
  have hclose : quote ≠ ']' := by rcases hquote with rfl | rfl <;> decide
  have hvalue := readValue_writeString fuel level text (show ',' ≠ '"' by decide) (by decide) rest
  have hcomma : skipLines (',' :: rest).length (',' :: rest) = ',' :: rest := skipLines_cons rfl rest
  rw [hopen, List.cons_append] at hskip hvalue
  rw [readItems, hskip]
  split
  · next heq => exact absurd (List.cons.inj heq).1 hclose
  · simp only [hvalue, hcomma, hitems, bind, Option.bind, pure]

/-- Where the last text stands, on the line of the bracket. -/
theorem readItems_last {text : String} (hskip : skipLines s.length s = (writeString text).toList ++ ']' :: rest) :
    readItems (fuel + 2) level s = some ([ofString text], rest) := by
  obtain ⟨quote, more, hopen, hquote⟩ := exists_writeString text
  have hclose : quote ≠ ']' := by rcases hquote with rfl | rfl <;> decide
  have hvalue := readValue_writeString fuel level text (show ']' ≠ '"' by decide) (by decide) rest
  have hbracket : skipLines (']' :: rest).length (']' :: rest) = ']' :: rest := skipLines_cons rfl rest
  rw [hopen, List.cons_append] at hskip hvalue
  rw [readItems, hskip]
  split
  · next heq => exact absurd (List.cons.inj heq).1 hclose
  · simp only [hvalue, hbracket, bind, Option.bind, pure]

/-- The lines of several items. -/
def itemLines (texts : List String) : List Char :=
  texts.flatMap fun s => (valueText.itemLine (ofString s)).toList

theorem itemLines_cons (text : String) (texts : List String) :
    itemLines (text :: texts) =
      [' ', ' ', ' ', ' '] ++ ((writeString text).toList ++ ',' :: '\n' :: itemLines texts) := by
  simp [itemLines, valueText.itemLine, ofString]

theorem length_le_itemLines (texts : List String) : texts.length ≤ (itemLines texts).length := by
  induction texts with
  | nil => exact Nat.le_refl 0
  | cons text texts ih =>
    rw [itemLines_cons]
    simp only [List.length_append, List.length_cons]
    omega

/-- **The items of a list** are read line by line. -/
theorem readItems_itemLines (texts : List String) (hfuel : texts.length < fuel) :
    readItems fuel level ('\n' :: (itemLines texts ++ ']' :: rest)) = some (texts.map ofString, rest) := by
  induction texts generalizing fuel with
  | nil =>
    obtain ⟨fuel, rfl⟩ := Nat.exists_eq_add_one.mpr hfuel
    exact readItems_close ((skipLines_newline _).trans (skipLines_cons rfl rest))
  | cons text texts ih =>
    -- the last item is followed by a comma as well, so there is one more look for an item than there are items
    obtain ⟨fuel, rfl⟩ := Nat.exists_eq_add_of_le' (Nat.lt_of_le_of_lt (Nat.succ_le_succ (Nat.zero_le _)) hfuel)
    have hline : itemLines (text :: texts) ++ ']' :: rest =
        [' ', ' ', ' ', ' '] ++ ((writeString text).toList ++ ',' :: '\n' :: (itemLines texts ++ ']' :: rest)) := by
      simp only [itemLines_cons, List.append_assoc, List.cons_append]
    obtain ⟨quote, more, hopen, hquote⟩ := exists_writeString text
    refine readItems_comma ?_ (ih (show texts.length < fuel + 1 by simpa using hfuel))
    rw [hline, hopen, List.length_cons, skipLines_newline]
    exact skipLines_blanks _ rfl (opens_of_quote hquote) _

theorem readValue_list {items : List Document} (h : readItems fuel 1 s = some (items, rest)) :
    readValue (fuel + 1) 0 ('[' :: s) = some (.list items, rest) := by
  rw [readValue]
  simp only [nestingLimit, h, Nat.reduceAdd, Nat.reduceLeDiff, if_false, bind, Option.bind, pure]

/-- A list of more than one text has a line for each. -/
theorem toList_valueText_lines (s s' : String) (ss : List String) :
    (valueText (.list ((s :: s' :: ss).map ofString))).toList =
      '[' :: '\n' :: (itemLines (s :: s' :: ss) ++ [']']) := by
  have hopen : "[\n".toList = ['[', '\n'] := rfl
  have hclose : "]".toList = [']'] := rfl
  rw [List.map_cons, List.map_cons, valueText]
  · simp only [← List.map_cons, String.toList_append, String.toList_join, hopen, hclose, itemLines, List.flatMap_map,
      List.cons_append, List.nil_append]
  all_goals simp

/-- **A value** is read back where a line break follows. -/
theorem Value.readValue_valueText (h : Value d) (hfuel : (valueText d).toList.length ≤ fuel) :
    readValue fuel 0 ((valueText d).toList ++ '\n' :: rest) = some (d, '\n' :: rest) := by
  cases h with
  | text s =>
    obtain ⟨quote, more, hopen, -⟩ := exists_writeString s
    have hpos : 0 < fuel := Nat.lt_of_lt_of_le (by simp [valueText, ofString, hopen]) hfuel
    obtain ⟨fuel, rfl⟩ := Nat.exists_eq_add_one.mpr hpos
    exact readValue_writeString fuel 0 s (by decide) (by decide) rest
  | texts ss =>
    -- an empty list and a list of one text stand on one line, any other has a line for each text
    rcases ss with _ | ⟨s, _ | ⟨s', ss⟩⟩
    · have hlength : 2 ≤ fuel := hfuel
      obtain ⟨fuel, rfl⟩ := Nat.exists_eq_add_of_le' hlength
      exact readValue_list (readItems_close (skipLines_cons rfl _))
    · have htext : (valueText (.list [ofString s])).toList = '[' :: ((writeString s).toList ++ [']']) := by
        simp [valueText, ofString]
      obtain ⟨quote, more, hopen, hquote⟩ := exists_writeString s
      have hitem : readItems (fuel - 3 + 2) 1 ((writeString s).toList ++ ']' :: '\n' :: rest) =
          some ([ofString s], '\n' :: rest) := by
        refine readItems_last ?_
        rw [hopen]
        exact skipLines_cons (opens_of_quote hquote) _
      have hlist := readValue_list hitem
      rw [List.map_singleton, htext, hopen] at hfuel
      simp only [List.length_cons, List.length_append] at hfuel
      rw [show fuel - 3 + 2 + 1 = fuel by omega] at hlist
      rwa [List.map_singleton, htext, List.cons_append, List.append_assoc]
    · rw [toList_valueText_lines] at hfuel ⊢
      have hlength := length_le_itemLines (s :: s' :: ss)
      simp only [List.length_cons, List.length_append] at hfuel hlength
      obtain ⟨fuel, rfl⟩ := Nat.exists_eq_add_one.mpr (show 0 < fuel by omega)
      rw [List.cons_append, List.cons_append, List.append_assoc]
      exact readValue_list (readItems_itemLines (s :: s' :: ss) (by simp only [List.length_cons]; omega))

/-! ## Statements -/

/-- A key that is written without quotes. -/
def BareKey (key : String) : Prop :=
  key ≠ "" ∧ ∀ c ∈ key.toList, isBareKeyChar c = true

instance (key : String) : Decidable (BareKey key) :=
  decidable_of_iff (key ≠ "" ∧ key.toList.all isBareKeyChar = true) (and_congr_right fun _ => List.all_eq_true)

/-- What a bare key begins with. -/
theorem BareKey.exists_cons (h : BareKey key) : ∃ first more, key.toList = first :: more ∧ opens first = true ∧
    first ≠ '"' ∧ first ≠ '\'' ∧ first ≠ '[' ∧ first ≠ '\uFEFF' := by
  cases hkey : key.toList with
  | nil => exact absurd (String.toList_inj.mp hkey) h.1
  | cons first more =>
    have hfirst : isBareKeyChar first = true := h.2 first (hkey ▸ List.mem_cons_self)
    refine ⟨first, more, rfl, ?_, ?_, ?_, ?_, ?_⟩
    · simp only [opens, isBlank, Bool.and_eq_true, Bool.not_eq_true', Bool.or_eq_false_iff, beq_eq_false_iff_ne,
        bne_iff_ne]
      refine ⟨⟨⟨⟨?_, ?_⟩, ?_⟩, ?_⟩, ?_⟩
      all_goals
        rintro rfl
        cases hfirst
    all_goals
      rintro rfl
      cases hfirst

/-- A bare key is read up to what stands behind the blanks after it. -/
theorem BareKey.readKey (h : BareKey key) {next : Char} (hend : isBareKeyChar c = false)
    (hnext : skipBlanks (c :: s) = next :: rest) (hdot : next ≠ '.') :
    readKey (key.toList ++ c :: s) = some ([key], next :: rest) := by
  obtain ⟨first, more, hkey, hopens, hdouble, hsingle, -⟩ := h.exists_cons
  have htake : (key.toList ++ c :: s).takeWhile isBareKeyChar = key.toList := by
    rw [List.takeWhile_append_of_pos h.2, List.takeWhile_cons_of_neg (by rw [hend]; decide), List.append_nil]
  have hdrop : (key.toList ++ c :: s).dropWhile isBareKeyChar = c :: s := by
    rw [List.dropWhile_append_of_pos h.2, List.dropWhile_cons_of_neg (by rw [hend]; decide)]
  have hsimple : readSimpleKey (key.toList ++ c :: s) = some (key, c :: s) := by
    rw [readSimpleKey]
    · have hsome : key.toList.isEmpty = false := by rw [hkey]; rfl
      rw [htake, hdrop, hsome, if_neg Bool.false_ne_true, String.ofList_toList]
    · rw [hkey]
      exact fun _ heq => hdouble (List.cons.inj heq).1
    · rw [hkey]
      exact fun _ heq => hsingle (List.cons.inj heq).1
  have hskip : skipBlanks (key.toList ++ c :: s) = key.toList ++ c :: s := by
    rw [hkey]
    exact skipBlanks_cons hopens _
  unfold Toml.readKey
  rw [nestingLimit, readKeyParts, hskip, hsimple]
  simp only [bind, Option.bind, hnext]
  split
  · next heq => exact absurd (List.cons.inj heq).1 hdot
  · rfl

/-- A statement of a text that the printer writes. -/
inductive Statement.Plain : Statement → Prop
  | pair {key : String} {d : Document} : BareKey key → Value d → Plain (.pair [key] d)
  | element {key : String} : BareKey key → Plain (.element [key])

/-- The text of such a statement, where an empty line stands before a header. -/
def Statement.text : Statement → String
  | .pair [key] value => pairLine key value
  | .element [key] => "\n[[" ++ key ++ "]]\n"
  | _ => ""

theorem Value.exists_cons (h : Value d) :
    ∃ first more, (valueText d).toList = first :: more ∧ opens first = true := by
  cases h with
  | text s =>
    obtain ⟨quote, more, hopen, hquote⟩ := exists_writeString s
    exact ⟨quote, more, hopen, opens_of_quote hquote⟩
  | texts ss =>
    match ss with
    | [] => exact ⟨'[', _, rfl, rfl⟩
    | [s] => exact ⟨'[', _, by simp [valueText, ofString]; rfl, rfl⟩
    | s :: s' :: ss => exact ⟨'[', _, toList_valueText_lines s s' ss, rfl⟩

theorem toList_pairLine (key : String) (d : Document) (rest : List Char) :
    (pairLine key d).toList ++ rest =
      key.toList ++ ' ' :: '=' :: ' ' :: ((valueText d).toList ++ '\n' :: rest) := by
  simp [pairLine]

/-- A pair is read back with the end of its line. -/
theorem readStatement_pair (hkey : BareKey key) (hvalue : Value d) :
    readStatement ((pairLine key d).toList ++ rest) = some (.pair [key] d, rest) := by
  obtain ⟨first, more, hfirst, -, -, -, hbracket, -⟩ := hkey.exists_cons
  obtain ⟨first', more', hopen, hopens⟩ := hvalue.exists_cons
  have hread := hkey.readKey (c := ' ') (s := '=' :: ' ' :: ((valueText d).toList ++ '\n' :: rest)) rfl rfl (by decide)
  have hskip : skipBlanks (' ' :: ((valueText d).toList ++ '\n' :: rest)) = (valueText d).toList ++ '\n' :: rest := by
    rw [hopen]
    exact skipBlanks_cons hopens _
  have hback : readValue (2 * (' ' :: ((valueText d).toList ++ '\n' :: rest)).length + 2) 0
      ((valueText d).toList ++ '\n' :: rest) = some (d, '\n' :: rest) :=
    hvalue.readValue_valueText (by simp only [List.length_cons, List.length_append]; omega)
  rw [toList_pairLine, readStatement]
  · simp only [hread, readChar, if_true, hskip, hback, readLineEnd_newline, bind, Option.bind, pure]
  · rw [hfirst]
    exact fun _ heq => hbracket (List.cons.inj heq).1
  · rw [hfirst]
    exact fun _ heq => hbracket (List.cons.inj heq).1

/-- A header is read back with the end of its line. -/
theorem readStatement_element (hkey : BareKey key) :
    readStatement ('[' :: '[' :: (key.toList ++ ']' :: ']' :: '\n' :: rest)) = some (.element [key], rest) := by
  have hread := hkey.readKey (c := ']') (s := ']' :: '\n' :: rest) rfl rfl (by decide)
  rw [readStatement]
  simp only [hread, readChar, if_true, readLineEnd_newline, bind, Option.bind, pure]

/-- A statement stands in front, behind what is skipped, and is read back. -/
theorem Statement.Plain.exists_read {st : Statement} (h : st.Plain) (rest : List Char) : ∃ first more,
    skipLines (st.text.toList ++ rest).length (st.text.toList ++ rest) = first :: more ∧ opens first = true ∧
      readStatement (first :: more) = some (st, rest) := by
  cases h with
  | @pair key d hkey hvalue =>
    obtain ⟨first, more, hfirst, hopens, -⟩ := hkey.exists_cons
    have hread : readStatement ((pairLine key d).toList ++ rest) = some (.pair [key] d, rest) :=
      readStatement_pair hkey hvalue
    have htext : (pairLine key d).toList ++ rest =
        first :: (more ++ ' ' :: '=' :: ' ' :: ((valueText d).toList ++ '\n' :: rest)) := by
      rw [toList_pairLine, hfirst, List.cons_append]
    refine ⟨first, _, ?_, hopens, htext ▸ hread⟩
    rw [Statement.text, htext]
    exact skipLines_cons hopens _
  | @element key hkey =>
    have htext : (Statement.element [key]).text.toList ++ rest =
        '\n' :: '[' :: '[' :: (key.toList ++ ']' :: ']' :: '\n' :: rest) := by
      simp [Statement.text]
    refine ⟨'[', _, ?_, rfl, readStatement_element hkey⟩
    rw [htext, List.length_cons, skipLines_newline]
    exact skipLines_cons rfl _

/-- The texts of several statements. -/
def statementsText (sts : List Statement) : List Char :=
  sts.flatMap fun st => st.text.toList

/-- **Statements** are read back one after another. -/
theorem readStatements_statementsText {sts : List Statement} (h : ∀ st ∈ sts, st.Plain) (hfuel : sts.length < fuel) :
    readStatements fuel (statementsText sts) = some sts := by
  induction sts generalizing fuel with
  | nil =>
    obtain ⟨fuel, rfl⟩ := Nat.exists_eq_add_one.mpr hfuel
    rfl
  | cons st sts ih =>
    obtain ⟨fuel, rfl⟩ := Nat.exists_eq_add_one.mpr (Nat.lt_of_le_of_lt (Nat.zero_le _) hfuel)
    obtain ⟨hst, hsts⟩ := List.forall_mem_cons.mp h
    obtain ⟨first, more, hskip, hopens, hread⟩ := hst.exists_read (statementsText sts)
    have htext : statementsText (st :: sts) = st.text.toList ++ statementsText sts := List.flatMap_cons
    rw [htext, readStatements, hskip]
    split
    · next heq => cases heq
    · next heq =>
      rw [(List.cons.inj heq).1] at hopens
      cases hopens
    · simp only [hread, ih hsts (Nat.lt_of_succ_lt_succ hfuel), bind, Option.bind, pure]

end BoundaryProxy.Toml
