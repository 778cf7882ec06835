import BoundaryProxy.Proofs.TypeExpr.RoundTrip
import BoundaryProxy.Source.Render

/-!
# `Proofs.Source.Spelling` — what the spelling of a type still says

The source spells a primitive with its keyword, and a keyword is a name like any other. So what is spelled is the
written form of a type again: of the one with keywords for the names of its primitives (`spelling_eq`). It is read back
as that type, and nothing else of the type is lost.

* **`parse_spelling`**: the spelling of a type is read as the type with its keywords; types in which no name is a
  keyword from the start are told apart by their spellings, and so are lists of them.
-/

namespace BoundaryProxy.TypeExpr

open Source

/-! ## Keywords for names -/

/-- The name of a type as source has it: the keyword of a primitive, any other name itself. -/
def keywordFor : String → String
  | "System.Void" => "void"
  | "System.Object" => "object"
  | "System.String" => "string"
  | "System.Boolean" => "bool"
  | "System.Char" => "char"
  | "System.Byte" => "byte"
  | "System.SByte" => "sbyte"
  | "System.Int16" => "short"
  | "System.UInt16" => "ushort"
  | "System.Int32" => "int"
  | "System.UInt32" => "uint"
  | "System.Int64" => "long"
  | "System.UInt64" => "ulong"
  | "System.Single" => "float"
  | "System.Double" => "double"
  | "System.Decimal" => "decimal"
  | name => name

/-- The printer has just these keywords in its table. -/
theorem keywordOr_eq (name : String) : keywordOr name = keywordFor name := by
  unfold keywordFor
  split
  case h_17 =>
    have hnone : keywords.lookup name = none := by
      rw [List.lookup_eq_none_iff]
      simp_all [keywords]
    rw [keywordOr, hnone, Option.getD_none]
  all_goals rfl

/-- The names that stand for primitives in source. -/
def keywordNames : List String :=
  ["void", "object", "string", "bool", "char", "byte", "sbyte", "short", "ushort", "int", "uint", "long", "ulong",
    "float", "double", "decimal"]

mutual

/-- The type with the keyword of a primitive for its name, wherever that stands without arguments. -/
def keyworded : TypeExpr → TypeExpr
  | ⟨name, [], rank⟩ => ⟨keywordFor name, [], rank⟩
  | ⟨name, a :: as, rank⟩ => ⟨name, keyworded a :: keywordedArgs as, rank⟩

/-- Several types with keywords. -/
def keywordedArgs : List TypeExpr → List TypeExpr
  | [] => []
  | a :: as => keyworded a :: keywordedArgs as

end

mutual

/-- All names in a type: that of its definition, then those in its arguments. -/
def names : TypeExpr → List String
  | ⟨name, args, _⟩ => name :: namesIn args

/-- All names in several types. -/
def namesIn : List TypeExpr → List String
  | [] => []
  | a :: as => names a ++ namesIn as

end

theorem namesIn_eq_flatMap (ts : List TypeExpr) : namesIn ts = ts.flatMap names := by
  induction ts with
  | nil => rw [namesIn, List.flatMap_nil]
  | cons t ts ih => rw [namesIn, List.flatMap_cons, ih]

/-- No name in the type is a keyword. -/
def AvoidsKeywords (t : TypeExpr) : Prop :=
  ∀ name ∈ t.names, name ∉ keywordNames

instance (t : TypeExpr) : Decidable t.AvoidsKeywords :=
  inferInstanceAs (Decidable (∀ name ∈ t.names, name ∉ keywordNames))

/-- The keyword that stands for a name is one of the table; any other name stands for itself. -/
theorem keywordFor_cases (name : String) : (name, keywordFor name) ∈ keywords ∨ keywordFor name = name := by
  rw [← keywordOr_eq]
  unfold keywordOr
  cases hlookup : keywords.lookup name with
  | none => exact .inr rfl
  | some keyword =>
    obtain ⟨before, after, hsplit, -⟩ := List.lookup_eq_some_iff.mp hlookup
    left
    rw [hsplit]
    simp

theorem keyword_mem_keywordNames {row : String × String} (h : row ∈ keywords) : row.2 ∈ keywordNames :=
  List.mem_map_of_mem (f := Prod.snd) h

/-- Names that are no keywords are told apart by what stands for them. -/
theorem keywordFor_injective {name name' : String} (h : name ∉ keywordNames) (h' : name' ∉ keywordNames)
    (heq : keywordFor name = keywordFor name') : name = name' := by
  rcases keywordFor_cases name with hmem | hname
  · rcases keywordFor_cases name' with hmem' | hname'
    · -- no keyword stands for two primitives
      have hone : ∀ row ∈ keywords, ∀ row' ∈ keywords, row.2 = row'.2 → row.1 = row'.1 := by
        decide +kernel
      exact hone _ hmem _ hmem' heq
    · exact absurd (hname' ▸ heq ▸ keyword_mem_keywordNames hmem) h'
  · rcases keywordFor_cases name' with hmem' | hname'
    · exact absurd (hname ▸ heq ▸ keyword_mem_keywordNames hmem') h
    · rw [← hname, heq, hname']

/-! ## The spelling is a written form -/

mutual

/-- **The spelling of a type** is the written form of the type with keywords. -/
theorem spelling_eq : ∀ t : TypeExpr, t.spelling = t.keyworded.text
  | ⟨name, [], rank⟩ => by
    simp [spelling, keyworded, text, argsText, keywordOr_eq]
  | ⟨name, a :: as, rank⟩ => by
    simp [spelling, keyworded, text, argsText, spelling_eq a, restSpelling_eq as, String.append_assoc]

theorem restSpelling_eq : ∀ as : List TypeExpr, restSpelling as = restText (keywordedArgs as)
  | [] => by
    simp [restSpelling, keywordedArgs, restText]
  | a :: as => by
    simp [restSpelling, keywordedArgs, restText, spelling_eq a, restSpelling_eq as]

end

theorem isTypeName_keywordFor {name : String} (h : IsTypeName name) : IsTypeName (keywordFor name) := by
  rcases keywordFor_cases name with hmem | hname
  · have hall : ∀ row ∈ keywords, isName row.2.toList = true ∧ row.2.toList.all isNameChar = true := by
      decide +kernel
    obtain ⟨hrun, hchars⟩ := hall _ hmem
    exact isTypeName_iff.mpr ⟨hrun, List.all_eq_true.mp hchars⟩
  · rwa [hname]

mutual

/-- A keyword is a name, so a type with names throughout keeps them. -/
theorem WellNamed.keyworded : ∀ {t : TypeExpr}, WellNamed t → WellNamed t.keyworded
  | ⟨_, [], _⟩, .intro hname _ => by
    rw [TypeExpr.keyworded]
    exact .intro (isTypeName_keywordFor hname) fun _ hmem => absurd hmem List.not_mem_nil
  | ⟨_, a :: as, _⟩, .intro hname hargs => by
    obtain ⟨ha, has⟩ := List.forall_mem_cons.mp hargs
    rw [TypeExpr.keyworded]
    exact .intro hname (List.forall_mem_cons.mpr ⟨ha.keyworded, wellNamed_keywordedArgs has⟩)

theorem wellNamed_keywordedArgs : ∀ {as : List TypeExpr}, (∀ a ∈ as, WellNamed a) →
    ∀ a ∈ keywordedArgs as, WellNamed a
  | [], _ => by
    rw [keywordedArgs]
    exact fun _ hmem => absurd hmem List.not_mem_nil
  | a :: as, h => by
    obtain ⟨ha, has⟩ := List.forall_mem_cons.mp h
    rw [keywordedArgs]
    exact List.forall_mem_cons.mpr ⟨ha.keyworded, wellNamed_keywordedArgs has⟩

end

mutual

/-- Types without keywords are told apart when keywords are put for their primitives. -/
theorem keyworded_injective : ∀ {t t' : TypeExpr}, t.AvoidsKeywords → t'.AvoidsKeywords →
    t.keyworded = t'.keyworded → t = t'
  | ⟨name, [], _⟩, ⟨name', [], _⟩, h, h', heq => by
    have hname : name ∉ keywordNames := h name (by simp [names])
    have hname' : name' ∉ keywordNames := h' name' (by simp [names])
    simp only [keyworded, TypeExpr.mk.injEq, true_and] at heq ⊢
    exact ⟨keywordFor_injective hname hname' heq.1, heq.2⟩
  | ⟨_, [], _⟩, ⟨_, _ :: _, _⟩, _, _, heq => by
    simp [keyworded] at heq
  | ⟨_, _ :: _, _⟩, ⟨_, [], _⟩, _, _, heq => by
    simp [keyworded] at heq
  | ⟨_, a :: as, _⟩, ⟨_, b :: bs, _⟩, h, h', heq => by
    have hargs : ∀ n ∈ namesIn (a :: as), n ∉ keywordNames := fun n hn => h n (by simp [names, hn])
    have hargs' : ∀ n ∈ namesIn (b :: bs), n ∉ keywordNames := fun n hn => h' n (by simp [names, hn])
    simp only [keyworded, TypeExpr.mk.injEq] at heq
    obtain ⟨rfl, hsame, rfl⟩ := heq
    rw [keywordedArgs_injective hargs hargs' hsame]

theorem keywordedArgs_injective : ∀ {as bs : List TypeExpr}, (∀ n ∈ namesIn as, n ∉ keywordNames) →
    (∀ n ∈ namesIn bs, n ∉ keywordNames) → keywordedArgs as = keywordedArgs bs → as = bs
  | [], [], _, _, _ => rfl
  | [], _ :: _, _, _, heq => by
    simp [keywordedArgs] at heq
  | _ :: _, [], _, _, heq => by
    simp [keywordedArgs] at heq
  | a :: as, b :: bs, h, h', heq => by
    rw [namesIn, List.forall_mem_append] at h h'
    simp only [keywordedArgs, List.cons.injEq] at heq ⊢
    exact ⟨keyworded_injective h.1 h'.1 heq.1, keywordedArgs_injective h.2 h'.2 heq.2⟩

end

/-! ## Lists of types -/

variable {t t' : TypeExpr} {ts ts' : List TypeExpr}

theorem parse_spelling_eq (h : WellNamed t) : parse t.spelling = .ok t.keyworded := by
  rw [spelling_eq]
  exact parse_text h.keyworded

/-- Types are spelled alike exactly if they are the same once keywords are put for their primitives. -/
theorem spelling_eq_iff (h : WellNamed t) (h' : WellNamed t') :
    t.spelling = t'.spelling ↔ t.keyworded = t'.keyworded := by
  constructor
  · intro heq
    have hread : parse t.spelling = .ok t.keyworded := parse_spelling_eq h
    rw [heq, parse_spelling_eq h'] at hread
    exact (Except.ok.inj hread).symm
  · intro heq
    rw [spelling_eq, spelling_eq, heq]

theorem spelling_ne_empty (h : WellNamed t) : t.spelling ≠ "" := by
  intro hempty
  have hread : parse "" = .ok t.keyworded := hempty ▸ parse_spelling_eq h
  have hfails : parse "" = .error ⟨"", .nameExpected, 0⟩ := by decide
  rw [hfails] at hread
  cases hread

/-- Spellings with commas between them are what stands in the angle brackets of arguments. -/
theorem commaSeparated_spellings (a : TypeExpr) (as : List TypeExpr) :
    commaSeparated ((a :: as).map spelling) = a.spelling ++ restSpelling as := by
  induction as generalizing a with
  | nil => simp [commaSeparated, restSpelling]
  | cons b bs ih =>
    have hrest : commaSeparated ((b :: bs).map spelling) = b.spelling ++ restSpelling bs := ih b
    unfold commaSeparated at hrest ⊢
    rw [List.map_cons, List.map_cons, String.intercalate_cons_cons, ← List.map_cons, hrest, restSpelling,
      String.append_assoc, String.append_assoc]

/-- Lists of types are told apart by their spellings with commas between them, if no name in them is a keyword. -/
theorem eq_of_commaSeparated_eq (h : ∀ t ∈ ts, WellNamed t ∧ t.AvoidsKeywords)
    (h' : ∀ t ∈ ts', WellNamed t ∧ t.AvoidsKeywords)
    (heq : commaSeparated (ts.map spelling) = commaSeparated (ts'.map spelling)) : ts = ts' := by
  have hempty : ∀ {a : TypeExpr} {as : List TypeExpr}, WellNamed a →
      commaSeparated ((a :: as).map spelling) ≠ commaSeparated ([].map spelling) := by
    intro a as ha hnone
    rw [commaSeparated_spellings] at hnone
    exact spelling_ne_empty ha (String.append_eq_empty_iff.mp hnone).1
  cases ts with
  | nil =>
    cases ts' with
    | nil => rfl
    | cons b bs => exact absurd heq.symm (hempty (h' b List.mem_cons_self).1)
  | cons a as =>
    cases ts' with
    | nil => exact absurd heq (hempty (h a List.mem_cons_self).1)
    | cons b bs =>
      -- as arguments of one definition the lists are spelled alike
      rw [commaSeparated_spellings, commaSeparated_spellings] at heq
      have hbetween : ∀ (c : TypeExpr) (cs : List TypeExpr), (generic "T" (c :: cs)).spelling =
          "T" ++ "<" ++ (c.spelling ++ restSpelling cs) ++ ">" ++ brackets 0 := by
        intro c cs
        simp [generic, spelling, String.append_assoc]
      have happlied : (generic "T" (a :: as)).spelling = (generic "T" (b :: bs)).spelling := by
        rw [hbetween, hbetween, heq]
      have hname : IsTypeName "T" := isTypeName_iff.mpr ⟨by decide, List.all_eq_true.mp (by decide)⟩
      have hnamed : ∀ {us : List TypeExpr}, (∀ t ∈ us, WellNamed t ∧ t.AvoidsKeywords) →
          WellNamed (generic "T" us) ∧ (generic "T" us).AvoidsKeywords := by
        intro us hus
        refine ⟨.intro hname fun t ht => (hus t ht).1, ?_⟩
        have hargs : ∀ n ∈ namesIn us, n ∉ keywordNames := by
          intro n hn
          rw [namesIn_eq_flatMap, List.mem_flatMap] at hn
          obtain ⟨t, ht, hn⟩ := hn
          exact (hus t ht).2 n hn
        exact List.forall_mem_cons.mpr ⟨by decide, hargs⟩
      obtain ⟨hwell, hevery⟩ := hnamed h
      obtain ⟨hwell', hevery'⟩ := hnamed h'
      have hsame := keyworded_injective hevery hevery' ((spelling_eq_iff hwell hwell').mp happlied)
      exact (TypeExpr.mk.inj hsame).2.1

/-- **What the spelling of a type still says.** A type with names throughout, however its arguments are nested and
    whatever its rank, is read back from its spelling, with keywords for the names of its primitives and nothing else
    changed. So types are spelled alike exactly if they agree up to keywords, types in which no name is a keyword only
    if they are the same, and methods that take different lists of such types do not print the same parameter types,
    neither one by one nor as one text. -/
theorem parse_spelling :
    (∀ t : TypeExpr, WellNamed t → parse t.spelling = .ok t.keyworded) ∧
    (∀ t t' : TypeExpr, WellNamed t → WellNamed t' → (t.spelling = t'.spelling ↔ t.keyworded = t'.keyworded)) ∧
    (∀ t t' : TypeExpr, WellNamed t → WellNamed t' → t.AvoidsKeywords →
      t'.AvoidsKeywords → t.spelling = t'.spelling → t = t') ∧
    (∀ m m' : Proxy.Method, (∀ t ∈ m.paramTypes, WellNamed t ∧ t.AvoidsKeywords) →
      (∀ t ∈ m'.paramTypes, WellNamed t ∧ t.AvoidsKeywords) → m.paramTypes ≠ m'.paramTypes →
      m.paramTypes.map spelling ≠ m'.paramTypes.map spelling ∧
        commaSeparated (m.paramTypes.map spelling) ≠ commaSeparated (m'.paramTypes.map spelling)) := by
  refine ⟨fun t h => parse_spelling_eq h, fun t t' h h' => spelling_eq_iff h h', ?_, ?_⟩
  · intro t t' h h' hevery hevery' heq
    exact keyworded_injective hevery hevery' ((spelling_eq_iff h h').mp heq)
  · intro m m' h h' hne
    have htext : commaSeparated (m.paramTypes.map spelling) ≠ commaSeparated (m'.paramTypes.map spelling) :=
      fun heq => hne (eq_of_commaSeparated_eq h h' heq)
    exact ⟨fun heq => htext (congrArg commaSeparated heq), htext⟩

/-- Keywords at every level, beside the name of a primitive that has arguments and so keeps it. -/
theorem parse_spelling_nested :
    let t : TypeExpr := ⟨"Ns.Map\x602", [⟨"System.Int32", [], 1⟩, ⟨"System.Object", [.void], 0⟩], 2⟩
    let m : Proxy.Method := { name := "Put", params := [⟨"a", t⟩, ⟨"b", .int⟩], returns := .void }
    let m' : Proxy.Method := { name := "Put", params := [⟨"a", t⟩, ⟨"b", .object⟩], returns := .void }
    WellNamed t ∧ t.AvoidsKeywords ∧ t.spelling = "Ns.Map\x602<int[], System.Object<void>>[][]" ∧
      parse t.spelling = .ok t.keyworded ∧ t.keyworded ≠ t ∧ t.spelling ≠ TypeExpr.int.spelling ∧
      m.paramTypes ≠ m'.paramTypes ∧ m.paramTypes.map spelling ≠ m'.paramTypes.map spelling := by
  intro t m m'
  have hread : ∀ u ∈ [t, .int, .object], parse u.text = .ok u := by decide +kernel
  have hnamed : ∀ u ∈ [t, .int, .object], WellNamed u := fun u hu => (compact_of_parse (hread u hu)).1
  have havoids : ∀ u ∈ [t, .int, .object], u.AvoidsKeywords := by decide
  obtain ⟨ht, hint⟩ : t ∈ [t, .int, .object] ∧ .int ∈ [t, .int, .object] := by decide
  have hparams : ∀ u ∈ m.paramTypes ++ m'.paramTypes, u ∈ [t, .int, .object] := by decide
  have hgood : ∀ u ∈ m.paramTypes ++ m'.paramTypes, WellNamed u ∧ u.AvoidsKeywords := fun u hu =>
    ⟨hnamed u (hparams u hu), havoids u (hparams u hu)⟩
  have hne : m.paramTypes ≠ m'.paramTypes := by decide
  have htypes : t ≠ .int := by decide
  obtain ⟨hparse, -, hinjective, hmethods⟩ := parse_spelling
  refine ⟨hnamed t ht, havoids t ht, by decide +kernel, hparse t (hnamed t ht), by decide +kernel, ?_, hne, ?_⟩
  · intro heq
    exact htypes (hinjective t .int (hnamed t ht) (hnamed _ hint) (havoids t ht) (havoids _ hint) heq)
  · exact (hmethods m m' (fun u hu => hgood u (List.mem_append_left _ hu))
      (fun u hu => hgood u (List.mem_append_right _ hu)) hne).1

end BoundaryProxy.TypeExpr
