import BoundaryProxy.Proofs.Source.Canonical

/-!
# `Proofs.Source.Reading` — expressions are read back

A reader for the text of plain expressions. It takes a word, which says how an expression begins, and then one step
after the other: a dot, a bracket. So properties, slots and calls nest to the left, as they are printed. What it reads
is the canonical form (`readsAs_exprText`), and a list of arguments it reads to the bracket that closes it
(`readArgs_text`).
-/

namespace BoundaryProxy.Source

open Text Proxy

/-! ## The reader -/

/-- The word at the start of a text. -/
def wordOf (s : List Char) : String :=
  String.ofList (s.takeWhile continuesIdentifier)

/-- The text after its first word. -/
def afterWord (s : List Char) : List Char :=
  s.dropWhile continuesIdentifier

/-- The values among arguments. -/
def valuesOf : List Arg → List Expr
  | [] => []
  | .value e :: args => e :: valuesOf args
  | .discard :: args => valuesOf args

mutual

/-- Read an expression: how it begins, then its steps. -/
def readExpr : Nat → List Char → Option (Expr × List Char)
  | 0, _ => none
  | n + 1, s =>
    if wordOf s = "this" then
      readSteps n (.field (wordOf ((afterWord s).drop 1))) (afterWord ((afterWord s).drop 1))
    else if wordOf s = "null" then
      readSteps n .null (afterWord s)
    else if wordOf s = "new" then do
      let type ← (TypeExpr.parse (String.ofList (((afterWord s).drop 1).takeWhile (· != '(')))).toOption
      let (args, rest) ← readArgs n ((((afterWord s).drop 1).dropWhile (· != '(')).drop 1)
      readSteps n (.new type (valuesOf args)) rest
    else
      readSteps n (.param (wordOf s)) (afterWord s)

/-- Read what stands after an expression and belongs to it. -/
def readSteps : Nat → Expr → List Char → Option (Expr × List Char)
  | 0, _, _ => none
  | n + 1, e, s =>
    if s.head? = some '.' then
      if (afterWord (s.drop 1)).head? = some '(' then do
        let (args, rest) ← readArgs n ((afterWord (s.drop 1)).drop 1)
        readSteps n (.invoke e (wordOf (s.drop 1)) args) rest
      else
        readSteps n (.property e (wordOf (s.drop 1))) (afterWord (s.drop 1))
    else if s.head? = some '[' then do
      let (keys, rest) ← readArgs n (s.drop 1)
      readSteps n (.index e (valuesOf keys)) rest
    else
      some (e, s)

/-- Read arguments to the bracket that closes them. -/
def readArgs : Nat → List Char → Option (List Arg × List Char)
  | 0, _ => none
  | n + 1, s =>
    if s.head? = some ')' ∨ s.head? = some ']' then
      some ([], s.drop 1)
    else if s.head? = some ',' then
      readArgs n (s.drop 2)
    else if wordOf s = "out" then do
      let (args, rest) ← readArgs n (s.drop 5)
      some (.discard :: args, rest)
    else do
      let (e, rest) ← readExpr n s
      let (args, rest) ← readArgs n rest
      some (.value e :: args, rest)

end

/-! ## Words -/

/-- No word goes on here. -/
def Apart (s : List Char) : Prop :=
  ∀ c ∈ s.head?, continuesIdentifier c = false

theorem apart_cons {c : Char} {s : List Char} (h : continuesIdentifier c = false) : Apart (c :: s) := by
  intro d hd
  cases hd
  exact h

theorem takeWhile_append_of_head {p : Char → Bool} {run rest : List Char} (hrun : ∀ c ∈ run, p c = true)
    (hrest : ∀ c ∈ rest.head?, p c = false) : (run ++ rest).takeWhile p = run := by
  rw [List.takeWhile_append_of_pos hrun]
  cases rest with
  | nil => rw [List.takeWhile_nil, List.append_nil]
  | cons c rest => rw [List.takeWhile_cons_of_neg (by simp [hrest c rfl]), List.append_nil]

theorem dropWhile_append_of_head {p : Char → Bool} {run rest : List Char} (hrun : ∀ c ∈ run, p c = true)
    (hrest : ∀ c ∈ rest.head?, p c = false) : (run ++ rest).dropWhile p = rest := by
  rw [List.dropWhile_append_of_pos hrun]
  cases rest with
  | nil => rw [List.dropWhile_nil]
  | cons c rest => rw [List.dropWhile_cons_of_neg (by simp [hrest c rfl])]

variable {word : String} {s rest : List Char}

theorem wordOf_append (hword : ∀ c ∈ word.toList, continuesIdentifier c = true) (hs : Apart s) :
    wordOf (word.toList ++ s) = word := by
  unfold wordOf
  rw [takeWhile_append_of_head hword hs, String.ofList_toList]

theorem afterWord_append (hword : ∀ c ∈ word.toList, continuesIdentifier c = true) (hs : Apart s) :
    afterWord (word.toList ++ s) = s :=
  dropWhile_append_of_head hword hs

/-- The text that follows an expression, if neither a word nor the arguments of a call go on. -/
def Follows (s : List Char) : Prop :=
  Apart s ∧ s.head? ≠ some '('

theorem follows_cons {c : Char} {s : List Char} (h : continuesIdentifier c = false) (hc : c ≠ '(') :
    Follows (c :: s) :=
  ⟨apart_cons h, fun heq => hc (Option.some.inj heq)⟩

/-- The text that follows an expression, if none of it belongs to the expression. -/
def Stops (s : List Char) : Prop :=
  ∀ c ∈ s.head?, continuesIdentifier c = false ∧ c ∉ ['(', '.', '[']

theorem Stops.follows (h : Stops s) : Follows s := by
  refine ⟨fun c hc => (h c hc).1, fun hopen => ?_⟩
  exact (h '(' hopen).2 (by decide)

theorem Stops.readSteps_eq (h : Stops s) {m : Nat} (hm : 0 < m) (e : Expr) : readSteps m e s = some (e, s) := by
  obtain ⟨m, rfl⟩ : ∃ k, m = k + 1 := ⟨m - 1, by omega⟩
  have hdot : s.head? ≠ some '.' := fun heq => (h '.' heq).2 (by decide)
  have hopen : s.head? ≠ some '[' := fun heq => (h '[' heq).2 (by decide)
  rw [readSteps, if_neg hdot, if_neg hopen]

/-! ## Arguments -/

/-- A text is read as an expression, whatever follows it. Fuel that is enough for all of the text leaves enough for the
rest. -/
def ReadsAs (e : Expr) (text : String) : Prop :=
  ∀ rest, Follows rest → ∀ n, 2 * (text.toList ++ rest).length ≤ n →
    ∃ m, 2 * rest.length < m ∧ readExpr n (text.toList ++ rest) = readSteps m e rest

/-- What may follow an argument. -/
def EndsArg (s : List Char) : Prop :=
  s.head? ∈ [some ',', some ')', some ']']

/-- A text is read as one of several arguments. -/
def ReadsAsArg (a : Arg) (text : String) : Prop :=
  ∀ rest, EndsArg rest → ∀ n, 2 * (text.toList ++ rest).length < n →
    ∃ m, 2 * rest.length < m ∧
      readArgs n (text.toList ++ rest) = (readArgs m rest).map fun found => (a :: found.1, found.2)

theorem EndsArg.stops (h : EndsArg rest) : Stops rest := by
  intro c hc
  have hmem : some c ∈ [some ',', some ')', some ']'] := Option.mem_def.mp hc ▸ h
  simp only [List.mem_cons, Option.some.injEq, List.not_mem_nil, or_false] at hmem
  rcases hmem with rfl | rfl | rfl <;> decide

/-- **Arguments are read to the bracket that closes them.** -/
theorem readArgs_text {args : List Arg} {texts : List String} (h : List.Forall₂ ReadsAsArg args texts) {close : Char}
    (hclose : close ∈ [')', ']']) (rest : List Char) {n : Nat}
    (hn : 2 * ((commaSeparated texts).toList ++ close :: rest).length < n) :
    readArgs n ((commaSeparated texts).toList ++ close :: rest) = some (args, rest) := by
  have hends : EndsArg (close :: rest) := by
    rcases List.mem_pair.mp hclose with rfl | rfl <;> simp [EndsArg]
  have hstop : ∀ {m : Nat}, 0 < m → readArgs m (close :: rest) = some ([], rest) := by
    intro m hm
    obtain ⟨m, rfl⟩ : ∃ k, m = k + 1 := ⟨m - 1, by omega⟩
    rcases List.mem_pair.mp hclose with rfl | rfl <;> simp [readArgs]
  unfold commaSeparated at hn ⊢
  induction h generalizing n with
  | nil => exact hstop (Nat.zero_lt_of_lt hn)
  | @cons a text args texts ha htexts ih =>
    cases htexts with
    | nil =>
      rw [String.intercalate_singleton] at hn ⊢
      obtain ⟨m, hm, hread⟩ := ha (close :: rest) hends n hn
      rw [hread, hstop (Nat.zero_lt_of_lt hm), Option.map_some]
    | @cons b next bs others hb hothers =>
      have htext : (", ".intercalate (text :: next :: others)).toList ++ close :: rest =
          text.toList ++ ',' :: ' ' :: ((", ".intercalate (next :: others)).toList ++ close :: rest) := by
        simp [String.intercalate_cons_cons]
      rw [htext] at hn ⊢
      obtain ⟨m, hm, hread⟩ := ha _ (by simp [EndsArg]) n hn
      obtain ⟨m, rfl⟩ : ∃ k, m = k + 1 := ⟨m - 1, by omega⟩
      have hnext := ih (n := m) (by simp only [List.length_cons] at hm; omega)
      have hcomma : ∀ s : List Char, readArgs (m + 1) (',' :: ' ' :: s) = readArgs m s := by
        intro s
        simp [readArgs]
      rw [hread, hcomma, hnext, Option.map_some]

/-- A text that begins with a word. -/
def Begins (word text : String) : Prop :=
  (word ≠ "" ∧ ∀ c ∈ word.toList, continuesIdentifier c = true) ∧ ∃ tail, text.toList = word.toList ++ tail ∧ Apart tail

theorem Apart.append {tail : List Char} (h : Apart tail) (hs : Apart s) : Apart (tail ++ s) := by
  cases tail with
  | nil => exact hs
  | cons c tail => exact h

/-- A mark behind a word ends it, whatever follows. -/
theorem Begins.append {text mark : String} (h : Begins word text)
    (hmark : (mark.toList.head?.any fun c => !continuesIdentifier c) = true) (more : String) :
    Begins word (text ++ (mark ++ more)) := by
  obtain ⟨hword, tail, htext, htail⟩ := h
  refine ⟨hword, tail ++ (mark ++ more).toList, ?_, htail.append ?_⟩
  · rw [String.toList_append, htext, List.append_assoc]
  · rw [String.toList_append]
    cases hlist : mark.toList with
    | nil => simp [hlist] at hmark
    | cons c cs => exact apart_cons (by simpa [hlist] using hmark)

theorem Begins.wordOf_eq {text : String} (h : Begins word text) (hs : Apart s) : wordOf (text.toList ++ s) = word := by
  obtain ⟨⟨-, hchars⟩, tail, htext, htail⟩ := h
  rw [htext, List.append_assoc]
  exact wordOf_append hchars (htail.append hs)

theorem Begins.exists_cons {text : String} (h : Begins word text) :
    ∃ c tail, text.toList = c :: tail ∧ continuesIdentifier c = true := by
  obtain ⟨⟨hne, hchars⟩, tail, htext, -⟩ := h
  cases hlist : word.toList with
  | nil => exact absurd (String.toList_inj.mp hlist) hne
  | cons c cs => exact ⟨c, cs ++ tail, by rw [htext, hlist, List.cons_append], hchars c (by simp [hlist])⟩

/-- The value of an argument is read like any expression that does not begin with the word of a discard. -/
theorem ReadsAs.arg {e : Expr} {text : String} (h : ReadsAs e text) (hword : Begins word text) (hne : word ≠ "out") :
    ReadsAsArg (.value e) text := by
  intro rest hrest n hn
  obtain ⟨n, rfl⟩ : ∃ k, n = k + 1 := ⟨n - 1, by omega⟩
  obtain ⟨m, hm, hread⟩ := h rest hrest.stops.follows n (by omega)
  rw [hrest.stops.readSteps_eq (Nat.zero_lt_of_lt hm)] at hread
  have hfirst := hword.wordOf_eq hrest.stops.follows.1
  obtain ⟨c, tail, htext, hc⟩ := hword.exists_cons
  rw [htext, List.cons_append] at hn hread hfirst ⊢
  have hmark : c ≠ ')' ∧ c ≠ ']' ∧ c ≠ ',' := by
    refine ⟨?_, ?_, ?_⟩ <;> rintro rfl <;> exact absurd hc (by decide)
  refine ⟨n, by simp only [List.length_cons, List.length_append] at hn; omega, ?_⟩
  rw [readArgs, hfirst]
  simp only [List.head?_cons, Option.some.injEq, hmark, or_self, if_false, hne, hread, Option.bind_eq_bind,
    Option.bind_some]
  cases readArgs n rest <;> rfl

/-- A place for what is thrown away is a word of its own. -/
theorem readsAsArg_discard : ReadsAsArg .discard "out _" := by
  intro rest hrest n hn
  obtain ⟨n, rfl⟩ : ∃ k, n = k + 1 := ⟨n - 1, by omega⟩
  have htext : "out _".toList ++ rest = "out".toList ++ ' ' :: '_' :: rest := by
    simp
  have hword : wordOf ("out".toList ++ ' ' :: '_' :: rest) = "out" :=
    wordOf_append (List.all_eq_true.mp (by decide)) (apart_cons (by decide))
  have hhead : ("out".toList ++ ' ' :: '_' :: rest).head? = some 'o' := by
    simp
  have hdrop : ("out".toList ++ ' ' :: '_' :: rest).drop 5 = rest := by
    simp
  rw [htext] at hn ⊢
  refine ⟨n, by simp only [List.length_append, List.length_cons] at hn; omega, ?_⟩
  rw [readArgs, hword, hhead, hdrop]
  cases readArgs n rest <;> rfl

/-! ## Expressions -/

section Steps

variable {e : Expr} {text name : String}

/-- A word that begins a text is all that tells how the expression begins. -/
theorem readExpr_word (hword : ∀ c ∈ word.toList, continuesIdentifier c = true) (hrest : Apart rest) (n : Nat) :
    readExpr (n + 1) (word.toList ++ rest) =
      if word = "this" then readSteps n (.field (wordOf (rest.drop 1))) (afterWord (rest.drop 1))
      else if word = "null" then readSteps n .null rest
      else if word = "new" then
        (TypeExpr.parse (String.ofList ((rest.drop 1).takeWhile (· != '(')))).toOption.bind fun type =>
          (readArgs n (((rest.drop 1).dropWhile (· != '(')).drop 1)).bind fun found =>
            readSteps n (.new type (valuesOf found.1)) found.2
      else readSteps n (.param word) rest := by
  rw [readExpr, wordOf_append hword hrest, afterWord_append hword hrest]
  rfl

/-- A word of no other use is a parameter. -/
theorem readsAs_param (h : IsWord name) : ReadsAs (.param name) name := by
  intro rest hrest n hn
  have hne : name.toList ≠ [] := fun hnil => h.nonempty (String.toList_inj.mp hnil)
  have hlength : 0 < name.toList.length := List.length_pos_iff.mpr hne
  rw [List.length_append] at hn
  obtain ⟨n, rfl⟩ : ∃ k, n = k + 1 := ⟨n - 1, by omega⟩
  have hfree := h.free
  simp only [reserved, List.mem_cons, List.not_mem_nil, or_false, not_or] at hfree
  refine ⟨n, by omega, ?_⟩
  rw [readExpr_word h.chars hrest.1, if_neg hfree.1, if_neg hfree.2.1, if_neg hfree.2.2.1]

theorem readsAs_null : ReadsAs .null "null" := by
  intro rest hrest n hn
  rw [List.length_append, show "null".toList.length = 4 by decide] at hn
  obtain ⟨n, rfl⟩ : ∃ k, n = k + 1 := ⟨n - 1, by omega⟩
  refine ⟨n, by omega, ?_⟩
  rw [readExpr_word (List.all_eq_true.mp (by decide)) hrest.1, if_neg (by decide), if_pos rfl]

/-- A field or a method of the proxy. -/
theorem readsAs_field (h : IsWord name) : ReadsAs (.field name) ("this." ++ name) := by
  intro rest hrest n hn
  have htext : ("this." ++ name).toList ++ rest = "this".toList ++ '.' :: (name.toList ++ rest) := by
    simp
  rw [htext] at hn ⊢
  rw [List.length_append, List.length_cons, List.length_append] at hn
  obtain ⟨n, rfl⟩ : ∃ k, n = k + 1 := ⟨n - 1, by omega⟩
  refine ⟨n, by omega, ?_⟩
  rw [readExpr_word (List.all_eq_true.mp (by decide)) (apart_cons (by decide)), if_pos rfl, List.drop_one,
    List.tail_cons, wordOf_append h.chars hrest.1, afterWord_append h.chars hrest.1]

/-- A construction: a type up to the first bracket that opens arguments, and the arguments. -/
theorem readsAs_new {t : TypeExpr} (h : t.WellNamed) {args : List Arg} {texts : List String}
    (hargs : List.Forall₂ ReadsAsArg args texts) :
    ReadsAs (.new t.keyworded (valuesOf args)) ("new " ++ t.spelling ++ "(" ++ commaSeparated texts ++ ")") := by
  intro rest hrest n hn
  have hopen : Within (fun c => (c != '(') = true) t.spelling := by
    refine within_spelling_of_wellNamed (fun c hc => bne_iff_ne.mpr ?_) (by decide) h
    rintro rfl
    exact absurd hc (by decide)
  have hstops : ∀ {s : List Char}, ∀ c ∈ ('(' :: s).head?, (c != '(') = false := by
    intro s c hc
    cases hc
    rfl
  have htext : ("new " ++ t.spelling ++ "(" ++ commaSeparated texts ++ ")").toList ++ rest =
      "new".toList ++ ' ' :: (t.spelling.toList ++ '(' :: ((commaSeparated texts).toList ++ ')' :: rest)) := by
    simp
  rw [htext] at hn ⊢
  simp only [List.length_append, List.length_cons] at hn
  obtain ⟨n, rfl⟩ : ∃ k, n = k + 1 := ⟨n - 1, by omega⟩
  refine ⟨n, by omega, ?_⟩
  have hread : readArgs n ((commaSeparated texts).toList ++ ')' :: rest) = some (args, rest) :=
    readArgs_text hargs (by decide) rest (by simp only [List.length_append, List.length_cons]; omega)
  rw [readExpr_word (List.all_eq_true.mp (by decide)) (apart_cons (by decide)), if_neg (by decide),
    if_neg (by decide), if_pos rfl, List.drop_one, List.tail_cons, takeWhile_append_of_head hopen hstops,
    dropWhile_append_of_head hopen hstops, List.drop_one, List.tail_cons, String.ofList_toList,
    TypeExpr.parse_spelling_eq h, hread]
  rfl

/-- A dot and a name without arguments behind it. -/
theorem readSteps_name (h : IsWord name) (hrest : Follows rest) (n : Nat) :
    readSteps (n + 1) e ('.' :: (name.toList ++ rest)) = readSteps n (.property e name) rest := by
  rw [readSteps, List.head?_cons, if_pos rfl, List.drop_one, List.tail_cons, wordOf_append h.chars hrest.1,
    afterWord_append h.chars hrest.1, if_neg hrest.2]

/-- A dot, a name and arguments. -/
theorem readSteps_call (h : IsWord name) (n : Nat) :
    readSteps (n + 1) e ('.' :: (name.toList ++ '(' :: s)) =
      (readArgs n s).bind fun found => readSteps n (.invoke e name found.1) found.2 := by
  have hapart : Apart ('(' :: s) := apart_cons (by decide)
  rw [readSteps, List.head?_cons, if_pos rfl, List.drop_one, List.tail_cons, wordOf_append h.chars hapart,
    afterWord_append h.chars hapart]
  rfl

/-- Keys between brackets. -/
theorem readSteps_slot (n : Nat) :
    readSteps (n + 1) e ('[' :: s) =
      (readArgs n s).bind fun found => readSteps n (.index e (valuesOf found.1)) found.2 := by
  rw [readSteps]
  rfl

theorem ReadsAs.property (h : ReadsAs e text) (hname : IsWord name) :
    ReadsAs (.property e name) (text ++ "." ++ name) := by
  intro rest hrest n hn
  have htext : (text ++ "." ++ name).toList ++ rest = text.toList ++ '.' :: (name.toList ++ rest) := by
    simp
  rw [htext] at hn ⊢
  obtain ⟨m, hm, hread⟩ := h _ (follows_cons (by decide) (by decide)) n hn
  rw [List.length_cons, List.length_append] at hm
  obtain ⟨m, rfl⟩ : ∃ k, m = k + 1 := ⟨m - 1, by omega⟩
  refine ⟨m, by omega, ?_⟩
  rw [hread, readSteps_name hname hrest]

theorem ReadsAs.index (h : ReadsAs e text) {keys : List Arg} {texts : List String}
    (hkeys : List.Forall₂ ReadsAsArg keys texts) :
    ReadsAs (.index e (valuesOf keys)) (text ++ "[" ++ commaSeparated texts ++ "]") := by
  intro rest hrest n hn
  have htext : (text ++ "[" ++ commaSeparated texts ++ "]").toList ++ rest =
      text.toList ++ '[' :: ((commaSeparated texts).toList ++ ']' :: rest) := by
    simp
  rw [htext] at hn ⊢
  obtain ⟨m, hm, hread⟩ := h _ (follows_cons (by decide) (by decide)) n hn
  rw [List.length_cons] at hm
  obtain ⟨m, rfl⟩ : ∃ k, m = k + 1 := ⟨m - 1, by omega⟩
  have hfound : readArgs m ((commaSeparated texts).toList ++ ']' :: rest) = some (keys, rest) :=
    readArgs_text hkeys (by decide) rest (by omega)
  rw [List.length_append, List.length_cons] at hm
  refine ⟨m, by omega, ?_⟩
  rw [hread, readSteps_slot, hfound, Option.bind_some]

theorem ReadsAs.invoke (h : ReadsAs e text) (hname : IsWord name) {args : List Arg} {texts : List String}
    (hargs : List.Forall₂ ReadsAsArg args texts) :
    ReadsAs (.invoke e name args) (text ++ "." ++ name ++ "(" ++ commaSeparated texts ++ ")") := by
  intro rest hrest n hn
  have htext : (text ++ "." ++ name ++ "(" ++ commaSeparated texts ++ ")").toList ++ rest =
      text.toList ++ '.' :: (name.toList ++ '(' :: ((commaSeparated texts).toList ++ ')' :: rest)) := by
    simp
  rw [htext] at hn ⊢
  obtain ⟨m, hm, hread⟩ := h _ (follows_cons (by decide) (by decide)) n hn
  rw [List.length_cons, List.length_append, List.length_cons] at hm
  obtain ⟨m, rfl⟩ : ∃ k, m = k + 1 := ⟨m - 1, by omega⟩
  have hfound : readArgs m ((commaSeparated texts).toList ++ ')' :: rest) = some (args, rest) :=
    readArgs_text hargs (by decide) rest (by omega)
  rw [List.length_append, List.length_cons] at hm
  refine ⟨m, by omega, ?_⟩
  rw [hread, readSteps_call hname, hfound, Option.bind_some]

end Steps

/-! ## The text of an expression -/

theorem valuesOf_map (es : List Expr) : valuesOf (es.map .value) = es := by
  induction es with
  | nil => rfl
  | cons e es ih => rw [List.map_cons, valuesOf, ih]

theorem begins_self {word : String} (h : word ≠ "" ∧ ∀ c ∈ word.toList, continuesIdentifier c = true) :
    Begins word word :=
  ⟨h, [], (List.append_nil _).symm, fun _ hc => by cases hc⟩

/-- **The text of a plain expression begins with a word** that neither returns nor throws away. -/
theorem begins_exprText : ∀ {e : Expr}, AllPlain e.atoms →
    ∃ word, Begins word (exprText e) ∧ word ≠ "out" ∧ word ≠ "return"
  | .null, _ => by
    rw [exprText]
    exact ⟨"null", begins_self ⟨by decide, List.all_eq_true.mp (by decide)⟩, by decide⟩
  | .field name, _ | .methodRef name, _ => by
    have hthis : "this." = "this" ++ "." := by decide
    rw [exprText, hthis, String.append_assoc]
    exact ⟨"this", (begins_self ⟨by decide, List.all_eq_true.mp (by decide)⟩).append (by decide) name, by decide⟩
  | .param name, h | .localVar name, h => by
    simp only [Expr.atoms, allPlain_name] at h
    rw [exprText]
    have hfree := h.1.free
    simp only [reserved, List.mem_cons, List.not_mem_nil, or_false, not_or] at hfree
    exact ⟨name, begins_self ⟨h.1.nonempty, h.1.chars⟩, hfree.2.2.2⟩
  | .property target name, h => by
    rw [Expr.atoms, allPlain_append] at h
    obtain ⟨word, hword, hne⟩ := begins_exprText h.1
    rw [exprText, String.append_assoc]
    exact ⟨word, hword.append (by decide) _, hne⟩
  | .index target keys, h => by
    rw [Expr.atoms, allPlain_append] at h
    obtain ⟨word, hword, hne⟩ := begins_exprText h.1
    rw [exprText, String.append_assoc, String.append_assoc]
    exact ⟨word, hword.append (by decide) _, hne⟩
  | .invoke target method args, h => by
    rw [Expr.atoms, allPlain_append] at h
    obtain ⟨word, hword, hne⟩ := begins_exprText h.1
    simp only [exprText, String.append_assoc]
    exact ⟨word, hword.append (by decide) _, hne⟩
  | .new type args, _ => by
    have hnew : "new " = "new" ++ " " := by decide
    simp only [exprText, hnew, String.append_assoc]
    exact ⟨"new", (begins_self ⟨by decide, List.all_eq_true.mp (by decide)⟩).append (by decide) _, by decide⟩
  | .path text, h => by
    rw [Expr.atoms] at h
    exact absurd h allPlain_path

mutual

/-- **A plain expression is read back** in its canonical form. -/
theorem readsAs_exprText : ∀ {e : Expr}, AllPlain e.atoms → ReadsAs e.canonical (exprText e)
  | .null, _ => by
    rw [Expr.canonical, exprText]
    exact readsAs_null
  | .field name, h | .methodRef name, h => by
    simp only [Expr.atoms, allPlain_name] at h
    rw [Expr.canonical, exprText]
    exact readsAs_field h.1
  | .param name, h | .localVar name, h => by
    simp only [Expr.atoms, allPlain_name] at h
    rw [Expr.canonical, exprText]
    exact readsAs_param h.1
  | .property target name, h => by
    simp only [Expr.atoms, allPlain_append, allPlain_name] at h
    rw [Expr.canonical, exprText]
    exact (readsAs_exprText h.1).property h.2.1
  | .index target keys, h => by
    rw [Expr.atoms, allPlain_append] at h
    have hkeys := (readsAs_exprText h.1).index (readsAs_exprTexts h.2)
    rw [valuesOf_map] at hkeys
    rwa [Expr.canonical, exprText]
  | .invoke target method args, h => by
    simp only [Expr.atoms, allPlain_append, allPlain_name] at h
    rw [Expr.canonical, exprText]
    exact (readsAs_exprText h.1).invoke h.2.1 (readsAs_argTexts h.2.2)
  | .new type args, h => by
    simp only [Expr.atoms, allPlain_type] at h
    have hargs := readsAs_new h.1.1 (readsAs_exprTexts h.2)
    rw [valuesOf_map] at hargs
    rwa [Expr.canonical, exprText]
  | .path text, h => by
    rw [Expr.atoms] at h
    exact absurd h allPlain_path

theorem readsAs_exprTexts : ∀ {es : List Expr}, AllPlain (exprsAtoms es) →
    List.Forall₂ ReadsAsArg ((canonicalExprs es).map .value) (exprTexts es)
  | [], _ => by
    rw [canonicalExprs, exprTexts]
    exact .nil
  | e :: es, h => by
    rw [exprsAtoms, allPlain_append] at h
    obtain ⟨word, hword, hne, -⟩ := begins_exprText h.1
    rw [canonicalExprs, exprTexts]
    exact .cons ((readsAs_exprText h.1).arg hword hne) (readsAs_exprTexts h.2)

theorem readsAs_argText : ∀ {a : Arg}, AllPlain a.atoms → ReadsAsArg a.canonical (argText a)
  | .value e, h => by
    rw [Arg.atoms] at h
    obtain ⟨word, hword, hne, -⟩ := begins_exprText h
    rw [Arg.canonical, argText]
    exact (readsAs_exprText h).arg hword hne
  | .discard, _ => by
    rw [Arg.canonical, argText]
    exact readsAsArg_discard

theorem readsAs_argTexts : ∀ {args : List Arg}, AllPlain (argsAtoms args) →
    List.Forall₂ ReadsAsArg (canonicalArgs args) (argTexts args)
  | [], _ => by
    rw [canonicalArgs, argTexts]
    exact .nil
  | a :: args, h => by
    rw [argsAtoms, allPlain_append] at h
    rw [canonicalArgs, argTexts]
    exact .cons (readsAs_argText h.1) (readsAs_argTexts h.2)

end

end BoundaryProxy.Source
