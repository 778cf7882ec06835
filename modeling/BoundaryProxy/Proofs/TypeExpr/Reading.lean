import BoundaryProxy.Proofs.TypeExpr.Grammar

/-!
# `Proofs.TypeExpr.Reading` — the readers follow the grammar

* **Soundness.** What a reader takes off a text are the tokens of what it returns (`readType_sound`).
* **Completeness.** Tokens of a type that stand where the text may stop are read as that type
  (`readType_complete`). Every nesting takes a token, so a bound of as many steps as there are tokens is never used
  up.

Together: `parse` reads a text as a type exactly when the text is a layout of tokens of the type
(`parse_eq_ok_iff`).
-/

namespace BoundaryProxy.TypeExpr

open Text

variable {α β : Type} {fuel : Nat} {s rest : List Char}

/-! ## Steps of a reader -/

theorem ok_bind (a : α) (f : α → Except Stop β) : (.ok a >>= f) = f a :=
  rfl

theorem bind_eq_ok {x : Except Stop α} {f : α → Except Stop β} {b : β} (h : (x >>= f) = .ok b) :
    ∃ a, x = .ok a ∧ f a = .ok b := by
  cases x with
  | error e => cases h
  | ok a => exact ⟨a, rfl, h⟩

/-- Read the arguments of a definition, if there are any. -/
def readApplied (fuel : Nat) (s : List Char) : Except Stop (List TypeExpr × List Char) :=
  match skipBlanks s with
  | '<' :: rest => readArgs fuel rest
  | rest => .ok ([], rest)

/-- What a reader does with arguments: it reads them behind an angle bracket, and there are none otherwise. -/
theorem readApplied_cases (fuel : Nat) (s : List Char) :
    (∃ s', skipBlanks s = '<' :: s' ∧ readApplied fuel s = readArgs fuel s') ∨
    ((∀ s', skipBlanks s ≠ '<' :: s') ∧ readApplied fuel s = .ok ([], skipBlanks s)) := by
  unfold readApplied
  split
  · rename_i s' hs
    exact .inl ⟨s', hs, rfl⟩
  · rename_i hne
    exact .inr ⟨hne, rfl⟩

theorem readType_succ (fuel : Nat) (s : List Char) : readType (fuel + 1) s = do
    let (name, rest) ← readName s
    let (args, rest) ← readApplied fuel rest
    let (rank, rest) ← readRank rest.length 0 rest
    return (⟨name, args, rank⟩, rest) := by
  refine bind_congr (x := readName s) fun (name, rest) => ?_
  dsimp only
  rcases readApplied_cases fuel rest with ⟨s', hopen, hrun⟩ | ⟨hne, hrun⟩
  · rw [hrun, hopen]
    rfl
  · rw [hrun]
    split
    · rename_i hopen
      exact absurd hopen (hne _)
    · rfl

/-! ## Soundness -/

theorem readName_sound {name : String} (h : readName s = .ok (name, rest)) :
    IsTypeName name ∧ Spaced [.name name] s rest := by
  rw [readName] at h
  split at h
  · rename_i hrun
    cases h
    have hchars : ∀ c ∈ (skipBlanks s).takeWhile isNameChar, isNameChar c = true := fun c hc =>
      List.mem_takeWhile_imp hc
    refine ⟨isTypeName_iff.mpr ?_, .of_skip ?_ (.refl _)⟩
    · rw [String.toList_ofList]
      exact ⟨hrun, hchars⟩
    · rw [Token.chars, String.toList_ofList, List.takeWhile_append_dropWhile]
  · cases h

theorem readRank_sound {rank k : Fin 256} (h : readRank fuel rank s = .ok (k, rest)) :
    ∃ n, k.val = rank.val + n ∧ Spaced (pairs n) s rest := by
  induction fuel generalizing rank s with
  | zero =>
    cases h
    exact ⟨0, rfl, .of_skip_nil⟩
  | succ fuel ih =>
    unfold readRank at h
    split at h
    · rename_i s₁ hfuel hopen
      obtain rfl := Nat.succ.inj hfuel
      split at h
      · rename_i s₂ hclose
        split at h
        · obtain ⟨n, hk, hpairs⟩ := ih h
          refine ⟨n + 1, by simp only [hk]; omega, ?_⟩
          exact .mark_of_skip hopen (.mark_of_skip hclose hpairs)
        · cases h
      · cases h
    · cases h
      exact ⟨0, rfl, .of_skip_nil⟩

mutual

/-- **Soundness.** A type that was read is what the tokens taken off the text spell. -/
theorem readType_sound : ∀ {fuel : Nat} {s rest : List Char} {t : TypeExpr},
    readType fuel s = .ok (t, rest) → ∃ ts, Spells ts t ∧ Spaced ts s rest
  | 0, _, _, _, h => by cases h
  | fuel + 1, s, rest, t, h => by
    rw [readType_succ] at h
    obtain ⟨⟨name, s₁⟩, hname, h⟩ := bind_eq_ok h
    obtain ⟨⟨args, s₂⟩, hargs, h⟩ := bind_eq_ok h
    obtain ⟨⟨rank, s₃⟩, hrank, h⟩ := bind_eq_ok h
    cases h
    obtain ⟨hproper, hfirst⟩ := readName_sound hname
    obtain ⟨n, hn, hlast⟩ := readRank_sound hrank
    obtain rfl : rank.val = n := by simpa using hn
    rcases readApplied_cases fuel s₁ with ⟨s', hopen, hrun⟩ | ⟨-, hrun⟩
    · -- arguments: their tokens stand between those of the name and those of the rank
      rw [hrun] at hargs
      obtain ⟨a, as, ts, us, rfl, ha, has, hmid⟩ := readArgs_sound hargs
      have hspaced := hfirst.append ((Spaced.mark_of_skip hopen hmid).append hlast)
      exact ⟨_, .intro hproper (.some ha has), hspaced⟩
    · -- none: only blanks were skipped between the two
      rw [hrun] at hargs
      cases hargs
      have hspaced := hfirst.append (Spaced.of_skip_nil.append hlast)
      exact ⟨_, .intro hproper .none, hspaced⟩

/-- Arguments that were read are what the tokens up to the closing bracket spell, the first of them and the rest. -/
theorem readArgs_sound : ∀ {fuel : Nat} {s rest : List Char} {args : List TypeExpr},
    readArgs fuel s = .ok (args, rest) → ∃ a as ts us, args = a :: as ∧ Spells ts a ∧ SpellsRest us as ∧
      Spaced (ts ++ (us ++ [.mark '>'])) s rest
  | 0, _, _, _, h => by cases h
  | fuel + 1, s, rest, args, h => by
    rw [readArgs] at h
    obtain ⟨⟨a, s₁⟩, ha, h⟩ := bind_eq_ok h
    obtain ⟨ts, hts, hfirst⟩ := readType_sound ha
    dsimp only at h
    split at h
    · rename_i s₂ hcomma
      obtain ⟨⟨as, s₃⟩, has, h⟩ := bind_eq_ok h
      cases h
      obtain ⟨b, bs, vs, us, rfl, hb, hbs, hlast⟩ := readArgs_sound has
      have hspaced := hfirst.append (Spaced.mark_of_skip hcomma hlast)
      refine ⟨a, b :: bs, ts, .mark ',' :: (vs ++ us), rfl, hts, .cons hb hbs, ?_⟩
      rwa [List.cons_append, List.append_assoc]
    · rename_i s₂ hclose
      cases h
      have hspaced := hfirst.append (Spaced.mark_of_skip hclose (.refl rest))
      exact ⟨a, [], ts, [], rfl, hts, .nil, hspaced⟩
    · cases h

end

/-! ## Completeness -/

/-- Where a type may stop: at the end, or at the mark after an argument. -/
def Stops (s : List Char) : Prop :=
  ∀ c ∈ s.head?, c ∈ [',', '>']

theorem skipBlanks_of_head {ms : List Char} (hms : ms ⊆ marks) (h : ∀ c ∈ s.head?, c ∈ ms) : skipBlanks s = s := by
  cases s with
  | nil => rfl
  | cons c s => exact skipBlanks_cons (isBlank_of_mem_marks c (hms (h c rfl))) s

theorem stops_cons {c : Char} (h : c ∈ [',', '>']) : Stops (c :: s) :=
  fun _ hc => Option.some.inj hc ▸ h

theorem Stops.skipBlanks (h : Stops s) : skipBlanks s = s :=
  skipBlanks_of_head (by simp [marks]) h

/-- What comes first after the blanks: the first token, if it is a mark, or what is left. -/
theorem head_mem {ms : List Char} {ts : List Token} (hms : ms ⊆ marks)
    (hts : ∀ tok ∈ ts.head?, ∃ c ∈ ms, tok = .mark c) (hrest : ∀ c ∈ rest.head?, c ∈ ms) (h : Spaced ts s rest) :
    ∀ c ∈ (skipBlanks s).head?, c ∈ ms := by
  cases ts with
  | nil =>
    cases h with
    | nil hw => rwa [skipBlanks_append hw, skipBlanks_of_head hms hrest]
  | cons tok ts =>
    obtain ⟨m, hm, rfl⟩ := hts tok rfl
    obtain ⟨s', hskip, -⟩ := h.skip_mark (hms hm)
    rw [hskip]
    intro c hc
    obtain rfl : m = c := Option.some.inj hc
    exact hm

/-- A run of name characters ends where blanks and then a mark follow, or nothing. -/
theorem isNameChar_head (h : ∀ c ∈ (skipBlanks s).head?, c ∈ marks) : ∀ c ∈ s.head?, isNameChar c = false := by
  intro c hc
  cases hblank : isBlank c with
  | true =>
    by_contra hname
    rw [isBlank_of_isNameChar (Bool.not_eq_false _ ▸ hname)] at hblank
    cases hblank
  | false =>
    obtain ⟨s', rfl⟩ : ∃ s', s = c :: s' := List.head?_eq_some_iff.mp hc
    rw [skipBlanks_cons hblank] at h
    exact isNameChar_of_mem_marks c (h c rfl)

/-- A run of name characters before something else is taken off as a whole. -/
theorem span_name {run : List Char} (hrun : ∀ c ∈ run, isNameChar c = true)
    (hrest : ∀ c ∈ rest.head?, isNameChar c = false) :
    (run ++ rest).takeWhile isNameChar = run ∧ (run ++ rest).dropWhile isNameChar = rest := by
  rw [List.takeWhile_append_of_pos hrun, List.dropWhile_append_of_pos hrun]
  cases rest with
  | nil => exact ⟨List.append_nil run, rfl⟩
  | cons c rest => simp [hrest c rfl]

theorem readName_complete {name : String} {ts : List Token} (hname : IsTypeName name)
    (hts : ∀ tok ∈ ts.head?, ∃ c ∈ marks, tok = .mark c) (hrest : Stops rest)
    (h : Spaced (.name name :: ts) s rest) : ∃ s', readName s = .ok (name, s') ∧ Spaced ts s' rest := by
  obtain ⟨hrun, hchars⟩ := isTypeName_iff.mp hname
  have hproper : (Token.name name).Proper := hname
  cases h with
  | @cons ws _ _ s' _ hw hs =>
    have hskip : skipBlanks (ws ++ ((Token.name name).chars ++ s')) = name.toList ++ s' := by
      rw [skipBlanks_append hw, hproper.skipBlanks]
      rfl
    have hmarks : ∀ c ∈ rest.head?, c ∈ marks := fun c hc =>
      (show [',', '>'] ⊆ marks by simp [marks]) (hrest c hc)
    obtain ⟨htake, hdrop⟩ := span_name hchars (isNameChar_head (head_mem (List.Subset.refl _) hts hmarks hs))
    refine ⟨s', ?_, hs⟩
    rw [readName, hskip, htake, hdrop, if_pos hrun, String.ofList_toList]

theorem readRank_complete {n : Nat} {rank : Fin 256} (hfuel : n ≤ fuel) (hrank : rank.val + n < 256)
    (hrest : Stops rest) (h : Spaced (pairs n) s rest) :
    readRank fuel rank s = .ok (⟨rank.val + n, hrank⟩, rest) := by
  induction n generalizing fuel rank s with
  | zero =>
    cases h with
    | nil hw =>
      unfold readRank
      rw [skipBlanks_append hw, hrest.skipBlanks]
      split
      · exact absurd (hrest '[' rfl) (by decide)
      · rfl
  | succ n ih =>
    obtain ⟨fuel, rfl⟩ : ∃ m, fuel = m + 1 := ⟨fuel - 1, by omega⟩
    obtain ⟨s₁, hopen, h⟩ := h.skip_mark (by simp [marks])
    obtain ⟨s₂, hclose, h⟩ := h.skip_mark (by simp [marks])
    have hnext : rank.val + 1 < 256 := by omega
    let next : Fin 256 := ⟨rank.val + 1, hnext⟩
    have hsum : next.val + n = rank.val + (n + 1) := by
      show rank.val + 1 + n = _
      omega
    have hrun := ih (Nat.le_of_succ_le_succ hfuel) (hsum ▸ hrank) h
    simp only [hsum] at hrun
    unfold readRank
    simp only [hopen, hclose, dif_pos hnext]
    exact hrun

/-- A type is read when its parts are. -/
theorem readType_of_parts {name : String} {args : List TypeExpr} {rank : Fin 256} {s₁ s₂ : List Char}
    (hname : readName s = .ok (name, s₁)) (hargs : readApplied fuel s₁ = .ok (args, s₂)) (hrest : Stops rest)
    (hrank : Spaced (pairs rank.val) s₂ rest) : readType (fuel + 1) s = .ok (⟨name, args, rank⟩, rest) := by
  have hlength : (pairs rank.val).length ≤ s₂.length := hrank.length_le (proper_pairs _)
  rw [length_pairs] at hlength
  have hzero : (0 : Fin 256).val + rank.val = rank.val := Nat.zero_add _
  have hlt : (0 : Fin 256).val + rank.val < 256 := by
    rw [hzero]
    exact rank.isLt
  have hrun : readRank s₂.length 0 s₂ = .ok (⟨_, hlt⟩, rest) := readRank_complete (by omega) hlt hrest hrank
  simp only [hzero] at hrun
  simp only [readType_succ, hname, hargs, hrun, ok_bind]
  rfl

/-- Nothing that may follow a name without arguments begins any. -/
theorem readApplied_none {n : Nat} (hrest : Stops rest) (h : Spaced (pairs n) s rest) :
    readApplied fuel s = .ok ([], skipBlanks s) := by
  have hpairs : ∀ tok ∈ (pairs n).head?, ∃ c ∈ ['[', ',', '>'], tok = .mark c := by
    cases n with
    | zero => exact fun _ h => by cases h
    | succ n => exact fun _ h => ⟨'[', List.mem_cons_self, (Option.some.inj h).symm⟩
  have hstop : ∀ c ∈ rest.head?, c ∈ ['[', ',', '>'] := fun c hc => List.mem_cons_of_mem _ (hrest c hc)
  have hhead := head_mem (by simp [marks]) hpairs hstop h
  rcases readApplied_cases fuel s with ⟨s', hopen, -⟩ | ⟨-, hrun⟩
  · rw [hopen] at hhead
    exact absurd (hhead '<' rfl) (by decide)
  · exact hrun

mutual

/-- **Completeness.** Tokens that spell a type and stand where it may stop are read as the type. -/
theorem readType_complete : ∀ {fuel : Nat} {s rest : List Char} {ts : List Token} {t : TypeExpr}, Spells ts t →
    Spaced ts s rest → Stops rest → ts.length ≤ fuel → readType fuel s = .ok (t, rest)
  | 0, _, _, _, _, h, _, _, hfuel => absurd h.length_pos (by omega)
  | fuel + 1, s, rest, _, _, .intro hname (.none), hs, hrest, _ => by
    obtain ⟨s₁, hread, hs⟩ := readName_complete hname (SpellsArgs.none.head_mark _) hrest hs
    exact readType_of_parts hread (readApplied_none hrest hs) hrest (hs.skip (proper_pairs _) hrest.skipBlanks)
  | fuel + 1, s, rest, _, _, @Spells.intro _ _ _ rank hname (@SpellsArgs.some a as ts us ha has), hs, hrest,
      hfuel => by
    obtain ⟨s₁, hread, hs⟩ := readName_complete hname ((SpellsArgs.some ha has).head_mark _) hrest hs
    obtain ⟨s₂, hopen, hs⟩ := hs.skip_mark (by simp [marks])
    have hs : Spaced ((ts ++ us) ++ .mark '>' :: pairs rank.val) s₂ rest := by simpa using hs
    obtain ⟨s₃, hmid, hlast⟩ := hs.split_mark (by simp [marks]) (proper_pairs _) hrest.skipBlanks
    refine readType_of_parts hread ?_ hrest hlast
    rcases readApplied_cases fuel s₁ with ⟨s', hopen', hrun⟩ | ⟨hne, -⟩
    · rw [hopen] at hopen'
      cases hopen'
      -- the name and the bracket are two tokens, and only one step is spent on them
      have hlength : ts.length + us.length < fuel := by
        simp only [List.length_cons, List.length_append] at hfuel
        omega
      rw [hrun]
      exact readArgs_complete ha has hmid hlength
    · exact absurd hopen (hne s₂)

/-- Types with commas between them, up to the closing bracket, are read as the arguments. -/
theorem readArgs_complete : ∀ {fuel : Nat} {s rest : List Char} {ts us : List Token} {a : TypeExpr}
    {as : List TypeExpr}, Spells ts a → SpellsRest us as → Spaced (ts ++ us) s ('>' :: rest) →
    ts.length + us.length < fuel → readArgs fuel s = .ok (a :: as, rest)
  | 0, _, _, _, _, _, _, _, _, _, hfuel => absurd hfuel (by omega)
  | fuel + 1, s, rest, ts, _, a, _, ha, .nil, hs, hfuel => by
    rw [List.append_nil] at hs
    have hread : readType fuel s = .ok (a, '>' :: rest) :=
      readType_complete ha hs (stops_cons (by decide)) (by omega)
    have hskip : skipBlanks ('>' :: rest) = '>' :: rest := skipBlanks_cons (by decide) rest
    simp only [readArgs, hread, ok_bind, hskip]
    rfl
  | fuel + 1, s, rest, ts, _, a, _, ha, @SpellsRest.cons b bs us vs hb hbs, hs, hfuel => by
    have hproper : ∀ tok ∈ us ++ vs, tok.Proper := List.forall_mem_append.mpr ⟨hb.proper, hbs.proper⟩
    obtain ⟨s', hfirst, hs⟩ := hs.split_mark (by simp [marks]) hproper (skipBlanks_cons (by decide) rest)
    simp only [List.length_cons, List.length_append] at hfuel
    have hread : readType fuel s = .ok (a, ',' :: s') :=
      readType_complete ha hfirst (stops_cons (by decide)) (by omega)
    have hmore : readArgs fuel s' = .ok (b :: bs, rest) := readArgs_complete hb hbs hs (by omega)
    have hskip : skipBlanks (',' :: s') = ',' :: s' := skipBlanks_cons (by decide) s'
    simp only [readArgs, hread, ok_bind, hskip, hmore]
    rfl

end

/-! ## Whole texts -/

theorem readWhole_eq_ok_iff {t : TypeExpr} :
    readWhole s = .ok t ↔ ∃ rest, readType (2 * s.length + 2) s = .ok (t, rest) ∧ skipBlanks rest = [] := by
  rw [readWhole]
  constructor
  · intro h
    obtain ⟨⟨u, rest⟩, hread, h⟩ := bind_eq_ok h
    dsimp only at h
    split at h
    · rename_i hnil
      cases h
      exact ⟨rest, hread, hnil⟩
    · cases h
  · rintro ⟨rest, hread, hnil⟩
    simp only [hread, ok_bind, hnil]
    rfl

/-- **A text is read as a type exactly when it is a layout of tokens of the type.** -/
theorem parse_eq_ok_iff {s : String} {t : TypeExpr} :
    parse s = .ok t ↔ ∃ ts, Spells ts t ∧ Spaced ts s.toList [] := by
  have hwhole : parse s = .ok t ↔ readWhole s.toList = .ok t := by
    unfold parse
    split <;> simp [*]
  rw [hwhole, readWhole_eq_ok_iff]
  constructor
  · rintro ⟨rest, hread, hnil⟩
    obtain ⟨ts, hts, hs⟩ := readType_sound hread
    have hend : Spaced [] rest [] := hnil ▸ Spaced.of_skip_nil
    exact ⟨ts, hts, List.append_nil ts ▸ hs.append hend⟩
  · rintro ⟨ts, hts, hs⟩
    have hlength := hs.length_le hts.proper
    exact ⟨[], readType_complete hts hs (fun _ hc => by cases hc) (by omega), rfl⟩

end BoundaryProxy.TypeExpr
