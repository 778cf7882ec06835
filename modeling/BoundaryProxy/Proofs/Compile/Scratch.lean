import BoundaryProxy.Proofs.Compile.Command
import BoundaryProxy.Proofs.Host.Disk

/-!
# `Proofs.Compile.Scratch` — what an external compiler leaves behind

A backend makes a scratch directory, writes the source into it, runs a program there and removes the directory. As long
as the program keeps to the directory (`Command.Confined`), the disk is as it was but for one place: where the path of
the source leads out of the directory, the source stays behind (`Command.left_behind`).

The path is made of the name of the class. A name without a slash is one name in a path, so it cannot lead out
(`Command.not_leadsOut`), and then nothing stays behind.
-/

namespace BoundaryProxy

namespace Host.Disk

variable {d d₁ d₂ : Disk} {p q here scratch : Place} {path : String} {content : List UInt8} {ns : List String}
  {places more : Place → Prop}

/-! ## Disks that agree -/

/-- Two disks hold the same at all places but some. -/
def SameBut (places : Place → Prop) (d d' : Disk) : Prop :=
  ∀ p, ¬ places p → d'.entry? p = d.entry? p

theorem SameBut.refl (places : Place → Prop) (d : Disk) : d.SameBut places d :=
  fun _ _ => rfl

theorem SameBut.trans (h : d.SameBut places d₁) (h' : d₁.SameBut places d₂) : d.SameBut places d₂ :=
  fun p hp => (h' p hp).trans (h p hp)

theorem SameBut.mono (h : d.SameBut places d₁) (hmore : ∀ p, places p → more p) : d.SameBut more d₁ :=
  fun p hp => h p (mt (hmore p) hp)

theorem sameBut_put (hp : p ≠ []) (e : Entry) : d.SameBut (· = p) (d.put p e) :=
  fun q hq => (at_put hp q).trans (if_neg hq)

/-- Writing changes what the path leads to, if anything. -/
theorem sameBut_write (h : d.write here path content = .ok d₁) :
    d.SameBut (fun p => d.place here path = .ok p) d₁ := by
  intro q hq
  cases hdevice : d.device? here path with
  | none =>
    obtain ⟨-, p, hp, -, hwrote⟩ := wrote_of_write_kept hdevice h
    exact hwrote.kept q fun heq => hq (heq ▸ hp)
  | some device =>
    cases hplace : d.writePlace here path with
    | error fault =>
      rw [write, hplace] at h
      cases h
    | ok p =>
      obtain ⟨-, hp, -⟩ := of_writePlace hplace
      have hat : Device.at? p = some device := by
        unfold device? at hdevice
        rwa [hp] at hdevice
      rw [write, hplace] at h
      -- a device that takes the bytes leaves the disk alone
      have hsame : d₁ = d := by
        change d.writeAt p content = .ok d₁ at h
        unfold writeAt at h
        rw [hat] at h
        cases device with
        | full =>
          dsimp only at h
          split_ifs at h
          exact (Except.ok.inj h).symm
        | terminal => cases h
        | null | stream => exact (Except.ok.inj h).symm
      rw [hsame]

/-! ## A directory that comes and goes -/

/-- Whether a directory can be made at a place, and nothing stands there. -/
structure Vacant (d : Disk) (scratch : Place) : Prop where
  inside : scratch ≠ []
  named : ∀ name ∈ scratch, OneName name
  around : ∀ q ∈ ancestors scratch, (d.entry? q).isSome
  empty : ∀ p, scratch <+: p → d.entry? p = none

theorem ensureDirectory_of_isSome (h : (d.entry? p).isSome) : d.ensureDirectory p = d :=
  if_pos h

theorem foldl_ensureDirectory {ps : List Place} (h : ∀ p ∈ ps, (d.entry? p).isSome) :
    ps.foldl ensureDirectory d = d := by
  induction ps with
  | nil => rfl
  | cons p ps ih =>
    rw [List.foldl_cons, ensureDirectory_of_isSome (h p List.mem_cons_self)]
    exact ih fun q hq => h q (List.mem_cons_of_mem p hq)

/-- Where the directories around are there, one directory is made. -/
theorem Vacant.withDirectory_eq (h : d.Vacant scratch) : d.withDirectory scratch = d.put scratch .directory := by
  have hnone : (d.entry? scratch).isSome = false := by rw [h.empty scratch List.prefix_rfl, Option.isSome_none]
  unfold withDirectory
  rw [List.foldl_append, foldl_ensureDirectory h.around, List.foldl_cons, List.foldl_nil]
  unfold ensureDirectory
  rw [hnone, if_neg Bool.false_ne_true]

theorem Vacant.sameBut_withDirectory (h : d.Vacant scratch) : d.SameBut (scratch <+: ·) (d.withDirectory scratch) := by
  rw [h.withDirectory_eq]
  exact (sameBut_put h.inside .directory).mono fun p hp => hp ▸ List.prefix_rfl

/-- Removing a directory removes what is below it and nothing else. -/
theorem entry?_removeAll (hscratch : scratch ≠ []) (p : Place) :
    entry? (d.removeAll scratch) p = if scratch <+: p then none else d.entry? p := by
  cases p with
  | nil =>
    rw [if_neg (mt List.prefix_nil.mp hscratch)]
    rfl
  | cons first rest =>
    show (d.entries.filter fun entry => !scratch.isPrefixOf entry.1).lookup (first :: rest) =
      if _ then none else d.entries.lookup (first :: rest)
    induction d.entries with
    | nil => split_ifs <;> rfl
    | cons entry entries ih =>
      obtain ⟨q, e⟩ := entry
      by_cases hbelow : scratch <+: q
      · -- the entry goes, and it was looked up only if the place is below as well
        rw [List.filter_cons_of_neg (by simpa using List.isPrefixOf_iff_prefix.mpr hbelow), ih]
        split_ifs with hp
        · rfl
        · have hne : first :: rest ≠ q := fun heq => hp (heq.symm ▸ hbelow)
          rw [List.lookup_cons, beq_false_of_ne hne]
      · have hkept : scratch.isPrefixOf q = false := Bool.eq_false_iff.mpr (mt List.isPrefixOf_iff_prefix.mp hbelow)
        rw [List.filter_cons_of_pos (by simpa using hkept), List.lookup_cons, List.lookup_cons]
        cases hq : (first :: rest == q) with
        | true => rw [if_neg (beq_iff_eq.mp hq ▸ hbelow)]
        | false => exact ih

/-- What agrees with a disk outside a vacant place agrees with it everywhere once the place is vacant again. -/
theorem Vacant.entry?_removeAll_eq (h : d.Vacant scratch)
    (hsame : d.SameBut (fun p => scratch <+: p ∨ places p) d₁) (hp : ¬ (places p ∧ ¬ scratch <+: p)) :
    entry? (d₁.removeAll scratch) p = d.entry? p := by
  rw [entry?_removeAll h.inside]
  split_ifs with hbelow
  · exact (h.empty p hbelow).symm
  · exact hsame p fun hor => hp ⟨hor.resolve_left hbelow, hbelow⟩

/-! ## Paths of files in it -/

/-- Names of their own are followed to the place below. -/
theorem follow_of_oneName (hnamed : ∀ name ∈ ns, OneName name) (h : d.follow p ns = .ok q) : q = p ++ ns := by
  induction ns generalizing p with
  | nil => exact (Except.ok.inj h).symm.trans (List.append_nil p).symm
  | cons name ns ih =>
    obtain ⟨-, -, -, hrest⟩ := follow_cons_eq_ok_iff.mp h
    rw [nextPlace_of_not_dots (hnamed name List.mem_cons_self).noDots] at hrest
    rw [ih (fun n hn => hnamed n (List.mem_cons_of_mem name hn)) hrest, List.append_assoc, List.singleton_append]

end Host.Disk

namespace Compile.Command

open Host Host.Disk Text

variable {c : Command} {launch : Launcher} {scratch p : Place} {request : Request} {disk d : Disk}

/-- An absolute path has the names of its place in it. -/
theorem names_absolutePath (hne : scratch ≠ []) (hnamed : ∀ name ∈ scratch, OneName name) :
    names (absolutePath scratch) = scratch := by
  let words := scratch.map String.toList
  have hlist : (absolutePath scratch).toList = [] ++ '/' :: (['/'] : List Char).intercalate words := by
    unfold absolutePath
    rw [String.toList_append, String.toList_intercalate]
    rfl
  have hsplit : ((['/'] : List Char).intercalate words).splitOn '/' = words := by
    refine List.splitOn_intercalate '/' (fun word hword => ?_) (by simpa [words] using hne)
    obtain ⟨name, hname, rfl⟩ := List.mem_map.mp hword
    exact (hnamed name hname).noSlash
  have hfull : words.filter (!·.isEmpty) = words := by
    refine List.filter_eq_self.mpr fun word hword => ?_
    obtain ⟨name, hname, rfl⟩ := List.mem_map.mp hword
    simpa using (hnamed name hname).notEmpty
  rw [names_of_slash hlist]
  unfold names
  rw [String.toList_ofList, String.toList_ofList, hsplit, hfull]
  simp [words, Function.comp_def]

/-- The path to which the source of a class is written. -/
def sourcePath (scratch : Place) (className : String) : String :=
  scratchFile scratch className "cs"

theorem sourcePath_eq (scratch : Place) (className : String) :
    sourcePath scratch className = join (absolutePath scratch) (className ++ sourceExtension) := by
  show join _ (className ++ "." ++ "cs") = _
  rw [String.append_assoc]
  rfl

theorem isAbsolute_absolutePath (p : Place) : isAbsolute (absolutePath p) = true := by
  unfold isAbsolute absolutePath
  rw [String.toList_append]
  rfl

/-- A source whose class has no slash in its name is in the scratch directory itself. -/
theorem sourcePath_below {className : String} (hne : scratch ≠ []) (hnamed : ∀ name ∈ scratch, OneName name)
    (hslash : '/' ∉ className.toList) (hp : d.place here (sourcePath scratch className) = .ok p) : scratch <+: p := by
  rw [sourcePath_eq] at hp
  obtain ⟨around, haround, rfl⟩ := place_source hslash hp
  rw [isAbsolute_absolutePath, if_pos rfl, names_absolutePath hne hnamed] at haround
  rw [follow_of_oneName hnamed haround, List.nil_append]
  exact List.prefix_append scratch _

/-! ## What the backend changes -/

/-- Whatever programs are started in a directory change nothing outside it. -/
def Confined (launch : Launcher) (scratch : Place) : Prop :=
  ∀ disk program args run, launch disk scratch program args = .ok run → disk.SameBut (scratch <+: ·) run.disk

/-- The path of a class's source leads to a place outside the scratch directory. -/
def LeadsOut (scratch : Place) (className : String) (disk : Disk) (p : Place) : Prop :=
  (disk.withDirectory scratch).place scratch (sourcePath scratch className) = .ok p ∧ ¬ scratch <+: p

/-- It does not unless there is a slash in the name of the class. -/
theorem not_leadsOut {className : String} (hvacant : disk.Vacant scratch) (hslash : '/' ∉ className.toList)
    (p : Place) : ¬ LeadsOut scratch className disk p :=
  fun h => h.2 (sourcePath_below hvacant.inside hvacant.named hslash h.1)

/-- The compiler changes what is in the scratch directory, and the source is written. -/
theorem sameBut_run (c : Command) (hvacant : disk.Vacant scratch) (hconfined : Confined launch scratch)
    (request : Request) :
    disk.SameBut (fun p => scratch <+: p ∨
        (disk.withDirectory scratch).place scratch (sourcePath scratch request.unit.className) = .ok p)
      (c.run launch scratch request disk).2 := by
  unfold sourcePath
  simp only [Command.run]
  cases hwrite : (disk.withDirectory scratch).write scratch (scratchFile scratch request.unit.className "cs")
      (toUtf8 request.source) with
  | error fault => exact .refl _ disk
  | ok ready =>
    have hready : disk.SameBut _ ready :=
      (hvacant.sameBut_withDirectory.mono fun p hp => Or.inl hp).trans
        ((sameBut_write hwrite).mono fun p hp => Or.inr hp)
    dsimp only
    split
    · exact hready
    · rename_i run hlaunch
      exact hready.trans ((hconfined _ _ _ run hlaunch).mono fun p hp => Or.inl hp)

/-- **Nothing but the source can stay behind**, and only at a place outside the scratch directory. -/
theorem left_behind (c : Command) (hvacant : disk.Vacant scratch) (hconfined : Confined launch scratch)
    (request : Request) (hp : ¬ LeadsOut scratch request.unit.className disk p) :
    entry? ((c.backend launch scratch).build request disk).2 p = disk.entry? p :=
  hvacant.entry?_removeAll_eq (sameBut_run c hvacant hconfined request) hp

/-- After a program that ran, its disk is left without the scratch directory. -/
theorem Ran.disk_eq {unit : ProxyUnit} {references : List String} {run : ProgramRun}
    (h : c.Ran launch scratch unit references disk run) :
    ((c.backend launch scratch).build (.ofUnit unit references) disk).2 = run.disk.removeAll scratch := by
  obtain ⟨ready, hready, hstarted⟩ := h
  unfold prepared at hready
  unfold started imagePath at hstarted
  unfold backend Command.run
  simp only [hready, hstarted]

end Compile.Command

end BoundaryProxy
