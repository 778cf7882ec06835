import BoundaryProxy.Proofs.CommandLine.Generate
import BoundaryProxy.Proofs.Compile.Scratch

/-!
# `Proofs.CommandLine.Effects` — what a run does to the disk

`Run.Ends x s r d` says that a command started in a session comes to a result, be it a failure, and what disk it leaves;
what it writes to the terminal is passed over. Only making directories, writing files and a backend change the disk, and
in both commands these come after everything that is read has been read.

* **`ends_generate_of_unready`**, **`ends_compileWith_of_unready`**: a run that cannot begin (`Unready`) fails and
  leaves the disk as it is, whatever else it was asked for.
* **`ends_compileWith`**: a run that compiles ends as the compilation lets it (`Settles`).
-/

namespace BoundaryProxy.CommandLine

open BoundaryProxy.Host BoundaryProxy.Compile

/-! ## What a run needs -/

/-- The host that is read from a disk. -/
def hostAt (disk : Disk) (here : Place) (catalogPath : String) (named : Option String) :
    Except Failure HostModel := do
  let catalog ← readCatalog disk here catalogPath
  let profile ← readProfile disk here named
  let registries ← (findRegistries catalog profile).1
  return ⟨catalog, profile, registries⟩

/-- What keeps a run from beginning: a catalog or a profile that cannot be loaded, descriptors that conflict, or a name
    that no interface has, wherever it stands among the names. -/
inductive Unready (disk : Disk) (here : Place) (catalogPath : String) (named : Option String) (names : List String) :
    Prop
  | noCatalog {failure : Failure} : readCatalog disk here catalogPath = .error failure →
      Unready disk here catalogPath named names
  | noProfile {failure : Failure} : readProfile disk here named = .error failure →
      Unready disk here catalogPath named names
  | conflict {catalog : Catalog} {profile : Profile} {failure : Failure} :
      readCatalog disk here catalogPath = .ok catalog → readProfile disk here named = .ok profile →
      (findRegistries catalog profile).1 = .error failure → Unready disk here catalogPath named names
  | missing {catalog : Catalog} {name : String} : readCatalog disk here catalogPath = .ok catalog →
      name ∈ names → catalog.find? name = none → Unready disk here catalogPath named names

section

variable {disk : Disk} {here : Place} {catalogPath : String} {named : Option String} {names : List String}
  {h : HostModel}

theorem hostAt_eq_ok_iff : hostAt disk here catalogPath named = .ok h ↔
    readCatalog disk here catalogPath = .ok h.catalog ∧ readProfile disk here named = .ok h.profile ∧
      (findRegistries h.catalog h.profile).1 = .ok h.registries := by
  unfold hostAt
  cases readCatalog disk here catalogPath with
  | error f => exact ⟨fun h => (nomatch h), fun h => (nomatch h.1)⟩
  | ok catalog =>
    cases readProfile disk here named with
    | error f => exact ⟨fun h => (nomatch h), fun h => (nomatch h.2.1)⟩
    | ok profile =>
      show ((findRegistries catalog profile).1 >>= fun registries => pure _) = .ok h ↔ _
      constructor
      · intro heq
        cases hfound : (findRegistries catalog profile).1 with
        | error f =>
          rw [hfound] at heq
          cases heq
        | ok registries =>
          rw [hfound] at heq
          obtain rfl := Except.ok.inj heq
          exact ⟨rfl, rfl, hfound⟩
      · rintro ⟨hcatalog, hprofile, hfound⟩
        obtain rfl := Except.ok.inj hcatalog
        obtain rfl := Except.ok.inj hprofile
        rw [hfound]
        rfl

/-- A host that is there, and has an interface for each name, is all that a run needs. -/
theorem unready_iff : Unready disk here catalogPath named names ↔
    (∃ failure, hostAt disk here catalogPath named = .error failure) ∨
      ∃ h, hostAt disk here catalogPath named = .ok h ∧ ∃ name ∈ names, h.catalog.find? name = none := by
  constructor
  · intro hunready
    cases hhost : hostAt disk here catalogPath named with
    | error failure => exact .inl ⟨failure, rfl⟩
    | ok h =>
      obtain ⟨hcatalog, hprofile, hfound⟩ := hostAt_eq_ok_iff.mp hhost
      refine .inr ⟨h, rfl, ?_⟩
      cases hunready with
      | noCatalog hnone => exact nomatch hcatalog.symm.trans hnone
      | noProfile hnone => exact nomatch hprofile.symm.trans hnone
      | conflict hcatalog' hprofile' hconflict =>
        obtain rfl := Except.ok.inj (hcatalog.symm.trans hcatalog')
        obtain rfl := Except.ok.inj (hprofile.symm.trans hprofile')
        exact nomatch hfound.symm.trans hconflict
      | missing hcatalog' hname hnone =>
        obtain rfl := Except.ok.inj (hcatalog.symm.trans hcatalog')
        exact ⟨_, hname, hnone⟩
  · rintro (⟨failure, hfails⟩ | ⟨h, hhost, name, hname, hnone⟩)
    · -- the first of the three that fails is what is missing
      cases hcatalog : readCatalog disk here catalogPath with
      | error f => exact .noCatalog hcatalog
      | ok catalog =>
        cases hprofile : readProfile disk here named with
        | error f => exact .noProfile hprofile
        | ok profile =>
          cases hfound : (findRegistries catalog profile).1 with
          | error f => exact .conflict hcatalog hprofile hfound
          | ok registries =>
            have hhost : hostAt disk here catalogPath named = .ok ⟨catalog, profile, registries⟩ :=
              hostAt_eq_ok_iff.mpr ⟨hcatalog, hprofile, hfound⟩
            exact nomatch hhost.symm.trans hfails
    · exact .missing (hostAt_eq_ok_iff.mp hhost).1 hname hnone

theorem HostModel.find_eq_ok_iff {name : String} {i : Interface} :
    h.find name = .ok i ↔ h.catalog.find? name = some i := by
  unfold HostModel.find
  cases h.catalog.find? name <;> simp

theorem HostModel.find_of_none {name : String} (hnone : h.catalog.find? name = none) :
    h.find name = .error (.interfaceNotFound name) := by
  unfold HostModel.find
  rw [hnone]

/-- One name that no interface has is enough, whatever the others are. -/
theorem HostModel.targets_of_none {name : String} (hname : name ∈ names) (hnone : h.catalog.find? name = none) :
    ∃ failure, h.targets names = .error failure := by
  have hmap : ∃ failure, names.mapM h.find = .error failure := by
    induction names with
    | nil => cases hname
    | cons first rest ih =>
      rw [List.mapM_cons]
      cases hfirst : h.find first with
      | error failure => exact ⟨failure, rfl⟩
      | ok i =>
        rcases List.mem_cons.mp hname with rfl | hrest
        · exact nomatch hfirst.symm.trans (find_of_none hnone)
        · obtain ⟨failure, hfails⟩ := ih hrest
          refine ⟨failure, ?_⟩
          rw [hfails]
          rfl
  unfold targets
  rwa [if_neg (by simpa using List.ne_nil_of_mem hname)]

end

/-! ## How a run ends -/

/-- The exit code that the result of a command is turned into. -/
def exitCodeOf : Except Failure Unit → Nat
  | .ok () => 0
  | .error _ => 1

namespace Run

variable {α β : Type} {x : Run α} {f : α → Run β} {a : α} {s : Session} {r : Except Failure β} {d d' : Disk}

/-- A command comes to a result and leaves a disk. -/
def Ends (x : Run α) (s : Session) (r : Except Failure α) (d : Disk) : Prop :=
  ∃ t, x.run s = (r, { s with disk := d, terminal := t })

theorem ends_pure (a : α) (s : Session) : Ends (pure a) s (.ok a) s.disk :=
  ⟨s.terminal, rfl⟩

theorem ends_get (s : Session) : Ends get s (.ok s) s.disk :=
  ⟨s.terminal, rfl⟩

theorem ends_onTerminal (change : Terminal → Terminal) (s : Session) :
    Ends (onTerminal change) s (.ok ()) s.disk :=
  ⟨change s.terminal, rfl⟩

theorem ends_liftExcept {found answer : Except Failure α} (h : found = answer) (s : Session) :
    Ends (found : Run α) s answer s.disk :=
  ⟨s.terminal, by cases h; cases found <;> rfl⟩

/-- What succeeds goes on with the disk it leaves, -/
theorem Ends.bind (hx : Ends x s (.ok a) d) (hf : ∀ t, Ends (f a) ⟨d, s.here, t⟩ r d') :
    Ends (x >>= f) s r d' := by
  obtain ⟨t, hx⟩ := hx
  obtain ⟨t', hf⟩ := hf t
  refine ⟨t', ?_⟩
  rw [run_bind, hx]
  exact hf

/-- and what fails ends all that follows. -/
theorem Ends.bind_error {failure : Failure} (hx : Ends x s (.error failure) d) :
    Ends (x >>= f) s (.error failure) d := by
  obtain ⟨t, hx⟩ := hx
  refine ⟨t, ?_⟩
  rw [run_bind, hx]

/-- The disk that is left need not be known before the command goes on. -/
theorem Ends.bind_exists {post : Except Failure β → Disk → Prop} (hx : Ends x s (.ok a) d)
    (hf : ∀ t, ∃ r d', Ends (f a) ⟨d, s.here, t⟩ r d' ∧ post r d') :
    ∃ r d', Ends (x >>= f) s r d' ∧ post r d' := by
  obtain ⟨t, hx⟩ := hx
  obtain ⟨r, d', ⟨t', hf⟩, hpost⟩ := hf t
  refine ⟨r, d', ⟨t', ?_⟩, hpost⟩
  rw [run_bind, hx]
  exact hf

theorem ends_consult {question : Disk → Place → Except Failure α} {answer : Except Failure α}
    (h : question s.disk s.here = answer) : Ends (consult question) s answer s.disk :=
  (ends_get s).bind fun _ => ends_liftExcept h _

theorem ends_change {failure : IoFault → Failure} {action : Disk → Place → Except IoFault Disk}
    (h : action s.disk s.here = .ok d) : Ends (change failure action) s (.ok ()) d :=
  ⟨s.terminal, gives_change_iff.mpr ⟨d, h, rfl⟩⟩

theorem ends_change_error {failure : IoFault → Failure} {action : Disk → Place → Except IoFault Disk}
    {fault : IoFault} (h : action s.disk s.here = .error fault) :
    Ends (change failure action) s (.error (failure fault)) s.disk := by
  refine (ends_get s).bind fun t => ⟨t, ?_⟩
  rw [h]
  rfl

theorem ends_write {failure : IoFault → Failure} {path : String} {content : List UInt8}
    (h : s.disk.write s.here path content = .ok d) : Ends (write failure path content) s (.ok ()) d := by
  unfold write
  refine (ends_get s).bind fun _ => (ends_change h).bind fun _ => ?_
  -- what is sent to a stream goes to the terminal
  dsimp only
  split
  · exact ends_onTerminal _ _
  · exact ends_onTerminal _ _
  · exact ends_pure _ _

theorem ends_write_error {failure : IoFault → Failure} {path : String} {content : List UInt8} {fault : IoFault}
    (h : s.disk.write s.here path content = .error fault) :
    Ends (write failure path content) s (.error (failure fault)) s.disk := by
  unfold write
  exact (ends_get s).bind fun _ => (ends_change_error h).bind_error

/-- Loading a host leaves the disk alone, whether it succeeds or not. -/
theorem ends_loadHost {catalogPath : String} {named : Option String} {answer : Except Failure HostModel}
    (h : hostAt s.disk s.here catalogPath named = answer) :
    Ends (loadHost catalogPath named) s answer s.disk := by
  subst h
  unfold loadHost hostAt
  cases hcatalog : readCatalog s.disk s.here catalogPath with
  | error failure => exact (ends_consult hcatalog).bind_error
  | ok catalog =>
    refine (ends_consult hcatalog).bind fun t => ?_
    cases hprofile : readProfile s.disk s.here named with
    | error failure => exact (ends_consult hprofile).bind_error
    | ok profile =>
      refine (ends_consult hprofile).bind fun t => ?_
      show Ends _ _ ((findRegistries catalog profile).1 >>= fun registries => pure _) _
      generalize findRegistries catalog profile = found
      refine (ends_onTerminal _ _).bind fun t => ?_
      cases found.1 with
      | error failure => exact (ends_liftExcept rfl _).bind_error
      | ok registries => exact (ends_liftExcept rfl _).bind fun t => ends_pure _ _

theorem ends_synthesize (spec : ProxySpec) (s : Session) : Ends (synthesize spec) s (.ok spec.synthesize.1) s.disk :=
  ⟨_, synthesize_gives spec s⟩

variable {catalogPath name directory : String} {names references : List String} {named image : Option String}
  {toStdout : Bool} {backend : Backend} {h : HostModel} {i : Interface}

/-- **A run that cannot begin** writes nothing, however much of what it was asked for is there. -/
theorem ends_generate_of_unready (hunready : Unready s.disk s.here catalogPath named names) :
    ∃ failure, Ends (generate catalogPath names directory named toStdout) s (.error failure) s.disk := by
  rcases unready_iff.mp hunready with ⟨failure, hfails⟩ | ⟨h, hhost, name, hname, hnone⟩
  · exact ⟨failure, (ends_loadHost hfails).bind_error⟩
  · obtain ⟨failure, hfails⟩ := HostModel.targets_of_none hname hnone
    exact ⟨failure, (ends_loadHost hhost).bind fun t => (ends_liftExcept hfails _).bind_error⟩

theorem ends_compileWith_of_unready (hunready : Unready s.disk s.here catalogPath named [name]) :
    ∃ failure, Ends (compileWith backend catalogPath name references image named) s (.error failure) s.disk := by
  rcases unready_iff.mp hunready with ⟨failure, hfails⟩ | ⟨h, hhost, other, hname, hnone⟩
  · exact ⟨failure, (ends_loadHost hfails).bind_error⟩
  · obtain rfl := List.mem_singleton.mp hname
    have hfails := HostModel.find_of_none hnone
    exact ⟨_, (ends_loadHost hhost).bind fun t => (ends_liftExcept hfails _).bind_error⟩

/-- What a compilation comes to is what the backend answers. -/
theorem compile_cases (backend : Backend) (unit : ProxyUnit) (references : List String) (disk : Disk) :
    let built := backend.build (.ofUnit unit references) disk
    let c := compile backend unit references disk
    c.disk = built.2 ∧
      ((∃ e, built.1 = .error e ∧ c.result = .error e) ∨
      (∃ output, built.1 = .ok output ∧ output.errors ≠ [] ∧ c.result = .error (.compilation output.errors)) ∨
      ∃ output, built.1 = .ok output ∧ output.errors = [] ∧
        c.result = .ok ⟨unit.className, Source.render unit, references, output.image⟩) := by
  unfold compile
  dsimp only
  generalize backend.build (.ofUnit unit references) disk = built
  obtain ⟨answer, d⟩ := built
  cases answer with
  | error e => exact ⟨rfl, .inl ⟨e, rfl, rfl⟩⟩
  | ok output =>
    dsimp only
    split
    · rename_i hnone
      exact ⟨rfl, .inr (.inr ⟨output, rfl, List.isEmpty_iff.mp hnone, rfl⟩)⟩
    · rename_i hsome
      exact ⟨rfl, .inr (.inl ⟨output, rfl, mt List.isEmpty_iff.mpr hsome, rfl⟩)⟩

theorem assemblyName_of_compile {unit : ProxyUnit} {disk : Disk} {artifact : Artifact}
    (hresult : (compile backend unit references disk).result = .ok artifact) :
    artifact.assemblyName = unit.className := by
  obtain ⟨-, ⟨e, -, h⟩ | ⟨output, -, -, h⟩ | ⟨output, -, -, h⟩⟩ := compile_cases backend unit references disk
  · exact nomatch hresult.symm.trans h
  · exact nomatch hresult.symm.trans h
  · rw [Except.ok.inj (hresult.symm.trans h)]

/-- What a run comes to when a compilation did, and the disk it leaves: that of the compilation, and the image on it
    if there is one. -/
inductive Settles (here : Place) (path : String) (c : Compilation) : Except Failure Unit → Disk → Prop
  | failed {e : Compile.Failure} {failure : Failure} : c.result = .error e →
      Settles here path c (.error failure) c.disk
  | checked {artifact : Artifact} : c.result = .ok artifact → artifact.image = none →
      Settles here path c (.ok ()) c.disk
  | written {artifact : Artifact} {bytes : List UInt8} {d : Disk} : c.result = .ok artifact →
      artifact.image = some bytes → c.disk.write here path bytes = .ok d → Settles here path c (.ok ()) d
  | refused {artifact : Artifact} {bytes : List UInt8} {fault : IoFault} {failure : Failure} :
      c.result = .ok artifact → artifact.image = some bytes → c.disk.write here path bytes = .error fault →
      Settles here path c (.error failure) c.disk

namespace Settles

variable {here : Place} {path : String} {c : Compilation} {result : Except Failure Unit} {artifact : Artifact}
  {bytes : List UInt8}

theorem of_error {e : Compile.Failure} (h : Settles here path c result d) (he : c.result = .error e) :
    exitCodeOf result = 1 ∧ d = c.disk := by
  cases h with
  | failed => exact ⟨rfl, rfl⟩
  | checked hok | written hok | refused hok => exact nomatch he.symm.trans hok

theorem of_no_image (h : Settles here path c result d) (hok : c.result = .ok artifact)
    (himage : artifact.image = none) : exitCodeOf result = 0 ∧ d = c.disk := by
  cases h with
  | failed he => exact nomatch he.symm.trans hok
  | checked => exact ⟨rfl, rfl⟩
  | written hok' himage' | refused hok' himage' =>
    obtain rfl := Except.ok.inj (hok.symm.trans hok')
    exact nomatch himage.symm.trans himage'

theorem of_image (h : Settles here path c result d) (hok : c.result = .ok artifact)
    (himage : artifact.image = some bytes) (hwrite : c.disk.write here path bytes = .ok d') :
    exitCodeOf result = 0 ∧ d = d' := by
  cases h with
  | failed he => exact nomatch he.symm.trans hok
  | checked hok' himage' =>
    obtain rfl := Except.ok.inj (hok.symm.trans hok')
    exact nomatch himage.symm.trans himage'
  | written hok' himage' hwrite' =>
    obtain rfl := Except.ok.inj (hok.symm.trans hok')
    obtain rfl := Option.some.inj (himage.symm.trans himage')
    exact ⟨rfl, Except.ok.inj (hwrite'.symm.trans hwrite)⟩
  | refused hok' himage' hwrite' =>
    obtain rfl := Except.ok.inj (hok.symm.trans hok')
    obtain rfl := Option.some.inj (himage.symm.trans himage')
    exact nomatch hwrite.symm.trans hwrite'

theorem of_refused {fault : IoFault} (h : Settles here path c result d) (hok : c.result = .ok artifact)
    (himage : artifact.image = some bytes) (hrefused : c.disk.write here path bytes = .error fault) :
    exitCodeOf result = 1 ∧ d = c.disk := by
  cases h with
  | failed he => exact nomatch he.symm.trans hok
  | checked hok' himage' =>
    obtain rfl := Except.ok.inj (hok.symm.trans hok')
    exact nomatch himage.symm.trans himage'
  | written hok' himage' hwrite =>
    obtain rfl := Except.ok.inj (hok.symm.trans hok')
    obtain rfl := Option.some.inj (himage.symm.trans himage')
    exact nomatch hwrite.symm.trans hrefused
  | refused => exact ⟨rfl, rfl⟩

end Settles

/-- A run that compiles does to the disk what the backend does, and writes the image after it. -/
theorem ends_compileWith (hhost : hostAt s.disk s.here catalogPath named = .ok h)
    (hfind : h.catalog.find? name = some i) :
    let unit := (h.spec i).synthesize.1
    ∃ r d, Ends (compileWith backend catalogPath name references image named) s r d ∧
      Settles s.here (image.getD s!"{unit.className}.dll") (compile backend unit references s.disk) r d := by
  intro unit
  refine (ends_loadHost hhost).bind_exists fun t => ?_
  refine (ends_liftExcept (HostModel.find_eq_ok_iff.mpr hfind) _).bind_exists fun t => ?_
  refine (ends_synthesize (h.spec i) _).bind_exists fun t => (ends_get _).bind_exists fun t => ?_
  have hname : ∀ artifact, (compile backend unit references s.disk).result = .ok artifact →
      artifact.assemblyName = unit.className := fun _ => assemblyName_of_compile
  generalize compile backend unit references s.disk = c at hname ⊢
  have hset (s : Session) : Ends (modify fun s => { s with disk := c.disk }) s (.ok ()) c.disk := ⟨s.terminal, rfl⟩
  refine (hset _).bind_exists fun t => (ends_onTerminal _ _).bind_exists fun t => ?_
  refine (ends_onTerminal _ _).bind_exists fun t => ?_
  -- the compilation is over, and what is left depends on its result
  cases hresult : c.result with
  | error e => exact ⟨_, _, (ends_liftExcept rfl _).bind_error, .failed hresult⟩
  | ok artifact =>
    refine (ends_liftExcept rfl _).bind_exists fun t => ?_
    rw [← hname artifact hresult]
    cases himage : artifact.image with
    | none =>
      refine ⟨_, _, ?_, .checked hresult himage⟩
      exact (ends_onTerminal _ _).bind fun _ => (ends_onTerminal _ _).bind fun _ => ends_onTerminal _ _
    | some bytes =>
      cases hwrite : c.disk.write s.here (image.getD s!"{artifact.assemblyName}.dll") bytes with
      | error fault => exact ⟨_, _, (ends_write_error hwrite).bind_error, .refused hresult himage hwrite⟩
      | ok d =>
        refine ⟨_, _, (ends_write hwrite).bind fun _ => ?_, .written hresult himage hwrite⟩
        exact (ends_onTerminal _ _).bind fun _ => (ends_onTerminal _ _).bind fun _ =>
          (ends_onTerminal _ _).bind fun _ => ends_onTerminal _ _

end Run

end BoundaryProxy.CommandLine
