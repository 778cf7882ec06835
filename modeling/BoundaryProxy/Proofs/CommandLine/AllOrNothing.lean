import BoundaryProxy.Proofs.CommandLine.Effects

/-!
# `Proofs.CommandLine.AllOrNothing` — a run that fails leaves no part of its output

A run of the program leaves what its command leaves, and its exit code says whether the command succeeded
(`run_of_ends`). So what the steps of a command do to the disk is what a run does.

* **`run_all_or_nothing`**: a run that cannot begin changes nothing. A run that compiles writes the image exactly if the
  compilation has one, and changes nothing else on the disk that the compilation leaves. That disk is the one before,
  but for a source whose path leads out of the scratch directory.
* **`run_leaves_source`**: such a source stays behind, although the run fails.
-/

namespace BoundaryProxy.CommandLine

open BoundaryProxy.Host BoundaryProxy.Compile

/-- A backend fails a class: it could not do its work, or it found errors. -/
def Fails (backend : Backend) (request : Compile.Request) (disk : Disk) : Prop :=
  (∃ e, (backend.build request disk).1 = .error e) ∨
    ∃ output, (backend.build request disk).1 = .ok output ∧ output.errors ≠ []

section

variable {w : Workshop} {environment : List (String × String)} {disk d : Disk} {here p : Place} {args : List String}
  {request : Request} {r : Except Failure Unit}

theorem compile_fails_iff {backend : Backend} {unit : ProxyUnit} {references : List String} :
    (∃ e, (compile backend unit references disk).result = .error e) ↔
      Fails backend (.ofUnit unit references) disk := by
  unfold Fails
  obtain ⟨-, ⟨e, hbuilt, h⟩ | ⟨output, hbuilt, herrors, h⟩ | ⟨output, hbuilt, herrors, h⟩⟩ :=
    Run.compile_cases backend unit references disk
  · rw [h, hbuilt]
    simp
  · rw [h, hbuilt]
    simpa using herrors
  · rw [h, hbuilt]
    simpa using herrors

/-- Neither backend leaves anything but a source whose path leads out of the scratch directory. -/
theorem backendOf_left_behind (w : Workshop) (compiler : String) (checkOnly : Bool) (request : Compile.Request)
    (hvacant : disk.Vacant w.scratch) (hconfined : Compile.Command.Confined w.launch w.scratch)
    (hp : ¬ Compile.Command.LeadsOut w.scratch request.unit.className disk p) :
    Disk.entry? ((backendOf w compiler checkOnly).build request disk).2 p = disk.entry? p := by
  cases checkOnly with
  | true => rfl
  | false => exact Compile.Command.left_behind _ hvacant hconfined request hp

/-- The program ends as its command does. -/
theorem run_of_ends (hrequest : Request.ofArgs args = .ok request)
    (hends : Run.Ends (request.command.run (w.within environment disk here))
      ⟨disk, here, { colored := usesColor environment request.color }⟩ r d) :
    (run w environment disk here args).exitCode = exitCodeOf r ∧
      (run w environment disk here args).disk = d := by
  obtain ⟨t, hends⟩ := hends
  unfold run
  rw [hrequest]
  dsimp only
  rw [hends]
  cases r <;> exact ⟨rfl, rfl⟩

/-- A run that compiles ends as the compilation lets it. -/
theorem run_settles {color : Option String} {verbosity : Nat} {catalogPath name compiler : String}
    {references : List String} {image named : Option String} {checkOnly : Bool} {h : HostModel} {i : Interface}
    (hrequest : Request.ofArgs args =
      .ok ⟨color, verbosity, .compile catalogPath name references compiler image checkOnly named⟩)
    (hhost : hostAt disk here catalogPath named = .ok h) (hfind : h.catalog.find? name = some i) :
    let unit := (h.spec i).synthesize.1
    ∃ r, (run w environment disk here args).exitCode = exitCodeOf r ∧
      Run.Settles here (image.getD s!"{unit.className}.dll")
        (compile (backendOf (w.within environment disk here) compiler checkOnly) unit references disk) r
        (run w environment disk here args).disk := by
  let s : Session := ⟨disk, here, { colored := usesColor environment color }⟩
  obtain ⟨r, d, hends, hsettles⟩ := Run.ends_compileWith (s := s) hhost hfind
  obtain ⟨hcode, hdisk⟩ := run_of_ends hrequest hends
  exact ⟨r, hcode, hdisk ▸ hsettles⟩

end

/-- **A run does all or nothing.** A run that is to write or print proxies and cannot begin exits with a failure and
    leaves the disk as it is. So does a run that is to compile. If that run can begin, the compilation fails exactly if
    the backend could not do its work or found an error; then the run exits with a failure, and otherwise it succeeds.
    It writes the image if there is one, with its bytes, and nothing else changes on the disk that the compilation
    leaves; an image that cannot be written makes it fail. Where a scratch directory can be made in which the compiler
    stays, the disk of the compilation is the one before, but for a source whose path leads out of the directory; and no
    path does if the profile puts no slash behind the letters of a class. -/
theorem run_all_or_nothing (w : Workshop) (environment : List (String × String)) (disk : Disk) (here : Place)
    (args : List String) (request : Request) (hrequest : Request.ofArgs args = .ok request) :
    let o := run w environment disk here args
    (∀ catalogPath names directory named toStdout,
      request.command = .generate catalogPath names directory named toStdout →
        Unready disk here catalogPath named names → o.exitCode = 1 ∧ o.disk = disk) ∧
    ∀ catalogPath name references compiler image checkOnly named,
      request.command = .compile catalogPath name references compiler image checkOnly named →
        (Unready disk here catalogPath named [name] → o.exitCode = 1 ∧ o.disk = disk) ∧
        ∀ h i, hostAt disk here catalogPath named = .ok h → h.catalog.find? name = some i →
          let workshop := w.within environment disk here
          let backend := backendOf workshop compiler checkOnly
          let unit := (h.spec i).synthesize.1
          let c := compile backend unit references disk
          let path := image.getD s!"{unit.className}.dll"
          ((∃ e, c.result = .error e) ↔ Fails backend (.ofUnit unit references) disk) ∧
          (∀ e, c.result = .error e → o.exitCode = 1 ∧ o.disk = c.disk) ∧
          (∀ a, c.result = .ok a → a.image = none → o.exitCode = 0 ∧ o.disk = c.disk) ∧
          (∀ a bytes d, c.result = .ok a → a.image = some bytes → c.disk.write here path bytes = .ok d →
            o.exitCode = 0 ∧ o.disk = d ∧
              (c.disk.device? here path = none → ∃ p, c.disk.place here path = .ok p ∧ Disk.Wrote c.disk p bytes d)) ∧
          (∀ a bytes fault, c.result = .ok a → a.image = some bytes → c.disk.write here path bytes = .error fault →
            o.exitCode = 1 ∧ o.disk = c.disk) ∧
          (disk.Vacant workshop.scratch → Compile.Command.Confined workshop.launch workshop.scratch →
            (∀ p, ¬ Compile.Command.LeadsOut workshop.scratch unit.className disk p →
              c.disk.entry? p = disk.entry? p) ∧
            ('/' ∉ h.profile.classSuffix.toList → ∀ p, c.disk.entry? p = disk.entry? p)) := by
  intro o
  obtain ⟨color, verbosity, command⟩ := request
  let s : Session := ⟨disk, here, { colored := usesColor environment color }⟩
  let workshop := w.within environment disk here
  have hfails (hends : ∃ failure, Run.Ends (command.run workshop) s (.error failure) disk) :
      o.exitCode = 1 ∧ o.disk = disk := by
    obtain ⟨failure, hends⟩ := hends
    exact run_of_ends hrequest hends
  constructor
  · rintro catalogPath names directory named toStdout rfl hunready
    exact hfails (Run.ends_generate_of_unready hunready)
  rintro catalogPath name references compiler image checkOnly named rfl
  refine ⟨fun hunready => hfails (Run.ends_compileWith_of_unready hunready), fun h i hhost hfind => ?_⟩
  intro workshop backend unit c path
  obtain ⟨r, hcode, hsettles⟩ : ∃ r, o.exitCode = exitCodeOf r ∧ Run.Settles here path c r o.disk :=
    run_settles hrequest hhost hfind
  rw [hcode]
  refine ⟨compile_fails_iff, fun e he => hsettles.of_error he, fun a hok himage => hsettles.of_no_image hok himage,
    fun a bytes d hok himage hwrite => ?_, fun a bytes fault => hsettles.of_refused, fun hvacant hconfined => ?_⟩
  · obtain ⟨hzero, hdisk⟩ := hsettles.of_image hok himage hwrite
    refine ⟨hzero, hdisk, fun hdevice => ?_⟩
    obtain ⟨-, p, hp, -, hwrote⟩ := Disk.wrote_of_write_kept hdevice hwrite
    exact ⟨p, hp, hwrote⟩
  · have hleft (p : Place) (hp : ¬ Compile.Command.LeadsOut workshop.scratch unit.className disk p) :
        c.disk.entry? p = disk.entry? p := by
      rw [(Run.compile_cases backend unit references disk).1]
      exact backendOf_left_behind workshop compiler checkOnly _ hvacant hconfined hp
    refine ⟨hleft, fun hsuffix p => hleft p (Compile.Command.not_leadsOut hvacant ?_ p)⟩
    rw [h.spec_className i]
    exact h.className_no_slash hsuffix i

namespace Run

/-! ## A run of each kind -/

/-- A workshop whose compiler leaves an image, and ends in a given way. -/
def stub (status : ExitStatus) : Workshop :=
  ⟨fun disk _ _ _ => .ok ⟨status, [], [], disk.put ["scratch", "IThingSvc.dll"] (.file [77, 90] false)⟩, ["scratch"]⟩

/-- What comes of arguments in a directory with the catalog of two interfaces, where the compiler ends in this way. -/
def stubRun (status : ExitStatus) (args : List String) : Outcome :=
  run (stub status) [] twinsSession.disk [] args

theorem confined_stub (status : ExitStatus) : Compile.Command.Confined (stub status).launch ["scratch"] := by
  intro disk program args run hrun
  obtain rfl := (Except.ok.inj hrun).symm
  exact (Disk.sameBut_put (by simp) _).mono fun p hp => hp ▸ List.prefix_append ["scratch"] ["IThingSvc.dll"]

theorem vacant_twins : twinsSession.disk.Vacant ["scratch"] where
  inside := by decide
  named := by decide
  around := by decide
  empty := by
    rintro _ ⟨rest, rfl⟩
    rfl

/-- The class of the first interface. -/
def thingUnit : ProxyUnit :=
  (twins.spec (thing "Ns" "A")).synthesize.1

theorem thingUnit_className : thingUnit.className = "IThingSvc" :=
  (twins.spec_className _).trans (by decide +kernel)

/-- The compiler runs on the source in the scratch directory, and the image is there after it. -/
theorem ran_twins (status : ExitStatus) : ∃ run,
    ({ program := "csc" } : Compile.Command).Ran (stub status).launch ["scratch"] thingUnit [] twinsSession.disk run ∧
      run.status = status ∧ errorLines run = [] ∧ shownLines run = [] ∧
      run.disk.read ["scratch"] (Compile.Command.imagePath ["scratch"] thingUnit) = .ok [77, 90] := by
  let made := twinsSession.disk.withDirectory ["scratch"]
  have hsource : made.place ["scratch"] "/scratch/IThingSvc.cs" = .ok ["scratch", "IThingSvc.cs"] :=
    Disk.place_of_follow (by decide) (by simp) (by decide) (by decide) rfl
  have himage : made.place ["scratch"] "/scratch/IThingSvc.dll" = .ok ["scratch", "IThingSvc.dll"] :=
    Disk.place_of_follow (by decide) (by simp) (by decide) (by decide) rfl
  -- the source stands beside the image, so it is not in its way
  have hstored : Disk.Stored "/scratch/IThingSvc.cs" := Disk.stored_extension "/scratch/IThingSvc"
  obtain ⟨ready, hready, hwrote⟩ := Disk.exists_write hstored hsource rfl (Text.toUtf8 (Source.render thingUnit))
  have hfree : ready.isDirectory ["scratch", "IThingSvc.dll"] = false := (hwrote.sameDirectories _).trans rfl
  have hput : Disk.Wrote _ ["scratch", "IThingSvc.dll"] [77, 90] _ := Disk.wrote_put (by simp) hfree false
  refine ⟨⟨status, [], [], _⟩, ⟨ready, ?_, rfl⟩, rfl, (lines_of_silent rfl rfl).1, (lines_of_silent rfl rfl).2, ?_⟩
  · unfold Compile.Command.prepared
    rw [thingUnit_className]
    exact hready
  · unfold Compile.Command.imagePath
    rw [thingUnit_className]
    exact hput.read (by decide) (Disk.place_of_sameDirectories hwrote.sameDirectories (by decide) himage) (by decide)

theorem hostAt_twins : hostAt twinsSession.disk [] "catalog.json" none = .ok twins := by
  obtain ⟨hcatalog, hprofile, hfound, -⟩ := gives_loadHost_iff.mp twins_load
  exact hostAt_eq_ok_iff.mpr ⟨hcatalog, hprofile, hfound⟩

/-- What is asked for beside a name that no interface has is not written. A compiler that ends badly leaves nothing,
    whatever image it made, and the image of one that ends well is all that is new. -/
theorem run_all_or_nothing_twins :
    (stubRun (.exited 0) ["generate", "catalog.json", "-i", "Ns.IThing", "-i", "IOther"]).exitCode = 1 ∧
    (stubRun (.exited 0) ["generate", "catalog.json", "-i", "Ns.IThing", "-i", "IOther"]).disk = twinsSession.disk ∧
    (stubRun (.exited 1) ["compile", "catalog.json", "-i", "Ns.IThing"]).exitCode = 1 ∧
    (∀ p, Disk.entry? (stubRun (.exited 1) ["compile", "catalog.json", "-i", "Ns.IThing"]).disk p =
      twinsSession.disk.entry? p) ∧
    (stubRun (.exited 0) ["compile", "catalog.json", "-i", "Ns.IThing"]).exitCode = 0 ∧
    ∃ d, (∀ p, d.entry? p = twinsSession.disk.entry? p) ∧ Disk.Wrote d ["IThingSvc.dll"] [77, 90]
      (stubRun (.exited 0) ["compile", "catalog.json", "-i", "Ns.IThing"]).disk := by
  have hgenerate : Request.ofArgs ["generate", "catalog.json", "-i", "Ns.IThing", "-i", "IOther"] =
      .ok ⟨none, 0, .generate "catalog.json" ["Ns.IThing", "IOther"] "." none false⟩ := rfl
  have hcompile : Request.ofArgs ["compile", "catalog.json", "-i", "Ns.IThing"] =
      .ok ⟨none, 0, .compile "catalog.json" "Ns.IThing" [] "csc" none false none⟩ := rfl
  have hfind : twins.catalog.find? "Ns.IThing" = some (thing "Ns" "A") := rfl
  have hnone : twins.catalog.find? "IOther" = none := by decide +kernel
  have hcompiles (status : ExitStatus) :=
    ((run_all_or_nothing (stub status) [] _ [] _ _ hcompile).2 _ _ _ _ _ _ _ rfl).2 _ _ hostAt_twins hfind
  obtain ⟨hcode, hdisk⟩ := (run_all_or_nothing (stub (.exited 0)) [] _ [] _ _ hgenerate).1 _ _ _ _ _ rfl
    (.missing (hostAt_eq_ok_iff.mp hostAt_twins).1 (by simp) hnone)
  refine ⟨hcode, hdisk, ?_⟩
  have hbad : (stubRun (.exited 1) ["compile", "catalog.json", "-i", "Ns.IThing"]).exitCode = 1 ∧
      ∀ p, Disk.entry? (stubRun (.exited 1) ["compile", "catalog.json", "-i", "Ns.IThing"]).disk p =
        twinsSession.disk.entry? p := by
    obtain ⟨-, hfails, -, -, -, hleft⟩ := hcompiles (.exited 1)
    obtain ⟨run, hran, hstatus, herrors, hshown, -⟩ := ran_twins (.exited 1)
    have hblamed := hran.comes_of_blames (.ended herrors (by rw [hstatus]; decide) hshown)
    obtain ⟨hcode, hdisk⟩ := hfails _ hblamed.1
    exact ⟨hcode, fun p => hdisk ▸ (hleft vacant_twins (confined_stub _)).2 (by decide) p⟩
  refine ⟨hbad.1, hbad.2, ?_⟩
  obtain ⟨-, -, -, hwritten, -, hleft⟩ := hcompiles (.exited 0)
  obtain ⟨run, hran, hstatus, herrors, -, himage⟩ := ran_twins (.exited 0)
  have hsame := (hleft vacant_twins (confined_stub _)).2 (by decide)
  have hdirectories := Disk.sameDirectories_of_kept hsame
  have hplace : twinsSession.disk.place [] "IThingSvc.dll" = .ok ["IThingSvc.dll"] :=
    Disk.place_of_follow (by decide) (by simp) (by decide) (by decide) rfl
  obtain ⟨d, hwrite, hwrote⟩ := Disk.exists_write (Disk.stored_name (by decide) (by decide) (by decide))
    (Disk.place_of_sameDirectories hdirectories (by decide) hplace) ((hdirectories _).trans rfl) [77, 90]
  have hpath : (none : Option String).getD s!"{thingUnit.className}.dll" = "IThingSvc.dll" := by
    rw [thingUnit_className]
    rfl
  obtain ⟨hzero, hdisk, -⟩ := hwritten _ _ d (hran.comes_of_image hstatus herrors himage).1 rfl (hpath ▸ hwrite)
  exact ⟨hzero, _, hsame, hdisk ▸ hwrote⟩

/-! ## A source that stays behind -/

/-- A host of one interface whose name has no letter. -/
def bareCatalog : Catalog :=
  .ofParts none [{ type := .named "Ns._" }]

/-- A profile that has a path in place of a suffix. -/
def strayProfile : String :=
  "class_suffix = \"../Leaked\"\n"

/-- A directory with the catalog and the profile. -/
def strayDisk : Disk :=
  ⟨[(["catalog.json"], .file (Text.toUtf8 bareCatalog.toJson) false),
    (["host.toml"], .file (Text.toUtf8 strayProfile) false)]⟩

/-- A workshop whose compiler fails and does nothing else. -/
def idleWorkshop : Workshop :=
  ⟨fun disk _ _ _ => .ok ⟨.exited 1, [], [], disk⟩, ["tmp", "proxies"]⟩

/-- Scratch directories are made in the working directory. -/
def strayEnvironment : List (String × String) :=
  [("TMPDIR", ".")]

/-- Arguments that ask for the one interface. -/
def strayArgs : List String :=
  ["compile", "catalog.json", "--interface", "Ns._", "--compiler", "false", "--config", "host.toml"]

theorem wellTyped_bare : bareCatalog.WellTyped := by
  have htype := (TypeExpr.compact_of_parse (s := "Ns._") (t := .named "Ns._") (by decide +kernel)).1
  refine ⟨fun t ht => (nomatch ht), fun i hi => ?_⟩
  obtain rfl := List.mem_singleton.mp hi
  exact ⟨htype, fun _ h => absurd h List.not_mem_nil, fun _ h => absurd h List.not_mem_nil,
    fun _ h => absurd h List.not_mem_nil, fun _ h => absurd h List.not_mem_nil⟩

theorem readCatalog_stray : readCatalog strayDisk [] "catalog.json" = .ok bareCatalog := by
  have htext : strayDisk.readText [] "catalog.json" = .ok bareCatalog.toJson := by
    have hplace : strayDisk.place [] "catalog.json" = .ok ["catalog.json"] :=
      Disk.place_of_follow (by decide) (by simp) (by decide) (by decide) rfl
    exact Disk.readText_of_entry (Disk.stored_name (by decide) (by decide) (by decide)) hplace rfl
  exact readCatalog_of_readText htext (Catalog.ofJson_eq_ofParts wellTyped_bare)

theorem exists_readProfile_stray :
    ∃ p, readProfile strayDisk [] (some "host.toml") = .ok p ∧ p.classSuffix = "../Leaked" := by
  have htext : strayDisk.readText [] "host.toml" = .ok strayProfile := by
    have hplace : strayDisk.place [] "host.toml" = .ok ["host.toml"] :=
      Disk.place_of_follow (by decide) (by simp) (by decide) (by decide) rfl
    exact Disk.readText_of_entry (Disk.stored_name (by decide) (by decide) (by decide)) hplace rfl
  have hread : (Profile.ofToml strayProfile).toOption.map (·.classSuffix) = some "../Leaked" := by decide +kernel
  cases hprofile : Profile.ofToml strayProfile with
  | error e =>
    rw [hprofile] at hread
    cases hread
  | ok p =>
    rw [hprofile] at hread
    exact ⟨p, readProfile_of_readText htext hprofile, Option.some.inj hread⟩

theorem within_stray : idleWorkshop.within strayEnvironment strayDisk [] =
    { idleWorkshop with scratch := ["proxies"] } := by
  have hplace : strayDisk.place [] "." = .ok [] :=
    Disk.place_of_follow (by decide) (by simp) (by decide) (by decide) rfl
  have hlookup : strayEnvironment.lookup "TMPDIR" = some "." := by decide
  unfold Workshop.within
  rw [hlookup]
  dsimp only
  rw [if_neg (by decide), hplace]
  rfl

theorem vacant_stray : strayDisk.Vacant ["proxies"] where
  inside := by decide
  named := by decide
  around := by decide
  empty := by
    rintro _ ⟨rest, rfl⟩
    rfl

/-- The source of a class with this name is written beside the scratch directory. -/
theorem exists_prepared_stray {unit : ProxyUnit} (hclass : unit.className = "../Leaked") :
    ∃ ready, Compile.Command.prepared ["proxies"] unit strayDisk = .ok ready ∧
      Disk.Wrote (strayDisk.withDirectory ["proxies"]) ["Leaked.cs"] (Text.toUtf8 (Source.render unit)) ready := by
  have hplace : (strayDisk.withDirectory ["proxies"]).place ["proxies"] "/proxies/../Leaked.cs" = .ok ["Leaked.cs"] :=
    Disk.place_of_follow (by decide) (by simp) (by decide) (by decide) rfl
  have hstored : Disk.Stored "/proxies/../Leaked.cs" := Disk.stored_extension "/proxies/../Leaked"
  unfold Compile.Command.prepared
  rw [hclass]
  exact Disk.exists_write hstored hplace rfl _

/-- **A source stays behind** in the working directory after a run that failed, although there was a scratch directory
    and the compiler did nothing at all. -/
theorem run_leaves_source :
    let workshop := idleWorkshop.within strayEnvironment strayDisk []
    let o := run idleWorkshop strayEnvironment strayDisk [] strayArgs
    strayDisk.Vacant workshop.scratch ∧ Compile.Command.Confined workshop.launch workshop.scratch ∧ o.exitCode = 1 ∧
      strayDisk.entry? ["Leaked.cs"] = none ∧
      ∃ content executable, o.disk.entry? ["Leaked.cs"] = some (.file content executable) := by
  obtain ⟨profile, hprofile, hsuffix⟩ := exists_readProfile_stray
  let h : HostModel := ⟨bareCatalog, profile, .empty⟩
  have hhost : hostAt strayDisk [] "catalog.json" (some "host.toml") = .ok h :=
    hostAt_eq_ok_iff.mpr ⟨readCatalog_stray, hprofile, rfl⟩
  let unit := (h.spec { type := .named "Ns._" }).synthesize.1
  have hclass : unit.className = "../Leaked" := by
    rw [h.spec_className, HostModel.className, hsuffix]
    decide +kernel
  obtain ⟨ready, hready, hwrote⟩ := exists_prepared_stray hclass
  have hran : ({ program := "false" } : Compile.Command).Ran idleWorkshop.launch ["proxies"] unit [] strayDisk
      ⟨.exited 1, [], [], ready⟩ := ⟨ready, hready, rfl⟩
  have hrequest : Request.ofArgs strayArgs =
      .ok ⟨none, 0, .compile "catalog.json" "Ns._" [] "false" none false (some "host.toml")⟩ := rfl
  obtain ⟨r, hcode, hsettles⟩ := run_settles hrequest hhost rfl
  rw [within_stray] at hsettles ⊢
  -- the compiler is blamed for how it ended, and the disk is what it was given, without the scratch directory
  have hblames : ({ program := "false" } : Compile.Command).Blames ⟨.exited 1, [], [], ready⟩ _ :=
    .ended (lines_of_silent rfl rfl).1 (ne_of_beq_false rfl) (lines_of_silent rfl rfl).2
  obtain ⟨hone, hdisk⟩ := hsettles.of_error (hran.comes_of_blames hblames).1
  refine ⟨vacant_stray, ?_, hcode.trans hone, rfl, ?_⟩
  · intro disk program args run hrun
    obtain rfl := Except.ok.inj hrun
    exact .refl _ disk
  · obtain ⟨executable, hentry⟩ := hwrote.holds
    have hdisk : (run idleWorkshop strayEnvironment strayDisk [] strayArgs).disk = ready.removeAll ["proxies"] :=
      hdisk.trans ((compile_cases _ unit [] strayDisk).1.trans hran.disk_eq)
    refine ⟨Text.toUtf8 (Source.render unit), executable, ?_⟩
    rw [hdisk, Disk.entry?_removeAll (by decide), if_neg (by decide)]
    exact hentry

end Run

end BoundaryProxy.CommandLine
