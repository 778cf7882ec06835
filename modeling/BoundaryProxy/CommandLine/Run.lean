import BoundaryProxy.CommandLine.Help
import BoundaryProxy.CommandLine.HostModel
import BoundaryProxy.CommandLine.Request
import BoundaryProxy.CommandLine.Terminal
import BoundaryProxy.Compile.Command
import BoundaryProxy.Registry.Document
import BoundaryProxy.Synthesis.Basic

/-!
# `BoundaryProxy.CommandLine.Run` — running commands

A run takes the disk it works on and gives the disk as it is afterwards, together with what was written to
the terminal and the exit code. A command that fails stops where it fails: what it did before stays done.
Each command reads everything it needs before it writes anything.
-/

namespace BoundaryProxy.CommandLine

open BoundaryProxy.Host

/-- What a command works on. -/
structure Session where
  disk : Disk
  here : Place
  terminal : Terminal

/-- A command that is running. -/
abbrev Run := ExceptT Failure (StateM Session)

namespace Run

/-- Change what has been written. -/
def onTerminal (change : Terminal → Terminal) : Run Unit :=
  modify fun s => { s with terminal := change s.terminal }

/-- Write a result. -/
def print (text : String) : Run Unit :=
  onTerminal (·.print text)

/-- Write a result in a style. -/
def printStyled (style : Style) (text : String) : Run Unit :=
  onTerminal (·.printStyled style text)

/-- Write diagnostics. -/
def report (ds : List Diagnostic) : Run Unit :=
  onTerminal fun t => ds.foldl Terminal.report t

/-- Write how many errors and warnings there were. -/
def summarize : Run Unit :=
  onTerminal Terminal.summarize

/-- Ask for something that depends on the disk alone. -/
def consult {α : Type} (question : Disk → Place → Except Failure α) : Run α := do
  let s ← get
  question s.disk s.here

/-- Change the disk; a fault becomes the failure of the command. -/
def change (failure : IoFault → Failure) (action : Disk → Place → Except IoFault Disk) : Run Unit := do
  let s ← get
  match action s.disk s.here with
  | .ok disk => set { s with disk }
  | .error fault => throw (failure fault)

/-- Write a file. A path may also lead to one of the streams that results and reports go to. -/
def write (failure : IoFault → Failure) (path : String) (content : List UInt8) : Run Unit := do
  let s ← get
  change failure fun disk here => disk.write here path content
  let text := String.ofList (Text.ofUtf8Lossy content)
  match s.disk.device? s.here path with
  | some (.stream 1) => onTerminal (·.print text)
  | some (.stream 2) => onTerminal (·.complain text)
  | _ => return ()

/-! ## Commands -/

/-- Read what a command knows of the host. -/
def loadHost (catalogPath : String) (named : Option String) : Run HostModel := do
  let catalog ← consult fun disk here => readCatalog disk here catalogPath
  let profile ← consult fun disk here => readProfile disk here named
  let (registries, diagnostics) := findRegistries catalog profile
  report diagnostics
  return ⟨catalog, profile, ← registries⟩

/-- Synthesize the proxy of an interface and report what it does not offer. -/
def synthesize (spec : ProxySpec) : Run ProxyUnit := do
  let (unit, notices) := spec.synthesize
  report (notices.map (·.diagnostic))
  return unit

/-- Write the proxy of an interface to a file of the class's name. -/
def writeProxy (h : HostModel) (directory : String) (i : Interface) : Run Unit := do
  let unit ← synthesize (h.spec i)
  let path := Disk.join directory s!"{unit.className}.cs"
  write (.cannotWrite path) path (Text.toUtf8 (Source.render unit))
  printStyled .success "Generated "
  print s!"{unit.className} "
  printStyled .info path
  print "\n"

/-- Print the proxy of an interface. -/
def printProxy (h : HostModel) (i : Interface) : Run Unit := do
  print (Source.render (← synthesize (h.spec i)))

/-- Write or print the proxies of interfaces. -/
def generate (catalogPath : String) (names : List String) (directory : String) (named : Option String)
    (toStdout : Bool) : Run Unit := do
  let h ← loadHost catalogPath named
  let targets ← h.targets names
  if toStdout then targets.forM (printProxy h)
  else
    change (.cannotCreate directory) fun disk here => disk.makeDirectories here directory
    targets.forM (writeProxy h directory)
    printStyled .heading s!"{targets.length} proxy class(es) written"
    print "\n"
  summarize

/-- Compile the proxy of an interface with a backend. -/
def compileWith (backend : Compile.Backend) (catalogPath name : String) (references : List String)
    (image : Option String) (named : Option String) : Run Unit := do
  let h ← loadHost catalogPath named
  let i ← h.find name
  let unit ← synthesize (h.spec i)
  let c := compile backend unit references (← get).disk
  modify fun s => { s with disk := c.disk }
  report (c.notices.map (·.diagnostic))
  summarize
  let compiled : Except Failure Compile.Artifact := c.result.mapError (Failure.notCompiled unit.className)
  let artifact ← compiled
  match artifact.image with
  | some bytes =>
    let path := image.getD s!"{artifact.assemblyName}.dll"
    write (.cannotWrite path) path bytes
    printStyled .success "Compiled "
    print s!"{artifact.assemblyName} "
    printStyled .info path
  | none =>
    printStyled .success "Checked "
    print artifact.assemblyName
  print "\n"

/-- Print a registry and the path at which it is reached. -/
def printRegistry (p : Profile) (d : RegistryDescriptor) : Run Unit := do
  printStyled .heading d.name
  print s!"  {d.registryType} -> {d.memberType} (key {d.keyType})\n"
  printStyled .info s!"    {p.registryPathFor d.name}"
  print "\n"

/-- Print the registries of the host. -/
def listRegistries (catalogPath : String) (named : Option String) (asJson : Bool) : Run Unit := do
  let h ← loadHost catalogPath named
  let descriptors := h.registries.descriptors
  if asJson then print (Json.pretty (.list (descriptors.map RegistryDescriptor.document)) ++ "\n")
  else if descriptors.isEmpty then print "No registries discovered.\n"
  else descriptors.forM (printRegistry h.profile)
  summarize

/-- Write the default profile. -/
def initConfig (path : String) (force : Bool) : Run Unit := do
  let s ← get
  if !force && s.disk.exists? s.here path then throw (.profileExists path)
  write (.profileNotWritten path) path (Text.toUtf8 Profile.default.toToml)
  printStyled .success "Created "
  print s!"{path}\n"

end Run

/-- Where programs come from and where they may work. -/
structure Workshop where
  launch : Launcher
  scratch : Place

/-- The workshop in an environment. Where `TMPDIR` is set, scratch directories are made in the directory that it
names, or in the working directory if it is empty; if there is no such directory, no program can be started. -/
def Workshop.within (w : Workshop) (environment : List (String × String)) (disk : Disk) (here : Place) : Workshop :=
  match environment.lookup "TMPDIR" with
  | none => w
  | some path =>
    let closed : Workshop := { w with launch := fun _ _ _ _ => .error .notFound }
    match disk.place here (if path.isEmpty then "." else path) with
    | .ok p => if disk.isDirectory p then { w with scratch := p ++ w.scratch.getLast?.toList } else closed
    | .error _ => closed

/-- The backend that a command asks for. -/
def backendOf (w : Workshop) (compiler : String) (checkOnly : Bool) : Compile.Backend :=
  if checkOnly then Compile.checkBackend
  else ({ program := compiler } : Compile.Command).backend w.launch w.scratch

/-- Run a command. -/
def Command.run (w : Workshop) : Command → Run Unit
  | .generate catalog interfaces directory profile toStdout =>
    Run.generate catalog interfaces directory profile toStdout
  | .compile catalog interface references compiler image checkOnly profile =>
    Run.compileWith (backendOf w compiler checkOnly) catalog interface references image profile
  | .registries catalog profile asJson => Run.listRegistries catalog profile asJson
  | .initConfig path force => Run.initConfig path force

/-! ## The program -/

/-- What a run comes to. -/
structure Outcome where
  exitCode : Nat
  stdout : String
  stderr : String
  disk : Disk

/-- The version of the program. -/
def versionText : String :=
  "proxygen 0.2.0\n"

/-- What is answered without running a command. -/
def Reply.outcome (disk : Disk) : Reply → Outcome
  | .version => ⟨0, versionText, "", disk⟩
  | .help topic => ⟨0, topic.text, "", disk⟩
  | .flaw f => ⟨2, "", s!"error: {f.text}\n\nFor more information, try '--help'.\n", disk⟩

/-- Run the program on its arguments. -/
def run (w : Workshop) (environment : List (String × String)) (disk : Disk) (here : Place)
    (args : List String) : Outcome :=
  match Request.ofArgs args with
  | .error reply => reply.outcome disk
  | .ok request =>
    let session : Session := ⟨disk, here, { colored := usesColor environment request.color }⟩
    let (result, s) := (request.command.run (w.within environment disk here)).run session
    match result with
    | .ok () => ⟨0, s.terminal.stdout, s.terminal.stderr, s.disk⟩
    | .error failure => ⟨1, s.terminal.stdout, s.terminal.stderr ++ failure.text, s.disk⟩

end BoundaryProxy.CommandLine
