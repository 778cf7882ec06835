import BoundaryProxy.Shell.Utility.Option

/-!
# `BoundaryProxy.Shell.Utility.Basic` — the programs that every system has

The few programs that scripts find in the directories of the search path beside the shell. They write to the
descriptors of the process that runs them, and know its working directory and the name that they are called by.
-/

namespace BoundaryProxy.Shell

open Host

/-! ## Names in paths -/

/-- The last name in a path, or what stands for it. -/
def lastName (path : String) : String :=
  match (Disk.names path).getLast? with
  | some name => name
  | none => if path.isEmpty then "" else "/"

/-- A name without an ending, unless it is nothing else. -/
def withoutEnding (ending name : String) : String :=
  let s := name.toList
  if !ending.isEmpty && ending.toList.isSuffixOf s && ending.length != name.length then
    String.ofList (s.take (s.length - ending.length))
  else name

/-- Print the last name in a path, without an ending if one is given. -/
def runBaseName (args : List String) : Action Nat :=
  UtilitySpec.run { permutes := false } args fun a => do
    match a.operands with
    | [] => misuse "missing operand"
    | [path] => emitText ((lastName path).toList ++ ['\n'])
    | [path, ending] => emitText ((withoutEnding ending (lastName path)).toList ++ ['\n'])
    | _ :: _ :: extra :: _ => misuse s!"extra operand {quotedArgument extra}"

/-- What a path leads to, and where that is. -/
def standing (path : String) : Action (Except IoFault Place) := do
  let st ← get
  match st.world.disk.place st.process.here (decode path) with
  | .error fault => return .error fault
  | .ok p => return if st.world.disk.isTaken p then .ok p else .error .notFound

/-! ## Printing files -/

/-- The bytes of a file, or of standard input where a dash is named. -/
def inputOf (path : String) : Action (Except IoFault (List UInt8)) := do
  if path == "-" then
    match ← openedAt 0 with
    | some (_, o) =>
      match o.target with
      | .file p => if (← world).disk.isDirectory p then return .error .isDirectory
      | _ => pure ()
    | none => return .error .badDescriptor
    return .ok ((← readRest 0).getD [])
  else
    let st ← get
    match st.world.disk.device? st.process.here (decode path) with
    | some (.stream 0) => return .ok ((← readRest 0).getD [])
    | _ => return st.world.disk.read st.process.here (decode path)

/-- Print files one after another, or standard input. -/
def runCat (args : List String) : Action Nat :=
  UtilitySpec.run { letters := "u" } args fun a => do
    if (← openedAt 1).isNone then
      report "standard output: Bad file descriptor"
      return 1
    let paths := if a.operands.isEmpty then ["-"] else a.operands
    let mut status := 0
    for path in paths do
      match ← inputOf path with
      | .ok bytes => if !(← emit bytes) then status := 1
      | .error fault =>
        report s!"{plainPath path}: {reasonOf fault}"
        status := 1
    if paths.contains "-" && (← openedAt 0).isNone then
      report "closing standard input: Bad file descriptor"
    return status

/-! ## Copying files -/

/-- Put a copy of the file at a place at a path. -/
def copyFile (source : Place) (sourcePath targetPath : String) : Action Nat := do
  let complainOf (what : String) (fault : IoFault) : Action Nat := do
    report s!"{what} {quotedPath targetPath}: {reasonOf fault}"
    return 1
  let d := (← world).disk
  let executable := match d.entry? source with
    | some (.file _ executable) => executable
    | _ => false
  let bytes := (d.readAt source).toOption.getD []
  match ← standing targetPath with
  | .error .notFound =>
    match d.newPlace (← process).here (decode targetPath) with
    | .error fault => complainOf "cannot create regular file" fault
    | .ok none => complainOf "cannot create regular file" .notFound
    | .ok (some p) =>
      if Disk.endsInSlash targetPath then complainOf "cannot create regular file" .notDirectory
      else if !d.isDirectory p.dropLast then complainOf "cannot create regular file" .notFound
      else
        onWorld fun w => { w with disk := d.put p (.file bytes executable) }
        return 0
  | .error fault => complainOf "cannot stat" fault
  | .ok p =>
    if d.isDirectory p then
      report s!"cannot overwrite directory {quotedPath targetPath} with non-directory"
      return 1
    else if p == source then
      report s!"{quotedPath sourcePath} and {quotedPath targetPath} are the same file"
      return 1
    else
      match d.writeAt p bytes with
      | .ok disk =>
        onWorld fun w => { w with disk }
        return 0
      | .error fault => complainOf "error writing" fault

/-- Put a copy of the file that a path leads to at another path. -/
def copyOne (source target : String) : Action Nat := do
  match ← standing source with
  | .error fault =>
    report s!"cannot stat {quotedPath source}: {reasonOf fault}"
    return 1
  | .ok p =>
    if (← world).disk.isDirectory p then
      report s!"-r not specified; omitting directory {quotedPath source}"
      return 1
    else copyFile p source target

/-- Copy a file to a path, or files into a directory. -/
def runCopy (args : List String) : Action Nat :=
  UtilitySpec.run { letters := "fp" } args fun a => do
    match a.operands with
    | [] => misuse "missing file operand"
    | [source] => misuse s!"missing destination file operand after {quotedPath source}"
    | operands =>
      let target := operands.getLast?.getD ""
      let sources := operands.dropLast
      let isDirectory := (← entryAt target) == some .directory
      if sources.length > 1 && !isDirectory then
        let reason := match ← standing target with
          | .ok _ => IoFault.notDirectory
          | .error fault => fault
        report s!"target {quotedPath target}: {reasonOf reason}"
        return 1
      let statuses ← sources.mapM fun source =>
        copyOne source (if isDirectory then Disk.join target (lastName source) else target)
      return statuses.foldl max 0

/-! ## Listing directories -/

/-- The names that a listing of a directory shows, each on a line. -/
def directoryListing (options : List Char) (names : List String) : String :=
  let names := names.map encode
  let shown :=
    if options.contains 'a' then "." :: ".." :: names
    else if options.contains 'A' then names
    else names.filter fun name => name.toList.head? != some '.'
  String.join ((shown.mergeSort fun a b => a ≤ b).map (· ++ "\n"))

/-- List files and directories. -/
def runList (args : List String) : Action Nat :=
  UtilitySpec.run { letters := "aA1", failure := 2 } args fun a => do
    let paths := if a.operands.isEmpty then ["."] else a.operands
    let mut found : List (String × Place) := []
    let mut status := 0
    for path in paths do
      match ← standing path with
      | .ok p => found := found ++ [(path, p)]
      | .error fault =>
        report s!"cannot access {quotedPath path}: {reasonOf fault}"
        status := 2
    let d := (← world).disk
    let sorted := found.mergeSort fun x y => x.1 ≤ y.1
    let files := (sorted.filter (!d.isDirectory ·.2)).map fun (path, _) => path ++ "\n"
    let directories := (sorted.filter (d.isDirectory ·.2)).map fun (path, p) =>
      let listing := directoryListing a.options (d.list p)
      if paths.length > 1 then s!"{path}:\n{listing}" else listing
    let blocks := (if files.isEmpty then [] else [String.join files]) ++ directories
    let written ← emitText (String.intercalate "\n" blocks).toList
    return max status (2 * written)

/-! ## The table -/

/-- The programs by name. -/
def utilities : List (String × (List String → Action Nat)) :=
  [("true", fun _ => return 0), ("false", fun _ => return 1), ("basename", runBaseName), ("cat", runCat),
    ("cp", runCopy), ("ls", runList)]

/-- The names of all programs. -/
def programNames : List String :=
  ["sh", "dash", "env"] ++ utilities.map (·.1)

end BoundaryProxy.Shell
