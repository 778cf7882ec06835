import BoundaryProxy.Host.Device
import BoundaryProxy.Text.Utf8

/-!
# `BoundaryProxy.Host.Disk` — a tree of files as a value

Everything the command line reads and writes is a `Disk`: files with their bytes at absolute paths, and
directories. An operation returns the disk after it, or the fault that the system reports; a failed
operation leaves no trace. Where a device stands, nothing is kept on the disk.
-/

namespace BoundaryProxy.Host

/-- Why an operation on files or programs failed. -/
inductive IoFault where
  | notFound
  | noDevice
  | argumentsTooLong
  | badProgram
  | badDescriptor
  | denied
  | fileExists
  | notDirectory
  | isDirectory
  | noSpace
  | nameTooLong
  | tooManyLevels
  | nulInName
  | nulInArgument
  | notText
deriving Repr, DecidableEq

/-- The fault in words. -/
def IoFault.text : IoFault → String
  | notFound => "No such file or directory (os error 2)"
  | noDevice => "No such device or address (os error 6)"
  | argumentsTooLong => "Argument list too long (os error 7)"
  | badProgram => "Exec format error (os error 8)"
  | badDescriptor => "Bad file descriptor (os error 9)"
  | denied => "Permission denied (os error 13)"
  | fileExists => "File exists (os error 17)"
  | notDirectory => "Not a directory (os error 20)"
  | isDirectory => "Is a directory (os error 21)"
  | noSpace => "No space left on device (os error 28)"
  | nameTooLong => "File name too long (os error 36)"
  | tooManyLevels => "Too many levels of symbolic links (os error 40)"
  | nulInName => "file name contained an unexpected NUL byte"
  | nulInArgument => "nul byte found in provided data"
  | notText => "stream did not contain valid UTF-8"

/-- What stands at a place. -/
inductive Entry where
  | file (content : List UInt8) (executable : Bool)
  | directory
deriving Repr, DecidableEq

/-- Files and directories by place; the root is always there. -/
structure Disk where
  entries : List (Place × Entry) := []
deriving Repr, Inhabited

namespace Disk

/-! ## Paths -/

/-- The names in a path, without empty ones. -/
def names (path : String) : List String :=
  ((path.toList.splitOn '/').filter (!·.isEmpty)).map String.ofList

/-- Whether a path begins at the root. -/
def isAbsolute (path : String) : Bool :=
  path.toList.head? == some '/'

/-- Whether a path ends with a slash, so that it can lead to a directory only. -/
def endsInSlash (path : String) : Bool :=
  path.toList.getLast? == some '/'

/-- A path below another; an absolute one replaces it. -/
def join (base path : String) : String :=
  if isAbsolute path || base.isEmpty then path
  else if endsInSlash base then base ++ path
  else base ++ "/" ++ path

/-- Whether a name leads to a place by itself: the place it is looked up from, or the one around it. -/
def isDots (name : String) : Bool :=
  name == "." || name == ".."

/-! ## Places -/

/-- What stands at a place. -/
def entry? (d : Disk) (p : Place) : Option Entry :=
  if p.isEmpty then some .directory else d.entries.lookup p

/-- Whether a directory stands at a place. -/
def isDirectory (d : Disk) (p : Place) : Bool :=
  d.entry? p == some .directory

/-- Whether anything stands at a place. -/
def isTaken (d : Disk) (p : Place) : Bool :=
  (Device.at? p).isSome || (d.entry? p).isSome

/-- Follow names from a place. Everything on the way must be a directory, the end need not exist. -/
def follow (d : Disk) (p : Place) : List String → Except IoFault Place
  | [] => .ok p
  | name :: rest =>
    if (Device.at? p).isSome then .error .notDirectory
    else
      match d.entry? p with
      | none => .error .notFound
      | some (.file ..) => .error .notDirectory
      | some .directory =>
        if name == "." then follow d p rest
        else if name == ".." then follow d p.dropLast rest
        else if 255 < name.utf8ByteSize then .error .nameTooLong
        else follow d (p ++ [name]) rest

/-- Where a path begins, and the names in it; a path is refused if it is empty or too long. -/
def route (here : Place) (path : String) : Except IoFault (Place × List String) :=
  if path.contains '\x00' then .error .nulInName
  else if path.isEmpty then .error .notFound
  else if 4096 ≤ path.utf8ByteSize then .error .nameTooLong
  else .ok (if isAbsolute path then [] else here, names path)

/-- The place a path leads to from a working directory; nothing need stand there, but after a slash at the end
    of the path only a directory may. -/
def place (d : Disk) (here : Place) (path : String) : Except IoFault Place := do
  let (start, names) ← route here path
  let p ← d.follow start names
  if endsInSlash path && d.isTaken p && !d.isDirectory p then .error .notDirectory else .ok p

/-- The place at which a path may put something new, unless its last name leads to a place by itself. -/
def newPlace (d : Disk) (here : Place) (path : String) : Except IoFault (Option Place) := do
  let (start, names) ← route here path
  let p ← d.follow start names
  match names.getLast? with
  | none => return none
  | some name => return if isDots name then none else some p

/-! ## Reading -/

/-- The device a path leads to. -/
def device? (d : Disk) (here : Place) (path : String) : Option Device :=
  match d.place here path with
  | .ok p => Device.at? p
  | .error _ => none

/-- What a path leads to, if it leads to a file or directory. -/
def look? (d : Disk) (here : Place) (path : String) : Option Entry :=
  match d.place here path with
  | .ok p => if (Device.at? p).isSome then none else d.entry? p
  | .error _ => none

/-- Whether a path leads to anything. -/
def exists? (d : Disk) (here : Place) (path : String) : Bool :=
  (d.device? here path).isSome || (d.look? here path).isSome

/-- The bytes of the file at a place. -/
def readAt (d : Disk) (p : Place) : Except IoFault (List UInt8) :=
  match Device.at? p with
  | some .terminal => .error .noDevice
  | some _ => .ok []
  | none =>
    match d.entry? p with
    | some (.file content _) => .ok content
    | some .directory => .error .isDirectory
    | none => .error .notFound

/-- The bytes of the file a path leads to. -/
def read (d : Disk) (here : Place) (path : String) : Except IoFault (List UInt8) := do
  d.readAt (← d.place here path)

/-- The text of the file a path leads to. -/
def readText (d : Disk) (here : Place) (path : String) : Except IoFault String := do
  match Text.ofUtf8? (← d.read here path) with
  | some text => return text
  | none => .error .notText

/-- The names in a directory, in the order of their characters. -/
def list (d : Disk) (p : Place) : List String :=
  (d.entries.filterMap fun (q, _) =>
    match q.getLast? with
    | some name => if q.dropLast = p then some name else none
    | none => none).mergeSort (fun a b => a ≤ b)

/-! ## Writing -/

/-- Put something at a place. -/
def put (d : Disk) (p : Place) (e : Entry) : Disk :=
  if d.entries.any (·.1 = p) then
    ⟨d.entries.map fun (q, old) => if q = p then (q, e) else (q, old)⟩
  else ⟨d.entries ++ [(p, e)]⟩

/-- Write the bytes of the file at a place; a device takes them or does not. -/
def writeAt (d : Disk) (p : Place) (content : List UInt8) : Except IoFault Disk :=
  match Device.at? p with
  | some .full => if content.isEmpty then .ok d else .error .noSpace
  | some .terminal => .error .noDevice
  | some _ => .ok d
  | none =>
    match d.entry? p with
    | some .directory => .error .isDirectory
    | some (.file _ executable) => .ok (d.put p (.file content executable))
    | none => if d.isDirectory p.dropLast then .ok (d.put p (.file content false)) else .error .notFound

/-- The place of the file that a path lets write. A slash at its end asks for a directory, which is refused. -/
def writePlace (d : Disk) (here : Place) (path : String) : Except IoFault Place := do
  match ← d.newPlace here path with
  | none => .error .isDirectory
  | some p => if endsInSlash path || d.isDirectory p then .error .isDirectory else return p

/-- Write the bytes of the file a path leads to. A new file needs a directory to stand in. -/
def write (d : Disk) (here : Place) (path : String) (content : List UInt8) : Except IoFault Disk := do
  d.writeAt (← d.writePlace here path) content

/-- Make one directory. -/
def makeDirectory (d : Disk) (here : Place) (path : String) : Except IoFault Disk := do
  match ← d.newPlace here path with
  | none => .error .fileExists
  | some p => if d.isTaken p then .error .fileExists else return d.put p .directory

/-- Whether a path leads to a directory. -/
def leadsToDirectory (d : Disk) (here : Place) (path : String) : Bool :=
  d.look? here path == some .directory

/-- The path without its last name and without what stands between the names left; nothing is left of a path
    of one name. -/
def parentPath (path : String) : String :=
  (if isAbsolute path then "/" else "") ++
    String.intercalate "/" (shortened path).dropLast
where
  /-- The names, without those that lead to where they are looked up; one at the front of a path that does not
      begin at the root counts. -/
  shortened (path : String) : List String :=
    match names path with
    | [] => []
    | name :: rest =>
      let rest := rest.filter (· != ".")
      if name == "." && isAbsolute path then rest else name :: rest

/-- Make the directory a path leads to, after those on the way that are missing. A directory that exists is
    kept. -/
def makeDirectoriesUpTo (here : Place) : Nat → Disk → String → Except IoFault Disk
  | 0, _, _ => .error .notFound
  | fuel + 1, d, path =>
    if path.isEmpty || path == "/" then .ok d
    else
      match d.makeDirectory here path with
      | .ok d => .ok d
      | .error .notFound => do
        let d ← makeDirectoriesUpTo here fuel d (parentPath path)
        match d.makeDirectory here path with
        | .ok d => .ok d
        | .error fault => if d.leadsToDirectory here path then .ok d else .error fault
      | .error fault => if d.leadsToDirectory here path then .ok d else .error fault

/-- Make the directory a path leads to and those on the way that are missing. -/
def makeDirectories (d : Disk) (here : Place) (path : String) : Except IoFault Disk :=
  makeDirectoriesUpTo here ((names path).length + 1) d path

/-- Remove what stands at a place with all that stands below it. -/
def removeAll (d : Disk) (p : Place) : Disk :=
  ⟨d.entries.filter fun (q, _) => !p.isPrefixOf q⟩

/-- The places of the directories that a place stands in, the outermost first, without the root. -/
def ancestors (p : Place) : List Place :=
  (List.range (p.length - 1)).map fun n => p.take (n + 1)

/-- The disk with a directory at a place where nothing stands. -/
def ensureDirectory (d : Disk) (p : Place) : Disk :=
  if (d.entry? p).isSome then d else d.put p .directory

/-- The disk with a directory and the directories it stands in. -/
def withDirectory (d : Disk) (p : Place) : Disk :=
  (ancestors p ++ [p]).foldl ensureDirectory d

/-- The disk with a file and the directories it stands in. -/
def withFile (d : Disk) (p : Place) (content : List UInt8) (executable : Bool) : Disk :=
  ((ancestors p).foldl ensureDirectory d).put p (.file content executable)

end Disk

end BoundaryProxy.Host
