import Petrus.Lib.Dict
import Petrus.Lib.Files
import Petrus.Motus.Execution

/-!
# Workspace archives

A workspace is archived member by member in the order of its paths, and an archive is
extracted only after one gate has accepted every member, through the filter `data` of the
archive library. The archive format itself is a pair of functions that write and read a list
of members.
-/

namespace Petrus.Motus

open Lib

def maxArchiveBytes : Nat := 512 * 1024 * 1024

def maxArchiveMembers : Nat := 200000

def maxExtractedBytes : Nat := 2 * 1024 * 1024 * 1024

inductive MemberKind where
  | file (data : Bytes)
  | dir
  | symlink (linkname : String)
  | hardlink (linkname : String)
  | other
  deriving DecidableEq

structure Member where
  name : String
  kind : MemberKind
  deriving DecidableEq

/-- An archive format that loses nothing; `read` answers `none` for bytes it cannot read. -/
structure Tar where
  write : List Member → Bytes
  read : Bytes → Option (List Member)
  faithful : ∀ members, read (write members) = some members

/-! ## Archiving -/

inductive Entry where
  | dir
  | file (inode : Nat)
  | link (target : String)
  | special
  deriving DecidableEq

/-- What is under the root of a workspace, in any order. -/
structure Workspace where
  entries : List (Location × Entry)
  body : Nat → Bytes
  nodup : (entries.map Prod.fst).Nodup
  named : ∀ e ∈ entries, e.1 ≠ [] ∧ ∀ c ∈ e.1, IsName c
  closed : ∀ e ∈ entries, e.1.dropLast ≠ [] → (e.1.dropLast, Entry.dir) ∈ entries

def asPosix (path : Location) : String := (PurePath.relative path).posix

namespace Workspace

variable (w : Workspace)

def paths : List (Location × Entry) :=
  w.entries.mergeSort fun a b => decide (asPosix a.1 ≤ asPosix b.1)

def stSize : Entry → Nat
  | .file inode => (w.body inode).length
  | _ => 0

/-- The header of one path; `inodes` holds the name each file was first archived under. -/
def gettarinfo (inodes : List (Nat × String)) (path : Location) :
    Entry → Member × List (Nat × String)
  | .dir => (⟨asPosix path, .dir⟩, inodes)
  | .link target => (⟨asPosix path, .symlink target⟩, inodes)
  | .special => (⟨asPosix path, .other⟩, inodes)
  | .file inode =>
    match Dict.lookup inode inodes with
    | some first => (⟨asPosix path, .hardlink first⟩, inodes)
    | none => (⟨asPosix path, .file (w.body inode)⟩, (inode, asPosix path) :: inodes)

def members (inodes : List (Nat × String)) : List (Location × Entry) → List Member
  | [] => []
  | e :: rest =>
    let info := w.gettarinfo inodes e.1 e.2
    info.1 :: members info.2 rest

end Workspace

def workspaceArchive (tar : Tar) (w : Workspace) : Except Exc Bytes := do
  let paths := w.paths
  require (paths.length ≤ maxArchiveMembers) (valueError "workspace archive has too many members")
  require (∀ e ∈ paths, e.2 ≠ .special)
    (valueError "workspace archive contains an unsupported file")
  require ((paths.map fun e => w.stSize e.2).sum ≤ maxExtractedBytes)
    (valueError "workspace archive exceeds extracted size limit")
  let data := tar.write (w.members [] paths)
  require (data.length ≤ maxArchiveBytes)
    (valueError "workspace archive exceeds transfer size limit")
  return data

/-! ## The gate -/

/-- What the gate remembers of the members before. -/
structure Gate where
  seen : List String
  extracted : Nat

def checkLink (allowLinks : Bool) (m : Member) (target resolved : PurePath) : Except Exc Unit := do
  require (allowLinks = true) (valueError s!"archive links are not permitted: {quoted m.name}")
  require (target.absolute = false ∧ ".." ∉ resolved.parts)
    (valueError s!"unsafe archive link: {quoted m.name}")

def checkKind (allowLinks : Bool) (extracted : Nat) (m : Member) (name : PurePath) :
    Except Exc Nat :=
  match m.kind with
  | .other => .error (valueError s!"unsupported archive member: {quoted m.name}")
  | .dir => .ok extracted
  | .file data => do
    require (extracted + data.length ≤ maxExtractedBytes)
      (valueError "workspace archive exceeds extracted size limit")
    return extracted + data.length
  | .symlink linkname => do
    let target := PurePath.parse linkname
    checkLink allowLinks m target (name.parent.join target)
    return extracted
  | .hardlink linkname => do
    let target := PurePath.parse linkname
    checkLink allowLinks m target target
    return extracted

def checkMember (allowLinks : Bool) (forbiddenRoots : List String) (gate : Gate) (m : Member) :
    Except Exc Gate := do
  let name := PurePath.parse m.name
  require (name.absolute = false ∧ ".." ∉ name.parts)
    (valueError s!"unsafe archive member: {quoted m.name}")
  require (name.posix ∉ gate.seen) (valueError s!"duplicate archive member: {quoted m.name}")
  require (∀ first ∈ name.parts.head?, first ∉ forbiddenRoots)
    (valueError s!"forbidden archive member: {quoted m.name}")
  let extracted ← checkKind allowLinks gate.extracted m name
  return ⟨name.posix :: gate.seen, extracted⟩

def validatedWorkspaceMembers (allowLinks : Bool) (forbiddenRoots : List String)
    (members : List Member) : Except Exc (List Member) := do
  require (members.length ≤ maxArchiveMembers)
    (valueError "workspace archive has too many members")
  let _ ← members.foldlM (checkMember allowLinks forbiddenRoots) ⟨[], 0⟩
  return members

def validateWorkspaceArchive (tar : Tar) (allowLinks : Bool) (forbiddenRoots : List String)
    (data : Bytes) : Except Exc Unit := do
  require (data.length ≤ maxArchiveBytes)
    (valueError "workspace archive exceeds transfer size limit")
  match tar.read data with
  | none => .error (valueError "workspace archive is malformed")
  | some members =>
    let _ ← validatedWorkspaceMembers allowLinks forbiddenRoots members
    return ()

/-! ## Extraction -/

def filterError (name text : String) : Exc := ⟨name, false, text, [quoted text]⟩

/-- A path is resolved, whether anything is there or not, and stays inside the destination. -/
def requireInside (destination : Location) (resolved : Option Location)
    (outside : String → Exc) : Except Exc Unit :=
  match resolved with
  | none => .error (osError "too many levels of symbolic links")
  | some l => require (destination <+: l) (outside (quoted (PurePath.mk true l).posix))

def filterLink (fs : Files Bytes) (depth : Nat) (destination : Location) (m : Member)
    (directory : List String) (linkname : String) : Except Exc String := do
  require ((PurePath.parse linkname).absolute = false)
    (filterError "AbsoluteLinkError" s!"{quoted m.name} is a link to an absolute path")
  requireInside destination
    (fs.realpath depth destination (directory ++ PurePath.names linkname)) fun path =>
      filterError "LinkOutsideDestinationError"
        s!"{quoted m.name} would link to {path}, which is outside the destination"
  return PurePath.normpath linkname

/-- The filter `data`, on the files extracted so far: a leading slash of the name is dropped, link
targets are rewritten to their normal form. -/
def dataFilter (fs : Files Bytes) (depth : Nat) (destination : Location) (m : Member) :
    Except Exc Member := do
  requireInside destination (fs.realpath depth destination (PurePath.names m.name)) fun path =>
    filterError "OutsideDestinationError"
      s!"{quoted m.name} would be extracted to {path}, which is outside the destination"
  match m.kind with
  | .file _ | .dir => return m
  | .symlink linkname => do
    let linkname ← filterLink fs depth destination m (PurePath.names m.name).dropLast linkname
    return { m with kind := .symlink linkname }
  | .hardlink linkname => do
    let linkname ← filterLink fs depth destination m [] linkname
    return { m with kind := .hardlink linkname }
  | .other => .error (filterError "SpecialFileError" s!"{quoted m.name} is a special file")

def place (limit : Nat) (destination base : Location) (c : String) :
    MemberKind → Act (Files Bytes) Exc Unit
  | .file data => Files.write limit base c data
  | .dir => Files.mkdir limit base c
  | .symlink linkname => Files.symlink linkname base c
  | .hardlink linkname =>
    Files.hardlink limit destination (PurePath.parse linkname).parts base c
  | .other => pure () -- the filter lets none through

def extractMember (depth limit : Nat) (destination : Location) (m : Member) :
    Act (Files Bytes) Exc Unit := do
  let fs ← Act.get
  let m ← Act.lift (dataFilter fs depth destination m)
  let parts := (PurePath.parse m.name).parts
  match parts.getLast? with
  | none => if m.kind = .dir then pure () else Act.throw (osError "is a directory")
  | some c => do
    let base ← Files.makedirs limit destination parts.dropLast
    place limit destination base c m.kind

/-- `depth` is a number of links that no extraction exceeds, `limit` how many the system follows. -/
def extractall (depth limit : Nat) (destination : Location) :
    List Member → Act (Files Bytes) Exc Unit
  | [] => pure ()
  | m :: rest => do
    extractMember depth limit destination m
    extractall depth limit destination rest

def extractWorkspaceArchive (tar : Tar) (limit : Nat) (data : Bytes) (destination : Location) :
    Act (Files Bytes) Exc Unit := do
  Act.lift (require (data.length ≤ maxArchiveBytes)
    (valueError "workspace archive exceeds transfer size limit"))
  match tar.read data with
  | none => Act.throw ⟨"ReadError", false, "file could not be opened successfully", []⟩
  | some members => do
    let accepted ← Act.lift (validatedWorkspaceMembers true [] members)
    extractall accepted.length limit destination accepted

end Petrus.Motus
