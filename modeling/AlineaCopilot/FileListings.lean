import AlineaCopilot.FileService
import AlineaCopilot.InterleavedRequests
open AlineaCopilot.RustPaths AlineaCopilot.KeyedMaps AlineaCopilot.InterleavedRequests

namespace AlineaCopilot.FileListings
open FileService

-- A listing kept in `workspace_files_cache`. The key is the canonical root as
-- text; the root itself and the moment its files were read are noted beside it.
structure Cached where
  root : Place
  files : List WorkspaceFlatFile
  readAt : Nat

-- A listing that was returned: the changes whose calls had returned when it
-- began, and the moment it returned.
structure Listed where
  root : Place
  files : List WorkspaceFlatFile
  settled : List Nat
  moment : Nat

-- A moment is counted by the changes of the disk before it. Change `j` leads from
-- moment `j` to moment `j + 1`.
structure Service (D : Type) where
  past : List D
  disk : D
  cache : KeyedMap String Cached
  broadcasts : List ContentUpdateEvent
  settled : List Nat
  listed : List Listed

inductive Call where
  | listWorkspaceFiles (root : String)
  | writeFile (path : String) (data : List UInt8) (workspace : String)
  | copyFilesToWorkspace (filePaths : List String) (workspace : String) (sourceRoot : Option String)
  | removeEntry (path workspace : String)
  | renameEntry (path newName : String)

inductive Answer where
  | files (files : List WorkspaceFlatFile)
  | written (success : Bool)
  | copied (result : CopyResult)
  | removed
  | renamed (newPath : String)

-- Where a call stands in its own code. What it does to the disk for one path is
-- one step, and so is each look at the disk or at the cache.
inductive Stage where
  | fresh
  | looking (root : Place) (settled : List Nat)
  | walking (root : Place) (settled : List Nat)
  | storing (root : Place) (files : List WorkspaceFlatFile) (readAt : Nat) (settled : List Nat)
  | writing (canonical : Place) (data : List UInt8) (workspace : String)
  | copying (workspace : Place) (sourceRoot : Option Place) (rest : List String) (result : CopyResult) (changes : List Nat)
  | removing (canonical : Place) (workspace : String)
  | moving (canonical : Place) (newName : String)
  | announcing (canonical : Place) (content : Option String) (operation : ContentUpdateOperation) (workspace : String)
      (changes : List Nat) (answer : Answer)
  | resolving (workspace : String) (changes : List Nat) (answer : Answer)
  | returning (key : Option String) (changes : List Nat) (result : Except FileError Answer)
  | returned (result : Except FileError Answer)

variable {D : Type}

def Service.diskAt (s : Service D) (moment : Nat) : Option D := (s.past ++ [s.disk])[moment]?

def Service.changed (s : Service D) (disk : D) : Service D := { s with past := s.past ++ [s.disk], disk := disk }

def Service.now (s : Service D) : Nat := s.past.length

def Service.returns (s : Service D) (root : Place) (files : List WorkspaceFlatFile) (settled : List Nat) : Service D :=
  { s with listed := s.listed ++ [⟨root,files,settled,s.now⟩] }

-- What a call checks before it touches the disk or the cache.
def begin_ (fs : Fs D) (allowedRoots : List String) (s : Service D) : Call → Except FileError Stage
  | .listWorkspaceFiles root => do
    let canonicalRoot ← validatePath fs s.disk root allowedRoots
    return .looking canonicalRoot s.settled
  | .writeFile path data workspace => do
    refuseTraversal path
    let canonical ← validatePathForWrite fs s.disk path allowedRoots
    return .writing canonical data workspace
  | .copyFilesToWorkspace filePaths workspace sourceRoot => do
    let wsCanonical ← validatePath fs s.disk workspace allowedRoots
    let srCanonical ← sourceRoot.mapM (validatePath fs s.disk · allowedRoots)
    return .copying wsCanonical srCanonical filePaths ⟨[],[]⟩ []
  | .removeEntry path workspace => do
    refuseTraversal path
    let canonical ← validatePath fs s.disk path allowedRoots
    return .removing canonical workspace
  | .renameEntry path newName => do
    refuseTraversal path
    if newName.toList.contains '/' || newName.toList.contains '\\' then
      throw (.badRequest ("new name '" ++ newName ++ "' must not contain path separators"))
    let canonical ← validatePath fs s.disk path allowedRoots
    return .moving canonical newName

-- `strip_prefix(canonicalize(workspace).unwrap_or(workspace)).unwrap_or(canonical)`
def relativeTo (fs : Fs D) (disk : D) (canonical : Place) (workspace : String) : String :=
  let base := match fs.canonicalize disk workspace with
    | .ok place => some place
    | .error _ => placeOf workspace
  ((base.bind (stripPrefix canonical)).map lossyRelative).getD (lossy canonical)

def advance (fs : Fs D) (allowedRoots : List String) (s : Service D) : Stage → Option Call → Option (Service D × Stage)
  | .fresh,some call => some (s,match begin_ fs allowedRoots s call with
      | .ok stage => stage
      | .error e => .returned (.error e))
  | .looking root settled,none => match s.cache.lookup (lossy root) with
      | some cached => some (s.returns root cached.files settled,.returned (.ok (.files cached.files)))
      | none => some (s,.walking root settled)
  | .walking root settled,none =>
      some (s,.storing root (listWorkspaceFilesSync fs s.disk root) s.now settled)
  | .storing root files readAt settled,none =>
      some ({ s with cache := s.cache.insert (lossy root) ⟨root,files,readAt⟩ }.returns root files settled,
        .returned (.ok (.files files)))
  | .writing canonical data workspace,none => match writeFileSync fs s.disk canonical data with
      | (disk,.ok success) => some (s.changed disk,.announcing canonical (String.fromUTF8? ⟨data.toArray⟩) .write workspace
          [s.now] (.written success))
      | (disk,.error e) => some (s.changed disk,.returning none [s.now] (.error e))
  | .copying _ _ [] result changes,none => some (s,.returning none changes (.ok (.copied result)))
  | .copying workspace sourceRoot (filePath :: rest) result changes,none =>
      let (disk,result) := copyFile fs allowedRoots workspace sourceRoot s.disk filePath result
      some (s.changed disk,.copying workspace sourceRoot rest result (changes ++ [s.now]))
  | .removing canonical workspace,none => match removeEntrySync fs s.disk canonical with
      | (disk,.ok ()) => some (s.changed disk,.announcing canonical none .delete workspace [s.now] .removed)
      | (disk,.error e) => some (s.changed disk,.returning none [s.now] (.error e))
  | .moving canonical newName,none => match renameEntrySync fs s.disk canonical newName with
      | (disk,.ok newPath) => some (s.changed disk,.returning none [s.now] (.ok (.renamed (lossy newPath))))
      | (disk,.error e) => some (s.changed disk,.returning none [s.now] (.error e))
  | .announcing canonical content operation workspace changes answer,none =>
      let event := ⟨lossy canonical,content,workspace,relativeTo fs s.disk canonical workspace,operation⟩
      some ({ s with broadcasts := s.broadcasts ++ [event] },.resolving workspace changes answer)
  -- The root that the caller named is the one whose listing goes.
  | .resolving workspace changes answer,none => match fs.canonicalize s.disk workspace with
      | .ok canonicalWs => some (s,.returning (some (lossy canonicalWs)) changes (.ok answer))
      | .error _ => some (s,.returning none changes (.ok answer))
  | .returning key changes result,none =>
      some ({ s with cache := key.elim s.cache s.cache.erase,settled := s.settled ++ changes },.returned result)
  | _,_ => none

end AlineaCopilot.FileListings
