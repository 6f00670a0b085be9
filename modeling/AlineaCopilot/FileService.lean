import AlineaCopilot.KeyedMaps
import AlineaCopilot.RustPaths
open AlineaCopilot.RustPaths

namespace AlineaCopilot.FileService

inductive FileError where
  | badRequest (message : String)
  | forbidden (message : String)
  | pathOutsideSandbox (message : String) (field operation : Option String)
  | notFound (message : String)
  | internal (message : String)
  deriving DecidableEq

structure WorkspaceFlatFile where
  name : String
  fullPath : String
  relativePath : String
  deriving DecidableEq

structure CopyResult where
  copiedFiles : List String
  failedFiles : List String

inductive ContentUpdateOperation where
  | write
  | delete

structure ContentUpdateEvent where
  filePath : String
  content : Option String
  workspace : String
  relativePath : String
  operation : ContentUpdateOperation

-- `std::fs` and the walk of the `ignore` crate over some kind of disk. A call
-- that fails may have changed the disk before it did.
structure Fs (D : Type) where
  canonicalize : D → String → Except String Place
  isDir : D → Place → Except String Bool
  isFile : D → Place → Bool
  present : D → Place → Bool
  walk : D → Place → List (Except String Place)
  write : D → Place → List UInt8 → D × Except String Unit
  removeDirAll : D → Place → D × Except String Unit
  removeFile : D → Place → D × Except String Unit
  rename : D → Place → Place → D × Except String Unit
  createDirAll : D → Place → D × Except String Unit
  copy : D → Place → Place → D × Except String Unit

variable {D : Type}

section Paths

def withinRoots (fs : Fs D) (disk : D) (place : Place) (allowedRoots : List String) : Bool :=
  allowedRoots.any fun root => match fs.canonicalize disk root with
    | .ok canonicalRoot => startsWith place canonicalRoot
    | .error _ => false

def outside (path operation : String) : FileError :=
  .pathOutsideSandbox ("path '" ++ path ++ "' is outside the allowed sandbox") (some "path") (some operation)

def validatePath (fs : Fs D) (disk : D) (path : String) (allowedRoots : List String) : Except FileError Place :=
  match fs.canonicalize disk path with
  | .error e => .error (.badRequest ("cannot resolve path '" ++ path ++ "': " ++ e))
  | .ok canonical =>
    if withinRoots fs disk canonical allowedRoots then .ok canonical else .error (outside path "access")

def validatePathForWrite (fs : Fs D) (disk : D) (path : String) (allowedRoots : List String) : Except FileError Place :=
  match parent path,fileName path with
  | none,_ => .error (.badRequest ("path '" ++ path ++ "' has no parent directory"))
  | some _,none => .error (.badRequest ("path '" ++ path ++ "' has no file name component"))
  | some parent,some fileName =>
    match fs.canonicalize disk parent with
    | .error e => .error (.badRequest ("cannot resolve parent of '" ++ path ++ "': " ++ e))
    | .ok canonicalParent =>
      if withinRoots fs disk canonicalParent allowedRoots then .ok (canonicalParent ++ [nameOf fileName])
      else .error (outside path "write")

def hasTraversal (path : String) : Bool :=
  path.toList.contains '\x00' || (components path).any (· == .parentDir)

def refuseTraversal (path : String) : Except FileError Unit :=
  if hasTraversal path then .error (.badRequest ("path '" ++ path ++ "' contains invalid traversal patterns")) else .ok ()

-- `parent`, `join` of a place; joining with nothing leaves a slash at the end.
def placeParent (place : Place) : Option Place :=
  match place.filter (· ≠ []) with
  | [] => none
  | names => some names.dropLast

def join (place relative : Place) : Place := place ++ (if relative = [] then [[]] else relative)

end Paths

section Sync

def maxWorkspaceFiles : Nat := 20000

def workspaceFlatFile (root path : Place) : WorkspaceFlatFile where
  name := (path.getLast?.map lossyName).getD ""
  fullPath := lossy path
  relativePath := ((stripPrefix path root).map lossyRelative).getD (lossy path)

-- Entries that cannot be read and directories, also behind a link, are skipped.
def listWorkspaceFilesSync (fs : Fs D) (disk : D) (root : Place) : List WorkspaceFlatFile :=
  ((fs.walk disk root).filterMap fun
    | .error _ => none
    | .ok path => match fs.isDir disk path with
      | .ok false => some (workspaceFlatFile root path)
      | _ => none).take maxWorkspaceFiles

def mapDisk (change : D × Except String Unit) (message : String → FileError) (value : α) : D × Except FileError α :=
  (change.1,match change.2 with
    | .ok () => .ok value
    | .error e => .error (message e))

def writeFileSync (fs : Fs D) (disk : D) (path : Place) (data : List UInt8) : D × Except FileError Bool :=
  mapDisk (fs.write disk path data) (fun e => .internal ("cannot write file '" ++ lossy path ++ "': " ++ e)) true

def removeEntrySync (fs : Fs D) (disk : D) (path : Place) : D × Except FileError Unit :=
  match fs.isDir disk path with
  | .error e => (disk,.error (.notFound ("cannot remove '" ++ lossy path ++ "': " ++ e)))
  | .ok true =>
    mapDisk (fs.removeDirAll disk path) (fun e => .internal ("cannot remove directory '" ++ lossy path ++ "': " ++ e)) ()
  | .ok false =>
    mapDisk (fs.removeFile disk path) (fun e => .internal ("cannot remove file '" ++ lossy path ++ "': " ++ e)) ()

def renameEntrySync (fs : Fs D) (disk : D) (path : Place) (newName : String) : D × Except FileError Place :=
  match placeParent path with
  | none => (disk,.error (.badRequest ("path '" ++ lossy path ++ "' has no parent")))
  | some parent =>
    let newPath := parent ++ [nameOf newName]
    if fs.present disk newPath then (disk,.error (.badRequest ("target '" ++ lossy newPath ++ "' already exists")))
    else mapDisk (fs.rename disk path newPath)
      (fun e => .internal ("cannot rename '" ++ lossy path ++ "' to '" ++ lossy newPath ++ "': " ++ e)) newPath

def copySingleFileSync (fs : Fs D) (disk : D) (src dest : Place) : D × Except FileError Unit :=
  let prepared : D × Except FileError Unit := match placeParent dest with
    | none => (disk,.ok ())
    | some parent => mapDisk (fs.createDirAll disk parent)
        (fun e => .internal ("cannot create directory '" ++ lossy parent ++ "': " ++ e)) ()
  match prepared with
  | (made,.error e) => (made,.error e)
  | (made,.ok ()) =>
    mapDisk (fs.copy made src dest)
      (fun e => .internal ("cannot copy '" ++ lossy src ++ "' to '" ++ lossy dest ++ "': " ++ e)) ()

-- The body of the loop of `copy_files_to_workspace` for one path.
def copyFile (fs : Fs D) (allowedRoots : List String) (workspace : Place) (sourceRoot : Option Place) (disk : D)
    (filePath : String) (result : CopyResult) : D × CopyResult :=
  let failed : CopyResult := { result with failedFiles := result.failedFiles ++ [filePath] }
  match validatePath fs disk filePath allowedRoots with
  | .error _ => (disk,failed)
  | .ok src =>
    if fs.isFile disk src then
      let relative := (sourceRoot.bind (stripPrefix src)).getD src.getLast?.toList
      match copySingleFileSync fs disk src (join workspace relative) with
      | (next,.ok ()) => (next,{ result with copiedFiles := result.copiedFiles ++ [filePath] })
      | (next,.error _) => (next,failed)
    else (disk,failed)

end Sync

end AlineaCopilot.FileService
