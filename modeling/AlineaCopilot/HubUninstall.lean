import Mathlib.Data.List.Infix
import AlineaCopilot.LinkedTrees
import AlineaCopilot.RustPaths

open AlineaCopilot.LinkedTrees AlineaCopilot.RustPaths

namespace AlineaCopilot.HubUninstall

abbrev Disk := Tree Name (List UInt8)
abbrev Path := List (Move Name)

def maxSymlinks : Nat := 40

def reach (disk : Disk) (last : Last) (path : Path) : Option (Place Name) := resolve disk last maxSymlinks [] path

def moveOf (text : String) : Move Name :=
  if text = "" ∨ text = "." then .here
  else if text = ".." then .up
  else .into (nameOf text)

-- `join`: an absolute path takes the other's place.
def join (path : Path) (text : String) : Path :=
  (if text.toList.head? = some '/' then [] else path) ++ (pieces text).map moveOf

structure ExtensionManifest where
  name : String
  engine : Option (Option String)
  apiVersion : Option String
deriving DecidableEq

-- How a manifest is read, together with the files of its directory that it refers
-- to, and which ones the version of the application takes.
structure Host where
  parseManifestInDir : Disk → Path → List UInt8 → Option ExtensionManifest
  compatible : ExtensionManifest → Bool

structure LoadedExtension where
  manifest : ExtensionManifest
  place : Place Name

def manifestFile : Name := nameOf "aion-extension.json"

def loadSingleExtension (host : Host) (disk : Disk) (path : Path) : Option ExtensionManifest :=
  match (reach disk .follow (path ++ [.into manifestFile])).bind disk.node with
  | some (.file bytes) => host.parseManifestInDir disk path bytes
  | _ => none

-- What lies in a directory, in the order in which the system names it.
def childNames (disk : Disk) (place : Place Name) : List Name :=
  disk.nodes.entries.filterMap fun entry => if entry.1.dropLast = place then entry.1.getLast? else none

def loadEntry (host : Host) (disk : Disk) (path : Path) : Option LoadedExtension :=
  match reach disk .follow path with
  | some place => if disk.isDir place then (loadSingleExtension host disk path).map (⟨·,place⟩) else none
  | none => none

def scanDirectory (host : Host) (disk : Disk) (path : Path) : List LoadedExtension :=
  match reach disk .follow path with
  | some place => if disk.isDir place then (childNames disk place).filterMap fun name => loadEntry host disk (path ++ [.into name]) else []
  | none => []

-- The first one of a name is taken.
def keepFirst (result : List LoadedExtension) (ext : LoadedExtension) : List LoadedExtension :=
  if ext.manifest.name ∈ result.map (·.manifest.name) then result else result ++ [ext]

def loadAll (host : Host) (disk : Disk) (scanPaths : List Path) : List LoadedExtension :=
  (scanPaths.flatMap (scanDirectory host disk)).foldl keepFirst []

-- What a reload puts in the registry; the sorting by dependencies leaves none out.
def loaded (host : Host) (disk : Disk) (scanPaths : List Path) : List LoadedExtension :=
  (loadAll host disk scanPaths).filter fun ext => host.compatible ext.manifest

structure HubResult where
  success : Bool
  msg : Option String
deriving DecidableEq

def HubResult.ok : HubResult := ⟨true,none⟩

def HubResult.err (msg : String) : HubResult := ⟨false,some msg⟩

-- A link is removed itself. A directory is emptied first, and then it is its own name
-- that the system refuses to remove where the path ends in `.`, or where it is the root.
def removeDirAll (disk : Disk) (path : Path) : Disk × Except String Unit :=
  match reach disk .stay path with
  | none => (disk,.error "No such file or directory (os error 2)")
  | some place =>
    match disk.node place with
    | some (.link ..) => (disk.without place,.ok ())
    | some .dir =>
      if path.getLast? = some .here then (disk.emptied place,.error "Invalid argument (os error 22)")
      else if place = [] then (disk.emptied place,.error "Device or resource busy (os error 16)")
      else (disk.without place,.ok ())
    | some (.file _) | none => (disk,.error "Not a directory (os error 20)")

section Names
variable {name : String} {path : Path}

end Names

section Reach
variable {disk : Disk} {path : Path} {place : Place Name} {last : Last} {name : Name}

end Reach

section Removal
variable {disk : Disk} {target : Path} {name : String} {place : Place Name}

-- Nothing but the directory itself.
def Bare (disk : Disk) (place : Place Name) : Prop := ∀ other, place <+: other → other ≠ place → disk.node other = none

end Removal

section Loading
variable {host : Host} {disk : Disk} {scanPaths : List Path} {ext : LoadedExtension}

end Loading

section Uninstalling
variable {host : Host} {disk : Disk} {scanPaths : List Path} {target : Path} {name : String}

-- The other extensions that load also load from a second disk.
def OthersLoad (host : Host) (scanPaths : List Path) (name : String) (disk after : Disk) : Prop :=
  ∀ ext ∈ loaded host disk scanPaths, ext.manifest.name ≠ name →
    ∃ other ∈ loaded host after scanPaths, other.manifest.name = ext.manifest.name

def OneChildOnly (host : Host) (scanPaths : List Path) (disk : Disk) (target : Path) (name : String) (after : Disk × HubResult) : Prop :=
  (after.2.success = false → after.1 = disk) ∧
  (after.2.success = true →
    (∃ place child, reach disk .follow target = some place ∧ disk.node (place ++ [child]) = some .dir ∧
      after.1 = disk.without (place ++ [child]) ∧
      ∀ ext ∈ loaded host after.1 scanPaths, ext.manifest.name = name → ¬ place ++ [child] <+: ext.place) ∧
    OthersLoad host scanPaths name disk after.1)

-- What the name may stand for in the target.
def Harmless (host : Host) (scanPaths : List Path) (disk : Disk) (target : Path) (name : String) (place : Place Name) :
    Node Name (List UInt8) → Prop
  | .file _ => True
  | .link .. => reach disk .follow (target ++ [.into (nameOf name)]) = none
  | .dir => OthersLoad host scanPaths name disk (disk.without (place ++ [nameOf name]))

theorem unchanged (msg : String) : OneChildOnly host scanPaths disk target name (disk,.err msg) :=
  ⟨fun _ => rfl,fun success => by cases success⟩

end Uninstalling

section Examples

end Examples

end AlineaCopilot.HubUninstall
