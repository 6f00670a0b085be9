import AlineaCopilot.RustText

namespace AlineaCopilot.RustPaths

-- `std::path` on Unix: a path given as text is read piece by piece between its
-- slashes.
inductive Component where
  | rootDir
  | curDir
  | parentDir
  | normal (name : String)
  deriving DecidableEq

def pieces (path : String) : List String := (path.toList.splitOn '/').map String.ofList

-- Repeated slashes and a `.` inside a path are passed over; only a leading `.` is
-- a component.
def piece (text : String) : Option Component :=
  if text = "" ∨ text = "." then none
  else if text = ".." then some .parentDir
  else some (.normal text)

def components (path : String) : List Component :=
  (if path.toList.head? = some '/' then [.rootDir] else if (pieces path).head? = some "." then [.curDir] else []) ++
    (pieces path).filterMap piece

def Component.text : Component → String
  | rootDir => ""
  | curDir => "."
  | parentDir => ".."
  | normal name => name

-- The pieces that `components` passes over are left out: they mean nothing to
-- the system either.
def render : List Component → String
  | [.rootDir] => "/"
  | parts => "/".intercalate (parts.map Component.text)

def parent (path : String) : Option String :=
  match (components path).getLast? with
  | none | some .rootDir => none
  | some _ => some (render (components path).dropLast)

def fileName (path : String) : Option String :=
  match (components path).getLast? with
  | some (.normal name) => some name
  | _ => none

-- An absolute path as the system hands it out: the names from the root down, each
-- the bytes it is made of.
abbrev Name := List UInt8
abbrev Place := List Name

def nameOf (text : String) : Name := text.toUTF8.toList

-- The names of an absolute path that has no `.` or `..` in front of a name.
def placeOf (path : String) : Option Place :=
  match components path with
  | .rootDir :: rest => rest.mapM fun
      | .normal name => some (nameOf name)
      | _ => none
  | _ => none

-- `starts_with`, `strip_prefix`: whole names, not letters.
def startsWith (place root : Place) : Bool := root.isPrefixOf place

def stripPrefix (place root : Place) : Option Place := if startsWith place root then some (place.drop root.length) else none

-- `to_string_lossy`: what is no UTF-8 becomes U+FFFD, so that two places may look
-- the same.
def lossyRelative (place : Place) : String := String.ofList (RustText.fromUtf8Lossy ([47].intercalate place))

def lossy (place : Place) : String := String.ofList (RustText.fromUtf8Lossy (47 :: [47].intercalate place))

def lossyName (name : Name) : String := String.ofList (RustText.fromUtf8Lossy name)

end AlineaCopilot.RustPaths
