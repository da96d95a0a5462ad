import Pseudocode.Text.Quoted
import Pseudocode.Text.Utf8

set_option autoImplicit false

namespace Pseudocode

namespace Path

def isAbsolute (path : String) : Bool :=
  path.startsWith "/"

def join (folder name : String) : String :=
  if isAbsolute name then name
  else if folder.isEmpty || folder.endsWith "/" then folder ++ name
  else folder ++ "/" ++ name

def parts (path : String) : List String :=
  (path.split '/').toList.map String.Slice.copy

def normalParts (absolute : Bool) (done : List String) : List String → List String
  | [] => done.reverse
  | name :: rest =>
    if name == "" || name == "." then normalParts absolute done rest
    else if name == ".." then
      match done with
      | [] => normalParts absolute (if absolute then [] else [".."]) rest
      | ".." :: _ => normalParts absolute (".." :: done) rest
      | _ :: before => normalParts absolute before rest
    else normalParts absolute (name :: done) rest

def root (path : String) : String :=
  if path.startsWith "//" && !path.startsWith "///" then "//"
  else if isAbsolute path then "/"
  else ""

def normal (path : String) : String :=
  let text := root path ++ "/".intercalate (normalParts (isAbsolute path) [] (parts path))
  if text.isEmpty then "." else text

def lastName (path : String) : String :=
  (parts path).getLastD ""

def parent (path : String) : String :=
  match (parts path).dropLast with
  | [] => ""
  | names =>
    let head := "/".intercalate names
    let kept := (head.toList.reverse.dropWhile (· == '/')).reverse
    if kept.isEmpty then "/" ++ head else String.ofList kept

end Path

inductive Entry where
  | file (bytes : List UInt8)
  | folder
  | sink

inductive SystemError where
  | missing
  | notFolder
  | isFolder
  | nameTooLong
  deriving Repr, DecidableEq

def SystemError.text : SystemError → String
  | .missing => "[Errno 2] No such file or directory"
  | .notFolder => "[Errno 20] Not a directory"
  | .isFolder => "[Errno 21] Is a directory"
  | .nameTooLong => "[Errno 36] File name too long"

inductive FileError where
  | system (cause : SystemError) (path : String)
  | nullCharacter
  | decode (cause : Text.DecodeError)
  deriving Repr, DecidableEq

def FileError.message : FileError → String
  | .system cause path => cause.text ++ ": " ++ Text.quoted path
  | .nullCharacter => "embedded null byte"
  | .decode cause => cause.message

abbrev Place : Type := List String

structure Disk where
  home : Place
  entries : List (Place × Entry)

namespace Disk

def find? (disk : Disk) (place : Place) : Option Entry :=
  if place.isEmpty then some .folder else disk.entries.lookup place

def isFolder (disk : Disk) (place : Place) : Bool :=
  match disk.find? place with
  | some .folder => true
  | _ => false

def put (disk : Disk) (place : Place) (entry : Entry) : Disk :=
  { disk with entries := (place, entry) :: disk.entries.filter (·.1 != place) }

def makeFolders (disk : Disk) (place : Place) : Disk :=
  (List.range place.length).foldl
    (fun d n =>
      let above := place.take (n + 1)
      if (d.find? above).isSome then d else d.put above .folder)
    disk

def install (disk : Disk) (place : Place) (entry : Entry) : Disk :=
  (disk.makeFolders place.dropLast).put place entry

def removeTree (disk : Disk) (place : Place) : Disk :=
  { disk with entries := disk.entries.filter fun e => !place.isPrefixOf e.1 }

def longestName : Nat := 255

def longestPath : Nat := 4095

def follow (disk : Disk) : Place → List String → Except SystemError Place
  | here, [] => .ok here
  | here, name :: rest =>
    if name == "" || name == "." then disk.follow here rest
    else if name == ".." then disk.follow here.dropLast rest
    else if name.utf8ByteSize > longestName then .error .nameTooLong
    else
      let next := here ++ [name]
      if rest.isEmpty then .ok next
      else match disk.find? next with
        | some .folder => disk.follow next rest
        | some _ => .error .notFolder
        | none => .error .missing

def locate (disk : Disk) (path : String) : Except SystemError Place :=
  if path.isEmpty then .error .missing
  else if path.utf8ByteSize > longestPath then .error .nameTooLong
  else disk.follow (if Path.isAbsolute path then [] else disk.home) (Path.parts path)

def hasNull (path : String) : Bool :=
  path.contains '\x00'

def exists? (disk : Disk) (path : String) : Bool :=
  !hasNull path &&
    match disk.locate path with
    | .ok place => (disk.find? place).isSome
    | .error _ => false

def readBytes (disk : Disk) (path : String) : Except FileError (List UInt8) :=
  if hasNull path then .error .nullCharacter
  else match disk.locate path with
    | .error cause => .error (.system cause path)
    | .ok place =>
      match disk.find? place with
      | some (.file bytes) => .ok bytes
      | some .sink => .ok []
      | some .folder => .error (.system .isFolder path)
      | none => .error (.system .missing path)

def readExact (disk : Disk) (path : String) : Except FileError String := do
  let bytes ← disk.readBytes path
  match Text.decode bytes with
  | .ok text => .ok text
  | .error cause => .error (.decode cause)

def readText (disk : Disk) (path : String) : Except FileError String :=
  (disk.readExact path).map fun text => String.ofList (Text.unifyLines text.toList)

def target (disk : Disk) (path : String) : Except SystemError Place :=
  if path.endsWith "/" then
    match disk.locate (String.ofList (path.toList.reverse.dropWhile (· == '/')).reverse) with
    | .error cause => if path.all (· == '/') then .error .isFolder else .error cause
    | .ok _ => .error .isFolder
  else disk.locate path

def write (disk : Disk) (path text : String) : Except FileError Disk :=
  if hasNull path then .error .nullCharacter
  else match disk.target path with
    | .error cause => .error (.system cause path)
    | .ok place =>
      match disk.find? place with
      | some .folder => .error (.system .isFolder path)
      | some .sink => .ok disk
      | _ => .ok (disk.put place (.file (Text.encode text)))

def homePath (disk : Disk) : String :=
  "/" ++ "/".intercalate disk.home

def absolute (disk : Disk) (path : String) : String :=
  Path.normal (Path.join disk.homePath path)

def systemFolders : List Place :=
  [["bin"], ["boot"], ["dev"], ["etc"], ["home"], ["lib"], ["media"], ["mnt"], ["opt"], ["proc"],
   ["root"], ["run"], ["sbin"], ["srv"], ["sys"], ["tmp"], ["usr"], ["usr", "bin"], ["usr", "lib"],
   ["usr", "share"], ["usr", "local"], ["var"], ["var", "log"], ["var", "tmp"]]

def fresh (home : Place) (files : List (Place × String)) : Disk :=
  let system : Disk := ⟨home, systemFolders.map (·, .folder)⟩
  let base := (system.put ["dev", "null"] .sink).makeFolders home
  files.foldl (fun disk (place, text) => disk.install place (.file (Text.encode text))) base

end Disk

end Pseudocode
