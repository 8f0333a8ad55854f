import Vitae.Text.Utf8

/-!
# Folders

The files that a program finds where it is started and elsewhere in its system, and how
a path leads to one.

* `Folder.readText`: the text of the file at a path, or why there is none.
* `FileFault.message`: the wording of the reason, with the system's number for it.
-/

namespace Vitae

/-- Why a file cannot be read as text. -/
inductive FileFault where
  | missing
  | notFolder
  | isFolder
  | nameTooLong
  | nameHoldsNul
  | notText
  | other (number : Nat) (details : String)
  deriving DecidableEq

/-- A reason that the system gave, with its number. -/
def systemReason (details : String) (number : Nat) : String :=
  details ++ " (os error " ++ toString number ++ ")"

/-- The wording of a reason. -/
def FileFault.message : FileFault → String
  | .missing => systemReason "No such file or directory" 2
  | .notFolder => systemReason "Not a directory" 20
  | .isFolder => systemReason "Is a directory" 21
  | .nameTooLong => systemReason "File name too long" 36
  | .nameHoldsNul => "file name contained an unexpected NUL byte"
  | .notText => "stream did not contain valid UTF-8"
  | .other number details => systemReason details number

/-- The reason behind a number that the system gave. -/
def FileFault.ofSystem (number : Nat) (details : String) : FileFault :=
  match number with
  | 2 => .missing
  | 20 => .notFolder
  | 21 => .isFolder
  | 36 => .nameTooLong
  | _ => .other number details

/-- The text of a file with some bytes. -/
def decodeText (bytes : ByteArray) : Except FileFault String :=
  match String.fromUTF8? bytes with
  | some text => .ok text
  | none => .error .notText

/-- What stands at a place in a folder. -/
inductive FolderItem where
  | file (bytes : ByteArray)
  | folder

/-- Items by their places, each the list of names that lead to it. The folders on the
way to an item are there without being listed. -/
abbrev Items := List (List String × FolderItem)

/-- A folder in a system: its items, what the system has besides by the places from its
root, and the place from there of the folder that this one is in. -/
structure Folder where
  items : Items := []
  outside : Items := []
  above : List String := []

/-- The names in a path. Two slashes have an empty name between them. -/
def pathNames (path : String) : List String :=
  (Text.cut '/' path.toList).map String.ofList

namespace Items

/-- Items at some paths. -/
def ofPaths (items : List (String × FolderItem)) : Items :=
  items.map fun item => ((pathNames item.1).filter fun name => name != "" && name != ".", item.2)

/-- What stands at a place. A place on the way to an item is a folder. -/
def itemAt (items : Items) (place : List String) : Option FolderItem :=
  if place.isEmpty || items.any fun item => place.isPrefixOf item.1 && place != item.1 then
    some .folder
  else items.lookup place

end Items

/-- Where a path has led: within the folder, or to a place that names lead to from the
root of the system. -/
inductive Location where
  | within (place : List String)
  | beyond (place : List String)

namespace Location

/-- Where a path starts: at the root if a slash comes first, and else in the folder. -/
def ofPath (path : String) : Location :=
  if path.toList.head? = some '/' then .beyond [] else .within []

/-- One name further. -/
def enter (name : String) : Location → Location
  | .within place => .within (place ++ [name])
  | .beyond place => .beyond (place ++ [name])

end Location

/-- The length in bytes of the longest name. -/
def maxNameBytes : Nat := 255

/-- The length in bytes from which a path is too long. -/
def maxPathBytes : Nat := 4096

/-- Refuses a path that no system would follow. -/
def checkPath (path : String) : Except FileFault Unit := do
  if path.toList.contains '\x00' then throw .nameHoldsNul
  if path = "" then throw .missing
  if maxPathBytes ≤ path.utf8ByteSize then throw .nameTooLong

namespace Folder

/-- A folder with items at some paths. -/
def ofList (items : List (String × FolderItem)) : Folder := { items := .ofPaths items }

/-- What stands where a path has led. The folders that this one is in are there. -/
def at? (f : Folder) : Location → Option FolderItem
  | .within place => f.items.itemAt place
  | .beyond place => if place.isPrefixOf f.above then some .folder else f.outside.itemAt place

/-- One name back. The root holds itself. -/
def parent (f : Folder) : Location → Location
  | .within [] => .beyond f.above
  | .within place => .within place.dropLast
  | .beyond place => .beyond place.dropLast

/-- Follows one name of a path. -/
def follow (f : Folder) (location : Location) (name : String) : Except FileFault Location :=
  match f.at? location with
  | some .folder =>
    if name = "" || name = "." then .ok location
    else if name = ".." then .ok (f.parent location)
    else if maxNameBytes < name.utf8ByteSize then .error .nameTooLong
    else if (f.at? (location.enter name)).isSome then .ok (location.enter name)
    else .error .missing
  | _ => .error .notFolder

/-- The bytes of the file at a path. -/
def readBytes (f : Folder) (path : String) : Except FileFault ByteArray := do
  checkPath path
  match f.at? (← (pathNames path).foldlM f.follow (.ofPath path)) with
  | some (.file bytes) => return bytes
  | some .folder => throw .isFolder
  | none => throw .missing

/-- The text of the file at a path. -/
def readText (f : Folder) (path : String) : Except FileFault String :=
  f.readBytes path >>= decodeText

end Folder

end Vitae
