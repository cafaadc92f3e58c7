import SessionDirectory.Files.Basic
import SessionDirectory.Text.Blank

/-!
# Files in memory

A tree of directories and files that is read by path, as a file system without links reads it:
`.` stays, `..` goes up, a repeated slash counts once, and only a directory can be walked through.

## Main definitions

* `FileTree`: directories and files by place
* `FileTree.walk`: the place that a path leads to
* `FileTree.files`: the files of a tree, seen from a working directory
-/

set_option autoImplicit false

namespace SessionDirectory

/-- What is at a place. -/
inductive FileEntry where
  | directory
  | file (content : ByteArray)

/-- Directories and files by place, a place being the names on the way from the root. Of several
entries for one place the last one counts, and every directory on the way to an entry is there. -/
structure FileTree where
  entries : List (List String × FileEntry)

namespace FileTree

/-- The tree that holds its root only. -/
def empty : FileTree := ⟨[]⟩

/-- Puts an entry at a place. -/
def put (t : FileTree) (place : List String) (entry : FileEntry) : FileTree :=
  ⟨t.entries ++ [(place, entry)]⟩

/-- What is at a place. -/
def entry? (t : FileTree) (place : List String) : Option FileEntry :=
  match t.entries.reverse.find? fun e => e.1 = place with
  | some e => some e.2
  | none =>
    if place.isEmpty || t.entries.any (fun e => place.isPrefixOf e.1) then some .directory else none

/-- The parts of a path between its slashes. -/
def parts (path : String) : List String := (Text.split '/' path.toList).map String.ofList

/-- The place that the parts of a path lead to. -/
def walk (t : FileTree) : List String → List String → Except FileFault (List String)
  | place, [] => .ok place
  | place, part :: rest =>
    match t.entry? place with
    | none => .error .notFound
    | some (.file _) => .error .notDirectory
    | some .directory =>
      if part = "" ∨ part = "." then walk t place rest
      else if part = ".." then walk t place.dropLast rest
      else walk t (place ++ [part]) rest

/-- The text at a place. -/
def read (t : FileTree) (place : List String) : Except FileFault String :=
  match t.entry? place with
  | none => .error .notFound
  | some .directory => .error .isDirectory
  | some (.file content) =>
    match String.fromUTF8? content with
    | some text => .ok text
    | none => .error .notText

/-- The files of a tree; a path that does not start with a slash starts at the working
directory. -/
def files (t : FileTree) (workingDirectory : List String) : Files := fun path =>
  if path.isEmpty then .error .notFound
  else if path.toList.contains '\x00' then .error .invalidName
  else do
    let start := if path.toList.head? = some '/' then [] else workingDirectory
    let place ← t.walk start (parts path)
    t.read place

end FileTree

end SessionDirectory
