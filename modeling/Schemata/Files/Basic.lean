import Schemata.Shell.Process
import Schemata.Sql.Dump

/-! A tree of files. A file holds bytes, or a database that was written to. Directories are there if something is in
    them or if they were made. -/

namespace Schemata

/-- The names from the root on. -/
abbrev Path := List Text

inductive FileContent
  | bytes (b : Bytes)
  | database (db : Sql.Database)
  deriving DecidableEq, Repr

structure FileTree where
  directories : List Path
  files : List (Path × FileContent)
  deriving DecidableEq, Repr

namespace FileContent

def toBytes : FileContent → Bytes
  | bytes b => b
  | database db => db.toBytes

def ofBytes (b : Bytes) : FileContent :=
  match Sql.Database.ofBytes? b with
  | some db => database db
  | none => bytes b

end FileContent

namespace Path

/-- A written path without its empty names and single dots, from a directory on if it does not start at the root. -/
def start (directory : Path) (written : Text) : Path × List Text :=
  (if written.head? == some '/' then [] else directory, written.splitOn '/')

/-- The path that is meant, where two dots take back the name before them. -/
def resolve (directory : Path) (written : Text) : Path :=
  let (base, names) := start directory written
  names.foldl (fun path (name : Text) =>
    if name.isEmpty || name == "." then path else if name == ".." then path.dropLast else path ++ [name]) base

end Path

namespace FileTree

def file? (t : FileTree) (path : Path) : Option FileContent := t.files.lookup path

/-- Whether a path is a directory: the root, one that was made, or one that leads to something. -/
def isDirectory (t : FileTree) (path : Path) : Bool :=
  path.isEmpty || t.directories.any path.isPrefixOf ||
    t.files.any fun f => path.length < f.1.length && path.isPrefixOf f.1

/-- Sets the content of a file, with the directories that lead to it. -/
def write (t : FileTree) (path : Path) (content : FileContent) : FileTree :=
  { t with files := (path, content) :: t.files.filter (·.1 != path) }

/-- Goes along names, of which all but the last must be directories. -/
def walk (t : FileTree) (path : Path) : List Text → Except OsError Path
  | [] => .ok path
  | name :: rest =>
    if t.isDirectory path then
      if name.isEmpty || name == "." then walk t path rest
      else if name == ".." then walk t path.dropLast rest
      else if 255 < (Utf8.encode name).length then .error .nameTooLong
      else walk t (path ++ [name]) rest
    else if (t.file? path).isSome then .error .notADirectory
    else .error .notFound

/-- The content of the file that a path names from a directory on. -/
def read (t : FileTree) (directory : Path) (written : Text) : Except OsError Bytes :=
  if written.isEmpty then .error .notFound
  else if written.any fun c => c.toNat == 0 then .error .nulInPath
  else
    let (base, names) := Path.start directory written
    match t.walk base names with
    | .error e => .error e
    | .ok path =>
      if t.isDirectory path then .error .isADirectory
      else match t.file? path with
        | some content => .ok content.toBytes
        | none => .error .notFound

/-- The names in a directory, by code points. -/
def names (t : FileTree) (directory : Path) : List Text :=
  let behind (path : Path) : Option Text :=
    if directory.isPrefixOf path then path[directory.length]? else none
  ((t.directories ++ t.files.map Prod.fst).filterMap behind).eraseDups.mergeSort Text.upTo

end FileTree
end Schemata
