import Schemata.Session.Wanted

/-! The program: fills a session with the files that the arguments call for, runs it, and writes back what changed. -/

namespace Schemata

/-- Where a path of a session lies. -/
def Path.written (path : Path) : String := "/" ++ String.intercalate "/" (path.map String.ofList)

def pathOf (s : String) : Path := (s.toList.splitOn '/').filter fun name => !name.isEmpty

/-- Adds to a session what a path names, and the directory that it lies in. -/
def load (s : Session) (written : Text) : IO Session := do
  let path := s.locate written
  let parent : Path := path.dropLast
  let place := (← IO.currentDir) / path.written
  let mut directories := s.files.directories
  if ← ((← IO.currentDir) / parent.written).isDir then directories := parent :: directories
  if ← place.isDir then return { s with files := ⟨path :: directories, s.files.files⟩ }
  if ← place.pathExists then
    let bytes := (← IO.FS.readBinFile place).toList
    return { s with files := (FileTree.mk directories s.files.files).write path (.ofBytes bytes) }
  return { s with files := ⟨directories, s.files.files⟩ }

/-- Writes the files that a run changed. -/
def save (before after : Session) : IO Unit := do
  for (path, content) in after.files.files do
    if before.files.file? path != some content then
      IO.FS.writeBinFile ((← IO.currentDir) / Path.written path) ⟨content.toBytes.toArray⟩

def run (arguments : List String) : IO UInt32 := do
  let here := pathOf (← IO.currentDir).toString
  let home := pathOf ((← IO.getEnv "HOME").getD "/")
  let environment : Environment :=
    ⟨(← IO.getEnv "DATABASE_URL").map String.toList, (← IO.getEnv "TABLEWRIGHT_GENERATOR").map String.toList⟩
  let texts := arguments.map String.toList
  let bare : Session := ⟨⟨[here, home], []⟩, here, home, environment, .unconnected⟩
  let configured ← bare.configPaths.foldlM load bare
  let before ← (configured.wantedPaths texts).foldlM load configured
  let (result, after) := before.run texts
  save before after
  match result with
  | .ok report =>
    IO.println (String.ofList report)
    return 0
  | .error e =>
    IO.eprintln (String.ofList e.message)
    return 1

end Schemata

def main (arguments : List String) : IO UInt32 := Schemata.run arguments
