import Schemata.Text.Utf8

/-! Processes as seen from outside: why one cannot start or a file cannot be read, how one ends, and what it wrote. -/

namespace Schemata

/-- Why the system refuses a file or a program. -/
inductive OsError
  | notFound
  | permissionDenied
  | notADirectory
  | isADirectory
  | nameTooLong
  /-- An argument with a NUL character, which a program cannot be given. -/
  | nulInArgument
  /-- A path with a NUL character. -/
  | nulInPath
  deriving DecidableEq, Repr

namespace OsError

/-- The reason in words. -/
def reason : OsError → Text
  | notFound => "No such file or directory"
  | permissionDenied => "Permission denied"
  | notADirectory => "Not a directory"
  | isADirectory => "Is a directory"
  | nameTooLong => "File name too long"
  | nulInArgument => "nul byte found in provided data"
  | nulInPath => "file name contained an unexpected NUL byte"

def message : OsError → Text
  | notFound => notFound.reason ++ " (os error 2)"
  | permissionDenied => permissionDenied.reason ++ " (os error 13)"
  | notADirectory => notADirectory.reason ++ " (os error 20)"
  | isADirectory => isADirectory.reason ++ " (os error 21)"
  | nameTooLong => nameTooLong.reason ++ " (os error 36)"
  | nulInArgument => nulInArgument.reason
  | nulInPath => nulInPath.reason

end OsError

inductive ExitStatus
  | exited (code : Nat)
  | killed (signal : Nat)
  deriving DecidableEq, Repr

/-- The signals with their names. -/
def signalNames : List (Nat × Text) :=
  [(1, "HUP"), (2, "INT"), (3, "QUIT"), (4, "ILL"), (5, "TRAP"), (6, "ABRT"), (7, "BUS"), (8, "FPE"), (9, "KILL"),
   (10, "USR1"), (11, "SEGV"), (12, "USR2"), (13, "PIPE"), (14, "ALRM"), (15, "TERM")]

def ExitStatus.display : ExitStatus → Text
  | exited code => "exit status: " ++ decimal code
  | killed signal =>
    "signal: " ++ decimal signal ++
      match signalNames.lookup signal with
      | some name => " (SIG" ++ name ++ ")"
      | none => []

/-- What a process wrote, and how it ended. -/
structure Completion where
  output : Bytes
  errors : Bytes
  status : ExitStatus
  deriving DecidableEq, Repr

namespace Completion

def success (output : Bytes) : Completion := ⟨output, [], .exited 0⟩

def failure (message : Text) (code : Nat) : Completion := ⟨[], Utf8.encode message, .exited code⟩

end Completion

/-- Reading a file by its name. -/
abbrev ReadFile := Text → Except OsError Bytes

/-- Directories that every system has. -/
def systemDirectories : List Text :=
  ["/", "/bin", "/dev", "/etc", "/home", "/lib", "/opt", "/proc", "/root", "/run", "/sbin", "/sys", "/tmp", "/usr",
   "/usr/bin", "/usr/lib", "/usr/local", "/usr/local/bin", "/var", "/var/tmp"]

/-- Files that every system has and that are no programs. -/
def systemFiles : List Text := ["/dev/null", "/etc/group", "/etc/hostname", "/etc/hosts", "/etc/passwd"]

/-- The file system that holds nothing but what every system has, in a directory without files. -/
def noFiles : ReadFile := fun path =>
  let bare := (path.reverse.dropWhile (· == '/')).reverse
  if systemFiles.contains path then .ok []
  else if systemFiles.any fun file => (Text.dropPrefix? (file ++ "/") path).isSome then .error .notADirectory
  else if systemDirectories.contains (if bare.isEmpty then path.take 1 else bare) || bare == "." || bare == ".." then
    .error .isADirectory
  else .error .notFound

end Schemata
