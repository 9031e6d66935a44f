import LogIntake.Text.Utf8

/-! Files as commands see them: contents by path, or the reason why there are none.
-/

namespace LogIntake

/-- Why a file cannot be read. -/
inductive FileError where
  | notFound
  | notDirectory
  | isDirectory
  | nameTooLong
  | invalidName
  | invalidText
  | other (reason : String)
  deriving Repr, DecidableEq, Inhabited

def FileError.message : FileError → String
  | .notFound => "No such file or directory (os error 2)"
  | .notDirectory => "Not a directory (os error 20)"
  | .isDirectory => "Is a directory (os error 21)"
  | .nameTooLong => "File name too long (os error 36)"
  | .invalidName => "file name contained an unexpected NUL byte"
  | .invalidText => "stream did not contain valid UTF-8"
  | .other reason => reason

/-- What a path leads to. -/
inductive Contents where
  | bytes (bytes : List UInt8)
  | directory
  deriving Repr, DecidableEq, Inhabited

abbrev Files :=
  String → Except FileError Contents

namespace Files

def hasPath (files : Files) (path : String) : Except FileError Bool :=
  match files path with
  | .ok _ => .ok true
  | .error .notFound => .ok false
  | .error e => .error e

def readBytes (files : Files) (path : String) : Except FileError (List UInt8) :=
  match files path with
  | .ok (.bytes bytes) => .ok bytes
  | .ok .directory => .error .isDirectory
  | .error e => .error e

def readText (files : Files) (path : String) : Except FileError String := do
  match Text.Utf8.decode? (← files.readBytes path) with
  | some text => return text
  | none => throw .invalidText

/-! ### Files in one directory -/

def steps (path : String) : List String :=
  ((path.splitOn "/").filter fun step => !step.isEmpty && step ≠ ".")

/-- Whether a path ends in a way that only directories have. -/
def wantsDirectory (path : String) : Bool :=
  let chars := path.toList
  chars.getLast? = some '/' || ['.', '/'].isPrefixOf chars.reverse

/-- Whether a file of some steps, or a directory with such a file, is reached by steps. -/
def leadsTo (reached : List String) (file : List String) : Bool :=
  reached.isPrefixOf file

/-- What steps lead to, from those that are taken already. -/
def follow (entries : List (List String × Contents)) (taken : List String)
    : List String → Except FileError Contents
  | [] =>
      match entries.lookup taken with
      | some contents => .ok contents
      | none => .ok .directory
  | step :: rest =>
      match entries.lookup taken with
      | some (.bytes _) => .error .notDirectory
      | _ =>
          let next := if step = ".." then taken.dropLast else taken ++ [step]
          if 255 < (Text.Utf8.encode step).length then .error .nameTooLong
          else if entries.any fun entry => leadsTo next entry.1 then follow entries next rest
          else if next.isEmpty then follow entries next rest
          else .error .notFound

/-- Files in an otherwise empty directory, which paths start from. -/
def ofList (entries : List (String × Contents)) : Files := fun path =>
  if path.isEmpty then .error .notFound
  else if path.toList.contains (Char.ofNat 0) then .error .invalidName
  else if path.toList.head? = some '/' then
    if (steps path).isEmpty then .ok .directory else .error .notFound
  else
    match follow (entries.map fun entry => (steps entry.1, entry.2)) [] (steps path) with
    | .ok (.bytes bytes) =>
        if wantsDirectory path then .error .notDirectory else .ok (.bytes bytes)
    | result => result

end Files

end LogIntake
