/-! Label names: which texts are valid names, which names are reserved for internal use, and
how an arbitrary text becomes part of a name.
-/

namespace LogIntake.Label

/-- Whether a character is an ASCII letter, an ASCII digit or an underscore. -/
def isNameChar (c : Char) : Bool :=
  c.isAlphanum || c = '_'

def isNameStart (c : Char) : Bool :=
  c.isAlpha || c = '_'

/-- A label name starts with a letter or an underscore and goes on with letters, digits and
underscores, all of them ASCII.
-/
def isValidName (name : String) : Bool :=
  match name.toList with
  | [] => false
  | first :: rest => isNameStart first && rest.all isNameChar

/-- Names that start with two underscores never leave the pipeline. -/
def isInternal (name : String) : Bool :=
  match name.toList with
  | '_' :: '_' :: _ => true
  | _ => false

/-- Turns a text into a fragment of a label name, one underscore for each character that a
name cannot hold. The fragment is never empty.
-/
def sanitize (text : String) : String :=
  if text.isEmpty then "_"
  else String.ofList (text.toList.map fun c => if isNameChar c then c else '_')

/-- Why a name cannot be the name of a record's label. -/
inductive NameError where
  | reserved (name : String)
  | invalid (name : String)
  deriving Repr, DecidableEq, Inhabited

def NameError.message : NameError → String
  | .reserved name => s!"reserved internal label name: '{name}'"
  | .invalid name => s!"invalid label name: '{name}'"

/-- A record's label has a valid name that is not internal; being internal is reported
first.
-/
def checkRecordName (name : String) : Except NameError Unit :=
  if isInternal name then .error (.reserved name)
  else if isValidName name then .ok ()
  else .error (.invalid name)

/-- Whether a name may be the name of a record's label. -/
def isRecordName (name : String) : Bool :=
  !isInternal name && isValidName name

/-- The check passes exactly for the names of record labels. -/
theorem checkRecordName_eq_ok_iff {name : String}
    : checkRecordName name = .ok () ↔ isRecordName name = true := by
  unfold checkRecordName isRecordName
  cases isInternal name <;> cases isValidName name <;> simp

end LogIntake.Label
