import LogIntake.Proofs.Command.Validity

/-! How formatting fails. Whatever goes wrong before the first entry is formatted leaves the
standard output empty. After that nothing is lost: the report on all lines is written, and only
then do the lines that failed make the command fail.
-/

namespace LogIntake

open Label Relabel

namespace FormatArguments

-----------------------------------------------------------------------------------------
-- What a run needs
-----------------------------------------------------------------------------------------

/-- The formatter that the settings describe together with the arguments. -/
def Describes (arguments : FormatArguments) (surroundings : Surroundings) (path : String)
    (formatter : Formatter)
    : Prop :=
  ∃ settings target,
    loadSettings surroundings path = .ok settings
    ∧ arguments.extend surroundings.files settings.target = .ok target
    ∧ target.formatter = .ok formatter

variable {arguments : FormatArguments} {surroundings : Surroundings} {path : String}

end FormatArguments

namespace FormatArguments

end FormatArguments

end LogIntake
