import LogIntake.CommandLine.Invocation

/-! What the program says about itself.
-/

namespace LogIntake.CommandLine

def versionText : String :=
  "gcplog 0.1.0\n"

def helpText : String :=
  String.join
    ["Turn cloud log entries into normalized log records.\n", "\n",
     "Usage: gcplog [OPTIONS] <COMMAND>\n", "\n", "Commands:\n",
     "  format [INPUT]        Format log entries, one JSON document per line\n",
     "  relabel check <FILE>  Compile a file of relabel rules and report errors\n",
     "  config validate       Validate the configuration file and report errors\n",
     "  config show           Show the effective configuration\n", "\n", "Options:\n",
     "  -c, --config <CONFIG>        Path of the configuration file [default: gcplog.toml]\n",
     "      --log-level <LOG_LEVEL>  Override the log level\n",
     "      --output <OUTPUT>        Output format: text or json [default: text]\n",
     "  -h, --help                   Print help\n",
     "  -V, --version                Print version\n", "\n", "Options of format:\n",
     "      --push                    Treat each line as the body of a push request\n",
     "      --relabel-file <FILE>     Additional relabel rules\n",
     "  -l, --label <NAME=VALUE>      Static label added to every record\n",
     "      --use-incoming-timestamp  Use the timestamp of the entry\n",
     "      --use-full-line           Always use the full entry as the line\n", "\n",
     "Options of config show:\n",
     "      --section <SECTION>       Show one section only: general or target\n"]

def usageText : UsageError → String
  | .version => versionText
  | .help | .helpWithoutCommand => helpText
  | e => e.message ++ "\n\nFor more information, try '--help'.\n"

end LogIntake.CommandLine
