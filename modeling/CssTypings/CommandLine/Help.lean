/-!
# Usage and help

The texts that describe the command line, for a terminal of eighty columns.
-/

namespace CssTypings.CommandLine

/-- The name of the command. -/
def programName : String := "css-modules-flow-types"

/-- Lines as a text; each has its end. -/
def ofLines (lines : List String) : String := String.join (lines.map (· ++ "\n"))

/-- The forms of the command. -/
def usage : String := ofLines [
  "usage: css-modules-flow-types [-h] [--watch] [--extension EXTENSION]",
  "                              [--silent] [--config CONFIG]",
  "                              [path ...]"]

/-- The description of the command. -/
def help : String := usage ++ ofLines [
  "",
  "Creates .flow type definition files from CSS Modules files",
  "",
  "positional arguments:",
  "  path                  directory to search for CSS Modules (or concrete files",
  "                        to convert)",
  "",
  "options:",
  "  -h, --help            show this help message and exit",
  "  --watch, -w           Run in watch mode",
  "  --extension EXTENSION, -e EXTENSION",
  "                        File extension (defaults to \"css\")",
  "  --silent, -s          Silences all output except errors",
  "  --config CONFIG       Path to a TOML config file (defaults to ./css-modules-",
  "                        flow-types.toml)"]

end CssTypings.CommandLine
