/-
  Custody.Command.Help — the texts for those who ask for help.
-/
import Custody.Command.Arguments
import Custody.Command.Report

namespace Custody.Command

def program : String := "bridge-cli"

def versionText : String := line (program ++ " 0.1.0")

/-- What the program is for. -/
def about : String := "Exercise the opaque-handle bridge"

def TaskName.word : TaskName → String
  | .lifo => "lifo" | .trim => "trim" | .numbers => "numbers" | .abi => "abi"

def TaskName.about : TaskName → String
  | .lifo => "Push values into a string vector, then pop them all back"
  | .trim => "Print each value trimmed, read back through the vector iterator"
  | .numbers => "Collect integers into a vector and print its slice view and sum"
  | .abi => "Print the C declarations of a type's vector ABI"

/-- The words that a task wants. -/
def TaskName.wants : TaskName → String
  | .abi => "<TYPE>"
  | _ => "<VALUES>..."

def TaskName.wantsAbout : TaskName → String
  | .abi => "`RustString` or a primitive name such as `u32`"
  | _ => ""

def helpAbout : String := "Print this message or the help of the given subcommand(s)"

/-- A heading with rows in two columns under it, the first of the given width. -/
def table (heading : String) (width : Nat) (rows : List (String × String)) : String :=
  line heading ++ String.join (rows.map fun r => line ("  " ++ padded width r.1 ++ "  " ++ r.2))

def optionRows : List (String × String) :=
  [("    --trace", "Trace every boundary call at `trace` level"),
    ("    --capacity <N>", "Initial capacity of vectors created by the runtime [default: 0]"),
    ("    --json", "Print the allocation ledger as JSON"),
    ("-h, --help", "Print help")]

def usageLine (words : String) : String := line ("Usage: " ++ program ++ " " ++ words)

def generalHelp : String :=
  let tasks := [TaskName.lifo, .trim, .numbers, .abi].map fun t => (t.word, t.about)
  line about ++ "\n" ++ usageLine "[OPTIONS] <COMMAND>" ++ "\n" ++
    table "Commands:" 7 (tasks ++ [("help", helpAbout)]) ++ "\n" ++
    table "Options:" 18 (optionRows ++ [("-V, --version", "Print version")])

def TaskName.help (t : TaskName) : String :=
  line t.about ++ "\n" ++ usageLine (t.word ++ " [OPTIONS] " ++ t.wants) ++ "\n" ++
    table "Arguments:" 0 [(t.wants, t.wantsAbout)] ++ "\n" ++ table "Options:" 18 optionRows

def helpOnHelp : String :=
  line helpAbout ++ "\n" ++ usageLine "help [COMMAND]..." ++ "\n" ++
    table "Arguments:" 0 [("[COMMAND]...", "Print help for the subcommand(s)")]

end Custody.Command
