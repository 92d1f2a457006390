import ColonGap.Text.Bytes

/-!
# Help pages

The help page of each command: what it does, how it is called, and its flags.
-/

namespace ColonGap

namespace CommandLine

/-- A command. -/
inductive Command where
  /-- Lint files; this is the command if no other one is named. -/
  | lint
  /-- List the rules. -/
  | rules
  /-- Show a help page. -/
  | help
  /-- Explain the completion of command lines in a shell. -/
  | completion
deriving DecidableEq, Repr

namespace Command

/-- The command of a word. -/
def ofWord? (word : Bytes) : Option Command :=
  if word == utf8 "rules" then some rules
  else if word == utf8 "help" then some help
  else if word == utf8 "completion" then some completion
  else none

/-- The lines of the help page of a command. -/
def pageLines : Command → List String
  | lint =>
    ["colonlint checks the whitespace between a property key and its colon in",
      "object literals and destructuring patterns.",
      "",
      "Paths may be files or directories. With no paths, or \"-\", source is read",
      "from stdin.",
      "",
      "Exit codes: 0 clean, 1 failures or a non-empty diff, 2 configuration or I/O",
      "error.",
      "",
      "Usage:",
      "  colonlint [flags] [paths...]",
      "  colonlint [command]",
      "",
      "Available Commands:",
      "  completion  Generate the autocompletion script for the specified shell",
      "  help        Help about any command",
      "  rules       List available rules and their options",
      "",
      "Flags:",
      "  -c, --config string      path to config file",
      "      --diff               print a unified diff of fixes instead of a report",
      "      --fix                write fixes to files (stdin: fixed source to stdout)",
      "  -f, --format string      report format: text, json or sarif (default from config)",
      "  -h, --help               help for colonlint",
      "  -q, --quiet              report errors only",
      "      --rule stringArray   set a rule option as name=option (repeatable)",
      "  -v, --verbose            log debug output to stderr",
      "      --version            version for colonlint",
      "",
      "Use \"colonlint [command] --help\" for more information about a command."]
  | rules =>
    ["List available rules and their options",
      "",
      "Usage:",
      "  colonlint rules [flags]",
      "",
      "Flags:",
      "  -h, --help   help for rules",
      "  -l, --long   show rationale and a config example for each rule"]
  | help =>
    ["Help provides help for any command in the application.",
      "Simply type colonlint help [path to command] for full details.",
      "",
      "Usage:",
      "  colonlint help [command] [flags]",
      "",
      "Flags:",
      "  -h, --help   help for help"]
  | completion =>
    ["Generate the autocompletion script for colonlint for the specified shell.",
      "See each sub-command's help for details on how to use the generated script.",
      "",
      "Usage:",
      "  colonlint completion [command]",
      "",
      "Available Commands:",
      "  bash        Generate the autocompletion script for bash",
      "  fish        Generate the autocompletion script for fish",
      "  powershell  Generate the autocompletion script for powershell",
      "  zsh         Generate the autocompletion script for zsh",
      "",
      "Flags:",
      "  -h, --help   help for completion",
      "",
      "Use \"colonlint completion [command] --help\" for more information about a command."]

/-- The help page of a command. -/
def page (c : Command) : Bytes :=
  c.pageLines.flatMap fun line ↦ utf8 line ++ utf8 "\n"

end Command

end CommandLine

end ColonGap
