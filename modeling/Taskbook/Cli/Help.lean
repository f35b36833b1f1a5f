import Taskbook.Cli.Arguments

/-!
# Help Pages

A page of help says what a command does, how it is called, and what may stand on its command
line. It is read off the grammar of the command, so a page and the reader of command lines
cannot disagree.

## Layout convention

Sections without rows are left out. The right column of a section starts two blanks after its
longest left entry, also where a row has nothing to say on the right. Options are listed by
name, with room for a one-letter spelling before them; help and version come last.
-/

namespace Taskbook.Cli

/-- A page of help: what the command does, how it is called, and the rows of its sections. -/
structure HelpPage where
  about : String
  usage : List String
  commands : List (String × String)
  operands : List (String × String)
  options : List (String × String)
  deriving DecidableEq, Repr

namespace HelpPage

/-- The lines of a section. -/
def sectionText (heading : String) (rows : List (String × String)) : String :=
  let width := (rows.map fun row => row.1.length).foldl max 0
  let line (row : String × String) : String :=
    "  " ++ String.ofList (row.1.toList.rightpad (width + 2) ' ') ++ row.2 ++ "\n"
  if rows.isEmpty then ""
  else "\n" ++ heading ++ ":\n" ++ String.join (rows.map line)

/-- The text of a page. -/
def text (page : HelpPage) : String :=
  page.about ++ "\n\nUsage: " ++ " ".intercalate page.usage ++ "\n" ++
    sectionText "Commands" page.commands ++ sectionText "Arguments" page.operands ++
    sectionText "Options" page.options

end HelpPage

/-- How an option is written, with its value. -/
def OptionRule.usage (o : OptionRule) : String :=
  "--" ++ o.name ++ o.placeholder.elim "" fun value => " <" ++ value ++ ">"

/-- The row of an option. -/
def OptionRule.row (o : OptionRule) : String × String :=
  ("    " ++ o.usage, o.about)

/-- The row of an operand. -/
def OperandRule.row (o : OperandRule) : String × String :=
  (o.placeholder, o.about)

/-- The row of a command. -/
def CommandRule.row (c : CommandRule) : String × String :=
  (c.name, c.about)

/-- The row of the option that asks for help. -/
def helpRow : String × String := ("-h, --help", "Print help")

/-- The row of the option that asks for the version. -/
def versionRow : String × String := ("-V, --version", "Print version")

/-- The rows of options, by name. -/
def optionRows (options : List OptionRule) : List (String × String) :=
  (options.mergeSort fun a b => decide (a.name ≤ b.name)).map OptionRule.row

/-- The name of the program. -/
def programName : String := "tasky"

/-- The page about the whole program. -/
def programPage : HelpPage where
  about := "Personal task tracker"
  usage := [programName, "[OPTIONS]", "<COMMAND>"]
  commands := (commandRules ++ [helpRule]).map CommandRule.row
  operands := []
  options := optionRows topGrammar.options ++ [helpRow, versionRow]

/-- The page about a command. Options that must be set stand in the call. -/
def CommandRule.page (rule : CommandRule) : HelpPage where
  about := rule.about
  usage :=
    [programName, rule.name, "[OPTIONS]"] ++
      (rule.options.filter OptionRule.required).map OptionRule.usage ++
      rule.operands.map OperandRule.placeholder
  commands := []
  operands := rule.operands.map OperandRule.row
  options := optionRows rule.grammar.options ++ [helpRow]

/-- The page about the command that asks for help, which has no options. -/
def helpRulePage : HelpPage where
  about := helpRule.about
  usage := [programName, helpRule.name] ++ helpRule.operands.map OperandRule.placeholder
  commands := []
  operands := helpRule.operands.map OperandRule.row
  options := []

/-- The page about a topic. -/
def helpPage (topic : Option String) : HelpPage :=
  match topic with
  | none => programPage
  | some name =>
    (commandRules.find? fun rule => rule.name == name).elim helpRulePage CommandRule.page

end Taskbook.Cli
