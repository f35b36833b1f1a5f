import Taskbook.Task.Priority
import Taskbook.Number.Integer

/-!
# Command Lines

A command line is a list of words: options, then a command, then the options and operands of
that command. It is read word by word against a *grammar*, the options and operands that may
stand at this point.

## Reading convention

* A word `--name=value` or two words `--name value` set an option. A second word that starts
  with a hyphen is no value, unless the option says that it takes such words.
* An option may be set once at each level; an option set after the command wins over the same
  one before it.
* After a lone `--` every word is an operand. A lone `-` always is one.
* Asking for help or for the version ends the reading on the spot. Anything that does not fit
  is a usage error, the first one met.
-/

namespace Taskbook.Cli

/-- Why reading a command line ends without a command to run. -/
inductive Halt where
  | usage
  /-- Help is asked for, about one command or about the whole program. -/
  | help (topic : Option String)
  | version
  deriving DecidableEq, Repr

/-- An option: its name, what stands for its value in a help page (nothing if it takes no
value), what it is for, whether it must be set, which values it takes, and whether a word with
a leading hyphen may be one. -/
structure OptionRule where
  name : String
  placeholder : Option String
  about : String
  required : Bool
  accepts : String → Bool
  hyphenValues : Bool

/-- Whether an option takes a value. -/
def OptionRule.takesValue (o : OptionRule) : Bool := o.placeholder.isSome

/-- An operand: what stands for it in a help page, what it is for, and which words it takes. -/
structure OperandRule where
  placeholder : String
  about : String
  accepts : String → Bool

/-- A command: its name, what it does, and what may stand after it. -/
structure CommandRule where
  name : String
  about : String
  options : List OptionRule
  operands : List OperandRule

/-- What may stand at one level of a command line. The topic is the command that the level
belongs to; the top level belongs to none. -/
structure Grammar where
  topic : Option String
  options : List OptionRule
  operands : List OperandRule
  commands : List String

/-- What has been read at one level. -/
structure Reading where
  values : List (String × String)
  operands : List String
  waiting : Option OptionRule
  optionsEnded : Bool

namespace Reading

/-- Nothing read yet. -/
def start : Reading := ⟨[], [], none, false⟩

/-- The value of an option. -/
def value? (r : Reading) (name : String) : Option String :=
  (r.values.find? fun v => v.1 == name).map Prod.snd

/-- Whether an option has been set. -/
def has (r : Reading) (name : String) : Bool :=
  (r.value? name).isSome

/-- Sets an option, once and to a value it takes. -/
def set (r : Reading) (o : OptionRule) (value : String) : Except Halt Reading :=
  if r.has o.name || !o.accepts value then .error .usage
  else .ok { r with values := r.values ++ [(o.name, value)], waiting := none }

/-- Adds an operand, if one more may stand here. -/
def addOperand (g : Grammar) (r : Reading) (word : String) : Except Halt Reading :=
  match g.operands[r.operands.length]? with
  | some operand =>
    if operand.accepts word then .ok { r with operands := r.operands ++ [word] } else .error .usage
  | none => .error .usage

/-- What a request for the version comes to: only the top level answers it. -/
def versionHalt (g : Grammar) : Halt :=
  if g.topic.isNone then .version else .usage

/-- Reads an option word without its two hyphens. -/
def longOption (g : Grammar) (r : Reading) (word : List Char) : Except Halt Reading :=
  let name := String.ofList (word.takeWhile (· != '='))
  let attached := (word.dropWhile (· != '=')).tail?.map String.ofList
  match name, attached with
  | "help", none => .error (.help g.topic)
  | "version", none => .error (versionHalt g)
  | _, _ =>
    match g.options.find? (fun o => o.name == name), attached with
    | none, _ => .error .usage
    | some o, some value => if o.takesValue then r.set o value else .error .usage
    | some o, none => if o.takesValue then .ok { r with waiting := some o } else r.set o ""

/-- Reads an option word with one hyphen, without that hyphen. -/
def shortOption (g : Grammar) : List Char → Halt
  | 'h' :: _ => .help g.topic
  | 'V' :: _ => versionHalt g
  | _ => .usage

/-- Reads one word that is not a command. -/
def word (g : Grammar) (r : Reading) (w : String) : Except Halt Reading :=
  if r.optionsEnded then
    if r.waiting.isSome then .error .usage else r.addOperand g w
  else
    match r.waiting, w.toList with
    | some o, '-' :: _ :: _ => if o.hyphenValues then r.set o w else .error .usage
    | some o, _ => r.set o w
    | none, ['-', '-'] => .ok { r with optionsEnded := true }
    | none, '-' :: '-' :: name => r.longOption g name
    | none, '-' :: c :: cs => .error (shortOption g (c :: cs))
    | none, _ => r.addOperand g w

/-- Reads the words of one level, up to a command if the level has commands. Answers what was
read, and the command with the words after it. -/
def words (g : Grammar) (r : Reading) :
    List String → Except Halt (Reading × Option (String × List String))
  | [] => if r.waiting.isSome then .error .usage else .ok (r, none)
  | w :: ws =>
    if !r.optionsEnded && r.waiting.isNone && g.commands.contains w then .ok (r, some (w, ws))
    else
      match r.word g w with
      | .ok r => words g r ws
      | .error h => .error h

end Reading

/-! ### The commands of the task book -/

/-- What a run is asked to do. -/
inductive Command where
  | add (title : String) (dueInDays : Option Int64)
  | list (all : Bool)
  | done (id : Int64)
  | undo (id : Int64)
  | postpone (id days : Int64)
  | priority (id : Int64) (priority : Priority)
  deriving DecidableEq, Repr

/-- The name of a command, as it is typed and logged. -/
def Command.name : Command → String
  | add .. => "add"
  | list _ => "list"
  | done _ => "done"
  | undo _ => "undo"
  | postpone .. => "postpone"
  | priority .. => "priority"

/-- A command and the database it is to work on. -/
structure Invocation where
  db : Option String
  command : Command
  deriving DecidableEq, Repr

/-- Whether a word is an integer. -/
def isInteger (word : String) : Bool := (Number.readInteger word).isSome

/-- Whether a word names a priority. -/
def isPriority (word : String) : Bool := (Priority.read word).toOption.isSome

/-- The option that names the database; it may stand before and after the command. -/
def dbOption : OptionRule :=
  ⟨"db", some "DB", "SQLite database file (overrides TASKY_DB_PATH)", false, (· ≠ ""), false⟩

/-- The operand that names a task. -/
def idOperand : OperandRule := ⟨"<ID>", "", isInteger⟩

/-- The commands, each with its own options and its operands. -/
def commandRules : List CommandRule :=
  [⟨"add", "Create a task",
     [⟨"due-in-days", some "DUE_IN_DAYS", "Days from now until the task is due", false,
       isInteger, true⟩],
     [⟨"<TITLE>", "", fun _ => true⟩]⟩,
   ⟨"list", "Show relevant tasks, or every task with `--all`",
     [⟨"all", none, "", false, fun _ => true, false⟩], []⟩,
   ⟨"done", "Mark a task done", [], [idOperand]⟩,
   ⟨"undo", "Reopen a done task", [], [idOperand]⟩,
   ⟨"postpone", "Hide a task for a number of days",
     [⟨"days", some "DAYS", "", true, isInteger, false⟩], [idOperand]⟩,
   ⟨"priority", "Change task priority (high, normal, low)", [],
     [idOperand, ⟨"<PRIORITY>", "", isPriority⟩]⟩]

/-- The command that asks for help about commands. -/
def helpRule : CommandRule :=
  ⟨"help", "Print this message or the help of the given subcommand(s)", [],
    [⟨"[COMMAND]...", "Print help for the subcommand(s)", fun _ => true⟩]⟩

/-- What may stand before the command. -/
def topGrammar : Grammar :=
  ⟨none, [dbOption], [], (commandRules ++ [helpRule]).map CommandRule.name⟩

/-- What may stand after the name of a command. -/
def CommandRule.grammar (rule : CommandRule) : Grammar :=
  ⟨some rule.name, dbOption :: rule.options, rule.operands, []⟩

/-- The command that the words after its name ask for. -/
def command? (name : String) (r : Reading) : Option Command :=
  let id := r.operands.head?.bind Number.readInteger
  match name with
  | "add" => r.operands.head?.map fun title =>
      .add title ((r.value? "due-in-days").bind Number.readInteger)
  | "list" => some (.list (r.has "all"))
  | "done" => id.map .done
  | "undo" => id.map .undo
  | "postpone" => do return .postpone (← id) (← (r.value? "days").bind Number.readInteger)
  | "priority" => do
      return .priority (← id) (← r.operands[1]?.bind fun w => (Priority.read w).toOption)
  | _ => none

/-- Reads the words after `help`: at most one, a command. -/
def helpOn (words : List String) : Halt :=
  match words with
  | [] => .help none
  | [name] => if topGrammar.commands.contains name then .help (some name) else .usage
  | _ => .usage

/-- Reads a command line. -/
def Invocation.read (words : List String) : Except Halt Invocation := do
  let (top, rest) ← Reading.start.words topGrammar words
  match rest with
  | none => throw .usage
  | some (name, words) =>
    if name = helpRule.name then throw (helpOn words)
    match commandRules.find? fun rule => rule.name == name with
    | none => throw .usage
    | some rule =>
      let (own, _) ← Reading.start.words rule.grammar words
      match command? name own with
      | some command => return ⟨own.value? "db" <|> top.value? "db", command⟩
      | none => throw .usage

end Taskbook.Cli
