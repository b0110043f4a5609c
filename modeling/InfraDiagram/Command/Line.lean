/-!
# Command lines

A command line is a list of words: flags for all commands, the name of a command, and its own flags,
options and operands. An option's value is attached (`--output=x`, `-o=x`, `-ox`) or the next word; a
word that looks like an option is never taken for a value. After `--` every word is an operand. What
is wrong at a word, or asks for the version or for help there, decides at once; what is missing is
only looked for at the end.
-/

namespace InfraDiagram.Command

/-! ## 1. Words -/

/-- An option that takes a value. -/
structure ValueOption where
  long : String
  short : Option Char := none
  /-- The value is a path, and so not empty. -/
  isPath : Bool := true
  deriving DecidableEq, Repr

/-- What a command takes besides the flags of all commands. -/
structure Shape where
  options : List ValueOption := []
  /-- The number of operands, all of them paths. -/
  operands : Nat := 0
  deriving DecidableEq, Repr

/-- Why a command line asks for no run. -/
inductive Stop where
  | version
  | help
  | misuse
  deriving DecidableEq, Repr

/-- What has been read of a command's words. -/
structure Words where
  flags : List String := []
  values : List (String × String) := []
  operands : List String := []
  deriving DecidableEq, Repr

namespace Words

/-- Sets a flag. It may not be set twice. -/
def setFlag (w : Words) (name : String) : Except Stop Words :=
  if w.flags.contains name then .error .misuse else .ok { w with flags := name :: w.flags }

/-- Gives an option its value. It may not have one yet. -/
def setValue (w : Words) (o : ValueOption) (value : String) : Except Stop Words :=
  if (w.values.lookup o.long).isSome || (o.isPath && value.isEmpty) then .error .misuse
  else .ok { w with values := (o.long, value) :: w.values }

/-- Adds an operand, if another one may come. -/
def addOperand (shape : Shape) (w : Words) (operand : String) : Except Stop Words :=
  if operand.isEmpty || shape.operands ≤ w.operands.length then .error .misuse
  else .ok { w with operands := w.operands ++ [operand] }

/-- Adds operands in turn. -/
def addOperands (shape : Shape) : Words → List String → Except Stop Words
  | w, [] => .ok w
  | w, operand :: rest => do addOperands shape (← w.addOperand shape operand) rest

/-- The value of an option. -/
def value? (w : Words) (long : String) : Option String := w.values.lookup long

end Words

/-- A word that starts like an option. A dash alone does not. -/
def looksLikeOption (word : String) : Bool :=
  match word.toList with
  | '-' :: _ :: _ => true
  | _ => false

/-! ## 2. Options -/

/-- A flag without a value, by its long name. -/
def longFlag (w : Words) (name : String) : Except Stop Words :=
  match name with
  | "help" => .error .help
  | "version" => .error .version
  | "verbose" => w.setFlag name
  | "json" => w.setFlag name
  | _ => .error .misuse

/-- The long name of a flag's letter. -/
def flagName? (letter : Char) : Option String :=
  match letter with
  | 'h' => some "help"
  | 'V' => some "version"
  | 'v' => some "verbose"
  | _ => none

/-- Reads what is after two dashes: a flag, or an option with or without its value. Gives the option
    that still waits for a value. -/
def readLong (shape : Shape) (w : Words) (text : List Char) :
    Except Stop (Words × Option ValueOption) :=
  let name := String.ofList (text.takeWhile fun c => c != '=')
  let attached := (text.dropWhile fun c => c != '=').tail?
  match shape.options.find? fun o => o.long == name, attached with
  | some o, some value => (w.setValue o (String.ofList value)).map fun w => (w, none)
  | some o, none => .ok (w, some o)
  | none, some _ => .error .misuse
  | none, none => (longFlag w name).map fun w => (w, none)

/-- Reads the letters after one dash: flags, and at the end an option with or without its value. -/
def readShort (shape : Shape) : Words → List Char → Except Stop (Words × Option ValueOption)
  | w, [] => .ok (w, none)
  | w, letter :: rest =>
    match shape.options.find? fun o => o.short == some letter with
    | some o =>
      match rest with
      | [] => .ok (w, some o)
      | '=' :: value => (w.setValue o (String.ofList value)).map fun w => (w, none)
      | value => (w.setValue o (String.ofList value)).map fun w => (w, none)
    | none =>
      match flagName? letter with
      | some name => do readShort shape (← longFlag w name) rest
      | none => .error .misuse

/-- Reads a word that looks like an option. -/
def readOption (shape : Shape) (w : Words) (word : String) :
    Except Stop (Words × Option ValueOption) :=
  match word.toList with
  | '-' :: '-' :: text => readLong shape w text
  | _ :: letters => readShort shape w letters
  | [] => .error .misuse

/-! ## 3. A command's words -/

/-- Reads the words of a command; an option may be waiting for its value. -/
def readWords (shape : Shape) :
    Words → (waiting : Option ValueOption) → List String → Except Stop Words
  | w, none, [] => .ok w
  | _, some _, [] => .error .misuse
  | w, some o, word :: rest =>
    if looksLikeOption word then .error .misuse
    else do readWords shape (← w.setValue o word) none rest
  | w, none, word :: rest =>
    if word == "--" then w.addOperands shape rest
    else if looksLikeOption word then do
      let (w, waiting) ← readOption shape w word
      readWords shape w waiting rest
    else do readWords shape (← w.addOperand shape word) none rest

/-! ## 4. Commands -/

/-- What a command line asks for. -/
inductive Request where
  | generate (input : String) (output report settings stackName : Option String)
  | validate (input : String)
  | batch (input output : String) (settings : Option String)
  deriving DecidableEq, Repr

/-- What the command line says, with the name of the command it stopped in. -/
inductive Reading where
  | run (r : Request)
  | version (command : Option String)
  | help
  | misuse
  deriving DecidableEq, Repr

/-- The option for a settings file. -/
def settingsOption : ValueOption := { long := "config", short := some 'c' }

/-- The shape of each command. -/
def shape? : String → Option Shape
  | "generate" => some {
      operands := 1
      options := [
        { long := "output", short := some 'o' },
        { long := "report" },
        settingsOption,
        { long := "stack-name", isPath := false }] }
  | "validate" => some { operands := 1 }
  | "batch" => some {
      operands := 1
      options := [{ long := "output-dir", short := some 'o' }, settingsOption] }
  | _ => none

/-- The command of its words. An operand or an option that it needs may be missing. -/
def ofWords? (name : String) (w : Words) : Option Request :=
  match name, w.operands with
  | "generate", [input] =>
    some (.generate input (w.value? "output") (w.value? "report") (w.value? "config")
      (w.value? "stack-name"))
  | "validate", [input] => some (.validate input)
  | "batch", [input] =>
    (w.value? "output-dir").map fun output => .batch input output (w.value? "config")
  | _, _ => none

/-- Reads the words after the name of a command. -/
def readCommand (name : String) (shape : Shape) (words : List String) : Reading :=
  match readWords shape {} none words with
  | .error .version => .version (some name)
  | .error .help => .help
  | .error .misuse => .misuse
  | .ok w =>
    match ofWords? name w with
    | some r => .run r
    | none => .misuse

/-- Reads the words after `help`: the name of a command, or nothing. -/
def readHelp : List String → Reading
  | [] => .help
  | name :: rest =>
    if name == "help" then readHelp rest
    else if (shape? name).isSome && rest.isEmpty then .help
    else .misuse

/-- Reads a command line from its start; `w` holds the flags read so far. -/
def readLine (w : Words) : List String → Reading
  | [] => .misuse
  | word :: rest =>
    if word == "help" then readHelp rest
    else
      match shape? word with
      | some shape => readCommand word shape rest
      | none =>
        if word == "--" || !looksLikeOption word then .misuse
        else
          match readOption {} w word with
          | .ok (w, _) => readLine w rest
          | .error .version => .version none
          | .error .help => .help
          | .error .misuse => .misuse

/-- Reads a command line. -/
def read (words : List String) : Reading := readLine {} words

end InfraDiagram.Command
