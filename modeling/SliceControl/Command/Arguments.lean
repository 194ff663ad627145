/-!
# Command-line arguments

A command takes flags, and either positional arguments or a further command with flags of its own.
A long flag begins with two dashes and a short one with one; the value of a flag stands after an
equals sign or in the next argument, which may not begin with a dash. Short flags may be joined.
After two dashes alone all arguments are positional.
-/

namespace SliceControl.Command

structure Flag where
  long : String
  short : Option Char
  takesValue : Bool
  deriving DecidableEq

/-- What a command takes. -/
inductive Grammar where
  | positional (flags : List Flag) (count : Nat)
  | commands (flags : List Flag) (named : List (String × Grammar))

namespace Grammar

def flags : Grammar → List Flag
  | positional flags _ | commands flags _ => flags

/-- How many positional arguments are taken. -/
def count : Grammar → Nat
  | positional _ count => count
  | commands _ _ => 0

/-- The grammar of a further command. -/
def command? (name : String) : Grammar → Option Grammar
  | positional _ _ => none
  | commands _ named => named.lookup name

/-- Whether a further command has to be named. -/
def isOpen : Grammar → Bool
  | positional _ _ => false
  | commands _ _ => true

end Grammar

/-- Flags that were given to a command, with their values; the last one first. -/
abbrev Given := List (Flag × String)

/-- What has been read: the commands named, the innermost first, the flags given to each, and the
positional arguments, the last one first. -/
structure Reading where
  path : List String
  /-- The flags of the innermost command. -/
  inner : Given
  /-- The flags of the commands around it, the innermost first. -/
  outer : List Given
  positionals : List String

namespace Reading

def start : Reading := ⟨[], [], [], []⟩

/-- All flags given, those of the innermost command first. -/
def given (reading : Reading) : Given := (reading.inner :: reading.outer).flatten

/-- The value of a flag, where an inner command goes before those around it. -/
def value? (reading : Reading) (long : String) : Option String :=
  (reading.given.find? (·.1.long = long)).map Prod.snd

end Reading

/-- Why reading ends early. -/
inductive Stop where
  | refused
  | help
  | version
  deriving DecidableEq

/-- Records a flag. A flag with a value may be given only once to a command, and some flags end the
reading at once. -/
def Reading.give (reading : Reading) (flag : Flag) (value : String) : Except Stop Reading :=
  if flag.long = "help" then .error .help
  else if flag.long = "version" then .error .version
  else if flag.takesValue && reading.inner.any (·.1 = flag) then .error .refused
  else .ok { reading with inner := (flag, value) :: reading.inner }

/-- An argument by its form. -/
inductive Form where
  | separator
  | long (name : String) (value : Option String)
  | short (letters : List Char)
  | word (text : String)
  deriving DecidableEq

def Form.ofText (text : String) : Form :=
  match text.toList with
  | ['-', '-'] => .separator
  | '-' :: '-' :: rest =>
    let name := String.ofList (rest.takeWhile (· ≠ '='))
    match rest.dropWhile (· ≠ '=') with
    | _ :: value => .long name (some (String.ofList value))
    | [] => .long name none
  | ['-'] => .word text
  | '-' :: letters => .short letters
  | _ => .word text

/-- Joined short flags; gives also the last flag if its value is still to come. -/
def giveShort (grammar : Grammar) (reading : Reading) :
    List Char → Except Stop (Reading × Option Flag)
  | [] => .ok (reading, none)
  | letter :: rest =>
    match grammar.flags.find? (·.short = some letter) with
    | none => .error .refused
    | some flag =>
      if flag.takesValue then
        match rest with
        | [] => .ok (reading, some flag)
        | '=' :: value => (reading.give flag (String.ofList value)).map (·, none)
        | value => (reading.give flag (String.ofList value)).map (·, none)
      else do giveShort grammar (← reading.give flag "") rest

/-- A long flag; gives also the flag if its value is still to come. -/
def giveLong (grammar : Grammar) (reading : Reading) (name : String) (value : Option String) :
    Except Stop (Reading × Option Flag) :=
  match grammar.flags.find? (·.long = name) with
  | none => .error .refused
  | some flag =>
    match flag.takesValue, value with
    | true, some value => (reading.give flag value).map (·, none)
    | true, none => .ok (reading, some flag)
    | false, some _ => .error .refused
    | false, none => (reading.give flag "").map (·, none)

/-- A positional argument or the name of a further command. -/
def giveWord (grammar : Grammar) (reading : Reading) (word : String) :
    Except Stop (Grammar × Reading) :=
  if reading.positionals.length < grammar.count then
    .ok (grammar, { reading with positionals := word :: reading.positionals })
  else match grammar.command? word with
    | some inner =>
      .ok (inner, ⟨word :: reading.path, [], reading.inner :: reading.outer, []⟩)
    | none => .error (if grammar.isOpen && word = "help" then .help else .refused)

/-- Arguments that are all positional. -/
def readPositionals (grammar : Grammar) (reading : Reading) (words : List String) :
    Except Stop (Grammar × Reading) :=
  let all := words.reverse ++ reading.positionals
  if all.length ≤ grammar.count then .ok (grammar, { reading with positionals := all })
  else .error .refused

/-- Reads the arguments of a command; `pending` is a flag whose value comes next. -/
def readArguments (grammar : Grammar) (reading : Reading) (pending : Option Flag) :
    List String → Except Stop (Grammar × Reading)
  | [] => if pending.isSome then .error .refused else .ok (grammar, reading)
  | argument :: rest =>
    match pending, Form.ofText argument with
    | some flag, .word value => do
      readArguments grammar (← reading.give flag value) none rest
    | some _, _ => .error .refused
    | none, .separator => readPositionals grammar reading rest
    | none, .long name value => do
      let (reading, pending) ← giveLong grammar reading name value
      readArguments grammar reading pending rest
    | none, .short letters => do
      let (reading, pending) ← giveShort grammar reading letters
      readArguments grammar reading pending rest
    | none, .word word => do
      let (grammar, reading) ← giveWord grammar reading word
      readArguments grammar reading none rest

/-- What was read, if no positional argument and no command is missing. -/
def Grammar.read (grammar : Grammar) (arguments : List String) : Except Stop Reading := do
  let (inner, reading) ← readArguments grammar .start none arguments
  if inner.isOpen || reading.positionals.length < inner.count then throw .refused
  return reading

end SliceControl.Command
