import CdmaCall.Number.Double
import CdmaCall.Scenario

/-!
# Command line arguments

Options of the program stand before the name of a command, those of a command after it. Arguments
are read from left to right, and the first that is wrong decides; a question for help or for the
version is answered at once.
-/

namespace CdmaCall

namespace Cli

/-- What the program is asked to do. -/
inductive Command where
  | simulate (scenario : Scenario) (json : Bool)
  | validateConfig
  | generateConfig (output : Option String)
  deriving DecidableEq, Repr

/-- A command together with the settings it runs under. -/
structure Invocation where
  configFile : Option String := none
  logLevel : Option String := none
  timeout : Option UInt64 := none
  command : Command
  deriving DecidableEq, Repr

/-- Why the arguments lead to no command. -/
inductive Stop where
  | help | version | refused
  deriving DecidableEq, Repr, Inhabited

/-- Options. -/
inductive Flag where
  | config | logLevel | timeout | json | output | help | version
  deriving DecidableEq, Repr, Inhabited

namespace Flag

/-- The name after two hyphens. -/
def long : Flag → String
  | config => "config"
  | logLevel => "log-level"
  | timeout => "call-waiting-timeout-ms"
  | json => "json"
  | output => "output"
  | help => "help"
  | version => "version"

/-- The letter after one hyphen. -/
def letter? : Flag → Option Char
  | config => some 'c'
  | logLevel => some 'l'
  | output => some 'o'
  | help => some 'h'
  | version => some 'V'
  | timeout | json => none

/-- Whether a value belongs to the option. -/
def isValued : Flag → Bool
  | config | logLevel | timeout | output => true
  | json | help | version => false

end Flag

/-- A number of 64 bits: digits, perhaps with a plus sign before them. -/
def parseWord64? (s : String) : Option UInt64 :=
  let ds := match s.toList with
    | '+' :: ds => ds
    | ds => ds
  if ds.isEmpty || !ds.all Char.isDigit then none
  else
    let n := Double.digitsValue ds
    if n < UInt64.size then some (.ofNat n) else none

/-- The values that an option takes: a file has a name, and a timeout is a number. -/
def Flag.takes : Flag → String → Bool
  | .config, v | .output, v => !v.isEmpty
  | .timeout, v => (parseWord64? v).isSome
  | _, _ => true

/-! ### One argument -/

/-- What an argument is by itself. -/
inductive Shape where
  /-- Two hyphens: no options follow. -/
  | separator
  /-- An option, with the value that is attached to it. -/
  | flag (f : Flag) (attached : Option String)
  /-- Looks like an option and is none. -/
  | unknown
  | word
  deriving DecidableEq, Repr

/-- An option by its long name, up to an equals sign. -/
def longShape (flags : List Flag) (cs : List Char) : Shape :=
  let name := String.ofList (cs.takeWhile (· != '='))
  match flags.find? (·.long == name), cs.dropWhile (· != '=') with
  | none, _ => .unknown
  | some f, [] => .flag f none
  | some f, _ :: v => if f.isValued then .flag f (some (String.ofList v)) else .unknown

/-- An option by its letter. A value may follow it directly, or after an equals sign. Letters
after an option without value do not matter: each such option ends the reading. -/
def letterShape (flags : List Flag) (c : Char) (rest : List Char) : Shape :=
  match flags.find? (·.letter? == some c), rest with
  | none, _ => .unknown
  | some f, [] => .flag f none
  | some f, '=' :: v => .flag f (some (String.ofList v))
  | some f, v => .flag f (some (String.ofList v))

/-- Tell what an argument is. A hyphen alone is a word. -/
def shape (flags : List Flag) (s : String) : Shape :=
  match s.toList with
  | ['-', '-'] => .separator
  | '-' :: '-' :: cs => longShape flags cs
  | '-' :: c :: cs => letterShape flags c cs
  | _ => .word

/-- Whether an argument can be the value of the option before it. -/
def isValue (s : String) : Bool := s == "-" || !s.startsWith "-"

/-! ### Levels -/

/-- The place where arguments are read: the program or a command. -/
structure Level where
  flags : List Flag
  /-- The words that may follow those that were read. -/
  accepts : List String → String → Bool
  /-- Whether the first word ends this level. -/
  endsAtWord : Bool := false

/-- The options and the words of a level. -/
structure Given where
  flags : List (Flag × String) := []
  words : List String := []
  deriving DecidableEq, Repr

/-- The value of an option, if it was given. -/
def Given.value? (g : Given) (f : Flag) : Option String := g.flags.lookup f

namespace Level

variable (level : Level)

/-- Take in an option. No option is given twice. -/
def addFlag (g : Given) (f : Flag) (v : String) : Except Stop Given :=
  if f == .help then .error .help
  else if f == .version then .error .version
  else if (g.value? f).isSome || !f.takes v then .error .refused
  else .ok { g with flags := g.flags ++ [(f, v)] }

/-- Take in a word. -/
def addWord (g : Given) (w : String) : Except Stop Given :=
  if level.accepts g.words w then .ok { g with words := g.words ++ [w] } else .error .refused

/-- Read the arguments of a level. A level that ends at its first word has that word, and
everything after it, for its words; the word cannot stand after a separator. -/
def read (g : Given) : List String → Except Stop Given
  | [] => .ok g
  | a :: rest =>
    match shape level.flags a with
    | .unknown => .error .refused
    | .separator =>
      if level.endsAtWord then .error .refused else rest.foldlM level.addWord g
    | .word => do
      let g ← level.addWord g a
      if level.endsAtWord then .ok { g with words := a :: rest } else read g rest
    | .flag f (some v) => do read (← addFlag g f v) rest
    | .flag f none =>
      if f.isValued then
        match rest with
        | [] => .error .refused
        | v :: rest => if isValue v then do read (← addFlag g f v) rest else .error .refused
      else do read (← addFlag g f "") rest

end Level

/-! ### Commands -/

/-- The names of the commands. -/
def commandNames : List String := ["simulate", "validate-config", "generate-config", "help"]

/-- The arguments of the program: options, and then the name of a command. -/
def programLevel : Level where
  flags := [.config, .logLevel, .timeout, .help, .version]
  accepts _ w := commandNames.contains w
  endsAtWord := true

/-- The arguments of `simulate`: the name of a scenario. -/
def simulateLevel : Level where
  flags := [.json, .help]
  accepts words w := words.isEmpty && (Named.ofName? (α := Scenario) w).isSome

/-- The arguments of `validate-config`: none. -/
def validateLevel : Level where
  flags := [.help]
  accepts _ _ := false

/-- The arguments of `generate-config`: an output file. -/
def generateLevel : Level where
  flags := [.output, .help]
  accepts _ _ := false

/-- Read the arguments of a command. -/
def readCommand (name : String) (args : List String) : Except Stop Command :=
  if name == "simulate" then do
    let g ← simulateLevel.read {} args
    match g.words.head?.bind Named.ofName? with
    | none => .error .refused
    | some scenario => .ok (.simulate scenario (g.value? .json).isSome)
  else if name == "validate-config" then do
    let _ ← validateLevel.read {} args
    .ok .validateConfig
  else if name == "generate-config" then do
    let g ← generateLevel.read {} args
    .ok (.generateConfig (g.value? .output))
  else match args with
    | [] => .error .help
    | [name] => .error (if commandNames.contains name then .help else .refused)
    | _ => .error .refused

/-- The variable that stands in for the option `Flag.timeout`. -/
def timeoutVariable : String := "CDMA_CALL_WAITING_TIMEOUT_MS"

/-- The timeout that is asked for. The option goes before the variable. -/
def timeoutOf (g : Given) (env : List (String × String)) : Except Stop (Option UInt64) :=
  match (g.value? .timeout).or (env.lookup timeoutVariable) with
  | none => .ok none
  | some v =>
    match parseWord64? v with
    | none => .error .refused
    | some n => .ok (some n)

/-- Read the arguments of the program. -/
def parse (env : List (String × String)) (args : List String) : Except Stop Invocation := do
  let g ← programLevel.read {} args
  match g.words with
  | [] => .error .refused
  | name :: rest =>
    let command ← readCommand name rest
    let timeout ← timeoutOf g env
    .ok { configFile := g.value? .config, logLevel := g.value? .logLevel, timeout, command }

end Cli

end CdmaCall
