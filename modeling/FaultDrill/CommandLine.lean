import FaultDrill.Config.Toml
import FaultDrill.Rehearsal

/-! # The command line

Arguments are read from left to right. An option takes its value from behind an equals
sign or from the next argument, which must not look like an option. A value of its own
argument is looked at when the next option begins or everything has been read. A question
for help or for the version is answered as soon as it is met, a mistake ends the reading.
-/

namespace FaultDrill

namespace CommandLine

/-- An option that takes a value. -/
inductive Flag
  | config
  | name
  | component
  | preload
  | jsonLog
  deriving DecidableEq, Repr

/-- What the arguments are read for: the program or one of its commands. -/
inductive Level
  | program
  | run
  | checkConfig
  | help
  deriving DecidableEq, Repr

/-- How the reading ends without a command. -/
inductive Stop
  | help (level : Level)
  | version
  | misuse
  deriving DecidableEq, Repr

/-- A word that starts with a dash. -/
inductive Word
  | flag (flag : Flag) (value : Option (List Char))
  | stop (stop : Stop)
  deriving DecidableEq, Repr

namespace Level

def flags : Level → List Flag
  | run => [.config, .name, .component, .preload, .jsonLog]
  | _ => [.config]

def ofName? (name : String) : Option Level :=
  if name = "run" then some run else if name = "check-config" then some checkConfig else none

end Level

namespace Flag

def long : Flag → String
  | config => "config"
  | name => "name"
  | component => "component"
  | preload => "preload"
  | jsonLog => "json-log"

/-- An unsigned number of at most 64 bits; it may have a plus sign. -/
def number? (value : String) : Option UInt64 :=
  let digits := match value.toList with
    | '+' :: rest => rest
    | chars => chars
  if digits ≠ [] ∧ digits.all Char.isDigit then
    let n := Decimal.value digits
    if n < UInt64.size then some (.ofNat n) else none
  else none

/-- A path has at least one character, a number is a number. -/
def accepts (value : String) : Flag → Bool
  | config | jsonLog => value ≠ ""
  | preload => (number? value).isSome
  | name | component => true

end Flag

/-! ## Words -/

/-- A word after two dashes, cut at its first equals sign. -/
def longWord (level : Level) (chars : List Char) : Word :=
  let name := String.ofList (chars.takeWhile (· ≠ '='))
  let value := match chars.dropWhile (· ≠ '=') with
    | [] => none
    | _ :: value => some value
  match level.flags.find? (·.long = name) with
  | some flag => .flag flag value
  | none =>
    if value.isSome then .stop .misuse
    else if name = "help" then .stop (.help level)
    else if name = "version" ∧ level = .program then .stop .version
    else .stop .misuse

/-- A word after one dash. The value of an option may follow its letter at once. -/
def shortWord (level : Level) : List Char → Word
  | 'c' :: [] => .flag .config none
  | 'c' :: '=' :: value => .flag .config (some value)
  | 'c' :: value => .flag .config (some value)
  | 'h' :: _ => .stop (.help level)
  | 'V' :: _ => if level = .program then .stop .version else .stop .misuse
  | _ => .stop .misuse

inductive Argument
  | plain
  /-- Nothing after it is an option. -/
  | barrier
  | word (word : Word)
  deriving DecidableEq, Repr

def argument (level : Level) (text : String) : Argument :=
  match text.toList with
  | ['-', '-'] => .barrier
  | '-' :: '-' :: rest => .word (longWord level rest)
  | '-' :: c :: rest => .word (shortWord level (c :: rest))
  | _ => .plain

/-! ## Settings -/

/-- The values given at one level. -/
abbrev Settings := List (Flag × String)

/-- Set an option. It may be given once, and only a value that it accepts. -/
def set (flag : Flag) (value : String) (settings : Settings) : Except Stop Settings :=
  if flag.accepts value ∧ (settings.lookup flag).isNone then .ok ((flag, value) :: settings)
  else .error .misuse

/-- The option that was read last. -/
inductive Pending
  | none
  /-- The next argument is its value. -/
  | unvalued (flag : Flag)
  /-- Its value has not been looked at. -/
  | valued (flag : Flag) (value : String)
  deriving DecidableEq, Repr

/-- What the arguments of one level say. -/
structure Reading where
  settings : Settings := []
  pending : Pending := .none

namespace Reading

/-- The settings with the option that was read last. -/
def settle (r : Reading) : Except Stop Settings :=
  match r.pending with
  | .none => .ok r.settings
  | .unvalued _ => .error .misuse
  | .valued flag value => set flag value r.settings

/-- The reading after a word that starts with a dash. -/
def take (w : Word) (r : Reading) : Except Stop Reading := do
  let settings ← r.settle
  match w with
  | .stop stop => .error stop
  | .flag flag none => .ok { settings, pending := .unvalued flag }
  | .flag flag (some value) => .ok { settings := ← set flag (String.ofList value) settings }

end Reading

/-- The reading of a level and the arguments from the name of a command on. -/
def readLevel (level : Level) (r : Reading) : List String → Except Stop (Reading × List String)
  | [] => .ok (r, [])
  | text :: rest =>
    match argument level text, r.pending with
    | .word w, _ => do readLevel level (← r.take w) rest
    | .barrier, _ => if rest = [] then .ok (r, []) else .error .misuse
    | .plain, .unvalued flag => readLevel level { r with pending := .valued flag text } rest
    | .plain, _ => if level = .program then .ok (r, text :: rest) else .error .misuse

/-! ## Commands -/

inductive Command
  | run (options : RehearsalOptions) (jsonLog : Option String)
  | checkConfig
  deriving DecidableEq, Repr

structure Invocation where
  config : Option String
  command : Command
  deriving DecidableEq, Repr

def runOptions (settings : Settings) : RehearsalOptions :=
  let d : RehearsalOptions := {}
  { name := (settings.lookup .name).getD d.name
    component := (settings.lookup .component).getD d.component
    preload := ((settings.lookup .preload).bind Flag.number?).getD d.preload }

/-- The levels that a question for help names, from the outside in. -/
def helpLevel : Level → List String → Stop
  | level, [] => .help level
  | .program, "help" :: [] => .help .help
  | .program, name :: rest =>
    match Level.ofName? name with
    | some level => if rest = [] then .help level else .misuse
    | none => .misuse
  | _, _ => .misuse

/-- A configuration file that is named behind the command wins over one that is named before. -/
def read (args : List String) : Except Stop Invocation := do
  match ← readLevel .program {} args with
  | (_, []) => .error .misuse
  | (outer, name :: rest) =>
    if name = "help" then .error (helpLevel .program rest)
    else match Level.ofName? name with
      | none => .error .misuse
      | some level =>
        let inner ← (← readLevel level {} rest).1.settle
        let outer ← outer.settle
        let config := (inner.lookup .config).or (outer.lookup .config)
        match level with
        | .run => .ok ⟨config, .run (runOptions inner) (inner.lookup .jsonLog)⟩
        | _ => .ok ⟨config, .checkConfig⟩

/-! ## Answers -/

/-- What a finished program leaves behind. The first failure is the outermost. -/
structure Exit where
  code : Nat
  output : String := ""
  failures : List String := []
  deriving DecidableEq, Repr

def versionText : String := "faultline 0.1.0\n"

def commandText : List String :=
  ["Commands:",
    "  run           Run a simulated pod-failure scenario",
    "  check-config  Validate configuration and print the effective values",
    "  help          Print this message or the help of the given subcommand(s)"]

/-- The options, or the arguments, of a level. -/
def optionText : Level → List String
  | .program =>
    ["Options:",
      "  -c, --config <CONFIG>  Configuration file (defaults apply when omitted)",
      "  -h, --help             Print help",
      "  -V, --version          Print version"]
  | .run =>
    ["Options:",
      "  -c, --config <CONFIG>        Configuration file (defaults apply when omitted)",
      "      --name <NAME>            Scenario name used in events and the run record "
        ++ "[default: multi-data-pod-failure]",
      "      --component <COMPONENT>  Component to delete inside the fault window "
        ++ "[default: data-pod-0]",
      "      --preload <PRELOAD>      Number of objects written before the scenario starts "
        ++ "[default: 100]",
      "      --json-log <JSON_LOG>    Append events and the run record to this file as JSON lines",
      "  -h, --help                   Print help"]
  | .checkConfig =>
    ["Options:",
      "  -c, --config <CONFIG>  Configuration file (defaults apply when omitted)",
      "  -h, --help             Print help"]
  | .help => ["Arguments:", "  [COMMAND]...  Print help for the subcommand(s)"]

def helpText (level : Level) : String :=
  let head := match level with
    | .program =>
      ["CLI for running simulated degraded-mode scenarios with faultline", "",
        "Usage: faultline [OPTIONS] <COMMAND>", ""] ++ commandText
    | .run =>
      ["Run a simulated pod-failure scenario", "", "Usage: faultline run [OPTIONS]"]
    | .checkConfig =>
      ["Validate configuration and print the effective values", "",
        "Usage: faultline check-config [OPTIONS]"]
    | .help =>
      ["Print this message or the help of the given subcommand(s)", "",
        "Usage: faultline help [COMMAND]..."]
  String.join ((head ++ [""] ++ optionText level).map (· ++ "\n"))

def Stop.exit : Stop → Exit
  | help level => { code := 0, output := helpText level }
  | version => { code := 0, output := versionText }
  | misuse => { code := 2 }

def failed (failures : List String) : Exit := { code := 1, failures }

def loadMessage (path : String) : Config.LoadError → String
  | .unreadable => "failed to read config file " ++ path
  | .malformed => "failed to parse config file " ++ path
  | .unusable problem => problem.message

/-- The configuration to use: the defaults if no file is named. -/
def configFor (files : String → Option ByteArray) : Option String → Except Exit Config
  | none => .ok {}
  | some path =>
    (Config.load (files path)).mapError fun e =>
      failed ["Failed to load config from " ++ path, loadMessage path e]

def checkConfig (c : Config) : Exit :=
  match c.validate, c.render? with
  | .error problem, _ => failed ["Configuration is invalid", problem.message]
  | .ok (), none => failed ["Failed to render configuration"]
  | .ok (), some text =>
    { code := 0, output := "=== faultline configuration ===\n\n" ++ text ++ "\n" }

/-- The failure of a program that could not open its log. -/
def logUnopened (path : String) : List String := ["Failed to open event log " ++ path]

/-- What a program is asked to do, once its configuration is known. -/
inductive Task
  | done (exit : Exit)
  | rehearse (config : Config) (options : RehearsalOptions) (jsonLog : Option String)

/-- The task that the arguments set. `files` gives the content of the files there are. -/
def task (files : String → Option ByteArray) (args : List String) : Task :=
  match read args with
  | .error stop => .done stop.exit
  | .ok invocation =>
    match configFor files invocation.config, invocation.command with
    | .error exit, _ => .done exit
    | .ok config, .checkConfig => .done (checkConfig config)
    | .ok config, .run options jsonLog => .rehearse config options jsonLog

/-- The exit of a program whose run has returned this. -/
def rehearsed (options : RehearsalOptions) : Except RehearsalFailure Bool → Exit
  | .error failure => failed failure.chain
  | .ok true => { code := 0 }
  | .ok false => failed ["scenario " ++ options.name ++ " failed"]

/-- The failures of a program as it prints them. -/
def failureText : List String → String
  | [] => ""
  | [only] => "Error: " ++ only ++ "\n"
  | [first, cause] => "Error: " ++ first ++ "\n\nCaused by:\n    " ++ cause ++ "\n"
  | first :: causes =>
    "Error: " ++ first ++ "\n\nCaused by:\n"
      ++ String.join (causes.zipIdx.map fun (cause, i) =>
        "    " ++ toString i ++ ": " ++ cause ++ "\n")

end CommandLine

end FaultDrill
