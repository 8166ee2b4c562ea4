/-!
# Command line arguments

The words after the program's name: flags, a command, and the command's flags. A flag
has a long name, and some have a letter too; letters may stand together behind one
dash. Help and version are shown as soon as they are asked for, and anything that is
not understood is a misuse.

- `parse_nil`: without a command nothing is done.
-/

namespace MeshWatch.CommandLine

/-! ## Flags -/

/-- The flags of all commands. -/
inductive Flag where
  | verbose
  | config
  | topic
  | hex
  | file
  | state
  | help
  | version
deriving DecidableEq, Repr

namespace Flag

/-- The long name. -/
def name : Flag → String
  | verbose => "verbose"
  | config => "config"
  | topic => "topic"
  | hex => "hex"
  | file => "file"
  | state => "state"
  | help => "help"
  | version => "version"

/-- The letter, if there is one. -/
def letter? : Flag → Option Char
  | verbose => some 'v'
  | config => some 'c'
  | topic => some 't'
  | hex => none
  | file => none
  | state => some 's'
  | help => some 'h'
  | version => some 'V'

/-- Whether a value follows. -/
def takesValue : Flag → Bool
  | config => true
  | topic => true
  | hex => true
  | file => true
  | state => true
  | _ => false

/-- Whether the value is a path, which must not be empty. -/
def takesPath : Flag → Bool
  | config => true
  | file => true
  | state => true
  | _ => false

end Flag

/-- Where a flag stands: before the command, or after it. -/
inductive Level where
  | top
  | run
  | checkConfig
  | decode
  | health
deriving DecidableEq, Repr

namespace Level

/-- The flags that are understood there. -/
def flags : Level → List Flag
  | top => [.verbose, .config, .help, .version]
  | run => [.config, .help]
  | checkConfig => [.config, .help]
  | decode => [.topic, .hex, .file, .config, .help]
  | health => [.state, .config, .help]

/-- The command of a word. -/
def ofWord? (s : String) : Option Level :=
  if s = "run" then some run
  else if s = "check-config" then some checkConfig
  else if s = "decode" then some decode
  else if s = "health" then some health
  else none

/-- What a command does, and how it is called. -/
def summary : Level → List String
  | top => ["Meshtastic MQTT mesh monitor", "", "Usage: meshmon [OPTIONS] <COMMAND>"]
  | run => ["Connect to the broker and track the mesh", "", "Usage: meshmon run [OPTIONS]"]
  | checkConfig =>
    ["Validate a config file and print the effective settings", "",
     "Usage: meshmon check-config [OPTIONS]"]
  | decode =>
    ["Decode a single broker message", "", "Usage: meshmon decode [OPTIONS] --topic <TOPIC>"]
  | health =>
    ["Print mesh health computed from a saved snapshot", "",
     "Usage: meshmon health [OPTIONS] --state <STATE>"]

/-- The commands and flags understood there. -/
def details : Level → List String
  | top =>
    ["Commands:",
     "  run           Connect to the broker and track the mesh",
     "  check-config  Validate a config file and print the effective settings",
     "  decode        Decode a single broker message",
     "  health        Print mesh health computed from a saved snapshot",
     "  help          Print this message or the help of the given subcommand(s)",
     "",
     "Options:",
     "  -v, --verbose...       Enable verbose output",
     "  -c, --config <CONFIG>  Config file (falls back to MESHMON_CONFIG)",
     "  -h, --help             Print help",
     "  -V, --version          Print version"]
  | decode =>
    ["Options:",
     "  -t, --topic <TOPIC>    Topic the message arrived on",
     "  -c, --config <CONFIG>  Config file (falls back to MESHMON_CONFIG)",
     "      --hex <HEX>        Message body as hex",
     "      --file <FILE>      File holding the raw message body",
     "  -h, --help             Print help"]
  | health =>
    ["Options:",
     "  -s, --state <STATE>    Snapshot file written by `run`",
     "  -c, --config <CONFIG>  Config file (falls back to MESHMON_CONFIG)",
     "  -h, --help             Print help"]
  | _ =>
    ["Options:",
     "  -c, --config <CONFIG>  Config file (falls back to MESHMON_CONFIG)",
     "  -h, --help             Print help"]

/-- The help text. -/
def help (l : Level) : String :=
  String.join ((l.summary ++ [""] ++ l.details).map fun line => line ++ "\n")

/-- The flag of a long name. -/
def named? (l : Level) (name : String) : Option Flag := l.flags.find? fun f => f.name == name

/-- The flag of a letter. -/
def lettered? (l : Level) (c : Char) : Option Flag := l.flags.find? fun f => f.letter? == some c

end Level

/-- The program's name and version. -/
def versionText : String := "meshmon 0.1.0\n"

/-! ## Commands -/

/-- What is to be done. -/
inductive Command where
  /-- Track the mesh. -/
  | run
  /-- Show the settings of a configuration file. -/
  | checkConfig
  /-- Read one message, given in hexadecimal or by a file. -/
  | decode (topic : String) (hex file : Option String)
  /-- Show the health of a stored mesh. -/
  | health (state : String)
deriving DecidableEq, Repr

/-- A command, and the configuration file that was named with it. -/
structure Invocation where
  config : Option String
  command : Command
deriving DecidableEq, Repr

/-- Why no command is run. -/
inductive Stop where
  /-- A text was asked for. -/
  | shown (text : String)
  | misuse
deriving DecidableEq, Repr

/-- The values of the flags at one level. -/
abbrev Given := List (Flag × String)

/-- The value of a flag. -/
def Given.get? (g : Given) (f : Flag) : Option String := g.lookup f

/-- Takes one more flag. Only the level of detail may be raised more than once. -/
def take (l : Level) (f : Flag) (value : String) (g : Given) : Except Stop Given :=
  if f = .help then .error (.shown l.help)
  else if f = .version then .error (.shown versionText)
  else if f.takesPath && value.isEmpty then .error .misuse
  else if f ≠ .verbose ∧ (g.get? f).isSome then .error .misuse
  else .ok (g ++ [(f, value)])

/-- The flags of letters behind one dash, and the flag whose value is the next word, if
the last letter takes one. -/
def takeLetters (l : Level) (g : Given) : List Char → Except Stop (Given × Option Flag)
  | [] => .ok (g, none)
  | c :: cs =>
    match l.lettered? c with
    | none => .error .misuse
    | some f =>
      if f.takesValue then
        match cs with
        | [] => .ok (g, some f)
        | '=' :: value => (take l f (String.ofList value) g).map (·, none)
        | value => (take l f (String.ofList value) g).map (·, none)
      else
        match take l f "" g with
        | .error stop => .error stop
        | .ok g => takeLetters l g cs

/-- The flag of a long name, with a value when an equals sign follows; gives the flag
whose value is the next word otherwise. -/
def takeName (l : Level) (g : Given) (cs : List Char) : Except Stop (Given × Option Flag) :=
  let name := String.ofList (cs.takeWhile (· != '='))
  match l.named? name, cs.dropWhile (· != '=') with
  | none, _ => .error .misuse
  | some f, '=' :: value =>
    if f.takesValue then (take l f (String.ofList value) g).map (·, none) else .error .misuse
  | some f, _ =>
    if f.takesValue then .ok (g, some f) else (take l f "" g).map (·, none)

/-- A word that is a value: it does not look like a flag. -/
def isValue (word : String) : Bool :=
  match word.toList with
  | ['-'] => true
  | '-' :: _ => false
  | _ => true

/-- The flags at the front of the words, and what follows them. `waiting` is the flag
whose value is the next word. Two dashes end the flags. -/
def takeFlags (l : Level) (g : Given) (waiting : Option Flag) :
    List String → Except Stop (Given × List String)
  | [] => if waiting.isSome then .error .misuse else .ok (g, [])
  | word :: words =>
    match waiting with
    | some f =>
      if isValue word then
        match take l f word g with
        | .error stop => .error stop
        | .ok g => takeFlags l g none words
      else .error .misuse
    | none =>
      match word.toList with
      | ['-', '-'] => if words.isEmpty then .ok (g, []) else .error .misuse
      | '-' :: '-' :: name =>
        match takeName l g name with
        | .error stop => .error stop
        | .ok (g, waiting) => takeFlags l g waiting words
      | '-' :: c :: cs =>
        match takeLetters l g (c :: cs) with
        | .error stop => .error stop
        | .ok (g, waiting) => takeFlags l g waiting words
      | _ => .ok (g, word :: words)

/-- The command of a level and its flags; flags that are needed have to be there, and a
body is given in one way at most. -/
def commandOf (l : Level) (g : Given) : Except Stop Command :=
  match l with
  | .top => .error .misuse
  | .run => .ok .run
  | .checkConfig => .ok .checkConfig
  | .decode =>
    match g.get? .topic, g.get? .hex, g.get? .file with
    | none, _, _ => .error .misuse
    | some _, some _, some _ => .error .misuse
    | some topic, hex, file => .ok (.decode topic hex file)
  | .health =>
    match g.get? .state with
    | some state => .ok (.health state)
    | none => .error .misuse

/-- The help of a command. -/
def helpOf : List String → Stop
  | [] => .shown Level.top.help
  | [word] =>
    match Level.ofWord? word with
    | some l => .shown l.help
    | none => if word = "help" then .shown Level.top.help else .misuse
  | _ => .misuse

/-- Understands the words after the program's name. -/
def parse (words : List String) : Except Stop Invocation :=
  match takeFlags .top [] none words with
  | .error stop => .error stop
  | .ok (_, []) => .error .misuse
  | .ok (top, word :: words) =>
    if word = "help" then .error (helpOf words)
    else
      match Level.ofWord? word with
      | none => .error .misuse
      | some l =>
        match takeFlags l [] none words with
        | .error stop => .error stop
        | .ok (_, _ :: _) => .error .misuse
        | .ok (given, []) =>
          (commandOf l given).map fun command => ⟨given.get? .config <|> top.get? .config, command⟩

theorem parse_nil : parse [] = .error .misuse := rfl

end MeshWatch.CommandLine
