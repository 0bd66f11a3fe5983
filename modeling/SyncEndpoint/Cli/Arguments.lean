import SyncEndpoint.Path.Native

set_option autoImplicit false

/-! # Arguments

The arguments of the command line. They go down a tree of levels: the program itself, a command,
and a command of a command. Each level has switches and operands of its own; a level may be given
before or after what belongs to the levels above it. Two dashes make operands of all that follows. -/

namespace SyncEndpoint.Cli

/-! ## What there is -/

/-- Where arguments may stand. -/
inductive Level where
  | program
  | watch
  | walk
  | cat
  | info
  | config
  | configShow
  | configInit
  deriving DecidableEq

/-- What begins with a dash. -/
inductive Switch where
  | verbose
  | config
  | subPath
  | force
  | help
  | version
  deriving DecidableEq

namespace Switch

/-- Whether a value belongs to a switch. -/
def takesValue : Switch → Bool
  | .config | .subPath => true
  | _ => false

/-- The name behind two dashes. -/
def longName : Switch → String
  | .verbose => "verbose"
  | .config => "config"
  | .subPath => "sub-path"
  | .force => "force"
  | .help => "help"
  | .version => "version"

/-- The letter behind one dash. -/
def letter? : Switch → Option Char
  | .verbose => some 'v'
  | .config => some 'c'
  | .subPath => none
  | .force => some 'f'
  | .help => some 'h'
  | .version => some 'V'

end Switch

/-- What an operand is, or the value of a switch. -/
inductive Kind where
  /-- A path of the system, which is not empty. -/
  | path
  | text
  deriving DecidableEq

def Kind.accepts (k : Kind) (bytes : Bytes) : Bool :=
  match k with
  | .path => !bytes.isEmpty
  | .text => (Text.Utf8.decode? bytes).isSome

def Switch.kind : Switch → Kind
  | .subPath => .text
  | _ => .path

namespace Level

def commands : Level → List (String × Level)
  | .program =>
    [("watch", .watch), ("walk", .walk), ("cat", .cat), ("info", .info), ("config", .config)]
  | .config => [("show", .configShow), ("init", .configInit)]
  | _ => []

def switches : Level → List Switch
  | .program => [.verbose, .config, .help, .version]
  | .watch => [.verbose, .config, .help, .subPath]
  | .configInit => [.verbose, .config, .help, .force]
  | _ => [.verbose, .config, .help]

/-- The kinds of the operands of a level, in order. -/
def operands : Level → List Kind
  | .watch | .info => [.path]
  | .walk | .cat => [.path, .text]
  | _ => []

/-- The kind of the operand behind `n` others. The last one of a walk may be repeated. -/
def operandKind? (l : Level) (n : Nat) : Option Kind :=
  if l = .walk && 0 < n then some .text else l.operands[n]?

def requiredOperands : Level → Nat
  | .cat => 2
  | _ => 0

/-- The command that an argument names. -/
def command? (l : Level) (arg : Bytes) : Option Level :=
  (l.commands.find? fun (name, _) => Text.Utf8.encode name == arg).map (·.2)

def switchNamed? (l : Level) (name : Bytes) : Option Switch :=
  l.switches.find? fun s => Text.Utf8.encode s.longName == name

def switchOf? (l : Level) (letter : UInt8) : Option Switch :=
  l.switches.find? fun s => s.letter?.any fun c => c.toNat == letter.toNat

end Level

/-! ## What is given -/

/-- Why the program does not run. -/
inductive Halt where
  | help
  | version
  | misuse
  deriving DecidableEq

/-- What is given at a level. -/
structure Given where
  level : Level
  switches : List Switch := []
  values : List (Switch × Bytes) := []
  operands : List Bytes := []

namespace Given

/-- Takes a switch without a value. -/
def addSwitch (g : Given) (s : Switch) : Except Halt Given :=
  match s with
  | .help => .error .help
  | .version => .error .version
  | s => if g.switches.contains s then .error .misuse else .ok { g with switches := s :: g.switches }

def value? (g : Given) (s : Switch) : Option Bytes :=
  (g.values.find? (·.1 == s)).map (·.2)

def addValue (g : Given) (s : Switch) (value : Bytes) : Except Halt Given :=
  if (g.value? s).isSome || !s.kind.accepts value then .error .misuse
  else .ok { g with values := (s, value) :: g.values }

def addOperand (g : Given) (value : Bytes) : Except Halt Given :=
  match g.level.operandKind? g.operands.length with
  | some kind =>
    if kind.accepts value then .ok { g with operands := g.operands ++ [value] } else .error .misuse
  | none => .error .misuse

end Given

/-! ## Reading -/

structure Reading where
  /-- What is given at the levels above, the nearest one first. -/
  above : List Given := []
  here : Given
  /-- A switch whose value is to come. -/
  awaiting : Option Switch := none
  /-- Whether everything else is an operand. -/
  verbatim : Bool := false

namespace Reading

def dash : UInt8 := 0x2D
def equals : UInt8 := 0x3D

/-- Changes what is given at the level that is read. -/
def give (r : Reading) (g : Except Halt Given) : Except Halt Reading :=
  g.map fun here => { r with here }

/-- Reads a switch with a name, and with a value behind an equals sign if there is one. -/
def readName (r : Reading) (name : Bytes) (value : Option Bytes) : Except Halt Reading :=
  match r.here.level.switchNamed? name, value with
  | none, _ => .error .misuse
  | some s, some value =>
    if s.takesValue then r.give (r.here.addValue s value) else .error .misuse
  | some s, none =>
    if s.takesValue then .ok { r with awaiting := some s } else r.give (r.here.addSwitch s)

/-- Reads letters of switches. A value may follow its letter at once, also with an equals sign
between them. -/
def readLetters : Bytes → Reading → Except Halt Reading
  | [], r => .ok r
  | letter :: rest, r =>
    match r.here.level.switchOf? letter with
    | none => .error .misuse
    | some s =>
      if s.takesValue then
        match rest with
        | [] => .ok { r with awaiting := some s }
        | b :: bs => r.give (r.here.addValue s (if b == equals then bs else b :: bs))
      else do readLetters rest (← r.give (r.here.addSwitch s))

/-- Whether an argument is more than one dash. -/
def isDashed (arg : Bytes) : Bool :=
  match arg with
  | b :: _ :: _ => b == dash
  | _ => false

/-- Reads an argument that begins with a dash. -/
def readDashed (r : Reading) (arg : Bytes) : Except Halt Reading :=
  let body := arg.drop 2
  if arg.drop 1 |>.head? |>.any (· == dash) then
    if body.isEmpty then .ok { r with verbatim := true }
    else
      let name := body.takeWhile (· != equals)
      r.readName name ((body.dropWhile (· != equals)).tail? )
  else readLetters (arg.drop 1) r

def read (r : Reading) (arg : Bytes) : Except Halt Reading :=
  match r.awaiting with
  | some s =>
    if isDashed arg then .error .misuse
    else { r with awaiting := none }.give (r.here.addValue s arg)
  | none =>
    if r.verbatim then r.give (r.here.addOperand arg)
    else
      match r.here.level.command? arg with
      | some level => .ok { above := r.here :: r.above, here := { level } }
      | none =>
        if isDashed arg then r.readDashed arg
        else r.give (r.here.addOperand arg)

/-! ## Asking for help -/

/-- The name of the command that explains the others. -/
def helpName : Bytes :=
  Text.Utf8.encode "help"

/-- Whether an argument is the command that explains the others. -/
def asksForHelp (r : Reading) (arg : Bytes) : Bool :=
  r.awaiting.isNone && !r.verbatim && !r.here.level.commands.isEmpty && arg == helpName

/-- What comes of asking for help on the command that the names lead to from a level. -/
def explain (l : Level) : List Bytes → Halt
  | [] => .help
  | name :: names =>
    match l.command? name with
    | some l => explain l names
    | none =>
      if !l.commands.isEmpty && name == helpName && names.isEmpty then .help else .misuse

/-- Reads arguments, one after the other. -/
def readAll : List Bytes → Reading → Except Halt Reading
  | [], r => .ok r
  | arg :: args, r =>
    if r.asksForHelp arg then .error (explain r.here.level args)
    else do readAll args (← r.read arg)

/-- What is given at all levels, the deepest one first. -/
def levels (r : Reading) : List Given :=
  r.here :: r.above

end Reading

def readArguments (args : List Bytes) : Except Halt (List Given) := do
  let r ← Reading.readAll args { here := { level := .program } }
  if r.awaiting.isSome then .error .misuse
  else if !r.here.level.commands.isEmpty then .error .misuse
  else if r.here.operands.length < r.here.level.requiredOperands then .error .misuse
  else .ok r.levels

/-! ## What is asked for -/

/-- What the program is to do. -/
inductive Command where
  | watch (root : Option NativePath) (subPath : String)
  | walk (root : Option NativePath) (paths : List String)
  | cat (root : NativePath) (path : String)
  | info (root : Option NativePath)
  | configShow
  | configInit (force : Bool)

/-- A command, and the file of the settings if one is named. -/
structure Invocation where
  config : Option NativePath
  command : Command

/-- The text of an operand. -/
def textOf (bytes : Bytes) : String :=
  Text.Utf8.decodeLossy bytes

/-- The command of the deepest level. -/
def Given.command? (g : Given) : Option Command :=
  match g.level, g.operands with
  | .watch, operands =>
    some (.watch operands.head? (((g.value? .subPath).map textOf).getD "/"))
  | .walk, operands => some (.walk operands.head? (operands.tail.map textOf))
  | .cat, [root, path] => some (.cat root (textOf path))
  | .info, operands => some (.info operands.head?)
  | .configShow, _ => some .configShow
  | .configInit, _ => some (.configInit (g.switches.contains .force))
  | _, _ => none

/-- The file of the settings: the one that is named at the deepest level, or else the one that the
environment names. Wherever the environment is asked, it must not name an empty path. -/
def configOf (levels : List Given) (fromEnv : Option Bytes) :
    Except Halt (Option NativePath) :=
  let named := levels.map (·.value? .config)
  if named.contains none && fromEnv == some [] then .error .misuse
  else .ok ((named.filterMap id).head? <|> fromEnv)

/-- What the arguments ask for, with the variable of the environment that names the file of the
settings. -/
def Invocation.ofArguments (args : List Bytes) (fromEnv : Option Bytes) :
    Except Halt Invocation := do
  let levels ← readArguments args
  let config ← configOf levels fromEnv
  match levels.head?.bind Given.command? with
  | some command => pure ⟨config, command⟩
  | none => .error .misuse

end SyncEndpoint.Cli
