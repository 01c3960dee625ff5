/-! The arguments of the command line. Options that every subcommand shares may stand before or
after its name; one given after it wins. -/

namespace TypeLayout.Cli

structure Shared where
  logLevel : Option String := none
  verbosity : Nat := 0
  quiet : Bool := false
  plain : Bool := false
  json : Bool := false
  config : Option String := none
  profile : Option String := none
deriving DecidableEq, Repr

inductive Task
  | query (unit : String) (types : List String) (hidePadding : Bool)
  | dump (unit : String) (hidePadding : Bool) (output : Option String)
  | profiles (names : List String)
deriving DecidableEq, Repr

structure Invocation where
  shared : Shared
  task : Task
deriving DecidableEq, Repr

inductive Request
  | run (invocation : Invocation)
  | version
  | help
  | misuse (reason : String)
deriving DecidableEq, Repr

inductive Subcommand
  | query | dump | profiles
deriving DecidableEq, Repr

def Subcommand.ofString? (s : String) : Option Subcommand :=
  if s = "query" then some .query
  else if s = "dump" then some .dump
  else if s = "profiles" then some .profiles
  else none

inductive Flag
  | verbose | quiet | plain | json | hidePadding | version | help
deriving DecidableEq, Repr

inductive Setting
  | logLevel | config | profile | output
deriving DecidableEq, Repr

abbrev Switch := Flag ⊕ Setting

def longSwitch? (at_ : Option Subcommand) (name : String) : Option Switch :=
  match name, at_ with
  | "log-level", _ => some (.inr .logLevel)
  | "config", _ => some (.inr .config)
  | "profile", _ => some (.inr .profile)
  | "verbose", _ => some (.inl .verbose)
  | "quiet", _ => some (.inl .quiet)
  | "no-color", _ => some (.inl .plain)
  | "json-output", _ => some (.inl .json)
  | "help", _ => some (.inl .help)
  | "version", none => some (.inl .version)
  | "hide-padding", some .query => some (.inl .hidePadding)
  | "hide-padding", some .dump => some (.inl .hidePadding)
  | "output", some .dump => some (.inr .output)
  | _, _ => none

def shortSwitch? (at_ : Option Subcommand) (c : Char) : Option Switch :=
  match c, at_ with
  | 'l', _ => some (.inr .logLevel)
  | 'c', _ => some (.inr .config)
  | 'p', _ => some (.inr .profile)
  | 'v', _ => some (.inl .verbose)
  | 'q', _ => some (.inl .quiet)
  | 'h', _ => some (.inl .help)
  | 'V', none => some (.inl .version)
  | 'o', some .dump => some (.inr .output)
  | _, _ => none

inductive Item
  | flag (f : Flag)
  | setting (s : Setting) (value : String)
  | waiting (s : Setting)
  | operand (text : String)
  | unknown (text : String)
deriving DecidableEq, Repr

def cluster (at_ : Option Subcommand) : List Char → List Item
  | [] => []
  | c :: cs =>
    match shortSwitch? at_ c, cs with
    | none, _ => [.unknown (String.ofList ['-', c])]
    | some (.inl f), cs => .flag f :: cluster at_ cs
    | some (.inr s), [] => [.waiting s]
    | some (.inr s), '=' :: value => [.setting s (String.ofList value)]
    | some (.inr s), value => [.setting s (String.ofList value)]

def itemsOf (at_ : Option Subcommand) (arg : String) : List Item :=
  match arg.toList with
  | '-' :: '-' :: cs =>
    let name := String.ofList (cs.takeWhile (· ≠ '='))
    match longSwitch? at_ name, cs.dropWhile (· ≠ '=') with
    | some (.inl f), [] => [.flag f]
    | some (.inr s), [] => [.waiting s]
    | some (.inr s), _ :: value => [.setting s (String.ofList value)]
    | _, _ => [.unknown arg]
  | ['-'] => [.operand arg]
  | '-' :: cs => cluster at_ cs
  | _ => [.operand arg]

def isValue (arg : String) : Bool :=
  match arg.toList with
  | '-' :: _ :: _ => false
  | _ => true

structure Level where
  flags : List Flag := []
  settings : List (Setting × String) := []
  operands : List String := []

namespace Level

def has (l : Level) (f : Flag) : Bool := l.flags.contains f

def setting? (l : Level) (s : Setting) : Option String := l.settings.lookup s

def addFlag (l : Level) (f : Flag) : Except Request Level :=
  if f ≠ .verbose ∧ l.has f then .error (.misuse "a flag is given twice")
  else .ok { l with flags := l.flags ++ [f] }

def addSetting (l : Level) (s : Setting) (value : String) : Except Request Level :=
  if (l.setting? s).isSome then .error (.misuse "an option is given twice")
  else if (s = .config ∨ s = .output) ∧ value.isEmpty then .error (.misuse "a value is empty")
  else .ok { l with settings := l.settings ++ [(s, value)] }

def addOperand (l : Level) (text : String) : Level := { l with operands := l.operands ++ [text] }

/-- Read what one argument says, up to a request that needs no more. The answer may leave a setting
without its value. -/
def take (l : Level) : List Item → Except Request (Level × Option Setting)
  | [] => .ok (l, none)
  | .flag .version :: _ => .error .version
  | .flag .help :: _ => .error .help
  | .flag f :: items => l.addFlag f >>= (take · items)
  | .setting s value :: items => l.addSetting s value >>= (take · items)
  | .operand text :: items => (l.addOperand text).take items
  | .waiting s :: _ => .ok (l, some s)
  | .unknown text :: _ => .error (.misuse ("unexpected argument " ++ text))

def takeValue (l : Level) (s : Setting) (arg : String) : Except Request Level :=
  if isValue arg then l.addSetting s arg else .error (.misuse "a value is required")

def shared (l : Level) : Shared where
  logLevel := l.setting? .logLevel
  verbosity := l.flags.count .verbose
  quiet := l.has .quiet
  plain := l.has .plain
  json := l.has .json
  config := l.setting? .config
  profile := l.setting? .profile

end Level

def Shared.over (inner outer : Shared) : Shared where
  logLevel := inner.logLevel <|> outer.logLevel
  verbosity := if inner.verbosity = 0 then outer.verbosity else inner.verbosity
  quiet := inner.quiet || outer.quiet
  plain := inner.plain || outer.plain
  json := inner.json || outer.json
  config := inner.config <|> outer.config
  profile := inner.profile <|> outer.profile

def task? (sub : Subcommand) (l : Level) : Option Task :=
  match sub, l.operands with
  | .query, unit :: type :: types =>
    if unit.isEmpty then none else some (.query unit (type :: types) (l.has .hidePadding))
  | .dump, [unit] =>
    if unit.isEmpty then none else some (.dump unit (l.has .hidePadding) (l.setting? .output))
  | .profiles, names => some (.profiles names)
  | _, _ => none

def request (outer : Shared) (sub : Subcommand) (l : Level) : Request :=
  match task? sub l with
  | some task => .run ⟨l.shared.over outer, task⟩
  | none => .misuse "wrong number of operands"

def readSub (outer : Shared) (sub : Subcommand) : List String → Level → Option Setting → Request
  | [], l, none => request outer sub l
  | [], _, some _ => .misuse "a value is required"
  | arg :: args, l, some s =>
    match l.takeValue s arg with
    | .ok l => readSub outer sub args l none
    | .error r => r
  | arg :: args, l, none =>
    if arg = "--" then request outer sub (args.foldl Level.addOperand l)
    else
      match l.take (itemsOf (some sub) arg) with
      | .ok (l, waiting) => readSub outer sub args l waiting
      | .error r => r

def readTop : List String → Level → Option Setting → Request
  | [], _, none => .misuse "a subcommand is required"
  | [], _, some _ => .misuse "a value is required"
  | arg :: args, l, some s =>
    match l.takeValue s arg with
    | .ok l => readTop args l none
    | .error r => r
  | arg :: args, l, none =>
    match itemsOf none arg with
    | [.operand "help"] => .help
    | [.operand name] =>
      match Subcommand.ofString? name with
      | some sub => readSub l.shared sub args {} none
      | none => .misuse ("unrecognized subcommand " ++ name)
    | items =>
      match l.take items with
      | .ok (l, waiting) => readTop args l waiting
      | .error r => r

def readArguments (args : List String) : Request := readTop args {} none

end TypeLayout.Cli
