import TextTemplate.CommandLine.Level
import TextTemplate.Engine.Options

namespace TextTemplate.CommandLine

inductive UsageError where
  | unexpected (argument : String)
  | unwantedValue (s : Switch)
  | missingValue (s : Switch)
  | invalidValue (s : Switch) (value : String)
  | repeated (s : Switch)
  | emptyPath
  | missingPath
  | missingCommand
deriving DecidableEq, Repr

namespace UsageError

def message : UsageError → String
  | unexpected argument => "unexpected argument '" ++ argument ++ "' found"
  | unwantedValue s => "no value is taken by '--" ++ s.long ++ "'"
  | missingValue s => "a value is required for '--" ++ s.long ++ "'"
  | invalidValue s value => "invalid value '" ++ value ++ "' for '--" ++ s.long ++ "'"
  | repeated s => "the argument '--" ++ s.long ++ "' cannot be used multiple times"
  | emptyPath => "the path must not be empty"
  | missingPath => "the required argument <PATH> was not provided"
  | missingCommand => "a command is required"

end UsageError

/-- Why no command is carried out. -/
inductive Stop where
  | help (level : Level)
  | version
  | usage (e : UsageError)
deriving DecidableEq, Repr

structure Given where
  settings : List (Switch × String)
  operand : Option String

inductive Shape where
  /-- Two hyphens: what follows are operands. -/
  | separator
  | switch (s : Switch) (attached : Option String)
  | unknown
  | operand

/-- A capacity: digits, perhaps after a plus sign, that fit in 64 bits. -/
def capacity? (value : String) : Option Nat :=
  let ds := match value.toList with
    | '+' :: rest => rest
    | cs => cs
  if !ds.isEmpty && ds.all Char.isDigit && Nat.ofDigitChars 10 ds 0 < Nat.pow 2 64 then
    some (Nat.ofDigitChars 10 ds 0)
  else none

namespace Switch

/-- Paths are not empty and capacities are numbers. -/
def accepts (s : Switch) (value : String) : Bool :=
  match s with
  | context | output => !value.isEmpty
  | cacheCapacity => (capacity? value).isSome
  | logLevel | list | help | version => true

end Switch

namespace Given

def empty : Given := ⟨[], none⟩

def value? (g : Given) (s : Switch) : Option String :=
  g.settings.lookup s

/-- Every option is given at most once. -/
def add (g : Given) (s : Switch) (value : String) : Except UsageError Given :=
  if (g.value? s).isSome then .error (.repeated s)
  else if s.accepts value then .ok ⟨(s, value) :: g.settings, g.operand⟩
  else .error (.invalidValue s value)

/-- Adds an option that is still to be checked, if there is one. -/
def settle (g : Given) : Option (Switch × String) → Except UsageError Given
  | some (s, value) => g.add s value
  | none => .ok g

def place (g : Given) (level : Level) (operand : String) : Except UsageError Given :=
  if g.operand.isSome then .error (.unexpected operand)
  else if operand.isEmpty && level != .demo then .error .emptyPath
  else .ok ⟨g.settings, some operand⟩

end Given

namespace Level

/-- The option of a name, as written after the hyphens. -/
def long? (level : Level) (name : String) : Option Switch :=
  level.switches.find? (·.long == name)

def short? (level : Level) (letter : Char) : Option Switch :=
  level.switches.find? (·.short? == some letter)

/-- An option's value may stand behind an equals sign, or directly behind a letter. A lone hyphen is no
option. -/
def shape (level : Level) (arg : String) : Shape :=
  match arg.toList with
  | ['-', '-'] => .separator
  | '-' :: '-' :: rest =>
    let name := rest.takeWhile (· != '=')
    let attached := match rest.dropWhile (· != '=') with
      | _ :: value => some (String.ofList value)
      | [] => none
    match level.long? (String.ofList name) with
    | some s => .switch s attached
    | none => .unknown
  | '-' :: letter :: rest =>
    match level.short? letter with
    | none => .unknown
    | some s =>
      let attached := match s.valueName?, rest with
        | none, _ | _, [] => none
        | _, '=' :: value => some (String.ofList value)
        | _, value => some (String.ofList value)
      .switch s attached
  | _ => .operand

end Level

/-- Whether an argument cannot be the value of the option before it. -/
def startsSwitch (arg : String) : Bool :=
  match arg.toList with
  | '-' :: _ :: _ => true
  | _ => false

/-- What a level was given. An option whose value was an argument of its own is checked when the next argument
is read: `last` is the one that is still to be checked. `rest` begins with the name of a command. -/
structure Reading where
  given : Given
  last : Option (Switch × String)
  rest : List String

namespace Level

/-- Reads the arguments of one level; before the name of a command there are no operands. Help and version
are shown where they are asked for, so only mistakes before that count. -/
def read (level : Level) (given : Given) (last : Option (Switch × String)) :
    List String → Except Stop Reading
  | [] => .ok ⟨given, last, []⟩
  | arg :: rest =>
    match level.shape arg with
    | .unknown => .error (.usage (.unexpected arg))
    | .operand =>
      if level = .program then .ok ⟨given, last, arg :: rest⟩
      else
        match given.settle last >>= fun given => given.place level arg with
        | .error e => .error (.usage e)
        | .ok given => read level given none rest
    | .separator =>
      if level = .program then
        match rest with
        | [] => .ok ⟨given, last, []⟩
        | operand :: _ => .error (.usage (.unexpected operand))
      else
        match given.settle last >>= fun given => rest.foldlM (Given.place · level ·) given with
        | .error e => .error (.usage e)
        | .ok given => .ok ⟨given, none, []⟩
    | .switch s attached =>
      match s.valueName?, attached, rest with
      | none, some _, _ => .error (.usage (.unwantedValue s))
      | none, none, rest =>
        match given.settle last, s with
        | .error e, _ => .error (.usage e)
        | .ok _, .help => .error (.help level)
        | .ok _, .version => .error .version
        | .ok given, s =>
          match given.add s "" with
          | .error e => .error (.usage e)
          | .ok given => read level given none rest
      | some _, some value, rest =>
        match given.settle last >>= fun given => given.add s value with
        | .error e => .error (.usage e)
        | .ok given => read level given none rest
      | some _, none, [] => .error (.usage (.missingValue s))
      | some _, none, value :: rest =>
        if startsSwitch value then .error (.usage (.missingValue s))
        else
          match given.settle last with
          | .error e => .error (.usage e)
          | .ok given => read level given (some (s, value)) rest

end Level

inductive Command where
  | render (path : String) (context output : Option String)
  | check (path : String)
  | demo (route : Option String) (list : Bool)
deriving DecidableEq, Repr

/-- A command and the capacity of the cache. Nothing is logged, so the log level has no effect. -/
structure Invocation where
  command : Command
  options : EngineOptions
deriving DecidableEq, Repr

def Given.command (g : Given) (level : Level) : Except UsageError Command :=
  match level, g.operand with
  | .render, some path => .ok (.render path (g.value? .context) (g.value? .output))
  | .check, some path => .ok (.check path)
  | .demo, route => .ok (.demo route (g.value? .list).isSome)
  | .render, none | .check, none => .error .missingPath
  | .program, _ | .help, _ => .error .missingCommand

def helpFor : List String → Stop
  | [] => .help .program
  | [name] =>
    match Level.ofName? name with
    | some level => .help level
    | none => .usage (.unexpected name)
  | _ :: name :: _ => .usage (.unexpected name)

namespace Invocation

/-- The capacity given after the command counts before the one given in front of it. -/
def ofGiven (top given : Given) (level : Level) : Except UsageError Invocation := do
  let command ← given.command level
  let capacity := ((given.value? .cacheCapacity).or (top.value? .cacheCapacity)).bind capacity?
  return ⟨command, (capacity.map EngineOptions.mk).getD EngineOptions.default⟩

def ofArguments (args : List String) : Except Stop Invocation := do
  let top ← Level.read .program Given.empty none args
  match top.rest with
  | [] => .error (.usage .missingCommand)
  | name :: rest =>
    match Level.ofName? name with
    | none => .error (.usage (.unexpected name))
    | some .help => .error (helpFor rest)
    | some level =>
      let reading ← level.read Given.empty none rest
      Except.mapError .usage do
        let given ← reading.given.settle reading.last
        let above ← top.given.settle top.last
        ofGiven above given level

end Invocation

end TextTemplate.CommandLine
