namespace TextTemplate.CommandLine

inductive Switch where
  | cacheCapacity | logLevel | context | output | list | help | version
deriving DecidableEq, Repr

namespace Switch

def long : Switch → String
  | cacheCapacity => "cache-capacity"
  | logLevel => "log-level"
  | context => "context"
  | output => "output"
  | list => "list"
  | help => "help"
  | version => "version"

def short? : Switch → Option Char
  | context => some 'c'
  | output => some 'o'
  | help => some 'h'
  | version => some 'V'
  | cacheCapacity | logLevel | list => none

/-- What the value of an option is called; the others take none. -/
def valueName? : Switch → Option String
  | cacheCapacity => some "CACHE_CAPACITY"
  | logLevel => some "LOG_LEVEL"
  | context => some "CONTEXT"
  | output => some "OUTPUT"
  | list | help | version => none

def about : Switch → String
  | cacheCapacity => "Parsed templates kept in the cache (0 disables it) [default: 64]"
  | logLevel => "Log filter used when RUST_LOG is not set [default: warn]"
  | context => "JSON file holding the context object"
  | output => "Write the output here instead of stdout"
  | list => "List the available routes"
  | help => "Print help"
  | version => "Print version"

/-- The option as help shows it, its description on a line of its own. -/
def entry (s : Switch) : String :=
  let letter := match s.short? with
    | some c => "  -" ++ String.singleton c ++ ", "
    | none => "      "
  let value := match s.valueName? with
    | some name => " <" ++ name ++ ">"
    | none => ""
  letter ++ "--" ++ s.long ++ value ++ "\n          " ++ s.about ++ "\n"

end Switch

/-- Where arguments stand: before the name of a command, or after it. -/
inductive Level where
  | program | render | check | demo | help
deriving DecidableEq, Repr

namespace Level

def ofName? : String → Option Level
  | "render" => some render
  | "check" => some check
  | "demo" => some demo
  | "help" => some help
  | _ => none

/-- The options in the order in which help lists them. -/
def switches : Level → List Switch
  | program => [.cacheCapacity, .logLevel, .help, .version]
  | render => [.context, .cacheCapacity, .logLevel, .output, .help]
  | check => [.cacheCapacity, .logLevel, .help]
  | demo => [.cacheCapacity, .list, .logLevel, .help]
  | help => []

def about : Level → String
  | program => "Quill - Liquid-style template renderer for plain-text documents"
  | render => "Render a template against a JSON context"
  | check => "Check a template for syntax errors without rendering it"
  | demo => "Render one of the bundled demo documents"
  | help => "Print this message or the help of the given subcommand(s)"

def usage : Level → String
  | program => "quill [OPTIONS] <COMMAND>"
  | render => "quill render [OPTIONS] <PATH>"
  | check => "quill check [OPTIONS] <PATH>"
  | demo => "quill demo [OPTIONS] [ROUTE]"
  | help => "quill help [COMMAND]..."

/-- The commands or the arguments, in the help. -/
def operands : Level → String
  | program =>
    "Commands:\n  render  " ++ render.about ++ "\n  check   " ++ check.about ++ "\n  demo    " ++
      demo.about ++ "\n  help    " ++ help.about ++ "\n"
  | render | check => "Arguments:\n  <PATH>  Template file\n"
  | demo => "Arguments:\n  [ROUTE]  Route name, e.g. \x60invoice\x60\n"
  | help => "Arguments:\n  [COMMAND]...  Print help for the subcommand(s)\n"

def helpText (level : Level) : String :=
  let options :=
    if level.switches.isEmpty then ""
    else "\nOptions:\n" ++ String.join (level.switches.map Switch.entry)
  level.about ++ "\n\nUsage: " ++ level.usage ++ "\n\n" ++ level.operands ++ options

end Level

end TextTemplate.CommandLine
