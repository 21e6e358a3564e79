import TextTemplate.CommandLine.Arguments
import TextTemplate.CommandLine.Demo
import TextTemplate.CommandLine.Files
import TextTemplate.Engine.Basic

namespace TextTemplate.CommandLine

structure Outcome where
  code : Nat
  stdout : String
  stderr : String
deriving DecidableEq, Repr

namespace Outcome

/-- A failure with a line that says why. -/
def failed (line : String) : Outcome :=
  ⟨1, "", line ++ "\n"⟩

def printed (text : String) : Outcome :=
  ⟨0, text, ""⟩

/-- A success that is told apart from the program's output. -/
def noted (line : String) : Outcome :=
  ⟨0, "", line ++ "\n"⟩

end Outcome

namespace Stop

def outcome : Stop → Outcome
  | help level => .printed level.helpText
  | version => .printed "quill 0.7.0\n"
  | usage e => ⟨2, "", "error: " ++ e.message ++ "\n\nFor more information, try '--help'.\n"⟩

end Stop

def unreadable (path : String) : FileFailure → Outcome
  | .missing | .notDirectory | .nameTooLong => .failed ("Error: file not found: " ++ path)
  | failure => .failed ("Error reading " ++ path ++ ": " ++ failure.message)

section Commands

variable {m : Type → Type} [Monad m]

def readText (files : FileAccess m) (path : String) : ExceptT Outcome m String := do
  match ← files.read path with
  | .ok text => return text
  | .error failure => throw (unreadable path failure)

/-- The context in a file; without a file there are no variables. -/
def readContext (files : FileAccess m) : Option String → ExceptT Outcome m Context
  | none => return Context.empty
  | some path => do
    let text ← readText files path
    match Context.ofText text with
    | .ok context => return context
    | .error e => throw (.failed ("Error in " ++ path ++ ": " ++ e.message))

/-- Prints a text, or writes it to a file. -/
def deliver (files : FileAccess m) (text : String) : Option String → ExceptT Outcome m Outcome
  | none => return .printed text
  | some path => do
    match ← files.write path text with
    | .ok () => return .noted ("Wrote: " ++ path)
    | .error failure => throw (.failed ("Error writing " ++ path ++ ": " ++ failure.message))

def renderFile (files : FileAccess m) (engine : Engine) (path : String)
    (context output : Option String) : ExceptT Outcome m Outcome := do
  let source ← readText files path
  let context ← readContext files context
  match (engine.renderSource source context).1 with
  | .ok text => deliver files text output
  | .error e => throw (.failed e.publicMessage)

def checkFile (files : FileAccess m) (path : String) : ExceptT Outcome m Outcome := do
  let source ← readText files path
  match Template.parse source with
  | .ok _ => return .noted ("OK: " ++ path)
  | .error e => throw (.failed (path ++ ": " ++ e.message))

def routeList : String :=
  String.join (Demo.all.map (·.route ++ "\n"))

def renderDemo (engine : Engine) (demo : Demo) : Outcome :=
  match (engine.renderSource demo.source demo.context).1 with
  | .ok text => .printed text
  | .error _ => .failed demo.failure

def showDemo (engine : Engine) (route : String) : Outcome :=
  match Demo.all.find? (·.route == route) with
  | some demo => renderDemo engine demo
  | none => ⟨1, routeList, "Unknown demo route '" ++ route ++ "'\n"⟩

def perform (files : FileAccess m) (engine : Engine) : Command → ExceptT Outcome m Outcome
  | .render path context output => renderFile files engine path context output
  | .check path => checkFile files path
  | .demo (some route) false => return showDemo engine route
  | .demo _ _ => return .printed routeList

/-- Runs the program at the time `now`. -/
def run (files : FileAccess m) (now : Calendar.DateTime) (args : List String) : m Outcome :=
  match Invocation.ofArguments args with
  | .error stop => pure stop.outcome
  | .ok invocation => do
    let engine := Engine.ofOptions (Registry.builtin now) invocation.options
    match ← (perform files engine invocation.command).run with
    | .ok outcome | .error outcome => return outcome

end Commands

end TextTemplate.CommandLine
