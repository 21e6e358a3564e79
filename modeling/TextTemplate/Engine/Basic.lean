import TextTemplate.Cache
import TextTemplate.Engine.Options
import TextTemplate.Filter.Builtin
import TextTemplate.Render.Basic
import TextTemplate.Template.Parser

namespace TextTemplate

/-- A template and the number of the parse that made it. By the number one is known again that came from the
cache. -/
structure ParsedTemplate where
  template : Template
  serial : Nat

/-- `parses` counts the templates that were parsed so far. -/
structure Engine where
  filters : Registry
  cache : Cache ParsedTemplate
  parses : Nat

inductive EngineError where
  | parse (e : TemplateError)
  | render (e : RenderError)
deriving DecidableEq, Repr

namespace EngineError

def message : EngineError → String
  | parse e => e.message
  | render e => e.message

/-- What whoever asked for the document is told, without details. -/
def publicMessage (_ : EngineError) : String :=
  "Error rendering template."

end EngineError

namespace Engine

def ofOptions (filters : Registry) (options : EngineOptions) : Engine :=
  ⟨filters, Cache.ofCapacity options.cacheCapacity, 0⟩

def register (e : Engine) (name : String) (filter : Filter) : Engine :=
  { e with filters := e.filters.register name filter }

def clearCache (e : Engine) : Engine :=
  { e with cache := e.cache.clear }

/-- Parses a source unless the cache holds its template. A source that does not parse leaves the engine as it
is. -/
def parse (e : Engine) (source : String) : Except TemplateError ParsedTemplate × Engine :=
  match e.cache.fetch source with
  | (some t, cache) => (.ok t, { e with cache := cache })
  | (none, cache) =>
    match Template.parse source with
    | .error fault => (.error fault, { e with cache := cache })
    | .ok template =>
      let t := ⟨template, e.parses⟩
      (.ok t, { e with cache := cache.insert source t, parses := e.parses + 1 })

def render (e : Engine) (t : ParsedTemplate) (context : Context) : Except RenderError String :=
  t.template.render e.filters context

def renderSource (e : Engine) (source : String) (context : Context) :
    Except EngineError String × Engine :=
  match e.parse source with
  | (.error fault, e) => (.error (.parse fault), e)
  | (.ok t, e) => ((e.render t context).mapError .render, e)

end Engine

end TextTemplate
