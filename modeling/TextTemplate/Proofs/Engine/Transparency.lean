import TextTemplate.Engine.Basic
import TextTemplate.Proofs.Cache.Recency

namespace TextTemplate.Engine

/-- What is asked of an engine. A template that was parsed before is named by its place among them. -/
inductive Operation where
  | parse (source : String)
  | render (parsed : Nat) (context : Context)
  | renderSource (source : String) (context : Context)
  | register (name : String) (filter : Filter)
  | clearCache

/-- What an operation answers. A template is told without the number of its parse. -/
inductive Answer where
  | parsed (result : Except TemplateError Template)
  | rendered (result : Except RenderError String)
  | document (result : Except EngineError String)
  | noTemplate
  | done

/-- An engine and the templates that it gave out, in order. -/
structure Session where
  engine : Engine
  parsed : List ParsedTemplate

namespace Session

def start (filters : Registry) (options : EngineOptions) : Session :=
  ⟨ofOptions filters options, []⟩

def step (s : Session) : Operation → Answer × Session
  | .parse source =>
    match s.engine.parse source with
    | (.ok t, e) => (.parsed (.ok t.template), ⟨e, s.parsed ++ [t]⟩)
    | (.error fault, e) => (.parsed (.error fault), ⟨e, s.parsed⟩)
  | .render n context =>
    match s.parsed[n]? with
    | some t => (.rendered (s.engine.render t context), s)
    | none => (.noTemplate, s)
  | .renderSource source context =>
    let (result, e) := s.engine.renderSource source context
    (.document result, ⟨e, s.parsed⟩)
  | .register name filter => (.done, ⟨s.engine.register name filter, s.parsed⟩)
  | .clearCache => (.done, ⟨s.engine.clearCache, s.parsed⟩)

def run (s : Session) : List Operation → List Answer × Session
  | [] => ([], s)
  | op :: ops =>
    let (answer, s) := s.step op
    let (answers, s) := s.run ops
    (answer :: answers, s)

end Session

/-- An engine without a cache: its filters, and the templates that it gave out. -/
structure Uncached where
  filters : Registry
  parsed : List Template

namespace Uncached

def renderSource (u : Uncached) (source : String) (context : Context) : Except EngineError String :=
  match Template.parse source with
  | .ok t => (t.render u.filters context).mapError .render
  | .error fault => .error (.parse fault)

def step (u : Uncached) : Operation → Answer × Uncached
  | .parse source =>
    match Template.parse source with
    | .ok t => (.parsed (.ok t), ⟨u.filters, u.parsed ++ [t]⟩)
    | .error fault => (.parsed (.error fault), u)
  | .render n context =>
    match u.parsed[n]? with
    | some t => (.rendered (t.render u.filters context), u)
    | none => (.noTemplate, u)
  | .renderSource source context => (.document (u.renderSource source context), u)
  | .register name filter => (.done, ⟨u.filters.register name filter, u.parsed⟩)
  | .clearCache => (.done, u)

def run (u : Uncached) : List Operation → List Answer × Uncached
  | [] => ([], u)
  | op :: ops =>
    let (answer, u) := u.step op
    let (answers, u) := u.run ops
    (answer :: answers, u)

end Uncached

/-- Every template in the cache is what a parse of its source gives, and there are not too many of them. -/
structure Sound (e : Engine) : Prop where
  parse_of_mem : ∀ entry ∈ e.cache.entries, Template.parse entry.1 = .ok entry.2.template
  size_le : e.cache.size ≤ e.cache.capacity

namespace Sound

variable {e : Engine}

theorem parse_of_lookup (h : e.Sound) {source : String} {t : ParsedTemplate}
    (hfound : e.cache.entries.lookup source = some t) : Template.parse source = .ok t.template := by
  obtain ⟨before, behind, hentries, -⟩ := List.lookup_eq_some_iff.mp hfound
  exact h.parse_of_mem (source, t) (by rw [hentries]; simp)

theorem insert (h : e.Sound) {source : String} {t : ParsedTemplate}
    (hparse : Template.parse source = .ok t.template) (parses : Nat) :
    Sound ⟨e.filters, e.cache.insert source t, parses⟩ := by
  refine ⟨?_, Cache.size_insert_le e.cache source t⟩
  intro entry hentry
  rcases Cache.mem_insert hentry with rfl | hold
  · exact hparse
  · exact h.parse_of_mem entry hold

/-- A source that parses gives its template, and the cache takes the template in, or takes it in again. -/
theorem parse_of_ok (h : e.Sound) {source : String} {template : Template}
    (hparse : Template.parse source = .ok template) :
    ∃ t parses, t.template = template ∧
      e.parse source = (.ok t, ⟨e.filters, e.cache.insert source t, parses⟩) := by
  cases hfound : e.cache.entries.lookup source with
  | some t =>
    have htemplate : t.template = template := by
      have hok := (h.parse_of_lookup hfound).symm.trans hparse
      exact Except.ok.inj hok
    refine ⟨t, e.parses, htemplate, ?_⟩
    rw [Engine.parse, Cache.fetch_of_hit h.size_le hfound]
  | none =>
    refine ⟨⟨template, e.parses⟩, e.parses + 1, rfl, ?_⟩
    rw [Engine.parse, Cache.fetch_of_miss hfound]
    simp only [hparse]

/-- A source that does not parse is not in the cache, and leaves the engine as it is. -/
theorem parse_of_error (h : e.Sound) {source : String} {fault : TemplateError}
    (hparse : Template.parse source = .error fault) : e.parse source = (.error fault, e) := by
  have hmiss : e.cache.entries.lookup source = none := by
    cases hfound : e.cache.entries.lookup source with
    | none => rfl
    | some t => exact absurd ((h.parse_of_lookup hfound).symm.trans hparse) (by simp)
  rw [Engine.parse, Cache.fetch_of_miss hmiss]
  simp only [hparse]

theorem renderSource_of_error (h : e.Sound) {source : String} {fault : TemplateError}
    (hparse : Template.parse source = .error fault) (context : Context) :
    e.renderSource source context = (.error (.parse fault), e) := by
  rw [Engine.renderSource, h.parse_of_error hparse]

end Sound

/-- A session and an engine without cache that were asked the same. -/
structure Session.Agrees (s : Session) (u : Uncached) : Prop where
  sound : s.engine.Sound
  filters_eq : s.engine.filters = u.filters
  parsed_eq : s.parsed.map (·.template) = u.parsed

namespace Session.Agrees

variable {s : Session} {u : Uncached}

theorem start (filters : Registry) (options : EngineOptions) :
    (Session.start filters options).Agrees ⟨filters, []⟩ :=
  ⟨⟨fun _ hentry => absurd hentry List.not_mem_nil, Nat.zero_le _⟩, rfl, rfl⟩

theorem render_eq (h : s.Agrees u) (t : ParsedTemplate) (context : Context) :
    s.engine.render t context = t.template.render u.filters context := by
  rw [Engine.render, h.filters_eq]

/-- One operation is answered alike, and what agreed before agrees after it. -/
theorem step (h : s.Agrees u) (op : Operation) :
    (s.step op).1 = (u.step op).1 ∧ (s.step op).2.Agrees (u.step op).2 ∧
      (s.step op).2.engine.cache.capacity = s.engine.cache.capacity := by
  cases op with
  | parse source =>
    cases hparse : Template.parse source with
    | ok template =>
      obtain ⟨t, parses, rfl, hengine⟩ := h.sound.parse_of_ok hparse
      simp only [Session.step, Uncached.step, hengine, hparse]
      refine ⟨trivial, ⟨h.sound.insert hparse parses, h.filters_eq, ?_⟩, rfl⟩
      rw [List.map_append, h.parsed_eq, List.map_singleton]
    | error fault =>
      simp only [Session.step, Uncached.step, h.sound.parse_of_error hparse, hparse]
      exact ⟨trivial, h, trivial⟩
  | render n context =>
    have hsame : u.parsed[n]? = (s.parsed[n]?).map (·.template) := by
      rw [← h.parsed_eq, List.getElem?_map]
    cases hn : s.parsed[n]? with
    | some t =>
      rw [hn, Option.map_some] at hsame
      simp only [Session.step, Uncached.step, hn, hsame, h.render_eq]
      exact ⟨trivial, h, trivial⟩
    | none =>
      rw [hn, Option.map_none] at hsame
      simp only [Session.step, Uncached.step, hn, hsame]
      exact ⟨trivial, h, trivial⟩
  | renderSource source context =>
    cases hparse : Template.parse source with
    | ok template =>
      obtain ⟨t, parses, rfl, hengine⟩ := h.sound.parse_of_ok hparse
      simp only [Session.step, Uncached.step, Engine.renderSource, Uncached.renderSource, hengine, hparse]
      refine ⟨?_, ⟨h.sound.insert hparse parses, h.filters_eq, h.parsed_eq⟩, rfl⟩
      rw [Engine.render, h.filters_eq]
    | error fault =>
      simp only [Session.step, Uncached.step, h.sound.renderSource_of_error hparse, Uncached.renderSource, hparse]
      exact ⟨trivial, h, trivial⟩
  | register name filter =>
    refine ⟨rfl, ⟨⟨h.sound.parse_of_mem, h.sound.size_le⟩, ?_, h.parsed_eq⟩, rfl⟩
    exact congrArg (·.register name filter) h.filters_eq
  | clearCache =>
    refine ⟨rfl, ⟨⟨?_, Nat.zero_le _⟩, h.filters_eq, h.parsed_eq⟩, rfl⟩
    exact fun _ hentry => absurd hentry List.not_mem_nil

theorem run (h : s.Agrees u) (ops : List Operation) :
    (s.run ops).1 = (u.run ops).1 ∧ (s.run ops).2.Agrees (u.run ops).2 ∧
      (s.run ops).2.engine.cache.capacity = s.engine.cache.capacity := by
  induction ops generalizing s u with
  | nil => exact ⟨rfl, h, rfl⟩
  | cons op ops ih =>
    obtain ⟨hanswer, hagrees, hcapacity⟩ := h.step op
    obtain ⟨hanswers, hend, hcapacities⟩ := ih hagrees
    simp only [Session.run, Uncached.run]
    exact ⟨by rw [hanswer, hanswers], hend, hcapacities.trans hcapacity⟩

end Session.Agrees

/-- A new engine renders a source alike, whatever the capacity of its cache. -/
theorem renderSource_ofOptions (filters : Registry) (options : EngineOptions) (source : String) (context : Context) :
    ((ofOptions filters options).renderSource source context).1 =
      Uncached.renderSource ⟨filters, []⟩ source context :=
  Answer.document.inj ((Session.Agrees.start filters options).step (.renderSource source context)).1

/-- Whatever an engine is asked, it answers like one that parses every source anew. Its cache holds what a parse of
the sources gives, within its capacity. -/
theorem answers_eq_uncached (filters : Registry) (options : EngineOptions) (ops : List Operation) :
    let s := (Session.start filters options).run ops
    s.1 = (Uncached.run ⟨filters, []⟩ ops).1 ∧
    (∀ entry ∈ s.2.engine.cache.entries, Template.parse entry.1 = .ok entry.2.template) ∧
    s.2.engine.cache.size ≤ options.cacheCapacity ∧
    ∀ source fault, Template.parse source = .error fault →
      (s.2.engine.parse source).2.cache.entries = s.2.engine.cache.entries ∧
      ∀ context, (s.2.engine.renderSource source context).2.cache.entries = s.2.engine.cache.entries := by
  intro s
  obtain ⟨hanswers, hagrees, hcapacity⟩ := (Session.Agrees.start filters options).run ops
  refine ⟨hanswers, hagrees.sound.parse_of_mem, hagrees.sound.size_le.trans_eq hcapacity, ?_⟩
  intro source fault hparse
  refine ⟨by rw [hagrees.sound.parse_of_error hparse], ?_⟩
  intro context
  rw [hagrees.sound.renderSource_of_error hparse]

end TextTemplate.Engine
