import TextTemplate.CommandLine.Run
import TextTemplate.Proofs.CommandLine.Lines
import TextTemplate.Proofs.CommandLine.Writing
import TextTemplate.Proofs.Engine.Transparency

namespace TextTemplate.CommandLine

open TextTemplate.Outcome (bind_eq_ok_iff bind_eq_error_iff map_eq_ok_iff map_eq_error_iff mapError_eq_ok_iff
  mapError_eq_error_iff)

/-- What the program ends with at the time `now`, and the directory that it leaves. -/
def runOn (now : Calendar.DateTime) (d : Directory) (args : List String) : Outcome × Directory :=
  (run Directory.access now args).run d

namespace Directory

variable (d : Directory)

/-- The variables are those of the JSON object in the file, or there are none without a file. -/
def HoldsContext : Option String → Context → Prop
  | none, vars => vars = Context.empty
  | some file, vars => ∃ text, d.read file = .ok text ∧ Context.ofText text = .ok vars

/-- A new engine renders the template in the file with these variables to the text. -/
def Renders (now : Calendar.DateTime) (path : String) (context : Option String) (text : String) : Prop :=
  ∃ source vars, d.read path = .ok source ∧ d.HoldsContext context vars ∧
    ((Engine.ofOptions (Registry.builtin now) .default).renderSource source vars).1 = .ok text

def Parses (path : String) : Prop :=
  ∃ source template, d.read path = .ok source ∧ Template.parse source = .ok template

/-- A file of this path can be made or overwritten. -/
def Writable (file : String) : Prop :=
  ∃ place, d.target file = .ok place

/-- The text is all that is printed, or all that is in the file, and the other files are as they were. -/
def Delivered (text : String) (output : Option String) (result : Outcome × Directory) : Prop :=
  match output with
  | none => result.1.stdout = text ∧ result.2 = d
  | some file => result.1.stdout = "" ∧ result.2.read file = .ok text ∧
    ∃ place, d.target file = .ok place ∧ Directory.entry? result.2 place = some (.file text.toUTF8) ∧
      ∀ other, other ≠ place → Directory.entry? result.2 other = d.entry? other

def textAt (path : String) : Except Outcome String :=
  (d.read path).mapError (unreadable path)

def contextAt : Option String → Except Outcome Context
  | none => .ok Context.empty
  | some file => d.textAt file >>= fun text =>
    (Context.ofText text).mapError fun e => .failed ("Error in " ++ file ++ ": " ++ e.message)

/-- The document, for whatever capacity of the cache. -/
def documentAt (now : Calendar.DateTime) (path : String) (context : Option String) : Except Outcome String := do
  let source ← d.textAt path
  let vars ← d.contextAt context
  (Engine.Uncached.renderSource ⟨Registry.builtin now, []⟩ source vars).mapError fun e => .failed e.publicMessage

def checkAt (path : String) : Except Outcome Outcome := do
  let source ← d.textAt path
  ((Template.parse source).mapError fun e => .failed (path ++ ": " ++ e.message)).map fun _ => .noted ("OK: " ++ path)

variable {d} {now : Calendar.DateTime} {path : String} {context : Option String}

theorem textAt_eq_ok_iff {text : String} : d.textAt path = .ok text ↔ d.read path = .ok text :=
  mapError_eq_ok_iff

theorem contextAt_eq_ok_iff {vars : Context} : d.contextAt context = .ok vars ↔ d.HoldsContext context vars := by
  cases context with
  | none => simp [contextAt, HoldsContext, eq_comm]
  | some file => simp only [contextAt, HoldsContext, bind_eq_ok_iff, textAt_eq_ok_iff, mapError_eq_ok_iff]

theorem documentAt_eq_ok_iff {text : String} :
    d.documentAt now path context = .ok text ↔ d.Renders now path context text := by
  simp only [documentAt, Renders, bind_eq_ok_iff, textAt_eq_ok_iff, contextAt_eq_ok_iff, mapError_eq_ok_iff,
    Engine.renderSource_ofOptions, exists_and_left]

theorem Renders.unique {text other : String} (h : d.Renders now path context text)
    (hother : d.Renders now path context other) : text = other :=
  Except.ok.inj ((documentAt_eq_ok_iff.mpr h).symm.trans (documentAt_eq_ok_iff.mpr hother))

theorem checkAt_eq_ok_iff {outcome : Outcome} :
    d.checkAt path = .ok outcome ↔ d.Parses path ∧ outcome = .noted ("OK: " ++ path) := by
  simp only [checkAt, Parses, bind_eq_ok_iff, textAt_eq_ok_iff, map_eq_ok_iff, mapError_eq_ok_iff]
  constructor
  · rintro ⟨source, hread, template, hparse, rfl⟩
    exact ⟨⟨source, template, hread, hparse⟩, rfl⟩
  · rintro ⟨⟨source, template, hread, hparse⟩, rfl⟩
    exact ⟨source, hread, template, hparse, rfl⟩

/-- What does not parse is rendered under no context. -/
theorem Renders.parses {text : String} (h : d.Renders now path context text) : d.Parses path := by
  obtain ⟨source, vars, hread, -, hrendered⟩ := h
  rw [Engine.renderSource_ofOptions, Engine.Uncached.renderSource] at hrendered
  cases hparse : Template.parse source with
  | ok template => exact ⟨source, template, hread, hparse⟩
  | error fault =>
    rw [hparse] at hrendered
    cases hrendered

end Directory

/-- A failure prints nothing but a message. -/
def FailsSilently {α : Type} (x : Except Outcome α) : Prop :=
  ∀ outcome, x = .error outcome → outcome.code = 1 ∧ outcome.stdout = ""

namespace FailsSilently

variable {ε α β : Type} {x : Except Outcome α}

theorem mapError {y : Except ε α} {g : ε → Outcome} (hg : ∀ e, (g e).code = 1 ∧ (g e).stdout = "") :
    FailsSilently (y.mapError g) := by
  intro outcome h
  obtain ⟨e, -, rfl⟩ := mapError_eq_error_iff.mp h
  exact hg e

theorem bind {f : α → Except Outcome β} (hx : FailsSilently x) (hf : ∀ a, FailsSilently (f a)) :
    FailsSilently (x >>= f) := by
  intro outcome h
  rcases bind_eq_error_iff.mp h with hnow | ⟨a, -, hlater⟩
  · exact hx outcome hnow
  · exact hf a outcome hlater

theorem map (hx : FailsSilently x) (f : α → β) : FailsSilently (x.map f) :=
  fun outcome h => hx outcome (map_eq_error_iff.mp h)

theorem textAt (d : Directory) (path : String) : FailsSilently (d.textAt path) :=
  mapError fun failure => by cases failure <;> exact ⟨rfl, rfl⟩

theorem contextAt (d : Directory) (context : Option String) : FailsSilently (d.contextAt context) := by
  cases context with
  | none => exact fun _ h => by cases h
  | some file => exact (textAt d file).bind fun _ => mapError fun _ => ⟨rfl, rfl⟩

theorem documentAt (now : Calendar.DateTime) (d : Directory) (path : String) (context : Option String) :
    FailsSilently (d.documentAt now path context) :=
  (textAt d path).bind fun _ => (contextAt d context).bind fun _ => mapError fun _ => ⟨rfl, rfl⟩

theorem checkAt (d : Directory) (path : String) : FailsSilently (d.checkAt path) :=
  (textAt d path).bind fun _ => (mapError fun _ => ⟨rfl, rfl⟩).map _

end FailsSilently

/-- An access to the files, and what is done with its result. -/
theorem run_lift_bind {α β : Type} (x : StateM Directory α) (f : α → ExceptT Outcome (StateM Directory) β)
    (d : Directory) : (liftM x >>= f).run.run d = (f (x d).1).run.run (x d).2 :=
  rfl

/-- The step comes to this result on the directory, and changes nothing in it. -/
def Looks {α : Type} (d : Directory) (x : ExceptT Outcome (StateM Directory) α) (result : Except Outcome α) : Prop :=
  x.run.run d = (result, d)

namespace Looks

variable {d : Directory} {α β : Type} {x : ExceptT Outcome (StateM Directory) α} {path : String}

theorem run_bind_of_ok {a : α} (h : Looks d x (.ok a)) (f : α → ExceptT Outcome (StateM Directory) β) :
    (x >>= f).run.run d = (f a).run.run d := by
  rw [ExceptT.run_bind, StateT.run_bind, h]
  rfl

theorem bind_of_error {outcome : Outcome} (h : Looks d x (.error outcome))
    (f : α → ExceptT Outcome (StateM Directory) β) : Looks d (x >>= f) (.error outcome) := by
  rw [Looks, ExceptT.run_bind, StateT.run_bind, h]
  rfl

theorem bind {result : Except Outcome α} {f : α → ExceptT Outcome (StateM Directory) β} {g : α → Except Outcome β}
    (h : Looks d x result) (hf : ∀ a, Looks d (f a) (g a)) : Looks d (x >>= f) (result >>= g) := by
  cases result with
  | ok a => exact (h.run_bind_of_ok f).trans (hf a)
  | error outcome => exact h.bind_of_error f

theorem readText (d : Directory) (path : String) : Looks d (readText Directory.access path) (d.textAt path) := by
  rw [Looks, CommandLine.readText, run_lift_bind, Directory.textAt]
  cases h : d.read path with
  | ok text =>
    have hread : Directory.access.read path d = (.ok text, d) := congrArg (·, d) h
    rw [hread]
    rfl
  | error failure =>
    have hread : Directory.access.read path d = (.error failure, d) := congrArg (·, d) h
    rw [hread]
    rfl

theorem readContext (d : Directory) (context : Option String) :
    Looks d (readContext Directory.access context) (d.contextAt context) := by
  cases context with
  | none => rfl
  | some file =>
    refine (readText d file).bind fun text => ?_
    cases Context.ofText text <;> rfl

theorem checkFile (d : Directory) (path : String) : Looks d (checkFile Directory.access path) (d.checkAt path) := by
  refine (readText d path).bind fun source => ?_
  cases Template.parse source <;> rfl

end Looks

/-- What a render does before it delivers the document. -/
def makeDocument (engine : Engine) (path : String) (context : Option String) :
    ExceptT Outcome (StateM Directory) String := do
  let source ← readText Directory.access path
  let vars ← readContext Directory.access context
  match (engine.renderSource source vars).1 with
  | .ok text => return text
  | .error e => throw (.failed e.publicMessage)

theorem renderFile_eq (engine : Engine) (path : String) (context output : Option String) :
    renderFile Directory.access engine path context output =
      makeDocument engine path context >>= fun text => deliver Directory.access text output := by
  simp only [renderFile, makeDocument, bind_assoc]
  congr 1
  funext source
  congr 1
  funext vars
  split <;> simp [*]

theorem Looks.makeDocument (now : Calendar.DateTime) (d : Directory) (options : EngineOptions) (path : String)
    (context : Option String) :
    Looks d (makeDocument (Engine.ofOptions (Registry.builtin now) options) path context)
      (d.documentAt now path context) := by
  refine (Looks.readText d path).bind fun source => (Looks.readContext d context).bind fun vars => ?_
  rw [Engine.renderSource_ofOptions]
  cases Engine.Uncached.renderSource ⟨Registry.builtin now, []⟩ source vars <;> rfl

theorem deliver_run_of_target {d : Directory} {file : String} {place : List String}
    (h : d.target file = .ok place) (text : String) :
    (deliver Directory.access text (some file)).run.run d =
      (.ok (.noted ("Wrote: " ++ file)), d.put place text) := by
  have hwrite : d.write file text = .ok (d.put place text) := bind_eq_ok_iff.mpr ⟨place, h, rfl⟩
  have haccess : Directory.access.write file text d = (.ok (), d.put place text) := by
    simp only [Directory.access, hwrite]
  rw [deliver, run_lift_bind, haccess]
  rfl

theorem deliver_run_of_error {d : Directory} {file : String} {failure : FileFailure}
    (h : d.target file = .error failure) (text : String) :
    (deliver Directory.access text (some file)).run.run d =
      (.error (.failed ("Error writing " ++ file ++ ": " ++ failure.message)), d) := by
  have hwrite : d.write file text = .error failure := bind_eq_error_iff.mpr (.inl h)
  have haccess : Directory.access.write file text d = (.error failure, d) := by
    simp only [Directory.access, hwrite]
  rw [deliver, run_lift_bind, haccess]
  rfl

/-- An outcome, whether of a success or of a failure. -/
def ended : Except Outcome Outcome × Directory → Outcome × Directory
  | (.ok outcome, d) | (.error outcome, d) => (outcome, d)

section Runs

variable {now : Calendar.DateTime} {d : Directory} {args : List String} {path : String}
  {context output : Option String}

theorem exists_runOn_eq (now : Calendar.DateTime) (d : Directory) {command : Command} (h : Asks args command) :
    ∃ options, runOn now d args =
      ended ((perform Directory.access (Engine.ofOptions (Registry.builtin now) options) command).run.run d) := by
  obtain ⟨options, hargs⟩ := h
  refine ⟨options, ?_⟩
  rw [runOn, run, hargs]
  dsimp only
  rw [StateT.run_bind]
  rcases (perform Directory.access (Engine.ofOptions (Registry.builtin now) options) command).run.run d with
    ⟨outcome | outcome, after⟩ <;> rfl

/-- A document that could be made is delivered. -/
theorem runOn_render_of_ok (h : Asks args (.render path context output)) {text : String}
    (hdocument : d.documentAt now path context = .ok text) :
    runOn now d args = ended ((deliver Directory.access text output).run.run d) := by
  obtain ⟨options, hrun⟩ := exists_runOn_eq now d h
  have hmade := Looks.makeDocument now d options path context
  rw [hdocument] at hmade
  rw [hrun, perform, renderFile_eq, hmade.run_bind_of_ok]

/-- Where no document could be made, nothing is done. -/
theorem runOn_render_of_error (h : Asks args (.render path context output)) {outcome : Outcome}
    (hdocument : d.documentAt now path context = .error outcome) : runOn now d args = (outcome, d) := by
  obtain ⟨options, hrun⟩ := exists_runOn_eq now d h
  have hmade := Looks.makeDocument now d options path context
  rw [hdocument] at hmade
  rw [hrun, perform, renderFile_eq, hmade.bind_of_error]
  rfl

/-- What a line says about the cache changes nothing. -/
theorem runOn_render_congr {other : List String} (h : Asks args (.render path context output))
    (hother : Asks other (.render path context output)) : runOn now d other = runOn now d args := by
  cases hdocument : d.documentAt now path context with
  | ok text => rw [runOn_render_of_ok h hdocument, runOn_render_of_ok hother hdocument]
  | error outcome => rw [runOn_render_of_error h hdocument, runOn_render_of_error hother hdocument]

theorem runOn_check (h : Asks args (.check path)) : runOn now d args = ended (d.checkAt path, d) := by
  obtain ⟨options, hrun⟩ := exists_runOn_eq now d h
  rw [hrun, perform, Looks.checkFile d path]

/-- How a render ends: with the document delivered, or with nothing done. -/
structure RenderEnds (now : Calendar.DateTime) (d : Directory) (path : String) (context output : Option String)
    (result : Outcome × Directory) : Prop where
  code_eq_zero_iff : result.1.code = 0 ↔
    (∃ text, d.Renders now path context text) ∧ ∀ file ∈ output, d.Writable file
  delivered : result.1.code = 0 → ∃ text, d.Renders now path context text ∧ d.Delivered text output result
  untouched : result.1.code ≠ 0 → result.1.code = 1 ∧ result.1.stdout = "" ∧ result.2 = d

namespace RenderEnds

theorem of_delivered {result : Outcome × Directory} {text : String} (hcode : result.1.code = 0)
    (hrenders : d.Renders now path context text) (hwritable : ∀ file ∈ output, d.Writable file)
    (hdelivered : d.Delivered text output result) : RenderEnds now d path context output result :=
  ⟨⟨fun _ => ⟨⟨text, hrenders⟩, hwritable⟩, fun _ => hcode⟩, fun _ => ⟨text, hrenders, hdelivered⟩,
    fun h => absurd hcode h⟩

theorem of_failure {outcome : Outcome} (hcode : outcome.code = 1) (hstdout : outcome.stdout = "")
    (hnot : ¬ ((∃ text, d.Renders now path context text) ∧ ∀ file ∈ output, d.Writable file)) :
    RenderEnds now d path context output (outcome, d) := by
  have hne : outcome.code ≠ 0 := by simp [hcode]
  exact ⟨⟨fun h => absurd h hne, fun h => absurd h hnot⟩, fun h => absurd h hne, fun _ => ⟨hcode, hstdout, rfl⟩⟩

theorem of_asks (h : Asks args (.render path context output)) :
    RenderEnds now d path context output (runOn now d args) := by
  cases hdocument : d.documentAt now path context with
  | error outcome =>
    rw [runOn_render_of_error h hdocument]
    obtain ⟨hcode, hstdout⟩ := FailsSilently.documentAt now d path context outcome hdocument
    refine of_failure hcode hstdout ?_
    rintro ⟨⟨text, hrenders⟩, -⟩
    exact absurd (hdocument.symm.trans (Directory.documentAt_eq_ok_iff.mpr hrenders)) nofun
  | ok text =>
    rw [runOn_render_of_ok h hdocument]
    have hrenders := Directory.documentAt_eq_ok_iff.mp hdocument
    cases output with
    | none => exact of_delivered rfl hrenders nofun ⟨rfl, rfl⟩
    | some file =>
      cases htarget : d.target file with
      | error failure =>
        rw [deliver_run_of_error htarget]
        refine of_failure rfl rfl ?_
        rintro ⟨-, hwritable⟩
        obtain ⟨place, hplace⟩ := hwritable file rfl
        exact absurd (htarget.symm.trans hplace) nofun
      | ok place =>
        rw [deliver_run_of_target htarget]
        refine of_delivered rfl hrenders ?_ ⟨rfl, Directory.read_put htarget, place, htarget, ?_, ?_⟩
        · rintro _ ⟨⟩
          exact ⟨place, htarget⟩
        · exact Directory.entry?_put_self d place text
        · exact fun other hother => Directory.entry?_put_of_target htarget hother text

end RenderEnds

/-- How a check ends: nothing is printed or written, and the code tells whether the template parses. -/
structure CheckEnds (d : Directory) (path : String) (result : Outcome × Directory) : Prop where
  code_eq_zero_iff : result.1.code = 0 ↔ d.Parses path
  code_eq_one : result.1.code ≠ 0 → result.1.code = 1
  untouched : result.1.stdout = "" ∧ result.2 = d

theorem CheckEnds.of_asks (h : Asks args (.check path)) : CheckEnds d path (runOn now d args) := by
  rw [runOn_check h]
  cases hcheck : d.checkAt path with
  | ok outcome =>
    obtain ⟨hparses, rfl⟩ := Directory.checkAt_eq_ok_iff.mp hcheck
    exact ⟨⟨fun _ => hparses, fun _ => rfl⟩, fun h => absurd rfl h, rfl, rfl⟩
  | error outcome =>
    obtain ⟨hcode, hstdout⟩ := FailsSilently.checkAt d path outcome hcheck
    have hfails : ¬ d.Parses path := fun hparses =>
      absurd (hcheck.symm.trans (Directory.checkAt_eq_ok_iff.mpr ⟨hparses, rfl⟩)) nofun
    have hne : outcome.code ≠ 0 := by simp [hcode]
    exact ⟨⟨fun h => absurd h hne, fun h => absurd h hfails⟩, fun _ => hcode, hstdout, rfl⟩

end Runs

/-- A line that asks to render a template ends with code 0 and the text delivered just when every step succeeds, else
with code 1, nothing printed and no file changed. A check writes nothing. -/
theorem runOn_all_or_nothing (now : Calendar.DateTime) (d : Directory) (path : String) :
    (∀ context output args, Asks args (.render path context output) →
      RenderEnds now d path context output (runOn now d args) ∧
      ∀ other, Asks other (.render path context output) → runOn now d other = runOn now d args) ∧
    (∀ args, Asks args (.check path) →
      CheckEnds d path (runOn now d args) ∧
      ((runOn now d args).1.code ≠ 0 →
        ∀ context output other, Asks other (.render path context output) → (runOn now d other).1.code = 1)) ∧
    (IsPath path →
      Asks (checkLine path) (.check path) ∧
      ∀ context output capacity, (∀ file ∈ context, IsPath file) → (∀ file ∈ output, IsPath file) →
        (∀ n ∈ capacity, (capacity? n).isSome) →
        Asks (renderLine path context output capacity) (.render path context output)) := by
  refine ⟨?_, ?_, ?_⟩
  · intro context output args hargs
    exact ⟨.of_asks hargs, fun other hother => runOn_render_congr hargs hother⟩
  · intro args hargs
    have hcheck : CheckEnds d path (runOn now d args) := .of_asks hargs
    refine ⟨hcheck, ?_⟩
    intro hrejected context output other hother
    have hrender : RenderEnds now d path context output (runOn now d other) := .of_asks hother
    refine (hrender.untouched ?_).1
    intro hzero
    obtain ⟨⟨text, hrenders⟩, -⟩ := hrender.code_eq_zero_iff.mp hzero
    exact hrejected (hcheck.code_eq_zero_iff.mpr hrenders.parses)
  · intro hpath
    refine ⟨⟨_, Invocation.ofArguments_checkLine hpath⟩, ?_⟩
    intro context output capacity hcontext houtput hcapacity
    exact ⟨_, Invocation.ofArguments_renderLine hpath hcontext houtput hcapacity⟩

/-- A template with a context, written to a file that was not there, without room in the cache. -/
theorem runOn_all_or_nothing_written :
    let d : Directory :=
      ⟨[(["t"], .file "Hi \x7b\x7b x \x7d\x7d".toUTF8), (["c"], .file "\x7b\"x\": \"y\"\x7d".toUTF8)]⟩
    let now : Calendar.DateTime := ⟨⟨2025, 9, 1, by decide, by decide, by decide⟩, .midnight⟩
    let result := runOn now d ["render", "t", "-c", "c", "-o", "o", "--cache-capacity", "0"]
    result.1.code = 0 ∧ result.1.stdout = "" ∧ result.2.read "o" = .ok "Hi y" := by
  intro d now result
  obtain ⟨render, -, lines⟩ := runOn_all_or_nothing now d "t"
  have hasks : Asks (renderLine "t" (some "c") (some "o") (some "0")) (.render "t" (some "c") (some "o")) := by
    refine (lines ⟨rfl, rfl⟩).2 _ _ _ ?_ ?_ ?_ <;> rintro _ ⟨⟩
    · exact ⟨rfl, rfl⟩
    · exact ⟨rfl, rfl⟩
    · decide
  have hdocument : ((Context.ofText "\x7b\"x\": \"y\"\x7d").map fun vars =>
      ((Engine.ofOptions (Registry.builtin now) .default).renderSource "Hi \x7b\x7b x \x7d\x7d" vars).1) =
        .ok (.ok "Hi y") := by decide +kernel
  obtain ⟨vars, hvars, hrendered⟩ := map_eq_ok_iff.mp hdocument
  have hsource : d.read "t" = .ok "Hi \x7b\x7b x \x7d\x7d" := by
    rw [Directory.read, Directory.content, Directory.names_of_not_mem (by decide) (by decide)]
    decide +kernel
  have hcontext : d.read "c" = .ok "\x7b\"x\": \"y\"\x7d" := by
    rw [Directory.read, Directory.content, Directory.names_of_not_mem (by decide) (by decide)]
    decide +kernel
  have hrenders : d.Renders now "t" (some "c") "Hi y" := ⟨_, vars, hsource, ⟨_, hcontext, hvars⟩, hrendered⟩
  have htarget : d.target "o" = .ok ["o"] := by
    rw [Directory.target, Directory.names_of_not_mem (by decide) (by decide)]
    decide +kernel
  obtain ⟨ends, -⟩ := render _ _ _ hasks
  have hcode : result.1.code = 0 := by
    refine ends.code_eq_zero_iff.mpr ⟨⟨_, hrenders⟩, ?_⟩
    rintro _ ⟨⟩
    exact ⟨["o"], htarget⟩
  obtain ⟨text, htext, hstdout, hread, -⟩ := ends.delivered hcode
  exact ⟨hcode, hstdout, hread.trans (congrArg Except.ok (htext.unique hrenders))⟩

end TextTemplate.CommandLine
