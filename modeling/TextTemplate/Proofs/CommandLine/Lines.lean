import TextTemplate.CommandLine.Arguments
import TextTemplate.Proofs.Outcome

namespace TextTemplate.CommandLine

open TextTemplate.Outcome (bind_eq_ok_iff)

/-- The line asks for the command, whatever it says about the cache. -/
def Asks (args : List String) (command : Command) : Prop :=
  ∃ options, Invocation.ofArguments args = .ok ⟨command, options⟩

/-- What may stand for a path: something that does not look like an option. -/
def IsPath (arg : String) : Prop :=
  arg.isEmpty = false ∧ startsSwitch arg = false

/-- An option with its value, if it is given. -/
def setting (flag : String) : Option String → List String
  | none => []
  | some value => [flag, value]

/-- Renders a document, perhaps with a context, into a file and with a capacity of the cache. -/
def renderLine (path : String) (context output capacity : Option String) : List String :=
  "render" :: path :: (setting "-c" context ++ setting "-o" output ++ setting "--cache-capacity" capacity)

def checkLine (path : String) : List String :=
  ["check", path]

theorem Level.shape_operand (level : Level) {arg : String} (h : startsSwitch arg = false) :
    level.shape arg = .operand := by
  rw [startsSwitch] at h
  split at h
  · cases h
  · rename_i hne
    rw [Level.shape]
    split
    case h_1 heq => exact absurd heq (hne _ _)
    case h_2 heq => exact absurd heq (hne _ _)
    case h_3 heq => exact absurd heq (hne _ _)
    case h_4 => rfl

/-- A number has no hyphen in front. -/
theorem startsSwitch_of_capacity {value : String} (h : (capacity? value).isSome) : startsSwitch value = false := by
  rw [startsSwitch]
  split
  · rename_i c rest heq
    simp [capacity?, heq] at h
  · rfl

/-- A path can be the value of an option that takes one. -/
theorem IsPath.fits {path : String} {s : Switch} (h : IsPath path) (hs : s.accepts path = !path.isEmpty) :
    startsSwitch path = false ∧ s.accepts path := by
  rw [hs, h.1]
  exact ⟨h.2, rfl⟩

namespace Given

/-- An option is added, if it is given. -/
def withSetting (g : Given) (s : Switch) : Option String → Given
  | none => g
  | some value => ⟨(s, value) :: g.settings, g.operand⟩

@[simp]
theorem value?_nil (operand : Option String) (s : Switch) : (⟨[], operand⟩ : Given).value? s = none := rfl

/-- What was added last counts first. -/
@[simp]
theorem value?_withSetting (g : Given) (s t : Switch) (value : Option String) :
    (g.withSetting s value).value? t = if t = s then value.or (g.value? t) else g.value? t := by
  cases value with
  | none => simp [withSetting]
  | some value =>
    by_cases h : t = s
    · simp [withSetting, value?, h]
    · have hne : (t == s) = false := by simpa using h
      simp [withSetting, value?, List.lookup_cons, hne, h]

@[simp]
theorem operand_withSetting (g : Given) (s : Switch) (value : Option String) :
    (g.withSetting s value).operand = g.operand := by
  cases value <;> rfl

theorem place_path {level : Level} {path : String} (h : IsPath path) :
    Given.empty.place level path = .ok ⟨[], some path⟩ := by
  simp [place, h.1, empty]

theorem add_eq_ok {g : Given} {s : Switch} {value : String} (hnew : g.value? s = none) (h : s.accepts value) :
    g.add s value = .ok (g.withSetting s (some value)) := by
  rw [add, hnew, h]
  rfl

end Given

namespace Level

variable {level : Level} {given : Given} {last : Option (Switch × String)} {rest : List String} {g : Given}

/-- The arguments are read up to their end, and with what was given in front of them they give `g`. -/
def Reads (level : Level) (given : Given) (last : Option (Switch × String)) (args : List String) (g : Given) : Prop :=
  ∃ reading, level.read given last args = .ok reading ∧ reading.given.settle reading.last = .ok g

theorem reads_nil (h : given.settle last = .ok g) : level.Reads given last [] g :=
  ⟨⟨given, last, []⟩, rfl, h⟩

theorem reads_operand {arg : String} {settled placed : Given} (hlevel : level ≠ .program)
    (harg : startsSwitch arg = false) (hsettle : given.settle last = .ok settled)
    (hplace : settled.place level arg = .ok placed) (h : level.Reads placed none rest g) :
    level.Reads given last (arg :: rest) g := by
  obtain ⟨reading, hread, hsettled⟩ := h
  refine ⟨reading, ?_, hsettled⟩
  rw [Level.read.eq_def]
  simp only [level.shape_operand harg, if_neg hlevel, hsettle]
  simpa [bind, Except.bind, hplace] using hread

theorem reads_option {flag value : String} {s : Switch} {settled : Given} (hflag : level.shape flag = .switch s none)
    (htakes : s.valueName?.isSome) (hvalue : startsSwitch value = false) (hsettle : given.settle last = .ok settled)
    (h : level.Reads settled (some (s, value)) rest g) : level.Reads given last (flag :: value :: rest) g := by
  obtain ⟨reading, hread, hsettled⟩ := h
  obtain ⟨name, hname⟩ := Option.isSome_iff_exists.mp htakes
  refine ⟨reading, ?_, hsettled⟩
  rw [Level.read.eq_def]
  simpa [hflag, hname, hvalue, hsettle] using hread

/-- An option that was not given before is read, and the arguments behind it. -/
theorem reads_setting {flag : String} {s : Switch} {value : Option String} {settled : Given}
    (hflag : level.shape flag = .switch s none) (htakes : s.valueName?.isSome)
    (hvalue : ∀ v ∈ value, startsSwitch v = false ∧ s.accepts v) (hsettle : given.settle last = .ok settled)
    (hnew : settled.value? s = none)
    (h : ∀ given last, given.settle last = .ok (settled.withSetting s value) → level.Reads given last rest g) :
    level.Reads given last (setting flag value ++ rest) g := by
  cases value with
  | none => exact h given last hsettle
  | some v =>
    obtain ⟨hstarts, haccepts⟩ := hvalue v rfl
    exact reads_option hflag htakes hstarts hsettle (h settled (some (s, v)) (Given.add_eq_ok hnew haccepts))

end Level

namespace Invocation

/-- A line without options in front of the command is read by the command's own level. -/
theorem ofArguments_of_reads {name : String} {level : Level} {rest : List String} {g : Given} {invocation : Invocation}
    (hname : Level.ofName? name = some level) (hstarts : startsSwitch name = false) (hlevel : level ≠ .help)
    (hreads : level.Reads Given.empty none rest g) (h : ofGiven Given.empty g level = .ok invocation) :
    ofArguments (name :: rest) = .ok invocation := by
  obtain ⟨reading, hread, hsettle⟩ := hreads
  have htop : Level.read .program Given.empty none (name :: rest) = .ok ⟨Given.empty, none, name :: rest⟩ := by
    rw [Level.read.eq_def]
    simp only [Level.shape_operand .program hstarts, if_pos]
  refine bind_eq_ok_iff.mpr ⟨_, htop, ?_⟩
  simp only [hname]
  refine bind_eq_ok_iff.mpr ⟨reading, hread, ?_⟩
  rw [hsettle]
  exact congrArg (Except.mapError Stop.usage) h

/-- A line for a document is read as it was written. -/
theorem ofArguments_renderLine {path : String} {context output capacity : Option String} (hpath : IsPath path)
    (hcontext : ∀ file ∈ context, IsPath file) (houtput : ∀ file ∈ output, IsPath file)
    (hcapacity : ∀ n ∈ capacity, (capacity? n).isSome) :
    ofArguments (renderLine path context output capacity) =
      .ok ⟨.render path context output, ((capacity.bind capacity?).map EngineOptions.mk).getD .default⟩ := by
  let placed : Given := ⟨[], some path⟩
  let withContext := placed.withSetting .context context
  let withOutput := withContext.withSetting .output output
  let g := withOutput.withSetting .cacheCapacity capacity
  have hreads : Level.Reads .render Given.empty none
      (path :: (setting "-c" context ++ setting "-o" output ++ setting "--cache-capacity" capacity)) g := by
    refine Level.reads_operand nofun hpath.2 rfl (Given.place_path hpath) ?_
    rw [List.append_assoc]
    refine Level.reads_setting (s := .context) rfl rfl (fun v hv => (hcontext v hv).fits rfl) rfl rfl ?_
    intro given last hsettle
    refine Level.reads_setting (s := .output) rfl rfl (fun v hv => (houtput v hv).fits rfl) hsettle (by simp) ?_
    intro given last hsettle
    rw [← List.append_nil (setting _ capacity)]
    refine Level.reads_setting (s := .cacheCapacity) rfl rfl ?_ hsettle (by simp) fun _ _ => Level.reads_nil
    exact fun n hn => ⟨startsSwitch_of_capacity (hcapacity n hn), hcapacity n hn⟩
  refine ofArguments_of_reads rfl rfl nofun hreads ?_
  have hcommand : g.command .render = .ok (.render path context output) := by
    simp [Given.command, g, withOutput, withContext, placed]
  have hvalue : g.value? .cacheCapacity = capacity := by simp [g, withOutput, withContext, placed]
  have htop : Given.empty.value? .cacheCapacity = none := rfl
  rw [ofGiven, hcommand, hvalue, htop, Option.or_none]
  rfl

theorem ofArguments_checkLine {path : String} (hpath : IsPath path) :
    ofArguments (checkLine path) = .ok ⟨.check path, .default⟩ := by
  have hreads : Level.Reads .check Given.empty none [path] ⟨[], some path⟩ :=
    Level.reads_operand nofun hpath.2 rfl (Given.place_path hpath) (Level.reads_nil rfl)
  exact ofArguments_of_reads rfl rfl nofun hreads rfl

end Invocation

end TextTemplate.CommandLine
