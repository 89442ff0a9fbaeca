import DocTemplate.Command.Run
import DocTemplate.Proofs.DirectoryWrites

/-! What a command does to the directory it is run in. It reads everything before it writes
anything, and it writes at most one file, the last thing that can fail. -/
namespace DocTemplate

/-- The files as they can be read in one state, which stays as it is. -/
def FileAccess.frozen {σ : Type} (files : FileAccess (StateM σ)) (s : σ) : FileAccess Id where
  read path := (files.read path s).1
  isFile path := (files.isFile path s).1
  write path text := (files.write path text s).1

/-- A system serves a directory if each operation does what it does to the directory or is refused,
for whatever reason, with nothing changed. -/
structure Directory.Serves (files : FileAccess (StateM Directory)) : Prop where
  read : ∀ path d, files.read path d = (d.read path, d) ∨
    ∃ cause, files.read path d = (.error cause, d)
  isFile : ∀ path d, files.isFile path d = (d.isFile path, d) ∨ files.isFile path d = (false, d)
  write : ∀ path text d,
    (∃ after, d.write path text = .ok after ∧ files.write path text d = (.ok (), after)) ∨
      ∃ cause, files.write path text d = (.error cause, d)

theorem Directory.access_write {d after : Directory} {path text : String}
    (h : d.write path text = .ok after) : access.write path text d = (.ok (), after) := by
  simp only [access, bind, StateT.bind, get, getThe, MonadStateOf.get, StateT.get, pure, h]
  rfl

/-- The directory by itself refuses nothing. -/
theorem Directory.access_serves : Directory.Serves Directory.access where
  read _ _ := Or.inl rfl
  isFile _ _ := Or.inl rfl
  write path text d := by
    cases hw : d.write path text with
    | ok after => exact Or.inl ⟨after, rfl, access_write hw⟩
    | error cause =>
      refine Or.inr ⟨cause, ?_⟩
      simp only [access, bind, StateT.bind, get, getThe, MonadStateOf.get, StateT.get, pure, hw]
      rfl

namespace Command

variable {parsers : Parsers} {files : FileAccess (StateM Directory)} {d after : Directory}
  {α : Type}

theorem read_then (hf : Directory.Serves files) (path : String)
    (next : Except FileError String → StateM Directory α) :
    (files.read path >>= next) d = next ((files.frozen d).read path) d := by
  have hread : files.read path d = ((files.frozen d).read path, d) := by
    rcases hf.read path d with hr | ⟨cause, hr⟩ <;> simp only [FileAccess.frozen, hr]
  exact congrArg (fun result => next result.1 result.2) hread

theorem isFile_then (hf : Directory.Serves files) (path : String)
    (next : Bool → StateM Directory α) :
    (files.isFile path >>= next) d = next ((files.frozen d).isFile path) d := by
  have hfile : files.isFile path d = ((files.frozen d).isFile path, d) := by
    rcases hf.isFile path d with hr | hr <;> simp only [FileAccess.frozen, hr]
  exact congrArg (fun result => next result.1 result.2) hfile

/-! Loading only reads. -/

theorem loadVariables_run (parsers : Parsers) (hf : Directory.Serves files) (path : String) :
    loadVariables parsers files path d = (loadVariables parsers (files.frozen d) path, d) := by
  rw [loadVariables, read_then hf]
  simp only [loadVariables, bind]
  cases (files.frozen d).read path <;> rfl

theorem ofFile_run (parsers : Parsers) (hf : Directory.Serves files) (path : String) :
    Settings.ofFile parsers files path d = (Settings.ofFile parsers (files.frozen d) path, d) := by
  rw [Settings.ofFile, read_then hf]
  simp only [Settings.ofFile, bind]
  cases (files.frozen d).read path <;> rfl

theorem ofWorkingDirectory_run (parsers : Parsers) (hf : Directory.Serves files) :
    Settings.ofWorkingDirectory parsers files d =
      (Settings.ofWorkingDirectory parsers (files.frozen d), d) := by
  rw [Settings.ofWorkingDirectory, isFile_then hf]
  simp only [Settings.ofWorkingDirectory, bind]
  cases (files.frozen d).isFile Settings.fileName with
  | true => exact ofFile_run parsers hf _
  | false => rfl

theorem loadSettings_run (parsers : Parsers) (hf : Directory.Serves files)
    (config : Option String) :
    loadSettings parsers files config d = (loadSettings parsers (files.frozen d) config, d) := by
  cases config with
  | some path =>
    have hs := ofFile_run (d := d) parsers hf path
    simp only [loadSettings, bind, StateT.bind, hs]
    cases Settings.ofFile parsers (files.frozen d) path <;> rfl
  | none =>
    have hs := ofWorkingDirectory_run (d := d) parsers hf
    simp only [loadSettings, bind, StateT.bind, hs]
    cases Settings.ofWorkingDirectory parsers (files.frozen d) <;> rfl

/-- What a command has done to a directory when it has ended, if it was to write the given text to
the given file, or none to none. -/
structure Effect (target given : Option String) (d : Directory) (outcome : Outcome)
    (after : Directory) : Prop where
  failed : outcome.code ≠ 0 → outcome.stdout = "" ∧ after = d
  read : outcome.code = 0 → target = none → after = d
  written : outcome.code = 0 → ∀ path, target = some path →
    ∃ text, given = some text ∧ d.write path text = .ok after

variable {target given : Option String}

theorem effect_failure (cause : CommandError) : Effect target given d (.failure cause) d where
  failed _ := ⟨rfl, rfl⟩
  read := nofun
  written := nofun

theorem effect_success (stdout : String) : Effect none given d (.success stdout) d where
  failed h := (h rfl).elim
  read _ _ := rfl
  written := nofun

theorem effect_ofExcept (result : Except CommandError String) :
    Effect none given d (.ofExcept result) d := by
  cases result with
  | ok stdout => exact effect_success stdout
  | error cause => exact effect_failure cause

/-! Each command by itself. Only the render command writes. -/

theorem detect_effect (hf : Directory.Serves files) (file : String) (json : Bool) :
    ∃ outcome, runDetect files file json d = (outcome, d) ∧ Effect none given d outcome d := by
  rw [runDetect, read_then hf]
  cases (files.frozen d).read file with
  | error cause => exact ⟨_, rfl, effect_failure _⟩
  | ok content => exact ⟨_, rfl, effect_success _⟩

theorem vars_effect (parsers : Parsers) (hf : Directory.Serves files) (s : Settings)
    (file : String) (get : Option String) (json : Bool) :
    ∃ outcome, runVars parsers files s file get json d = (outcome, d) ∧
      Effect none given d outcome d := by
  have hl := loadVariables_run (d := d) parsers hf file
  simp only [runVars, bind, StateT.bind, hl]
  cases loadVariables parsers (files.frozen d) file with
  | error cause => exact ⟨_, rfl, effect_failure _⟩
  | ok c => exact ⟨_, rfl, effect_ofExcept _⟩

/-- The page that is made of the files as they can be read, or what fails first. -/
def RenderOptions.pageOf (o : RenderOptions) (parsers : Parsers) (files : FileAccess Id)
    (s : Settings) (verbose : Bool) : Except CommandError Page :=
  match files.read o.template with
  | .error cause => .error (.template o.template cause)
  | .ok template =>
    match loadVariables parsers files o.vars with
    | .error cause => .error cause
    | .ok given => o.page s verbose template given

variable {o : RenderOptions} {s : Settings} {verbose showsWarnings : Bool} {page : Page}

/-- What is done with a page: it is written where the options say, and else printed. -/
def RenderOptions.deliver (o : RenderOptions) (files : FileAccess (StateM Directory))
    (showsWarnings : Bool) (page : Page) (d : Directory) : Outcome × Directory :=
  let shown := if showsWarnings then page.warnings else []
  match o.output with
  | none => (⟨0, page.text, none, shown, page.notes⟩, d)
  | some path =>
    match files.write path page.text d with
    | (.ok (), after) => (⟨0, s!"✓ Rendered {path}\n", none, shown, page.notes⟩, after)
    | (.error cause, after) => (⟨1, "", some (.output path cause), shown, page.notes⟩, after)

/-- The page is made of what can be read before anything is done with it. -/
theorem render_run (hf : Directory.Serves files) :
    o.run parsers files s verbose showsWarnings d =
      match o.pageOf parsers (files.frozen d) s verbose with
      | .error cause => (.failure cause, d)
      | .ok page => o.deliver files showsWarnings page d := by
  rw [RenderOptions.run, read_then hf, RenderOptions.pageOf]
  cases (files.frozen d).read o.template with
  | error cause => rfl
  | ok template =>
    have hl := loadVariables_run (d := d) parsers hf o.vars
    simp only [bind, StateT.bind, hl]
    cases loadVariables parsers (files.frozen d) o.vars with
    | error cause => rfl
    | ok given =>
      simp only
      cases o.page s verbose template given with
      | error cause => rfl
      | ok page =>
        simp only [RenderOptions.deliver]
        cases o.output with
        | none => rfl
        | some path =>
          simp only [StateT.bind, bind]
          cases files.write path page.text d with
          | mk result after => cases result <;> rfl

/-- A page that is not delivered leaves no trace. One delivered to a file was written there. -/
theorem deliver_effect (hf : Directory.Serves files) :
    ∃ outcome after, o.deliver files showsWarnings page d = (outcome, after) ∧
      Effect o.output (some page.text) d outcome after := by
  rw [RenderOptions.deliver]
  cases ho : o.output with
  | none => exact ⟨_, d, rfl, fun h => (h rfl).elim, fun _ _ => rfl, nofun⟩
  | some path =>
    rcases hf.write path page.text d with ⟨after, hw, hs⟩ | ⟨cause, hs⟩
    · simp only [hs]
      refine ⟨_, after, rfl, fun h => (h rfl).elim, nofun, ?_⟩
      rintro _ _ ⟨⟩
      exact ⟨page.text, rfl, hw⟩
    · simp only [hs]
      exact ⟨_, d, rfl, fun _ => ⟨rfl, rfl⟩, nofun, nofun⟩

/-- The file that a request asks to be written. -/
def Request.output? (r : Request) : Option String :=
  match r.job with
  | .render o => o.output
  | _ => none

/-- The text that a request renders from the files as they can be read. -/
def Request.text? (r : Request) (parsers : Parsers) (files : FileAccess Id) : Option String :=
  match r.job, loadSettings parsers files r.config with
  | .render o, .ok s => ((o.pageOf parsers files s r.verbose).toOption).map Page.text
  | _, _ => none

theorem request_effect (parsers : Parsers) (hf : Directory.Serves files) (r : Request)
    (showsWarnings : Bool) (d : Directory) :
    ∃ outcome after, r.run parsers files showsWarnings d = (outcome, after) ∧
      Effect r.output? (r.text? parsers (files.frozen d)) d outcome after := by
  have hload := loadSettings_run (d := d) parsers hf r.config
  simp only [Request.run, bind, StateT.bind, hload]
  cases hs : loadSettings parsers (files.frozen d) r.config with
  | error cause => exact ⟨_, d, rfl, effect_failure cause⟩
  | ok s =>
    cases hj : r.job with
    | render o =>
      simp only [render_run hf, Request.output?, hj, Request.text?, hs]
      cases o.pageOf parsers (files.frozen d) s r.verbose with
      | error cause => exact ⟨_, d, rfl, effect_failure cause⟩
      | ok page => exact deliver_effect hf
    | detect file json =>
      obtain ⟨outcome, hrun, he⟩ := detect_effect (d := d) hf file json
      simp only [hrun, Request.output?, hj]
      exact ⟨outcome, d, rfl, he⟩
    | vars file get json =>
      obtain ⟨outcome, hrun, he⟩ := vars_effect (d := d) parsers hf s file get json
      simp only [hrun, Request.output?, hj]
      exact ⟨outcome, d, rfl, he⟩

/-- Whatever the parsers make of the files, a command line that is accepted leaves no output and
changes nothing unless it succeeds. If it succeeds, nothing but the file that a rendering is written
to is seen to differ, and that file holds the text rendered from what was read before. -/
theorem run_effect (parsers : Parsers) (hf : Directory.Serves files) {arguments : List String}
    {environment : Environment} {r : Request}
    (hr : Request.ofArguments arguments environment.config = .ok r) (d : Directory) :
    ∃ outcome after, run parsers files arguments environment d = (.ended outcome, after) ∧
      (outcome.code ≠ 0 → outcome.stdout = "" ∧ after = d) ∧
        (outcome.code = 0 → (r.output? = none → after = d) ∧ ∀ path, r.output? = some path →
          ∃ names text, d.way? path = some names ∧ r.text? parsers (files.frozen d) = some text ∧
            (∀ way, way ≠ names → after.sight? way = d.sight? way) ∧
              (after.sight? names = some (.file text.toUTF8) ∨
                d.sight? names = some .device ∧ after = d)) := by
  simp only [run, hr]
  cases Log.Filter.given? environment.log with
  | none => exact ⟨.aborted, d, rfl, fun _ => ⟨rfl, rfl⟩, nofun⟩
  | some filter =>
    obtain ⟨outcome, after, hrun, he⟩ := request_effect parsers hf r filter.showsWarnings d
    simp only [bind, StateT.bind, hrun]
    refine ⟨outcome, after, rfl, he.failed, fun hc => ⟨he.read hc, ?_⟩⟩
    intro path hp
    obtain ⟨text, ht, hw⟩ := he.written hc path hp
    obtain ⟨names, hway, hframe, hfile⟩ := Directory.sight?_write hw
    exact ⟨names, text, hway, ht, hframe, hfile⟩

/-- A letter is rendered over its own template. With an empty mark the same command fails, and the
template stays. -/
theorem run_effect_over_template :
    let d := (Directory.empty.withFile "t.tex" "Dear \x7b\x7b.name\x7d\x7d".toUTF8).withFile
      "v.json" "\x7b\"name\":\"Ann\"\x7d".toUTF8
    let arguments := ["render", "t.tex", "--vars", "v.json", "-o", "t.tex"]
    let options : RenderOptions := ⟨"t.tex", "v.json", none, none, none, some "t.tex", false, false⟩
    let request : Request := ⟨false, none, .render options⟩
    let failing : Request := ⟨false, none, .render { options with left := some "" }⟩
    Directory.Serves Directory.access ∧
      (Request.ofArguments arguments none = .ok request ∧
        ∃ outcome after,
          run .standard Directory.access arguments ⟨none, none⟩ d = (.ended outcome, after) ∧
          outcome.code = 0 ∧ ∃ names, d.way? "t.tex" = some names ∧
            (∀ way, way ≠ names → after.sight? way = d.sight? way) ∧
              after.sight? names = some (.file "Dear Ann".toUTF8)) ∧
      Request.ofArguments (arguments ++ ["--left", ""]) none = .ok failing ∧
        ∃ outcome,
          run .standard Directory.access (arguments ++ ["--left", ""]) ⟨none, none⟩ d =
            (.ended outcome, d) ∧ outcome.code = 1 ∧ outcome.stdout = "" := by
  intro d arguments options request failing
  let code : Ending → Nat := fun
    | .ended outcome => outcome.code
    | .stopped _ => 2
  let environment : Environment := ⟨none, none⟩
  have hr : Request.ofArguments arguments environment.config = .ok request := rfl
  have hr' : Request.ofArguments (arguments ++ ["--left", ""]) environment.config = .ok failing :=
    rfl
  have hc : code (run .standard Directory.access arguments ⟨none, none⟩ d).1 = 0 := by
    decide +kernel
  have hc' : code (run .standard Directory.access (arguments ++ ["--left", ""]) ⟨none, none⟩ d).1 =
      1 := by decide +kernel
  have ht : request.text? .standard (Directory.access.frozen d) = some "Dear Ann" := by
    decide +kernel
  obtain ⟨outcome, after, hrun, _, hok⟩ :=
    run_effect .standard Directory.access_serves hr d
  obtain ⟨outcome', after', hrun', hfailed, _⟩ :=
    run_effect .standard Directory.access_serves hr' d
  rw [hrun] at hc
  rw [hrun'] at hc'
  obtain ⟨hquiet, rfl⟩ := hfailed (by rw [show outcome'.code = 1 from hc']; decide)
  obtain ⟨names, text, hway, htext, hframe, hfile⟩ := (hok hc).2 "t.tex" rfl
  cases ht.symm.trans htext
  have hdevice : d.sight? names ≠ some .device :=
    Directory.sight?_ne_device (by decide +kernel) hway
  exact ⟨Directory.access_serves,
    ⟨hr, outcome, after, hrun, hc, names, hway, hframe,
      hfile.resolve_right fun h => hdevice h.1⟩,
    hr', outcome', hrun', hc', hquiet⟩

end Command
end DocTemplate
