import DocTemplate.Proofs.CommandEffects
import DocTemplate.Proofs.StrategyDispatch
import DocTemplate.Proofs.StrictVariables

/-! The render command against the parts it is made of: the settings with the options over them, the
variables as they are prepared, and one strategy with the marks that count. The type of the document
is in none of these. -/
namespace DocTemplate

/-- Two texts are marks if neither is empty. -/
theorem Delimiters.exists_ofTexts_iff {left right : String} :
    (∃ marks, ofTexts left right = .ok marks) ↔ left ≠ "" ∧ right ≠ "" := by
  constructor
  · rintro ⟨marks, h⟩
    rw [ofTexts] at h
    split at h
    · cases h
    · next hl =>
      split at h
      · cases h
      · next hr => exact ⟨hl, hr⟩
  · rintro ⟨hl, hr⟩
    exact ⟨⟨left, right, hl, hr⟩, by rw [ofTexts, dif_neg hl, dif_neg hr]⟩

namespace Command

variable {parsers : Parsers} {files : FileAccess (StateM Directory)} {o : RenderOptions}
  {s : Settings} {verbose showsWarnings : Bool} {template : String} {given : Collection}
  {d : Directory}

/-- The document that the parts give by themselves. -/
def RenderOptions.document (o : RenderOptions) (s : Settings) (template : String)
    (given : Collection) : Except CommandError String :=
  match (o.variableSettings s).prepare given with
  | .error cause => .error (.invalid o.vars cause)
  | .ok c =>
    match o.delimiters s with
    | .error cause => .error (.delimiters cause)
    | .ok marks => ((Strategy.latex marks).render template c).mapError .rendering

/-- Whatever the tag of a page is, its text is the document. -/
theorem page_text :
    (o.page s verbose template given).map Page.text = o.document s template given := by
  rw [RenderOptions.page, RenderOptions.document]
  cases (o.variableSettings s).prepare given with
  | error cause => rfl
  | ok c =>
    cases o.delimiters s with
    | error cause => rfl
    | ok marks =>
      -- The tag picks a strategy, and all are the same one.
      simp only [Registry.render, Registry.strategyFor_standard]
      rfl

/-- The document of the files as they can be read. -/
def RenderOptions.documentOf (o : RenderOptions) (parsers : Parsers) (files : FileAccess Id)
    (s : Settings) : Except CommandError String :=
  match files.read o.template with
  | .error cause => .error (.template o.template cause)
  | .ok template =>
    match loadVariables parsers files o.vars with
    | .error cause => .error cause
    | .ok given => o.document s template given

theorem pageOf_text (verbose : Bool) (files : FileAccess Id) :
    (o.pageOf parsers files s verbose).map Page.text = o.documentOf parsers files s := by
  rw [RenderOptions.pageOf, RenderOptions.documentOf]
  cases files.read o.template with
  | error cause => rfl
  | ok template =>
    simp only
    cases loadVariables parsers files o.vars with
    | error cause => rfl
    | ok given => exact page_text

/-- What is told of a command besides its warnings and notes. -/
def Outcome.told (outcome : Outcome) : Nat × String × Option CommandError :=
  (outcome.code, outcome.stdout, outcome.error)

/-- How a document, or the lack of one, is told and what becomes of the directory. -/
def RenderOptions.settle (o : RenderOptions) (files : FileAccess (StateM Directory))
    (document : Except CommandError String) (d : Directory) :
    (Nat × String × Option CommandError) × Directory :=
  match document with
  | .error cause => ((1, "", some cause), d)
  | .ok text =>
    match o.output with
    | none => ((0, text, none), d)
    | some path =>
      match files.write path text d with
      | (.ok (), after) => ((0, s!"✓ Rendered {path}\n", none), after)
      | (.error cause, after) => ((1, "", some (.output path cause)), after)

theorem deliver_told (page : Page) :
    Prod.map Outcome.told id (o.deliver files showsWarnings page d) =
      o.settle files (.ok page.text) d := by
  simp only [RenderOptions.deliver, RenderOptions.settle]
  cases o.output with
  | none => rfl
  | some path =>
    simp only
    cases files.write path page.text d with
    | mk result after => cases result <;> rfl

/-- All that is told of a rendering follows from its document. -/
theorem render_told (hf : Directory.Serves files) :
    Prod.map Outcome.told id (o.run parsers files s verbose showsWarnings d) =
      o.settle files (o.documentOf parsers (files.frozen d) s) d := by
  rw [render_run hf, ← pageOf_text verbose]
  cases o.pageOf parsers (files.frozen d) s verbose with
  | error cause => rfl
  | ok page => exact deliver_told page

/-- What is wrong with a result, if anything is. -/
def faultsOf {ε α : Type} : Except ε α → List ε
  | .error cause => [cause]
  | .ok _ => []

/-- Everything that is wrong with what a rendering starts from, each part looked at by itself: the
settings, the template, the variables, their check if it is asked for, and the marks. -/
def RenderOptions.faults (o : RenderOptions) (settings : Except CommandError Settings)
    (template : Except FileError String) (given : Except CommandError Collection) :
    List CommandError :=
  let unchecked := match settings, given with
    | .ok s, .ok c => if (o.variableSettings s).strict then faultsOf c.validate else []
    | _, _ => []
  let unmarked := match settings with
    | .ok s => faultsOf (o.delimiters s)
    | .error _ => []
  faultsOf settings ++ (faultsOf template).map (.template o.template) ++ faultsOf given ++
    unchecked.map (.invalid o.vars ∘ .variable) ++ unmarked.map .delimiters

theorem faults_checked (hc : (o.variableSettings s).strict = true → given.validate = .ok ()) :
    o.faults (.ok s) (.ok template) (.ok given) = (faultsOf (o.delimiters s)).map .delimiters := by
  have hnone : (if (o.variableSettings s).strict then faultsOf given.validate else []) = [] := by
    split
    · next hs => rw [hc hs, faultsOf]
    · rfl
  rw [RenderOptions.faults, hnone]
  rfl

theorem faults_invalid {wrong : VariableError} (hs : (o.variableSettings s).strict = true)
    (h : given.validate = .error wrong) :
    (o.faults (.ok s) (.ok template) (.ok given)).head? =
      some (.invalid o.vars (.variable wrong)) := by
  rw [RenderOptions.faults]
  simp only [if_pos hs, h]
  rfl

theorem document_fault {cause : CommandError}
    (h : (o.faults (.ok s) (.ok template) (.ok given)).head? = some cause) :
    o.document s template given = .error cause := by
  by_cases hc : (o.variableSettings s).strict = true → given.validate = .ok ()
  · rw [faults_checked hc] at h
    rw [RenderOptions.document, VariableSettings.prepare_ok hc]
    cases hd : o.delimiters s with
    | error wrong =>
      rw [hd] at h
      cases h
      rfl
    | ok marks =>
      rw [hd] at h
      cases h
  · obtain ⟨hs, hinvalid⟩ := Classical.not_imp.mp hc
    cases hv : given.validate with
    | ok checked => exact (hinvalid hv).elim
    | error wrong =>
      cases (faults_invalid hs hv).symm.trans h
      rw [RenderOptions.document, VariableSettings.prepare_error hs hv]

/-- With the settings known, the first fault is the one that is met. -/
theorem documentOf_fault {files : FileAccess Id} {cause : CommandError}
    (h : (o.faults (.ok s) (files.read o.template) (loadVariables parsers files o.vars)).head? =
      some cause) : o.documentOf parsers files s = .error cause := by
  rw [RenderOptions.documentOf]
  cases ht : files.read o.template with
  | error unread =>
    rw [ht] at h
    cases h
    rfl
  | ok template =>
    cases hv : loadVariables parsers files o.vars with
    | error unread =>
      rw [ht, hv] at h
      cases h
      rfl
    | ok given =>
      rw [ht, hv] at h
      exact document_fault h

/-- A fault of the settings comes before all others. -/
theorem documentOf_request_fault {files : FileAccess Id} {config : Option String}
    {cause : CommandError}
    (h : (o.faults (loadSettings parsers files config) (files.read o.template)
      (loadVariables parsers files o.vars)).head? = some cause) :
    (loadSettings parsers files config).bind (o.documentOf parsers files) = .error cause := by
  cases hs : loadSettings parsers files config with
  | error unread =>
    rw [hs] at h
    cases h
    rfl
  | ok s =>
    rw [hs] at h
    exact documentOf_fault h

theorem document_eq_ok_iff {text : String} :
    o.document s template given = .ok text ↔
      ∃ c marks, (o.variableSettings s).prepare given = .ok c ∧ o.delimiters s = .ok marks ∧
        (Strategy.latex marks).render template c = .ok text := by
  rw [RenderOptions.document]
  cases (o.variableSettings s).prepare given with
  | error cause => exact ⟨nofun, nofun⟩
  | ok c =>
    cases o.delimiters s with
    | error cause => exact ⟨nofun, nofun⟩
    | ok marks =>
      constructor
      · intro h
        cases h
        exact ⟨c, marks, rfl, rfl, rfl⟩
      · rintro ⟨_, _, ⟨⟩, ⟨⟩, h⟩
        cases h
        rfl

/-- There is a document exactly if the check passes, where it is asked for, and neither mark is
empty. -/
theorem exists_document_iff (template : String) :
    (∃ text, o.document s template given = .ok text) ↔
      ((o.variableSettings s).strict = true → given.validate = .ok ()) ∧
        o.left.getD s.render.leftDelimiter ≠ "" ∧ o.right.getD s.render.rightDelimiter ≠ "" := by
  rw [← VariableSettings.exists_prepare_iff, ← Delimiters.exists_ofTexts_iff]
  constructor
  · rintro ⟨text, h⟩
    obtain ⟨c, marks, hc, hm, _⟩ := document_eq_ok_iff.mp h
    exact ⟨⟨c, hc⟩, marks, hm⟩
  · rintro ⟨⟨c, hc⟩, marks, hm⟩
    exact ⟨_, document_eq_ok_iff.mpr ⟨c, marks, hc, hm, rfl⟩⟩

/-- A document is settled with success, unless the write of it is refused. -/
theorem settle_ok (hf : Directory.Serves files) {text : String}
    (hw : ∀ path, o.output = some path → ∃ after, files.write path text d = (.ok (), after)) :
    ∃ stdout after, o.settle files (.ok text) d = ((0, stdout, none), after) ∧
      (o.output = none → stdout = text ∧ after = d) ∧
        ∀ path, o.output = some path → d.write path text = .ok after := by
  simp only [RenderOptions.settle]
  cases ho : o.output with
  | none => exact ⟨text, d, rfl, fun _ => ⟨rfl, rfl⟩, nofun⟩
  | some path =>
    obtain ⟨after, hpath⟩ := hw path ho
    refine ⟨s!"✓ Rendered {path}\n", after, by simp only [hpath], nofun, ?_⟩
    rintro _ ⟨⟩
    rcases hf.write path text d with ⟨written, hd, hs⟩ | ⟨cause, hs⟩
    · cases hpath.symm.trans hs
      exact hd
    · cases hpath.symm.trans hs

/-- Where every write is allowed, the parts settle with success exactly if they have a document, and
then it is what is told or written. -/
theorem settle_document (hf : Directory.Serves files)
    (hw : ∀ path, o.output = some path → ∀ text, ∃ written,
      files.write path text d = (.ok (), written))
    {told : Nat × String × Option CommandError} {after : Directory}
    (h : o.settle files (o.document s template given) d = (told, after)) :
    (told.1 = 0 ↔ ((o.variableSettings s).strict = true → given.validate = .ok ()) ∧
      o.left.getD s.render.leftDelimiter ≠ "" ∧ o.right.getD s.render.rightDelimiter ≠ "") ∧
      (told.1 = 0 → ∃ marks c text, o.delimiters s = .ok marks ∧
        (o.variableSettings s).prepare given = .ok c ∧
          (Strategy.latex marks).render template c = .ok text ∧
            (o.output = none → told.2.1 = text ∧ after = d) ∧
              ∀ path, o.output = some path → d.write path text = .ok after) := by
  rw [← exists_document_iff template]
  cases hd : o.document s template given with
  | error cause =>
    rw [hd] at h
    cases h
    exact ⟨⟨nofun, nofun⟩, nofun⟩
  | ok text =>
    obtain ⟨stdout, written, hsettle, hprinted, hstored⟩ :=
      settle_ok hf fun path hp => hw path hp text
    rw [hd, hsettle] at h
    cases h
    obtain ⟨c, marks, hc, hm, ht⟩ := document_eq_ok_iff.mp hd
    exact ⟨⟨fun _ => ⟨text, rfl⟩, fun _ => rfl⟩,
      fun _ => ⟨marks, c, text, hm, hc, ht, hprinted, hstored⟩⟩

/-- A request to render, as far as it is told, is settled with the document of its parts. -/
theorem request_told (parsers : Parsers) (hf : Directory.Serves files) {r : Request}
    (hj : r.job = .render o) (showsWarnings : Bool) (d : Directory) :
    Prod.map Outcome.told id (r.run parsers files showsWarnings d) =
      o.settle files ((loadSettings parsers (files.frozen d) r.config).bind
        (o.documentOf parsers (files.frozen d))) d := by
  have hload := loadSettings_run (d := d) parsers hf r.config
  simp only [Request.run, bind, StateT.bind, hload, hj]
  cases loadSettings parsers (files.frozen d) r.config with
  | error cause => rfl
  | ok s => exact render_told hf

/-- With any parsers, a request to render ends well exactly if the check passes, where the settings
or the options ask for it, and neither mark is empty. It then gives what one strategy with these
marks makes of the variables as they are prepared. What it tells of anything that is wrong is the
first of the faults, and the type of the document makes no difference. -/
theorem render_refines_core (parsers : Parsers) (hf : Directory.Serves files) {r : Request}
    (hj : r.job = .render o) (showsWarnings : Bool) (d : Directory) :
    ∃ outcome after, r.run parsers files showsWarnings d = (outcome, after) ∧
      (∀ cause, (o.faults (loadSettings parsers (files.frozen d) r.config)
          ((files.frozen d).read o.template)
          (loadVariables parsers (files.frozen d) o.vars)).head? = some cause →
            outcome.code = 1 ∧ outcome.error = some cause) ∧
      ∀ s, loadSettings parsers (files.frozen d) r.config = .ok s →
        (∀ type defaultType, Prod.map Outcome.told id ({ o with type := type }.run parsers files
          { s with render := { s.render with defaultType := defaultType } } r.verbose
            showsWarnings d) = (outcome.told, after)) ∧
        ∀ template given, (files.frozen d).read o.template = .ok template →
          loadVariables parsers (files.frozen d) o.vars = .ok given →
          (∀ path, o.output = some path → ∀ text, ∃ written,
            files.write path text d = (.ok (), written)) →
          let strict := s.vars.strict || o.strict
          let flatten := s.vars.flatten && !o.noFlatten
          let left := o.left.getD s.render.leftDelimiter
          let right := o.right.getD s.render.rightDelimiter
          (outcome.code = 0 ↔
            (strict = true → given.validate = .ok ()) ∧ left ≠ "" ∧ right ≠ "") ∧
          (outcome.code = 0 → ∃ marks c text, Delimiters.ofTexts left right = .ok marks ∧
            VariableSettings.prepare ⟨strict, flatten⟩ given = .ok c ∧
              (Strategy.latex marks).render template c = .ok text ∧
                (o.output = none → outcome.stdout = text ∧ after = d) ∧
                  ∀ path, o.output = some path → d.isDevice path = false →
                    after.read path = .ok text) := by
  have htold := request_told parsers hf hj showsWarnings d
  cases hrun : r.run parsers files showsWarnings d with
  | mk outcome after =>
    rw [hrun] at htold
    refine ⟨outcome, after, rfl, ?_, ?_⟩
    · intro cause hcause
      have hdocument := documentOf_request_fault hcause
      rw [hdocument] at htold
      exact ⟨congrArg (·.1.1) htold, congrArg (·.1.2.2) htold⟩
    · intro s hs
      rw [hs] at htold
      -- Neither the document nor its settlement mentions the type.
      refine ⟨fun type defaultType => (render_told hf).trans htold.symm, ?_⟩
      intro template given ht hg hw
      have hdocument : o.documentOf parsers (files.frozen d) s = o.document s template given := by
        simp only [RenderOptions.documentOf, ht, hg]
      rw [Except.bind, hdocument] at htold
      obtain ⟨hcode, hemitted⟩ := settle_document hf hw htold.symm
      refine ⟨hcode, fun hz => ?_⟩
      obtain ⟨marks, c, text, hm, hc, hrendered, hprinted, hstored⟩ := hemitted hz
      exact ⟨marks, c, text, hm, hc, hrendered, hprinted, fun path hp hdevice =>
        Directory.read_write (hstored path hp) hdevice⟩

theorem exists_ok {ε α : Type} {result : Except ε α} (h : result.toOption.isSome = true) :
    ∃ value, result = .ok value := by
  cases result with
  | ok value => exact ⟨value, rfl⟩
  | error cause => cases h

/-- With marks and a check from the settings, a letter is rendered to a new file. With an empty mark
too, a missing template is still what is reported. -/
theorem render_refines_core_letter :
    let d := ((Directory.empty.withFile "t.tex" "Dear <.name>".toUTF8).withFile
      "v.json" "\x7b\"name\":\"Ann\"\x7d".toUTF8).withFile "texforge.toml"
        "[render]\nleft_delimiter='<'\nright_delimiter='>'\n[variables]\nstrict=true\n".toUTF8
    let o : RenderOptions := ⟨"t.tex", "v.json", none, none, none, some "out.tex", false, false⟩
    let failing : RenderOptions := { o with template := "none.tex", left := some "" }
    Directory.Serves Directory.access ∧
      (∃ outcome after,
        Request.run .standard Directory.access ⟨false, none, .render o⟩ true d =
          (outcome, after) ∧ outcome.code = 0 ∧ ∃ marks c,
          (Strategy.latex marks).render "Dear <.name>" c = .ok "Dear Ann" ∧
            after.read "out.tex" = .ok "Dear Ann") ∧
      ∃ outcome after,
        Request.run .standard Directory.access ⟨false, none, .render failing⟩ true d =
          (outcome, after) ∧ outcome.code = 1 ∧
          outcome.error = some (.template "none.tex" .missing) := by
  intro d o failing
  let files := Directory.access.frozen d
  let r : Request := ⟨false, none, .render o⟩
  let r' : Request := ⟨false, none, .render failing⟩
  have htemplate : d.read "t.tex" = .ok "Dear <.name>" := by decide +kernel
  have hmissing : d.read "none.tex" = .error .missing := by decide +kernel
  have hdevice : d.isDevice "out.tex" = false := by decide +kernel
  have hcode : (Request.run .standard Directory.access r true d).1.code = 0 := by decide +kernel
  have hread : (Request.run .standard Directory.access r true d).2.read "out.tex" =
      .ok "Dear Ann" := by decide +kernel
  obtain ⟨s, hs⟩ : ∃ s, loadSettings .standard files none = .ok s := exists_ok (by decide +kernel)
  obtain ⟨given, hg⟩ : ∃ given, loadVariables .standard files "v.json" = .ok given :=
    exists_ok (by decide +kernel)
  obtain ⟨blank, hblank⟩ : ∃ blank, d.write "out.tex" "" = .ok blank :=
    exists_ok (by decide +kernel)
  have hwritable : ∀ path, o.output = some path → ∀ text, ∃ written,
      Directory.access.write path text d = (.ok (), written) := by
    rintro _ ⟨⟩ text
    obtain ⟨written, hw⟩ := Directory.exists_write hblank text
    exact ⟨written, Directory.access_write hw⟩
  obtain ⟨outcome, after, hrun, _, hrender⟩ :=
    render_refines_core .standard Directory.access_serves (r := r) rfl true d
  obtain ⟨outcome', after', hrun', hfault, _⟩ :=
    render_refines_core .standard Directory.access_serves (r := r') rfl true d
  rw [hrun] at hcode hread
  obtain ⟨_, hemitted⟩ := (hrender s hs).2 "Dear <.name>" given htemplate hg hwritable
  obtain ⟨marks, c, text, _, _, htext, _, hwritten⟩ := hemitted hcode
  cases (hwritten "out.tex" rfl hdevice).symm.trans hread
  refine ⟨Directory.access_serves, ⟨outcome, after, hrun, hcode, marks, c, htext, hread⟩,
    outcome', after', hrun', hfault _ ?_⟩
  rw [show loadSettings .standard (Directory.access.frozen d) r'.config = .ok s from hs,
    show (Directory.access.frozen d).read failing.template = .error .missing from hmissing]
  rfl

end Command
end DocTemplate
