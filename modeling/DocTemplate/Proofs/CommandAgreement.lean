import DocTemplate.Proofs.RenderCommand
import DocTemplate.Proofs.VariableLimits

/-! The vars command as a check on what a rendering starts from. Both commands load the settings and
the variables and check these if the settings are strict, one by itself and the other as it prepares
them, and neither goes on to anything else before that. -/
namespace DocTemplate

/-- The cause of an invalid variable has no cause behind it. -/
theorem VariableError.chain_of_validate {v : Variable} {cause : VariableError}
    (h : v.validate = .error cause) : cause.chain = cause.message := by
  cases Variable.validate_eq_error_iff.mp h <;> rfl

namespace Command

/-- What becomes of a file with variables under some settings, before anything is made of it. -/
inductive Admission (parsers : Parsers) (files : FileAccess Id) (config : Option String)
    (file : String) : Except CommandError Collection → Prop
  | unsettled {cause : CommandError} : loadSettings parsers files config = .error cause →
      Admission parsers files config file (.error cause)
  | unloaded {s : Settings} {cause : CommandError} : loadSettings parsers files config = .ok s →
      loadVariables parsers files file = .error cause →
      Admission parsers files config file (.error cause)
  | invalid {s : Settings} {c : Collection} {cause : VariableError} :
      loadSettings parsers files config = .ok s → loadVariables parsers files file = .ok c →
      s.vars.strict = true → c.validate = .error cause →
      Admission parsers files config file (.error (.invalid file (.variable cause)))
  | admitted {s : Settings} {c : Collection} : loadSettings parsers files config = .ok s →
      loadVariables parsers files file = .ok c → (s.vars.strict = true → c.validate = .ok ()) →
      Admission parsers files config file (.ok c)

section
variable {parsers : Parsers} {files : FileAccess Id} {config : Option String}
  {file path template : String} {failure : Failure} {cause : CommandError} {c : Collection}
  {s : Settings} {o : RenderOptions}

theorem exists_admission (parsers : Parsers) (files : FileAccess Id) (config : Option String)
    (file : String) :
    ∃ result, Admission parsers files config file result := by
  cases hs : loadSettings parsers files config with
  | error cause => exact ⟨_, .unsettled hs⟩
  | ok s =>
    cases hv : loadVariables parsers files file with
    | error cause => exact ⟨_, .unloaded hs hv⟩
    | ok c =>
      by_cases hc : s.vars.strict = true → c.validate = .ok ()
      · exact ⟨_, .admitted hs hv hc⟩
      · obtain ⟨hstrict, hinvalid⟩ := Classical.not_imp.mp hc
        cases hw : c.validate with
        | ok checked => exact (hinvalid hw).elim
        | error wrong => exact ⟨_, .invalid hs hv hstrict hw⟩

theorem loadSettings_ne_invalid :
    loadSettings parsers files config ≠ .error (.invalid path failure) := by
  intro h
  cases config with
  | some name =>
    simp only [loadSettings, bind] at h
    split at h <;> cases h
  | none =>
    simp only [loadSettings, bind] at h
    split at h <;> cases h

theorem loadVariables_ne_invalid :
    loadVariables parsers files file ≠ .error (.invalid path failure) := by
  intro h
  simp only [loadVariables, bind] at h
  cases hr : files.read file with
  | error unread =>
    rw [hr] at h
    cases h
  | ok text =>
    rw [hr] at h
    unfold variablesOf at h
    simp only [pure] at h
    -- what is wrong with the text has causes of its own
    repeat' split at h
    all_goals cases h

/-- An invalid variable is only told of by the check, which finds the first. -/
theorem Admission.first_invalid
    (h : Admission parsers files config file (.error (.invalid path failure))) :
    path = file ∧ ∃ c name wrong,
      loadVariables parsers files file = .ok c ∧ c.FirstInvalid name wrong ∧
      failure = .variable (.invalidEntry name wrong) := by
  cases h with
  | unsettled hs => exact (loadSettings_ne_invalid hs).elim
  | unloaded _ hv => exact (loadVariables_ne_invalid hv).elim
  | invalid _ hv _ hinvalid =>
    obtain ⟨name, wrong, rfl, hfirst⟩ := Collection.validate_eq_error_iff.mp hinvalid
    exact ⟨rfl, _, name, wrong, hv, hfirst, rfl⟩

/-- The error text holds the entry and, behind it, the cause of the entry a second time. -/
theorem message_of_first_invalid {name : String} {wrong : VariableError}
    (h : c.FirstInvalid name wrong) :
    (CommandError.invalid file (.variable (.invalidEntry name wrong))).message =
      s!"Invalid variables in {file}: INVALID_VARIABLE: '{name}': {wrong.message}: " ++
        wrong.message := by
  obtain ⟨⟨v, _, hw⟩, _⟩ := h
  have hchain := VariableError.chain_of_validate hw
  have hentry : (VariableError.invalidEntry name wrong).message =
      s!"INVALID_VARIABLE: '{name}': {wrong.message}" := rfl
  have hbegin (rest : String) :
      ": " ++ ("INVALID_VARIABLE: '" ++ rest) = ": INVALID_VARIABLE: '" ++ rest := by
    rw [← String.append_assoc]
    rfl
  calc (CommandError.invalid file (.variable (.invalidEntry name wrong))).message
      = s!"Invalid variables in {file}: {(VariableError.invalidEntry name wrong).chain}" := rfl
    _ = s!"Invalid variables in {file}: {(VariableError.invalidEntry name wrong).message}: " ++
          wrong.message := by
        rw [VariableError.chain, hchain]
        simp only [toString, String.append_assoc]
    _ = _ := by
        rw [hentry]
        simp only [toString, String.append_assoc, hbegin]

/-- Without a check of its own a rendering has the settings for variables of the file. -/
theorem strict_variableSettings (ho : o.strict = false) :
    (o.variableSettings s).strict = s.vars.strict := by
  rw [RenderOptions.variableSettings, ho, Bool.or_false]

theorem documentOf_eq (ht : files.read o.template = .ok template)
    (hs : loadSettings parsers files config = .ok s)
    (hv : loadVariables parsers files o.vars = .ok c) :
    (loadSettings parsers files config).bind (o.documentOf parsers files) =
      o.document s template c := by
  simp only [hs, Except.bind, RenderOptions.documentOf, ht, hv]

/-- A rendering of a template that can be read fails as the file with variables does. -/
theorem Admission.documentOf_error (ht : files.read o.template = .ok template)
    (ho : o.strict = false) (h : Admission parsers files config o.vars (.error cause)) :
    (loadSettings parsers files config).bind (o.documentOf parsers files) = .error cause := by
  cases h with
  | unsettled hs =>
    rw [hs]
    rfl
  | unloaded hs hv => simp only [hs, Except.bind, RenderOptions.documentOf, ht, hv]
  | invalid hs hv hstrict hinvalid =>
    rw [documentOf_eq ht hs hv, RenderOptions.document,
      VariableSettings.prepare_error ((strict_variableSettings ho).trans hstrict) hinvalid]

/-- Of variables that are let through, only the marks can keep a rendering from its document. -/
theorem Admission.documentOf_ok (ht : files.read o.template = .ok template)
    (ho : o.strict = false) (h : Admission parsers files config o.vars (.ok c)) :
    (∃ text, (loadSettings parsers files config).bind (o.documentOf parsers files) = .ok text) ∨
      ∃ wrong, (loadSettings parsers files config).bind (o.documentOf parsers files) =
        .error (.delimiters wrong) := by
  cases h with
  | @admitted s c hs hv hc =>
    rw [← strict_variableSettings ho] at hc
    rw [documentOf_eq ht hs hv, RenderOptions.document, VariableSettings.prepare_ok hc]
    cases o.delimiters s with
    | error wrong => exact Or.inr ⟨wrong, rfl⟩
    | ok marks => exact Or.inl ⟨_, rfl⟩

end

variable {parsers : Parsers} {files : FileAccess (StateM Directory)} {d : Directory} {r : Request}
  {o : RenderOptions} {s : Settings} {c : Collection} {file template : String} {json : Bool}
  {result : Except CommandError Collection} {cause : CommandError}

theorem listing_of_checked (file : String) (json : Bool)
    (hc : s.vars.strict = true → c.validate = .ok ()) :
    ∃ shown, listing s file none json c = .ok shown := by
  rw [listing]
  cases hs : s.vars.strict with
  | false => cases json <;> exact ⟨_, rfl⟩
  | true =>
    simp only [hc hs]
    cases json <;> exact ⟨_, rfl⟩

theorem listing_invalid {wrong : VariableError} (hs : s.vars.strict = true)
    (h : c.validate = .error wrong) :
    listing s file none json c = .error (.invalid file (.variable wrong)) := by
  simp only [listing, hs, h]
  rfl

/-- The vars command ends as the file is taken. -/
theorem vars_run (hf : Directory.Serves files) (hj : r.job = .vars file none json)
    (h : Admission parsers (files.frozen d) r.config file result) (showsWarnings : Bool) :
    ∃ shown, r.run parsers files showsWarnings d = (.ofExcept (result.map fun _ => shown), d) := by
  have hload := loadSettings_run (d := d) parsers hf r.config
  have hvars := loadVariables_run (d := d) parsers hf file
  simp only [Request.run, bind, StateT.bind, hload, hj]
  cases h with
  | unsettled hs =>
    simp only [hs]
    exact ⟨"", rfl⟩
  | unloaded hs hv =>
    simp only [hs, runVars, bind, StateT.bind, hvars, hv]
    exact ⟨"", rfl⟩
  | invalid hs hv hstrict hinvalid =>
    simp only [hs, runVars, bind, StateT.bind, hvars, hv, listing_invalid hstrict hinvalid]
    exact ⟨"", rfl⟩
  | admitted hs hv hc =>
    obtain ⟨shown, hlisting⟩ := listing_of_checked file json hc
    simp only [hs, runVars, bind, StateT.bind, hvars, hv, hlisting]
    exact ⟨shown, rfl⟩

/-- A request to render that has no document ends with that, and with nothing else told. -/
theorem request_error (hf : Directory.Serves files) (hj : r.job = .render o)
    (h : (loadSettings parsers (files.frozen d) r.config).bind
      (o.documentOf parsers (files.frozen d)) = .error cause) (showsWarnings : Bool) :
    r.run parsers files showsWarnings d = (.failure cause, d) := by
  have hload := loadSettings_run (d := d) parsers hf r.config
  simp only [Request.run, bind, StateT.bind, hload, hj]
  cases hs : loadSettings parsers (files.frozen d) r.config with
  | error unread =>
    rw [hs] at h
    cases h
    rfl
  | ok s =>
    rw [hs, Except.bind, ← pageOf_text r.verbose] at h
    simp only [render_run hf]
    cases hp : o.pageOf parsers (files.frozen d) s r.verbose with
    | error unpaged =>
      rw [hp] at h
      cases h
      rfl
    | ok page =>
      rw [hp] at h
      cases h

/-- With its document, a request to render can only fail to write it. -/
theorem request_ok (hf : Directory.Serves files) (hj : r.job = .render o) {text : String}
    (h : (loadSettings parsers (files.frozen d) r.config).bind
      (o.documentOf parsers (files.frozen d)) = .ok text) (showsWarnings : Bool) :
    (r.run parsers files showsWarnings d).1.code = 0 ∨ ∃ path cause,
      (r.run parsers files showsWarnings d).1.error = some (.output path cause) := by
  have htold := request_told parsers hf hj showsWarnings d
  rw [h, RenderOptions.settle] at htold
  cases ho : o.output with
  | none =>
    rw [ho] at htold
    exact Or.inl (congrArg (·.1.1) htold)
  | some path =>
    simp only [ho] at htold
    cases hw : files.write path text d with
    | mk written after =>
      rw [hw] at htold
      cases written with
      | ok _ => exact Or.inl (congrArg (·.1.1) htold)
      | error cause => exact Or.inr ⟨path, cause, congrArg (·.1.2.2) htold⟩

/-- A request to render without a check of its own, with a template that can be read, fails as the
file with variables does. -/
theorem render_of_not_admitted (hf : Directory.Serves files) (hj : r.job = .render o)
    (ho : o.strict = false) (ht : (files.frozen d).read o.template = .ok template)
    (h : Admission parsers (files.frozen d) r.config o.vars (.error cause)) (showsWarnings : Bool) :
    r.run parsers files showsWarnings d = (.failure cause, d) :=
  request_error hf hj (h.documentOf_error ht ho) showsWarnings

/-- If the file is let through, such a request can only fail at the marks or at the write. -/
theorem render_of_admitted (hf : Directory.Serves files) (hj : r.job = .render o)
    (ho : o.strict = false) (ht : (files.frozen d).read o.template = .ok template)
    (h : Admission parsers (files.frozen d) r.config o.vars (.ok c)) (showsWarnings : Bool) :
    (r.run parsers files showsWarnings d).1.code = 0 ∨
      (∃ wrong, (r.run parsers files showsWarnings d).1.error = some (.delimiters wrong)) ∨
        ∃ path wrong,
          (r.run parsers files showsWarnings d).1.error = some (.output path wrong) := by
  rcases h.documentOf_ok ht ho with ⟨text, htext⟩ | ⟨wrong, hwrong⟩
  · exact (request_ok hf hj htext showsWarnings).imp id Or.inr
  · rw [request_error hf hj hwrong]
    exact Or.inr (Or.inl ⟨wrong, rfl⟩)

variable {arguments arguments' : List String} {environment : Environment} {r' : Request}

theorem run_of_request {filter : Log.Filter}
    (hr : Request.ofArguments arguments environment.config = .ok r)
    (hl : Log.Filter.given? environment.log = some filter) :
    run parsers files arguments environment d =
      Prod.map .ended id (r.run parsers files filter.showsWarnings d) := by
  simp only [run, hr, hl]
  rfl

/-- A vars command that fails tells of what is first wrong with the settings, the file or its
variables, and so does any rendering, without a check of its own, of a template that can be read
with the variables of that file under the same settings. One that succeeds leaves such a rendering
only the marks and the write to fail at. An error of the check is that of the invalid variable whose
name has the least bytes. -/
theorem vars_agrees_with_render (parsers : Parsers) (hf : Directory.Serves files)
    (hr : Request.ofArguments arguments environment.config = .ok r)
    (hj : r.job = .vars file none json)
    (hr' : Request.ofArguments arguments' environment.config = .ok r')
    (hj' : r'.job = .render o) (hfile : o.vars = file) (ho : o.strict = false)
    (hconfig : r'.config = r.config)
    (ht : (files.frozen d).read o.template = .ok template) :
    ∃ outcome outcome' after, run parsers files arguments environment d = (.ended outcome, d) ∧
      run parsers files arguments' environment d = (.ended outcome', after) ∧
      (outcome.code = 1 → outcome' = outcome ∧ after = d ∧ ∃ cause, outcome.error = some cause ∧
        Admission parsers (files.frozen d) r.config file (.error cause)) ∧
      (outcome.code = 0 → (∃ c, Admission parsers (files.frozen d) r.config file (.ok c)) ∧
        (outcome'.code = 0 ∨ (∃ wrong, outcome'.error = some (.delimiters wrong)) ∨
          ∃ path wrong, outcome'.error = some (.output path wrong))) ∧
      ∀ path failure, outcome.error = some (.invalid path failure) →
        ∃ c name wrong,
          loadVariables parsers (files.frozen d) file = .ok c ∧ c.FirstInvalid name wrong ∧
          (CommandError.invalid path failure).message =
            s!"Invalid variables in {file}: INVALID_VARIABLE: '{name}': {wrong.message}: " ++
              wrong.message := by
  subst hfile
  cases hl : Log.Filter.given? environment.log with
  | none =>
    simp only [run, hr, hr', hl]
    refine ⟨.aborted, .aborted, d, rfl, rfl, ?_, ?_, ?_⟩
    · rintro ⟨⟩
    · rintro ⟨⟩
    · rintro path failure ⟨⟩
  | some filter =>
    obtain ⟨result, ha⟩ := exists_admission parsers (files.frozen d) r.config o.vars
    obtain ⟨shown, hrun⟩ := vars_run hf hj ha filter.showsWarnings
    rw [run_of_request hr hl, run_of_request hr' hl, hrun]
    cases result with
    | error cause =>
      rw [render_of_not_admitted hf hj' ho ht (hconfig ▸ ha)]
      refine ⟨.failure cause, .failure cause, d, rfl, rfl,
        fun _ => ⟨rfl, rfl, cause, rfl, ha⟩, ?_, ?_⟩
      · rintro ⟨⟩
      · rintro path failure ⟨⟩
        obtain ⟨rfl, c, name, wrong, hv, hfirst, rfl⟩ := ha.first_invalid
        exact ⟨c, name, wrong, hv, hfirst, message_of_first_invalid hfirst⟩
    | ok c =>
      have hrender := render_of_admitted hf hj' ho ht (hconfig ▸ ha) filter.showsWarnings
      cases hrun' : r'.run parsers files filter.showsWarnings d with
      | mk outcome' after =>
        rw [hrun'] at hrender
        refine ⟨.success shown, outcome', after, rfl, rfl, ?_, fun _ => ⟨⟨c, ha⟩, hrender⟩, ?_⟩
        · rintro ⟨⟩
        · rintro path failure ⟨⟩

/-- Of two invalid variables both commands name the same, though it comes last in the file. -/
theorem vars_agrees_with_render_two_invalid :
    let d := ((Directory.empty.withFile "t.tex" "Dear \x7b\x7b.a\x7d\x7d".toUTF8).withFile
      "v.json" "\x7b\"b\":\" \",\"a\":-3\x7d".toUTF8).withFile "strict.toml"
        "[variables]\nstrict=true\n".toUTF8
    let o : RenderOptions := ⟨"t.tex", "v.json", none, none, none, none, false, true⟩
    let strict : Environment := ⟨some "strict.toml", none⟩
    let arguments := ["vars", "v.json"]
    let arguments' := ["render", "t.tex", "--vars", "v.json", "--no-flatten"]
    Directory.Serves Directory.access ∧
      Request.ofArguments arguments strict.config =
        .ok ⟨false, strict.config, .vars "v.json" none false⟩ ∧
      Request.ofArguments arguments' strict.config = .ok ⟨false, strict.config, .render o⟩ ∧
      (Directory.access.frozen d).read "t.tex" = .ok "Dear \x7b\x7b.a\x7d\x7d" ∧
      ∃ outcome, run .standard Directory.access arguments strict d = (.ended outcome, d) ∧
        run .standard Directory.access arguments' strict d = (.ended outcome, d) ∧
          outcome.code = 1 ∧ outcome.messages =
            ["Error: Invalid variables in v.json: INVALID_VARIABLE: 'a': " ++
              "NEGATIVE_NUMBER: -3 is negative: NEGATIVE_NUMBER: -3 is negative"] := by
  intro d o strict arguments arguments'
  let told : Ending → Nat × List String := fun
    | .ended outcome => (outcome.code, outcome.messages)
    | .stopped _ => (2, [])
  have hf := Directory.access_serves
  have hr : Request.ofArguments arguments strict.config =
      .ok ⟨false, strict.config, .vars "v.json" none false⟩ := rfl
  have hr' : Request.ofArguments arguments' strict.config =
      .ok ⟨false, strict.config, .render o⟩ := rfl
  have ht : d.read "t.tex" = .ok "Dear \x7b\x7b.a\x7d\x7d" := by decide +kernel
  have htold : told (run .standard Directory.access arguments strict d).1 =
      (1, ["Error: Invalid variables in v.json: INVALID_VARIABLE: 'a': " ++
        "NEGATIVE_NUMBER: -3 is negative: NEGATIVE_NUMBER: -3 is negative"]) := by
    decide +kernel
  obtain ⟨outcome, outcome', after, hrun, hrun', hsame, _, _⟩ :=
    vars_agrees_with_render .standard hf hr rfl hr' rfl rfl rfl rfl ht
  rw [hrun] at htold
  obtain ⟨hcode, hmessages⟩ := Prod.mk.inj htold
  obtain ⟨rfl, rfl, _⟩ := hsame hcode
  exact ⟨hf, hr, hr', ht, outcome', hrun, hrun', hcode, hmessages⟩

end Command
end DocTemplate
