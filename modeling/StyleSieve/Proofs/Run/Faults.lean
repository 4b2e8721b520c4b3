import StyleSieve.Proofs.Run.Output
import StyleSieve.Proofs.Run.Schedule
import StyleSieve.Proofs.Usage.Concat

/-!
# When faults are found

A run looks for everything that can be wrong with its options and its files before it opens the
output; whatever it finds then leaves the file tree alone and says nothing on the standard output.
A stylesheet is walked through twice, once for what it uses and once to be purged. Both walks read
the same events, so a stylesheet that the first walk lets pass has no fault of the grammar left for
the second one (`faults_of_run`).

Selectors are not all looked at in the first walk: a purge may still end at one that cannot be
read. Nor does the grammar hold any more for a stylesheet that the output is written over.
-/

namespace StyleSieve.Purge

open Css Usage

/-! ## Faults of the grammar in a purge -/

/-- No event is taken for a fault of the grammar. -/
theorem step_ne_malformed (j : Judge) (source : String) (s : State) (e : Event)
    (fault : SyntaxError) : s.step j source e ≠ .error (.malformed fault) := by
  have hselector : s.selector j e ≠ .error (.malformed fault) := by
    unfold State.selector
    split
    · simp
    · split <;> simp
  have hstart : s.rulesetStart j e ≠ .error (.malformed fault) := by
    unfold State.rulesetStart
    split
    · next cause hcause =>
      rw [hcause] at hselector
      simpa using hselector
    · split <;> simp
  unfold State.step State.kept
  cases s.mode with
  | keeping =>
    dsimp only
    cases e.kind
    case selector => exact hselector
    case rulesetStart => exact hstart
    all_goals simp
  | skipping depth => simp
  | keyframes keep start depth => simp

theorem planFrom_ne_malformed (j : Judge) (source : String) (s : State) (es : List Event)
    (fault : SyntaxError) : (planFrom j source s es).ending ≠ .error (.malformed fault) := by
  induction es generalizing s with
  | nil => simp [planFrom]
  | cons e es ih =>
    rw [planFrom]
    split
    · next cause hcause =>
      have hstep := step_ne_malformed j source s e fault
      rw [hcause] at hstep
      simpa using hstep
    · exact ih _

/-- A purge that ends at a fault of the grammar ends at the fault of the events. -/
theorem events_error_of_purge {j : Judge} {source : String} {sink : Sink} {fault : SyntaxError}
    (h : (purge j source sink).result = .error (.sheet (.malformed fault))) :
    (events source).error = some fault := by
  have hplan : (planOf j source).ending = .error (.malformed fault) := by
    unfold purge at h
    dsimp only at h
    split at h
    · simp at h
    · dsimp only at h
      split at h
      · next cause hcause => rw [hcause, PurgeError.sheet.inj (Except.error.inj h)]
      · split at h <;> simp at h
  unfold planOf at hplan
  dsimp only at hplan
  split at hplan
  · next cause _ hcause =>
    rw [hcause, SheetError.malformed.inj (Except.error.inj hplan)]
  · exact absurd hplan (planFrom_ne_malformed _ _ _ _ _)

end StyleSieve.Purge

namespace StyleSieve.Run

open Files Usage Purge Css Report

/-! ## What is looked for before the output is opened -/

/-- The error is one of those that a run looks for before it opens its output. -/
def RunError.isEarly : RunError → Bool
  | config _ | noInputs | format _ | overrides _ | discovery _ | extraction _ => true
  | uncreated _ | unread _ | unpurged _ _ | unreported _ => false

/-- Something is wrong with the options or with a file. -/
inductive Unfit (t : FileTree) (o : Options) (c : Config) : Prop
  | inputs (missing : c.hasInputs = false)
  | format {e : FormatError} (unknown : formatFor o c = .error e)
  | overrides {e : OverrideError}
      (invalid : Overrides.compile c.keep c.keepClasses c.keepIds = .error e)
  | globs {e : DiscoveryError} (invalid : findFiles t c = .error e)
  | file {files : FileSet} {f : SourceFile} {fault : FileFault} (found : findFiles t c = .ok files)
      (mem : f ∈ files.all) (fails : contribution t f = .error fault)

section

variable {t : FileTree} {o : Options} {c : Config}

/-- A corpus is missing exactly if some file cannot be used. -/
theorem corpusOf_error_iff {files : List SourceFile} :
    (∃ failures, corpusOf t files = .error failures) ↔
      ∃ f ∈ files, ∃ fault, contribution t f = .error fault := by
  obtain ⟨p, hp, hgathered⟩ := exists_completes t (.refl files)
  have hresult : p.result = corpusOf t files := by
    rw [corpusOf, ← hgathered]
    rfl
  rw [← hresult]
  exact hp.result_error_iff

theorem early_of_prepare {e : RunError} (h : prepare t o c = .error e) : e.isEarly := by
  unfold prepare at h
  repeat' split at h
  all_goals cases h
  all_goals rfl

theorem unfit_of_prepare {e : RunError} (h : prepare t o c = .error e) : Unfit t o c := by
  unfold prepare at h
  split at h
  · next hinputs => exact .inputs (by simpa using hinputs)
  · split at h
    · next hformat => exact .format hformat
    · split at h
      · next hoverrides => exact .overrides hoverrides
      · split at h
        · next hfiles => exact .globs hfiles
        · next files hfiles =>
          split at h
          · next failures hcorpus =>
            obtain ⟨f, hf, fault, hfault⟩ := corpusOf_error_iff.1 ⟨failures, hcorpus⟩
            exact .file hfiles hf hfault
          · simp at h

theorem not_unfit_of_prepare {p : Prepared} (h : prepare t o c = .ok p) : ¬ Unfit t o c := by
  unfold prepare at h
  repeat' split at h
  all_goals try cases h
  next hinputs _ _ hformat _ _ hoverrides _ files hfiles _ corpus hcorpus =>
  rintro (hmissing | hunknown | hinvalid | hinvalid | ⟨hfound, hf, hfault⟩)
  · simp [hmissing] at hinputs
  · simp [hformat] at hunknown
  · simp [hoverrides] at hinvalid
  · simp [hfiles] at hinvalid
  · obtain rfl := Except.ok.inj (hfiles.symm.trans hfound)
    obtain ⟨failures, hfailures⟩ := corpusOf_error_iff.2 ⟨_, hf, _, hfault⟩
    simp [hcorpus] at hfailures

end

/-! ## What may go wrong afterwards -/

/-- Why the purge of some stylesheets ends before all of them are purged: one that cannot be read
by then, or one whose purge fails. -/
inductive Stops (t : FileTree) (j : Judge) (out : Option String) (fs : List SourceFile) :
    RunError → Prop
  | unread {f : SourceFile} {written : String} (mem : f ∈ fs)
      (gone : seen t out written f.path = none) : Stops t j out fs (.unread f.path)
  | unpurged {f : SourceFile} {written source : String} {sink : Sink} {fault : PurgeError}
      (mem : f ∈ fs) (read : seen t out written f.path = some source)
      (fails : (purge j source sink).result = .error fault) :
      Stops t j out fs (.unpurged f.path fault)

theorem Stops.tail {t : FileTree} {j : Judge} {out : Option String} {f : SourceFile}
    {fs : List SourceFile} {e : RunError} (h : Stops t j out fs e) : Stops t j out (f :: fs) e := by
  cases h with
  | unread mem gone => exact .unread (List.mem_cons_of_mem f mem) gone
  | unpurged mem read fails => exact .unpurged (List.mem_cons_of_mem f mem) read fails

theorem late_of_stops {t : FileTree} {j : Judge} {out : Option String} {fs : List SourceFile}
    {e : RunError} (h : Stops t j out fs e) : e.isEarly = false := by
  cases h <;> rfl

namespace Writing

variable {t : FileTree} {w : Writing}

theorem purgeFile_error {j : Judge} {f : SourceFile} {fs : List SourceFile} {w' : Writing}
    {e : RunError} (hover : w.Over t) (h : w.purgeFile j f = (w', .error e)) :
    Stops t j w.path (f :: fs) e := by
  unfold purgeFile at h
  rw [hover.read] at h
  split at h
  · next hgone =>
    obtain rfl := Except.error.inj (congrArg Prod.snd h)
    exact .unread List.mem_cons_self hgone
  · next source hsource =>
    dsimp only at h
    split at h
    · next fault hfault =>
      obtain rfl := Except.error.inj (congrArg Prod.snd h)
      exact .unpurged List.mem_cons_self hsource hfault
    · simp at h

theorem purgeAll_error {j : Judge} {fs : List SourceFile} {w' : Writing} {e : RunError}
    (hover : w.Over t) (h : w.purgeAll j fs = (w', .error e)) : Stops t j w.path fs e := by
  induction fs generalizing w w' with
  | nil => simp [purgeAll] at h
  | cons f fs ih =>
    rw [purgeAll] at h
    split at h
    · next w₁ fault hfile =>
      obtain rfl := Except.error.inj (congrArg Prod.snd h)
      exact purgeFile_error hover hfile
    · next w₁ report hfile =>
      obtain ⟨source, counts, -, -, rfl⟩ := purgeFile_ok hover hfile
      dsimp only at h
      cases hrest : (w.setText (w.text ++ purgedText j source)).purgeAll j fs with
      | mk w₂ result =>
        rw [hrest] at h
        cases result with
        | ok reports => simp [Functor.map, Except.map] at h
        | error fault =>
          obtain rfl := Except.error.inj (congrArg Prod.snd h)
          have hstops := ih (hover.setText _) hrest
          rw [setText_path] at hstops
          exact hstops.tail

end Writing

theorem unreported_of_finish {o : Options} {c : Config} {p : Prepared} {w : Writing}
    {reports : List FileReport} {e : RunError} (h : (finish o c p w reports).error = some e) :
    ∃ path, c.report.path = some path ∧ e = .unreported path := by
  unfold finish at h
  dsimp only at h
  split at h
  · simp at h
  · split at h
    · simp at h
    · next path hfile =>
      split at h
      · exact ⟨path, file_report hfile, (Option.some.inj h).symm⟩
      · simp at h

/-! ## Runs that fail -/

/-- How far a run comes that fails. -/
inductive Fails (t : FileTree) (o : Options) : RunError → Prop
  | unconfigured {e : Config.LoadError} (config : configFor t o = .error e)
      (untouched : run t o = .failed t (.config e)) : Fails t o (.config e)
  | unprepared {c : Config} {e : RunError} (config : configFor t o = .ok c)
      (fault : prepare t o c = .error e) (untouched : run t o = .failed t e) : Fails t o e
  | unopened {c : Config} {p : Prepared} (config : configFor t o = .ok c)
      (prepared : prepare t o c = .ok p) (closed : Writing.start t c.output = none) :
      Fails t o (.uncreated (c.output.getD ""))
  | unpurged {c : Config} {p : Prepared} {e : RunError} (config : configFor t o = .ok c)
      (prepared : prepare t o c = .ok p) (stops : Stops t p.judge c.output p.sheets e) : Fails t o e
  | unreported {c : Config} {p : Prepared} {path : String} (config : configFor t o = .ok c)
      (prepared : prepare t o c = .ok p) (report : c.report.path = some path) :
      Fails t o (.unreported path)

theorem fails_of_run {t : FileTree} {o : Options} {e : RunError} (h : (run t o).error = some e) :
    Fails t o e := by
  have hrun : ∀ u, run t o = u → u.error = some e := fun u hu => hu ▸ h
  cases hconfig : configFor t o with
  | error fault =>
    have hfailed : run t o = .failed t (.config fault) := by simp [run, hconfig]
    obtain rfl : .config fault = e := Option.some.inj (hrun _ hfailed)
    exact .unconfigured hconfig hfailed
  | ok c =>
    have hconfigured : run t o = runConfig t o c := by simp [run, hconfig]
    cases hprepare : prepare t o c with
    | error fault =>
      have hfailed : run t o = .failed t fault := by simp [hconfigured, runConfig, hprepare]
      obtain rfl : fault = e := Option.some.inj (hrun _ hfailed)
      exact .unprepared hconfig hprepare hfailed
    | ok p =>
      rw [hconfigured, runConfig, hprepare] at h
      dsimp only at h
      split at h
      · next hclosed =>
        obtain rfl := Option.some.inj h
        exact .unopened hconfig hprepare hclosed
      · next w hstart =>
        obtain ⟨hover, hpath, -⟩ := Writing.over_of_start hstart
        split at h
        · next w' fault hpurges =>
          obtain rfl := Option.some.inj h
          exact .unpurged hconfig hprepare (hpath ▸ Writing.purgeAll_error hover hpurges)
        · obtain ⟨path, hreport, rfl⟩ := unreported_of_finish h
          exact .unreported hconfig hprepare hreport

/-! ## Stylesheets -/

theorem kind_of_findFiles {t : FileTree} {c : Config} {files : FileSet} {f : SourceFile}
    (h : findFiles t c = .ok files) (hf : f ∈ files.css) : f.kind = .css := by
  have hkind : ∀ {excluded kind globs fs},
      (Finder.ofTree t).findKind excluded kind globs = .ok fs → ∀ f ∈ fs, f.kind = kind := by
    intro excluded kind globs fs hfs f hf
    unfold Finder.findKind at hfs
    cases hpaths : (Finder.ofTree t).expandAll globs with
    | error e => simp [hpaths, Functor.map, Except.map] at hfs
    | ok paths =>
      simp only [hpaths, Functor.map, Except.map, Except.ok.injEq] at hfs
      obtain ⟨path, -, rfl⟩ := List.mem_map.1 (hfs ▸ hf)
      rfl
  unfold findFiles Finder.findFiles at h
  repeat' split at h
  all_goals try cases h
  next excluded _ _ html hhtml _ css hcss =>
  cases hwords : (Finder.ofTree t).findKind excluded .words c.words with
  | error e => simp [hwords, Functor.map, Except.map] at h
  | ok words =>
    simp only [hwords, Functor.map, Except.map, Except.ok.injEq] at h
    exact hkind hcss f (by rwa [← h] at hf)

/-- A stylesheet that tells what it uses can be read and has no fault of the grammar. -/
theorem sheet_of_contribution {t : FileTree} {f : SourceFile} {d : Corpus} (hkind : f.kind = .css)
    (h : contribution t f = .ok d) :
    ∃ source, t.read? f.path = some source ∧ (events source).error = none := by
  unfold contribution at h
  rw [hkind] at h
  split at h
  · simp at h
  · next source hsource =>
    refine ⟨source, hsource, ?_⟩
    unfold usageOf at h
    dsimp only at h
    split at h
    · simp at h
    · next references hreferences => exact (ofSheet_ok_iff.1 hreferences).1

theorem sheets_of_corpus {t : FileTree} {c : Config} {files : FileSet} {corpus : Corpus}
    (hfiles : findFiles t c = .ok files) (hcorpus : corpusOf t files.all = .ok corpus) :
    ∀ f ∈ files.css, ∃ source, t.read? f.path = some source ∧ (events source).error = none := by
  intro f hf
  have hall : f ∈ files.all := by simp [FileSet.all, hf]
  cases hused : contribution t f with
  | ok d => exact sheet_of_contribution (kind_of_findFiles hfiles hf) hused
  | error fault =>
    obtain ⟨failures, hfailures⟩ := corpusOf_error_iff.2 ⟨f, hall, fault, hused⟩
    simp [hcorpus] at hfailures

theorem sheets_of_prepare {t : FileTree} {o : Options} {c : Config} {p : Prepared}
    (hconfig : configFor t o = .ok c) (h : prepare t o c = .ok p) :
    ∀ f ∈ p.sheets, ∃ source, t.read? f.path = some source ∧ (events source).error = none := by
  obtain ⟨_, files, corpus, -, hfiles, hcorpus, -, hsheets⟩ := (finds_of_prepare hconfig h).inputs
  rw [hsheets]
  exact sheets_of_corpus hfiles hcorpus

/-! ## Runs -/

/-- An early error is one of the configuration or of the preparation, and nothing comes after it. -/
theorem fault_of_early {t : FileTree} {o : Options} {e : RunError}
    (h : (run t o).error = some e) (hearly : e.isEarly) : run t o = .failed t e ∧
      ∀ c, configFor t o = .ok c → prepare t o c = .error e := by
  cases fails_of_run h with
  | unconfigured config untouched => exact ⟨untouched, by simp [config]⟩
  | unprepared config fault untouched =>
    refine ⟨untouched, fun c hc => ?_⟩
    obtain rfl := Except.ok.inj (config.symm.trans hc)
    exact fault
  | unopened => simp [RunError.isEarly] at hearly
  | unpurged _ _ stops => simp [late_of_stops stops] at hearly
  | unreported => simp [RunError.isEarly] at hearly

/-- Whatever is wrong with options or files is found early. -/
theorem exists_early_iff {t : FileTree} {o : Options} {c : Config}
    (hconfig : configFor t o = .ok c) :
    (∃ e, e.isEarly ∧ (run t o).error = some e) ↔ Unfit t o c := by
  constructor
  · rintro ⟨e, hearly, herror⟩
    exact unfit_of_prepare ((fault_of_early herror hearly).2 c hconfig)
  · intro hunfit
    cases hprepare : prepare t o c with
    | error e =>
      refine ⟨e, early_of_prepare hprepare, ?_⟩
      simp [run, hconfig, runConfig, hprepare, Outcome.failed]
    | ok p => exact absurd hunfit (not_unfit_of_prepare hprepare)

/-- Every stylesheet can be read when it is purged: it could be before, or the output is there. -/
theorem error_ne_unread (t : FileTree) (o : Options) (path : String) :
    (run t o).error ≠ some (.unread path) := by
  intro h
  cases fails_of_run h with
  | unprepared _ fault => simpa [RunError.isEarly] using early_of_prepare fault
  | unpurged config prepared stops =>
    cases stops with
    | unread mem gone =>
      obtain ⟨source, hsource, -⟩ := sheets_of_prepare config prepared _ mem
      unfold seen at gone
      split at gone
      · simp at gone
      · simp [hsource] at gone

/-- A purge of a run finds no fault of the grammar, unless the output is written over its
stylesheet. -/
theorem error_ne_malformed {t : FileTree} {o : Options} {c : Config} {path : String}
    (hconfig : configFor t o = .ok c) (hapart : leadsToOutput t c.output path = false)
    (fault : SyntaxError) :
    (run t o).error ≠ some (.unpurged path (.sheet (.malformed fault))) := by
  intro h
  cases fails_of_run h with
  | unprepared _ early => simpa [RunError.isEarly] using early_of_prepare early
  | unpurged config prepared stops =>
    obtain rfl := Except.ok.inj (hconfig.symm.trans config)
    cases stops with
    | unpurged mem read fails =>
      obtain ⟨source, hsource, hfine⟩ := sheets_of_prepare config prepared _ mem
      rw [seen_of_apart hapart] at read
      obtain rfl := Option.some.inj (hsource.symm.trans read)
      simp [events_error_of_purge fails] at hfine

/-- A run that fails before it opens its output leaves the file tree alone and says nothing on the
standard output; it fails so exactly if something is wrong with its options or its files. Otherwise
a purge of what a stylesheet held when the run began never meets a fault of the grammar, and that is
what the run purges, unless the output is written over the stylesheet. -/
theorem faults_of_run (t : FileTree) (o : Options) :
    (∀ e, (run t o).error = some e → e.isEarly → (run t o).tree = t ∧ (run t o).stdout = "") ∧
      (∀ path, (run t o).error ≠ some (.unread path)) ∧
      ∀ c, configFor t o = .ok c →
        ((∃ e, e.isEarly ∧ (run t o).error = some e) ↔ Unfit t o c) ∧
        ∀ files corpus, findFiles t c = .ok files → corpusOf t files.all = .ok corpus →
          ∀ f ∈ files.css,
            (∃ source, t.read? f.path = some source ∧ ∀ j sink fault,
              (purge j source sink).result ≠ .error (.sheet (.malformed fault))) ∧
            (leadsToOutput t c.output f.path = false → ∀ fault,
              (run t o).error ≠ some (.unpurged f.path (.sheet (.malformed fault)))) := by
  refine ⟨?_, error_ne_unread t o, fun c hconfig => ⟨exists_early_iff hconfig, ?_⟩⟩
  · intro e herror hearly
    rw [(fault_of_early herror hearly).1]
    exact ⟨rfl, rfl⟩
  · intro files corpus hfiles hcorpus f hf
    obtain ⟨source, hsource, hfine⟩ := sheets_of_corpus hfiles hcorpus f hf
    refine ⟨⟨source, hsource, fun j sink fault hfault => ?_⟩, error_ne_malformed hconfig⟩
    simp [events_error_of_purge hfault] at hfine

/-- A stylesheet with a bracket too many, and an output that is there already. -/
theorem faults_of_run_stray_bracket :
    let t : FileTree := ⟨[(["a"], .text "b\x7b\x7d\x7d"), (["o"], .text "c")]⟩
    let o := { Options.empty with css := ["a"], output := some "o" }
    ∃ e, e.isEarly ∧ (run t o).error = some e ∧ (run t o).tree = t ∧ (run t o).stdout = "" := by
  intro t o
  have hconfig : configFor t o = .ok (o.override .default) := ok_of_toOption (by decide +kernel)
  have hexpand : expand t "a" = .ok ["a"] :=
    expand_of_name (by decide +kernel) (by decide +kernel) (by decide +kernel)
  have hfiles : findFiles t (o.override .default) = .ok ⟨[], [⟨"a", .css⟩], []⟩ :=
    findFiles_of_stylesheets (by decide +kernel) (List.forall_mem_singleton.2 hexpand) ⟨rfl, rfl⟩
      (by decide +kernel)
  have hfails : (contribution t ⟨"a", .css⟩).isOk = false := by decide +kernel
  obtain ⟨huntouched, -, hfaults⟩ := faults_of_run t o
  cases hused : contribution t ⟨"a", .css⟩ with
  | ok d => simp [hused, Except.isOk, Except.toBool] at hfails
  | error fault =>
    have hunfit : Unfit t o (o.override .default) :=
      .file hfiles (by simp [FileSet.all]) hused
    obtain ⟨e, hearly, herror⟩ := (hfaults _ hconfig).1.2 hunfit
    exact ⟨e, hearly, herror, huntouched e herror hearly⟩

end StyleSieve.Run
