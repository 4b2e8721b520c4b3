import StyleSieve.Proofs.Files.Discovery
import StyleSieve.Proofs.Files.Write
import StyleSieve.Proofs.Purge.Run
import StyleSieve.Run.Program

/-!
# What a run writes

The output is opened between the first and the second reading of the stylesheets. From then on its
file holds what has been written so far, and every other file what it held before (`Writing.Over`).
So a stylesheet that the output is written over is purged as what has been written by then
(`rewritten`); it is lost, unless nothing of it would be kept. If the output lies apart from all
stylesheets, a run that succeeds writes their purges one after another (`output_of_run`).

Only a single program writes to the file tree here.
-/

namespace StyleSieve.Run

open Files Usage Purge Report

/-- A path that leads where the output is written. -/
def leadsToOutput (t : FileTree) (out : Option String) (path : String) : Bool :=
  out.any fun target => t.locate path = t.locate target

/-- What is read of a file while `written` is in the output. -/
def seen (t : FileTree) (out : Option String) (written path : String) : Option String :=
  if leadsToOutput t out path then some written else t.read? path

/-- What a purge keeps of a stylesheet. -/
def purgedText (j : Judge) (source : String) : String := (purge j source .unlimited).sink.text

/-- What is in the output after several stylesheets, each purged as it can be read by then. -/
def rewritten (t : FileTree) (j : Judge) (out : Option String) (written : String) :
    List SourceFile → String
  | [] => written
  | f :: fs =>
    rewritten t j out (written ++ purgedText j ((seen t out written f.path).getD "")) fs

/-- The text that a run leaves in its output. -/
def Outcome.output (u : Outcome) : Option String → Option String
  | none => some u.stdout
  | some path => u.tree.read? path

theorem seen_of_apart {t : FileTree} {out : Option String} {path : String}
    (h : leadsToOutput t out path = false) (written : String) :
    seen t out written path = t.read? path := by
  simp [seen, h]

/-- Stylesheets apart from the output are purged one after another. -/
theorem rewritten_of_apart {t : FileTree} {out : Option String} {fs : List SourceFile}
    (h : ∀ f ∈ fs, leadsToOutput t out f.path = false) (j : Judge) (written : String) :
    rewritten t j out written fs =
      written ++ String.join (fs.map fun f => purgedText j ((t.read? f.path).getD "")) := by
  induction fs generalizing written with
  | nil => simp [rewritten]
  | cons f fs ih =>
    rw [rewritten, ih fun g hg => h g (List.mem_cons_of_mem f hg),
      seen_of_apart (h f List.mem_cons_self)]
    simp [String.append_assoc]

/-! ## An output that has been opened -/

/-- The output has been opened in a file tree: its file holds what has been written and can be
written again, and all other files hold what they held. -/
structure Writing.Over (t : FileTree) (w : Writing) : Prop where
  locate : ∀ path, w.tree.locate path = t.locate path
  read : ∀ path, w.tree.read? path = seen t w.path w.text path
  writable : ∀ path, w.path = some path → ∀ text, ∃ t', w.tree.write? path text = some t'

namespace Writing

variable {t : FileTree} {w : Writing}

theorem over_of_start {out : Option String} (h : Writing.start t out = some w) :
    w.Over t ∧ w.path = out ∧ w.text = "" := by
  cases out with
  | none =>
    obtain rfl : ⟨t, none, ""⟩ = w := Option.some.inj h
    exact ⟨⟨fun _ => rfl, fun _ => rfl, by simp⟩, rfl, rfl⟩
  | some target =>
    obtain ⟨t', hwrite, rfl⟩ := Option.map_eq_some_iff.1 h
    refine ⟨⟨FileTree.locate_write? hwrite, fun path => ?_, ?_⟩, rfl, rfl⟩
    · rw [FileTree.read?_write? hwrite]
      simp [seen, leadsToOutput]
    · rintro path hpath text
      obtain rfl := Option.some.inj hpath
      exact FileTree.exists_write?_again hwrite text

@[simp]
theorem setText_path (w : Writing) (text : String) : (w.setText text).path = w.path := by
  unfold setText
  split <;> simp [*]

@[simp]
theorem setText_text (w : Writing) (text : String) : (w.setText text).text = text := by
  unfold setText
  split <;> rfl

/-- Writing on leaves all other files alone. -/
theorem Over.setText (h : w.Over t) (text : String) : (w.setText text).Over t := by
  cases hpath : w.path with
  | none =>
    have hset : w.setText text = { w with text } := by simp [Writing.setText, hpath]
    have hseen : ∀ s path, seen t w.path s path = t.read? path := by
      simp [seen, leadsToOutput, hpath]
    rw [hset]
    refine ⟨h.locate, fun path => ?_, h.writable⟩
    rw [h.read, hseen, hseen]
  | some target =>
    obtain ⟨t', hwrite⟩ := h.writable target hpath text
    have hset : w.setText text = { w with text, tree := t' } := by
      simp [Writing.setText, hpath, hwrite]
    rw [hset]
    refine ⟨fun path => ?_, fun path => ?_, ?_⟩
    · rw [FileTree.locate_write? hwrite, h.locate]
    · rw [FileTree.read?_write? hwrite, h.locate, h.locate, h.read, hpath]
      simp only [seen, leadsToOutput, Option.any_some]
      split <;> simp [*]
    · rintro path hpath' text'
      obtain rfl : target = path := Option.some.inj (hpath.symm.trans hpath')
      exact FileTree.exists_write?_again hwrite text'

/-- One stylesheet: it is read as it can be seen by then, and what is kept of it is added. -/
theorem purgeFile_ok {j : Judge} {f : SourceFile} {report : FileReport} {w' : Writing}
    (hover : w.Over t) (h : w.purgeFile j f = (w', .ok report)) :
    ∃ source counts, seen t w.path w.text f.path = some source ∧
      (purge j source .unlimited).result = .ok counts ∧
      w' = w.setText (w.text ++ purgedText j source) := by
  unfold purgeFile at h
  rw [hover.read] at h
  split at h
  · simp at h
  · next source hsource =>
    have hpurge := purge_unlimited j source w.text
    have hfresh := purge_unlimited j source ""
    rw [show { Sink.unlimited with text := "" } = Sink.unlimited from rfl] at hfresh
    have htext : purgedText j source = textOf (planOf j source).outputs := by
      rw [purgedText, hfresh, String.empty_append]
    rw [hpurge] at h
    dsimp only at h
    split at h
    · simp at h
    · next counts hcounts =>
      refine ⟨source, counts, hsource, ?_, ?_⟩
      · rw [hfresh]
        exact hcounts
      · rw [htext]
        exact (congrArg Prod.fst h).symm

/-- All stylesheets, one after another. -/
theorem purgeAll_ok {j : Judge} {fs : List SourceFile} {reports : List FileReport} {w' : Writing}
    (hover : w.Over t) (h : w.purgeAll j fs = (w', .ok reports)) :
    w'.Over t ∧ w'.path = w.path ∧ w'.text = rewritten t j w.path w.text fs ∧
      ∀ f ∈ fs, leadsToOutput t w.path f.path = false → ∃ source counts,
        t.read? f.path = some source ∧ (purge j source .unlimited).result = .ok counts := by
  induction fs generalizing w reports with
  | nil =>
    obtain rfl : w = w' := congrArg Prod.fst h
    exact ⟨hover, rfl, rfl, by simp⟩
  | cons f fs ih =>
    rw [purgeAll] at h
    split at h
    · simp at h
    · next w₁ report hfile =>
      obtain ⟨source, counts, hsource, hcounts, rfl⟩ := purgeFile_ok hover hfile
      dsimp only at h
      cases hrest : (w.setText (w.text ++ purgedText j source)).purgeAll j fs with
      | mk w₂ result =>
        rw [hrest] at h
        cases result with
        | error e => simp [Functor.map, Except.map] at h
        | ok others =>
          obtain rfl : w₂ = w' := congrArg Prod.fst h
          obtain ⟨hover', hpath, htext, hfiles⟩ := ih (hover.setText _) hrest
          rw [setText_path] at hpath htext hfiles
          rw [setText_text] at htext
          refine ⟨hover', hpath, ?_, ?_⟩
          · rw [htext, rewritten, hsource, Option.getD_some]
          · intro g hg hapart
            rcases List.mem_cons.1 hg with rfl | hg
            · exact ⟨source, counts, seen_of_apart hapart _ ▸ hsource, hcounts⟩
            · exact hfiles g hg hapart

end Writing

/-! ## Runs -/

/-- What a run finds in a file tree before it opens its output: how it is configured, what decides
over rules, and the stylesheets in their order. -/
structure Finds (t : FileTree) (o : Options) (c : Config) (j : Judge) (sheets : List SourceFile) :
    Prop where
  config : configFor t o = .ok c
  inputs : ∃ overrides files corpus,
    Overrides.compile c.keep c.keepClasses c.keepIds = .ok overrides ∧
    findFiles t c = .ok files ∧ corpusOf t files.all = .ok corpus ∧
    j = ⟨corpus.index overrides, corpus.references⟩ ∧ sheets = files.css

theorem finds_of_prepare {t : FileTree} {o : Options} {c : Config} {p : Prepared}
    (hconfig : configFor t o = .ok c) (h : prepare t o c = .ok p) :
    Finds t o c p.judge p.sheets := by
  unfold prepare at h
  repeat' split at h
  all_goals try cases h
  exact ⟨hconfig, _, _, _, by assumption, by assumption, by assumption, rfl, rfl⟩

theorem file_report {format : Format} {path : Option String} {colour : Bool}
    {files : List FileReport} {target : String}
    (h : (report format path colour files).file = some target) : path = some target := by
  unfold report at h
  split at h <;> simp_all

/-- What stands in the output at the end is what the stylesheets left there, unless the report is
written over it. -/
theorem output_finish {t : FileTree} {o : Options} {c : Config} {p : Prepared} {w : Writing}
    {reports : List FileReport} (hover : w.Over t) (hfine : (finish o c p w reports).error = none)
    (hreport : c.report.path.all fun path => !leadsToOutput t w.path path) :
    (finish o c p w reports).output w.path = some w.text := by
  have hread : ∀ path, w.path = some path → w.tree.read? path = some w.text := by
    intro path hpath
    simp [hover.read, seen, leadsToOutput, hpath]
  have houtput : ∀ stderr error, Outcome.output
      ⟨w.tree, if w.path.isNone then w.text else "", stderr, error⟩ w.path = some w.text := by
    intro stderr error
    cases hpath : w.path with
    | none => rfl
    | some path => exact hread path hpath
  unfold finish at hfine ⊢
  dsimp only at hfine ⊢
  split
  · exact houtput _ _
  · next hsaid =>
    rw [if_neg hsaid] at hfine
    split
    · exact houtput _ _
    · next target htarget =>
      rw [htarget] at hfine
      dsimp only at hfine
      split
      · next hunwritten => simp [hunwritten] at hfine
      · next t' hwrite =>
        rw [file_report htarget] at hreport
        cases hpath : w.path with
        | none => rfl
        | some path =>
          have hapart : t.locate path ≠ t.locate target := by
            rw [ne_comm]
            simpa [leadsToOutput, hpath] using hreport
          rw [Outcome.output, FileTree.read?_write? hwrite, hover.locate, hover.locate,
            if_neg hapart]
          exact hread path hpath

/-- A run that succeeds leaves in its output the purges of all stylesheets that it found, each as it
can be read when its turn comes. Stylesheets apart from the output are purged as they were when the
run began, and none of these purges fails. The report must not be written over the output. -/
theorem output_of_run {t : FileTree} {o : Options} (h : (run t o).error = none) :
    ∃ c j sheets, Finds t o c j sheets ∧
      (∀ f ∈ sheets, leadsToOutput t c.output f.path = false → ∃ source counts,
        t.read? f.path = some source ∧ (purge j source .unlimited).result = .ok counts) ∧
      ((c.report.path.all fun path => !leadsToOutput t c.output path) →
        (run t o).output c.output = some (rewritten t j c.output "" sheets) ∧
        ((∀ f ∈ sheets, leadsToOutput t c.output f.path = false) →
          (run t o).output c.output = some (String.join
            (sheets.map fun f => purgedText j ((t.read? f.path).getD ""))))) := by
  unfold run at h ⊢
  cases hconfig : configFor t o with
  | error e => simp [hconfig, Outcome.failed] at h
  | ok c =>
    rw [hconfig] at h
    dsimp only at h ⊢
    unfold runConfig at h ⊢
    cases hprepare : prepare t o c with
    | error e => simp [hprepare, Outcome.failed] at h
    | ok p =>
      rw [hprepare] at h
      dsimp only at h ⊢
      cases hstart : Writing.start t c.output with
      | none => simp [hstart, Outcome.failed] at h
      | some w =>
        obtain ⟨hover, hpath, hempty⟩ := Writing.over_of_start hstart
        rw [hstart] at h
        dsimp only at h ⊢
        cases hpurges : w.purgeAll p.judge p.sheets with
        | mk w' result =>
          rw [hpurges] at h
          cases result with
          | error e => simp at h
          | ok reports =>
            obtain ⟨hover', hpath', htext, hread⟩ := Writing.purgeAll_ok hover hpurges
            rw [hpath, hempty] at htext
            rw [hpath] at hread hpath'
            refine ⟨c, p.judge, p.sheets, finds_of_prepare hconfig hprepare, hread, ?_⟩
            intro hreport
            have houtput := output_finish hover' h (hpath' ▸ hreport)
            rw [hpath', htext] at houtput
            refine ⟨houtput, fun hapart => ?_⟩
            rw [rewritten_of_apart hapart, String.empty_append] at houtput
            exact houtput

/-- Two stylesheets and an output beside them. -/
theorem output_of_run_two_sheets :
    let t : FileTree := ⟨[(["a"], .text "@a;b\x7b\x7d"), (["b"], .text "@b;")]⟩
    let o := { Options.empty with css := ["a", "b"], output := some "o", quiet := true }
    let sheets : List SourceFile := [⟨"a", .css⟩, ⟨"b", .css⟩]
    (run t o).error = none ∧ ∃ j, Finds t o (o.override .default) j sheets ∧
      (∀ f ∈ sheets, ∃ source counts,
        t.read? f.path = some source ∧ (purge j source .unlimited).result = .ok counts) ∧
      (run t o).output (some "o") = some (rewritten t j (some "o") "" sheets) ∧
      (run t o).output (some "o") = some (String.join
        (sheets.map fun f => purgedText j ((t.read? f.path).getD ""))) := by
  intro t o sheets
  have hconfig : configFor t o = .ok (o.override .default) := ok_of_toOption (by decide +kernel)
  have ha : expand t "a" = .ok ["a"] :=
    expand_of_name (by decide +kernel) (by decide +kernel) (by decide +kernel)
  have hb : expand t "b" = .ok ["b"] :=
    expand_of_name (by decide +kernel) (by decide +kernel) (by decide +kernel)
  have hfiles : findFiles t (o.override .default) = .ok ⟨[], sheets, []⟩ :=
    findFiles_of_stylesheets (by decide +kernel)
      (List.forall_mem_cons.2 ⟨ha, List.forall_mem_singleton.2 hb⟩) ⟨rfl, rfl⟩ (by decide +kernel)
  have hfine : (run t o).error = none := by
    rw [run, hconfig]
    dsimp only
    rw [runConfig, prepare, hfiles]
    refine Option.isNone_iff_eq_none.1 ?_
    decide +kernel
  obtain ⟨c, j, found, hfinds, hread, houtput⟩ := output_of_run hfine
  obtain rfl := Except.ok.inj (hconfig.symm.trans hfinds.config)
  obtain ⟨_, files, _, _, hfound, _, _, rfl⟩ := hfinds.inputs
  obtain rfl := Except.ok.inj (hfiles.symm.trans hfound)
  have hapart : ∀ f ∈ sheets, leadsToOutput t (some "o") f.path = false := by decide +kernel
  obtain ⟨hrewritten, hjoined⟩ := houtput rfl
  exact ⟨hfine, j, hfinds, fun f hf => hread f hf (hapart f hf), hrewritten, hjoined hapart⟩

/-- A stylesheet that the output is written over is gone before it is purged: nothing is left of the
statement that its purge keeps. -/
theorem output_lost_over_sheet :
    let t : FileTree := ⟨[(["a"], .text "@a;b\x7b\x7d")]⟩
    let o := { Options.empty with css := ["a"], output := some "a", quiet := true }
    (run t o).error = none ∧ (run t o).output (some "a") = some "" ∧
      ∃ c j sheets, Finds t o c j sheets ∧
        sheets.map (fun f => purgedText j ((t.read? f.path).getD "")) = ["@a;"] := by
  intro t o
  have hconfig : configFor t o = .ok (o.override .default) := ok_of_toOption (by decide +kernel)
  have hexpand : expand t "a" = .ok ["a"] :=
    expand_of_name (by decide +kernel) (by decide +kernel) (by decide +kernel)
  have hfiles : findFiles t (o.override .default) = .ok ⟨[], [⟨"a", .css⟩], []⟩ :=
    findFiles_of_stylesheets (by decide +kernel) (List.forall_mem_singleton.2 hexpand) ⟨rfl, rfl⟩
      (by decide +kernel)
  have hrun : (run t o).error.isNone ∧ (run t o).output (some "a") = some "" := by
    rw [run, hconfig]
    dsimp only
    rw [runConfig, prepare, hfiles]
    decide +kernel
  have hpurge : (prepare t o (o.override .default)).toOption.map (fun p => p.sheets.map
      fun f => purgedText p.judge ((t.read? f.path).getD "")) = some ["@a;"] := by
    rw [prepare, hfiles]
    decide +kernel
  obtain ⟨p, hp, htexts⟩ := Option.map_eq_some_iff.1 hpurge
  exact ⟨Option.isNone_iff_eq_none.1 hrun.1, hrun.2, _, p.judge, p.sheets,
    finds_of_prepare hconfig (ok_of_toOption hp), htexts⟩

end StyleSieve.Run
