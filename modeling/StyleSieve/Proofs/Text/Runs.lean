import StyleSieve.Proofs.Text.Words

/-!
# Maximal runs

Which texts are runs of a class is told by what stands around them, without cutting anything
(`mem_runs_iff`). A character outside of the class parts the runs before it from those behind it
(`runs_append`).
-/

namespace StyleSieve.Text

variable {p : Char → Bool} {before run after w cs ds : List Char} {c : Char}

/-- A run of the class, which goes on neither before nor behind it. -/
structure RunBetween (p : Char → Bool) (before run after : List Char) : Prop where
  ne_nil : run ≠ []
  inside : ∀ c ∈ run, p c = true
  left : ∀ c ∈ before.getLast?, p c = false
  right : ∀ c ∈ after.head?, p c = false

/-- The word stands somewhere in the text as a maximal run of the class. -/
def IsRun (p : Char → Bool) (text word : String) : Prop :=
  ∃ before after, text.toList = before ++ word.toList ++ after ∧
    RunBetween p before word.toList after

/-! ## Cutting at a character -/

theorem runsFrom_append (hc : p c = false) (run cs ds : List Char) :
    runsFrom p run (cs ++ c :: ds) = runsFrom p run cs ++ runsFrom p [] ds := by
  induction cs generalizing run with
  | nil =>
    have hnot : ¬ p c = true := by simp [hc]
    rw [List.nil_append, runsFrom, runsFrom, if_neg hnot]
    split <;> rfl
  | cons d cs ih =>
    rw [List.cons_append, runsFrom, runsFrom]
    split
    · exact ih (d :: run)
    · split
      · exact ih []
      · rw [ih [], List.cons_append]

theorem runs_append (hc : p c = false) (s t : String) :
    runs p (s ++ String.singleton c ++ t) = runs p s ++ runs p t := by
  have h : (s ++ String.singleton c ++ t).toList = s.toList ++ c :: t.toList := by
    simp [String.toList_append]
  rw [runs, runs, runs, h, runsFrom_append hc, List.map_append]

/-! ## Runs by what stands around them -/

theorem runsFrom_of_forall (h : ∀ c ∈ cs, p c = true) (hne : run.reverse ++ cs ≠ []) :
    runsFrom p run cs = [run.reverse ++ cs] := by
  induction cs generalizing run with
  | nil =>
    have hrun : ¬ run.isEmpty = true := by simpa using hne
    rw [runsFrom, if_neg hrun, List.append_nil]
  | cons c cs ih =>
    rw [runsFrom, if_pos (h c List.mem_cons_self),
      ih (fun d hd => h d (List.mem_cons_of_mem c hd)) (by simp)]
    simp

theorem RunBetween.mem_runsFrom (h : RunBetween p before w after) :
    w ∈ runsFrom p [] (before ++ w ++ after) := by
  have halone : runsFrom p [] w = [w] := by
    have hwhole : ([] : List Char).reverse ++ w ≠ [] := h.ne_nil
    simpa using runsFrom_of_forall h.inside hwhole
  have hright : w ∈ runsFrom p [] (w ++ after) := by
    cases after with
    | nil => rw [List.append_nil, halone]; exact List.mem_cons_self
    | cons c after =>
      rw [runsFrom_append (h.right c rfl), halone]
      exact List.mem_append_left _ List.mem_cons_self
  rcases List.eq_nil_or_concat before with rfl | ⟨front, c, rfl⟩
  · exact hright
  · rw [List.concat_eq_append, List.append_assoc, List.append_assoc, List.singleton_append,
      runsFrom_append (h.left c (by simp))]
    exact List.mem_append_right _ hright

/-- A run that is read stands in the text, of which the run being read is the head. -/
theorem exists_runBetween (hrun : ∀ c ∈ run, p c = true) (hw : w ∈ runsFrom p run cs) :
    ∃ before after, run.reverse ++ cs = before ++ w ++ after ∧ RunBetween p before w after := by
  induction cs generalizing run with
  | nil =>
    rw [runsFrom] at hw
    split at hw
    · cases hw
    · next hne =>
      obtain rfl := List.mem_singleton.1 hw
      exact ⟨[], [], by simp, by simpa using hne, by simpa using hrun, by simp, by simp⟩
  | cons c cs ih =>
    rw [runsFrom] at hw
    split at hw
    · next hc =>
      have hrun' : ∀ d ∈ c :: run, p d = true := by simpa [hc] using hrun
      simpa using ih hrun' hw
    · next hc =>
      have hbehind : w ∈ runsFrom p [] cs → ∃ before after,
          run.reverse ++ c :: cs = before ++ w ++ after ∧ RunBetween p before w after := by
        intro hmem
        obtain ⟨before, after, hcs, h⟩ := @ih [] (by simp) hmem
        refine ⟨run.reverse ++ c :: before, after, ?_, h.ne_nil, h.inside, ?_, h.right⟩
        · rw [List.reverse_nil, List.nil_append] at hcs
          simp [hcs]
        · intro d hd
          rw [List.getLast?_append, List.getLast?_cons, Option.some_or] at hd
          obtain rfl := Option.some.inj hd
          cases hbefore : before.getLast? with
          | none => simpa using hc
          | some d => simpa [hbefore] using h.left d hbefore
      split at hw
      · exact hbehind hw
      · next hne =>
        rcases List.mem_cons.1 hw with rfl | hw
        · exact ⟨[], c :: cs, by simp, by simpa using hne, by simpa using hrun, by simp,
            by simpa using hc⟩
        · exact hbehind hw

/-- The runs of a class are what stands in the text as a maximal run. -/
theorem mem_runs_iff {text word : String} : word ∈ runs p text ↔ IsRun p text word := by
  rw [runs, List.mem_map]
  constructor
  · rintro ⟨w, hw, rfl⟩
    obtain ⟨before, after, htext, h⟩ := exists_runBetween (by simp) hw
    rw [List.reverse_nil, List.nil_append] at htext
    exact ⟨before, after, by simpa using htext, by simpa using h⟩
  · rintro ⟨before, after, htext, h⟩
    refine ⟨word.toList, ?_, by simp⟩
    rw [htext]
    exact h.mem_runsFrom

end StyleSieve.Text
