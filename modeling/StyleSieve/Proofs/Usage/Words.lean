import StyleSieve.Proofs.Selector.Names
import StyleSieve.Proofs.Text.LetterCase
import StyleSieve.Proofs.Text.Runs
import StyleSieve.Usage.Index

/-!
# Words of a text and names of selectors

The words of a text are its runs of letters, numbers and hyphens, told apart up to letter case
(`ofText_separated`). A name that stands in a text between other characters is therefore a word of it
unless it has a low line, at which words end (`words_include_iff`): so a class or an id with a low
line is never found in free text, though selectors take it as a name.
-/

namespace StyleSieve.Usage

open Text Selector

/-- Letters, numbers, hyphens and low lines make up names. -/
def inName (c : Char) : Bool := inWord c || c == '_'

theorem isPlainNameChar_of_inName {c : Char} (h : inName c = true) :
    Css.isPlainNameChar c = true := by
  rw [Css.isPlainNameChar, Bool.and_eq_true, bne_iff_ne]
  constructor
  · by_cases hascii : c.toNat < 0x80
    · simp only [inName, inWord, isLetter, isNumeric, if_pos hascii, isAsciiLetter, isAsciiDigit,
        Bool.or_eq_true, beq_iff_eq] at h
      simp only [Css.isNameChar, Css.isNameStart, Bool.or_eq_true, beq_iff_eq]
      tauto
    · have hforeign : Css.isForeign c = true := by
        simp only [Css.isForeign, Bool.or_eq_true, decide_eq_true_eq]
        omega
      simp [Css.isNameChar, Css.isNameStart, hforeign]
  · rintro rfl
    exact absurd h (by decide)

/-- A run of name characters is a run of word characters unless it has a low line. -/
theorem isRun_inWord {text name : String} (h : IsRun inName text name)
    (hplain : '_' ∉ name.toList) : IsRun inWord text name := by
  have houter : ∀ c, inName c = false → inWord c = false := fun c hc => by
    rw [inName, Bool.or_eq_false_iff] at hc
    exact hc.1
  obtain ⟨before, after, htext, hrun⟩ := h
  refine ⟨before, after, htext, hrun.ne_nil, fun c hc => ?_, fun c hc => houter c (hrun.left c hc),
    fun c hc => houter c (hrun.right c hc)⟩
  have hname := hrun.inside c hc
  rw [inName, Bool.or_eq_true, beq_iff_eq] at hname
  exact hname.resolve_right fun hlow => hplain (hlow ▸ hc)

namespace WordSet

theorem mem_ofText_iff {text w : String} :
    w ∈ ofText ∅ text ↔ ∃ v, IsRun inWord text v ∧ lowerCase v = w := by
  simp [ofText, mem_ofWords, mem_runs_iff]

/-- A name is found just where it has no low line. -/
theorem contains_iff_of_isRun {text name : String} (h : IsRun inName text name) :
    lowerCase name ∈ ofText ∅ text ↔ '_' ∉ name.toList := by
  rw [mem_ofText_iff]
  constructor
  · rintro ⟨v, hv, hlower⟩
    rw [← lowLine_mem_lowerCase, ← hlower, lowLine_mem_lowerCase]
    obtain ⟨_, _, _, hrun⟩ := hv
    exact fun hlow => absurd (hrun.inside '_' hlow) (by decide)
  · exact fun hplain => ⟨name, isRun_inWord h hplain, rfl⟩

/-- Words do not go on across a character that is none of theirs, and a text contains a word just
when it has a run that reads the same in lower case. -/
theorem ofText_separated {c : Char} (hc : inWord c = false) (a b text word : String) :
    ofText ∅ (a ++ String.singleton c ++ b) = (ofText ∅ a).union (ofText ∅ b) ∧
      ((ofText ∅ text).contains word = true ↔
        ∃ v, IsRun inWord text v ∧ lowerCase v = lowerCase word) := by
  constructor
  · apply NameSet.ext
    intro w
    simp only [NameSet.mem_union, ofText, mem_ofWords, runs_append hc, List.mem_append,
      NameSet.not_mem_empty, false_or, or_and_right, exists_or]
  · rw [contains, decide_eq_true_eq, mem_ofText_iff]

/-- The hyphen belongs to the word, the slash does not. -/
theorem ofText_separated_slash :
    inWord '/' = false ∧
      ofText ∅ ("Main-Nav" ++ String.singleton '/' ++ "42") =
        (ofText ∅ "Main-Nav").union (ofText ∅ "42") ∧
      (ofText ∅ "a/Main-Nav").contains "MAIN-nav" = true := by
  have hslash : ∀ c ∈ some '/', inWord c = false := by
    rintro c ⟨⟩
    decide
  have hrun : IsRun inWord "a/Main-Nav" "Main-Nav" :=
    ⟨"a/".toList, [], by decide, by decide, List.all_eq_true.1 (by decide), hslash, by simp⟩
  have hlower : lowerCase "Main-Nav" = lowerCase "MAIN-nav" := by decide +kernel
  have hseparated : inWord '/' = false := by decide
  obtain ⟨hunion, hcontains⟩ :=
    ofText_separated hseparated "Main-Nav" "42" "a/Main-Nav" "MAIN-nav"
  exact ⟨hseparated, hunion, hcontains.2 ⟨"Main-Nav", hrun, hlower⟩⟩

end WordSet

/-! ## Selectors of one name -/

theorem includes_words_className {set : WordSet} (name : String) :
    (Index.words set).includes
        [{ Compound.universal with classes := (∅ : NameSet).insert (lowerCase name) }] = true ↔
      lowerCase name ∈ set := by
  have hnames : ((∅ : NameSet).insert (lowerCase name)).toList = [lowerCase name] := rfl
  simp [Index.includes, WordSet.includes, WordSet.covers, Compound.universal, hnames,
    WordSet.contains, lowerCase_lowerCase]

theorem includes_words_id {set : WordSet} (name : String) :
    (Index.words set).includes [{ Compound.universal with id := some (lowerCase name) }] = true ↔
      lowerCase name ∈ set := by
  simp [Index.includes, WordSet.includes, WordSet.covers, Compound.universal, WordSet.contains,
    lowerCase_lowerCase]

/-- The class and the id of a name that stands in the text are included just where the name has no
low line. -/
theorem words_include_iff {text name : String} (h : IsRun inName text name) {chain : Chain}
    (hchain : parse ("." ++ name) = .ok chain ∨ parse ("#" ++ name) = .ok chain) :
    (Index.words (WordSet.ofText ∅ text)).includes chain = true ↔ '_' ∉ name.toList := by
  obtain ⟨before, after, -, hrun⟩ := id h
  have hplain : ∀ c ∈ name.toList, Css.isPlainNameChar c = true := fun c hc =>
    isPlainNameChar_of_inName (hrun.inside c hc)
  have hne : name ≠ "" := mt String.toList_eq_nil_iff.2 hrun.ne_nil
  rw [← WordSet.contains_iff_of_isRun h]
  rcases hchain with hclass | hid
  · obtain ⟨-, rfl⟩ := (parse_className_iff hplain).1 hclass
    exact includes_words_className name
  · obtain rfl := Except.ok.inj ((parse_id hplain hne).symm.trans hid)
    exact includes_words_id name

/-- A name with a hyphen in a script. -/
theorem words_include_is_open :
    let text := "el.classList.add('is-open')"
    let chain : Chain := [{ Compound.universal with classes := .ofList ["is-open"] }]
    IsRun inName text "is-open" ∧ parse ("." ++ "is-open") = .ok chain ∧
      (Index.words (WordSet.ofText ∅ text)).includes chain = true := by
  intro text chain
  have hquote : ∀ c ∈ some '\'', inName c = false := by
    rintro c ⟨⟩
    decide
  have hrun : IsRun inName text "is-open" :=
    ⟨"el.classList.add('".toList, "')".toList, by decide,
      by decide, List.all_eq_true.1 (by decide), hquote, hquote⟩
  have hlower : lowerCase "is-open" = "is-open" := by decide +kernel
  have hparse : parse ("." ++ "is-open") = .ok chain :=
    (parse_className_iff (List.all_eq_true.1 (by decide))).2 ⟨by decide, by rw [hlower]; rfl⟩
  exact ⟨hrun, hparse, (words_include_iff hrun (.inl hparse)).2 (by decide)⟩

/-- A name with a low line is cut in two. -/
theorem words_miss_low_line :
    let chain : Chain := [{ Compound.universal with classes := .ofList ["a_b"] }]
    IsRun inName "a_b" "a_b" ∧ parse ("." ++ "a_b") = .ok chain ∧
      (Index.words (WordSet.ofText ∅ "a_b")).includes chain = false := by
  intro chain
  have hrun : IsRun inName "a_b" "a_b" :=
    ⟨[], [], by simp, by decide, List.all_eq_true.1 (by decide), by simp, by simp⟩
  have hlower : lowerCase "a_b" = "a_b" := by decide +kernel
  have hchain : chain =
      [{ Compound.universal with classes := (∅ : NameSet).insert (lowerCase "a_b") }] := by
    rw [hlower]
    rfl
  refine ⟨hrun, (parse_className_iff (List.all_eq_true.1 (by decide))).2 ⟨by decide, hchain⟩, ?_⟩
  rw [hchain, Bool.eq_false_iff, ne_eq, includes_words_className,
    WordSet.contains_iff_of_isRun hrun]
  decide

end StyleSieve.Usage
