import StyleSieve.Proofs.Purge.Rewriting
import StyleSieve.Proofs.Purge.Sparing

/-!
# Purging twice

A purged stylesheet is left as it is by another purge (`purge_idempotent`), and nothing is counted
as removed. What the first purge writes is read again as the pieces that were kept, if nothing is
left open in the stylesheet, its values, preludes and selectors keep their tokens when they are
written anew, and no at-rule stands inside the definition of a font.
-/

namespace StyleSieve.Purge

open Css
open Text (At)
open Css.Phrase (treesOf)
open Css.Tree (rawOf lexemesOf)

section

variable {j : Judge} {w : Option Bracket} {source : String} {ps : List Phrase} {ks : List Piece}

/-! ## Canonical pieces are spared -/

theorem all_keeps_selectorEvents {earlier : List (List Tree)}
    (h : ∀ vs ∈ earlier, Selected j w vs) (pos : Nat) :
    (Phrase.selectorEvents pos (earlier.map (·, commaMark))).all j.keeps = true := by
  induction earlier generalizing pos with
  | nil => rfl
  | cons vs earlier ih =>
    have hvs : j.keeps (selectorEvent .selector pos vs) = true := (h vs List.mem_cons_self).keeps
    rw [List.map_cons, Phrase.selectorEvents, List.all_cons, hvs,
      ih (fun us hus => h us (List.mem_cons_of_mem vs hus))]
    rfl

mutual

theorem spares_phrase : ∀ (k : Piece) (w : Option Bracket) (ctx : Context), Canonical j w ctx k →
    ∀ pos, sparesIn j (k.phrase.outlineAt pos) = true
  | .comment t => by
    intro w ctx _ pos
    simp [Piece.phrase, Phrase.outlineAt, sparesIn, spares]
  | .declaration name value => by
    intro w ctx _ pos
    simp [Piece.phrase, Phrase.outlineAt, sparesIn, spares]
  | .statement keyword prelude => by
    intro w ctx _ pos
    simp [Piece.phrase, Phrase.outlineAt, sparesIn, spares]
  | .copied p => by
    intro w ctx h pos
    cases h with
    | copied name wanted =>
      rw [Piece.phrase, Phrase.outlineAt, sparesIn, sparesIn, spares, Bool.and_true]
      exact (if_pos name).trans wanted
  | .block keyword prelude body => by
    intro w ctx h pos
    cases h with
    | block headed keeps inside =>
      obtain ⟨hname, -, hface⟩ := keepsBlock_iff.1 keeps
      have hbody := spares_layOut body _ _ inside
      have hfont : (!isFontFace (atName keyword) ||
          j.wantsFont (familyIn (Piece.layOut body))) = true := by
        cases hfont : isFontFace (atName keyword) with
        | true => exact (hface hfont).1
        | false => rfl
      rw [Piece.phrase, Phrase.outlineAt, sparesIn, sparesIn, spares, Bool.and_true, hbody,
        familyOf_outlinesAt, Bool.and_true]
      exact (if_neg (by rw [Bool.not_eq_true]; exact hname)).trans hfont
  | .ruleset earlier last body => by
    intro w ctx h pos
    cases h with
    | ruleset selectors hlast inside =>
      have hkeeps : ∀ pos, j.keeps (selectorEvent .rulesetStart pos last) = true :=
        fun _ => hlast.keeps
      rw [Piece.phrase, Phrase.outlineAt, sparesIn, sparesIn, spares,
        spares_layOut body _ _ inside, List.all_append, all_keeps_selectorEvents selectors,
        List.all_cons, hkeeps]
      rfl

/-- Canonical pieces are spared. -/
theorem spares_layOut : ∀ (ks : List Piece) (w : Option Bracket) (ctx : Context),
    (∀ k ∈ ks, Canonical j w ctx k) →
      ∀ pos, sparesIn j (Phrase.outlinesAt pos (Piece.layOut ks)) = true
  | [] => by
    intro w ctx _ pos
    rw [Piece.layOut, Phrase.outlinesAt, sparesIn]
  | k :: ks => by
    intro w ctx h pos
    have hks := spares_layOut ks w ctx fun l hl => h l (List.mem_cons_of_mem k hl)
    have hk := spares_phrase k w ctx (h k List.mem_cons_self) pos
    rw [Piece.layOut, Phrase.outlinesAt, sparesIn_append, hk, Bool.true_and]
    unfold Piece.trailer
    split
    · rw [List.singleton_append, Phrase.outlinesAt, Phrase.outlineAt, List.nil_append, hks]
    · rw [List.singleton_append, Phrase.outlinesAt, Phrase.outlineAt, List.nil_append, hks]
    · exact hks _

end

/-! ## Purging canonical pieces -/

/-- The text of canonical pieces is left as it is, and nothing is removed. -/
theorem purge_layOut {text : String} (h : ∀ k ∈ ks, Canonical j none .rules k)
    (htext : text = Kept.texts (Piece.keptOf ks)) :
    ∃ counts, (purge j text .unlimited).result = .ok counts ∧
      (purge j text .unlimited).sink.text = text ∧ counts.removed = (0, 0, 0, 0) := by
  have hlist : text.toList = rawOf (treesOf (Piece.layOut ks)) := by
    rw [htext, Piece.toList_texts]
  have hspells := spells_layOut h hlist
  have houtline : outline text = Phrase.outlinesAt 0 (Piece.layOut ks) := hspells.outline_eq
  have hplain : FontsArePlain (outline text) := by
    rw [houtline]
    exact fontsArePlain_outlinesAt _ 0 (plainFontsIn_layOut ks none .rules h)
  have heq := Phrase.Parses.eventsOf_eq (by simp) hspells 0
  have herror : (events text).error = none := by
    rw [events, heq]
    rfl
  have hevents : (events text).events = Node.eventsIn (outline text) := by
    rw [events, heq, houtline]
    rfl
  have hspares : sparesIn j (outline text) = true := by
    rw [houtline]
    exact spares_layOut ks none .rules h 0
  obtain ⟨os, t, hruns, hspared⟩ := passes_eventsIn j text (outline text) .rules
    (outline_fits herror) hplain hspares (.initial text.utf8ByteSize) ⟨rfl, rfl⟩
  rw [← hevents] at hruns
  obtain ⟨n, hresult⟩ := exists_counts_of_run herror hruns
  refine ⟨_, hresult, ?_, hspared.removed⟩
  have hat : At text 0 (rawOf (treesOf (Piece.layOut ks))) := ⟨[], [], by simp [hlist], rfl⟩
  rw [sink_text_of_ok hresult hplain, houtline,
    prunedIn_outlinesAt j _ 0 hat (seamlessIn_layOut ks none .rules h),
    ofPhrases_layOut ks none .rules h, ← htext]
  exact String.empty_append

/-! ## Purging twice -/

/-- Nothing is left open at the end of a text, so that a semicolon after it is read as one. -/
def Closed (source : String) : Prop :=
  Tree.ofText (source.toList ++ [';']) = Tree.ofText source.toList ++ [semicolonMark]

theorem Closed.enclosed (h : Closed source) : Enclosed none [';'] (Tree.ofText source.toList) :=
  enclosed_of_ofText (by rwa [Tree.rawOf_ofText])

/-- A second purge leaves what the first one wrote as it is, and reports nothing as removed. -/
theorem purge_idempotent {sink : Sink} {counts : Counts}
    (h : (purge j source sink).result = .ok counts) (hps : Phrase.Spells source ps)
    (hclosed : Closed source) (hseam : seamlessIn j ps = true) (hplain : plainFontsIn ps = true) :
    ∃ text, (purge j source sink).sink.text = sink.text ++ text ∧
      ∃ counts', (purge j text .unlimited).result = .ok counts' ∧
        (purge j text .unlimited).sink.text = text ∧ counts'.removed = (0, 0, 0, 0) := by
  have hfonts : FontsArePlain (outline source) := by
    rw [hps.outline_eq]
    exact fontsArePlain_outlinesAt ps 0 hplain
  have hat : At source 0 (rawOf (treesOf ps)) :=
    ⟨[], [], by rw [hps.trees_eq, Tree.rawOf_ofText]; simp, rfl⟩
  have henclosed : Enclosed none [';'] (treesOf ps) := hps.trees_eq ▸ hclosed.enclosed
  have hcanonical : ∀ k ∈ Piece.ofPhrases j ps, Canonical j none .rules k :=
    canonical_ofPhrases ps none .rules [';'] hps.derives hps.joined henclosed hseam hplain
  refine ⟨Kept.texts (Piece.keptOf (Piece.ofPhrases j ps)), ?_, purge_layOut hcanonical rfl⟩
  rw [sink_text_of_ok h hfonts, hps.outline_eq, prunedIn_outlinesAt j ps 0 hat hseam]

theorem closed_of_lexemes {ts : List Tree} (h : lexemes source.toList = lexemesOf ts)
    (hmark : lexemes (source.toList ++ [';']) = lexemesOf (ts ++ [semicolonMark]))
    (hbrackets : Tree.Bracketed none false ts) : Closed source := by
  rw [Closed, Tree.ofText_eq h hbrackets.ends]
  exact Tree.ofText_eq hmark (hbrackets.append (bracketed_leaf rfl rfl .nil)).ends

end

/-- One rule is tidied and one removed. -/
theorem purge_idempotent_two_rules :
    let j : Judge := ⟨.markup [.ofTag "a"], ⟨[], []⟩⟩
    let source := "a\x7bx: y \x7db\x7bx:z\x7d"
    ∃ text, (purge j source .unlimited).sink.text = Sink.unlimited.text ++ text ∧
      ∃ counts', (purge j text .unlimited).result = .ok counts' ∧
        (purge j text .unlimited).sink.text = text ∧ counts'.removed = (0, 0, 0, 0) := by
  intro j source
  let name (s : String) : Tree := .leaf ⟨.ident s, s.toList⟩
  let rule (s : String) (value : List Tree) : Phrase :=
    .ruleset [] [name s] curlyOpen [.declaration (name "x") [] colonMark value] (some curlyClose)
  have hderives : ∀ s value, Phrase.Sound value → (∀ t ∈ value, Tree.isSemicolon t = false) →
      Phrase.Derives .rules (rule s value) := by
    intro s value hsound hvalue
    refine .ruleset (by simp) (by simp) ⟨?_, ?_, name s, List.mem_singleton_self _, rfl⟩ ?_ rfl ?_
      ⟨.inl rfl, trivial⟩
    · simp [Phrase.Sound, name, Tree.token]
    · simp [name, Tree.endsSelector, Tree.isComma, Tree.isCurly, Tree.isSemicolon, Tree.token]
    · simp [name, Phrase.beginsRule, Tree.token]
    · exact List.forall_mem_singleton.2 (.declaration rfl (by simp) rfl hsound hvalue)
  have hbrackets : ∀ s value, Tree.Bracketed (some .curly) false value →
      Tree.Bracketed none false (rule s value).trees := by
    intro s value h
    simp only [rule, Phrase.trees, Phrase.treesOf_cons, Phrase.treesOf_nil, List.nil_append,
      List.append_nil]
    exact bracketed_leaf rfl rfl (bracketed_curly (bracketed_leaf rfl rfl (bracketed_leaf rfl rfl h)))
  let ps := [rule "a" [Tree.space, name "y", Tree.space], rule "b" [name "z"]]
  have htrees : Tree.Bracketed none false (treesOf ps) := by
    simp only [ps, Phrase.treesOf_cons, Phrase.treesOf_nil, List.append_nil]
    refine (hbrackets _ _ ?_).append (hbrackets _ _ (bracketed_leaf rfl rfl .nil))
    exact bracketed_leaf rfl rfl (bracketed_leaf rfl rfl (bracketed_leaf rfl rfl .nil))
  have hlexemes : lexemes source.toList = lexemesOf (treesOf ps) := by decide +kernel
  have hspells : Phrase.Spells source ps := by
    refine ⟨?_, ⟨trivial, trivial, trivial⟩, (Tree.ofText_eq hlexemes htrees.ends).symm⟩
    refine List.forall_mem_cons.2 ⟨hderives _ _ ?_ (by decide), ?_⟩
    · simp [Phrase.Sound, name, Tree.token, Tree.space]
    · refine List.forall_mem_singleton.2 (hderives _ _ ?_ (by decide))
      simp [Phrase.Sound, name, Tree.token]
  obtain ⟨counts, hcounts⟩ : ∃ counts, (purge j source .unlimited).result = .ok counts :=
    exists_counts_of_isOk (by decide +kernel)
  exact purge_idempotent hcounts hspells (closed_of_lexemes hlexemes (by decide +kernel) htrees)
    (by decide +kernel) (by decide +kernel)

/-- Trimming takes the blank of an escape away, and the bracket after it becomes part of the name. -/
theorem not_idempotent_escape :
    let j : Judge := ⟨.markup [.ofTag "a"], ⟨[], []⟩⟩
    let source := "a\x7b--x:p\\ \x7d"
    Closed source ∧ (∃ counts, (purge j source .unlimited).result = .ok counts) ∧
      ¬ ∃ text, (purge j source .unlimited).sink.text = Sink.unlimited.text ++ text ∧
        ∃ counts', (purge j text .unlimited).result = .ok counts' ∧
          (purge j text .unlimited).sink.text = text ∧ counts'.removed = (0, 0, 0, 0) := by
  intro j source
  have hclosed : Closed source := by
    refine @closed_of_lexemes _ [.leaf ⟨.ident "a", ['a']⟩, .block curlyOpen
      [.leaf ⟨.ident "--x", ['-', '-', 'x']⟩, colonMark, .leaf ⟨.ident "p ", ['p', '\\', ' ']⟩]
      (some curlyClose)] (by decide +kernel) (by decide +kernel) ?_
    exact bracketed_leaf rfl rfl (bracketed_curly
      (bracketed_leaf rfl rfl (bracketed_leaf rfl rfl (bracketed_leaf rfl rfl .nil))))
  refine ⟨hclosed, exists_counts_of_isOk (by decide +kernel), ?_⟩
  rintro ⟨text, hfirst, -, -, hsecond, -⟩
  have htext : (purge j source .unlimited).sink.text = "a\x7b--x:p\\\x7d" := by decide +kernel
  rw [htext, Sink.unlimited, String.empty_append] at hfirst
  rw [← hfirst] at hsecond
  exact absurd hsecond (by decide +kernel)

end StyleSieve.Purge
