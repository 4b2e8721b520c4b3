import Mathlib.Data.List.Forall2
import StyleSieve.Proofs.Css.Closing
import StyleSieve.Proofs.Purge.Run
import StyleSieve.Proofs.Selector.Trimmed
import StyleSieve.Proofs.Usage.Presets

/-!
# Lists of selectors

A preset takes a list of selectors apart at every comma, wherever it stands; a rule takes its
selectors apart at the commas that are tokens of their own. Where each comma separates two of them,
a list gives the compounds of the selectors of the rule that it begins (`ofSelectors_of_outline`). A
comma in brackets, in a string, in a comment or behind a backslash tears a selector apart, as in
`not_ofSelectors_arguments`. Nothing is said of lists that begin no rule.
-/

namespace StyleSieve.Usage

open Css Selector
open Css.Phrase (IsSelector Derives outlinesAt selectorEvents listTrees treesOf)
open Css.Tree (isSemicolon isComma isCurly endsPrelude rawOf lexemesOf tidy Bracketed)

/-- A rule with the selectors given and an empty block. -/
def emptyRule (selectors : String) : String := selectors ++ "\x7b\x7d"

/-- The text under which a selector made of these trees is handed on. -/
def handed (ts : List Tree) : String := String.ofList (rawOf (tidy ts))

/-- A list of selectors whose commas all separate two of them, and whose selectors stay what they
are when they are tidied or trimmed. -/
structure ListsPlainly (selectors : String) : Prop where
  commas : ∀ t ∈ Tree.ofText (emptyRule selectors).toList, isComma t = true ∨ ',' ∉ t.raw
  /-- What a stylesheet passes over in front of a rule stands in no selector. -/
  marks : ∀ t ∈ Tree.ofText (emptyRule selectors).toList,
    t.token ∉ [.semicolon, .commentOpen, .commentClose]
  seamless : Tree.seamless (Tree.ofText (emptyRule selectors).toList) = true
  /-- No selector begins or ends with a blank but white space, such as one that ends an escape. -/
  ends : ∀ e ∈ (events (emptyRule selectors)).events, Text.trim e.text = e.text

section

variable {w : Option Bracket} {ended : Bool} {y : List Char} {t : Tree} {ts : List Tree}
  {ctx : Context} {pos : Nat} {ps : List Phrase} {earlier : List Event} {last stop : Event}
  {comments : List Event}

/-! ## The trees of an empty rule -/

theorem text_selectorEvent (kind : EventKind) (pos : Nat) (ts : List Tree) :
    (selectorEvent kind pos ts).text = handed ts := by
  rw [← String.toList_inj, Event.text, handed, String.toList_ofList, ← toList_join_text,
    ← Tree.components_eq_map]
  rfl

theorem map_text_selectorEvents (pos : Nat) (items : List (List Tree × Tree)) :
    (selectorEvents pos items).map Event.text = items.map fun s => handed s.1 := by
  induction items generalizing pos with
  | nil => rfl
  | cons s items ih =>
    rw [selectorEvents, List.map_cons, ih, text_selectorEvent, List.map_cons]

/-- Phrases without events are white space and semicolons, or halves of comment marks. -/
theorem filling_of_outlinesAt (hderives : ∀ p ∈ ps, Derives ctx p)
    (hmarks : ctx = .rules → ∀ t ∈ treesOf ps, t.token ∉ [.semicolon, .commentOpen, .commentClose])
    (h : outlinesAt pos ps = []) :
    ∀ t ∈ treesOf ps, t.isWhite = true ∨ t.token = .semicolon := by
  induction ps generalizing pos with
  | nil => simp
  | cons p ps ih =>
    rw [outlinesAt, List.append_eq_nil_iff] at h
    obtain ⟨hp, hps⟩ := h
    have hrest := ih (fun q hq => hderives q (List.mem_cons_of_mem p hq))
      (fun hctx t ht => hmarks hctx t (by simp [ht])) hps
    have hfirst := hderives p List.mem_cons_self
    cases p with
    | filler t =>
      rw [Phrase.treesOf_cons, Phrase.trees, List.singleton_append, List.forall_mem_cons]
      refine ⟨?_, hrest⟩
      cases hfirst with
      | white token => exact .inl (by rw [Tree.isWhite, token]; rfl)
      | semicolon token => exact .inr token
      | mark token =>
        have hnot := hmarks rfl t (by simp [Phrase.trees])
        simp only [List.mem_cons, List.not_mem_nil, or_false] at hnot
        exact absurd (.inr token) hnot
    | comment | declaration | statement | block | ruleset => simp [Phrase.outlineAt] at hp

/-- A phrase with which comments and a rule begin is a gap, or it is the rule. -/
theorem isGap_or_ruleset {p : Phrase} {rest : List Node} (hp : Derives .rules p)
    (hmarks : ∀ t ∈ p.trees, t.token ∉ [.semicolon, .commentOpen, .commentClose])
    (h : p.outlineAt pos ++ rest = comments.map .comment ++ [.ruleset earlier last [] stop]) :
    (∃ t, p.trees = [t] ∧ Tree.isGap t = true ∧
      ∃ more : List Event, rest = more.map .comment ++ [.ruleset earlier last [] stop]) ∨
    ∃ items final head body close, p = .ruleset items final head body close ∧ rest = [] ∧
      (earlier ++ [last]).map Event.text = (items.map Prod.fst ++ [final]).map handed ∧
      ∃ start, outlinesAt start body = [] := by
  cases p with
  | filler t =>
    refine .inl ⟨t, rfl, ?_, comments, h⟩
    have hnot := hmarks t (by simp [Phrase.trees])
    cases hp with
    | white token => rw [Tree.isGap, token]; rfl
    | semicolon token => simp [token] at hnot
    | mark token => rcases token with token | token <;> simp [token] at hnot
  | comment t =>
    cases comments with
    | nil => simp [Phrase.outlineAt] at h
    | cons e comments =>
      refine .inl ⟨t, rfl, ?_, comments, (List.cons.inj h).2⟩
      cases hp with
      | comment token => rw [Tree.isGap, token]; rfl
  | ruleset items final head body close =>
    cases comments with
    | cons e comments => simp [Phrase.outlineAt] at h
    | nil =>
      rw [Phrase.outlineAt, List.singleton_append, List.map_nil, List.nil_append] at h
      obtain ⟨hrule, hrest⟩ := List.cons.inj h
      obtain ⟨rfl, rfl, hbody, -⟩ := Node.ruleset.inj hrule
      refine .inr ⟨items, final, head, body, close, rfl, hrest, ?_, _, hbody⟩
      simp [map_text_selectorEvents, text_selectorEvent]
  | declaration => cases hp
  | statement | block =>
    cases comments <;> simp [Phrase.outlineAt] at h

/-- Comments and a rule without a body are spelled with gaps, the selectors and an empty block. -/
theorem exists_trees_of_outlinesAt (hderives : ∀ p ∈ ps, Derives .rules p)
    (hmarks : ∀ t ∈ treesOf ps, t.token ∉ [.semicolon, .commentOpen, .commentClose])
    (h : outlinesAt pos ps = comments.map .comment ++ [.ruleset earlier last [] stop]) :
    ∃ lead items final head body close back,
      treesOf ps = lead ++ (listTrees items ++
        (final ++ .block head (treesOf body) close :: treesOf back)) ∧
      (∀ t ∈ lead, Tree.isGap t = true) ∧ Derives .rules (.ruleset items final head body close) ∧
      (earlier ++ [last]).map Event.text = (items.map Prod.fst ++ [final]).map handed ∧
      ∀ t ∈ treesOf body ++ treesOf back, t.isWhite = true ∨ t.token = .semicolon := by
  induction ps generalizing pos comments with
  | nil => simp [outlinesAt] at h
  | cons p ps ih =>
    have hfirst := hderives p List.mem_cons_self
    have hrest := fun q hq => hderives q (List.mem_cons_of_mem p hq)
    have hmarks' : ∀ t ∈ treesOf ps, t.token ∉ [.semicolon, .commentOpen, .commentClose] :=
      fun t ht => hmarks t (by simp [ht])
    rw [outlinesAt] at h
    rcases isGap_or_ruleset hfirst (fun t ht => hmarks t (by simp [ht])) h with
      ⟨t, ht, hgap, comments, h⟩ |
      ⟨items, final, head, body, close, rfl, hback, htexts, start, hbody⟩
    · obtain ⟨lead, items, final, head, body, close, back, htrees, hlead, hothers⟩ :=
        ih hrest hmarks' h
      exact ⟨t :: lead, items, final, head, body, close, back, by simp [ht, htrees],
        List.forall_mem_cons.2 ⟨hgap, hlead⟩, hothers⟩
    · refine ⟨[], items, final, head, body, close, ps, by simp [Phrase.trees], by simp, hfirst,
        htexts, ?_⟩
      have hfilling : ∀ t ∈ treesOf body, t.isWhite = true ∨ t.token = .semicolon := by
        cases hfirst with
        | ruleset _ _ _ _ _ derives => exact filling_of_outlinesAt derives (by simp) hbody
      exact List.forall_mem_append.2
        ⟨hfilling, filling_of_outlinesAt hrest (fun _ => hmarks') hback⟩

/-- Neither white space nor a semicolon holds a bracket. -/
theorem not_mem_rawOf_of_filling (h : Css.Stands w ended y ts)
    (hfilling : ∀ t ∈ ts, t.isWhite = true ∨ t.token = .semicolon) : '\x7b' ∉ rawOf ts := by
  intro hmem
  obtain ⟨t, ht, hc⟩ := Tree.mem_rawOf.1 hmem
  rcases hfilling t ht with hwhite | htoken
  · exact absurd (h.isSpace_of_isWhite ht hwhite _ hc) (by decide)
  · obtain ⟨l, rfl⟩ := h.bracketed.exists_leaf ht (by rw [htoken]; rfl)
    obtain ⟨z, hreads⟩ := h.reads_of_mem ht
    have hmark : markChar l.token = some ';' := by
      rw [show l.token = _ from htoken]
      rfl
    have hraw : l.raw = [';'] := Css.Reads.raw_of_mark hreads hmark
    simp [Tree.raw, Tree.lexemes, hraw] at hc

/-- A block of white space and semicolons, with more of them behind it, holds one opening bracket,
the first character. -/
theorem not_mem_behind {source : String} {head : Lexeme} {body back : List Tree}
    {close : Option Lexeme} (h : Within source pos (.block head body close :: back))
    (hcurly : isCurly (.block head body close) = true)
    (hfilling : ∀ t ∈ body ++ back, t.isWhite = true ∨ t.token = .semicolon) :
    head.raw = ['\x7b'] ∧
      '\x7b' ∉ rawOf body ++ close.toList.flatMap Lexeme.raw ++ rawOf back := by
  obtain ⟨_, _, _, heq, hopening, hclosing, -⟩ := h.exists_curly hcurly
  obtain ⟨rfl, rfl, rfl⟩ := Tree.block.inj heq
  obtain ⟨_, _, _, hstands⟩ := h.stands
  obtain ⟨_, _, _, hinside⟩ := hstands.inside
  refine ⟨hopening, ?_⟩
  rw [List.mem_append, List.mem_append]
  rintro ((hbody | hclose) | hback)
  · exact not_mem_rawOf_of_filling hinside
      (fun t ht => hfilling t (List.mem_append_left _ ht)) hbody
  · cases close with
    | none => simp at hclose
    | some l => simp [hclosing l rfl] at hclose
  · exact not_mem_rawOf_of_filling hstands.later
      (fun t ht => hfilling t (List.mem_append_right _ ht)) hback

/-- The trees of an empty rule: gaps in front, the selectors with their commas, and the block with
what may follow it. -/
structure SpellsRule (source : String) (lead : List Tree) (items : List (List Tree × Tree))
    (final : List Tree) (block : Tree) (back : List Tree) : Prop where
  trees_eq : Tree.ofText source.toList = lead ++ (listTrees items ++ (final ++ block :: back))
  gaps : ∀ t ∈ lead, Tree.isGap t = true
  selectors : ∀ vs ∈ items.map Prod.fst ++ [final], IsSelector vs
  commas : ∀ s ∈ items, isComma s.2 = true
  curly : isCurly block = true

/-- A list that begins an empty rule is made up of the trees in front of the block. -/
theorem exists_spellsRule {selectors : String} (hplain : ListsPlainly selectors)
    (herror : (events (emptyRule selectors)).error = none)
    (houtline : outline (emptyRule selectors) =
      comments.map .comment ++ [.ruleset earlier last [] stop]) :
    ∃ lead items final block back,
      SpellsRule (emptyRule selectors) lead items final block back ∧
      rawOf (lead ++ (listTrees items ++ final)) = selectors.toList ∧
      (earlier ++ [last]).map Event.text = (items.map Prod.fst ++ [final]).map handed := by
  obtain ⟨ps, hps⟩ := (Phrase.derivable_iff (by simp)).1 (Phrase.derivable_of_error herror)
  rw [Phrase.Spells.outline_eq hps] at houtline
  have hmarks := hplain.marks
  rw [← hps.trees_eq] at hmarks
  obtain ⟨lead, items, final, head, body, close, back, htrees, hlead, hrule, htexts, hfilling⟩ :=
    exists_trees_of_outlinesAt hps.derives hmarks houtline
  rw [hps.trees_eq] at htrees
  obtain ⟨hitems, hcommas, hfinal, hcurly⟩ : (∀ s ∈ items, IsSelector s.1) ∧
      (∀ s ∈ items, isComma s.2 = true) ∧ IsSelector final ∧ head.token = .opening .curly := by
    cases hrule with
    | ruleset selectors commas last _ curly => exact ⟨selectors, commas, last, curly⟩
  have hblock : isCurly (.block head (treesOf body) close) = true := by simp [isCurly, hcurly]
  refine ⟨lead, items, final, _, _, ⟨htrees, hlead, ?_, hcommas, hblock⟩, ?_, htexts⟩
  · refine List.forall_mem_append.2 ⟨?_, by simpa using hfinal⟩
    intro vs hvs
    obtain ⟨s, hs, rfl⟩ := List.mem_map.1 hvs
    exact hitems s hs
  · -- Nothing after the bracket of the block is one, so it is the bracket that was added.
    have hwithin : Within (emptyRule selectors) 0 (lead ++ (listTrees items ++
        (final ++ .block head (treesOf body) close :: treesOf back))) := htrees ▸ .text
    obtain ⟨hopening, hnot⟩ := not_mem_behind hwithin.drop.drop.drop hblock hfilling
    have hraw : rawOf (lead ++ (listTrees items ++ final)) ++ '\x7b' ::
        (rawOf (treesOf body) ++ close.toList.flatMap Lexeme.raw ++ rawOf (treesOf back)) =
          selectors.toList ++ '\x7b' :: ['\x7d'] := by
      have htext := Tree.rawOf_ofText (emptyRule selectors).toList
      rw [htrees] at htext
      simpa [emptyRule, raw_block, hopening] using htext
    exact (Text.append_cons_inj_of_not_mem_right hnot (by simp) hraw).1

/-! ## The parts of a list -/

/-- Whatever chain a selector has under the text that is handed on, a part of a list has it too. -/
def KeepsChain (part : List Char) (ts : List Tree) : Prop :=
  Text.trim (handed ts) = handed ts → ∀ chain, parse (handed ts) = .ok chain →
    (Text.trim (String.ofList part)).isEmpty = false ∧
      parse (Text.trim (String.ofList part)) = .ok chain

theorem trim_ofList (cs : List Char) :
    Text.trim (String.ofList cs) = String.ofList (Text.strip Text.isBlank cs) := by
  rw [Text.trim, Text.trimBy, String.toList_ofList]

/-- A selector with gaps in front of it, up to the mark that ends it. -/
theorem keepsChain_of_stands {lead vs : List Tree}
    (h : Css.Stands w ended y (lead ++ vs ++ t :: ts))
    (ht : isComma t = true ∨ endsPrelude t = true)
    (hlead : ∀ u ∈ lead, Tree.isGap u = true) (hselector : IsSelector vs)
    (hseam : Tree.seamless (lead ++ vs ++ t :: ts) = true) :
    KeepsChain (rawOf (lead ++ vs)) vs := by
  intro htrim chain hread
  obtain ⟨hstops, hne⟩ := stops_of_mark h.right.reads ht
  have hpart : Css.Stands w false (rawOf (t :: ts) ++ y) (lead ++ vs) :=
    ⟨(reads_lexemesOf_append_iff.1 h.reads).1, h.bracketed.left (List.cons_ne_nil t ts), hstops,
      by simp⟩
  have hsound : Phrase.Sound (lead ++ vs) := by
    refine List.forall_mem_append.2 ⟨fun u hu s => ?_, hselector.sound⟩
    have hgap := hlead u hu
    unfold Tree.isGap at hgap
    constructor <;> intro hbad <;> simp [hbad, Token.isWhitespace, Token.isComment] at hgap
  have htidy : tidy (lead ++ vs) = tidy vs := Tree.tidy_gaps_append hlead
  have hends : Text.strip Text.isBlank (rawOf (tidy (lead ++ vs))) = rawOf (tidy (lead ++ vs)) := by
    rw [htidy]
    rw [handed, trim_ofList] at htrim
    exact String.ofList_injective htrim
  have hseam' := seamless_left hseam
  rw [trim_ofList]
  refine ⟨?_, parse_strip hpart hne hsound hseam' hends (by rwa [htidy])⟩
  -- A trimmed text that is empty has no trees, but the selector has a component.
  rw [hpart.strip_rawOf hne hends]
  refine eq_false_of_ne_true fun hempty => ?_
  have hnil : Tree.trim (lead ++ vs) = [] := by
    have hraw : rawOf (Tree.trim (lead ++ vs)) = [] := by simpa using hempty
    rw [← hpart.ofText_trim hne hsound hseam', hraw]
    simp [Tree.ofText, Tree.forest, Tree.grow, Tree.unwind]
  have hcomponents := hselector.components_ne_nil
  rw [Tree.components_eq_map, ← htidy, ← Tree.tidy_trim, hnil] at hcomponents
  exact absurd hcomponents (by decide)

theorem token_of_isComma (h : isComma t = true) : t.token = .comma := by
  cases t with
  | leaf l => exact beq_iff_eq.1 h
  | block => exact absurd h Bool.false_ne_true

theorem raw_of_isComma (h : Css.Reads (lexemesOf (t :: ts)) y) (ht : isComma t = true) :
    t.raw = [','] := by
  cases t with
  | leaf l =>
    rw [Tree.lexemesOf_cons, Tree.lexemes, List.singleton_append, reads_cons_iff] at h
    have hmark : markChar l.token = some ',' := by
      rw [show l.token = _ from token_of_isComma ht]
      rfl
    simp [Tree.raw, Tree.lexemes, h.1.raw_of_mark hmark]
  | block => exact absurd ht Bool.false_ne_true

theorem comma_not_mem_rawOf {lead vs : List Tree} (hlead : ∀ u ∈ lead, Tree.isGap u = true)
    (hselector : IsSelector vs)
    (hplain : ∀ u ∈ lead ++ vs, isComma u = true ∨ ',' ∉ u.raw) : ',' ∉ rawOf (lead ++ vs) := by
  intro hmem
  obtain ⟨u, hu, hc⟩ := Tree.mem_rawOf.1 hmem
  have hcomma := (hplain u hu).resolve_right (not_not_intro hc)
  rcases List.mem_append.1 hu with hu | hu
  · have hgap := hlead u hu
    simp [Tree.isGap, token_of_isComma hcomma, Token.isWhitespace, Token.isComment] at hgap
  · have hunended := hselector.unended u hu
    simp [Tree.endsSelector, hcomma] at hunended

/-- A list is cut at every comma that parts two selectors, and nowhere else. -/
theorem forall₂_keepsChain {lead final back : List Tree} {items : List (List Tree × Tree)}
    {block : Tree}
    (h : Css.Stands w ended y (lead ++ (listTrees items ++ (final ++ block :: back))))
    (hlead : ∀ u ∈ lead, Tree.isGap u = true)
    (hselectors : ∀ vs ∈ items.map Prod.fst ++ [final], IsSelector vs)
    (hcommas : ∀ s ∈ items, isComma s.2 = true) (hblock : isCurly block = true)
    (hseam : Tree.seamless (lead ++ (listTrees items ++ (final ++ block :: back))) = true)
    (hplain : ∀ u ∈ lead ++ (listTrees items ++ final), isComma u = true ∨ ',' ∉ u.raw) :
    List.Forall₂ KeepsChain ((rawOf (lead ++ (listTrees items ++ final))).splitOn ',')
      (items.map Prod.fst ++ [final]) := by
  induction items generalizing lead with
  | nil =>
    rw [Phrase.listTrees_nil, List.nil_append] at h hseam hplain ⊢
    have hfinal : IsSelector final := hselectors final (by simp)
    rw [← List.append_assoc] at h hseam
    rw [List.splitOn_eq_singleton (comma_not_mem_rawOf hlead hfinal hplain)]
    exact .cons (keepsChain_of_stands h (.inr (by simp [endsPrelude, hblock])) hlead hfinal hseam)
      .nil
  | cons s items ih =>
    obtain ⟨vs, comma⟩ := s
    have hcomma : isComma comma = true := hcommas (vs, comma) List.mem_cons_self
    have hvs : IsSelector vs := hselectors vs (by simp)
    -- The selector at the head, with what stands in front of it, and the list behind its comma.
    have hhead : ∀ ts, lead ++ (listTrees ((vs, comma) :: items) ++ ts) =
        lead ++ vs ++ comma :: ([] ++ (listTrees items ++ ts)) := by simp
    rw [hhead] at h hseam hplain ⊢
    have hbehind : Css.Stands w ended y ([] ++ (listTrees items ++ (final ++ block :: back))) :=
      h.right.later
    have hseam' : Tree.seamless ([comma] ++ ([] ++ (listTrees items ++ (final ++ block :: back))))
        = true := seamless_append hseam
    have hrest := ih hbehind (by simp) (fun us hus => hselectors us (List.mem_cons_of_mem vs hus))
      (fun s hs => hcommas s (List.mem_cons_of_mem _ hs)) (seamless_append hseam')
      (fun u hu => hplain u (List.mem_append_right _ (List.mem_cons_of_mem comma hu)))
    have hfirst : ',' ∉ rawOf (lead ++ vs) :=
      comma_not_mem_rawOf hlead hvs fun u hu => hplain u (List.mem_append_left _ hu)
    rw [Tree.rawOf_append, Tree.rawOf_cons, raw_of_isComma h.right.reads hcomma,
      List.singleton_append,
      List.splitOn_append_cons_self_of_not_mem hfirst]
    exact .cons (keepsChain_of_stands h (.inl hcomma) hlead hvs hseam) hrest

/-- Parts that keep the chains of their selectors have these chains, and none of them is empty. -/
theorem map_parse_of_forall₂ {parts : List (List Char)} {selectors : List (List Tree)}
    {chains : List Chain} (h : List.Forall₂ KeepsChain parts selectors)
    (htrim : ∀ ts ∈ selectors, Text.trim (handed ts) = handed ts)
    (hread : (selectors.map handed).map parse = chains.map .ok) :
    ((parts.map fun part => Text.trim (.ofList part)).filter (!·.isEmpty)).map parse
      = chains.map .ok := by
  induction h generalizing chains with
  | nil => simpa using hread
  | @cons part ts parts selectors hpart _ ih =>
    cases chains with
    | nil => simp at hread
    | cons chain chains =>
      rw [List.map_cons, List.map_cons, List.map_cons] at hread
      obtain ⟨hchain, hread⟩ := List.cons.inj hread
      obtain ⟨hempty, hparse⟩ := hpart (htrim ts List.mem_cons_self) chain hchain
      rw [List.map_cons, List.filter_cons_of_pos (by simp [hempty]), List.map_cons, hparse,
        ih (fun us hus => htrim us (List.mem_cons_of_mem ts hus)) hread, List.map_cons]

/-- A list of selectors gives the compounds of the selectors of the rule that it begins, in order,
if every comma in it parts two selectors and these stay what they are when they are tidied or
trimmed. -/
theorem ofSelectors_of_outline {selectors : String} {chains : List Chain}
    (hplain : ListsPlainly selectors) (herror : (events (emptyRule selectors)).error = none)
    (houtline : outline (emptyRule selectors) =
      comments.map .comment ++ [.ruleset earlier last [] stop])
    (hread : (earlier ++ [last]).map (fun e => parse e.text) = chains.map .ok) :
    Nodes.ofSelectors [selectors] = .ok chains.flatten := by
  obtain ⟨lead, items, final, block, back, hspells, hraw, htexts⟩ :=
    exists_spellsRule hplain herror houtline
  have hparts : List.Forall₂ KeepsChain (selectors.toList.splitOn ',')
      (items.map Prod.fst ++ [final]) := by
    have hstands : Css.Stands none true [] (Tree.ofText (emptyRule selectors).toList) := by
      refine ⟨?_, Tree.bracketed_forest _, stops_nil, fun _ => rfl⟩
      rw [Tree.ofText, Tree.forest_lexemes]
      exact reads_lexemes _
    have hseam := hplain.seamless
    have hcommas := hplain.commas
    rw [hspells.trees_eq] at hstands hseam hcommas
    rw [← hraw]
    refine forall₂_keepsChain hstands hspells.gaps hspells.selectors hspells.commas hspells.curly
      hseam fun u hu => hcommas u ?_
    rw [List.mem_append, List.mem_append] at hu ⊢
    exact hu.imp_right fun hu => hu.imp_right (List.mem_append_left _)
  have htrim : ∀ ts ∈ items.map Prod.fst ++ [final], Text.trim (handed ts) = handed ts := by
    intro ts hts
    obtain ⟨e, he, htext⟩ := List.mem_map.1 (htexts ▸ List.mem_map_of_mem hts)
    rw [← htext]
    refine hplain.ends e ?_
    rw [← outline_events herror, houtline, Node.eventsIn_append]
    have hmem : e ∈ earlier ∨ e = last := by simpa using he
    rcases hmem with he | rfl <;> simp [*]
  rw [Nodes.ofSelectors, nodesOfParts_ok_iff]
  refine ⟨chains, ?_, rfl⟩
  rw [List.flatMap_singleton, listed]
  exact map_parse_of_forall₂ hparts htrim (by rw [← htexts, List.map_map]; exact hread)

theorem ofSelectors_of_outline_two_selectors :
    let selectors := "Li .x,/**/c>[d] "
    let chains : List Chain := [[.ofTag "li", ⟨none, none, .ofList ["x"], ∅, [], []⟩],
      [.ofTag "c", ⟨none, none, ∅, .ofList ["d"], [], []⟩]]
    ListsPlainly selectors ∧ Nodes.ofSelectors [selectors] = .ok chains.flatten := by
  intro selectors chains
  have hplain : ListsPlainly selectors :=
    ⟨by decide +kernel, by decide +kernel, by decide +kernel, by decide +kernel⟩
  let first : Event := ⟨.selector, "Li .x", ["Li", " ", ".", "x"], ⟨0, 5⟩⟩
  let last : Event := ⟨.rulesetStart, "/**/c>[d]", ["c", ">", "[d]"], ⟨6, 15⟩⟩
  let stop : Event := ⟨.rulesetEnd, "\x7d", [], ⟨17, 18⟩⟩
  have hevents : events (emptyRule selectors) = ⟨[first, last, stop], none⟩ := by decide +kernel
  have houtline : outline (emptyRule selectors) =
      [].map .comment ++ [.ruleset [first] last [] stop] := by
    rw [outline, hevents]
    rfl
  have hread : ([first] ++ [last]).map (fun e => parse e.text) = chains.map .ok := by
    have hfirst : parse first.text = .ok chains[0] := Purge.ok_of_toOption (by decide +kernel)
    have hlast : parse last.text = .ok chains[1] := Purge.ok_of_toOption (by decide +kernel)
    exact congrArg₂ List.cons hfirst (congrArg₂ List.cons hlast rfl)
  exact ⟨hplain, ofSelectors_of_outline hplain (by rw [hevents]) houtline hread⟩

/-- A comma between arguments tears the selector apart, so that what is behind it cannot be read. A
comma in a string can part what is read as two selectors. -/
theorem not_ofSelectors_arguments :
    let rule := fun selectors => (events (emptyRule selectors)).error = none ∧
      (events (emptyRule selectors)).events.map (fun e => (e.kind, e.text)) =
        [(.rulesetStart, selectors), (.rulesetEnd, "")]
    let chain := fun selectors => (parse selectors).toOption
    let nodes := fun selectors => (Nodes.ofSelectors [selectors]).toOption
    let carries := fun name => (⟨none, none, ∅, .ofList [name], [], []⟩ : Compound)
    (rule ":is(a, b)" ∧ chain ":is(a, b)" = some [⟨none, none, ∅, ∅, ["is"], []⟩] ∧
      nodes ":is(a, b)" = none) ∧
    (rule "[a=\",[b=\"]" ∧ chain "[a=\",[b=\"]" = some [carries "a"] ∧
      nodes "[a=\",[b=\"]" = some [carries "a", carries "b"]) := by
  decide +kernel

end

end StyleSieve.Usage
