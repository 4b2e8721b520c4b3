import StyleSieve.Proofs.Css.Origin
import StyleSieve.Proofs.Purge.Canonical
import StyleSieve.Proofs.Text.Words

/-!
# Rewriting phrases

What a purge keeps of phrases is canonical (`canonical_ofPhrases`), provided that nothing is left
open in them and that they keep their tokens when they are written anew. The conditions are those of
`seamless` and `plainFonts`.
-/

namespace StyleSieve.Purge

open Css
open Css.Phrase (Sound IsSelector Derives Joined beginsRule treesOf)
open Css.Tree (isSemicolon isColon isComma isCurly isGap endsPrelude endsSelector rawOf lexemesOf
  tidy tidyAfter space Bracketed)

section

variable {j : Judge} {w : Option Bracket} {ctx : Context} {t : Tree} {ts us vs rest : List Tree}
  {y after : List Char} {s : String}

/-! ## Trees that leave nothing open -/

/-- Trees with all brackets closed, before a text that stops them. -/
structure Enclosed (w : Option Bracket) (after : List Char) (ts : List Tree) : Prop
    extends Stands w false after ts where
  nonempty : after ≠ []

theorem Enclosed.right (h : Enclosed w after (us ++ ts)) : Enclosed w after ts where
  toStands := h.toStands.right
  nonempty := h.nonempty

theorem Enclosed.left_reads (h : Enclosed w after (ts ++ us)) :
    Reads (lexemesOf ts) (rawOf us ++ after) :=
  (reads_lexemesOf_append_iff.1 h.reads).1

theorem Enclosed.left_bracketed (h : Enclosed w after (ts ++ us)) : Bracketed w false ts :=
  h.bracketed.closed_left

/-- A curly block has its other bracket, and what stands inside is closed too. -/
theorem Enclosed.inside {head : Lexeme} {body : List Tree} {close : Option Lexeme}
    (h : Enclosed w after (.block head body close :: ts)) (hcurly : head.token = .opening .curly) :
    ∃ l after', close = some l ∧ l.token = .closing .curly ∧
      Enclosed (some .curly) after' body := by
  have hbracketed := h.bracketed
  have hreads := h.reads
  cases hbracketed with
  | @block _ _ _ l b _ _ opens closes inside _ =>
    obtain rfl : b = .curly := by
      rw [hcurly] at opens
      exact (Option.some.inj opens).symm
    rw [Tree.lexemesOf_cons, Tree.lexemes, Option.toList_some, List.cons_append, reads_cons_iff,
      reads_append_iff, reads_append_iff] at hreads
    obtain ⟨-, ⟨hbody, hclose⟩, -⟩ := hreads
    have htoken := Token.eq_closing closes
    have hraw : l.raw = ['\x7d'] := hclose.raw_of_mark (by rw [htoken]; rfl)
    rw [List.flatMap_singleton, hraw, List.singleton_append] at hbody
    exact ⟨l, _, rfl, htoken, ⟨hbody, inside, stops_cons.2 (.inl (by decide)), by simp⟩,
      List.cons_ne_nil _ _⟩

/-- Trees of which nothing is left open, so that a semicolon after them is read as one. -/
theorem enclosed_of_ofText (h : Tree.ofText (rawOf ts ++ [';']) = ts ++ [semicolonMark]) :
    Enclosed none [';'] ts where
  reads := by
    have hlexemes := congrArg lexemesOf h
    rw [Tree.ofText, Tree.forest_lexemes, Tree.lexemesOf_append] at hlexemes
    have hmark := reads_semicolonMark []
    rw [Reads, List.append_nil, lexemes_nil, List.append_nil] at hmark
    rw [Reads]
    exact hlexemes.trans (congrArg _ hmark.symm)
  bracketed := by
    have hbracketed : Bracketed none true (Tree.ofText (rawOf ts ++ [';'])) :=
      Tree.bracketed_forest _
    rw [h] at hbracketed
    exact hbracketed.left (List.cons_ne_nil _ _)
  stops := stops_cons.2 (.inl (by decide))
  ended := by simp
  nonempty := List.cons_ne_nil _ _

/-- What comes next stops the trees before it. -/
structure Halted (after : List Char) (rest : List Tree) : Prop where
  stops : Stops (rawOf rest ++ after)
  nonempty : rawOf rest ++ after ≠ []

/-- A comma, a semicolon and a curly block stop what stands before them. -/
theorem Enclosed.halted (h : Enclosed w after (vs ++ rest))
    (hrest : ∀ t ∈ rest.head?, isComma t = true ∨ endsPrelude t = true) : Halted after rest := by
  cases rest with
  | nil => exact ⟨h.stops, h.nonempty⟩
  | cons t rest =>
    obtain ⟨hstops, hne⟩ := stops_of_mark h.right.reads (hrest t rfl)
    exact ⟨hstops, hne⟩

/-- White space and comments stop what stands before them as well. -/
theorem Enclosed.halted_gap (h : Enclosed w after (vs ++ (us ++ rest)))
    (hus : ∀ t ∈ us.head?, isGap t = true) (hrest : Halted after rest) :
    Halted after (us ++ rest) := by
  cases us with
  | nil => exact hrest
  | cons u us =>
    obtain ⟨hstops, hne, -⟩ := stops_of_gap h.right.reads (hus u rfl)
    exact ⟨hstops, hne⟩

/-! ## Firm trees -/

/-- Closed trees with a last one that is no white space are read before any barrier. -/
theorem firm_of_closed {run : List Tree} (h : Reads (lexemesOf (run ++ [t])) y)
    (hclosed : Bracketed w false [t]) (hwhite : t.isWhite = false) (hsound : Sound [t])
    (hback : t.token ≠ .delim '\\') (hstops : Stops y) (hne : y ≠ []) : Firm (run ++ [t]) := by
  intro d z hd
  refine h.exchange_closed hclosed hwhite hsound hback
    ⟨hstops, stops_cons.2 (.inl hd), isNewline_of_isBarrier hd⟩ (.inr ⟨hne, fun hspace => ?_⟩)
  rw [startsWith_cons, isSpace_of_isBarrier hd] at hspace
  contradiction

/-- Tidied trees are read before any barrier. -/
theorem Enclosed.firm_tidy (h : Enclosed w after (vs ++ rest)) (hrest : Halted after rest)
    (hsound : Sound vs) (hseam : Tree.seamless vs = true) : Firm (tidy vs) := by
  intro d z hd
  have htidied : Tidied w false (rawOf rest ++ after) (d :: z) vs :=
    ⟨h.left_reads, h.left_bracketed, hsound, hseam, by simp, fun hy => absurd hy hrest.nonempty⟩
  have hreads := htidied.reads_tidyAfter hrest.stops (stops_cons.2 (.inl hd))
    (isSpace_of_isBarrier hd) false false
  rwa [Tree.tidyAfter_false] at hreads

theorem Enclosed.bracketed_tidy (h : Enclosed w after (vs ++ rest)) :
    Bracketed w false (tidy vs) := by
  rw [← Tree.tidyAfter_false false]
  exact bracketed_tidyAfter false false h.left_bracketed

theorem forall_mem_tidy {P : Tree → Prop} (hspace : P space) (h : ∀ t ∈ ts, P t) :
    ∀ t ∈ tidy ts, P t := by
  intro t ht
  rw [← Tree.tidyAfter_false false] at ht
  rcases Tree.mem_tidyAfter ht with rfl | ⟨ht, -⟩
  · exact hspace
  · exact h t ht

theorem sound_tidy (h : Sound ts) : Sound (tidy ts) :=
  forall_mem_tidy (by simp [space, Tree.token]) h

/-! ## Keywords with their preludes -/

theorem isGap_of_tidy_nil (h : tidy ts = []) : ∀ t ∈ ts.head?, isGap t = true := by
  cases ts with
  | nil => simp
  | cons t ts =>
    rintro _ ⟨⟩
    refine eq_true_of_ne_false fun hgap => ?_
    rw [← Tree.tidyAfter_false false, Tree.tidyAfter_component hgap] at h
    simp at h

/-- Tidied trees do not begin with white space. -/
theorem startsWith_isSpace_tidy {c : Char} {z : List Char} (hreads : Reads (lexemesOf (tidy ts)) y)
    (hc : isSpace c = false) : startsWith isSpace (rawOf (tidy ts) ++ c :: z) = false := by
  have hgap := Tree.not_isGap_head_tidy ts
  generalize tidy ts = us at hreads hgap
  cases us with
  | nil => exact hc
  | cons u us =>
    have hu := hgap u rfl
    rw [isGap, Bool.or_eq_false_iff] at hu
    obtain ⟨d, v, hraw, hspace, -⟩ := exists_raw_eq_cons hreads
    rw [Tree.rawOf_cons, hraw]
    exact hspace.trans hu.1

theorem keepsHead_tidy {keyword : Tree} {prelude : List Tree}
    (h : keepsHead keyword prelude = true) : keepsHead keyword (tidy prelude) = true := by
  rw [keepsHead, Bool.and_eq_true] at h ⊢
  rw [Tree.tidy_tidy]
  exact ⟨Tree.seamless_tidy h.1, h.2⟩

/-- A keyword and a prelude as they are written anew. -/
theorem Enclosed.headed {keyword : Tree} {prelude : List Tree}
    (h : Enclosed w after (keyword :: (prelude ++ rest))) (htoken : keyword.token = .atKeyword s)
    (hsound : Sound prelude) (hunended : ∀ t ∈ prelude, endsPrelude t = false)
    (hrest : Halted after rest) (hseam : keepsHead keyword prelude = true) :
    Headed w keyword (tidy prelude) := by
  have hprelude : Enclosed w after (prelude ++ rest) := @Enclosed.right _ _ [keyword] _ h
  have hkeyword : Bracketed w false [keyword] := @Enclosed.left_bracketed _ [keyword] _ _ h
  have hreads : Reads (lexemesOf [keyword]) (rawOf (prelude ++ rest) ++ after) :=
    @Enclosed.left_reads _ [keyword] _ _ h
  have hwhite : keyword.isWhite = false := by rw [Tree.isWhite, htoken]; rfl
  have hsound' : Sound [keyword] := by
    intro t ht
    obtain rfl := List.mem_singleton.1 ht
    simp [htoken]
  rw [keepsHead, Bool.and_eq_true, Bool.or_eq_true] at hseam
  have hfirm : Firm (keyword :: spaced (tidy prelude)) := by
    have htidy := hprelude.firm_tidy hrest hsound hseam.1
    unfold spaced
    split
    · next hempty =>
      have hgap := isGap_of_tidy_nil (List.isEmpty_iff.1 hempty)
      obtain ⟨hstops, hne⟩ := @Enclosed.halted_gap _ _ [] _ _ hprelude hgap hrest
      exact (firm_of_closed hreads hkeyword hwhite hsound' (by simp [htoken]) hstops hne :
        Firm ([] ++ [keyword]))
    · next hempty =>
      have hleaves := hseam.2.resolve_left hempty
      obtain ⟨l, rfl⟩ := hkeyword.exists_leaf List.mem_cons_self (by rw [htoken]; rfl)
      intro d z hd
      refine reads_cons ?_ (reads_cons (reads_space ?_) (htidy d z hd))
      · exact reads_of_leavesSpace hkeyword hwhite hsound' hleaves _ l rfl
      · exact startsWith_isSpace_tidy (htidy d z hd) (isSpace_of_isBarrier hd)
  have hbracketed : Bracketed w false (spaced (tidy prelude)) := by
    unfold spaced
    split
    · exact .nil
    · exact bracketed_space hprelude.bracketed_tidy
  exact {
    keyword_token := ⟨s, htoken⟩
    sound := sound_tidy hsound
    unended := forall_mem_tidy rfl hunended
    tidied := Tree.tidy_tidy prelude
    seam := keepsHead_tidy (by rw [keepsHead, Bool.and_eq_true, Bool.or_eq_true]; exact hseam)
    firm := hfirm
    bracketed := hkeyword.append hbracketed }

/-! ## Selectors -/

theorem mem_tidyAfter_of_mem {started gap : Bool} (ht : t ∈ ts) (hgap : isGap t = false) :
    t ∈ tidyAfter started gap ts := by
  induction ts generalizing started gap with
  | nil => simp at ht
  | cons u ts ih =>
    rcases List.mem_cons.1 ht with rfl | ht
    · rw [Tree.tidyAfter_component hgap]
      exact List.mem_append_right _ List.mem_cons_self
    · cases hu : isGap u with
      | true =>
        obtain ⟨gap', hnext⟩ := Tree.tidyAfter_gap_cons hu started gap ts
        rw [hnext]
        exact ih ht
      | false =>
        rw [Tree.tidyAfter_component hu]
        exact List.mem_append_right _ (List.mem_cons_of_mem u (ih ht))

theorem isSelector_tidy (h : IsSelector vs) : IsSelector (tidy vs) where
  sound := sound_tidy h.sound
  unended := forall_mem_tidy rfl h.unended
  component := by
    obtain ⟨t, ht, hgap⟩ := h.component
    refine ⟨t, ?_, hgap⟩
    rw [← Tree.tidyAfter_false false]
    exact mem_tidyAfter_of_mem ht hgap

theorem beginsRule_of_parts {stop : Nat} {p : Selector.Placed} {ps : List Selector.Placed}
    {xs : List Selector.Part} (h : Selector.parts stop (p :: ps) = .ok xs)
    (hwhite : p.tree.isWhite = false) : beginsRule p.tree = true := by
  rw [Tree.isWhite] at hwhite
  unfold Selector.parts at h
  unfold beginsRule
  split at h <;> simp_all [Token.isWhitespace]

/-- Trees that are read as a selector begin as a rule may. -/
theorem beginsRule_of_parseTrees {chain : Selector.Chain}
    (h : Selector.parseTrees (t :: ts) = .ok chain) (hgap : isGap t = false) :
    beginsRule t = true := by
  rw [isGap, Bool.or_eq_false_iff] at hgap
  rw [Selector.parseTrees, Selector.placed, if_neg (by simp [hgap.2])] at h
  dsimp only at h
  generalize hparts : Selector.parts _ _ = parts at h
  cases parts with
  | error fault => cases h
  | ok xs => exact beginsRule_of_parts hparts hgap.1

theorem keepsSelector_tidy (vs : List Tree) : j.keepsSelector (tidy vs) = j.keepsSelector vs := by
  rw [Judge.keepsSelector, Judge.keepsSelector, Judge.keeps, Judge.keeps, selectorEvent,
    selectorEvent, Event.text, Event.text, Tree.components_tidy]

theorem exists_parse_of_keeps (h : j.keepsSelector vs = true) :
    ∃ chain, Selector.parseTrees (Tree.ofText (rawOf (tidy vs))) = .ok chain := by
  have htext : (selectorEvent .selector 0 vs).text.toList = rawOf (tidy vs) := by
    rw [selectorEvent, Event.text, Tree.components_eq_map, toList_join_text]
  rw [Judge.keepsSelector, Judge.keeps, Selector.parse, htext] at h
  split at h
  · next chain hchain => exact ⟨chain, hchain⟩
  · exact absurd h Bool.false_ne_true

/-- A kept selector as it is written anew. -/
theorem Enclosed.selected (h : Enclosed w after (vs ++ rest)) (hselector : IsSelector vs)
    (hrest : Halted after rest) (hseam : Tree.seamless vs = true)
    (hkeeps : j.keepsSelector vs = true) : Selected j w (tidy vs) := by
  have htidied : Tidied w false (rawOf rest ++ after) [] vs :=
    ⟨h.left_reads, h.left_bracketed, hselector.sound, hseam, by simp,
      fun hy => absurd hy hrest.nonempty⟩
  have hbegins : ∀ t ∈ (tidy vs).head?, beginsRule t = true := by
    obtain ⟨chain, hchain⟩ := exists_parse_of_keeps hkeeps
    rw [htidied.ofText_rawOf hrest.stops] at hchain
    have hgap := Tree.not_isGap_head_tidy vs
    generalize tidy vs = us at hchain hgap
    cases us with
    | nil => simp
    | cons u us =>
      rintro _ ⟨⟩
      exact beginsRule_of_parseTrees hchain (hgap u rfl)
  exact {
    toIsSelector := isSelector_tidy hselector
    keeps := by rwa [keepsSelector_tidy]
    begins := hbegins
    tidied := Tree.tidy_tidy vs
    seam := Tree.seamless_tidy hseam
    firm := h.firm_tidy hrest hselector.sound hseam
    bracketed := h.bracketed_tidy }

/-! ## Values -/

theorem isSemicolon_space : isSemicolon space = false := rfl

theorem mem_of_mem_trim (h : t ∈ Tree.trim ts) : t ∈ ts := by
  obtain ⟨before, after, hsplit, -⟩ := Tree.exists_trim ts
  rw [hsplit]
  exact List.mem_append_left _ (List.mem_append_right _ h)

theorem forall_mem_writtenValue {name : Tree} {P : Tree → Prop} (hspace : P space)
    (h : ∀ t ∈ vs, P t) : ∀ t ∈ writtenValue name vs, P t := by
  unfold writtenValue
  split
  · exact fun t ht => h t (mem_of_mem_trim ht)
  · exact forall_mem_tidy hspace h

theorem writtenValue_writtenValue (name : Tree) (vs : List Tree) :
    writtenValue name (writtenValue name vs) = writtenValue name vs := by
  unfold writtenValue
  split
  · exact Tree.trim_trim vs
  · exact Tree.tidy_tidy vs

theorem keepsEnds_trim (h : keepsEnds vs = true) : keepsEnds (Tree.trim vs) = true := by
  rw [keepsEnds, Bool.and_eq_true, beq_iff_eq] at h ⊢
  rw [Tree.trim_trim]
  refine ⟨?_, h.2⟩
  rw [← h.1, Text.strip_strip]

theorem keepsValue_writtenValue {name : Tree} (h : keepsValue name vs = true) :
    keepsValue name (writtenValue name vs) = true := by
  rw [keepsValue] at h ⊢
  unfold writtenValue
  split at h
  · next hname =>
    rw [if_pos hname, if_pos hname]
    exact keepsEnds_trim h
  · next hname =>
    rw [if_neg hname, if_neg hname]
    exact Tree.seamless_tidy h

/-- What is left of a value as written is read before any barrier. -/
theorem Enclosed.firm_trim (h : Enclosed w after (vs ++ rest)) (hrest : Halted after rest)
    (hsound : Sound vs) (hends : keepsEnds vs = true) : Firm (Tree.trim vs) := by
  rw [keepsEnds, Bool.and_eq_true] at hends
  have hvs : Stands w false (rawOf rest ++ after) vs := h.toStands.left hrest.stops
  intro d z hd
  exact hvs.exchange_trim hrest.nonempty hsound
    (fun t ht => by simpa [Option.mem_def.1 ht] using hends.2) (stops_cons.2 (.inl hd))
    (isSpace_of_isBarrier hd)

theorem Enclosed.firm_writtenValue {name : Tree} (h : Enclosed w after (vs ++ rest))
    (hrest : Halted after rest) (hsound : Sound vs) (hseam : keepsValue name vs = true) :
    Firm (writtenValue name vs) := by
  rw [keepsValue] at hseam
  unfold writtenValue
  split
  · next hname => exact h.firm_trim hrest hsound (by rwa [if_pos hname] at hseam)
  · next hname => exact h.firm_tidy hrest hsound (by rwa [if_neg hname] at hseam)

theorem Enclosed.bracketed_writtenValue (h : Enclosed w after (vs ++ rest)) (name : Tree) :
    Bracketed w false (writtenValue name vs) := by
  unfold writtenValue
  split
  · obtain ⟨before, behind, hsplit, -⟩ := Tree.exists_trim vs
    have hvs := h.left_bracketed
    rw [hsplit] at hvs
    exact hvs.closed_left.right
  · exact h.bracketed_tidy

theorem isColon_eq_leaf {colon : Tree} (h : isColon colon = true) :
    markChar colon.token = some ':' := by
  cases colon with
  | leaf l => rw [Tree.token, beq_iff_eq.1 h]; rfl
  | block => exact absurd h Bool.false_ne_true

/-- A declaration as it is written anew. -/
theorem Enclosed.declared {name colon : Tree} {gap : List Tree}
    (h : Enclosed w after (name :: (gap ++ colon :: (vs ++ rest))))
    (htoken : name.token = .ident s) (hgap : ∀ t ∈ gap, isGap t = true)
    (hcolon : isColon colon = true) (hsound : Sound vs)
    (hunended : ∀ t ∈ vs, isSemicolon t = false) (hrest : Halted after rest)
    (hseam : keepsValue name vs = true) :
    Canonical j w .declarations (.declaration name (writtenValue name vs)) := by
  have hcolons : Enclosed w after (colon :: (vs ++ rest)) :=
    @Enclosed.right _ _ (name :: gap) _ h
  have hvalue : Enclosed w after (vs ++ rest) := @Enclosed.right _ _ [colon] _ hcolons
  have hname : Bracketed w false [name] := @Enclosed.left_bracketed _ [name] _ _ h
  have hstop : Halted after (colon :: (vs ++ rest)) := by
    obtain ⟨u, hraw⟩ := exists_raw_of_mark hcolons.reads (isColon_eq_leaf hcolon)
    constructor <;> rw [Tree.rawOf_cons, hraw]
    · exact stops_cons.2 (.inl (by decide))
    · exact List.cons_ne_nil _ _
  have hend : Halted after (gap ++ colon :: (vs ++ rest)) :=
    @Enclosed.halted_gap _ _ [name] _ _ h (fun t ht => hgap t (List.mem_of_mem_head? ht)) hstop
  have hsingle : Sound [name] := by
    intro t ht
    obtain rfl := List.mem_singleton.1 ht
    simp [htoken]
  refine .declaration htoken ?_ (forall_mem_writtenValue (by simp [space, Tree.token]) hsound)
    (forall_mem_writtenValue isSemicolon_space hunended) (writtenValue_writtenValue name vs)
    (keepsValue_writtenValue hseam) (hvalue.firm_writtenValue hrest hsound hseam) ?_
  · have hwhite : name.isWhite = false := by rw [Tree.isWhite, htoken]; rfl
    exact (firm_of_closed (@Enclosed.left_reads _ [name] _ _ h) hname hwhite hsingle
      (by simp [htoken]) hend.stops hend.nonempty : Firm ([] ++ [name]))
  · exact hname.append (bracketed_leaf rfl rfl (hvalue.bracketed_writtenValue name))

/-! ## Fonts -/

theorem familyTold_writtenValue {name : Tree} (h : keepsValue name vs = true) (gap : List Tree)
    (colon : Tree) : familyTold (.declaration name [] colonMark (writtenValue name vs)) =
      familyTold (.declaration name gap colon vs) := by
  have hold := values_declarationEvent h ⟨0, 0⟩
  have hnew := values_declarationEvent (keepsValue_writtenValue h) ⟨0, 0⟩
  rw [writtenValue_writtenValue] at hnew
  rw [familyTold, familyTold, familyOf?, familyOf?, Event.text, Event.text, hold.1, hold.2, hnew.1,
    hnew.2]

theorem filterMap_familyTold_layOut (k : Piece) (ks : List Piece) :
    (Piece.layOut (k :: ks)).filterMap familyTold =
      (familyTold k.phrase).toList ++ (Piece.layOut ks).filterMap familyTold := by
  have htrailer : (k.trailer ks.isEmpty).filterMap familyTold = [] := by
    unfold Piece.trailer
    split <;> simp [familyTold]
  rw [Piece.layOut, List.filterMap_cons, List.filterMap_append, htrailer, List.nil_append]
  cases familyTold k.phrase <;> rfl

/-- The definition of a font is written anew with the same family. -/
theorem plain_ofPhrases {ps : List Phrase} (hplain : ps.all isPlainPhrase = true)
    (hseam : seamlessIn j ps = true) :
    (Piece.ofPhrases j ps).all Piece.isPlain = true ∧
      familyIn (Piece.layOut (Piece.ofPhrases j ps)) = familyIn ps := by
  suffices h : (Piece.ofPhrases j ps).all Piece.isPlain = true ∧
      (Piece.layOut (Piece.ofPhrases j ps)).filterMap familyTold = ps.filterMap familyTold by
    rw [familyIn, familyIn, h.2]
    exact ⟨h.1, rfl⟩
  induction ps with
  | nil =>
    rw [Piece.ofPhrases, Piece.layOut]
    exact ⟨rfl, rfl⟩
  | cons p ps ih =>
    rw [List.all_cons, Bool.and_eq_true] at hplain
    rw [seamlessIn, Bool.and_eq_true] at hseam
    obtain ⟨hall, hfamily⟩ := ih hplain.2 hseam.2
    have hvalue := hseam.1
    rw [Piece.ofPhrases]
    cases p with
    | filler t =>
      rw [Piece.ofPhrase, List.nil_append, List.filterMap_cons]
      exact ⟨hall, hfamily⟩
    | comment t =>
      rw [Piece.ofPhrase, List.filterMap_cons]
      split
      · refine ⟨hall, ?_⟩
        rw [List.singleton_append, filterMap_familyTold_layOut, hfamily]
        rfl
      · exact ⟨hall, hfamily⟩
    | declaration name gap colon value =>
      rw [seamless] at hvalue
      rw [Piece.ofPhrase, List.singleton_append, filterMap_familyTold_layOut, hfamily,
        Piece.phrase, familyTold_writtenValue hvalue gap colon, List.filterMap_cons]
      refine ⟨hall, ?_⟩
      cases familyTold (.declaration name gap colon value) <;> rfl
    | _ => simp [isPlainPhrase] at hplain

/-! ## Kept pieces are canonical -/

theorem Enclosed.comment (h : Enclosed w after (t :: ts)) (htoken : t.token = .comment s)
    (hkept : isKeptComment (commentEvent 0 t) = true) : Canonical j w ctx (.comment t) := by
  have hreads : Reads (lexemesOf [t]) (rawOf ts ++ after) := @Enclosed.left_reads _ [t] _ _ h
  obtain ⟨l, rfl⟩ := h.bracketed.exists_leaf List.mem_cons_self (by rw [htoken]; rfl)
  have hl : l.token = .comment s := htoken
  refine .comment htoken hkept (fun z => ?_) fun w' => ?_
  · exact hreads.of_closed_comment (by rw [hl]; rfl) (by simp [h.nonempty]) z
  · exact bracketed_leaf (by rw [hl]; rfl) (by rw [hl]; rfl) .nil

/-- A comment may stand anywhere. -/
theorem Canonical.anywhere {k : Piece} (h : Canonical j w .rules k)
    (hk : k.holdsGroup = false) (w' : Option Bracket) (ctx' : Context) : Canonical j w' ctx' k := by
  cases h with
  | comment token kept reads bracketed => exact .comment token kept reads bracketed
  | _ => simp [Piece.holdsGroup] at hk

theorem holdsGroup_head_rest (ks : List Piece) :
    ∀ k ∈ (Piece.rest ks).head?, k.holdsGroup = true := by
  intro k hk
  have hnot := List.head?_dropWhile_not (!·.holdsGroup) ks
  rw [Piece.rest] at hk
  rw [Option.mem_def.1 hk] at hnot
  simpa using hnot

/-- What a conditional group leaves. -/
theorem canonical_group {keyword : Tree} {prelude : List Tree} {ks : List Piece}
    (hhead : (Piece.rest ks).isEmpty = false → Headed w keyword prelude)
    (hname : isKeyframes (atName keyword) = false)
    (hconditional : isConditional (atName keyword) = true)
    (hks : ∀ k ∈ ks, Canonical j (some .curly) (.ofAtRule keyword.text) k) :
    ∀ k ∈ Piece.group keyword prelude ks, Canonical j w ctx k := by
  rw [Piece.group]
  refine List.forall_mem_append.2 ⟨fun k hk => ?_, ?_⟩
  · have hmem : k ∈ ks := (List.takeWhile_sublist _).subset hk
    have hnot := List.all_eq_true.1 (List.all_takeWhile (p := (!Piece.holdsGroup ·)) (l := ks)) k hk
    have hcanonical := hks k hmem
    rw [Context.ofAtRule_of_isConditional hconditional] at hcanonical
    exact hcanonical.anywhere (by simpa using hnot) w ctx
  · split
    · simp
    · next hrest =>
      intro k hk
      obtain rfl := List.mem_singleton.1 hk
      refine .block (hhead (eq_false_of_ne_true hrest))
        (keepsBlock_iff.2 ⟨hname, fun _ => ?_, fun hface => ?_⟩) fun k hk =>
        hks k ((List.dropWhile_sublist _).subset hk)
      · obtain ⟨l, ls, hcons⟩ := List.exists_cons_of_ne_nil (mt List.isEmpty_iff.2 hrest)
        have hl := holdsGroup_head_rest ks l (by rw [hcons]; rfl)
        simpa [hcons] using hl
      · rw [not_isFontFace_of_isConditional hconditional] at hface
        exact absurd hface Bool.false_ne_true

theorem endsPrelude_curly {head : Lexeme} {body : List Tree} {close : Option Lexeme}
    (h : head.token = .opening .curly) : endsPrelude (.block head body close) = true := by
  simp [endsPrelude, isCurly, h]

/-- Nothing after the end of a block matters to what stands before it. -/
theorem reads_block_exchange {before body : List Tree} {head l : Lexeme}
    (h : Reads (lexemesOf (before ++ [.block head body (some l)])) y)
    (hl : l.token = .closing .curly) (z : List Char) :
    Reads (lexemesOf (before ++ [.block head body (some l)])) z := by
  have hsplit : lexemesOf (before ++ [.block head body (some l)]) =
      (lexemesOf before ++ head :: lexemesOf body) ++ [l] := by
    simp [Tree.lexemes]
  rw [hsplit] at h ⊢
  exact h.exchange_of_mark (d := '\x7d') (by rw [hl]; rfl) (by rw [hl]; rfl)

/-- The selectors of a rule as they are written anew. -/
theorem Enclosed.selections {earlier : List (List Tree × Tree)} {last : List Tree} {block : Tree}
    (h : Enclosed w after (Phrase.listTrees earlier ++ (last ++ block :: rest)))
    (hearlier : ∀ s ∈ earlier, IsSelector s.1) (hcommas : ∀ s ∈ earlier, isComma s.2 = true)
    (hlast : IsSelector last) (hblock : endsPrelude block = true)
    (hseam : ∀ vs ∈ (earlier.map Prod.fst ++ [last]).filter j.keepsSelector,
      Tree.seamless vs = true) :
    ∀ vs ∈ (earlier.map Prod.fst ++ [last]).filter j.keepsSelector, Selected j w (tidy vs) := by
  induction earlier with
  | nil =>
    intro vs hvs
    have hseam_vs := hseam vs hvs
    obtain ⟨hmem, hkeeps⟩ := List.mem_filter.1 hvs
    obtain rfl := List.mem_singleton.1 hmem
    rw [Phrase.listTrees_nil, List.nil_append] at h
    refine h.selected hlast (h.halted ?_) hseam_vs hkeeps
    rintro _ ⟨⟩
    exact .inr hblock
  | cons s earlier ih =>
    rw [Phrase.listTrees_cons, List.append_assoc, List.cons_append] at h
    rw [List.map_cons, List.cons_append, List.filter_cons] at hseam
    have hrest := ih (@Enclosed.right _ _ [s.2] _ h.right)
      (fun u hu => hearlier u (List.mem_cons_of_mem s hu))
      (fun u hu => hcommas u (List.mem_cons_of_mem s hu)) (fun vs hvs => hseam vs (by
        split
        · exact List.mem_cons_of_mem s.1 hvs
        · exact hvs))
    intro vs hvs
    rw [List.map_cons, List.cons_append, List.filter_cons] at hvs
    split at hvs
    · next hkeeps =>
      rw [if_pos hkeeps] at hseam
      rcases List.mem_cons.1 hvs with rfl | hvs
      · refine h.selected (hearlier s List.mem_cons_self) (h.halted ?_)
          (hseam s.1 List.mem_cons_self) hkeeps
        rintro _ ⟨⟩
        exact .inl (hcommas s List.mem_cons_self)
      · exact hrest vs hvs
    · exact hrest vs hvs

theorem canonical_rule {body : List Piece} {selectors : List (List Tree)}
    (hselectors : ∀ vs ∈ selectors, Selected j w vs)
    (hbody : ∀ k ∈ body, Canonical j (some .curly) .declarations k) :
    ∀ k ∈ Piece.rule body selectors, Canonical j w .rules k := by
  rw [Piece.rule]
  split
  · simp
  · next last earlier hsplit =>
    rw [List.reverse_eq_cons_iff] at hsplit
    rw [hsplit] at hselectors
    intro k hk
    obtain rfl := List.mem_singleton.1 hk
    refine .ruleset (fun vs hvs => ?_) ?_ hbody
    · exact hselectors vs (List.mem_append_left _ hvs)
    · exact hselectors last (List.mem_append_right _ List.mem_cons_self)

/-- A kept statement. A semicolon ends it, or the block around it. -/
theorem canonical_statement {keyword : Tree} {prelude : List Tree} {stop : Option Tree}
    {ps : List Phrase} (hderives : Derives ctx (.statement keyword prelude stop))
    (hprecede : (Phrase.statement keyword prelude stop).MayPrecede ps)
    (h : Enclosed w after ((Phrase.statement keyword prelude stop).trees ++ treesOf ps))
    (hseam : keepsHead keyword prelude = true) :
    Canonical j w ctx (.statement keyword (tidy prelude)) := by
  rw [Phrase.trees, List.cons_append, List.append_assoc] at h
  cases hderives with
  | statement token sound unended ended =>
    refine .statement (h.headed token sound unended ?_ hseam)
    refine @Enclosed.halted _ (keyword :: prelude) _ _ h ?_
    cases stop with
    | none =>
      have hnil : ps = [] := hprecede
      simp [hnil]
    | some t =>
      rintro _ ⟨⟩
      exact .inr (by simp [endsPrelude, ended t rfl])

/-- A kept declaration. A semicolon follows it, or nothing. -/
theorem canonical_declaration {name colon : Tree} {gap value : List Tree} {ps : List Phrase}
    (hderives : Derives ctx (.declaration name gap colon value))
    (hprecede : (Phrase.declaration name gap colon value).MayPrecede ps)
    (h : Enclosed w after ((Phrase.declaration name gap colon value).trees ++ treesOf ps))
    (hseam : keepsValue name value = true) :
    Canonical j w ctx (.declaration name (writtenValue name value)) := by
  rw [Phrase.trees, List.cons_append, List.append_assoc, List.cons_append] at h
  cases hderives with
  | declaration token blank colon_token sound unended =>
    refine h.declared token blank colon_token sound unended ?_ hseam
    refine @Enclosed.halted _ (name :: (gap ++ colon :: value)) _ _ (by simpa using h) ?_
    rcases hprecede with rfl | ⟨t, rest, rfl, ht⟩
    · simp
    · rw [Phrase.treesOf_cons, Phrase.trees]
      rintro _ ⟨⟩
      exact .inr (by simp [endsPrelude, ht])

/-- What is kept of an at-rule with a block, if what is kept inside is canonical. -/
theorem canonical_block {keyword : Tree} {prelude : List Tree} {head : Lexeme}
    {body : List Phrase} {close : Option Lexeme}
    (hderives : Derives ctx (.block keyword prelude head body close))
    (h : Enclosed w after ((Phrase.block keyword prelude head body close).trees ++ rest))
    (hseam : seamless j (.block keyword prelude head body close) = true)
    (hplain : plainFonts (.block keyword prelude head body close) = true)
    (hbody : seamlessIn j body = true →
      ∀ k ∈ Piece.ofPhrases j body, Canonical j (some .curly) (.ofAtRule keyword.text) k) :
    ∀ k ∈ Piece.ofPhrase j (.block keyword prelude head body close), Canonical j w ctx k := by
  have hruling := ruling_ofPhrase hseam
  have hall := h
  rw [Phrase.trees, List.cons_append, List.append_assoc, List.singleton_append] at h
  have hderives' := hderives
  cases hderives with
  | block token sound unended curly =>
    have hhead : keepsHead keyword prelude = true → Headed w keyword (tidy prelude) := by
      refine fun hkeeps => h.headed token sound unended ?_ hkeeps
      refine @Enclosed.halted _ (keyword :: prelude) _ _ h ?_
      rintro _ ⟨⟩
      exact .inr (endsPrelude_curly curly)
    generalize Piece.ofPhrase j (.block keyword prelude head body close) = ks at hruling ⊢
    cases hruling with
    | copied name wanted =>
      intro k hk
      obtain rfl := List.mem_singleton.1 hk
      obtain ⟨l, -, rfl, hl, -⟩ := (@Enclosed.right _ _ (keyword :: prelude) _ h).inside curly
      refine .copied name wanted hderives' hplain (fun z => ?_) hall.left_bracketed
      have hreads := hall.left_reads
      rw [Phrase.trees, ← List.cons_append] at hreads ⊢
      exact reads_block_exchange hreads hl z
    | unnamed | unused => simp
    | group name conditional inner headed =>
      exact canonical_group (fun hrest => hhead (headed hrest)) name conditional (hbody inner)
    | block name conditional wanted inner headed =>
      intro k hk
      obtain rfl := List.mem_singleton.1 hk
      refine .block (hhead headed) (keepsBlock_iff.2 ⟨name, fun hcond => ?_, fun hface => ?_⟩)
        (hbody inner)
      · rw [conditional] at hcond
        exact absurd hcond Bool.false_ne_true
      · rw [plainFonts, hface, Bool.not_true, Bool.false_or, Bool.and_eq_true] at hplain
        obtain ⟨hkept, hfamily⟩ := plain_ofPhrases (j := j) hplain.1 inner
        rw [hfamily]
        exact ⟨wanted hface, hkept⟩

/-- What is kept of a rule, if what is kept inside is canonical. -/
theorem canonical_ruleset {earlier : List (List Tree × Tree)} {last : List Tree} {head : Lexeme}
    {body : List Phrase} {close : Option Lexeme}
    (hderives : Derives ctx (.ruleset earlier last head body close))
    (h : Enclosed w after ((Phrase.ruleset earlier last head body close).trees ++ rest))
    (hseam : seamless j (.ruleset earlier last head body close) = true)
    (hbody : seamlessIn j body = true →
      ∀ k ∈ Piece.ofPhrases j body, Canonical j (some .curly) .declarations k) :
    ∀ k ∈ Piece.ofPhrase j (.ruleset earlier last head body close), Canonical j w ctx k := by
  rw [Phrase.trees, List.append_assoc, List.append_assoc, List.singleton_append] at h
  rw [seamless] at hseam
  rw [Piece.ofPhrase]
  cases hderives with
  | ruleset selectors commas hlast begins curly =>
    cases hempty : ((earlier.map Prod.fst ++ [last]).filter j.keepsSelector).isEmpty with
    | true =>
      rw [List.isEmpty_iff.1 hempty, List.map_nil]
      simp [Piece.rule]
    | false =>
      rw [hempty, Bool.false_or, Bool.and_eq_true, List.all_eq_true] at hseam
      have hkept := @Enclosed.selections j _ _ _ _ _ _ h selectors commas hlast
        (endsPrelude_curly curly) hseam.1
      refine canonical_rule (fun vs hvs => ?_) (hbody hseam.2)
      obtain ⟨us, hus, rfl⟩ := List.mem_map.1 hvs
      exact hkept us hus

mutual

/-- What is kept of a phrase is canonical. -/
theorem canonical_ofPhrase : ∀ (p : Phrase) (w : Option Bracket) (ctx : Context) (ps : List Phrase)
    (after : List Char), Derives ctx p → p.MayPrecede ps →
      Enclosed w after (p.trees ++ treesOf ps) → seamless j p = true → plainFonts p = true →
        ∀ k ∈ Piece.ofPhrase j p, Canonical j w ctx k
  | .filler t => by
    intro w ctx ps after _ _ _ _ _
    rw [Piece.ofPhrase]
    simp
  | .comment t => by
    intro w ctx ps after hderives _ h _ _
    rw [Phrase.trees, List.singleton_append] at h
    rw [Piece.ofPhrase]
    cases hderives with
    | comment token =>
      split
      · next hkept =>
        intro k hk
        obtain rfl := List.mem_singleton.1 hk
        exact h.comment token hkept
      · simp
  | .declaration name gap colon value => by
    intro w ctx ps after hderives hprecede h hseam _
    rw [seamless] at hseam
    rw [Piece.ofPhrase]
    intro k hk
    obtain rfl := List.mem_singleton.1 hk
    exact canonical_declaration hderives hprecede h hseam
  | .statement keyword prelude stop => by
    intro w ctx ps after hderives hprecede h hseam _
    rw [seamless] at hseam
    rw [Piece.ofPhrase]
    intro k hk
    obtain rfl := List.mem_singleton.1 hk
    exact canonical_statement hderives hprecede h hseam
  | .block keyword prelude head body close => by
    intro w ctx ps after hderives _ h hseam hplain
    refine canonical_block hderives h hseam hplain fun hinner => ?_
    rw [Phrase.trees, List.cons_append, List.append_assoc, List.singleton_append] at h
    rw [plainFonts, Bool.and_eq_true] at hplain
    cases hderives with
    | block token sound unended curly derives joined =>
      obtain ⟨_, _, -, -, hinside⟩ := (@Enclosed.right _ _ (keyword :: prelude) _ h).inside curly
      exact canonical_ofPhrases body _ _ _ derives joined hinside hinner hplain.2
  | .ruleset earlier last head body close => by
    intro w ctx ps after hderives _ h hseam hplain
    refine canonical_ruleset hderives h hseam fun hinner => ?_
    rw [Phrase.trees, List.append_assoc, List.append_assoc, List.singleton_append] at h
    rw [plainFonts] at hplain
    cases hderives with
    | ruleset selectors commas hlast begins curly derives joined =>
      obtain ⟨_, _, -, -, hinside⟩ := h.right.right.inside curly
      exact canonical_ofPhrases body _ _ _ derives joined hinside hinner hplain

/-- What is kept of phrases is canonical. -/
theorem canonical_ofPhrases : ∀ (ps : List Phrase) (w : Option Bracket) (ctx : Context)
    (after : List Char), (∀ p ∈ ps, Derives ctx p) → Joined ps → Enclosed w after (treesOf ps) →
      seamlessIn j ps = true → plainFontsIn ps = true →
        ∀ k ∈ Piece.ofPhrases j ps, Canonical j w ctx k
  | [] => by
    intro w ctx after _ _ _ _ _
    rw [Piece.ofPhrases]
    simp
  | p :: ps => by
    intro w ctx after hderives hjoined h hseam hplain
    rw [seamlessIn, Bool.and_eq_true] at hseam
    rw [plainFontsIn, Bool.and_eq_true] at hplain
    rw [Phrase.treesOf_cons] at h
    rw [Piece.ofPhrases]
    refine List.forall_mem_append.2 ⟨?_, ?_⟩
    · exact canonical_ofPhrase p w ctx ps after (hderives p List.mem_cons_self) hjoined.1 h hseam.1
        hplain.1
    · exact canonical_ofPhrases ps w ctx after (fun q hq => hderives q (List.mem_cons_of_mem p hq))
        hjoined.2 h.right hseam.2 hplain.2

end

end

end StyleSieve.Purge
