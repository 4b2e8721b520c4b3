import StyleSieve.Proofs.Purge.Piece

/-!
# Canonical pieces

Pieces as a purge leaves them: values and preludes are tidied, every selector is kept and every
group holds something. Canonical pieces are read again from the phrases that they are laid out as
(`spells_layOut`), and the same pieces are kept of these phrases (`ofPhrases_layOut`).
-/

namespace StyleSieve.Purge

open Css
open Css.Phrase (Sound IsSelector Derives Joined beginsRule treesOf)
open Css.Tree (isSemicolon isColon isComma isCurly isGap endsPrelude endsSelector rawOf lexemesOf
  tidy space Bracketed)

/-- The trees are read wherever a barrier follows them. -/
def Firm (ts : List Tree) : Prop := ∀ d z, isBarrier d = true → Reads (lexemesOf ts) (d :: z)

namespace Piece

/-- A piece that may stand in the definition of a font. -/
def isPlain : Piece → Bool
  | comment _ => true
  | declaration .. => true
  | _ => false

end Piece

/-- The text of a piece goes on to what follows it. -/
def Piece.isDeclaration : Piece → Bool
  | declaration .. => true
  | _ => false

/-- The block of an at-rule with a body is kept as it is. -/
def keepsBlock (j : Judge) (keyword : Tree) (body : List Piece) : Bool :=
  !isKeyframes (atName keyword) &&
    if isConditional (atName keyword) then body.head?.any Piece.holdsGroup
    else !isFontFace (atName keyword) ||
      (j.wantsFont (familyIn (Piece.layOut body)) && body.all Piece.isPlain)

mutual

/-- No at-rule stands inside the definition of a font. -/
def plainFonts : Phrase → Bool
  | .block keyword _ _ body _ =>
    (!isFontFace (atName keyword) || body.all isPlainPhrase) && plainFontsIn body
  | .ruleset _ _ _ body _ => plainFontsIn body
  | _ => true

def plainFontsIn : List Phrase → Bool
  | [] => true
  | p :: ps => plainFonts p && plainFontsIn ps

/-- A phrase that is neither a rule nor an at-rule. -/
def isPlainPhrase : Phrase → Bool
  | .filler _ => true
  | .comment _ => true
  | .declaration .. => true
  | _ => false

end

/-- A keyword and a tidied prelude as they are written. -/
structure Headed (w : Option Bracket) (keyword : Tree) (prelude : List Tree) : Prop where
  keyword_token : ∃ s, keyword.token = .atKeyword s
  sound : Sound prelude
  unended : ∀ t ∈ prelude, endsPrelude t = false
  tidied : tidy prelude = prelude
  seam : keepsHead keyword prelude = true
  firm : Firm (keyword :: spaced prelude)
  bracketed : Bracketed w false (keyword :: spaced prelude)

/-- A tidied selector that is kept. -/
structure Selected (j : Judge) (w : Option Bracket) (selector : List Tree) : Prop
    extends IsSelector selector where
  keeps : j.keepsSelector selector = true
  begins : ∀ t ∈ selector.head?, beginsRule t = true
  tidied : tidy selector = selector
  seam : Tree.seamless selector = true
  firm : Firm selector
  bracketed : Bracketed w false selector

/-- A piece as a purge leaves it, in a context and a block with the given bracket. -/
inductive Canonical (j : Judge) : Option Bracket → Context → Piece → Prop
  | comment {w : Option Bracket} {ctx : Context} {t : Tree} {s : String}
      (token : t.token = .comment s) (kept : isKeptComment (commentEvent 0 t) = true)
      (reads : ∀ z, Reads (lexemesOf [t]) z) (bracketed : ∀ w, Bracketed w false [t]) :
      Canonical j w ctx (.comment t)
  | declaration {w : Option Bracket} {name : Tree} {value : List Tree} {s : String}
      (name_token : name.token = .ident s) (name_firm : Firm [name]) (sound : Sound value)
      (unended : ∀ t ∈ value, isSemicolon t = false) (written : writtenValue name value = value)
      (seam : keepsValue name value = true) (firm : Firm value)
      (bracketed : Bracketed w false (name :: colonMark :: value)) :
      Canonical j w .declarations (.declaration name value)
  | statement {w : Option Bracket} {ctx : Context} {keyword : Tree} {prelude : List Tree}
      (headed : Headed w keyword prelude) : Canonical j w ctx (.statement keyword prelude)
  | copied {w : Option Bracket} {ctx : Context} {keyword : Tree} {prelude : List Tree}
      {head : Lexeme} {body : List Phrase} {close : Option Lexeme}
      (name : isKeyframes (atName keyword) = true) (wanted : j.wantsNamed prelude = true)
      (derives : Derives ctx (.block keyword prelude head body close))
      (plain : plainFonts (.block keyword prelude head body close) = true)
      (reads : ∀ z, Reads (lexemesOf (Phrase.block keyword prelude head body close).trees) z)
      (bracketed : Bracketed w false (Phrase.block keyword prelude head body close).trees) :
      Canonical j w ctx (.copied (.block keyword prelude head body close))
  | block {w : Option Bracket} {ctx : Context} {keyword : Tree} {prelude : List Tree}
      {body : List Piece} (headed : Headed w keyword prelude)
      (keeps : keepsBlock j keyword body = true)
      (inside : ∀ k ∈ body, Canonical j (some .curly) (.ofAtRule keyword.text) k) :
      Canonical j w ctx (.block keyword prelude body)
  | ruleset {w : Option Bracket} {earlier : List (List Tree)} {last : List Tree}
      {body : List Piece} (selectors : ∀ vs ∈ earlier, Selected j w vs)
      (last_selector : Selected j w last)
      (inside : ∀ k ∈ body, Canonical j (some .curly) .declarations k) :
      Canonical j w .rules (.ruleset earlier last body)

/-! ## Canonical pieces obey the grammar -/

section

variable {j : Judge} {w : Option Bracket} {ctx : Context}

theorem Headed.sound_spaced {keyword : Tree} {prelude : List Tree} (h : Headed w keyword prelude) :
    Sound (spaced prelude) := by
  unfold spaced
  split
  · simp [Sound]
  · exact List.forall_mem_cons.2 ⟨by simp [space, Tree.token], h.sound⟩

theorem Headed.unended_spaced {keyword : Tree} {prelude : List Tree}
    (h : Headed w keyword prelude) : ∀ t ∈ spaced prelude, endsPrelude t = false := by
  unfold spaced
  split
  · simp
  · exact List.forall_mem_cons.2 ⟨rfl, h.unended⟩

theorem isSemicolon_semicolonMark : isSemicolon semicolonMark = true := rfl

/-- What is written after a piece obeys the grammar. -/
theorem derives_trailer {last : Bool} {k : Piece} :
    ∀ p ∈ k.trailer last, Derives ctx p := by
  unfold Piece.trailer
  split
  · intro p hp
    rw [List.mem_singleton.1 hp]
    exact .white rfl
  · intro p hp
    rw [List.mem_singleton.1 hp]
    exact .semicolon rfl
  · simp

theorem Selected.exists_cons {selector : List Tree} (h : Selected j w selector) :
    ∃ t ts, selector = t :: ts ∧ beginsRule t = true := by
  obtain ⟨u, hu, -⟩ := h.component
  obtain ⟨t, ts, rfl⟩ := List.exists_cons_of_ne_nil (List.ne_nil_of_mem hu)
  exact ⟨t, ts, rfl, h.begins t rfl⟩

theorem begins_listTrees {earlier : List (List Tree)} {last : List Tree}
    (hearlier : ∀ vs ∈ earlier, Selected j w vs) (hlast : Selected j w last) :
    ∀ t ∈ (Phrase.listTrees (earlier.map (·, commaMark)) ++ last).head?, beginsRule t = true := by
  cases earlier with
  | nil => simpa using hlast.begins
  | cons vs earlier =>
    obtain ⟨t, ts, rfl, ht⟩ := (hearlier vs List.mem_cons_self).exists_cons
    simpa using ht

theorem joined_layOut (ks : List Piece) (h : ∀ k ∈ ks, Canonical j w ctx k) :
    Joined (Piece.layOut ks) := by
  induction ks with
  | nil =>
    rw [Piece.layOut]
    trivial
  | cons k ks ih =>
    have hks := ih fun l hl => h l (List.mem_cons_of_mem k hl)
    rw [Piece.layOut]
    cases h k List.mem_cons_self with
    | comment => exact ⟨by rw [Piece.phrase]; trivial, trivial, hks⟩
    | declaration =>
      cases ks with
      | nil => exact ⟨.inl (by rw [Piece.layOut]; rfl), hks⟩
      | cons l ls => exact ⟨.inr ⟨semicolonMark, _, rfl, rfl⟩, trivial, hks⟩
    | statement => exact ⟨by rw [Piece.phrase]; trivial, hks⟩
    | copied => exact ⟨by rw [Piece.phrase]; trivial, hks⟩
    | block => exact ⟨by rw [Piece.phrase]; trivial, hks⟩
    | ruleset => exact ⟨by rw [Piece.phrase]; trivial, hks⟩

mutual

theorem derives_phrase : ∀ (k : Piece) (w : Option Bracket) (ctx : Context),
    Canonical j w ctx k → Derives ctx k.phrase
  | .comment t => by
    intro w ctx h
    rw [Piece.phrase]
    cases h with
    | comment token => exact .comment token
  | .declaration name value => by
    intro w ctx h
    rw [Piece.phrase]
    cases h with
    | declaration token _ sound unended =>
      exact .declaration token (by simp) rfl sound unended
  | .statement keyword prelude => by
    intro w ctx h
    cases h with
    | statement headed =>
      obtain ⟨s, token⟩ := headed.keyword_token
      rw [Piece.phrase]
      exact .statement token headed.sound_spaced headed.unended_spaced
        (by simp [isSemicolon_semicolonMark])
  | .copied p => by
    intro w ctx h
    rw [Piece.phrase]
    cases h with
    | copied _ _ derives => exact derives
  | .block keyword prelude body => by
    intro w ctx h
    cases h with
    | block headed _ inside =>
      obtain ⟨s, token⟩ := headed.keyword_token
      rw [Piece.phrase]
      exact .block token headed.sound_spaced headed.unended_spaced rfl
        (derives_layOut body _ _ inside) (joined_layOut body inside)
  | .ruleset earlier last body => by
    intro w ctx h
    cases h with
    | ruleset selectors hlast inside =>
      rw [Piece.phrase]
      refine .ruleset ?_ ?_ hlast.toIsSelector (begins_listTrees selectors hlast) rfl
        (derives_layOut body _ _ inside) (joined_layOut body inside)
      · intro s hs
        obtain ⟨vs, hvs, rfl⟩ := List.mem_map.1 hs
        exact (selectors vs hvs).toIsSelector
      · intro s hs
        obtain ⟨vs, hvs, rfl⟩ := List.mem_map.1 hs
        rfl

theorem derives_layOut : ∀ (ks : List Piece) (w : Option Bracket) (ctx : Context),
    (∀ k ∈ ks, Canonical j w ctx k) → ∀ p ∈ Piece.layOut ks, Derives ctx p
  | [] => by
    intro w ctx _
    rw [Piece.layOut]
    simp
  | k :: ks => by
    intro w ctx h
    rw [Piece.layOut]
    refine List.forall_mem_cons.2 ⟨derives_phrase k w ctx (h k List.mem_cons_self), ?_⟩
    refine List.forall_mem_append.2 ⟨derives_trailer, ?_⟩
    exact derives_layOut ks w ctx fun l hl => h l (List.mem_cons_of_mem k hl)

end

/-! ## Canonical pieces are read again -/

theorem reads_lineBreak {y : List Char} (h : startsWith isSpace y = false) :
    Reads (lexemesOf [lineBreak]) y :=
  reads_white rfl h

theorem reads_semicolonMark (y : List Char) : Reads (lexemesOf [semicolonMark]) y :=
  reads_mark rfl y

theorem reads_commaMark (y : List Char) : Reads (lexemesOf [commaMark]) y :=
  reads_mark rfl y

theorem reads_colonMark (y : List Char) : Reads (lexemesOf [colonMark]) y :=
  reads_mark rfl y

theorem reads_append {ts us : List Tree} {y : List Char} (hts : Reads (lexemesOf ts) (rawOf us ++ y))
    (hus : Reads (lexemesOf us) y) : Reads (lexemesOf (ts ++ us)) y :=
  reads_lexemesOf_append_iff.2 ⟨hts, hus⟩

theorem reads_cons {t : Tree} {us : List Tree} {y : List Char}
    (ht : Reads (lexemesOf [t]) (rawOf us ++ y)) (hus : Reads (lexemesOf us) y) :
    Reads (lexemesOf (t :: us)) y :=
  reads_append ht hus

theorem reads_curly {body : List Tree} (h : ∀ z, Reads (lexemesOf body) ('\x7d' :: z))
    (z : List Char) : Reads (lexemesOf [.block curlyOpen body (some curlyClose)]) z := by
  rw [Tree.lexemesOf_cons, Tree.lexemes, Tree.lexemesOf_nil, List.append_nil, reads_cons_iff]
  refine ⟨reads_mark rfl _, reads_append_iff.2 ⟨h z, reads_mark rfl z⟩⟩

theorem rawOf_curly_cons (body : List Tree) (z : List Char) :
    ∃ u, rawOf [.block curlyOpen body (some curlyClose)] ++ z = '\x7b' :: u :=
  ⟨_, by rw [Tree.rawOf_cons, Piece.rawOf_curly]; rfl⟩

/-- Selectors with commas between them are read before the block of their rule. -/
theorem reads_selectors {earlier : List (List Tree)} {last : List Tree}
    (hearlier : ∀ vs ∈ earlier, Selected j w vs) (hlast : Selected j w last) :
    Firm (Phrase.listTrees (earlier.map (·, commaMark)) ++ last) := by
  intro d z hd
  induction earlier with
  | nil => exact hlast.firm d z hd
  | cons vs earlier ih =>
    have hvs := (hearlier vs List.mem_cons_self).firm
    rw [List.map_cons, Phrase.listTrees_cons, List.append_assoc, List.cons_append]
    refine reads_append ?_ (reads_cons (reads_commaMark _)
      (ih fun us hus => hearlier us (List.mem_cons_of_mem vs hus)))
    exact hvs ',' _ (by decide)

theorem not_isWhite_of_beginsRule {t : Tree} (h : beginsRule t = true) : t.isWhite = false := by
  unfold beginsRule at h
  unfold Tree.isWhite
  split at h <;> simp_all [Token.isWhitespace]

/-- A piece begins with something else than white space. -/
theorem Canonical.exists_cons {k : Piece} (h : Canonical j w ctx k) :
    ∃ t ts, k.phrase.trees = t :: ts ∧ t.isWhite = false := by
  cases h with
  | comment token =>
    exact ⟨_, _, by rw [Piece.phrase, Phrase.trees], by rw [Tree.isWhite, token]; rfl⟩
  | declaration token =>
    exact ⟨_, _, by rw [Piece.phrase, Phrase.trees], by rw [Tree.isWhite, token]; rfl⟩
  | statement headed =>
    obtain ⟨s, token⟩ := headed.keyword_token
    exact ⟨_, _, by rw [Piece.phrase, Phrase.trees], by rw [Tree.isWhite, token]; rfl⟩
  | copied _ _ derives =>
    cases derives with
    | block token =>
      exact ⟨_, _, by rw [Piece.phrase, Phrase.trees], by rw [Tree.isWhite, token]; rfl⟩
  | block headed =>
    obtain ⟨s, token⟩ := headed.keyword_token
    exact ⟨_, _, by rw [Piece.phrase, Phrase.trees], by rw [Tree.isWhite, token]; rfl⟩
  | @ruleset _ earlier last body selectors hlast =>
    have hbegins := begins_listTrees selectors hlast
    obtain ⟨t, ts, hcons⟩ : ∃ t ts,
        Phrase.listTrees (earlier.map (·, commaMark)) ++ last = t :: ts := by
      obtain ⟨t, ts, rfl, -⟩ := hlast.exists_cons
      exact List.exists_cons_of_ne_nil (by simp)
    rw [hcons] at hbegins
    refine ⟨t, _, by rw [Piece.phrase, Phrase.trees, ← List.append_assoc, hcons]; rfl, ?_⟩
    exact not_isWhite_of_beginsRule (hbegins t rfl)

/-- A piece and what is written after it are read before other trees. The line break after a comment
goes on to something else than white space, and a value without a semicolon to a barrier. -/
theorem reads_trailed {k : Piece} {last : Bool} {us : List Tree} {z : List Char}
    (hk : Canonical j w ctx k)
    (hphrase : ∀ y, (k.isDeclaration = true → ∃ d u, y = d :: u ∧ isBarrier d = true) →
      Reads (lexemesOf k.phrase.trees) y)
    (hus : Reads (lexemesOf us) z)
    (hspace : (∃ t, k = .comment t) → startsWith isSpace (rawOf us ++ z) = false)
    (hend : last = true → k.isDeclaration = true →
      ∃ d u, rawOf us ++ z = d :: u ∧ isBarrier d = true) :
    Reads (lexemesOf (k.phrase.trees ++ (treesOf (k.trailer last) ++ us))) z := by
  have hbefore : ∀ ts, Reads (lexemesOf ts) (rawOf us ++ z) →
      (k.isDeclaration = true → ∃ d u, rawOf (ts ++ us) ++ z = d :: u ∧ isBarrier d = true) →
        Reads (lexemesOf (k.phrase.trees ++ (ts ++ us))) z :=
    fun ts hts hd => reads_append (hphrase _ hd) (reads_append hts hus)
  cases hk with
  | comment =>
    exact hbefore [lineBreak] (reads_lineBreak (hspace ⟨_, rfl⟩)) (by simp [Piece.isDeclaration])
  | declaration =>
    cases last with
    | true => exact hbefore [] (reads_nil _) fun h => by simpa using hend rfl h
    | false =>
      exact hbefore [semicolonMark] (reads_semicolonMark _) fun _ => ⟨_, _, rfl, by decide⟩
  | statement => exact hbefore [] (reads_nil _) (by simp [Piece.isDeclaration])
  | copied => exact hbefore [] (reads_nil _) (by simp [Piece.isDeclaration])
  | block => exact hbefore [] (reads_nil _) (by simp [Piece.isDeclaration])
  | ruleset => exact hbefore [] (reads_nil _) (by simp [Piece.isDeclaration])

/-- What begins with a piece does not begin with white space. -/
theorem startsWith_isSpace_phrase {k : Piece} {us : List Tree} {z : List Char}
    (hk : Canonical j w ctx k) (h : Reads (lexemesOf (k.phrase.trees ++ us)) z) :
    startsWith isSpace (rawOf (k.phrase.trees ++ us) ++ z) = false := by
  obtain ⟨t, ts, hcons, hwhite⟩ := hk.exists_cons
  rw [hcons, List.cons_append] at h ⊢
  obtain ⟨c, u, hraw, hc, -⟩ := exists_raw_eq_cons h
  rw [Tree.rawOf_cons, hraw]
  exact hc.trans hwhite

mutual

/-- A piece is read again from its phrase. Only a value goes on to a barrier. -/
theorem reads_phrase : ∀ (k : Piece) (w : Option Bracket) (ctx : Context),
    Canonical j w ctx k → ∀ z, (k.isDeclaration = true → ∃ d u, z = d :: u ∧ isBarrier d = true) →
      Reads (lexemesOf k.phrase.trees) z
  | .comment t => by
    intro w ctx h z _
    rw [Piece.phrase, Phrase.trees]
    cases h with
    | comment _ _ reads => exact reads z
  | .declaration name value => by
    intro w ctx h z hz
    rw [Piece.phrase, Phrase.trees]
    cases h with
    | declaration _ name_firm _ _ _ _ firm =>
      obtain ⟨d, u, rfl, hd⟩ := hz rfl
      exact reads_cons (name_firm ':' _ (by decide)) (reads_cons (reads_colonMark _) (firm d u hd))
  | .statement keyword prelude => by
    intro w ctx h z _
    rw [Piece.phrase, Phrase.trees, ← List.cons_append]
    cases h with
    | statement headed =>
      exact reads_append (headed.firm ';' _ (by decide)) (reads_semicolonMark z)
  | .copied p => by
    intro w ctx h z _
    rw [Piece.phrase]
    cases h with
    | copied _ _ _ _ reads => exact reads z
  | .block keyword prelude body => by
    intro w ctx h z _
    rw [Piece.phrase, Phrase.trees, ← List.cons_append]
    cases h with
    | block headed _ inside =>
      obtain ⟨u, hu⟩ := rawOf_curly_cons (treesOf (Piece.layOut body)) z
      refine reads_append ?_ (reads_curly (fun z => ?_) z)
      · rw [hu]
        exact headed.firm _ _ (by decide)
      · exact reads_layOut body _ _ inside _ (fun _ => rfl) fun _ => ⟨_, _, rfl, by decide⟩
  | .ruleset earlier last body => by
    intro w ctx h z _
    rw [Piece.phrase, Phrase.trees, ← List.append_assoc]
    cases h with
    | ruleset selectors hlast inside =>
      obtain ⟨u, hu⟩ := rawOf_curly_cons (treesOf (Piece.layOut body)) z
      refine reads_append ?_ (reads_curly (fun z => ?_) z)
      · rw [hu]
        exact reads_selectors selectors hlast _ _ (by decide)
      · exact reads_layOut body _ _ inside _ (fun _ => rfl) fun _ => ⟨_, _, rfl, by decide⟩

theorem reads_layOut : ∀ (ks : List Piece) (w : Option Bracket) (ctx : Context),
    (∀ k ∈ ks, Canonical j w ctx k) →
      ∀ z, ((∃ t, ks.getLast? = some (.comment t)) → startsWith isSpace z = false) →
      (ctx = .declarations → ∃ d u, z = d :: u ∧ isBarrier d = true) →
        Reads (lexemesOf (treesOf (Piece.layOut ks))) z
  | [] => by
    intro w ctx _ z _ _
    rw [Piece.layOut]
    exact reads_nil z
  | k :: ks => by
    intro w ctx h z hspace hz
    have hk := h k List.mem_cons_self
    rw [Piece.layOut, Phrase.treesOf_cons, Phrase.treesOf_append]
    cases ks with
    | nil =>
      rw [Piece.layOut, Phrase.treesOf_nil]
      refine reads_trailed hk (reads_phrase k w ctx hk) (reads_nil z) ?_ fun _ hvalue => ?_
      · rintro ⟨t, rfl⟩
        exact hspace ⟨t, rfl⟩
      · cases hk with
        | declaration => exact hz rfl
        | _ => simp [Piece.isDeclaration] at hvalue
    | cons l ls =>
      have hks := reads_layOut (l :: ls) w ctx (fun l hl => h l (List.mem_cons_of_mem k hl)) z
        (by rwa [List.getLast?_cons_cons] at hspace) hz
      refine reads_trailed hk (reads_phrase k w ctx hk) hks (fun _ => ?_) fun hlast _ => ?_
      · rw [Piece.layOut, Phrase.treesOf_cons] at hks ⊢
        exact startsWith_isSpace_phrase (h l (by simp)) hks
      · simp at hlast

end

/-! ## Brackets of canonical pieces -/

theorem bracketed_leaf {l : Lexeme} {ts : List Tree} (opens : l.token.opens = none)
    (closes : l.token.closes = none) (h : Bracketed w false ts) :
    Bracketed w false (.leaf l :: ts) :=
  .leaf opens (fun b _ => by simp [closes]) h

theorem bracketed_curly {body : List Tree} (h : Bracketed (some .curly) false body) :
    Bracketed w false [.block curlyOpen body (some curlyClose)] :=
  .block rfl rfl h .nil

theorem bracketed_trailer (last : Bool) (k : Piece) :
    Bracketed w false (treesOf (k.trailer last)) := by
  unfold Piece.trailer
  split
  · exact bracketed_leaf rfl rfl .nil
  · exact bracketed_leaf rfl rfl .nil
  · exact .nil

theorem bracketed_selectors {earlier : List (List Tree)} {last : List Tree}
    (hearlier : ∀ vs ∈ earlier, Selected j w vs) (hlast : Selected j w last) :
    Bracketed w false (Phrase.listTrees (earlier.map (·, commaMark)) ++ last) := by
  induction earlier with
  | nil => exact hlast.bracketed
  | cons vs earlier ih =>
    rw [List.map_cons, Phrase.listTrees_cons, List.append_assoc]
    refine (hearlier vs List.mem_cons_self).bracketed.append (bracketed_leaf rfl rfl ?_)
    exact ih fun us hus => hearlier us (List.mem_cons_of_mem vs hus)

mutual

theorem bracketed_phrase : ∀ (k : Piece) (w : Option Bracket) (ctx : Context),
    Canonical j w ctx k → Bracketed w false k.phrase.trees
  | .comment t => by
    intro w ctx h
    rw [Piece.phrase, Phrase.trees]
    cases h with
    | comment _ _ _ bracketed => exact bracketed w
  | .declaration name value => by
    intro w ctx h
    rw [Piece.phrase, Phrase.trees]
    cases h with
    | declaration _ _ _ _ _ _ _ bracketed => exact bracketed
  | .statement keyword prelude => by
    intro w ctx h
    rw [Piece.phrase, Phrase.trees, ← List.cons_append]
    cases h with
    | statement headed => exact headed.bracketed.append (bracketed_leaf rfl rfl .nil)
  | .copied p => by
    intro w ctx h
    rw [Piece.phrase]
    cases h with
    | copied _ _ _ _ _ bracketed => exact bracketed
  | .block keyword prelude body => by
    intro w ctx h
    rw [Piece.phrase, Phrase.trees, ← List.cons_append]
    cases h with
    | block headed _ inside =>
      exact headed.bracketed.append (bracketed_curly (bracketed_layOut body _ _ inside))
  | .ruleset earlier last body => by
    intro w ctx h
    rw [Piece.phrase, Phrase.trees, ← List.append_assoc]
    cases h with
    | ruleset selectors hlast inside =>
      exact (bracketed_selectors selectors hlast).append
        (bracketed_curly (bracketed_layOut body _ _ inside))

theorem bracketed_layOut : ∀ (ks : List Piece) (w : Option Bracket) (ctx : Context),
    (∀ k ∈ ks, Canonical j w ctx k) → Bracketed w false (treesOf (Piece.layOut ks))
  | [] => by
    intro w ctx _
    rw [Piece.layOut]
    exact .nil
  | k :: ks => by
    intro w ctx h
    rw [Piece.layOut, Phrase.treesOf_cons, Phrase.treesOf_append]
    exact (bracketed_phrase k w ctx (h k List.mem_cons_self)).append
      ((bracketed_trailer ks.isEmpty k).append
        (bracketed_layOut ks w ctx fun l hl => h l (List.mem_cons_of_mem k hl)))

end

/-- The text of canonical pieces is spelt by the phrases that they are laid out as. -/
theorem spells_layOut {ks : List Piece} {text : String}
    (h : ∀ k ∈ ks, Canonical j none .rules k)
    (htext : text.toList = rawOf (treesOf (Piece.layOut ks))) :
    Phrase.Spells text (Piece.layOut ks) where
  derives := derives_layOut ks none .rules h
  joined := joined_layOut ks h
  trees_eq := by
    have hreads := reads_layOut ks none .rules h [] (fun _ => rfl) (by simp)
    rw [Reads, List.append_nil, lexemes_nil, List.append_nil] at hreads
    rw [htext]
    exact (Tree.ofText_eq hreads (bracketed_layOut ks none .rules h).ends).symm

/-! ## Canonical pieces are kept -/

theorem not_isFontFace_of_isConditional {name : String} (h : isConditional name = true) :
    isFontFace name = false := by
  refine eq_false_of_ne_true fun hface => ?_
  rw [isConditional, beq_iff_eq.1 hface] at h
  exact absurd h (by decide)

theorem tidy_spaced {prelude : List Tree} (h : tidy prelude = prelude) :
    tidy (spaced prelude) = prelude := by
  unfold spaced
  split
  · next hempty => rw [List.isEmpty_iff.1 hempty]; rfl
  · rw [← Tree.tidyAfter_false false, Tree.tidyAfter_space, Tree.tidyAfter_false, h]

theorem Headed.keepsHead_spaced {keyword : Tree} {prelude : List Tree}
    (h : Headed w keyword prelude) : keepsHead keyword (spaced prelude) = true := by
  have hseam := h.seam
  unfold keepsHead at hseam ⊢
  rw [tidy_spaced h.tidied]
  rw [h.tidied] at hseam
  unfold spaced
  split
  · next hempty =>
    rw [List.isEmpty_iff.1 hempty] at hseam ⊢
    exact hseam
  · exact hseam

theorem ofPhrases_trailer (last : Bool) (k : Piece) : Piece.ofPhrases j (k.trailer last) = [] := by
  unfold Piece.trailer
  split <;> simp [Piece.ofPhrases, Piece.ofPhrase]

theorem keepsBlock_iff {keyword : Tree} {body : List Piece} :
    keepsBlock j keyword body = true ↔ isKeyframes (atName keyword) = false ∧
      (isConditional (atName keyword) = true → body.head?.any Piece.holdsGroup = true) ∧
      (isFontFace (atName keyword) = true →
        j.wantsFont (familyIn (Piece.layOut body)) = true ∧ body.all Piece.isPlain = true) := by
  rw [keepsBlock, Bool.and_eq_true, Bool.not_eq_true']
  refine and_congr_right fun _ => ?_
  cases hconditional : isConditional (atName keyword) with
  | true => simp [not_isFontFace_of_isConditional hconditional]
  | false => cases isFontFace (atName keyword) <;> simp

theorem group_of_head {keyword : Tree} {prelude : List Tree} {ks : List Piece}
    (h : ks.head?.any Piece.holdsGroup = true) :
    Piece.group keyword prelude ks = [.block keyword prelude ks] := by
  cases ks with
  | nil => simp at h
  | cons k ks =>
    have hk : k.holdsGroup = true := by simpa using h
    simp [Piece.group, Piece.lead, Piece.rest, hk]

theorem rule_append_singleton (body : List Piece) (earlier : List (List Tree)) (last : List Tree) :
    Piece.rule body (earlier ++ [last]) = [.ruleset earlier last body] := by
  rw [Piece.rule, List.reverse_append, List.reverse_singleton, List.singleton_append]
  simp

/-- All selectors are kept as they are. -/
theorem selectors_kept {selectors : List (List Tree)} (h : ∀ vs ∈ selectors, Selected j w vs) :
    (selectors.filter j.keepsSelector).map tidy = selectors := by
  rw [List.filter_eq_self.2 fun vs hvs => (h vs hvs).keeps]
  exact (List.map_congr_left fun vs hvs => (h vs hvs).tidied).trans (List.map_id _)

mutual

/-- Just the piece is kept of the phrase that it is written as. -/
theorem ofPhrase_phrase : ∀ (k : Piece) (w : Option Bracket) (ctx : Context),
    Canonical j w ctx k → Piece.ofPhrase j k.phrase = [k]
  | .comment t => by
    intro w ctx h
    rw [Piece.phrase, Piece.ofPhrase]
    cases h with
    | comment _ kept => rw [if_pos kept]
  | .declaration name value => by
    intro w ctx h
    rw [Piece.phrase, Piece.ofPhrase]
    cases h with
    | declaration _ _ _ _ written => rw [written]
  | .statement keyword prelude => by
    intro w ctx h
    rw [Piece.phrase, Piece.ofPhrase]
    cases h with
    | statement headed => rw [tidy_spaced headed.tidied]
  | .copied p => by
    intro w ctx h
    rw [Piece.phrase]
    cases h with
    | copied name wanted => rw [Piece.ofPhrase, if_pos name, if_pos wanted]
  | .block keyword prelude body => by
    intro w ctx h
    cases h with
    | block headed keeps inside =>
      obtain ⟨hname, hgroup, hface⟩ := keepsBlock_iff.1 keeps
      rw [Piece.phrase, Piece.ofPhrase, tidy_spaced headed.tidied,
        ofPhrases_layOut body _ _ inside, hname, if_neg Bool.false_ne_true]
      split
      · next hconditional => exact group_of_head (hgroup hconditional)
      · split
        · next hfont => rw [if_pos (hface hfont).1]
        · rfl
  | .ruleset earlier last body => by
    intro w ctx h
    cases h with
    | ruleset selectors hlast inside =>
      have hall : ∀ vs ∈ earlier ++ [last], Selected j w vs := by
        simpa [or_imp, forall_and] using And.intro selectors hlast
      rw [Piece.phrase, Piece.ofPhrase, ofPhrases_layOut body _ _ inside, List.map_map,
        Function.comp_def, List.map_id', selectors_kept hall, rule_append_singleton]

theorem ofPhrases_layOut : ∀ (ks : List Piece) (w : Option Bracket) (ctx : Context),
    (∀ k ∈ ks, Canonical j w ctx k) → Piece.ofPhrases j (Piece.layOut ks) = ks
  | [] => by
    intro w ctx _
    rw [Piece.layOut, Piece.ofPhrases]
  | k :: ks => by
    intro w ctx h
    rw [Piece.layOut, Piece.ofPhrases, Piece.ofPhrases_append, ofPhrases_trailer,
      ofPhrase_phrase k w ctx (h k List.mem_cons_self),
      ofPhrases_layOut ks w ctx fun l hl => h l (List.mem_cons_of_mem k hl)]
    rfl

end

mutual

/-- The phrase of a piece keeps its tokens. -/
theorem seamless_phrase : ∀ (k : Piece) (w : Option Bracket) (ctx : Context),
    Canonical j w ctx k → seamless j k.phrase = true
  | .comment t => by
    intro w ctx _
    rw [Piece.phrase, seamless]
  | .declaration name value => by
    intro w ctx h
    rw [Piece.phrase, seamless]
    cases h with
    | declaration _ _ _ _ _ seam => exact seam
  | .statement keyword prelude => by
    intro w ctx h
    rw [Piece.phrase, seamless]
    cases h with
    | statement headed => exact headed.keepsHead_spaced
  | .copied p => by
    intro w ctx h
    rw [Piece.phrase]
    cases h with
    | copied name => rw [seamless, if_pos name]
  | .block keyword prelude body => by
    intro w ctx h
    cases h with
    | block headed _ inside =>
      rw [Piece.phrase, seamless, headed.keepsHead_spaced, seamlessIn_layOut body _ _ inside,
        Bool.or_true, Bool.and_self, ite_self, ite_self, ite_self]
  | .ruleset earlier last body => by
    intro w ctx h
    cases h with
    | ruleset selectors hlast inside =>
      have hall : ((earlier ++ [last]).filter j.keepsSelector).all Tree.seamless = true := by
        rw [List.all_eq_true]
        intro vs hvs
        rcases List.mem_append.1 (List.mem_filter.1 hvs).1 with hvs | hvs
        · exact (selectors vs hvs).seam
        · rw [List.mem_singleton.1 hvs, hlast.seam]
      rw [Piece.phrase, seamless, List.map_map, Function.comp_def, List.map_id', hall,
        seamlessIn_layOut body _ _ inside, Bool.and_self, Bool.or_true]

theorem seamlessIn_layOut : ∀ (ks : List Piece) (w : Option Bracket) (ctx : Context),
    (∀ k ∈ ks, Canonical j w ctx k) → seamlessIn j (Piece.layOut ks) = true
  | [] => by
    intro w ctx _
    rw [Piece.layOut, seamlessIn]
  | k :: ks => by
    intro w ctx h
    have hks := seamlessIn_layOut ks w ctx fun l hl => h l (List.mem_cons_of_mem k hl)
    have hk := seamless_phrase k w ctx (h k List.mem_cons_self)
    rw [Piece.layOut, seamlessIn, hk, Bool.true_and]
    unfold Piece.trailer
    split
    · rw [List.singleton_append, seamlessIn, seamless, hks, Bool.and_self]
    · rw [List.singleton_append, seamlessIn, seamless, hks, Bool.and_self]
    · exact hks

end

/-! ## Fonts in canonical pieces -/

theorem all_isPlainPhrase_layOut {ks : List Piece} (h : ks.all Piece.isPlain = true) :
    (Piece.layOut ks).all isPlainPhrase = true := by
  induction ks with
  | nil => rw [Piece.layOut]; rfl
  | cons k ks ih =>
    rw [List.all_cons, Bool.and_eq_true] at h
    rw [Piece.layOut, List.all_cons, List.all_append, ih h.2, Bool.and_true]
    cases k with
    | comment t => simp [Piece.phrase, Piece.trailer, isPlainPhrase]
    | declaration name value => cases ks <;> simp [Piece.phrase, Piece.trailer, isPlainPhrase]
    | _ => simp [Piece.isPlain] at h

mutual

theorem plainFonts_phrase : ∀ (k : Piece) (w : Option Bracket) (ctx : Context),
    Canonical j w ctx k → plainFonts k.phrase = true
  | .comment t => by
    intro w ctx _
    rw [Piece.phrase, plainFonts]
    all_goals simp
  | .declaration name value => by
    intro w ctx _
    rw [Piece.phrase, plainFonts]
    all_goals simp
  | .statement keyword prelude => by
    intro w ctx _
    rw [Piece.phrase, plainFonts]
    all_goals simp
  | .copied p => by
    intro w ctx h
    rw [Piece.phrase]
    cases h with
    | copied _ _ _ plain => exact plain
  | .block keyword prelude body => by
    intro w ctx h
    cases h with
    | block headed keeps inside =>
      rw [Piece.phrase, plainFonts, plainFontsIn_layOut body _ _ inside, Bool.and_true]
      cases hface : isFontFace (atName keyword) with
      | true => exact all_isPlainPhrase_layOut ((keepsBlock_iff.1 keeps).2.2 hface).2
      | false => rfl
  | .ruleset earlier last body => by
    intro w ctx h
    cases h with
    | ruleset selectors hlast inside =>
      rw [Piece.phrase, plainFonts, plainFontsIn_layOut body _ _ inside]

theorem plainFontsIn_layOut : ∀ (ks : List Piece) (w : Option Bracket) (ctx : Context),
    (∀ k ∈ ks, Canonical j w ctx k) → plainFontsIn (Piece.layOut ks) = true
  | [] => by
    intro w ctx _
    rw [Piece.layOut, plainFontsIn]
  | k :: ks => by
    intro w ctx h
    have hks := plainFontsIn_layOut ks w ctx fun l hl => h l (List.mem_cons_of_mem k hl)
    have hk := plainFonts_phrase k w ctx (h k List.mem_cons_self)
    rw [Piece.layOut, plainFontsIn, hk, Bool.true_and]
    unfold Piece.trailer
    split
    · rw [List.singleton_append, plainFontsIn, hks, plainFonts] <;> simp
    · rw [List.singleton_append, plainFontsIn, hks, plainFonts] <;> simp
    · exact hks

end

end

/-- No node of plain phrases is an at-rule. -/
theorem isAtRule_of_isPlainPhrase {ps : List Phrase} (h : ps.all isPlainPhrase = true)
    (pos : Nat) : ∀ n ∈ Node.nodesIn (Phrase.outlinesAt pos ps), n.isAtRule = false := by
  induction ps generalizing pos with
  | nil => simp [Phrase.outlinesAt]
  | cons p ps ih =>
    rw [List.all_cons, Bool.and_eq_true] at h
    rw [Phrase.outlinesAt, Node.nodesIn_append]
    refine List.forall_mem_append.2 ⟨?_, ih h.2 _⟩
    cases p with
    | filler t => simp [Phrase.outlineAt]
    | comment t => simp [Phrase.outlineAt, Node.nodes, Node.isAtRule]
    | declaration name gap colon value => simp [Phrase.outlineAt, Node.nodes, Node.isAtRule]
    | _ => simp [isPlainPhrase] at h

theorem FontsArePlain.append {ns ns' : List Node} (h : FontsArePlain ns) (h' : FontsArePlain ns') :
    FontsArePlain (ns ++ ns') := by
  intro face hface
  rw [Node.nodesIn_append] at hface
  exact (List.mem_append.1 hface).elim (h face) (h' face)

/-- A node is as plain as its body, unless it defines a font. -/
theorem FontsArePlain.singleton {n : Node} (h : FontsArePlain n.body)
    (hfont : n.definesFont = true → ∀ m ∈ Node.nodesIn n.body, m.isAtRule = false) :
    FontsArePlain [n] := by
  intro face hface hdefines
  rw [Node.nodesIn_cons, Node.nodesIn_nil, List.append_nil, Node.nodes_eq] at hface
  rcases List.mem_cons.1 hface with rfl | hface
  · exact hfont hdefines
  · exact h face hface hdefines

theorem FontsArePlain.nil : FontsArePlain [] := by simp [FontsArePlain]

mutual

theorem fontsArePlain_outlineAt : ∀ (p : Phrase) (pos : Nat), plainFonts p = true →
    FontsArePlain (p.outlineAt pos)
  | .filler t => by
    intro pos _
    rw [Phrase.outlineAt]
    exact .nil
  | .comment t => by
    intro pos _
    rw [Phrase.outlineAt]
    exact .singleton .nil (by simp [Node.definesFont])
  | .declaration name gap colon value => by
    intro pos _
    rw [Phrase.outlineAt]
    exact .singleton .nil (by simp [Node.definesFont])
  | .statement keyword prelude stop => by
    intro pos _
    rw [Phrase.outlineAt]
    exact .singleton .nil (by simp [Node.definesFont])
  | .block keyword prelude head body close => by
    intro pos h
    rw [plainFonts, Bool.and_eq_true] at h
    rw [Phrase.outlineAt]
    refine .singleton (fontsArePlain_outlinesAt body _ h.2) fun hface => ?_
    have hname : isFontFace (atName keyword) = true := hface
    rw [hname, Bool.not_true, Bool.false_or] at h
    exact isAtRule_of_isPlainPhrase h.1 _
  | .ruleset earlier last head body close => by
    intro pos h
    rw [plainFonts] at h
    rw [Phrase.outlineAt]
    exact .singleton (fontsArePlain_outlinesAt body _ h) (by simp [Node.definesFont])

theorem fontsArePlain_outlinesAt : ∀ (ps : List Phrase) (pos : Nat), plainFontsIn ps = true →
    FontsArePlain (Phrase.outlinesAt pos ps)
  | [] => by
    intro pos _
    rw [Phrase.outlinesAt]
    exact .nil
  | p :: ps => by
    intro pos h
    rw [plainFontsIn, Bool.and_eq_true] at h
    rw [Phrase.outlinesAt]
    exact (fontsArePlain_outlineAt p _ h.1).append (fontsArePlain_outlinesAt ps _ h.2)

end

end StyleSieve.Purge
