import Mathlib.Data.List.Induction
import Mathlib.Data.List.TakeWhile
import StyleSieve.Proofs.Selector.Spelling

/-!
# The grammar of selectors

A selector is a sequence of parts, and the token trees of each part are told by a relation that does
not look at what surrounds it. A text is read just when its trees, comments left out, are those of a
sequence of parts (`parse_iff_isParts`). Its chain is then found without reading along: the parts
are split at the separators, each piece is gathered into one compound, and pieces that ask for
nothing are left out. In contrast to `Spells` nothing is said here about what elements satisfy, and
parts may stand in any order.
-/

namespace StyleSieve.Selector

open Css
open Text (lowerCase NameSet)

/-! ## Grammar -/

/-- The token is a name, or a name with arguments. -/
def namesPseudo (token : Token) (name : String) : Prop :=
  token = .ident name ∨ token = .function name

/-- The trees of one part. Its name is kept in lower case. -/
inductive IsPart : List Tree → Part → Prop where
  | tag {t : Tree} {name : String} : t.token = .ident name → IsPart [t] (.tag (lowerCase name))
  | id {t : Tree} {name : String} : t.token = .idHash name ∨ t.token = .hash name →
      IsPart [t] (.id (lowerCase name))
  | anything {t : Tree} : t.token = .delim '*' → IsPart [t] .anything
  | className {dot t : Tree} {name : String} : dot.token = .delim '.' → t.token = .ident name →
      IsPart [dot, t] (.className (lowerCase name))
  | pseudoClass {colon t : Tree} {name : String} : colon.token = .colon → namesPseudo t.token name →
      IsPart [colon, t] (.pseudoClass (lowerCase name))
  | pseudoElement {colon colon' t : Tree} {name : String} : colon.token = .colon →
      colon'.token = .colon → namesPseudo t.token name →
      IsPart [colon, colon', t] (.pseudoElement (lowerCase name))
  /-- Only the first tree of the block that is neither white space nor a comment counts. -/
  | carries {head : Lexeme} {body : List Tree} {close : Option Lexeme} {t : Tree} {name : String} :
      head.token = .opening .square → body.find? (!isGap ·) = some t → t.token = .ident name →
      IsPart [.block head body close] (.attribute (lowerCase name))
  | separator {t : Tree} : isCombinator t = true → IsPart [t] .separator

/-- The trees of parts that follow one another. -/
inductive IsParts : List Tree → List Part → Prop where
  | nil : IsParts [] []
  | cons {ts us : List Tree} {p : Part} {ps : List Part} : IsPart ts p → IsParts us ps →
      IsParts (ts ++ us) (p :: ps)

/-! ## Reading parts -/

theorem attributeName_ok_iff {p : Placed} {head : Lexeme} {body : List Tree}
    {close : Option Lexeme} (hp : p.tree = .block head body close) {name : String} :
    attributeName p = .ok name ↔
      ∃ t spelled, body.find? (!isGap ·) = some t ∧ t.token = .ident spelled ∧
        name = lowerCase spelled := by
  have hgap : (fun t : Tree => t.token.isWhitespace || t.token.isComment) = isGap := rfl
  have hfind : body.find? (!isGap ·) = (body.dropWhile isGap).head? := by
    exact List.find?_not_eq_head?_dropWhile isGap body
  simp only [attributeName, hp, hgap, hfind]
  cases body.dropWhile isGap with
  | nil => simp
  | cons t rest =>
    simp only [List.head?_cons, Option.some.injEq]
    cases htoken : t.token <;> simp [htoken, eq_comm]

/-! ### What is a part is read as one -/

theorem ReadAs.of_isPart {ts : List Tree} {p : Part} (h : IsPart ts p) : ReadAs ts [p] := by
  cases h with
  | tag h =>
    exact readAs_of_spellsTest (.type h)
  | id h =>
    rcases h with h | h
    · exact readAs_of_spellsTest (.id h)
    · exact readAs_of_spellsTest (.hash h)
  | anything h => exact readAs_of_spellsTest (.anything h)
  | className hdot h => exact readAs_of_spellsTest (.className hdot h)
  | separator h => exact readAs_of_isCombinator h
  | pseudoClass hcolon h =>
    intro stop front rest hfront
    obtain ⟨p, front', rfl, hp, hfront'⟩ := List.map_eq_cons_iff.1 hfront
    obtain ⟨q, rfl, hq⟩ := List.map_eq_singleton_iff.1 hfront'
    rw [List.cons_append, List.singleton_append, parts.eq_def]
    rcases h with h | h <;> simp only [hp, hq, hcolon, h] <;> rfl
  | pseudoElement hcolon hcolon' h =>
    intro stop front rest hfront
    obtain ⟨p, front', rfl, hp, hfront'⟩ := List.map_eq_cons_iff.1 hfront
    obtain ⟨q, front'', rfl, hq, hfront''⟩ := List.map_eq_cons_iff.1 hfront'
    obtain ⟨r, rfl, hr⟩ := List.map_eq_singleton_iff.1 hfront''
    rw [List.cons_append, List.cons_append, List.singleton_append, parts.eq_def]
    rcases h with h | h <;> simp only [hp, hq, hr, hcolon, hcolon', h] <;> rfl
  | carries hhead hfirst htoken =>
    refine .singleton fun stop q rest hq => ?_
    have hname := (attributeName_ok_iff hq).2 ⟨_, _, hfirst, htoken, rfl⟩
    rw [parts.eq_def]
    simp only [hq, Tree.token, hhead, hname]

theorem ReadAs.of_isParts {ts : List Tree} {ps : List Part} (h : IsParts ts ps) :
    ReadAs ts ps := by
  induction h with
  | nil => exact readAs_nil
  | cons h _ ih => exact (ReadAs.of_isPart h).append ih

/-! ### What is read begins with a part -/

/-- The trees begin with a part, and those behind it are read as the other parts. -/
def Begins (stop : Nat) (items : List Placed) (ps : List Part) : Prop :=
  ∃ front rest p more, items = front ++ rest ∧ front ≠ [] ∧ IsPart (front.map Placed.tree) p ∧
    parts stop rest = .ok more ∧ ps = p :: more

theorem Begins.of_map {stop : Nat} {rest : List Placed} {p : Part} {ps : List Part}
    (front : List Placed) (hfront : front ≠ []) (hp : IsPart (front.map Placed.tree) p)
    (h : (p :: ·) <$> parts stop rest = .ok ps) : Begins stop (front ++ rest) ps := by
  cases hmore : parts stop rest with
  | error e => simp [hmore, Functor.map, Except.map] at h
  | ok more =>
    simp only [hmore, Functor.map, Except.map, Except.ok.injEq] at h
    exact ⟨front, rest, p, more, rfl, hfront, hp, hmore, h.symm⟩

theorem Begins.of_one {stop : Nat} {q : Placed} {rest : List Placed} {p : Part} {ps : List Part}
    (hp : IsPart [q.tree] p) (h : (p :: ·) <$> parts stop rest = .ok ps) :
    Begins stop (q :: rest) ps :=
  .of_map [q] (by simp) hp h

theorem Begins.of_two {stop : Nat} {q r : Placed} {rest : List Placed} {p : Part} {ps : List Part}
    (hp : IsPart [q.tree, r.tree] p) (h : (p :: ·) <$> parts stop rest = .ok ps) :
    Begins stop (q :: r :: rest) ps :=
  .of_map [q, r] (by simp) hp h

theorem begins_of_parts {stop : Nat} {q : Placed} {rest : List Placed} {ps : List Part}
    (h : parts stop (q :: rest) = .ok ps) : Begins stop (q :: rest) ps := by
  rw [parts.eq_def] at h
  simp only at h
  split at h
  · next name ht => exact .of_one (.id (.inl ht)) h
  · next name ht => exact .of_one (.id (.inr ht)) h
  · next name ht => exact .of_one (.tag ht) h
  · next text ht => exact .of_one (.separator (by simp [isCombinator, ht, Token.isWhitespace])) h
  · next ht => exact .of_one (.anything ht) h
  · next ht => exact .of_one (.separator (by simp [isCombinator, ht])) h
  · next ht => exact .of_one (.separator (by simp [isCombinator, ht])) h
  · next ht => exact .of_one (.separator (by simp [isCombinator, ht])) h
  · next hdot =>
    split at h
    · cases h
    · next r rs =>
      split at h
      · next name ht => exact .of_two (.className hdot ht) h
      · cases h
  · next hcolon =>
    split at h
    · cases h
    · next r rs =>
      split at h
      · next name ht => exact .of_two (.pseudoClass hcolon (.inl ht)) h
      · next name ht => exact .of_two (.pseudoClass hcolon (.inr ht)) h
      · next hcolon' =>
        split at h
        · cases h
        · next s ss =>
          split at h
          · next name ht =>
            exact .of_map [q, r, s] (by simp) (.pseudoElement hcolon hcolon' (.inl ht)) h
          · next name ht =>
            exact .of_map [q, r, s] (by simp) (.pseudoElement hcolon hcolon' (.inr ht)) h
          · cases h
      · cases h
  · next hopen =>
    split at h
    · cases h
    · next name hname =>
      obtain ⟨mark, pos, t⟩ := q
      cases t with
      | leaf l => cases hname
      | block head body close =>
        obtain ⟨t, spelled, hfirst, htoken, rfl⟩ := (attributeName_ok_iff rfl).1 hname
        exact .of_one (.carries hopen hfirst htoken) h
  · cases h

/-- Trees are read just when they are those of parts. -/
theorem parts_ok_iff {stop : Nat} {items : List Placed} {ps : List Part} :
    parts stop items = .ok ps ↔ IsParts (items.map Placed.tree) ps := by
  constructor
  · -- Each step takes one part away from the front.
    intro h
    induction hn : items.length using Nat.strongRecOn generalizing items ps with
    | ind n ih =>
      cases items with
      | nil =>
        cases h
        exact .nil
      | cons q rest =>
        obtain ⟨front, rest', p, more, hitems, hne, hp, hmore, rfl⟩ := begins_of_parts h
        rw [hitems, List.map_append]
        refine .cons hp (ih rest'.length ?_ hmore rfl)
        have := List.length_pos_iff.2 hne
        rw [← hn, hitems, List.length_append]
        omega
  · intro h
    have hread := ReadAs.of_isParts h stop items [] rfl
    rw [List.append_nil] at hread
    simp [hread, parts, Functor.map, Except.map]

/-! ## Chains -/

namespace Part

def tag? : Part → Option String
  | .tag name => some name
  | _ => none

def id? : Part → Option String
  | .id name => some name
  | _ => none

def className? : Part → Option String
  | .className name => some name
  | _ => none

/-- The name of an attribute whose presence says something. -/
def steadyAttribute? : Part → Option String
  | .attribute name => if name ∈ volatileAttributes then none else some name
  | _ => none

def pseudoClass? : Part → Option String
  | .pseudoClass name => some name
  | _ => none

def pseudoElement? : Part → Option String
  | .pseudoElement name => some name
  | _ => none

end Part

/-- What the parts of one piece ask for together: the last tag and the last id, every class and
every steady attribute, and the names of pseudo-classes and pseudo-elements in order. -/
def Compound.gathered (ps : List Part) : Compound where
  tag := (ps.filterMap Part.tag?).getLast?
  id := (ps.filterMap Part.id?).getLast?
  classes := .ofList (ps.filterMap Part.className?)
  attributes := .ofList (ps.filterMap Part.steadyAttribute?)
  pseudoClasses := ps.filterMap Part.pseudoClass?
  pseudoElements := ps.filterMap Part.pseudoElement?

/-- The pieces between separators. -/
def piecesOf (ps : List Part) : List (List Part) := ps.splitOnP (· == .separator)

/-- The compounds of the pieces, without those that ask for nothing unless all do. -/
def chainOfPieces (pieces : List (List Part)) : Chain :=
  match (pieces.map Compound.gathered).filter (!·.isUniversal) with
  | [] => [.universal]
  | c :: cs => c :: cs

theorem ofList_concat (names : List String) (name : String) :
    NameSet.ofList (names ++ [name]) = (NameSet.ofList names).insert name := by
  rw [NameSet.ofList, List.foldl_append]
  rfl

theorem gathered_concat (ps : List Part) (p : Part) :
    Compound.gathered (ps ++ [p]) = (Compound.gathered ps).add p := by
  have hfields : ∀ {α : Type} (f : Part → Option α),
      (ps ++ [p]).filterMap f = ps.filterMap f ++ (f p).toList := by
    intro α f
    rw [List.filterMap_append, List.filterMap_cons]
    cases f p <;> rfl
  simp only [Compound.gathered, hfields]
  match p with
  | .attribute name =>
    by_cases hvolatile : name ∈ volatileAttributes
    · simp [Compound.add, Part.tag?, Part.id?, Part.className?, Part.steadyAttribute?,
        Part.pseudoClass?, Part.pseudoElement?, hvolatile]
    · simp [Compound.add, Part.tag?, Part.id?, Part.className?, Part.steadyAttribute?,
        Part.pseudoClass?, Part.pseudoElement?, hvolatile, ofList_concat]
  | .tag _ | .id _ | .anything | .className _ | .pseudoClass _ | .pseudoElement _ | .separator =>
    simp [Compound.add, Part.tag?, Part.id?, Part.className?, Part.steadyAttribute?,
      Part.pseudoClass?, Part.pseudoElement?, ofList_concat]

theorem kept_eq_filter (c : Compound) : c.kept = [c].filter (!·.isUniversal) := by
  cases h : c.isUniversal <;> simp [Compound.kept, h]

theorem modifyHead_nil_append (pieces : List (List Part)) :
    pieces.modifyHead ([] ++ ·) = pieces := by
  cases pieces <;> rfl

/-- The compounds that reading closes are those of the pieces, of which the first has been begun. -/
theorem compoundsFrom_eq (ps begun : List Part) :
    compoundsFrom (Compound.gathered begun) ps
      = (((piecesOf ps).modifyHead (begun ++ ·)).map Compound.gathered).filter
          (!·.isUniversal) := by
  induction ps generalizing begun with
  | nil => simp [compoundsFrom, piecesOf, kept_eq_filter]
  | cons p ps ih =>
    rw [piecesOf, List.splitOnP_cons_eq_if_modifyHead]
    by_cases hp : p = .separator
    · subst hp
      have hrest : compoundsFrom .universal ps
          = ((piecesOf ps).map Compound.gathered).filter (!·.isUniversal) := by
        rw [← modifyHead_nil_append (piecesOf ps)]
        exact ih []
      rw [compoundsFrom, hrest, kept_eq_filter, ← List.filter_append]
      simp [piecesOf]
    · have hstep : compoundsFrom (Compound.gathered begun) (p :: ps)
          = compoundsFrom (Compound.gathered (begun ++ [p])) ps := by
        rw [gathered_concat]
        cases p <;> first | rfl | exact absurd rfl hp
      rw [hstep, ih, if_neg (by simpa using hp), List.modifyHead_modifyHead]
      simp [piecesOf, Function.comp_def]

theorem chainOf_eq (ps : List Part) : chainOf ps = chainOfPieces (piecesOf ps) := by
  have h : compoundsFrom .universal ps
      = (((piecesOf ps).modifyHead ([] ++ ·)).map Compound.gathered).filter (!·.isUniversal) :=
    compoundsFrom_eq ps []
  rw [modifyHead_nil_append] at h
  rw [chainOf, h]
  rfl

/-! ## Selectors -/

theorem chainOfPieces_ne_nil (pieces : List (List Part)) : chainOfPieces pieces ≠ [] := by
  unfold chainOfPieces
  split <;> simp

/-- A compound that asks for nothing stands in a chain only by itself. -/
theorem chainOfPieces_of_isUniversal {pieces : List (List Part)} {c : Compound}
    (hc : c ∈ chainOfPieces pieces) (h : c.isUniversal = true) :
    chainOfPieces pieces = [.universal] := by
  unfold chainOfPieces at hc ⊢
  split at hc
  · rfl
  · next hcons =>
    -- What the filter keeps asks for something.
    rw [← hcons] at hc
    have hkept := (List.mem_filter.1 hc).2
    simp [h] at hkept

/-- A selector is read as parts just when its trees, comments left out, are those of the parts. -/
theorem parse_ok_iff {selector : String} {chain : Chain} :
    parse selector = .ok chain ↔ ∃ ps, IsParts (spelling selector) ps ∧ chainOf ps = chain := by
  have htrees : (placed 0 0 (Tree.ofText selector.toList)).1.map Placed.tree = spelling selector :=
    map_tree_placed 0 0 _
  simp only [parse, parseTrees, ← htrees, ← @parts_ok_iff
    (placed 0 0 (Tree.ofText selector.toList)).2 (placed 0 0 (Tree.ofText selector.toList)).1]
  cases parts (placed 0 0 (Tree.ofText selector.toList)).2
      (placed 0 0 (Tree.ofText selector.toList)).1 <;> simp [Functor.map, Except.map]

/-- A selector can be read just when its trees are those of parts; its chain is that of the pieces
between the separators, which is never empty and has a compound that asks for nothing only where no
piece asks for anything. -/
theorem parse_iff_isParts (selector : String) :
    ((∃ chain, parse selector = .ok chain) ↔ ∃ ps, IsParts (spelling selector) ps) ∧
    (∀ ps, IsParts (spelling selector) ps →
      parse selector = .ok (chainOfPieces (piecesOf ps))) ∧
    ∀ chain, parse selector = .ok chain →
      chain ≠ [] ∧ ((∃ c ∈ chain, c.isUniversal = true) → chain = [.universal]) := by
  have hread : ∀ ps, IsParts (spelling selector) ps →
      parse selector = .ok (chainOfPieces (piecesOf ps)) := fun ps hps =>
    parse_ok_iff.2 ⟨ps, hps, chainOf_eq ps⟩
  refine ⟨⟨?_, ?_⟩, hread, ?_⟩
  · rintro ⟨chain, hchain⟩
    obtain ⟨ps, hps, -⟩ := parse_ok_iff.1 hchain
    exact ⟨ps, hps⟩
  · rintro ⟨ps, hps⟩
    exact ⟨_, hread ps hps⟩
  · intro chain hchain
    obtain ⟨ps, -, rfl⟩ := parse_ok_iff.1 hchain
    rw [chainOf_eq]
    refine ⟨chainOfPieces_ne_nil _, ?_⟩
    rintro ⟨c, hc, huniversal⟩
    exact chainOfPieces_of_isUniversal hc huniversal

/-- A comment is passed over, arguments are not read, and a piece with nothing but an attribute that
says nothing is left out. -/
theorem parse_list_item :
    let selector := "Li./**/A:not(b)>[ Checked] ::After"
    let chain : Chain := [⟨some "li", none, .ofList ["a"], ∅, ["not"], []⟩,
      ⟨none, none, ∅, ∅, [], ["after"]⟩]
    parse selector = .ok chain ∧ chain ≠ [] := by
  intro selector chain
  have hlexemes : lexemes selector.toList = [⟨.ident "Li", ['L', 'i']⟩, ⟨.delim '.', ['.']⟩,
      ⟨.comment "", ['/', '*', '*', '/']⟩, ⟨.ident "A", ['A']⟩, ⟨.colon, [':']⟩,
      ⟨.function "not", "not(".toList⟩, ⟨.ident "b", ['b']⟩, ⟨.closing .paren, [')']⟩,
      ⟨.delim '>', ['>']⟩, ⟨.opening .square, ['[']⟩, ⟨.whitespace " ", [' ']⟩,
      ⟨.ident "Checked", "Checked".toList⟩, ⟨.closing .square, [']']⟩, ⟨.whitespace " ", [' ']⟩,
      ⟨.colon, [':']⟩, ⟨.colon, [':']⟩, ⟨.ident "After", "After".toList⟩] := by decide +kernel
  have hparts : IsParts (spelling selector) [.tag (lowerCase "Li"), .className (lowerCase "A"),
      .pseudoClass (lowerCase "not"), .separator, .attribute (lowerCase "Checked"), .separator,
      .pseudoElement (lowerCase "After")] := by
    rw [spelling, Tree.ofText, hlexemes]
    exact .cons (.tag rfl) (.cons (.className rfl rfl) (.cons (.pseudoClass rfl (.inr rfl))
      (.cons (.separator rfl) (.cons (.carries rfl rfl rfl) (.cons (.separator rfl)
      (.cons (.pseudoElement rfl rfl (.inl rfl)) .nil))))))
  have hchain : chainOfPieces (piecesOf [.tag (lowerCase "Li"), .className (lowerCase "A"),
      .pseudoClass (lowerCase "not"), .separator, .attribute (lowerCase "Checked"), .separator,
      .pseudoElement (lowerCase "After")]) = chain := by decide +kernel
  obtain ⟨-, hread, hchains⟩ := parse_iff_isParts selector
  have hparse : parse selector = .ok chain := hchain ▸ hread _ hparts
  exact ⟨hparse, (hchains chain hparse).1⟩

end StyleSieve.Selector
