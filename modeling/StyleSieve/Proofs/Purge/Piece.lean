import StyleSieve.Proofs.Css.Closing
import StyleSieve.Proofs.Purge.Pruning

/-!
# Pieces

What is kept of a stylesheet, with the token trees that it is written with. Pieces are laid out as
phrases again, so that the text of the pruned outline is that of phrases (`texts_prunedIn`).
-/

namespace StyleSieve.Purge

open Css
open Text (At)
open Css.Tree (isSemicolon isColon isComma isCurly isGap rawOf widthOf tidy space)

/-! ## Marks -/

def colonMark : Tree := .leaf ⟨.colon, [':']⟩

def semicolonMark : Tree := .leaf ⟨.semicolon, [';']⟩

def commaMark : Tree := .leaf ⟨.comma, [',']⟩

/-- The line break after a comment. -/
def lineBreak : Tree := .leaf ⟨.whitespace "\n", ['\n']⟩

def curlyOpen : Lexeme := ⟨.opening .curly, ['\x7b']⟩

def curlyClose : Lexeme := ⟨.closing .curly, ['\x7d']⟩

/-! ## Values and preludes -/

/-- A property whose value is kept as written. -/
def isCustom (name : Tree) : Bool := name.raw.take 2 == ['-', '-']

/-- The trees that a value is written with. -/
def writtenValue (name : Tree) (value : List Tree) : List Tree :=
  if isCustom name then Tree.trim value else tidy value

/-- A prelude is parted from its keyword by a space. -/
def spaced (prelude : List Tree) : List Tree := if prelude.isEmpty then [] else space :: prelude

/-! ## Pieces -/

/-- Something kept, with its trees as they are written. -/
inductive Piece where
  | comment (t : Tree)
  | declaration (name : Tree) (value : List Tree)
  | statement (keyword : Tree) (prelude : List Tree)
  /-- A phrase that stands as it does in the source. -/
  | copied (p : Phrase)
  | block (keyword : Tree) (prelude : List Tree) (body : List Piece)
  | ruleset (earlier : List (List Tree)) (last : List Tree) (body : List Piece)
deriving Repr

namespace Piece

/-- What is written between a piece and the next, or after it at the end of a block. -/
def trailer : Piece → Bool → List Phrase
  | comment _, _ => [.filler lineBreak]
  | declaration .., false => [.filler semicolonMark]
  | _, _ => []

mutual

/-- The phrase that a piece is written as. -/
def phrase : Piece → Phrase
  | comment t => .comment t
  | declaration name value => .declaration name [] colonMark value
  | statement keyword prelude => .statement keyword (spaced prelude) (some semicolonMark)
  | copied p => p
  | block keyword prelude body =>
    .block keyword (spaced prelude) curlyOpen (layOut body) (some curlyClose)
  | ruleset earlier last body =>
    .ruleset (earlier.map (·, commaMark)) last curlyOpen (layOut body) (some curlyClose)

/-- The phrases that pieces are written as. -/
def layOut : List Piece → List Phrase
  | [] => []
  | k :: ks => k.phrase :: (k.trailer ks.isEmpty ++ layOut ks)

end

/-- The text of some trees as one string. -/
def joined (ts : List Tree) : String := String.join (ts.map Tree.text)

/-- The values of a declaration. -/
def valuesOf (name : Tree) (value : List Tree) : List String :=
  if isCustom name then if (rawOf value).isEmpty then [] else [joined value]
  else value.map Tree.text

/-- A keyword with its prelude. -/
def preludeText (keyword : Tree) (prelude : List Tree) : String :=
  if prelude.isEmpty then keyword.text else keyword.text ++ " " ++ joined prelude

mutual

/-- A piece without its trees. -/
def kept : Piece → Kept
  | comment t => .comment t.text
  | declaration name value => .declaration name.text (valuesOf name value)
  | statement keyword prelude => .statement (preludeText keyword prelude)
  | copied p => .copied (String.ofList (rawOf p.trees))
  | block keyword prelude body => .block (preludeText keyword prelude) (keptOf body)
  | ruleset earlier last body =>
    .block (",".intercalate ((earlier ++ [last]).map joined)) (keptOf body)

def keptOf : List Piece → List Kept
  | [] => []
  | k :: ks => k.kept :: keptOf ks

end

theorem keptOf_eq_map (ks : List Piece) : keptOf ks = ks.map kept := by
  induction ks with
  | nil => rw [keptOf, List.map_nil]
  | cons k ks ih => rw [keptOf, List.map_cons, ih]

/-! ## The text of pieces -/

theorem toList_joined (ts : List Tree) : (joined ts).toList = rawOf ts := by
  rw [joined]
  induction ts with
  | nil => rfl
  | cons t ts ih => simp [Tree.text, ih]

theorem toList_join_valuesOf (name : Tree) (value : List Tree) :
    (String.join (valuesOf name value)).toList = rawOf value := by
  unfold valuesOf
  split
  · split
    · next h => simp_all
    · simp [toList_joined]
  · exact toList_joined value

theorem toList_preludeText (keyword : Tree) (prelude : List Tree) :
    (preludeText keyword prelude).toList = rawOf (keyword :: spaced prelude) := by
  unfold preludeText spaced
  split
  · simp [Tree.text]
  · simp [Tree.text, toList_joined, space, Tree.raw, Tree.lexemes]

theorem toList_selectors (earlier : List (List Tree)) (last : List Tree) :
    (",".intercalate ((earlier ++ [last]).map joined)).toList =
      rawOf (Phrase.listTrees (earlier.map (·, commaMark)) ++ last) := by
  induction earlier with
  | nil => simp [toList_joined]
  | cons vs earlier ih =>
    have hcons : ∃ u us, (earlier ++ [last]).map joined = u :: us :=
      List.exists_cons_of_ne_nil (by simp)
    obtain ⟨u, us, hus⟩ := hcons
    rw [hus] at ih
    rw [List.cons_append, List.map_cons, hus, String.intercalate_cons_cons, String.toList_append,
      String.toList_append, ih, toList_joined]
    simp [commaMark, Tree.raw, Tree.lexemes]

theorem rawOf_curly (body : List Tree) :
    (Tree.block curlyOpen body (some curlyClose)).raw = '\x7b' :: (rawOf body ++ ['\x7d']) := by
  simp [Tree.raw, Tree.lexemes, rawOf, curlyOpen, curlyClose]

mutual

/-- The text of a piece is that of its phrase, up to the line break that ends a comment. -/
theorem toList_text (last : Bool) : ∀ k : Piece,
    (k.kept.text ++ if k.kept.isDeclaration && !last then ";" else "").toList =
      rawOf (k.phrase.trees ++ Phrase.treesOf (k.trailer last))
  | comment t => by
    simp [kept, Kept.text, Kept.isDeclaration, phrase, trailer, Phrase.trees, Tree.text, lineBreak,
      Tree.raw, Tree.lexemes]
  | declaration name value => by
    simp only [kept, Kept.text, String.toList_append, toList_join_valuesOf]
    cases last <;>
      simp [Kept.isDeclaration, phrase, trailer, Phrase.trees, Tree.text, colonMark, semicolonMark,
        Tree.raw, Tree.lexemes]
  | statement keyword prelude => by
    simp [kept, Kept.text, Kept.isDeclaration, phrase, trailer, Phrase.trees,
      toList_preludeText, semicolonMark, Tree.raw, Tree.lexemes]
  | copied p => by
    simp [kept, Kept.text, Kept.isDeclaration, phrase, trailer]
  | block keyword prelude body => by
    simp [kept, Kept.text, Kept.isDeclaration, phrase, trailer, Phrase.trees,
      toList_preludeText, rawOf_curly, toList_texts body]
  | ruleset earlier last body => by
    simp only [kept, Kept.text, String.toList_append, toList_selectors, toList_texts body]
    simp [Kept.isDeclaration, phrase, trailer, Phrase.trees, rawOf_curly]

/-- The text of pieces is that of the phrases they are laid out as. -/
theorem toList_texts : ∀ ks : List Piece,
    (Kept.texts (keptOf ks)).toList = rawOf (Phrase.treesOf (layOut ks))
  | [] => by simp [keptOf, Kept.texts, layOut]
  | k :: ks => by
    have hk := toList_text ks.isEmpty k
    have hks := toList_texts ks
    have hempty : (keptOf ks).isEmpty = ks.isEmpty := by
      rw [keptOf_eq_map, List.isEmpty_map]
    rw [keptOf, Kept.texts, layOut, hempty, String.toList_append, hks, hk]
    simp [Phrase.treesOf_append]

end

end Piece

/-! ## The pieces of phrases -/

/-- The name of an at-rule. -/
def atName (keyword : Tree) : String := String.ofList (keyword.text.toList.dropWhile (· == '@'))

/-- The index includes the chain of the selector. -/
def Judge.keepsSelector (j : Judge) (selector : List Tree) : Bool :=
  j.keeps (selectorEvent .selector 0 selector)

/-- The animation with the name in the prelude is wanted. -/
def Judge.wantsNamed (j : Judge) (prelude : List Tree) : Bool :=
  j.references.animationWanted j.index (Text.unquote (String.join (components prelude)))

/-- The family of a font that a phrase tells. -/
def familyTold : Phrase → Option String
  | .declaration name _ _ value => familyOf? (.declaration (declarationEvent name value ⟨0, 0⟩))
  | _ => none

/-- The last family that some phrases tell. -/
def familyIn (ps : List Phrase) : String := ((ps.filterMap familyTold).getLast?).getD ""

namespace Piece

def holdsGroup : Piece → Bool
  | comment _ => false
  | declaration .. => false
  | _ => true

/-- The pieces before the first that holds a group. -/
def lead (ks : List Piece) : List Piece := ks.takeWhile (!·.holdsGroup)

/-- From the first piece that holds a group. -/
def rest (ks : List Piece) : List Piece := ks.dropWhile (!·.holdsGroup)

/-- A conditional group with the pieces inside, from the first that holds it. -/
def group (keyword : Tree) (prelude : List Tree) (ks : List Piece) : List Piece :=
  lead ks ++ if (rest ks).isEmpty then [] else [block keyword prelude (rest ks)]

/-- A rule with some selectors, if there are any. -/
def rule (body : List Piece) (selectors : List (List Tree)) : List Piece :=
  match selectors.reverse with
  | [] => []
  | last :: earlier => [ruleset earlier.reverse last body]

mutual

/-- What is kept of a phrase. -/
def ofPhrase (j : Judge) : Phrase → List Piece
  | .filler _ => []
  | .comment t => if isKeptComment (commentEvent 0 t) then [comment t] else []
  | .declaration name _ _ value => [declaration name (writtenValue name value)]
  | .statement keyword prelude _ => [statement keyword (tidy prelude)]
  | .block keyword prelude head body close =>
    if isKeyframes (atName keyword) then
      if j.wantsNamed prelude then [copied (.block keyword prelude head body close)] else []
    else if isConditional (atName keyword) then group keyword (tidy prelude) (ofPhrases j body)
    else if isFontFace (atName keyword) then
      if j.wantsFont (familyIn body) then
        [block keyword (tidy prelude) (ofPhrases j body)]
      else []
    else [block keyword (tidy prelude) (ofPhrases j body)]
  | .ruleset earlier last _ body _ =>
    rule (ofPhrases j body)
      (((earlier.map Prod.fst ++ [last]).filter j.keepsSelector).map tidy)

/-- What is kept of several phrases. -/
def ofPhrases (j : Judge) : List Phrase → List Piece
  | [] => []
  | p :: ps => ofPhrase j p ++ ofPhrases j ps

end

theorem ofPhrases_append (j : Judge) (ps qs : List Phrase) :
    ofPhrases j (ps ++ qs) = ofPhrases j ps ++ ofPhrases j qs := by
  induction ps with
  | nil => rw [ofPhrases, List.nil_append, List.nil_append]
  | cons p ps ih => rw [List.cons_append, ofPhrases, ofPhrases, ih, List.append_assoc]

theorem holdsGroup_kept (k : Piece) : k.kept.holdsGroup = k.holdsGroup := by
  cases k <;> simp [kept, Kept.holdsGroup, holdsGroup]

theorem lead_keptOf (ks : List Piece) : Kept.lead (keptOf ks) = keptOf (lead ks) := by
  rw [keptOf_eq_map, keptOf_eq_map, Kept.lead, lead, List.takeWhile_map]
  simp only [Function.comp_def, holdsGroup_kept]

theorem rest_keptOf (ks : List Piece) : Kept.rest (keptOf ks) = keptOf (rest ks) := by
  rw [keptOf_eq_map, keptOf_eq_map, Kept.rest, rest, List.dropWhile_map]
  simp only [Function.comp_def, holdsGroup_kept]

theorem keptOf_append (ks ls : List Piece) : keptOf (ks ++ ls) = keptOf ks ++ keptOf ls := by
  simp [keptOf_eq_map]

theorem keptOf_singleton (k : Piece) : keptOf [k] = [k.kept] := by simp [keptOf_eq_map]

theorem group_keptOf (keyword : Tree) (prelude : List Tree) (ks : List Piece) :
    Kept.group (preludeText keyword prelude) (keptOf ks) = keptOf (group keyword prelude ks) := by
  have hempty : (keptOf (rest ks)).isEmpty = (rest ks).isEmpty := by
    rw [keptOf_eq_map, List.isEmpty_map]
  rw [Kept.group, group, keptOf_append, lead_keptOf, rest_keptOf, hempty]
  split
  · rw [keptOf]
  · rw [keptOf_singleton, kept]

end Piece

/-! ## Pieces and the pruned outline -/

/-- What is blank at the ends of a value is white space, and no backslash stands alone before it. -/
def keepsEnds (value : List Tree) : Bool :=
  Text.strip Text.isBlank (rawOf value) == rawOf (Tree.trim value) &&
    (Tree.trim value).getLast?.all (·.token != .delim '\\')

/-- A keyword and its prelude keep their tokens with one space between them. -/
def keepsHead (keyword : Tree) (prelude : List Tree) : Bool :=
  Tree.seamless prelude && ((tidy prelude).isEmpty || keyword.leavesSpace)

/-- A value keeps its tokens. -/
def keepsValue (name : Tree) (value : List Tree) : Bool :=
  if isCustom name then keepsEnds value else Tree.seamless value

mutual

/-- What is kept of the phrase keeps its tokens when it is written anew. The definition of an
animation is copied, so nothing is asked of it, and nothing of what is removed. -/
def seamless (j : Judge) : Phrase → Bool
  | .filler _ => true
  | .comment _ => true
  | .declaration name _ _ value => keepsValue name value
  | .statement keyword prelude _ => keepsHead keyword prelude
  | .block keyword prelude _ body _ =>
    if isKeyframes (atName keyword) then true
    else if isConditional (atName keyword) then
      seamlessIn j body &&
        ((Piece.rest (Piece.ofPhrases j body)).isEmpty || keepsHead keyword prelude)
    else if isFontFace (atName keyword) && !j.wantsFont (familyIn body) then true
    else seamlessIn j body && keepsHead keyword prelude
  | .ruleset earlier last _ body _ =>
    let kept := (earlier.map Prod.fst ++ [last]).filter j.keepsSelector
    kept.isEmpty || (kept.all Tree.seamless && seamlessIn j body)

/-- What is kept of all phrases keeps its tokens. -/
def seamlessIn (j : Judge) : List Phrase → Bool
  | [] => true
  | p :: ps => seamless j p && seamlessIn j ps

end

/-- What the judge leaves of the block of an at-rule, and what is asked of it then. -/
inductive Ruling (j : Judge) (keyword : Tree) (prelude : List Tree) (head : Lexeme)
    (body : List Phrase) (close : Option Lexeme) : List Piece → Prop
  | copied (name : isKeyframes (atName keyword) = true) (wanted : j.wantsNamed prelude = true) :
      Ruling j keyword prelude head body close [.copied (.block keyword prelude head body close)]
  | unnamed (name : isKeyframes (atName keyword) = true) (unwanted : j.wantsNamed prelude = false) :
      Ruling j keyword prelude head body close []
  | group (name : isKeyframes (atName keyword) = false)
      (conditional : isConditional (atName keyword) = true) (inner : seamlessIn j body = true)
      (headed : (Piece.rest (Piece.ofPhrases j body)).isEmpty = false →
        keepsHead keyword prelude = true) :
      Ruling j keyword prelude head body close
        (Piece.group keyword (tidy prelude) (Piece.ofPhrases j body))
  | unused (name : isKeyframes (atName keyword) = false)
      (conditional : isConditional (atName keyword) = false)
      (face : isFontFace (atName keyword) = true) (unwanted : j.wantsFont (familyIn body) = false) :
      Ruling j keyword prelude head body close []
  /-- The definition of a font is kept as any other block if the font is used. -/
  | block (name : isKeyframes (atName keyword) = false)
      (conditional : isConditional (atName keyword) = false)
      (wanted : isFontFace (atName keyword) = true → j.wantsFont (familyIn body) = true)
      (inner : seamlessIn j body = true) (headed : keepsHead keyword prelude = true) :
      Ruling j keyword prelude head body close
        [.block keyword (tidy prelude) (Piece.ofPhrases j body)]

theorem ruling_ofPhrase {j : Judge} {keyword : Tree} {prelude : List Tree} {head : Lexeme}
    {body : List Phrase} {close : Option Lexeme}
    (h : seamless j (.block keyword prelude head body close) = true) :
    Ruling j keyword prelude head body close
      (Piece.ofPhrase j (.block keyword prelude head body close)) := by
  rw [seamless] at h
  rw [Piece.ofPhrase]
  cases hname : isKeyframes (atName keyword) with
  | true =>
    rw [if_pos rfl]
    split
    · next hwanted => exact .copied hname hwanted
    · next hwanted => exact .unnamed hname (eq_false_of_ne_true hwanted)
  | false =>
    rw [hname, if_neg Bool.false_ne_true] at h
    rw [if_neg Bool.false_ne_true]
    cases hconditional : isConditional (atName keyword) with
    | true =>
      rw [hconditional, if_pos rfl, Bool.and_eq_true] at h
      rw [if_pos rfl]
      exact .group hname hconditional h.1 fun hrest => by simpa [hrest] using h.2
    | false =>
      rw [hconditional, if_neg Bool.false_ne_true] at h
      rw [if_neg Bool.false_ne_true]
      split
      · next hface =>
        split
        · next hwanted =>
          rw [hface, hwanted, Bool.not_true, Bool.and_false, if_neg Bool.false_ne_true,
            Bool.and_eq_true] at h
          exact .block hname hconditional (fun _ => hwanted) h.1 h.2
        · next hwanted =>
          exact .unused hname hconditional hface (eq_false_of_ne_true hwanted)
      · next hface =>
        rw [eq_false_of_ne_true hface, Bool.false_and, if_neg Bool.false_ne_true,
          Bool.and_eq_true] at h
        exact .block hname hconditional (fun hused => absurd hused hface) h.1 h.2

theorem values_declarationEvent {name : Tree} {value : List Tree}
    (h : keepsValue name value = true) (span : Span) :
    (declarationEvent name value span).data = name.text ∧
      (declarationEvent name value span).values = Piece.valuesOf name (writtenValue name value) := by
  rw [keepsValue] at h
  unfold declarationEvent writtenValue Piece.valuesOf isCustom at *
  split
  · next hname =>
    rw [hname] at h ⊢
    simp only [beq_self_eq_true, if_true, keepsEnds, Bool.and_eq_true, beq_iff_eq] at h ⊢
    rw [h.1]
    have hjoined : String.ofList (rawOf (Tree.trim value)) = Piece.joined (Tree.trim value) := by
      rw [← Piece.toList_joined, String.ofList_toList]
    rw [hjoined]
    exact ⟨trivial, rfl⟩
  · next hname => simp [hname, Tree.components_eq_map]

theorem prelude_eq (kind : EventKind) (keyword : Tree) (prelude : List Tree) (span : Span) :
    Event.prelude ⟨kind, keyword.text, components prelude, span⟩ =
      Piece.preludeText keyword (tidy prelude) := by
  rw [Event.prelude, Piece.preludeText, Event.text, Tree.components_eq_map, List.isEmpty_map]
  rfl

theorem familyOf?_declarationEvent (name : Tree) (value : List Tree) (span span' : Span) :
    familyOf? (.declaration (declarationEvent name value span)) =
      familyOf? (.declaration (declarationEvent name value span')) := by
  unfold declarationEvent
  split <;> rfl

theorem filterMap_familyOf? (pos : Nat) (p : Phrase) :
    (p.outlineAt pos).filterMap familyOf? = (familyTold p).toList := by
  cases p with
  | declaration name gap colon value =>
    rw [Phrase.outlineAt, familyTold, List.filterMap_cons, List.filterMap_nil,
      familyOf?_declarationEvent name value _ ⟨0, 0⟩]
    split
    · next h => rw [h]; rfl
    · next h => rw [h]; rfl
  | filler t => rw [Phrase.outlineAt]; rfl
  | comment t => rw [Phrase.outlineAt]; rfl
  | statement keyword prelude stop => rw [Phrase.outlineAt]; rfl
  | block keyword prelude head body close => rw [Phrase.outlineAt]; rfl
  | ruleset earlier last head body close => rw [Phrase.outlineAt]; rfl

/-- The family that declarations tell does not depend on where they stand. -/
theorem familyOf_outlinesAt (pos : Nat) (ps : List Phrase) :
    familyOf (Phrase.outlinesAt pos ps) = familyIn ps := by
  have hall : (Phrase.outlinesAt pos ps).filterMap familyOf? = ps.filterMap familyTold := by
    induction ps generalizing pos with
    | nil => rw [Phrase.outlinesAt]; rfl
    | cons p ps ih =>
      rw [Phrase.outlinesAt, List.filterMap_append, ih, filterMap_familyOf?]
      cases h : familyTold p <;> simp [h]
  rw [familyOf, hall, familyIn]

namespace Piece

theorem kept_rule (body : List Piece) (selectors : List (List Tree)) :
    keptOf (rule body selectors) =
      if selectors.isEmpty then []
      else [.block (",".intercalate (selectors.map joined)) (keptOf body)] := by
  rw [rule]
  split
  · next h =>
    rw [List.reverse_eq_nil_iff] at h
    rw [h, keptOf]
    rfl
  · next last earlier h =>
    rw [List.reverse_eq_cons_iff] at h
    rw [h, keptOf_singleton, kept]
    simp

end Piece

theorem prunedIn_append (j : Judge) (source : String) (ns ns' : List Node) :
    prunedIn j source (ns ++ ns') = prunedIn j source ns ++ prunedIn j source ns' := by
  induction ns with
  | nil => rw [prunedIn, List.nil_append, List.nil_append]
  | cons n ns ih => rw [List.cons_append, prunedIn, prunedIn, ih, List.append_assoc]

theorem prunedIn_singleton (j : Judge) (source : String) (n : Node) :
    prunedIn j source [n] = pruned j source n := by
  rw [prunedIn, prunedIn, List.append_nil]

/-- What stands in a block, after the trees before the block. -/
theorem at_inside {source : String} {pos : Nat} {before : List Tree} {head : Lexeme}
    {body : List Tree} {close : Option Lexeme}
    (h : At source pos (rawOf (before ++ [.block head body close]))) :
    At source (pos + widthOf before + Text.width head.raw) (rawOf body) := by
  rw [Tree.rawOf_append, Tree.rawOf_cons, Tree.rawOf_nil, List.append_nil, raw_block] at h
  exact h.right.right.left

open Piece (keptOf ofPhrase ofPhrases)

/-- The selectors that are kept, and their texts. -/
theorem map_text_keeps (j : Judge) (earlier : List (List Tree × Tree)) (last : List Tree)
    (pos start : Nat) :
    ((Phrase.selectorEvents pos earlier ++ [selectorEvent .rulesetStart start last]).filter
        j.keeps).map Event.text =
      (((earlier.map Prod.fst ++ [last]).filter j.keepsSelector).map tidy).map Piece.joined := by
  have hone : ∀ kind pos vs, j.keeps (selectorEvent kind pos vs) = j.keepsSelector vs ∧
      (selectorEvent kind pos vs).text = Piece.joined (tidy vs) := fun kind pos vs =>
    ⟨rfl, by rw [Piece.joined, ← Tree.components_eq_map]; rfl⟩
  have hlast : ([selectorEvent .rulesetStart start last].filter j.keeps).map Event.text =
      (([last].filter j.keepsSelector).map tidy).map Piece.joined := by
    rw [List.filter_cons, List.filter_cons, (hone _ _ _).1]
    split
    · simp [(hone _ _ _).2]
    · rfl
  rw [List.filter_append, List.map_append, hlast, List.filter_append, List.map_append,
    List.map_append]
  congr 1
  induction earlier generalizing pos with
  | nil => rfl
  | cons s earlier ih =>
    rw [Phrase.selectorEvents, List.map_cons, List.filter_cons, List.filter_cons, (hone _ _ _).1]
    split
    · rw [List.map_cons, List.map_cons, List.map_cons, ih, (hone _ _ _).2]
    · exact ih _

mutual

/-- What is kept of the node of a phrase is what is kept of the phrase. -/
theorem pruned_outlineAt (j : Judge) {source : String} : ∀ (p : Phrase) (pos : Nat),
    At source pos (rawOf p.trees) → seamless j p = true →
      prunedIn j source (p.outlineAt pos) = keptOf (ofPhrase j p)
  | .filler t => by
    intro pos _ _
    rw [Phrase.outlineAt, prunedIn, ofPhrase, keptOf]
  | .comment t => by
    intro pos _ _
    rw [Phrase.outlineAt, prunedIn_singleton, pruned, ofPhrase]
    have hkept : isKeptComment (commentEvent pos t) = isKeptComment (commentEvent 0 t) := rfl
    rw [hkept]
    split
    · rw [Piece.keptOf_singleton, Piece.kept]
      rfl
    · rw [keptOf]
  | .declaration name gap colon value => by
    intro pos _ hseam
    rw [seamless] at hseam
    obtain ⟨hdata, hvalues⟩ := values_declarationEvent hseam
      ⟨pos, pos + widthOf (name :: (gap ++ colon :: value))⟩
    rw [Phrase.outlineAt, prunedIn_singleton, pruned, ofPhrase, Piece.keptOf_singleton, Piece.kept,
      hdata, hvalues]
  | .statement keyword prelude stop => by
    intro pos _ _
    rw [Phrase.outlineAt, prunedIn_singleton, pruned, ofPhrase, Piece.keptOf_singleton, Piece.kept,
      prelude_eq]
  | .block keyword prelude head body close => by
    intro pos hat hseam
    have hslice := hat.slice_eq
    rw [Phrase.trees, ← List.cons_append] at hat
    have hbody : seamlessIn j body = true → prunedIn j source
        (Phrase.outlinesAt (pos + keyword.width + widthOf prelude + Text.width head.raw) body) =
          keptOf (ofPhrases j body) := by
      intro hseam
      have hinner := prunedIn_outlinesAt j body _ (at_inside hat) hseam
      rwa [widthOf, Tree.rawOf_cons, Text.width_append, ← Nat.add_assoc] at hinner
    have hruling := ruling_ofPhrase hseam
    rw [Phrase.outlineAt, prunedIn_singleton, pruned]
    generalize ofPhrase j (.block keyword prelude head body close) = ks at hruling ⊢
    generalize hhead : (⟨.blockStart, keyword.text, components prelude, _⟩ : Event) = e
    have hname : e.atName = atName keyword := by rw [← hhead]; rfl
    have hwants : j.wantsAnimation e = j.wantsNamed prelude := by rw [← hhead]; rfl
    have hprelude : e.prelude = Piece.preludeText keyword (tidy prelude) := by
      rw [← hhead, prelude_eq]
    have hstart : e.span.start = pos := by rw [← hhead]
    rw [hname, hwants, hprelude, hstart, familyOf_outlinesAt]
    cases hruling with
    | copied name wanted =>
      have hstop : pos + keyword.width + widthOf prelude +
          (Tree.block head (Phrase.treesOf body) close).width =
            pos + Text.width (rawOf (Phrase.block keyword prelude head body close).trees) := by
        simp [Phrase.trees, Tree.width, widthOf, Nat.add_assoc]
      rw [if_pos name, if_pos wanted, Piece.keptOf_singleton, Piece.kept]
      simp only [endEvent, hstop, hslice]
    | unnamed name unwanted =>
      rw [if_pos name, unwanted, if_neg Bool.false_ne_true, keptOf]
    | group name conditional inner =>
      rw [name, if_neg Bool.false_ne_true, if_pos conditional, hbody inner, Piece.group_keptOf]
    | unused name conditional face unwanted =>
      rw [name, if_neg Bool.false_ne_true, conditional, if_neg Bool.false_ne_true, if_pos face,
        unwanted, if_neg Bool.false_ne_true, keptOf]
    | block name conditional wanted inner =>
      rw [name, if_neg Bool.false_ne_true, conditional, if_neg Bool.false_ne_true, hbody inner,
        Piece.keptOf_singleton, Piece.kept]
      split
      · next hface => rw [if_pos (wanted hface)]
      · rfl
  | .ruleset earlier last head body close => by
    intro pos hat hseam
    rw [Phrase.trees, ← List.append_assoc] at hat
    have hselectors := map_text_keeps j earlier last pos (pos + widthOf (Phrase.listTrees earlier))
    have hempty := congrArg List.isEmpty hselectors
    rw [List.isEmpty_map, List.isEmpty_map] at hempty
    rw [Phrase.outlineAt, prunedIn_singleton, pruned, ofPhrase, Piece.kept_rule, hselectors, hempty,
      List.isEmpty_map]
    split
    · rfl
    · next hkept =>
      rw [seamless, eq_false_of_ne_true hkept, Bool.false_or, Bool.and_eq_true] at hseam
      have hbody := prunedIn_outlinesAt j body _ (at_inside hat) hseam.2
      rw [Tree.widthOf_append, ← Nat.add_assoc] at hbody
      rw [hbody]

theorem prunedIn_outlinesAt (j : Judge) {source : String} : ∀ (ps : List Phrase) (pos : Nat),
    At source pos (rawOf (Phrase.treesOf ps)) → seamlessIn j ps = true →
      prunedIn j source (Phrase.outlinesAt pos ps) = keptOf (ofPhrases j ps)
  | [] => by
    intro pos _ _
    rw [Phrase.outlinesAt, prunedIn, ofPhrases, keptOf]
  | p :: ps => by
    intro pos hat hseam
    rw [Phrase.treesOf_cons, Tree.rawOf_append] at hat
    rw [seamlessIn, Bool.and_eq_true] at hseam
    rw [Phrase.outlinesAt, prunedIn_append, ofPhrases, Piece.keptOf_append,
      pruned_outlineAt j p _ hat.left hseam.1]
    have hps := prunedIn_outlinesAt j ps _ hat.right hseam.2
    rw [widthOf, hps]

end

end StyleSieve.Purge
