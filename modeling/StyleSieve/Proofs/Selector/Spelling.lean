import StyleSieve.Selector.Parse

/-!
# Selectors as they are spelled

Compounds of tests, joined by combinators, and the token trees that spell them. Reading the trees
gives one compound for each that is spelled, and those that ask for nothing are left out
(`parse_of_spells`). Pseudo-classes are not among the tests, and which combinator joins two
compounds is not kept.
-/

namespace StyleSieve.Selector

open Css
open Text (lowerCase NameSet)

/-- What a selector may ask of an element, in the names as they are spelled. -/
inductive Test where
  | type (name : String)
  | anything
  | id (name : String)
  | className (name : String)
  /-- The element has the attribute, whatever may be asked of its value. -/
  | carries (name : String)
deriving Repr, DecidableEq

/-! ## Grammar -/

/-- The token compares an attribute with a value. -/
def comparesValue : Token → Bool
  | .delim '=' => true
  | .includeMatch => true
  | .dashMatch => true
  | .startMatch => true
  | .endMatch => true
  | .substringMatch => true
  | _ => false

/-- The token can be the value that an attribute is compared with. -/
def isValue : Token → Bool
  | .ident _ => true
  | .quoted _ => true
  | _ => false

def isGap (t : Tree) : Bool := t.token.isWhitespace || t.token.isComment

/-- The tokens of an attribute's test: its name, and the value that it may be compared with, after
which a letter may tell how. -/
inductive SpellsAttribute (name : String) : List Token → Prop where
  | present : SpellsAttribute name [.ident name]
  | compared {op value : Token} : comparesValue op = true → isValue value = true →
      SpellsAttribute name [.ident name, op, value]
  | modified {op value : Token} {letter : String} : comparesValue op = true → isValue value = true →
      SpellsAttribute name [.ident name, op, value, .ident letter]

/-- The trees of one test. -/
inductive SpellsTest : List Tree → Test → Prop where
  | type {t : Tree} {name : String} : t.token = .ident name → SpellsTest [t] (.type name)
  | anything {t : Tree} : t.token = .delim '*' → SpellsTest [t] .anything
  | id {t : Tree} {name : String} : t.token = .idHash name → SpellsTest [t] (.id name)
  | hash {t : Tree} {name : String} : t.token = .hash name → SpellsTest [t] (.id name)
  | className {dot t : Tree} {name : String} : dot.token = .delim '.' → t.token = .ident name →
      SpellsTest [dot, t] (.className name)
  | carries {head : Lexeme} {body : List Tree} {close : Option Lexeme} {name : String} :
      head.token = .opening .square →
      SpellsAttribute name ((body.filter (!isGap ·)).map Tree.token) →
      SpellsTest [.block head body close] (.carries name)

/-- The trees of tests that stand side by side. -/
inductive SpellsCompound : List Tree → List Test → Prop where
  | one {ts : List Tree} {test : Test} : SpellsTest ts test → SpellsCompound ts [test]
  | more {ts us : List Tree} {test : Test} {tests : List Test} : SpellsTest ts test →
      SpellsCompound us tests → SpellsCompound (ts ++ us) (test :: tests)

/-- White space and combinators. -/
def isCombinator (t : Tree) : Bool :=
  t.token.isWhitespace || t.token == .delim '>' || t.token == .delim '+' || t.token == .delim '~'

/-- The trees of compounds that combinators join. -/
inductive Spells : List Tree → List (List Test) → Prop where
  | one {ts : List Tree} {tests : List Test} : SpellsCompound ts tests → Spells ts [tests]
  | joined {ts gap us : List Tree} {tests : List Test} {more : List (List Test)} :
      SpellsCompound ts tests → gap ≠ [] → (∀ t ∈ gap, isCombinator t = true) →
      Spells us more → Spells (ts ++ gap ++ us) (tests :: more)

theorem Spells.ne_nil {ts : List Tree} {compounds : List (List Test)} (h : Spells ts compounds) :
    compounds ≠ [] := by
  cases h <;> simp

/-- The trees of a selector without its comments. -/
def spelling (selector : String) : List Tree :=
  (Tree.ofText selector.toList).filter (!·.token.isComment)

/-! ## Parts -/

/-- The part that a test is read as. -/
def Test.part : Test → Part
  | .type name => .tag (lowerCase name)
  | .anything => .anything
  | .id name => .id (lowerCase name)
  | .className name => .className (lowerCase name)
  | .carries name => .attribute (lowerCase name)

/-- The trees are read as the parts, whatever follows them. -/
def ReadAs (ts : List Tree) (ps : List Part) : Prop :=
  ∀ (stop : Nat) (front rest : List Placed), front.map Placed.tree = ts →
    parts stop (front ++ rest) = (ps ++ ·) <$> parts stop rest

theorem map_tree_placed (mark pos : Nat) (ts : List Tree) :
    (placed mark pos ts).1.map Placed.tree = ts.filter (!·.token.isComment) := by
  induction ts generalizing mark pos with
  | nil => rfl
  | cons t ts ih =>
    rw [placed]
    split
    · next h => rw [ih, List.filter_cons_of_neg (by simp [h])]
    · next h =>
      rw [List.filter_cons_of_pos (by simpa using h), List.map_cons, ih]

theorem ReadAs.append {ts us : List Tree} {ps qs : List Part} (h : ReadAs ts ps)
    (h' : ReadAs us qs) : ReadAs (ts ++ us) (ps ++ qs) := by
  intro stop front rest hfront
  obtain ⟨front₁, front₂, rfl, h₁, h₂⟩ := List.map_eq_append_iff.1 hfront
  rw [List.append_assoc, h stop front₁ _ h₁, h' stop front₂ rest h₂]
  cases parts stop rest <;> simp [Functor.map, Except.map]

/-- One tree is read as one part, if that is what reading does first. -/
theorem ReadAs.singleton {t : Tree} {p : Part}
    (h : ∀ stop (q : Placed) rest, q.tree = t →
      parts stop (q :: rest) = (p :: ·) <$> parts stop rest) :
    ReadAs [t] [p] := by
  intro stop front rest hfront
  obtain ⟨q, rfl, hq⟩ := List.map_eq_singleton_iff.1 hfront
  exact h stop q rest hq

theorem readAs_nil : ReadAs [] [] := by
  intro stop front rest hfront
  rw [List.map_eq_nil_iff.1 hfront, List.nil_append]
  cases parts stop rest <;> simp [Functor.map, Except.map]

/-- The first tree of a body that is not a gap is where its first token comes from. -/
theorem dropWhile_isGap {body : List Tree} {token : Token} {tokens : List Token}
    (h : (body.filter (!isGap ·)).map Tree.token = token :: tokens) :
    ∃ t rest, body.dropWhile isGap = t :: rest ∧ t.token = token := by
  induction body with
  | nil => simp at h
  | cons t body ih =>
    rw [List.dropWhile_cons]
    cases hgap : isGap t with
    | true =>
      rw [List.filter_cons_of_neg (by simp [hgap])] at h
      exact ih h
    | false =>
      rw [List.filter_cons_of_pos (by simp [hgap]), List.map_cons, List.cons.injEq] at h
      exact ⟨t, body, rfl, h.1⟩

theorem SpellsAttribute.head {name : String} {tokens : List Token}
    (h : SpellsAttribute name tokens) : ∃ rest, tokens = .ident name :: rest := by
  cases h <;> exact ⟨_, rfl⟩

theorem attributeName_of_spells {p : Placed} {head : Lexeme} {body : List Tree}
    {close : Option Lexeme} {name : String} (hp : p.tree = .block head body close)
    (h : SpellsAttribute name ((body.filter (!isGap ·)).map Tree.token)) :
    attributeName p = .ok (lowerCase name) := by
  obtain ⟨rest, htokens⟩ := h.head
  obtain ⟨t, after, hdrop, htoken⟩ := dropWhile_isGap htokens
  have hgap : (fun t : Tree => t.token.isWhitespace || t.token.isComment) = isGap := rfl
  simp only [attributeName, hp, hgap, hdrop, htoken]

theorem readAs_of_spellsTest {ts : List Tree} {test : Test} (h : SpellsTest ts test) :
    ReadAs ts [test.part] := by
  cases h with
  | type ht | anything ht | id ht | hash ht =>
    refine .singleton fun stop q rest hq => ?_
    rw [parts.eq_def]
    simp only [hq, ht]
    rfl
  | className hdot ht =>
    intro stop front rest hfront
    obtain ⟨p, front', rfl, hp, hfront'⟩ := List.map_eq_cons_iff.1 hfront
    obtain ⟨q, rfl, hq⟩ := List.map_eq_singleton_iff.1 hfront'
    rw [List.cons_append, List.singleton_append, parts.eq_def]
    simp only [hp, hq, hdot, ht]
    rfl
  | carries hhead hbody =>
    refine .singleton fun stop q rest hq => ?_
    rw [parts.eq_def]
    simp only [hq, Tree.token, hhead, attributeName_of_spells hq hbody]
    rfl

theorem readAs_of_spellsCompound {ts : List Tree} {tests : List Test}
    (h : SpellsCompound ts tests) : ReadAs ts (tests.map Test.part) := by
  induction h with
  | one h => exact readAs_of_spellsTest h
  | more h _ ih => exact (readAs_of_spellsTest h).append ih

theorem readAs_of_isCombinator {t : Tree} (h : isCombinator t = true) :
    ReadAs [t] [.separator] := by
  refine .singleton fun stop q rest hq => ?_
  rw [parts.eq_def]
  simp only [isCombinator, Bool.or_eq_true, beq_iff_eq] at h
  rcases h with ((h | h) | h) | h
  · obtain ⟨text, htext⟩ : ∃ text, t.token = .whitespace text := by
      cases htoken : t.token <;> simp [htoken, Token.isWhitespace] at h ⊢
    simp only [hq, htext]
  all_goals simp only [hq, h]

theorem readAs_of_forall_isCombinator {gap : List Tree} (h : ∀ t ∈ gap, isCombinator t = true) :
    ReadAs gap (gap.map fun _ => .separator) := by
  induction gap with
  | nil => exact readAs_nil
  | cons t gap ih =>
    exact (readAs_of_isCombinator (h t List.mem_cons_self)).append
      (ih fun u hu => h u (List.mem_cons_of_mem _ hu))

/-! ## Compounds -/

/-- The compound that tests ask for. -/
def compoundOf (tests : List Test) : Compound := (tests.map Test.part).foldl Compound.add .universal

theorem compoundsFrom_map_part (c : Compound) (tests : List Test) (ps : List Part) :
    compoundsFrom c (tests.map Test.part ++ ps)
      = compoundsFrom ((tests.map Test.part).foldl Compound.add c) ps := by
  induction tests generalizing c with
  | nil => rfl
  | cons test tests ih => cases test <;> exact ih _

theorem compoundsFrom_separators {gap : List Tree} (hgap : gap ≠ []) (c : Compound)
    (ps : List Part) :
    compoundsFrom c (gap.map (fun _ => Part.separator) ++ ps)
      = c.kept ++ compoundsFrom .universal ps := by
  induction gap generalizing c with
  | nil => exact absurd rfl hgap
  | cons t gap ih =>
    rw [List.map_cons, List.cons_append, compoundsFrom]
    by_cases h : gap = []
    · rw [h]
      rfl
    · -- Between two separators nothing is asked for.
      have hempty : Compound.kept .universal = [] := rfl
      rw [ih h, hempty, List.nil_append]

/-- The trees are read as parts whose compounds are those that are spelled. -/
theorem exists_readAs_of_spells {ts : List Tree} {compounds : List (List Test)}
    (h : Spells ts compounds) :
    ∃ ps, ReadAs ts ps ∧
      compoundsFrom .universal ps = compounds.flatMap fun tests => (compoundOf tests).kept := by
  induction h with
  | @one ts tests h =>
    refine ⟨_, readAs_of_spellsCompound h, ?_⟩
    have hadd := compoundsFrom_map_part .universal tests []
    rw [List.append_nil] at hadd
    rw [hadd, compoundsFrom, List.flatMap_singleton]
    rfl
  | @joined ts gap us tests more h hne hgap _ ih =>
    obtain ⟨ps, hread, hps⟩ := ih
    refine ⟨_, ((readAs_of_spellsCompound h).append (readAs_of_forall_isCombinator hgap)).append
      hread, ?_⟩
    rw [List.append_assoc, compoundsFrom_map_part, compoundsFrom_separators hne, hps,
      List.flatMap_cons]
    rfl

/-- The chain of compounds, without those that ask for nothing unless all do. -/
def chainFor (compounds : List (List Test)) : Chain :=
  match compounds.flatMap fun tests => (compoundOf tests).kept with
  | [] => [.universal]
  | c :: cs => c :: cs

theorem chainFor_ne_nil (compounds : List (List Test)) : chainFor compounds ≠ [] := by
  unfold chainFor
  split <;> simp

/-- A selector that is spelled can be read, and its chain asks for what is spelled. -/
theorem parse_of_spells {selector : String} {compounds : List (List Test)}
    (h : Spells (spelling selector) compounds) :
    parse selector = .ok (chainFor compounds) := by
  obtain ⟨ps, hread, hps⟩ := exists_readAs_of_spells h
  have htrees : (placed 0 0 (Tree.ofText selector.toList)).1.map Placed.tree = spelling selector :=
    map_tree_placed 0 0 _
  have hparts := hread (placed 0 0 (Tree.ofText selector.toList)).2 _ [] htrees
  rw [List.append_nil] at hparts
  simp only [parse, parseTrees, hparts, chainFor, ← hps]
  simp only [parts, Functor.map, Except.map, List.append_nil]
  rfl

/-! ## What a compound asks for -/

/-- An element offers what a part asks for. -/
def Part.MetBy (element : Compound) : Part → Prop
  | .tag name => element.tag = some name
  | .id name => element.id = some name
  | .className name => name ∈ element.classes
  | .attribute name => name ∈ volatileAttributes ∨ name ∈ element.attributes
  | _ => True

theorem asks_iff {wanted offered : Option String} :
    Compound.asks wanted offered = true ↔ ∀ name, wanted = some name → offered = some name := by
  cases wanted with
  | none => simp [Compound.asks]
  | some w =>
    simp only [Compound.asks, Option.isNone_some, Bool.false_or, beq_iff_eq, Option.some.injEq,
      forall_eq']
    exact eq_comm

theorem accepts_iff {c element : Compound} :
    c.accepts element = true ↔
      (∀ name, c.tag = some name → element.tag = some name) ∧
      (∀ name, c.id = some name → element.id = some name) ∧
      (∀ name ∈ c.classes, name ∈ element.classes) ∧
      ∀ name ∈ c.attributes, name ∈ element.attributes := by
  simp only [Compound.accepts, Bool.and_eq_true, asks_iff, NameSet.subset_iff, and_assoc]

theorem accepts_add {c element : Compound} {p : Part} (h : c.accepts element = true)
    (hp : p.MetBy element) : (c.add p).accepts element = true := by
  rw [accepts_iff] at h ⊢
  obtain ⟨htag, hid, hclasses, hattributes⟩ := h
  match p, hp with
  | .tag name, hp =>
    refine ⟨?_, hid, hclasses, hattributes⟩
    rintro _ ⟨⟩
    exact hp
  | .id name, hp =>
    refine ⟨htag, ?_, hclasses, hattributes⟩
    rintro _ ⟨⟩
    exact hp
  | .className name, hp =>
    refine ⟨htag, hid, fun a ha => ?_, hattributes⟩
    rcases NameSet.mem_insert.1 ha with rfl | ha
    · exact hp
    · exact hclasses a ha
  | .attribute name, hp =>
    rw [Compound.add]
    split
    · exact ⟨htag, hid, hclasses, hattributes⟩
    · next hvolatile =>
      refine ⟨htag, hid, hclasses, fun a ha => ?_⟩
      rcases NameSet.mem_insert.1 ha with rfl | ha
      · exact hp.resolve_left (by simpa using hvolatile)
      · exact hattributes a ha
  | .anything, _ | .pseudoClass _, _ | .pseudoElement _, _ | .separator, _ =>
    exact ⟨htag, hid, hclasses, hattributes⟩

/-- An element that meets every test is accepted. -/
theorem accepts_compoundOf {tests : List Test} {element : Compound}
    (h : ∀ test ∈ tests, test.part.MetBy element) :
    (compoundOf tests).accepts element = true := by
  have hall : ∀ c : Compound, c.accepts element = true →
      ((tests.map Test.part).foldl Compound.add c).accepts element = true := by
    induction tests with
    | nil => exact fun c hc => hc
    | cons test tests ih =>
      intro c hc
      exact ih (fun t ht => h t (List.mem_cons_of_mem _ ht)) _
        (accepts_add hc (h test List.mem_cons_self))
  exact hall _ (Compound.universal_accepts element)

theorem mem_classes_add {c : Compound} {name : String} (p : Part) (h : name ∈ c.classes) :
    name ∈ (c.add p).classes := by
  unfold Compound.add
  split <;> try exact h
  · exact NameSet.mem_insert.2 (.inr h)
  · split <;> exact h

theorem mem_attributes_add {c : Compound} {name : String} (p : Part) (h : name ∈ c.attributes) :
    name ∈ (c.add p).attributes := by
  unfold Compound.add
  split <;> try exact h
  split
  · exact h
  · exact NameSet.mem_insert.2 (.inr h)

/-- What one part brings about and no part undoes holds after all parts have been added. -/
theorem foldl_add_of_mem {P : Compound → Prop} {p : Part} {ps : List Part} (hp : p ∈ ps)
    (hnew : ∀ c : Compound, P (c.add p)) (hkeep : ∀ (c : Compound) q, P c → P (c.add q))
    (c : Compound) : P (ps.foldl Compound.add c) := by
  have hrest : ∀ (qs : List Part) (c : Compound), P c → P (qs.foldl Compound.add c) := by
    intro qs
    induction qs with
    | nil => exact fun _ hc => hc
    | cons q qs ih => exact fun c hc => ih _ (hkeep c q hc)
  obtain ⟨before, after, rfl⟩ := List.append_of_mem hp
  rw [List.foldl_append, List.foldl_cons]
  exact hrest after _ (hnew _)

theorem mem_classes_compoundOf {tests : List Test} {name : String} (h : .className name ∈ tests) :
    lowerCase name ∈ (compoundOf tests).classes :=
  foldl_add_of_mem (P := fun c => lowerCase name ∈ c.classes) (List.mem_map_of_mem h)
    (fun _ => NameSet.mem_insert.2 (.inl rfl)) (fun _ q => mem_classes_add q) _

theorem mem_attributes_compoundOf {tests : List Test} {name : String} (h : .carries name ∈ tests)
    (hvolatile : lowerCase name ∉ volatileAttributes) :
    lowerCase name ∈ (compoundOf tests).attributes := by
  refine foldl_add_of_mem (P := fun c => lowerCase name ∈ c.attributes) (List.mem_map_of_mem h)
    (fun c => ?_) (fun _ q => mem_attributes_add q) _
  rw [Test.part, Compound.add, if_neg (by simpa using hvolatile)]
  exact NameSet.mem_insert.2 (.inl rfl)

theorem eq_universal_of_isUniversal {c : Compound} (h : c.isUniversal = true) :
    c = .universal := by
  obtain ⟨tag, id, ⟨classes, hclasses⟩, ⟨attributes, hattributes⟩, pseudoClasses,
    pseudoElements⟩ := c
  simp only [Compound.isUniversal, NameSet.isEmpty, Bool.and_eq_true, Option.isNone_iff_eq_none,
    List.isEmpty_iff] at h
  obtain ⟨⟨⟨⟨⟨rfl, rfl⟩, rfl⟩, rfl⟩, rfl⟩, rfl⟩ := h
  rfl

theorem mem_flatMap_kept {compounds : List (List Test)} {c : Compound} :
    (c ∈ compounds.flatMap fun tests => (compoundOf tests).kept) ↔
      c.isUniversal = false ∧ ∃ tests ∈ compounds, c = compoundOf tests := by
  simp only [List.mem_flatMap, Compound.kept]
  constructor
  · rintro ⟨tests, htests, hc⟩
    split at hc
    · cases hc
    · next hne =>
      rw [List.mem_singleton] at hc
      subst hc
      exact ⟨by simpa using hne, tests, htests, rfl⟩
  · rintro ⟨hne, tests, htests, rfl⟩
    exact ⟨tests, htests, by simp [hne]⟩

/-- What holds of the compound that asks for nothing holds throughout the chain if it holds of every
compound that is spelled. -/
theorem forall_mem_chainFor {P : Compound → Prop} (h : P .universal)
    {compounds : List (List Test)} :
    (∀ c ∈ chainFor compounds, P c) ↔ ∀ tests ∈ compounds, P (compoundOf tests) := by
  have hkept : (∀ c ∈ chainFor compounds, P c) ↔
      ∀ c ∈ compounds.flatMap fun tests => (compoundOf tests).kept, P c := by
    unfold chainFor
    split
    · next hnil => simp [hnil, h]
    · next hcons => rw [hcons]
  rw [hkept]
  simp only [mem_flatMap_kept]
  constructor
  · intro hall tests htests
    by_cases hempty : (compoundOf tests).isUniversal = true
    · rw [eq_universal_of_isUniversal hempty]
      exact h
    · exact hall _ ⟨by simpa using hempty, tests, htests, rfl⟩
  · rintro hall c ⟨-, tests, htests, rfl⟩
    exact hall tests htests

end StyleSieve.Selector
