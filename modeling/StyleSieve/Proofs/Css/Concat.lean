import StyleSieve.Proofs.Css.Grammar
import StyleSieve.Proofs.Css.Tidy

/-!
# Stylesheets one after another

Where a text ends between two lexemes, leaves no block open and its last phrase stops there, another
text can be put after it: the events of both together are those of the first and then those of the
second, moved by the bytes of the first (`events_append`). A text that ends with a block that is
closed ends in this way whatever comes after it (`EndsInBlock.events_append`). The second text may be
malformed.
-/

namespace StyleSieve.Css

open Phrase
open StyleSieve.Css.Tree (isSemicolon isColon isComma isCurly isGap endsSelector endsPrelude
  rawOf widthOf lexemesOf Bracketed)

/-! ## Texts that stand further on -/

/-- A span that begins so many bytes later. -/
def Span.shift (n : Nat) (s : Span) : Span := ⟨n + s.start, n + s.stop⟩

def Event.shift (n : Nat) (e : Event) : Event := { e with span := e.span.shift n }

def SyntaxError.shift (n : Nat) (e : SyntaxError) : SyntaxError :=
  { e with offset := n + e.offset }

/-- The outcome of a text that stands so many bytes later. -/
def Outcome.shift (n : Nat) (p : Outcome) : Outcome :=
  ⟨p.events.map (Event.shift n), p.error.map (SyntaxError.shift n)⟩

@[simp] theorem Event.shift_mk (n : Nat) (kind : EventKind) (data : String) (values : List String)
    (start stop : Nat) : Event.shift n ⟨kind, data, values, ⟨start, stop⟩⟩ =
      ⟨kind, data, values, ⟨n + start, n + stop⟩⟩ := rfl

@[simp] theorem Event.shift_kind (n : Nat) (e : Event) : (e.shift n).kind = e.kind := rfl

@[simp] theorem Event.shift_data (n : Nat) (e : Event) : (e.shift n).data = e.data := rfl

@[simp] theorem Event.shift_values (n : Nat) (e : Event) : (e.shift n).values = e.values := rfl

@[simp] theorem Event.shift_text (n : Nat) (e : Event) : (e.shift n).text = e.text := rfl

@[simp] theorem Event.shift_atName (n : Nat) (e : Event) : (e.shift n).atName = e.atName := rfl

@[simp] theorem Event.shift_prelude (n : Nat) (e : Event) : (e.shift n).prelude = e.prelude := rfl

@[simp] theorem Event.shift_start (n : Nat) (e : Event) :
    (e.shift n).span.start = n + e.span.start := rfl

@[simp] theorem Event.shift_stop (n : Nat) (e : Event) :
    (e.shift n).span.stop = n + e.span.stop := rfl

@[simp] theorem Event.shift_zero (e : Event) : e.shift 0 = e := by
  simp [Event.shift, Span.shift]

theorem Event.shift_shift (m n : Nat) (e : Event) : (e.shift n).shift m = e.shift (m + n) := by
  simp [Event.shift, Span.shift, Nat.add_assoc]

theorem Event.map_shift_zero (es : List Event) : es.map (shift 0) = es := by
  have hshift : shift 0 = id := funext Event.shift_zero
  rw [hshift, List.map_id]

theorem Outcome.shift_zero (p : Outcome) : p.shift 0 = p := by
  rcases p with ⟨es, e⟩
  cases e <;> simp [shift, SyntaxError.shift, Event.map_shift_zero]

theorem Outcome.shift_shift (m n : Nat) (p : Outcome) : (p.shift n).shift m = p.shift (m + n) := by
  rcases p with ⟨es, e⟩
  cases e <;> simp [shift, SyntaxError.shift, Event.shift_shift, Nat.add_assoc]

@[simp] theorem Outcome.shift_empty (n : Nat) : Outcome.empty.shift n = .empty := rfl

@[simp] theorem Outcome.shift_one (n : Nat) (e : Event) :
    (Outcome.one e).shift n = .one (e.shift n) := rfl

@[simp] theorem Outcome.shift_fail (n : Nat) (fault : SyntaxFault) (offset : Nat) :
    (Outcome.fail fault offset).shift n = .fail fault (n + offset) := rfl

@[simp] theorem Outcome.shift_append (n : Nat) (p q : Outcome) :
    (p ++ q).shift n = p.shift n ++ q.shift n := by
  rcases p with ⟨es, e⟩
  cases e <;> simp [append_def, shift]

theorem guarded_shift {n : Nat} {next next' : Outcome} (h : next' = next.shift n) (pos : Nat)
    (ts : List Tree) : guarded (n + pos) ts next' = (guarded pos ts next).shift n := by
  have hfault : ∀ pos, firstFault (n + pos) ts = (firstFault pos ts).map (SyntaxError.shift n) := by
    induction ts with
    | nil => intro pos; rfl
    | cons t ts ih =>
      intro pos
      rw [firstFault, firstFault]
      split
      · rfl
      · rfl
      · rw [Nat.add_assoc]
        exact ih _
  rw [guarded, guarded, hfault, h]
  cases firstFault pos ts <;> rfl

theorem selectorEvent_shift (n : Nat) (kind : EventKind) (pos : Nat) (ts : List Tree) :
    selectorEvent kind (n + pos) ts = (selectorEvent kind pos ts).shift n := by
  simp [selectorEvent, Event.shift, Span.shift, Nat.add_assoc]

theorem commentEvent_shift (n pos : Nat) (t : Tree) :
    commentEvent (n + pos) t = (commentEvent pos t).shift n := by
  simp [commentEvent, Event.shift, Span.shift, Nat.add_assoc]

theorem endEvent_shift (n : Nat) (kind : EventKind) (t : Tree) (pos : Nat) :
    endEvent kind t (n + pos + t.width) = (endEvent kind t (pos + t.width)).shift n := by
  unfold endEvent
  split
  · next hlast =>
    have hpos : 1 ≤ t.width := by
      obtain ⟨before, hraw⟩ := List.getLast?_eq_some_iff.1 hlast
      rw [Tree.width, hraw, Text.width_append, Text.width_cons]
      have := Char.utf8Size_pos '}'
      omega
    simp only [Event.shift, Span.shift, Event.mk.injEq, Span.mk.injEq, true_and]
    omega
  · simp [Event.shift, Span.shift, Nat.add_assoc]

theorem declarationEvent_shift (n : Nat) (name : Tree) (value : List Tree) (span : Span) :
    declarationEvent name value (span.shift n) = (declarationEvent name value span).shift n := by
  unfold declarationEvent
  split <;> rfl

/-- Trees that stand further on are read in the same way. -/
theorem Reading.shift {ctx : Context} {pos : Nat} {ts : List Tree} {p : Outcome}
    (h : Reading ctx pos ts p) (n : Nat) : Reading ctx (n + pos) ts (p.shift n) := by
  induction h with
  | nil inner => exact .nil inner
  | filler inner derives _ ih => exact .filler inner derives (by rwa [Nat.add_assoc])
  | comment inner token _ ih =>
    rw [Outcome.shift_append, Outcome.shift_one, ← commentEvent_shift]
    exact .comment inner token (by rwa [Nat.add_assoc])
  | rule begins _ ih => exact .rule begins ih
  | selector unended comma values _ ih =>
    rw [← guarded_shift rfl, Outcome.shift_append, Outcome.shift_one, ← selectorEvent_shift]
    simp only [← Nat.add_assoc] at ih
    exact .selector unended comma values ih
  | ruleset unended curly values _ _ ihInside ih =>
    rw [← guarded_shift rfl]
    simp only [Outcome.shift_append, Outcome.shift_one, ← selectorEvent_shift, ← endEvent_shift]
    simp only [← Nat.add_assoc] at ihInside ih ⊢
    exact .ruleset unended curly values ihInside ih
  | endInSelector unended =>
    rw [← guarded_shift rfl, Outcome.shift_fail, ← Nat.add_assoc]
    exact .endInSelector unended
  | emptySelector unended mark values =>
    rw [← guarded_shift rfl, Outcome.shift_fail, ← Nat.add_assoc]
    exact .emptySelector unended mark values
  | inSelector unended ends comma curly =>
    rw [← guarded_shift rfl, Outcome.shift_fail, ← Nat.add_assoc]
    exact .inSelector unended ends comma curly
  | lastStatement inner token unended =>
    rw [← guarded_shift rfl, Outcome.shift_one, Event.shift_mk]
    simp only [← Nat.add_assoc]
    exact .lastStatement inner token unended
  | statement inner token unended semicolon _ ih =>
    rw [← guarded_shift rfl, Outcome.shift_append, Outcome.shift_one, Event.shift_mk]
    simp only [← Nat.add_assoc] at ih ⊢
    exact .statement inner token unended semicolon ih
  | block inner token unended curly _ _ ihInside ih =>
    rw [← guarded_shift rfl]
    simp only [Outcome.shift_append, Outcome.shift_one, Event.shift_mk, ← endEvent_shift]
    simp only [← Nat.add_assoc] at ihInside ih ⊢
    exact .block inner token unended curly ihInside ih
  | declaration token blank mark unended ended _ ih =>
    rw [← guarded_shift rfl, Outcome.shift_append, Outcome.shift_one, ← declarationEvent_shift,
      Span.shift]
    simp only [← Nat.add_assoc] at ih ⊢
    exact .declaration token blank mark unended ended ih
  | missingColon token blank other =>
    rw [Outcome.shift_fail]
    simp only [← Nat.add_assoc]
    exact .missingColon token blank other
  | inRules token => exact .inRules token
  | inDeclarations token => exact .inDeclarations token

/-- Where trees stand shows in the spans of their events and in nothing else. -/
theorem eventsOf_shift (n : Nat) (ctx : Context) (pos : Nat) (ts : List Tree) :
    eventsOf ctx (n + pos) ts = (eventsOf ctx pos ts).shift n :=
  ((reading_eventsOf ctx pos ts).shift n).eventsOf_eq

/-! ## One text after another -/

section

variable {cs ds : List Char}

theorem lexemes_append (h : Reads (lexemes cs) ds) :
    lexemes (cs ++ ds) = lexemes cs ++ lexemes ds := by
  rwa [Reads, lexemes_raw] at h

/-- The trees of a text that leaves nothing open do not change when another one follows. -/
theorem ofText_append (h : Reads (lexemes cs) ds)
    (hclosed : Bracketed none false (Tree.ofText cs)) :
    Tree.ofText (cs ++ ds) = Tree.ofText cs ++ Tree.ofText ds := by
  have hcs : lexemesOf (Tree.ofText cs) = lexemes cs := Tree.forest_lexemes _
  have hds : lexemesOf (Tree.ofText ds) = lexemes ds := Tree.forest_lexemes _
  refine Tree.ofText_eq ?_ (hclosed.append (Tree.bracketed_forest _))
  rw [Tree.lexemesOf_append, hcs, hds, lexemes_append h]

end

/-- The events of two texts, one after another. -/
theorem events_append {source : String} {ps : List Phrase} (h : Spells source ps) {next : String}
    (hreads : Reads (lexemes source.toList) next.toList)
    (hclosed : Bracketed none false (Tree.ofText source.toList))
    (hlast : ∀ p ∈ ps.getLast?, p.StopsBefore (Tree.ofText next.toList)) :
    events (source ++ next) = events source ++ (events next).shift (Text.width source.toList) := by
  have hwidth : widthOf (Tree.ofText source.toList) = Text.width source.toList := by
    rw [widthOf, Tree.rawOf_ofText]
  rw [events, String.toList_append, ofText_append hreads hclosed, ← h.trees_eq,
    eventsOf_treesOf_append (by simp) h.derives h.joined hlast, h.trees_eq, hwidth, Nat.zero_add,
    events, Parses.eventsOf_eq (by simp) h, events, ← eventsOf_shift, Nat.add_zero]

/-! ## White space before a text -/

section

variable {c : Char} {cs run rest : List Char}

theorem reads_run (h : ∀ d ∈ c :: cs, isSpace d = true) (hrest : startsWith isSpace rest = false) :
    Reads [⟨.whitespace (String.ofList (c :: cs)), c :: cs⟩] rest := by
  have hrun : (cs ++ rest).takeWhile isSpace = cs := by
    rw [List.takeWhile_append_of_pos fun d hd => h d (List.mem_cons_of_mem c hd)]
    cases rest with
    | nil => simp
    | cons d rest =>
      rw [startsWith_cons] at hrest
      simp [hrest]
  refine reads_of_readToken (u := cs) rfl ?_
  rw [readToken, if_pos (h c List.mem_cons_self), hrun]

theorem events_run (hrun : ∀ d ∈ run, isSpace d = true) (hrest : startsWith isSpace rest = false) :
    events (String.ofList (run ++ rest)) =
      (events (String.ofList rest)).shift (Text.width run) := by
  cases run with
  | nil => exact (Outcome.shift_zero _).symm
  | cons c run =>
    have hlexemes : lexemes (c :: run) = [⟨.whitespace (String.ofList (c :: run)), c :: run⟩] := by
      have halone : Reads [⟨.whitespace (String.ofList (c :: run)), c :: run⟩] [] :=
        reads_run hrun rfl
      simpa [Reads, lexemes_nil] using halone
    have hleaf : Bracketed none false [.leaf ⟨.whitespace (String.ofList (c :: run)), c :: run⟩] :=
      .leaf rfl (fun _ _ => by simp [Token.closes]) .nil
    have htree : Tree.ofText (c :: run) =
        [.leaf ⟨.whitespace (String.ofList (c :: run)), c :: run⟩] := by
      refine Tree.ofText_eq ?_ hleaf.ends
      rw [hlexemes]
      simp [Tree.lexemes]
    rw [events, String.toList_ofList,
      ofText_append (by rw [hlexemes]; exact reads_run hrun hrest) (htree ▸ hleaf), htree,
      List.singleton_append, eventsOf_filler (by simp) (.white rfl), events, String.toList_ofList,
      ← eventsOf_shift]
    simp [Tree.width, Tree.raw, Tree.lexemes]

end

/-- White space before a text moves its events and does nothing else. -/
theorem events_append_white {blank : String} (hblank : ∀ c ∈ blank.toList, isSpace c = true)
    (next : String) : events (blank ++ next) = (events next).shift (Text.width blank.toList) := by
  have hrest : startsWith isSpace (next.toList.dropWhile isSpace) = false := by
    have hnot := List.head?_dropWhile_not isSpace next.toList
    cases hdrop : next.toList.dropWhile isSpace with
    | nil => rfl
    | cons c rest =>
      rw [hdrop] at hnot
      simpa [startsWith_cons] using hnot
  have hrun : ∀ c ∈ next.toList.takeWhile isSpace, isSpace c = true :=
    List.all_eq_true.1 List.all_takeWhile
  have hnext := events_run hrun hrest
  have hboth := events_run (List.forall_mem_append.2 ⟨hblank, hrun⟩) hrest
  rw [List.takeWhile_append_dropWhile, String.ofList_toList] at hnext
  rw [List.append_assoc, List.takeWhile_append_dropWhile, ← String.toList_append,
    String.ofList_toList] at hboth
  rw [hboth, hnext, Outcome.shift_shift, Text.width_append]

/-! ## Texts that end with a block -/

/-- The last token is the curly bracket that closes the last block at the top level. All other
blocks are closed then. -/
def EndsInBlock (source : String) : Prop :=
  ∃ ts head body close, Tree.ofText source.toList = ts ++ [.block head body (some close)] ∧
    head.token = .opening .curly

/-- Whether a tree is a block between curly brackets that is closed. -/
def isClosedBlock : Tree → Bool
  | .block head _ (some _) => head.token == .opening .curly
  | _ => false

instance (source : String) : Decidable (EndsInBlock source) :=
  decidable_of_iff ((Tree.ofText source.toList).getLast?.any isClosedBlock = true) (by
    rw [Option.any_eq_true]
    constructor
    · rintro ⟨t, hlast, ht⟩
      obtain ⟨ts, hts⟩ := List.getLast?_eq_some_iff.1 hlast
      unfold isClosedBlock at ht
      split at ht
      · next head body close => exact ⟨ts, head, body, close, hts, beq_iff_eq.1 ht⟩
      · contradiction
    · rintro ⟨ts, head, body, close, hsource, hcurly⟩
      exact ⟨_, by rw [hsource, List.getLast?_concat],
        by rw [isClosedBlock, hcurly, beq_self_eq_true]⟩)

namespace EndsInBlock

variable {source : String}

theorem bracketed (h : EndsInBlock source) : Bracketed none false (Tree.ofText source.toList) := by
  obtain ⟨ts, head, body, close, hsource, -⟩ := h
  have hforest : Bracketed none true (Tree.ofText source.toList) := Tree.bracketed_forest _
  rw [hsource] at hforest ⊢
  refine (hforest.left (List.cons_ne_nil _ _)).append ?_
  cases hforest.right with
  | block opens closes inside _ => exact .block opens closes inside .nil

/-- The bracket at the end is read whatever follows. -/
theorem reads (h : EndsInBlock source) (y : List Char) : Reads (lexemes source.toList) y := by
  obtain ⟨ts, head, body, close, hsource, hcurly⟩ := h
  have hforest : Bracketed none true (Tree.ofText source.toList) := Tree.bracketed_forest _
  rw [hsource] at hforest
  obtain ⟨before, hbefore⟩ : ∃ before, lexemes source.toList = before ++ [close] := by
    refine ⟨lexemesOf ts ++ head :: lexemesOf body, ?_⟩
    have hlexemes : lexemesOf (Tree.ofText source.toList) = lexemes source.toList :=
      Tree.forest_lexemes _
    rw [← hlexemes, hsource]
    simp [Tree.lexemes]
  cases hforest.right with
  | @block _ _ _ _ b _ _ opens closes inside _ =>
    obtain rfl : b = .curly := by
      rw [hcurly] at opens
      exact (Option.some.inj opens).symm
    have hclose := Token.eq_closing closes
    have hread : Reads (before ++ [close]) [] := hbefore ▸ reads_lexemes source.toList
    rw [hbefore]
    exact hread.exchange_of_mark (d := '\x7d') (by rw [hclose]; rfl) (by rw [hclose]; rfl)

/-- The last phrase is the one that the block belongs to. -/
theorem stopsBefore (h : EndsInBlock source) {ps : List Phrase} (hspells : Spells source ps)
    (rest : List Tree) : ∀ p ∈ ps.getLast?, p.StopsBefore rest := by
  obtain ⟨ts, head, body, close, hsource, hcurly⟩ := h
  intro p hp
  obtain ⟨before, rfl⟩ := List.getLast?_eq_some_iff.1 hp
  have hderives : Derives .rules p := hspells.derives p (by simp)
  have htrees := hspells.trees_eq
  rw [hsource, treesOf_append, treesOf_cons, treesOf_nil, List.append_nil] at htrees
  cases hderives with
  | @statement _ keyword prelude stop _ hkeyword hsound hprelude hstop =>
    cases stop with
    | some t => trivial
    | none =>
      have hblock : Tree.block head body (some close) ∈ keyword :: prelude := by
        have hends := congrArg List.getLast? htrees
        rw [trees, Option.toList_none, List.append_nil, List.getLast?_append, List.getLast?_concat,
          List.getLast?_eq_some_getLast (List.cons_ne_nil keyword prelude), Option.some_or] at hends
        exact Option.some.inj hends ▸ List.getLast_mem _
      rcases List.mem_cons.1 hblock with rfl | hblock
      · rw [Tree.token, hcurly] at hkeyword
        contradiction
      · have hends := hprelude _ hblock
        simp [endsPrelude, isCurly, hcurly] at hends
  | _ => trivial

theorem events_append (h : EndsInBlock source) (herror : (events source).error = none)
    (next : String) :
    events (source ++ next) = events source ++ (events next).shift (Text.width source.toList) := by
  obtain ⟨ps, hspells⟩ := (accepts_iff_derives source).1.1 herror
  exact Css.events_append hspells (h.reads _) h.bracketed (h.stopsBefore hspells _)

end EndsInBlock

end StyleSieve.Css
