import StyleSieve.Proofs.Css.Calls
import StyleSieve.Proofs.Css.Grammar

/-!
# The loops read the events of a stylesheet

Wherever the trees of a context come next, the loop of the context reads their events, and stops
with their fault or at their end (`Reading.readsAs`). So the loops read the events of a stylesheet
(`parseSheet_eq`), and reading it ends because all of them do (`parseSheet_ends`).
-/

namespace StyleSieve.Css

open StyleSieve.Css.Tree (Bracketed rawOf widthOf isGap)

variable {c d e : Cursor} {g : Gathering} {r : Reader} {t : Tree} {ts us : List Tree} {pos : Nat}
  {token : Token} {p q : Outcome} {k : Answer → Option Answer}

/-! ## Marks that end a loop -/

/-- The tokens at which a selector ends, or breaks off. -/
def stopsSelector (token : Token) : Bool :=
  token == .comma || token == .opening .curly || token == .semicolon || token == .closing .curly

/-- The tokens at which a prelude ends. -/
def stopsPrelude (token : Token) : Bool := token == .semicolon || token == .opening .curly

/-- The token at which a value ends. -/
def stopsValue (token : Token) : Bool := token == .semicolon

/-- What ends a selector can be told by its token. -/
theorem stopsSelector_eq {within : Option Bracket} {ended : Bool}
    (h : Bracketed within ended ts) (ht : t ∈ ts) : stopsSelector t.token = t.endsSelector := by
  obtain ⟨hcomma, hsemicolon, -, hcurly⟩ := h.marks_eq ht
  rw [Tree.endsSelector, hcomma, hsemicolon, hcurly]
  rfl

theorem stopsPrelude_eq {within : Option Bracket} {ended : Bool}
    (h : Bracketed within ended ts) (ht : t ∈ ts) : stopsPrelude t.token = t.endsPrelude := by
  obtain ⟨-, hsemicolon, -, hcurly⟩ := h.marks_eq ht
  rw [Tree.endsPrelude, hsemicolon, hcurly]
  rfl

theorem stopsValue_eq {within : Option Bracket} {ended : Bool}
    (h : Bracketed within ended ts) (ht : t ∈ ts) : stopsValue t.token = t.isSemicolon :=
  (h.marks_eq ht).2.1.symm

theorem selectorTurn_more (h : g.cursor.next = (some token, d))
    (hstops : stopsSelector token = false) : selectorTurn g = some (g.more token d) := by
  rw [selectorTurn, h]
  split <;> simp_all [stopsSelector]

theorem preludeTurn_more {data : String} (h : g.cursor.next = (some token, d))
    (hstops : stopsPrelude token = false) : preludeTurn data g = some (g.more token d) := by
  rw [preludeTurn, h]
  split <;> simp_all [stopsPrelude]

theorem valueTurn_more {data : List Char} {start : Cursor} (h : g.cursor.next = (some token, d))
    (hstops : stopsValue token = false) :
    some (valueTurn data start g) = some (g.more token d) := by
  rw [valueTurn, h]
  split <;> simp_all [stopsValue]

/-- A loop reads the trees before the mark at which it stops, and goes on there. -/
theorem yields_phrase {turn : Gathering → Option (Turn Gathering)}
    {loop : Gathering → Option Answer} {stops : Token → Bool} {ends : Tree → Bool}
    (hloop : ∀ g, loop g = (turn g).bind (Turn.follow loop))
    (hturn : ∀ {g token d}, g.cursor.next = (some token, d) → stops token = false →
      turn g = some (g.more token d))
    (hends : ∀ {within ended ts t}, Bracketed within ended ts → t ∈ ts →
      stops t.token = ends t)
    (hk : Passes k) (h : g.cursor.Before (ts ++ us) e) (hts : ∀ t ∈ ts, ends t = false)
    (hp : ∀ g', g.Through ts us e g' → Yields ((loop g').bind k) g.reader.events p e) :
    Yields ((loop g).bind k) g.reader.events (guarded g.cursor.position ts p) e := by
  refine yields_gathered hloop hturn hk h (fun t ht => ?_) hp
  rw [hends h.bracketed (List.mem_append_left us ht), hts t ht]

/-! ## Blocks -/

/-- The loop that reads the trees of a context. Selectors are followed by more rules. -/
def loopOf : Context → Reader → Option Answer
  | .rules => ruleList
  | .declarations => declarationList
  | .selectors => fun r => (qualifiedRule (.fresh r)).bind (Answer.resume ruleList)

theorem readInside_eq {body : Context} (h : body ≠ .selectors) (r : Reader) :
    readInside body r = loopOf body r := by
  rw [readInside]
  cases body with
  | rules => rfl
  | declarations => rfl
  | selectors => contradiction

/-- An event that has been read last. -/
theorem yields_one (r : Reader) (event : Event) :
    Yields (some (r.emit event).done) r.events (.one event) r.cursor := by
  rw [← Outcome.append_empty (.one event)]
  exact (yields_done (r.emit event)).one_append

/-- The inside of a block is read to its end, so nothing is left of it. -/
theorem yields_outOf {b : Bracket} (h : (d.enter b).Before ts e)
    (es : List Event) :
    Yields (some ((Reader.done ⟨e, es⟩).outOf d b)) es .empty (d.exit e b) := by
  have hfinished : (d.enter b).Finished e := ⟨h.onward, h.atEnd⟩
  have hreaches : (Reader.done ⟨e, es⟩).Reaches (d.enter b).Finished := reaches_done hfinished
  rw [Answer.outOf, hreaches.exhaust_eq]
  exact yields_done ⟨d.exit e b, es⟩

theorem yields_close (hover : c.Over t.raw d) (kind : EventKind) (es : List Event) :
    Yields (some ((Reader.done ⟨d, es⟩).close kind c)) es
      (.one (endEvent kind t (c.position + t.width))) d := by
  have hposition : d.position = c.position + t.width := hover.2
  have hclose : (Reader.done ⟨d, es⟩).close kind c =
      (Reader.emit ⟨d, es⟩ (endEvent kind t (c.position + t.width))).done := by
    rw [Answer.close, if_neg (by simp [Reader.done]), endEvent, ← hposition]
    simp only [Reader.done, hover.since_eq]
  rw [hclose]
  exact yields_one ⟨d, es⟩ _

/-- Wherever the trees come next at a position, the loop of the context reads them. -/
def ReadsAs (ctx : Context) (pos : Nat) (ts : List Tree) (p : Outcome) : Prop :=
  ∀ (r : Reader) (e : Cursor), r.cursor.position = pos → r.cursor.Before ts e →
    Yields (loopOf ctx r) r.events p e

/-- A block is read with its end, and then what comes behind it. -/
theorem exists_yields_block {ctx body : Context} (h : c.Before (t :: us) e)
    (hcurly : t.isCurly = true) (hinside : ReadsAs body (c.position + t.headWidth) t.inside p)
    (hbody : body ≠ .selectors) (hrest : ReadsAs ctx (c.position + t.width) us q)
    (kind : EventKind) :
    ∃ d, c.next = (some (.opening .curly), d) ∧
      ∀ es, Yields (((readBlock body ⟨d, es⟩).bind fun x => some (x.close kind c)).bind
        (Answer.resume (loopOf ctx))) es
        (p ++ .one (endEvent kind t (c.position + t.width)) ++ q) e := by
  obtain ⟨head, trees, close, rfl, htoken⟩ := Tree.exists_of_isCurly hcurly
  obtain ⟨d, b, e', hnext, hopened, hposition, hbefore, hover, hbehind⟩ := h.exists_block
  refine ⟨d, by rw [hnext, htoken], fun es => ?_⟩
  have hread : Yields (readBlock body ⟨d, es⟩) es p (d.exit e' b) := by
    have hloop := hinside ⟨d.enter b, es⟩ e' hposition hbefore
    have hout := hloop.bind (passes_outOf d b) fun _ => yields_outOf hbefore _
    rw [Outcome.append_empty] at hout
    rw [readBlock]
    simp only [hopened, readInside_eq hbody]
    exact hout
  have hclose := hread.bind (passes_close kind c) fun _ => yields_close hover kind _
  exact hclose.bind (passes_resume _) fun _ => hrest _ e hover.2 hbehind

/-! ## One pass -/

section

variable {ctx : Context}

/-- The pass of a loop over rules or declarations. -/
def turnOf : Context → Reader → Option (Turn Reader)
  | .declarations => declarationTurn
  | _ => ruleTurn

theorem loopOf_eq (hctx : ctx ≠ .selectors) (r : Reader) :
    loopOf ctx r = (turnOf ctx r).bind (Turn.follow (loopOf ctx)) := by
  cases ctx with
  | rules => exact advances_ruleList.follows r
  | declarations => exact advances_declarationList.follows r
  | selectors => contradiction

theorem readsAs_nil (hctx : ctx ≠ .selectors) (pos : Nat) : ReadsAs ctx pos [] .empty := by
  intro r e _ h
  obtain ⟨hnext, rfl⟩ := h.next_of_nil
  have hturn : turnOf ctx r = some (.leave r.done) := by
    cases ctx with
    | rules =>
      show ruleTurn r = _
      rw [ruleTurn, hnext]
      rfl
    | declarations =>
      show declarationTurn r = _
      rw [declarationTurn, hnext]
      rfl
    | selectors => contradiction
  rw [loopOf_eq hctx, hturn]
  exact yields_done r

/-- A tree that adds nothing is passed. -/
theorem readsAs_pass (hctx : ctx ≠ .selectors) (htoken : t.token = token)
    (hopens : token.opens = none)
    (hturn : ∀ {r d}, r.cursor.next = (some token, d) → turnOf ctx r = some (.again (r.move d)))
    (h : ReadsAs ctx (pos + t.width) ts p) : ReadsAs ctx pos (t :: ts) p := by
  subst htoken
  rintro r e rfl hbefore
  obtain ⟨d, hnext, hover, hd⟩ := hbefore.exists_next_of_opens hopens
  rw [loopOf_eq hctx, hturn hnext]
  exact h (r.move d) e hover.2 hd

theorem turnOf_blank (hctx : ctx ≠ .selectors)
    (htoken : (∃ s, token = .whitespace s) ∨ token = .semicolon) {r : Reader} {d : Cursor}
    (h : r.cursor.next = (some token, d)) : turnOf ctx r = some (.again (r.move d)) := by
  cases ctx with
  | rules =>
    show ruleTurn r = _
    rcases htoken with ⟨s, rfl⟩ | rfl
    · rw [ruleTurn, h]
    · rw [ruleTurn, h]
  | declarations =>
    show declarationTurn r = _
    rcases htoken with ⟨s, rfl⟩ | rfl
    · rw [declarationTurn, h]
    · rw [declarationTurn, h]
  | selectors => contradiction

theorem ruleTurn_half (htoken : token = .commentOpen ∨ token = .commentClose) {r : Reader}
    {d : Cursor} (h : r.cursor.next = (some token, d)) :
    ruleTurn r = some (.again (r.move d)) := by
  rcases htoken with rfl | rfl
  · rw [ruleTurn, h]
  · rw [ruleTurn, h]

/-- A comment is an event. -/
theorem readsAs_comment (hctx : ctx ≠ .selectors) {s : String} (htoken : t.token = .comment s)
    (h : ReadsAs ctx (pos + t.width) ts p) :
    ReadsAs ctx pos (t :: ts) (.one (commentEvent pos t) ++ p) := by
  rintro r e rfl hbefore
  obtain ⟨d, hnext, hover, hd⟩ := hbefore.exists_next_of_opens (by rw [htoken]; rfl)
  have hturn : turnOf ctx r = some (.again ((r.move d).comment r.cursor)) := by
    rw [htoken] at hnext
    cases ctx with
    | rules =>
      show ruleTurn r = _
      rw [ruleTurn, hnext]
    | declarations =>
      show declarationTurn r = _
      rw [declarationTurn, hnext]
    | selectors => contradiction
  have hposition : d.position = r.cursor.position + t.width := hover.2
  have hcomment : (r.move d).comment r.cursor =
      (r.move d).emit (commentEvent r.cursor.position t) := by
    rw [Reader.comment, commentEvent, ← hposition, Tree.text, ← hover.since_eq]
    rfl
  rw [loopOf_eq hctx, hturn, hcomment]
  exact (h ((r.move d).emit _) e hover.2 hd).one_append

/-- A token that the grammar does not allow. -/
theorem readsAs_fail (hctx : ctx ≠ .selectors) {fault : SyntaxFault} (htoken : t.token = token)
    (hturn : ∀ {r d}, r.cursor.next = (some token, d) →
      turnOf ctx r = some (.leave ((r.move d).fail fault r.cursor.position))) (ts : List Tree) :
    ReadsAs ctx pos (t :: ts) (.fail fault pos) := by
  subst htoken
  rintro r e rfl hbefore
  obtain ⟨d, hnext, -, -⟩ := hbefore.exists_next
  rw [loopOf_eq hctx, hturn hnext]
  exact yields_fail (r.move d) fault r.cursor.position e

theorem ruleTurn_bad
    (htoken : (∃ b, token = .closing b) ∨ (∃ s, token = .badString s) ∨ ∃ s, token = .badUrl s)
    {r : Reader} {d : Cursor} (h : r.cursor.next = (some token, d)) :
    ruleTurn r = some (.leave ((r.move d).fail (.inRules token) r.cursor.position)) := by
  rcases htoken with ⟨b, rfl⟩ | ⟨s, rfl⟩ | ⟨s, rfl⟩
  · rw [ruleTurn, h]
  · rw [ruleTurn, h]
  · rw [ruleTurn, h]

end

/-! ## Selectors -/

section

variable (hg : (Gathering.fresh r).Through ts us e g)
include hg

theorem selectorEvent_of_through (kind : EventKind) :
    g.selectorEvent kind = selectorEvent kind r.cursor.position ts := by
  have hsince : g.cursor.since r.cursor = rawOf ts := hg.passed.since_eq
  have hvalues : g.gathered.values = components ts := hg.values
  rw [Gathering.selectorEvent, selectorEvent, hg.start, hvalues, Gathering.fresh, hsince]

theorem position_of_through : g.cursor.position = r.cursor.position + widthOf ts := hg.passed.2

end

/-- The text ends in a selector. -/
theorem yields_endInSelector (hg : (Gathering.fresh r).Through ts [] e g) (hk : Passes k) :
    Yields ((qualifiedRule g).bind k) r.events
      (.fail .endInSelector (r.cursor.position + widthOf ts)) e := by
  obtain ⟨hnext, -⟩ := hg.before.next_of_nil
  have hturn : selectorTurn g =
      some (.leave (g.reader.fail .endInSelector (r.cursor.position + widthOf ts))) := by
    rw [selectorTurn, hnext, ← position_of_through hg]
    rfl
  have hevents : g.reader.events = r.events := hg.events
  rw [← hevents]
  exact yields_fault advances_qualifiedRule.follows hk hturn e

/-- There is no selector before a comma or a block. -/
theorem yields_emptySelector (hg : (Gathering.fresh r).Through ts (t :: us) e g) (hk : Passes k)
    (ht : t.isComma = true ∨ t.isCurly = true) (hempty : components ts = []) :
    Yields ((qualifiedRule g).bind k) r.events
      (.fail .emptySelector (r.cursor.position + widthOf ts)) e := by
  obtain ⟨d, hnext, -, -⟩ := hg.before.exists_next
  obtain ⟨hcomma, -, -, hcurly⟩ := hg.before.bracketed.marks_eq List.mem_cons_self
  have hvalues : g.gathered.values = components ts := hg.values
  have hturn : selectorTurn g =
      some (.leave ((g.reader.move d).fail .emptySelector (r.cursor.position + widthOf ts))) := by
    rw [selectorTurn, hnext, ← position_of_through hg]
    rw [hcomma, hcurly, beq_iff_eq, beq_iff_eq] at ht
    rcases ht with htoken | htoken
    · rw [htoken]
      simp only [hvalues, hempty, List.isEmpty_nil, if_true]
    · rw [htoken]
      simp only [hvalues, hempty, List.isEmpty_nil, if_true]
  have hevents : g.reader.events = r.events := hg.events
  rw [← hevents]
  exact yields_fault (r := g.reader.move d) advances_qualifiedRule.follows hk hturn e

/-- A mark that no selector may hold. -/
theorem yields_inSelector (hg : (Gathering.fresh r).Through ts (t :: us) e g) (hk : Passes k)
    (ht : t.endsSelector = true) (hcomma : t.isComma = false) (hcurly : t.isCurly = false) :
    Yields ((qualifiedRule g).bind k) r.events
      (.fail (.inSelector t.token) (r.cursor.position + widthOf ts)) e := by
  obtain ⟨d, hnext, -, -⟩ := hg.before.exists_next
  obtain ⟨-, hsemicolon, -, -⟩ := hg.before.bracketed.marks_eq List.mem_cons_self
  have hturn : selectorTurn g =
      some (.leave ((g.reader.move d).fail (.inSelector t.token)
        (r.cursor.position + widthOf ts))) := by
    rw [selectorTurn, hnext, ← position_of_through hg]
    rw [Tree.endsSelector, hcomma, hcurly, hsemicolon, Bool.false_or, Bool.false_or,
      Bool.or_eq_true, beq_iff_eq, beq_iff_eq] at ht
    rcases ht with htoken | htoken
    · rw [htoken]
    · rw [htoken]
  have hevents : g.reader.events = r.events := hg.events
  rw [← hevents]
  exact yields_fault (r := g.reader.move d) advances_qualifiedRule.follows hk hturn e

/-- A selector before a comma is followed by another one. -/
theorem yields_comma (hg : (Gathering.fresh r).Through ts (t :: us) e g) (ht : t.isComma = true)
    (hvalues : components ts ≠ [])
    (hrest : ReadsAs .selectors (r.cursor.position + widthOf ts + t.width) us p) :
    Yields ((qualifiedRule g).bind (Answer.resume ruleList)) r.events
      (.one (selectorEvent .selector r.cursor.position ts) ++ p) e := by
  obtain ⟨hcomma, -⟩ := hg.before.bracketed.marks_eq List.mem_cons_self
  rw [hcomma, beq_iff_eq] at ht
  obtain ⟨d, hnext, hover, hd⟩ := hg.before.exists_next_of_opens (by rw [ht]; rfl)
  have hturn : selectorTurn g = some (.again (.fresh
      ((g.reader.move d).emit (selectorEvent .selector r.cursor.position ts)))) := by
    have hgathered : g.gathered.values = components ts := hg.values
    rw [selectorTurn, hnext, ht, ← selectorEvent_of_through hg]
    simp only [hgathered, List.isEmpty_eq_false_iff.2 hvalues, Bool.false_eq_true, if_false]
  have hevents : g.reader.events = r.events := hg.events
  rw [advances_qualifiedRule.follows, hturn, ← hevents]
  refine (hrest ((g.reader.move d).emit _) e ?_ hd).one_append
  rw [← position_of_through hg]
  exact hover.2

/-- A selector before a block is the last of its rule. -/
theorem yields_ruleset (hg : (Gathering.fresh r).Through ts (t :: us) e g)
    (ht : t.isCurly = true) (hvalues : components ts ≠ [])
    (hinside : ReadsAs .declarations (r.cursor.position + widthOf ts + t.headWidth) t.inside p)
    (hrest : ReadsAs .rules (r.cursor.position + widthOf ts + t.width) us q) :
    Yields ((qualifiedRule g).bind (Answer.resume ruleList)) r.events
      (.one (selectorEvent .rulesetStart r.cursor.position ts) ++ p
        ++ .one (endEvent .rulesetEnd t (r.cursor.position + widthOf ts + t.width)) ++ q) e := by
  rw [← position_of_through hg] at hinside hrest ⊢
  obtain ⟨d, hnext, hblock⟩ := exists_yields_block hg.before ht hinside (fun h => nomatch h) hrest
    .rulesetEnd
  have hturn : selectorTurn g = (readBlock .declarations
      ((g.reader.move d).emit (selectorEvent .rulesetStart r.cursor.position ts))).bind fun x =>
        some (.leave (x.close .rulesetEnd g.cursor)) := by
    have hgathered : g.gathered.values = components ts := hg.values
    rw [selectorTurn, hnext, ← selectorEvent_of_through hg]
    simp only [hgathered, List.isEmpty_eq_false_iff.2 hvalues, Bool.false_eq_true, if_false]
    rfl
  have hevents : g.reader.events = r.events := hg.events
  rw [loop_of_call advances_qualifiedRule.follows hturn, ← hevents, Outcome.append_assoc,
    Outcome.append_assoc, ← Outcome.append_assoc p]
  exact (hblock _).one_append

/-- Selectors are read up to the mark that follows them. -/
theorem readsAs_selectors (hts : ∀ u ∈ ts, u.endsSelector = false)
    (hp : ∀ {r : Reader} {e : Cursor} {g : Gathering}, r.cursor.position = pos →
      (Gathering.fresh r).Through ts us e g →
      Yields ((qualifiedRule g).bind (Answer.resume ruleList)) r.events p e) :
    ReadsAs .selectors pos (ts ++ us) (guarded pos ts p) := by
  rintro r e rfl hbefore
  exact yields_phrase advances_qualifiedRule.follows selectorTurn_more stopsSelector_eq
    (passes_resume _) hbefore hts fun g hg => hp rfl hg

/-! ## At-rules -/

section

variable {ctx : Context}

theorem loopOf_atKeyword {s : String} (hctx : ctx ≠ .selectors)
    (h : r.cursor.next = (some (.atKeyword s), d)) :
    loopOf ctx r = (atRule r.cursor (r.move d)).bind (Answer.resume (loopOf ctx)) := by
  have hturn : turnOf ctx r = (atRule r.cursor (r.move d)).bind fun x => some x.again := by
    cases ctx with
    | rules =>
      show ruleTurn r = _
      rw [ruleTurn, h]
      rfl
    | declarations =>
      show declarationTurn r = _
      rw [declarationTurn, h]
      rfl
    | selectors => contradiction
  rw [loopOf_eq hctx, hturn, Option.bind_assoc]
  rfl

variable {data : String} {start : Cursor}

theorem preludeEvent_of_through (hg : (Gathering.mk r .empty start).Through ts us e g)
    (kind : EventKind) (stop : Cursor) : g.preludeEvent kind data stop =
      ⟨kind, data, components ts, ⟨start.position, stop.position⟩⟩ := by
  have hvalues : g.gathered.values = components ts := hg.values
  rw [Gathering.preludeEvent, hvalues, hg.start]

/-- The text ends in a prelude. -/
theorem yields_preludeEnd (hctx : ctx ≠ .selectors)
    (hg : (Gathering.mk r .empty start).Through ts [] e g) :
    Yields ((preludeLoop data g).bind (Answer.resume (loopOf ctx))) r.events
      (.one ⟨.statement, data, components ts, ⟨start.position, r.cursor.position + widthOf ts⟩⟩)
      e := by
  obtain ⟨hnext, rfl⟩ := hg.before.next_of_nil
  have hposition : g.cursor.position = r.cursor.position + widthOf ts := hg.passed.2
  have hevents : g.reader.events = r.events := hg.events
  rw [← hposition, ← preludeEvent_of_through hg .statement, ← hevents]
  have hturn : preludeTurn data g = some (.leave
      (g.reader.emit (g.preludeEvent .statement data g.cursor)).done) := by
    rw [preludeTurn, hnext]
    rfl
  rw [(advances_preludeLoop data).follows, hturn, ← Outcome.append_empty (.one _)]
  exact (readsAs_nil hctx _ (g.reader.emit _) g.cursor rfl hg.before).one_append

/-- An at-rule that ends with a semicolon. -/
theorem yields_statement (hg : (Gathering.mk r .empty start).Through ts (t :: us) e g)
    (ht : t.isSemicolon = true)
    (hrest : ReadsAs ctx (r.cursor.position + widthOf ts + t.width) us p) :
    Yields ((preludeLoop data g).bind (Answer.resume (loopOf ctx))) r.events
      (.one ⟨.statement, data, components ts,
        ⟨start.position, r.cursor.position + widthOf ts + t.width⟩⟩ ++ p) e := by
  obtain ⟨-, hsemicolon, -, -⟩ := hg.before.bracketed.marks_eq List.mem_cons_self
  rw [hsemicolon, beq_iff_eq] at ht
  obtain ⟨d, hnext, hover, hd⟩ := hg.before.exists_next_of_opens (by rw [ht]; rfl)
  have hposition : d.position = r.cursor.position + widthOf ts + t.width := by
    rw [hover.2, show g.cursor.position = _ from hg.passed.2]
    rfl
  have hevents : g.reader.events = r.events := hg.events
  rw [← hposition, ← preludeEvent_of_through hg .statement, ← hevents]
  have hturn : preludeTurn data g = some (.leave
      ((g.reader.move d).emit (g.preludeEvent .statement data d)).done) := by
    rw [preludeTurn, hnext, ht]
  rw [(advances_preludeLoop data).follows, hturn]
  exact (hrest ((g.reader.move d).emit _) e hposition hd).one_append

/-- An at-rule that ends with a block. -/
theorem yields_atBlock (hg : (Gathering.mk r .empty start).Through ts (t :: us) e g)
    (ht : t.isCurly = true)
    (hinside : ReadsAs (.ofAtRule data) (r.cursor.position + widthOf ts + t.headWidth) t.inside p)
    (hrest : ReadsAs ctx (r.cursor.position + widthOf ts + t.width) us q) :
    Yields ((preludeLoop data g).bind (Answer.resume (loopOf ctx))) r.events
      (.one ⟨.blockStart, data, components ts,
          ⟨start.position, r.cursor.position + widthOf ts⟩⟩ ++ p
        ++ .one (endEvent .blockEnd t (r.cursor.position + widthOf ts + t.width)) ++ q) e := by
  have hposition : g.cursor.position = r.cursor.position + widthOf ts := hg.passed.2
  have hevents : g.reader.events = r.events := hg.events
  rw [← hposition] at hinside hrest ⊢
  rw [← preludeEvent_of_through hg .blockStart, ← hevents]
  have hbody : Context.ofAtRule data ≠ .selectors := by
    unfold Context.ofAtRule
    split <;> exact fun h => nomatch h
  obtain ⟨d, hnext, hblock⟩ := exists_yields_block hg.before ht hinside hbody hrest .blockEnd
  have hturn : preludeTurn data g = (readBlock (.ofAtRule data)
      ((g.reader.move d).emit (g.preludeEvent .blockStart data g.cursor))).bind fun x =>
        some (.leave (x.close .blockEnd g.cursor)) := by
    rw [preludeTurn, hnext]
    rfl
  rw [loop_of_call (advances_preludeLoop data).follows hturn, Outcome.append_assoc,
    Outcome.append_assoc, ← Outcome.append_assoc p]
  exact (hblock _).one_append

/-- An at-rule is read up to the mark that follows its prelude. -/
theorem readsAs_atRule {name : String} (hctx : ctx ≠ .selectors)
    (htoken : t.token = .atKeyword name) (hts : ∀ u ∈ ts, u.endsPrelude = false)
    (hp : ∀ {r : Reader} {start e : Cursor} {g : Gathering}, start.position = pos →
      r.cursor.position = pos + t.width → (Gathering.mk r .empty start).Through ts us e g →
      Yields ((preludeLoop t.text g).bind (Answer.resume (loopOf ctx))) r.events p e) :
    ReadsAs ctx pos (t :: (ts ++ us)) (guarded (pos + t.width) ts p) := by
  rintro r e rfl hbefore
  obtain ⟨d, hnext, hover, hd⟩ := hbefore.exists_next_of_opens (by rw [htoken]; rfl)
  have hdata : (r.move d).cursor.since r.cursor = t.raw := hover.since_eq
  have hposition : (r.move d).cursor.position = r.cursor.position + t.width := hover.2
  rw [htoken] at hnext
  rw [loopOf_atKeyword hctx hnext, atRule, hdata, ← hposition]
  exact yields_phrase (g := ⟨r.move d, .empty, r.cursor⟩) (advances_preludeLoop _).follows
    preludeTurn_more stopsPrelude_eq (passes_resume _) hd hts fun g hg => hp rfl hposition hg

end

/-! ## Declarations -/

theorem colonTurn_gap (data : String) (h : r.cursor.next = (some token, d))
    (hgap : (token.isWhitespace || token.isComment) = true) :
    colonTurn data r = .again (r.move d) := by
  rw [colonTurn, h]
  split <;> simp_all [Token.isWhitespace, Token.isComment]

theorem colonTurn_other (data : String) (h : r.cursor.next = (some token, d))
    (hgap : (token.isWhitespace || token.isComment) = false) (hcolon : token ≠ .colon) :
    colonTurn data r =
      .leave ((r.move d).fail (.missingColon data (some token)) r.cursor.position) := by
  rw [colonTurn, h]
  split <;> simp_all [Token.isWhitespace, Token.isComment]

theorem opens_of_gap (h : (token.isWhitespace || token.isComment) = true) : token.opens = none := by
  cases token <;> simp_all [Token.isWhitespace, Token.isComment, Token.opens]

/-- White space and comments before a colon are passed. -/
theorem exists_iterate_colonTurn (data : String) (h : r.cursor.Before (ts ++ us) e)
    (hts : ∀ t ∈ ts, isGap t = true) :
    ∃ d, iterate Reader.cursor (colonTurn data) r =
        iterate Reader.cursor (colonTurn data) (r.move d) ∧
      d.position = r.cursor.position + widthOf ts ∧ d.Before us e := by
  induction ts generalizing r with
  | nil => exact ⟨r.cursor, rfl, rfl, h⟩
  | cons t ts ih =>
    have hgap := hts t List.mem_cons_self
    obtain ⟨d, hnext, hover, hd⟩ := h.exists_next_of_opens (opens_of_gap hgap)
    obtain ⟨d', hiterate, hposition, hd'⟩ := ih (r := r.move d) hd fun t ht =>
      hts t (List.mem_cons_of_mem _ ht)
    have hpassed : d.position = r.cursor.position + t.width := hover.2
    refine ⟨d', ?_, ?_, hd'⟩
    · rw [(advances_colonTurn data).follows, colonTurn_gap data hnext hgap]
      exact hiterate
    · rw [hposition, widthOf_cons, ← Nat.add_assoc, ← hpassed]
      rfl

/-- What comes after the colon of a declaration that begins at a place. -/
def valueOf (data : List Char) (start : Cursor) (x : Answer) : Option Answer :=
  if x.failure.isSome then some x
  else iterate Gathering.cursor (valueTurn data start) (.fresh x.reader)

theorem passes_valueOf (data : List Char) (start : Cursor) : Passes (valueOf data start) := by
  intro x hfailure
  refine ⟨x, ?_, rfl, rfl⟩
  rw [valueOf, if_pos hfailure]

/-- The name of a property is read, and then what comes before the colon. -/
theorem exists_loopOf_ident {s : String} (h : r.cursor.Before (t :: (ts ++ us)) e)
    (htoken : t.token = .ident s) (hts : ∀ u ∈ ts, isGap u = true) :
    ∃ d, d.position = r.cursor.position + t.width + widthOf ts ∧ d.Before us e ∧
      loopOf .declarations r = ((iterate Reader.cursor (colonTurn t.text) (r.move d)).bind
        (valueOf t.raw r.cursor)).bind (Answer.resume declarationList) := by
  obtain ⟨c, hnext, hover, hc⟩ := h.exists_next_of_opens (by rw [htoken]; rfl)
  rw [htoken] at hnext
  obtain ⟨d, hiterate, hposition, hd⟩ := exists_iterate_colonTurn (r := r.move c) t.text hc hts
  have hname : c.position = r.cursor.position + t.width := hover.2
  refine ⟨d, by rw [hposition, ← hname]; rfl, hd, ?_⟩
  have hdeclaration : declaration r.cursor (r.move c) =
      (iterate Reader.cursor (colonTurn t.text) (r.move d)).bind (valueOf t.raw r.cursor) := by
    have hsince : (r.move c).cursor.since r.cursor = t.raw := hover.since_eq
    rw [declaration, hsince]
    exact congrArg (·.bind (valueOf t.raw r.cursor)) hiterate
  have hturn : declarationTurn r =
      (declaration r.cursor (r.move c)).bind fun x => some x.again := by
    rw [declarationTurn, hnext]
    rfl
  show declarationList r = _
  rw [advances_declarationList.follows, hturn, hdeclaration, Option.bind_assoc]
  rfl

/-- There is no colon after the name of a property. -/
theorem yields_missingColon {data : String} (h : r.cursor.Before us e)
    (hus : ∀ u ∈ us.head?, isGap u = false ∧ u.isColon = false) (hk : Passes k) :
    Yields ((iterate Reader.cursor (colonTurn data) r).bind k) r.events
      (.fail (.missingColon data (us.head?.map Tree.token)) r.cursor.position) e := by
  cases us with
  | nil =>
    obtain ⟨hnext, -⟩ := h.next_of_nil
    have hturn : some (colonTurn data r) =
        some (.leave (r.fail (.missingColon data none) r.cursor.position)) := by
      rw [colonTurn, hnext]
      rfl
    exact yields_fault (advances_colonTurn data).follows hk hturn e
  | cons u us =>
    obtain ⟨hgap, hnot⟩ := hus u rfl
    obtain ⟨-, -, hcolon, -⟩ := h.bracketed.marks_eq List.mem_cons_self
    obtain ⟨d, hnext, -, -⟩ := h.exists_next
    have hother : u.token ≠ .colon := fun htoken => by simp [hcolon, htoken] at hnot
    have hturn := congrArg some (colonTurn_other data hnext hgap hother)
    exact yields_fault (r := r.move d) (advances_colonTurn data).follows hk hturn e

/-- A colon is read, and the value behind it begins. -/
theorem exists_iterate_colon (data : String) (h : r.cursor.Before (t :: us) e)
    (ht : t.isColon = true) (x : List Char) (start : Cursor) :
    ∃ d, d.position = r.cursor.position + t.width ∧ d.Before us e ∧
      (iterate Reader.cursor (colonTurn data) r).bind (valueOf x start) =
        iterate Gathering.cursor (valueTurn x start) (.fresh (r.move d)) := by
  obtain ⟨-, -, hcolon, -⟩ := h.bracketed.marks_eq List.mem_cons_self
  rw [hcolon, beq_iff_eq] at ht
  obtain ⟨d, hnext, hover, hd⟩ := h.exists_next_of_opens (by rw [ht]; rfl)
  have hturn : colonTurn data r = .leave (r.move d).done := by
    rw [colonTurn, hnext, ht]
  refine ⟨d, hover.2, hd, ?_⟩
  rw [(advances_colonTurn data).follows, hturn]
  rfl

/-- A value ends with its semicolon, or where the block does. -/
theorem yields_declaration {start : Cursor} (hg : (Gathering.fresh r).Through ts us e g)
    (hus : ∀ u ∈ us.head?, u.isSemicolon = true)
    (hrest : ReadsAs .declarations (r.cursor.position + widthOf ts) us p) :
    Yields ((iterate Gathering.cursor (valueTurn t.raw start) g).bind
      (Answer.resume declarationList)) r.events
      (.one (declarationEvent t ts ⟨start.position, r.cursor.position + widthOf ts⟩) ++ p) e := by
  have hevent : g.declarationEvent t.raw start =
      declarationEvent t ts ⟨start.position, r.cursor.position + widthOf ts⟩ := by
    have hsince : g.cursor.since g.start = rawOf ts := by
      rw [hg.start]
      exact hg.passed.since_eq
    have hvalues : g.gathered.values = components ts := hg.values
    rw [Gathering.declarationEvent, declarationEvent, hsince, hvalues, position_of_through hg]
    rfl
  have hevents : g.reader.events = r.events := hg.events
  rw [← hevents, ← hevent]
  cases us with
  | nil =>
    obtain ⟨hnext, rfl⟩ := hg.before.next_of_nil
    have hturn : valueTurn t.raw start g =
        .leave (g.reader.emit (g.declarationEvent t.raw start)).done := by
      rw [valueTurn, hnext]
      rfl
    rw [(advances_valueTurn t.raw start).follows, hturn]
    exact (hrest (g.reader.emit _) g.cursor (position_of_through hg) hg.before).one_append
  | cons u us =>
    obtain ⟨-, hsemicolon, -, -⟩ := hg.before.bracketed.marks_eq List.mem_cons_self
    have htoken : u.token = .semicolon := by simpa [hsemicolon] using hus u rfl
    obtain ⟨d, hnext, -, -⟩ := hg.before.exists_next
    rw [htoken] at hnext
    have hturn : valueTurn t.raw start g =
        .leave ((g.reader.move d).emit (g.declarationEvent t.raw start)).done := by
      rw [valueTurn, hnext]
    -- The list of declarations would pass the semicolon just as well.
    have hpass : ∀ es, declarationList ⟨g.cursor, es⟩ = declarationList ⟨d, es⟩ := by
      intro es
      rw [advances_declarationList.follows, declarationTurn, hnext]
      rfl
    have hyields := hrest (g.reader.emit (g.declarationEvent t.raw start)) e
      (position_of_through hg) hg.before
    have hloop : loopOf .declarations (g.reader.emit (g.declarationEvent t.raw start)) =
        declarationList ((g.reader.move d).emit (g.declarationEvent t.raw start)) := hpass _
    rw [hloop] at hyields
    rw [(advances_valueTurn t.raw start).follows, hturn]
    exact hyields.one_append

/-! ## Agreement -/

/-- The loop of a context reads the events of its trees. -/
theorem Reading.readsAs {ctx : Context} (h : Reading ctx pos ts p) : ReadsAs ctx pos ts p := by
  induction h with
  | nil inner => exact readsAs_nil inner _
  | filler inner derives _ ih =>
    cases derives with
    | white token => exact readsAs_pass inner token rfl (turnOf_blank inner (.inl ⟨_, rfl⟩)) ih
    | semicolon token => exact readsAs_pass inner token rfl (turnOf_blank inner (.inr rfl)) ih
    | mark token =>
      rcases token with token | token
      · exact readsAs_pass inner token rfl (ruleTurn_half (.inl rfl)) ih
      · exact readsAs_pass inner token rfl (ruleTurn_half (.inr rfl)) ih
  | comment inner token _ ih => exact readsAs_comment inner token ih
  | rule begins _ ih =>
    -- The token is put back, so that the rule begins where the pass began.
    rintro r e rfl hbefore
    obtain ⟨d, hnext, -, -⟩ := hbefore.exists_next
    have hturn : ruleTurn r = (qualifiedRule (.fresh r)).bind fun x => some x.again := by
      unfold Phrase.beginsRule at begins
      rw [ruleTurn, hnext]
      split <;> simp_all
    have hloop : ruleList r = loopOf .selectors r := by
      rw [advances_ruleList.follows, hturn, Option.bind_assoc]
      rfl
    show Yields (ruleList r) _ _ _
    rw [hloop]
    exact ih r e rfl hbefore
  | selector unended comma values _ ih =>
    refine readsAs_selectors unended ?_
    rintro r e g rfl hg
    exact yields_comma hg comma values ih
  | ruleset unended curly values _ _ ihInside ih =>
    refine readsAs_selectors unended ?_
    rintro r e g rfl hg
    exact yields_ruleset hg curly values ihInside ih
  | @endInSelector pos selector unended =>
    conv => arg 3; rw [← List.append_nil selector]
    refine readsAs_selectors unended ?_
    rintro r e g rfl hg
    exact yields_endInSelector hg (passes_resume _)
  | emptySelector unended mark values =>
    refine readsAs_selectors unended ?_
    rintro r e g rfl hg
    exact yields_emptySelector hg (passes_resume _) mark values
  | inSelector unended ends comma curly =>
    refine readsAs_selectors unended ?_
    rintro r e g rfl hg
    exact yields_inSelector hg (passes_resume _) ends comma curly
  | @lastStatement _ pos t prelude _ inner token unended =>
    conv => arg 3; rw [← List.append_nil prelude]
    refine readsAs_atRule inner token unended ?_
    rintro r start e g rfl hr hg
    rw [← hr]
    exact yields_preludeEnd inner hg
  | statement inner token unended semicolon _ ih =>
    refine readsAs_atRule inner token unended ?_
    rintro r start e g rfl hr hg
    rw [← hr] at ih ⊢
    exact yields_statement hg semicolon ih
  | block inner token unended curly _ _ ihInside ih =>
    refine readsAs_atRule inner token unended ?_
    rintro r start e g rfl hr hg
    rw [← hr] at ihInside ih ⊢
    exact yields_atBlock hg curly ihInside ih
  | @declaration _ name _ _ _ _ _ _ token blank mark unended ended _ ih =>
    rintro r e rfl hbefore
    obtain ⟨d, hposition, hd, hloop⟩ := exists_loopOf_ident hbefore token blank
    change (r.move d).cursor.position = _ at hposition
    obtain ⟨d', hcolon, hd', hvalue⟩ := exists_iterate_colon (r := r.move d) name.text hd mark
      name.raw r.cursor
    rw [hposition] at hcolon
    rw [← hcolon] at ih ⊢
    rw [hloop, hvalue]
    exact yields_phrase (g := .fresh ((r.move d).move d')) (advances_valueTurn _ _).follows
      valueTurn_more stopsValue_eq (passes_resume _) hd' unended fun g hg =>
        yields_declaration hg ended ih
  | missingColon token blank other =>
    rintro r e rfl hbefore
    obtain ⟨d, hposition, hd, hloop⟩ := exists_loopOf_ident hbefore token blank
    change (r.move d).cursor.position = _ at hposition
    rw [hloop, ← hposition]
    exact (yields_missingColon (r := r.move d) hd other (passes_valueOf _ _)).bind_fail
      (passes_resume _) e
  | inRules token => exact readsAs_fail (by simp) rfl (ruleTurn_bad token) _
  | inDeclarations token =>
    refine readsAs_fail (by simp) rfl (fun {r d} hnext => ?_) _
    show declarationTurn r = _
    rw [declarationTurn, hnext]
    split <;> simp_all

/-- The trees of a text come first in it. -/
theorem before_ofText (cs : List Char) :
    (Cursor.ofText cs).Before (Tree.ofText cs) ⟨[], Text.width cs, none, none⟩ where
  opened := rfl
  passed := by
    rw [Tree.rawOf_ofText]
    exact ⟨(List.append_nil cs).symm, (Nat.zero_add _).symm⟩
  reads := by
    rw [Tree.ofText, Tree.forest_lexemes]
    exact reads_lexemes cs
  bracketed := Tree.bracketed_forest _
  within := rfl
  atEnd := ⟨rfl, .inl rfl⟩

/-- The loops read the events of the trees of a stylesheet. -/
theorem parseSheet_eq (source : String) :
    parseSheet source = some ((events source).events, (events source).error.map .malformed) := by
  obtain ⟨x, hx, hevents, hfailure, -⟩ :=
    (reading_eventsOf .rules 0 _).readsAs ⟨.ofText source.toList, []⟩ _ rfl
      (before_ofText source.toList)
  have hlist : ruleList ⟨.ofText source.toList, []⟩ = some x := hx
  rw [parseSheet, hlist]
  show some (x.reader.events, x.failure) = _
  rw [hevents, hfailure]
  rfl

/-- Reading a stylesheet ends, and it reads every block to its end. The loops that read the events
advance with every pass, and calls return only as said: rules and declarations at the end of their
block, so that nothing is left of a block when it is left. This holds wherever the loops are
called. -/
theorem parseSheet_ends (source : String) :
    parseSheet source = some ((events source).events, (events source).error.map .malformed) ∧
    Advances Reader.cursor ruleTurn ruleList ∧
    Advances Gathering.cursor selectorTurn qualifiedRule ∧
    Advances Reader.cursor declarationTurn declarationList ∧
    (∀ data, Advances Reader.cursor (fun r => some (colonTurn data r))
      (iterate Reader.cursor (colonTurn data))) ∧
    (∀ data start, Advances Gathering.cursor (fun g => some (valueTurn data start g))
      (iterate Gathering.cursor (valueTurn data start))) ∧
    (∀ data, Advances Gathering.cursor (preludeTurn data) (preludeLoop data)) ∧
    Consumes ruleList ∧
    Consumes declarationList ∧
    (∀ g, Returns (qualifiedRule g) g.cursor.Past) ∧
    (∀ start r, Returns (declaration start r) r.cursor.Onward) ∧
    (∀ start r, Returns (atRule start r) r.cursor.Onward) ∧
    ∀ body r, r.cursor.opened.isSome = true → Returns (readBlock body r) r.cursor.Onward :=
  ⟨parseSheet_eq source,
    advances_ruleList,
    advances_qualifiedRule,
    advances_declarationList,
    advances_colonTurn,
    advances_valueTurn,
    advances_preludeLoop,
    consumes_of_returns returns_ruleList,
    consumes_of_returns returns_declarationList,
    fun g => returns_qualifiedRule (blocksEnd _) g (Nat.le_refl _),
    returns_declaration,
    fun start r => returns_atRule (blocksEnd _) start r (Nat.le_refl _),
    fun body r hopened => blocksEnd _ body r (Nat.lt_succ_self _) hopened⟩

end StyleSieve.Css
