import StyleSieve.Proofs.Css.Tidy

/-!
# Where values come from

The values of an event come from trees of the source, which its kind and span single out (`Origin`).
They are these trees tidied, and their text is read as the tidied trees again unless a seam between
them is bad (`tidied_of_mem_events`). A seam is bad where a dropped comment parted two tokens that
run together without it, as in `not_tidied_comment`.
-/

namespace StyleSieve.Css

open StyleSieve.Css.Tree (isSemicolon isColon isComma isCurly isGap endsSelector endsPrelude
  rawOf widthOf lexemesOf Bracketed tidy)

/-- The trees stand next to each other in the source, from byte `pos` to the end of the source or of
the block around them. -/
inductive Within (source : String) : Nat → List Tree → Prop
  | text : Within source 0 (Tree.ofText source.toList)
  | later {pos : Nat} {t : Tree} {ts : List Tree} (whole : Within source pos (t :: ts)) :
      Within source (pos + t.width) ts
  | inside {pos : Nat} {t : Tree} {ts : List Tree} (whole : Within source pos (t :: ts)) :
      Within source (pos + t.headWidth) t.inside

/-- The event comes from a selector, a value or a prelude of the source that is made of the trees
`vs`. -/
inductive Origin (source : String) (e : Event) (vs : List Tree) : Prop
  /-- A selector ends before a comma if another one follows it, and else before the block of its
  rule. -/
  | selector {pos : Nat} {t : Tree} {rest : List Tree} (within : Within source pos (vs ++ t :: rest))
      (unended : ∀ u ∈ vs, endsSelector u = false)
      (kind : e.kind = .selector ∧ isComma t ∨ e.kind = .rulesetStart ∧ isCurly t)
      (data : e.data = String.ofList (Text.strip Text.isBlank (rawOf vs)))
      (start : e.span.start = pos + Text.width ((rawOf vs).takeWhile Text.isBlank))
  /-- A value goes from the colon after the name to a semicolon or the end of the block. -/
  | value {pos : Nat} {name colon : Tree} {gap rest : List Tree}
      (within : Within source pos (name :: (gap ++ colon :: (vs ++ rest))))
      (blank : ∀ u ∈ gap, isGap u) (colon_mark : isColon colon)
      (unended : ∀ u ∈ vs, isSemicolon u = false) (ended : ∀ u ∈ rest.head?, isSemicolon u)
      (kind : e.kind = .declaration) (data : e.data = name.text)
      (span : e.span = ⟨pos, pos + widthOf (name :: (gap ++ colon :: vs))⟩)
  /-- A prelude goes to a semicolon, a block or the end of the block around. -/
  | prelude {pos : Nat} {keyword : Tree} {rest : List Tree}
      (within : Within source pos (keyword :: (vs ++ rest)))
      (unended : ∀ u ∈ vs, endsPrelude u = false) (ended : ∀ u ∈ rest.head?, endsPrelude u)
      (kind : if rest.head?.any isCurly then e.kind = .blockStart else e.kind = .statement)
      (data : e.data = keyword.text) (start : e.span.start = pos)

/-- Events whose values are component values. -/
def EventKind.hasComponents : EventKind → Bool
  | .selector | .rulesetStart | .declaration | .statement | .blockStart => true
  | _ => false

section

variable {source : String} {pos : Nat} {t : Tree} {ts us vs rest : List Tree} {e : Event}

theorem Within.drop (h : Within source pos (us ++ ts)) :
    Within source (pos + widthOf us) ts := by
  induction us generalizing pos with
  | nil => exact h
  | cons u us ih => simpa [widthOf, Tree.width, Nat.add_assoc] using ih h.later

/-- Trees that are read before the text `after`, with their brackets. -/
structure Stands (within : Option Bracket) (ended : Bool) (after : List Char) (ts : List Tree) :
    Prop where
  reads : Reads (lexemesOf ts) after
  bracketed : Bracketed within ended ts
  stops : Stops after
  ended : ended = true → after = []

theorem Stands.right {within : Option Bracket} {ended : Bool} {after : List Char}
    (h : Stands within ended after (us ++ ts)) : Stands within ended after ts where
  reads := (reads_lexemesOf_append_iff.1 h.reads).2
  bracketed := h.bracketed.right
  stops := h.stops
  ended := h.ended

theorem Stands.later {within : Option Bracket} {ended : Bool} {after : List Char}
    (h : Stands within ended after (t :: ts)) : Stands within ended after ts :=
  @Stands.right ts [t] within ended after h

theorem Stands.reads_of_mem {within : Option Bracket} {ended : Bool} {after : List Char}
    (h : Stands within ended after ts) (ht : t ∈ ts) :
    ∃ z, Reads t.lexemes z := by
  obtain ⟨before, after, rfl⟩ := List.append_of_mem ht
  obtain ⟨-, hreads⟩ := reads_lexemesOf_append_iff.1 h.reads
  rw [Tree.lexemesOf_cons, reads_append_iff] at hreads
  exact ⟨_, hreads.1⟩

theorem Stands.left {within : Option Bracket} {after : List Char}
    (h : Stands within false after (ts ++ us)) (hstops : Stops (rawOf us ++ after)) :
    Stands within false (rawOf us ++ after) ts where
  reads := (reads_lexemesOf_append_iff.1 h.reads).1
  bracketed := h.bracketed.closed_left
  stops := hstops
  ended := by simp

/-- Trees with white space around them. -/
theorem Stands.middle {within : Option Bracket} {after : List Char} {before mid behind : List Tree}
    (h : Stands within false after (before ++ mid ++ behind))
    (hbehind : ∀ t ∈ behind, t.isWhite = true) :
    Stands within false (rawOf behind ++ after) mid := by
  rw [List.append_assoc] at h
  refine h.right.left ?_
  cases behind with
  | nil => exact h.stops
  | cons t behind =>
    have ht := Tree.isGap_of_isWhite (hbehind t List.mem_cons_self)
    exact (stops_of_gap h.right.right.reads ht).1

/-- Trees without white space around them are read before any text that begins with none. -/
theorem Stands.exchange_trim {within : Option Bracket} {after z : List Char}
    (h : Stands within false after ts) (hne : after ≠ []) (hsound : Phrase.Sound ts)
    (hback : ∀ t ∈ (Tree.trim ts).getLast?, t.token ≠ .delim '\\') (hz : Stops z)
    (hspace : startsWith isSpace z = false) : Reads (lexemesOf (Tree.trim ts)) z := by
  obtain ⟨before, behind, hsplit, -, hbehind, hlast⟩ := Tree.exists_trim ts
  generalize Tree.trim ts = mid at hsplit hlast hback ⊢
  subst hsplit
  have hmid := h.middle hbehind
  rcases List.eq_nil_or_concat mid with rfl | ⟨run, t, rfl⟩
  · exact reads_nil _
  rw [List.concat_eq_append] at hmid hlast hsound hback ⊢
  rw [List.getLast?_concat] at hlast hback
  refine hmid.reads.exchange_closed hmid.bracketed.right (hlast t rfl) ?_ (hback t rfl)
    ⟨hmid.stops, hz, not_isNewline_of_not_isSpace hspace⟩ (.inr ⟨by simp [hne], by simp [hspace]⟩)
  intro u hu
  obtain rfl := List.mem_singleton.1 hu
  exact hsound u (by simp)

theorem isSome_markChar_of_closes {token : Token} {b : Bracket} (h : token.closes = some b) :
    (markChar token).isSome = true := by
  rw [Token.eq_closing h]
  cases b <;> rfl

/-- A block goes on to the bracket that closes it, which nothing goes on into. -/
theorem Stands.inside {within : Option Bracket} {ended : Bool} {after : List Char}
    (h : Stands within ended after (t :: ts)) :
    ∃ within' ended' after', Stands within' ended' after' t.inside := by
  obtain ⟨hreads, hbracketed, -, hended⟩ := h
  cases hbracketed with
  | leaf => exact ⟨none, false, [], reads_nil _, .nil, stops_nil, by simp⟩
  | @unclosed _ head b body opens inside =>
    rw [Tree.lexemesOf_cons, Tree.lexemes, Option.toList_none, Tree.lexemesOf_nil, List.append_nil,
      List.append_nil, reads_cons_iff] at hreads
    exact ⟨some b, true, after, hreads.2, inside, by rw [hended rfl]; exact stops_nil, hended⟩
  | @block _ _ head close b body _ opens closes inside =>
    rw [Tree.lexemesOf_cons, Tree.lexemes, Option.toList_some, List.cons_append, reads_cons_iff,
      reads_append_iff, reads_append_iff] at hreads
    obtain ⟨-, ⟨hbody, hclose⟩, -⟩ := hreads
    obtain ⟨d, hmark⟩ := Option.isSome_iff_exists.1 (isSome_markChar_of_closes closes)
    have hd := isBarrier_of_mark hmark (by rw [Token.eq_closing closes]; rfl)
    rw [List.flatMap_singleton, hclose.raw_of_mark hmark] at hbody
    exact ⟨some b, false, _, hbody, inside, stops_cons.2 (.inl hd), by simp⟩

theorem Within.stands (h : Within source pos ts) :
    ∃ within ended after, Stands within ended after ts := by
  induction h with
  | text =>
    refine ⟨none, true, [], ?_, Tree.bracketed_forest _, stops_nil, fun _ => rfl⟩
    rw [Tree.ofText, Tree.forest_lexemes]
    exact reads_lexemes _
  | later _ ih =>
    obtain ⟨within, ended, after, h⟩ := ih
    exact ⟨within, ended, after, h.later⟩
  | inside _ ih =>
    obtain ⟨within, ended, after, h⟩ := ih
    exact h.inside

theorem exists_mark_of_ends (h : isComma t = true ∨ endsPrelude t = true) :
    ∃ d, isBarrier d = true ∧ markChar t.token = some d := by
  cases t with
  | leaf l =>
    have htoken : l.token = .comma ∨ l.token = .semicolon := by
      simpa [isComma, endsPrelude, isSemicolon, isCurly] using h
    rcases htoken with htoken | htoken
    · exact ⟨',', by decide, by rw [Tree.token, htoken]; rfl⟩
    · exact ⟨';', by decide, by rw [Tree.token, htoken]; rfl⟩
  | block head body close =>
    have htoken : head.token = .opening .curly := by
      simpa [isComma, endsPrelude, isSemicolon, isCurly] using h
    exact ⟨'\x7b', by decide, by rw [Tree.token, htoken]; rfl⟩

/-- A comma, a semicolon and a curly block stop what stands before them. -/
theorem stops_of_mark {y : List Char} (h : Reads (lexemesOf (t :: ts)) y)
    (ht : isComma t = true ∨ endsPrelude t = true) :
    Stops (rawOf (t :: ts) ++ y) ∧ rawOf (t :: ts) ++ y ≠ [] := by
  obtain ⟨d, hd, hmark⟩ := exists_mark_of_ends ht
  obtain ⟨u, hraw⟩ := exists_raw_of_mark h hmark
  rw [Tree.rawOf_cons, hraw]
  exact ⟨stops_cons.2 (.inl hd), List.cons_ne_nil _ _⟩

/-- A selector, a value and a prelude go on to a mark or to the end of their block. -/
theorem Stands.tidied {within : Option Bracket} {ended : Bool} {after : List Char}
    (h : Stands within ended after (vs ++ rest))
    (hrest : ∀ t ∈ rest.head?, isComma t = true ∨ endsPrelude t = true)
    (hsound : Phrase.Sound vs) (hseam : Tree.seamless vs = true) :
    ∃ ended' y, Tidied within ended' y [] vs ∧ Stops y := by
  obtain ⟨hvs, hafter⟩ := reads_lexemesOf_append_iff.1 h.reads
  have hlast : ∀ {y}, Reads (lexemesOf vs) y → y = [] → ∀ l ∈ (lexemesOf vs).getLast?, Reads [l] [] := by
    rintro _ hreads rfl l hl
    obtain ⟨before, hbefore⟩ := List.getLast?_eq_some_iff.1 hl
    rw [hbefore] at hreads
    exact (reads_append_iff.1 hreads).2
  cases rest with
  | nil =>
    rw [Tree.rawOf_nil, List.nil_append] at hvs
    exact ⟨ended, after, ⟨hvs, by simpa using h.bracketed, hsound, hseam,
      fun he => ⟨h.ended he, rfl⟩, hlast hvs⟩, h.stops⟩
  | cons t rest =>
    exact ⟨false, _, ⟨hvs, h.bracketed.left (List.cons_ne_nil t rest), hsound, hseam, by simp,
      hlast hvs⟩, (stops_of_mark hafter (hrest t rfl)).1⟩

/-- Where all trees of a source are seamless, so are those that stand next to each other in it. -/
theorem Within.seamlessThroughout (h : Within source pos ts)
    (hsource : Tree.seamlessThroughout (Tree.ofText source.toList) = true) :
    Tree.seamlessThroughout ts = true := by
  induction h with
  | text => exact hsource
  | later _ ih =>
    rw [Tree.seamlessThroughout, Bool.and_eq_true] at ih
    exact ih.2
  | @inside _ t _ _ ih =>
    rw [Tree.seamlessThroughout, Bool.and_eq_true, Bool.and_eq_true] at ih
    cases t with
    | leaf l => rfl
    | block head body close => exact ih.1.2

theorem Within.seamless (h : Within source pos ts)
    (hsource : Tree.seamlessThroughout (Tree.ofText source.toList) = true)
    (hsplit : ts = us ++ (vs ++ rest)) : Tree.seamless vs = true := by
  have hall := Tree.seamless_of_throughout (h.seamlessThroughout hsource)
  rw [hsplit] at hall
  exact seamless_left (seamless_append hall)

/-- In a source without bad seams no event has one in the trees it comes from. -/
theorem Origin.seamless (h : Origin source e vs)
    (hsource : Tree.seamlessThroughout (Tree.ofText source.toList) = true) :
    Tree.seamless vs = true := by
  cases h with
  | selector within => exact within.seamless hsource (List.nil_append _).symm
  | @value _ name colon gap rest within =>
    have hsplit : name :: (gap ++ colon :: (vs ++ rest)) =
        name :: (gap ++ [colon]) ++ (vs ++ rest) := by simp
    exact within.seamless hsource hsplit
  | @prelude _ keyword _ within => exact within.seamless hsource (List.singleton_append ..).symm

/-! ## Events and their trees -/

theorem mem_events_append {p q : Outcome} (h : e ∈ (p ++ q).events) :
    e ∈ p.events ∨ e ∈ q.events := by
  rw [Outcome.append_def] at h
  split at h
  · exact .inl h
  · exact List.mem_append.1 h

theorem mem_events_one {e' : Event} (h : e ∈ (Outcome.one e').events) : e = e' :=
  List.mem_singleton.1 h

/-- The events of a block with its beginning and its end, and of what follows. -/
theorem mem_events_block {p q : Outcome} {head stop : Event}
    (h : e ∈ (.one head ++ p ++ .one stop ++ q : Outcome).events) :
    e = head ∨ e ∈ p.events ∨ e = stop ∨ e ∈ q.events := by
  rcases mem_events_append h with h | h
  · rcases mem_events_append h with h | h
    · rcases mem_events_append h with h | h
      · exact .inl (mem_events_one h)
      · exact .inr (.inl h)
    · exact .inr (.inr (.inl (mem_events_one h)))
  · exact .inr (.inr (.inr h))

/-- The values of an event are those of sound trees of the source. -/
def HasOrigin (source : String) (e : Event) : Prop :=
  ∃ vs, Origin source e vs ∧ Phrase.Sound vs ∧ e.values = components vs

theorem not_mem_events_fail {fault : SyntaxFault} : e ∉ (Outcome.fail fault pos).events :=
  List.not_mem_nil

theorem hasOrigin_selector (hwithin : Within source pos (vs ++ t :: rest))
    (hsound : Phrase.Sound vs) (hunended : ∀ u ∈ vs, endsSelector u = false) (kind : EventKind)
    (hkind : kind = .selector ∧ isComma t = true ∨ kind = .rulesetStart ∧ isCurly t = true) :
    HasOrigin source (selectorEvent kind pos vs) :=
  ⟨vs, .selector hwithin hunended hkind rfl rfl, hsound, rfl⟩

theorem hasOrigin_prelude {keyword : Tree} {kind : EventKind}
    (hwithin : Within source pos (keyword :: (vs ++ rest))) (hsound : Phrase.Sound vs)
    (hunended : ∀ u ∈ vs, endsPrelude u = false) (hends : ∀ u ∈ rest.head?, endsPrelude u = true)
    (hkind : if rest.head?.any isCurly then kind = .blockStart else kind = .statement)
    (stop : Nat) :
    HasOrigin source ⟨kind, keyword.text, components vs, ⟨pos, stop⟩⟩ :=
  ⟨vs, .prelude hwithin hunended hends hkind rfl rfl, hsound, rfl⟩

/-- The value of a custom property is kept as written, so it has no component values. -/
theorem hasOrigin_declaration {name colon : Tree} {gap : List Tree} {stop : Nat}
    (hwithin : Within source pos (name :: (gap ++ colon :: (vs ++ rest))))
    (hsound : Phrase.Sound vs) (hblank : ∀ u ∈ gap, isGap u = true) (hcolon : isColon colon = true)
    (hunended : ∀ u ∈ vs, isSemicolon u = false) (hends : ∀ u ∈ rest.head?, isSemicolon u = true)
    (hstop : stop = pos + widthOf (name :: (gap ++ colon :: vs)))
    (hkind : (declarationEvent name vs ⟨pos, stop⟩).kind.hasComponents = true) :
    HasOrigin source (declarationEvent name vs ⟨pos, stop⟩) := by
  unfold declarationEvent at hkind ⊢
  split at hkind
  · exact absurd hkind Bool.false_ne_true
  · next hname =>
    rw [if_neg hname, hstop]
    exact ⟨vs, .value hwithin hblank hcolon hunended hends rfl rfl rfl, hsound, rfl⟩

/-- Every event comes from trees of the source. Those of the events in blocks are further inside. -/
theorem Reading.hasOrigin {ctx : Context} {p : Outcome} (h : Reading ctx pos ts p)
    (hwithin : Within source pos ts) (he : e ∈ p.events) (hkind : e.kind.hasComponents = true) :
    HasOrigin source e := by
  induction h with
  | nil => exact (List.not_mem_nil he).elim
  | filler _ _ _ ih => exact ih hwithin.later he
  | comment _ _ _ ih =>
    rcases mem_events_append he with he | he
    · rw [mem_events_one he] at hkind
      exact absurd hkind Bool.false_ne_true
    · exact ih hwithin.later he
  | rule _ _ ih => exact ih hwithin he
  | selector unended comma _ _ ih =>
    obtain ⟨hsound, he⟩ := Phrase.sound_of_mem_guarded he
    rcases mem_events_append he with he | he
    · rw [mem_events_one he]
      exact hasOrigin_selector hwithin hsound unended _ (.inl ⟨rfl, comma⟩)
    · exact ih hwithin.drop.later he
  | ruleset unended curly _ _ _ ihInside ih =>
    obtain ⟨hsound, he⟩ := Phrase.sound_of_mem_guarded he
    rcases mem_events_block he with rfl | he | rfl | he
    · exact hasOrigin_selector hwithin hsound unended _ (.inr ⟨rfl, curly⟩)
    · exact ihInside hwithin.drop.inside he
    · exact absurd hkind Bool.false_ne_true
    · exact ih hwithin.drop.later he
  | @lastStatement _ _ keyword prelude _ _ _ unended =>
    obtain ⟨hsound, he⟩ := Phrase.sound_of_mem_guarded he
    rw [mem_events_one he]
    rw [← List.append_nil prelude] at hwithin
    exact hasOrigin_prelude hwithin hsound unended (by simp) rfl _
  | statement _ _ unended semicolon _ ih =>
    obtain ⟨hsound, he⟩ := Phrase.sound_of_mem_guarded he
    rcases mem_events_append he with he | he
    · rw [mem_events_one he]
      exact hasOrigin_prelude hwithin hsound unended (by simp [endsPrelude, semicolon])
        (by simp [Tree.not_isCurly_of_isSemicolon semicolon]) _
    · exact ih hwithin.later.drop.later he
  | block _ _ unended curly _ _ ihInside ih =>
    obtain ⟨hsound, he⟩ := Phrase.sound_of_mem_guarded he
    rcases mem_events_block he with rfl | he | rfl | he
    · exact hasOrigin_prelude hwithin hsound unended (by simp [endsPrelude, curly])
        (by simp [curly]) _
    · exact ihInside hwithin.later.drop.inside he
    · exact absurd hkind Bool.false_ne_true
    · exact ih hwithin.later.drop.later he
  | declaration _ blank mark unended ended _ ih =>
    obtain ⟨hsound, he⟩ := Phrase.sound_of_mem_guarded he
    rcases mem_events_append he with he | he
    · rw [mem_events_one he] at hkind ⊢
      exact hasOrigin_declaration hwithin hsound blank mark unended ended
        (by simp [widthOf, Tree.width, Nat.add_assoc]) hkind
    · exact ih hwithin.later.drop.later.drop he
  | endInSelector | emptySelector | inSelector =>
    exact (not_mem_events_fail (Phrase.sound_of_mem_guarded he).2).elim
  | missingColon | inRules | inDeclarations => exact (not_mem_events_fail he).elim

/-- Values, wherever they come from, stand before a mark or the end of their block. -/
theorem Origin.stands (h : Origin source e vs) :
    ∃ within ended after rest, Stands within ended after (vs ++ rest) ∧
      ∀ t ∈ rest.head?, isComma t = true ∨ endsPrelude t = true := by
  cases h with
  | @selector pos t rest within _ kind =>
    obtain ⟨w, ended, after, h⟩ := within.stands
    refine ⟨w, ended, after, t :: rest, h, ?_⟩
    rintro _ ⟨⟩
    rcases kind with ⟨-, hcomma⟩ | ⟨-, hcurly⟩
    · exact .inl hcomma
    · exact .inr (by simp [endsPrelude, hcurly])
  | @value pos name colon gap rest within _ _ _ ended =>
    obtain ⟨w, e, after, h⟩ := within.later.drop.later.stands
    exact ⟨w, e, after, rest, h, fun t ht => .inr (by simp [endsPrelude, ended t ht])⟩
  | @prelude pos keyword rest within _ ended =>
    obtain ⟨w, e, after, h⟩ := within.later.stands
    exact ⟨w, e, after, rest, h, fun t ht => .inr (ended t ht)⟩

theorem toList_join_text (ts : List Tree) : (String.join (ts.map Tree.text)).toList = rawOf ts := by
  induction ts with
  | nil => rfl
  | cons t ts ih => simp [Tree.text, ih]

/-- The values of an event are the texts of the trees they come from, tidied. Read as one text they
are these trees again, if the source's are seamless. -/
theorem tidied_of_mem_events (he : e ∈ (events source).events)
    (hkind : e.kind.hasComponents = true) :
    ∃ vs, Origin source e vs ∧ e.values = (tidy vs).map Tree.text ∧
      (Tree.seamless vs = true → Tree.ofText e.text.toList = tidy vs) := by
  obtain ⟨vs, horigin, hsound, hvalues⟩ := (reading_eventsOf _ _ _).hasOrigin .text he hkind
  rw [Tree.components_eq_map] at hvalues
  refine ⟨vs, horigin, hvalues, fun hseam => ?_⟩
  obtain ⟨within, ended, after, rest, hstands, hrest⟩ := horigin.stands
  obtain ⟨_, y, htidied, hy⟩ := hstands.tidied hrest hsound hseam
  rw [Event.text, hvalues, toList_join_text]
  exact htidied.ofText_rawOf hy

/-- A comment beside a blank is dropped without harm. -/
theorem tidied_of_mem_events_margin :
    ∃ vs, Origin "a\x7bmargin:0 /**/auto\x7d"
        ⟨.declaration, "margin", ["0", " ", "auto"], ⟨2, 19⟩⟩ vs ∧
      Tree.seamless vs = true ∧ ["0", " ", "auto"] = (tidy vs).map Tree.text ∧
      Tree.ofText "0 auto".toList = tidy vs := by
  have hmem : (⟨.declaration, "margin", ["0", " ", "auto"], ⟨2, 19⟩⟩ : Event) ∈
      (events "a\x7bmargin:0 /**/auto\x7d").events := by decide +kernel
  obtain ⟨vs, horigin, hvalues, htrees⟩ := tidied_of_mem_events hmem rfl
  have hseam := horigin.seamless (by decide +kernel)
  exact ⟨vs, horigin, hseam, hvalues, htrees hseam⟩

/-- Without the comment between them two tokens are read as one. -/
theorem not_tidied_comment :
    ¬ ∀ e ∈ (events "a\x7bmargin:0/**/auto\x7d").events, e.kind.hasComponents = true →
      ∃ vs, Origin "a\x7bmargin:0/**/auto\x7d" e vs ∧ e.values = (tidy vs).map Tree.text ∧
        Tree.ofText e.text.toList = tidy vs := by
  intro h
  obtain ⟨vs, -, hvalues, htrees⟩ :=
    h ⟨.declaration, "margin", ["0", "auto"], ⟨2, 18⟩⟩ (by decide +kernel) rfl
  have htwo := congrArg List.length hvalues
  have hone : (Tree.ofText "0auto".toList).length = 1 := by decide +kernel
  have htext : (Event.text ⟨.declaration, "margin", ["0", "auto"], ⟨2, 18⟩⟩) = "0auto" := by
    decide +kernel
  rw [htext] at htrees
  rw [htrees] at hone
  simp [hone] at htwo

end

end StyleSieve.Css
