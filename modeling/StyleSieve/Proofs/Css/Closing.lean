import StyleSieve.Proofs.Css.Origin
import StyleSieve.Proofs.Css.Outline
import StyleSieve.Proofs.Text.Slice

/-!
# Where blocks end

The end of a block has the span of the bracket that closes it, and an empty span at the end of the
source if nothing closes it. Whether a bracket was read is told by the last character of the block,
so a block that is left open has the last byte of a source that ends with a curly bracket, whatever
that byte belongs to (`misread`). Apart from such blocks every end comes after all that was read
before it. This holds of malformed sources too, up to the fault. Events other than ends start one
after another, so that each stands for one place in the source.
-/

namespace StyleSieve.Css

open StyleSieve.Css.Tree (isSemicolon isComma isCurly endsSelector endsPrelude rawOf widthOf
  lexemesOf Bracketed)

/-! ## Blocks and their ends -/

/-- The end of a block. -/
def EventKind.ends : EventKind → Bool
  | .rulesetEnd | .blockEnd => true
  | _ => false

/-- Nothing closes the block. -/
def Tree.isLeftOpen : Tree → Bool
  | .block _ _ none => true
  | _ => false

/-- Where a block at byte `pos` ends: the bracket that closes it, or the empty end of the source. -/
def endSpan (source : String) (pos : Nat) : Tree → Span
  | .block head body (some _) =>
    let bracket := pos + Text.width head.raw + widthOf body
    ⟨bracket, bracket + 1⟩
  | _ => ⟨source.utf8ByteSize, source.utf8ByteSize⟩

/-- The last character of a block that is left open looks like its bracket. -/
def misread (source : String) (t : Tree) : Bool :=
  t.isLeftOpen && source.toList.getLast? == some '\x7d'

/-- The event is read from the trees right before the block `t` at byte `pos`, and begins it. The
block ends with an event of the kind given. -/
inductive Begins (source : String) (head : Event) (pos : Nat) (t : Tree) : EventKind → Prop
  | rule {start : Nat} {selector rest : List Tree}
      (within : Within source start (selector ++ t :: rest))
      (pos_eq : pos = start + widthOf selector)
      (head_eq : head = selectorEvent .rulesetStart start selector) :
      Begins source head pos t .rulesetEnd
  | atRule {start : Nat} {keyword : Tree} {prelude rest : List Tree}
      (within : Within source start (keyword :: (prelude ++ t :: rest)))
      (pos_eq : pos = start + widthOf (keyword :: prelude))
      (head_eq : head = ⟨.blockStart, keyword.text, components prelude, ⟨start, pos⟩⟩) :
      Begins source head pos t .blockEnd

/-- The event `e`, read after `earlier`, ends the block `t` at byte `pos`. -/
structure EndsBlock (source : String) (earlier : List Event) (e : Event) (pos : Nat) (t : Tree) :
    Prop where
  /-- The block has begun, and what was read since is nested. -/
  begun : ∃ before head ns, earlier = before ++ head :: Node.eventsIn ns ∧
    (∃ ctx, ∀ n ∈ ns, Node.Fits ctx n) ∧ Begins source head pos t e.kind
  /-- It opens with a curly bracket. If it is closed, then by a curly bracket that is a token. -/
  curly : ∃ head body close, t = .block head body close ∧ head.raw = ['\x7b'] ∧
    ∀ l ∈ close, l = ⟨.closing .curly, ['\x7d']⟩
  /-- A block that is left open goes to the end of the source. -/
  left_open : t.isLeftOpen → pos + t.width = source.utf8ByteSize

/-- The event has its place after the ones read earlier: all of them stop before it, unless it is an
end that is misread. -/
inductive Placed (source : String) (earlier : List Event) (e : Event) : Prop
  | own (kind : e.kind.ends = false) (wide : e.kind = .blockStart → e.span.start < e.span.stop)
      (apart : ∀ d ∈ earlier, d.span.stop ≤ e.span.start)
  | ended {pos : Nat} {t : Tree} (block : EndsBlock source earlier e pos t)
      (span : e.span =
        if misread source t then ⟨source.utf8ByteSize - 1, source.utf8ByteSize⟩
        else endSpan source pos t)
      (apart : misread source t = false → ∀ d ∈ earlier, d.span.stop ≤ e.span.start)

/-! ## Where trees stand -/

section

variable {source : String} {pos : Nat} {t : Tree} {ts us rest : List Tree} {e head : Event}

/-- Trees with the text around them, which ends with them if they leave a block open. -/
structure Located (source : String) (pos : Nat) (ts : List Tree) (within : Option Bracket)
    (ended : Bool) (before after : List Char) : Prop where
  bracketed : Bracketed within ended ts
  source_eq : source.toList = before ++ (rawOf ts ++ after)
  pos_eq : Text.width before = pos
  ended_eq : ended = true → after = []

theorem Within.located (h : Within source pos ts) :
    ∃ within ended before after, Located source pos ts within ended before after := by
  induction h with
  | text =>
    exact ⟨none, true, [], [], Tree.bracketed_forest _, by simp [Tree.rawOf_ofText], rfl, by simp⟩
  | @later pos t ts _ ih =>
    obtain ⟨within, ended, before, after, hbracketed, hsource, hpos, hended⟩ := ih
    have hts : Bracketed within ended ([t] ++ ts) := hbracketed
    exact ⟨within, ended, before ++ t.raw, after, hts.right, by simp [hsource],
      by rw [Text.width_append, hpos, Tree.width], hended⟩
  | @inside pos t ts _ ih =>
    obtain ⟨within, ended, before, after, hbracketed, hsource, hpos, hended⟩ := ih
    cases hbracketed with
    | @leaf _ _ l =>
      refine ⟨none, false, before ++ l.raw, rawOf ts ++ after, .nil, ?_, ?_, by simp⟩
      · simp [hsource, Tree.inside, Tree.raw, Tree.lexemes]
      · rw [Text.width_append, hpos, Tree.headWidth]
    | @unclosed _ head b body opens inside =>
      refine ⟨some b, true, before ++ head.raw, after, inside, ?_, ?_, hended⟩
      · simp [hsource, Tree.inside, Tree.lexemes, rawOf]
      · rw [Text.width_append, hpos, Tree.headWidth]
    | @block _ _ head close b body _ opens closes inside =>
      refine ⟨some b, false, before ++ head.raw, close.raw ++ (rawOf ts ++ after), inside, ?_, ?_,
        by simp⟩
      · simp [hsource, Tree.inside, Tree.lexemes, rawOf]
      · rw [Text.width_append, hpos, Tree.headWidth]

/-- A block that opens with a curly bracket is closed by one, or the source ends with it. -/
theorem Within.exists_curly (h : Within source pos (t :: rest)) (hcurly : isCurly t = true) :
    ∃ head body close, t = .block head body close ∧ head.raw = ['\x7b'] ∧
      (∀ l ∈ close, l = ⟨.closing .curly, ['\x7d']⟩) ∧
      (close = none → ∃ before, source.toList = before ++ t.raw ∧ Text.width before = pos) := by
  obtain ⟨within, ended, before, after, hbracketed, hsource, hpos, hended⟩ := h.located
  obtain ⟨_, _, _, hstands⟩ := h.stands
  obtain ⟨hreads, -⟩ := reads_append_iff.1 (Tree.lexemesOf_cons t rest ▸ hstands.reads)
  obtain ⟨head, body, close, rfl, hopening⟩ := Tree.exists_of_isCurly hcurly
  rw [Tree.lexemes, reads_cons_iff, reads_append_iff] at hreads
  obtain ⟨hhead, -, hclose⟩ := hreads
  refine ⟨head, body, close, rfl, hhead.raw_of_mark (by rw [hopening]; rfl), ?_, ?_⟩
  · rintro l rfl
    cases hbracketed with
    | @block _ _ _ _ b _ _ opens closes =>
      obtain rfl : b = .curly := by simpa [hopening, Token.opens] using opens.symm
      have htoken := Token.eq_closing closes
      have hraw := hclose.raw_of_mark (d := '\x7d') (by rw [htoken]; rfl)
      rcases l with ⟨token, raw⟩
      simp_all
  · rintro rfl
    cases hbracketed with
    | unclosed =>
      exact ⟨before, by simp [hsource, hended rfl], hpos⟩

theorem raw_block (head : Lexeme) (body : List Tree) (close : Option Lexeme) :
    Tree.raw (.block head body close)
      = head.raw ++ (rawOf body ++ close.toList.flatMap Lexeme.raw) := by
  simp [Tree.raw, Tree.lexemes, rawOf]

/-- The span of an end is that of its bracket, or the end of the source, unless it is misread. -/
theorem span_endEvent (h : Within source pos (t :: rest)) (hcurly : isCurly t = true)
    (kind : EventKind) :
    (endEvent kind t (pos + t.width)).span =
      if misread source t then ⟨source.utf8ByteSize - 1, source.utf8ByteSize⟩
      else endSpan source pos t := by
  obtain ⟨head, body, close, rfl, hhead, hclose, hopen⟩ := h.exists_curly hcurly
  cases close with
  | some l =>
    obtain rfl := hclose l rfl
    have hraw := raw_block head body (some ⟨.closing .curly, ['\x7d']⟩)
    have hlast : (Tree.raw (.block head body (some ⟨.closing .curly, ['\x7d']⟩))).getLast?
        = some '\x7d' := by
      rw [hraw]
      simp
    have hwidth : Tree.width (.block head body (some ⟨.closing .curly, ['\x7d']⟩))
        = Text.width head.raw + widthOf body + 1 := by
      rw [Tree.width, hraw, Text.width_append, Text.width_append, widthOf, Nat.add_assoc]
      rfl
    have hread : misread source (.block head body (some ⟨.closing .curly, ['\x7d']⟩)) = false := rfl
    rw [endEvent, if_pos hlast, hread, if_neg Bool.false_ne_true, hwidth]
    simp only [endSpan, Span.mk.injEq]
    omega
  | none =>
    obtain ⟨before, hsource, rfl⟩ := hopen rfl
    have hsize : source.utf8ByteSize = Text.width before + Tree.width (.block head body none) := by
      rw [Text.utf8ByteSize_eq_width, hsource, Text.width_append, Tree.width]
    -- The block goes to the end of the source, so one last character tells both.
    have hlast : source.toList.getLast? = (Tree.raw (.block head body none)).getLast? := by
      rw [hsource, raw_block, hhead, List.getLast?_append, Option.or_of_isSome (by simp)]
    have hread : misread source (.block head body none)
        = ((Tree.raw (.block head body none)).getLast? == some '\x7d') := by
      rw [← hlast]
      rfl
    rw [endEvent, hread, ← hsize]
    by_cases hbracket : (Tree.raw (.block head body none)).getLast? = some '\x7d'
    · simp [hbracket]
    · simp [hbracket, endSpan]

/-- Unless it is misread, the end of a block comes after what is inside the block. -/
theorem start_endSpan (h : Within source pos (t :: rest)) (hcurly : isCurly t = true) :
    (endSpan source pos t).start = pos + t.headWidth + widthOf t.inside := by
  obtain ⟨head, body, close, rfl, -, -, hopen⟩ := h.exists_curly hcurly
  cases close with
  | some l => rfl
  | none =>
    obtain ⟨before, hsource, rfl⟩ := hopen rfl
    rw [endSpan, Text.utf8ByteSize_eq_width, hsource, Text.width_append, raw_block]
    · simp [Tree.headWidth, Tree.inside, widthOf, Nat.add_assoc]
    · simp

theorem left_open_of_within (h : Within source pos (t :: rest)) (hcurly : isCurly t = true)
    (hopen : t.isLeftOpen) : pos + t.width = source.utf8ByteSize := by
  obtain ⟨head, body, close, rfl, -, -, hsource⟩ := h.exists_curly hcurly
  cases close with
  | some l => simp [Tree.isLeftOpen] at hopen
  | none =>
    obtain ⟨before, hbefore, rfl⟩ := hsource rfl
    rw [Text.utf8ByteSize_eq_width, hbefore, Text.width_append, Tree.width]

theorem headWidth_pos_of_within (h : Within source pos (t :: rest)) (hcurly : isCurly t = true) :
    0 < t.headWidth := by
  obtain ⟨head, body, close, rfl, hraw, -⟩ := h.exists_curly hcurly
  rw [Tree.headWidth, hraw]
  decide

theorem width_inside_le (t : Tree) : t.headWidth + widthOf t.inside ≤ t.width := by
  cases t with
  | leaf l => simp [Tree.headWidth, Tree.inside, Tree.width, Tree.raw, Tree.lexemes]
  | block head body close =>
    rw [Tree.width, raw_block, Text.width_append, Text.width_append]
    exact Nat.add_le_add_left (Nat.le_add_right _ _) _

theorem Begins.within {kind : EventKind} (h : Begins source head pos t kind) :
    ∃ rest, Within source pos (t :: rest) := by
  cases h with
  | @rule start selector rest within pos_eq => exact ⟨rest, pos_eq ▸ within.drop⟩
  | @atRule start keyword prelude rest within pos_eq =>
    have hwithin : Within source start ((keyword :: prelude) ++ t :: rest) := within
    exact ⟨rest, pos_eq ▸ hwithin.drop⟩

/-! ## Events in order -/

/-- Events between two bytes of the source, each in its place. No two of them start at the same byte
unless one is an end. -/
structure Ordered (source : String) (lo : Nat) (es : List Event) (hi : Nat) : Prop where
  le : lo ≤ hi
  bounds : ∀ e ∈ es, lo ≤ e.span.start ∧ e.span.start ≤ e.span.stop ∧ e.span.stop ≤ hi
  before_hi : ∀ e ∈ es, e.kind.ends = false → e.span.start < hi
  starts : (es.filter (!·.kind.ends)).Pairwise (·.span.start < ·.span.start)
  placed : ∀ before e after, es = before ++ e :: after → Placed source before e

variable {lo mid hi : Nat} {es es' earlier : List Event} {p q : Outcome} {kind : EventKind}

theorem EndsBlock.after (h : EndsBlock source earlier e pos t) (es : List Event) :
    EndsBlock source (es ++ earlier) e pos t := by
  obtain ⟨before, head, ns, rfl, hbegun⟩ := h.begun
  exact ⟨⟨es ++ before, head, ns, by simp, hbegun⟩, h.curly, h.left_open⟩

/-- More events that stop before it leave an event in its place. -/
theorem Placed.after (h : Placed source earlier e) (hes : ∀ d ∈ es, d.span.stop ≤ e.span.start) :
    Placed source (es ++ earlier) e := by
  have hapart : (∀ d ∈ earlier, d.span.stop ≤ e.span.start) →
      ∀ d ∈ es ++ earlier, d.span.stop ≤ e.span.start := by
    intro hearlier d hd
    exact (List.mem_append.1 hd).elim (hes d) (hearlier d)
  cases h with
  | own kind wide apart => exact .own kind wide (hapart apart)
  | ended block span apart => exact .ended (block.after es) span fun hread => hapart (apart hread)

namespace Ordered

theorem nil (h : lo ≤ hi) : Ordered source lo [] hi := ⟨h, by simp, by simp, by simp, by simp⟩

theorem mono (h : Ordered source lo es mid) (hle : mid ≤ hi) : Ordered source lo es hi where
  le := Nat.le_trans h.le hle
  bounds e he := ⟨(h.bounds e he).1, (h.bounds e he).2.1, Nat.le_trans (h.bounds e he).2.2 hle⟩
  before_hi e he hkind := Nat.lt_of_lt_of_le (h.before_hi e he hkind) hle
  starts := h.starts
  placed := h.placed

theorem since (h : Ordered source mid es hi) (hle : lo ≤ mid) : Ordered source lo es hi where
  le := Nat.le_trans hle h.le
  bounds e he := ⟨Nat.le_trans hle (h.bounds e he).1, (h.bounds e he).2⟩
  before_hi := h.before_hi
  starts := h.starts
  placed := h.placed

theorem append (h : Ordered source lo es mid) (h' : Ordered source mid es' hi) :
    Ordered source lo (es ++ es') hi where
  le := Nat.le_trans h.le h'.le
  bounds e he := by
    rcases List.mem_append.1 he with he | he
    · exact (h.mono h'.le).bounds e he
    · exact (h'.since h.le).bounds e he
  before_hi e he := by
    rcases List.mem_append.1 he with he | he
    · exact (h.mono h'.le).before_hi e he
    · exact h'.before_hi e he
  starts := by
    rw [List.filter_append, List.pairwise_append]
    refine ⟨h.starts, h'.starts, fun d hd e he => ?_⟩
    simp only [List.mem_filter, Bool.not_eq_true'] at hd he
    exact Nat.lt_of_lt_of_le (h.before_hi d hd.1 hd.2) (h'.bounds e he.1).1
  placed before e after heq := by
    rcases List.append_eq_append_iff.1 heq with ⟨more, rfl, hmore⟩ | ⟨more, rfl, hmore⟩
    · have hbefore := h'.bounds e (by simp [hmore])
      refine (h'.placed more e after hmore).after fun d hd => ?_
      exact Nat.le_trans (h.bounds d hd).2.2 hbefore.1
    · cases more with
      | nil =>
        have hlater : es' = [] ++ e :: after := hmore.symm
        have hbefore := h'.bounds e (by simp [hlater])
        have hplaced : Placed source (before ++ []) e :=
          (h'.placed [] e after hlater).after fun d hd =>
            Nat.le_trans (h.bounds d (by simpa using hd)).2.2 hbefore.1
        rwa [List.append_nil] at hplaced
      | cons d more =>
        obtain ⟨rfl, -⟩ := List.cons.inj hmore
        exact h.placed before e more rfl

/-- The end of a block, in its place. -/
theorem concat (h : Ordered source lo es mid) (hkind : e.kind.ends = true)
    (hplaced : Placed source es e) (hlower : lo ≤ e.span.start) (hspan : e.span.start ≤ e.span.stop)
    (hmid : mid ≤ e.span.stop) (hupper : e.span.stop ≤ hi) :
    Ordered source lo (es ++ [e]) hi where
  le := Nat.le_trans (Nat.le_trans h.le hmid) hupper
  bounds d hd := by
    rcases List.mem_append.1 hd with hd | hd
    · exact (h.mono (Nat.le_trans hmid hupper)).bounds d hd
    · obtain rfl := List.mem_singleton.1 hd
      exact ⟨hlower, hspan, hupper⟩
  before_hi d hd hd' := by
    rcases List.mem_append.1 hd with hd | hd
    · exact (h.mono (Nat.le_trans hmid hupper)).before_hi d hd hd'
    · obtain rfl := List.mem_singleton.1 hd
      rw [hkind] at hd'
      exact absurd hd' (by simp)
  starts := by
    have hfilter : (es ++ [e]).filter (!·.kind.ends) = es.filter (!·.kind.ends) := by simp [hkind]
    rw [hfilter]
    exact h.starts
  placed before d after heq := by
    rcases List.eq_nil_or_concat after with rfl | ⟨after, x, rfl⟩
    · obtain ⟨rfl, hlast⟩ := List.append_inj' heq rfl
      obtain rfl := List.singleton_inj.1 hlast
      exact hplaced
    · rw [List.concat_eq_append, ← List.cons_append, ← List.append_assoc] at heq
      obtain ⟨rfl, -⟩ := List.append_inj' heq rfl
      exact h.placed before d after rfl

theorem own (hkind : e.kind.ends = false)
    (hwide : e.kind = .blockStart → e.span.start < e.span.stop) (hlower : lo ≤ e.span.start)
    (hspan : e.span.start ≤ e.span.stop) (hupper : e.span.stop ≤ hi) (hlt : e.span.start < hi) :
    Ordered source lo [e] hi where
  le := Nat.le_trans hlower (Nat.le_of_lt hlt)
  bounds d hd := by
    obtain rfl := List.mem_singleton.1 hd
    exact ⟨hlower, hspan, hupper⟩
  before_hi d hd _ := by
    obtain rfl := List.mem_singleton.1 hd
    exact hlt
  starts := by simp [hkind]
  placed before d after heq := by
    obtain ⟨rfl, rfl, rfl⟩ : before = [] ∧ d = e ∧ after = [] := by
      cases before <;> simp_all
    exact .own hkind hwide (by simp)

/-- Nothing follows a fault. -/
theorem followed (h : Ordered source lo p.events mid) (h' : Ordered source mid q.events hi) :
    Ordered source lo (p ++ q).events hi := by
  rw [Outcome.append_def]
  split
  · exact h.mono h'.le
  · exact h.append h'

/-- A block with its ends, as far as it is read. -/
theorem block (hbegins : Begins source head pos t kind) (hcurly : isCurly t = true)
    (hlower : lo ≤ pos) (hhead : Ordered source lo [head] (pos + t.headWidth))
    (hinside : Ordered source (pos + t.headWidth) p.events (pos + t.headWidth + widthOf t.inside))
    (hnested : p.error = none →
      ∃ ctx ns, (∀ n ∈ ns, Node.Fits ctx n) ∧ p.events = Node.eventsIn ns) :
    Ordered source lo (Outcome.one head ++ p ++ .one (endEvent kind t (pos + t.width))).events
      (pos + t.width) := by
  obtain ⟨rest, hwithin⟩ := hbegins.within
  have hspan := span_endEvent hwithin hcurly kind
  have hwidth : t.headWidth + widthOf t.inside ≤ t.width := width_inside_le t
  have hhead_pos : 0 < t.headWidth := headWidth_pos_of_within hwithin hcurly
  have hopened := hhead.append hinside
  rw [Outcome.append_assoc, Outcome.append_def, if_neg (by simp [Outcome.one])]
  rw [Outcome.append_def]
  split
  -- After a fault inside the block its end is not read.
  · exact hopened.mono (by omega)
  · next herror =>
    obtain ⟨ctx, ns, hfits, hevents⟩ := hnested (by simpa using herror)
    have hends : EndsBlock source ([head] ++ p.events) (endEvent kind t (pos + t.width)) pos t :=
      { begun := ⟨[], head, ns, by simp [hevents], ⟨ctx, hfits⟩, hbegins⟩
        curly := by
          obtain ⟨head, body, close, ht, hraw, hclose, -⟩ := hwithin.exists_curly hcurly
          exact ⟨head, body, close, ht, hraw, hclose⟩
        left_open := left_open_of_within hwithin hcurly }
    have hplaced : Placed source ([head] ++ p.events) (endEvent kind t (pos + t.width)) := by
      refine .ended hends hspan fun hread d hd => ?_
      rw [hspan, hread, if_neg Bool.false_ne_true, start_endSpan hwithin hcurly]
      exact (hopened.bounds d hd).2.2
    have hstart : pos ≤ (endEvent kind t (pos + t.width)).span.start
        ∧ (endEvent kind t (pos + t.width)).span.start ≤ pos + t.width := by
      simp only [endEvent]
      split <;> omega
    have hends : kind.ends = true := by cases hbegins <;> rfl
    exact hopened.concat hends hplaced (Nat.le_trans hlower hstart.1) hstart.2 (by
      simp only [endEvent]
      omega) (Nat.le_refl _)

end Ordered

theorem ordered_guarded {start : Nat} (h : Ordered source lo p.events hi) :
    Ordered source lo (guarded start ts p).events hi := by
  unfold guarded
  split
  · exact .nil h.le
  · exact h

theorem Reading.exists_nodes {ctx : Context} (h : Reading ctx pos ts p) (hctx : ctx ≠ .selectors)
    (herror : p.error = none) :
    ∃ ctx' ns, (∀ n ∈ ns, Node.Fits ctx' n) ∧ p.events = Node.eventsIn ns :=
  ⟨ctx, (nested_iff hctx).1 (h.nests.nested herror)⟩

theorem Within.width_pos (h : Within source pos (t :: rest)) : 0 < t.width := by
  obtain ⟨_, _, _, hstands⟩ := h.stands
  obtain ⟨l, hl⟩ := List.exists_mem_of_ne_nil _ (lexemes_ne_nil t)
  have hraw := hstands.reads.raw_ne_nil_of_mem (by simp [hl] : l ∈ lexemesOf (t :: rest))
  obtain ⟨c, cs, hcs⟩ := List.exists_cons_of_ne_nil hraw
  obtain ⟨front, back, hsplit⟩ := List.append_of_mem hl
  have := c.utf8Size_pos
  simp [Tree.width, Tree.raw, hsplit, hcs]
  omega

theorem ordered_selector (hkind : kind.ends = false) (hne : kind ≠ .blockStart) (pos : Nat)
    (ts : List Tree) (hlt : pos + widthOf ts < hi) :
    Ordered source pos [selectorEvent kind pos ts] hi := by
  obtain ⟨after, hraw⟩ := Text.exists_append_strip Text.isBlank (rawOf ts)
  have hwidth := congrArg Text.width hraw
  rw [Text.width_append, Text.width_append] at hwidth
  rw [widthOf] at hlt
  refine .own hkind (fun h => absurd h hne) ?_ ?_ ?_ ?_
  · exact Nat.le_add_right _ _
  · exact Nat.le_add_right _ _
  · simp only [selectorEvent]
    omega
  · simp only [selectorEvent]
    omega

/-- An event that goes from one byte to another and ends nothing. -/
theorem ordered_spanning {data : String} {values : List String} (hkind : kind.ends = false)
    (h : pos < hi) : Ordered source pos [⟨kind, data, values, ⟨pos, hi⟩⟩] hi :=
  .own hkind (fun _ => h) (Nat.le_refl pos) (Nat.le_of_lt h) (Nat.le_refl hi) h

theorem ordered_declaration (name : Tree) (value : List Tree) {stop : Nat} (h : pos < stop) :
    Ordered source pos [declarationEvent name value ⟨pos, stop⟩] stop := by
  unfold declarationEvent
  split
  · exact ordered_spanning rfl h
  · exact ordered_spanning rfl h

/-- What is read from trees of the source is in order. -/
theorem Reading.ordered {ctx : Context} (h : Reading ctx pos ts p)
    (hwithin : Within source pos ts) : Ordered source pos p.events (pos + widthOf ts) := by
  induction h with
  | nil => exact .nil (Nat.le_add_right _ _)
  | filler _ _ _ ih =>
    rw [widthOf_cons, ← Nat.add_assoc]
    exact (ih hwithin.later).since (Nat.le_add_right _ _)
  | @comment _ pos t _ _ _ _ _ _ ih =>
    have hlt : pos < pos + t.width := Nat.lt_add_of_pos_right hwithin.width_pos
    rw [widthOf_cons, ← Nat.add_assoc]
    exact (ordered_spanning rfl hlt).followed (ih hwithin.later)
  | rule _ _ ih => exact ih hwithin
  | @selector pos selector t ts p _ _ _ _ ih =>
    have hmark : Within source (pos + widthOf selector) (t :: ts) := hwithin.drop
    have hlt : pos + widthOf selector < pos + widthOf selector + t.width :=
      Nat.lt_add_of_pos_right hmark.width_pos
    rw [Tree.widthOf_append, widthOf_cons, ← Nat.add_assoc, ← Nat.add_assoc]
    exact ordered_guarded
      ((ordered_selector rfl (by simp) pos selector hlt).followed (ih hmark.later))
  | @ruleset pos selector t ts p q _ curly _ inside _ ihInside ih =>
    have hblock : Within source (pos + widthOf selector) (t :: ts) := hwithin.drop
    have hlt : pos + widthOf selector < pos + widthOf selector + t.headWidth :=
      Nat.lt_add_of_pos_right (headWidth_pos_of_within hblock curly)
    have hwhole := Ordered.block (.rule hwithin rfl rfl) curly (Nat.le_add_right _ _)
      (ordered_selector rfl (by simp) pos selector hlt) (ihInside hblock.inside)
      (inside.exists_nodes (by simp))
    rw [Tree.widthOf_append, widthOf_cons, ← Nat.add_assoc, ← Nat.add_assoc]
    exact ordered_guarded (hwhole.followed (ih hblock.later))
  | @lastStatement _ pos keyword prelude =>
    have hlt : pos < pos + keyword.width + widthOf prelude :=
      Nat.lt_add_right _ (Nat.lt_add_of_pos_right hwithin.width_pos)
    rw [widthOf_cons, ← Nat.add_assoc]
    exact ordered_guarded (ordered_spanning rfl hlt)
  | @statement _ pos keyword stop prelude ts p _ _ _ _ _ _ ih =>
    have hlt : pos < pos + keyword.width + widthOf prelude + stop.width :=
      Nat.lt_add_right _ (Nat.lt_add_right _ (Nat.lt_add_of_pos_right hwithin.width_pos))
    simp only [widthOf_cons, Tree.widthOf_append, ← Nat.add_assoc]
    exact ordered_guarded
      ((ordered_spanning rfl hlt).followed (ih hwithin.later.drop.later))
  | @block _ pos keyword t prelude ts p q _ _ _ _ curly inside _ ihInside ih =>
    have hlt : pos < pos + keyword.width + widthOf prelude :=
      Nat.lt_add_right _ (Nat.lt_add_of_pos_right hwithin.width_pos)
    have hblock : Within source (pos + keyword.width + widthOf prelude) (t :: ts) :=
      hwithin.later.drop
    have hhead : Ordered source pos [⟨.blockStart, keyword.text, components prelude, _⟩] _ :=
      ordered_spanning rfl hlt
    have hwhole := Ordered.block (.atRule hwithin (by rw [widthOf_cons, Nat.add_assoc]) rfl) curly
      (Nat.le_of_lt hlt) (hhead.mono (Nat.le_add_right _ _)) (ihInside hblock.inside)
      (inside.exists_nodes (Context.ofAtRule_ne_selectors _))
    simp only [widthOf_cons, Tree.widthOf_append, ← Nat.add_assoc]
    exact ordered_guarded (hwhole.followed (ih hblock.later))
  | @declaration pos name colon gap value ts p _ _ _ _ _ _ _ ih =>
    have hlt : pos < pos + name.width + widthOf gap + colon.width + widthOf value := by
      have := hwithin.width_pos
      omega
    simp only [widthOf_cons, Tree.widthOf_append, ← Nat.add_assoc]
    exact ordered_guarded
      ((ordered_declaration name value hlt).followed (ih hwithin.later.drop.later.drop))
  | endInSelector | emptySelector | inSelector =>
    exact ordered_guarded (.nil (Nat.le_add_right _ _))
  | missingColon | inRules | inDeclarations => exact .nil (Nat.le_add_right _ _)

/-- The events of a source stand in order. -/
theorem ordered_events (source : String) :
    Ordered source 0 (events source).events source.utf8ByteSize := by
  have hordered : Ordered source 0 (events source).events
      (0 + widthOf (Tree.ofText source.toList)) :=
    (reading_eventsOf _ _ _).ordered .text
  rwa [Nat.zero_add, widthOf, Tree.rawOf_ofText, ← Text.utf8ByteSize_eq_width] at hordered

/-- Events other than ends start one after another. -/
theorem starts_increase (source : String) :
    ((events source).events.filter (!·.kind.ends)).Pairwise (·.span.start < ·.span.start) :=
  (ordered_events source).starts

/-! ## Nodes at their places -/

namespace Node

/-- Events other than ends start one after another. -/
def Distinct (ns : List Node) : Prop :=
  ((eventsIn ns).filter (!·.kind.ends)).Pairwise (·.span.start < ·.span.start)

namespace Distinct

variable {ns ns' inner : List Node} {n : Node} {head stop e : Event} {before after : List Event}

theorem of_sublist (h : Distinct ns) (hsub : (eventsIn ns').Sublist (eventsIn ns)) :
    Distinct ns' :=
  h.sublist (hsub.filter _)

theorem first (h : Distinct (n :: ns)) : Distinct [n] := h.of_sublist (by simp)

theorem others (h : Distinct (n :: ns)) : Distinct ns := h.of_sublist (by simp)

theorem inside (h : Distinct (n :: ns)) : Distinct n.body := by
  refine h.of_sublist ?_
  rw [eventsIn_cons]
  refine List.Sublist.trans ?_ (List.sublist_append_left _ _)
  cases n with
  | comment e | declaration e | statement e => simp [Node.body]
  | ruleset earlier last body stop =>
    rw [events_ruleset]
    exact ((List.sublist_append_left _ _).cons _).trans (List.sublist_append_right _ _)
  | block head body stop =>
    rw [events_block]
    exact (List.sublist_append_left _ _).cons _

/-- What stands at one place stands nowhere else. -/
theorem not_mem (h : Distinct ns) (hsplit : eventsIn ns = before ++ after)
    (hkind : e.kind.ends = false) (hbefore : e ∈ before) : e ∉ after := by
  intro hafter
  rw [Distinct, hsplit, List.filter_append, List.pairwise_append] at h
  exact Nat.lt_irrefl _ (h.2.2 e (by simp [hbefore, hkind]) e (by simp [hafter, hkind]))

theorem not_mem_others (h : Distinct (n :: ns)) (hkind : e.kind.ends = false)
    (he : e ∈ n.events) : e ∉ eventsIn ns :=
  h.not_mem (eventsIn_cons n ns) hkind he

theorem head_not_mem (h : Distinct [block head inner stop]) (hkind : head.kind.ends = false) :
    head ∉ eventsIn inner := by
  intro hmem
  have hsplit : eventsIn [block head inner stop] = [head] ++ (eventsIn inner ++ [stop]) := by simp
  exact h.not_mem hsplit hkind List.mem_cons_self (List.mem_append_left _ hmem)

end Distinct

theorem distinct_outline {source : String} (h : (Css.events source).error = none) :
    Distinct (outline source) := by
  rw [Distinct, outline_events h]
  exact starts_increase source

mutual

/-- A block is told by its beginning. -/
theorem body_unique {head stop stop' : Event} {body body' : List Node}
    (hkind : head.kind.ends = false) : ∀ {n : Node}, Distinct [n] →
      block head body stop ∈ n.nodes → block head body' stop' ∈ n.nodes → body = body'
  | comment e => fun _ h => by simp [nodes] at h
  | declaration e => fun _ h => by simp [nodes] at h
  | statement e => fun _ h => by simp [nodes] at h
  | ruleset earlier last inner stop => fun hdistinct h h' => by
    simp only [nodes, List.mem_cons, reduceCtorEq, false_or] at h h'
    exact body_unique_in hkind hdistinct.inside h h'
  | block first inner last => fun hdistinct h h' => by
    simp only [nodes, List.mem_cons, block.injEq] at h h'
    rcases h with ⟨rfl, rfl, -⟩ | h
    · rcases h' with ⟨-, rfl, -⟩ | h'
      · rfl
      · exact absurd (head_mem_eventsIn h') (hdistinct.head_not_mem hkind)
    · rcases h' with ⟨rfl, -, -⟩ | h'
      · exact absurd (head_mem_eventsIn h) (hdistinct.head_not_mem hkind)
      · exact body_unique_in hkind hdistinct.inside h h'

theorem body_unique_in {head stop stop' : Event} {body body' : List Node}
    (hkind : head.kind.ends = false) : ∀ {ns : List Node}, Distinct ns →
      block head body stop ∈ nodesIn ns → block head body' stop' ∈ nodesIn ns → body = body'
  | [] => fun _ h => by simp at h
  | n :: ns => fun hdistinct h h' => by
    rw [nodesIn_cons, List.mem_append] at h h'
    have hapart : head ∈ n.events → head ∉ eventsIn ns := hdistinct.not_mem_others hkind
    have hmem {body : List Node} {stop : Event} (h : block head body stop ∈ n.nodes) :
        head ∈ n.events := (events_sublist_of_mem_nodes h).subset (by simp)
    rcases h with h | h <;> rcases h' with h' | h'
    · exact body_unique hkind hdistinct.first h h'
    · exact absurd (head_mem_eventsIn h') (hapart (hmem h))
    · exact absurd (head_mem_eventsIn h) (hapart (hmem h'))
    · exact body_unique_in hkind hdistinct.others h h'

end

end Node

/-! ## Ends in a source -/

/-- An event stops no sooner than those before it. -/
theorem stop_le_stop {before after : List Event} {d : Event}
    (h : (events source).events = before ++ e :: after) (hd : d ∈ before) :
    d.span.stop ≤ e.span.stop := by
  have hordered := ordered_events source
  have hspan := (hordered.bounds e (by simp [h])).2.1
  cases hordered.placed before e after h with
  | own kind wide apart => exact Nat.le_trans (apart d hd) hspan
  | @ended pos t block span apart =>
    cases hread : misread source t with
    | false => exact Nat.le_trans (apart hread d hd) hspan
    | true =>
      rw [span, hread, if_pos rfl]
      exact (hordered.bounds d (by simp [h, hd])).2.2

/-- Every end in a source is that of the block that has begun last and has not ended. Its span is
that of the bracket that closes the block, or the empty end of the source if none does, and it comes
after every event before it; except that a block that is left open, in a source whose last character
is a curly bracket, is given that one. -/
theorem span_of_end {before after : List Event}
    (h : (events source).events = before ++ e :: after) (hends : e.kind.ends = true) :
    ∃ pos t, EndsBlock source before e pos t ∧
      e.span = (if misread source t then ⟨source.utf8ByteSize - 1, source.utf8ByteSize⟩
        else endSpan source pos t) ∧
      (misread source t = false → ∀ d ∈ before, d.span.stop ≤ e.span.start) := by
  cases (ordered_events source).placed before e after h with
  | own kind => simp [hends] at kind
  | @ended pos t block span apart => exact ⟨pos, t, block, span, apart⟩

/-- A group is left open after the rule in it has been closed, and a blank shows it. -/
theorem span_of_end_left_open :
    let source := "@media print\x7ba\x7bb:c\x7d "
    ∃ before pos t, (events source).events = before ++ [⟨.blockEnd, "\x7d", [], ⟨20, 20⟩⟩] ∧
      EndsBlock source before ⟨.blockEnd, "\x7d", [], ⟨20, 20⟩⟩ pos t ∧
      misread source t = false ∧ ⟨20, 20⟩ = endSpan source pos t ∧
      ∀ d ∈ before, d.span.stop ≤ 20 := by
  intro source
  have hevents : (events source).events =
      [⟨.blockStart, "@media", ["print"], ⟨0, 12⟩⟩, ⟨.rulesetStart, "a", ["a"], ⟨13, 14⟩⟩,
        ⟨.declaration, "b", ["c"], ⟨15, 18⟩⟩, ⟨.rulesetEnd, "\x7d", [], ⟨18, 19⟩⟩]
      ++ [⟨.blockEnd, "\x7d", [], ⟨20, 20⟩⟩] := by decide +kernel
  obtain ⟨pos, t, hblock, hspan, hapart⟩ := span_of_end hevents rfl
  have hlast : source.toList.getLast? = some ' ' := by decide +kernel
  have hread : misread source t = false := by
    rw [misread, hlast]
    exact Bool.and_false _
  rw [hread] at hspan
  exact ⟨_, pos, t, hevents, hblock, hread, hspan, hapart hread⟩

/-- Two ends have the same bracket, which closes the inner block; and an end has a bracket inside a
string. In both sources the last block is left open. -/
theorem bracket_taken_twice :
    let ends := fun source => ((events source).events.filter (·.kind.ends)).map Event.span
    let leavesOpen := fun source : String => (Tree.ofText source.toList).any Tree.isLeftOpen
    let nested := "@media print\x7ba\x7bb:c\x7d"
    let quoted := "a\x7bb:\"\x7d"
    (ends nested = [⟨18, 19⟩, ⟨18, 19⟩] ∧ leavesOpen nested) ∧
      (ends quoted = [⟨5, 6⟩] ∧ leavesOpen quoted) := by
  decide +kernel

end

end StyleSieve.Css
