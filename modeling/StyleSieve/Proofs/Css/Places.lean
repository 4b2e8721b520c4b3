import StyleSieve.Proofs.Css.Closing

/-!
# Where events stand

The source holds the text of an event where the span of the event says (`Covers`), an at-rule goes
from the sign of its keyword to the end of its block (`CoversRule`), and a fault comes after all
that is read before it. `charted` has all this for every source, malformed ones included. Spans of
declarations and of at-rules cover more than their data, and a block that is left open may end with
a bracket that is not its own (`bracket_taken_twice`), so nothing is claimed of what stands there.
-/

namespace StyleSieve.Css

open Text (At Cut)
open StyleSieve.Css.Tree (isSemicolon isComma isCurly endsSelector endsPrelude rawOf widthOf)

/-! ## Texts at their places -/

/-- What the source holds where the event stands: the data and nothing else, or first of all the
data, or the bracket of an end, if it has one. -/
def ShowsData (source : String) (e : Event) : Prop :=
  match e.kind with
  | .comment | .selector | .rulesetStart => Text.slice source e.span.start e.span.stop = e.data
  | .declaration | .customDeclaration | .statement | .blockStart =>
    At source e.span.start e.data.toList
  | .rulesetEnd | .blockEnd =>
    Text.slice source e.span.start e.span.stop = "\x7d" ∨
      Text.slice source e.span.start e.span.stop = ""

/-- The span of the event is a part of the source, made of whole characters, that shows its data. -/
structure Covers (source : String) (e : Event) : Prop where
  start : Cut source e.span.start
  stop : Cut source e.span.stop
  le : e.span.start ≤ e.span.stop
  le_size : e.span.stop ≤ source.utf8ByteSize
  data : ShowsData source e

/-- The source from `head` to `stop` is the at-rule that begins with the keyword and ends with its
block. -/
structure CoversRule (source : String) (head stop : Event) (keyword : Tree) (prelude : List Tree)
    (block : Tree) : Prop where
  within : ∃ rest, Within source head.span.start (keyword :: (prelude ++ block :: rest))
  keyword_token : ∃ name, keyword.token = .atKeyword name
  data : head.data = keyword.text
  unended : ∀ t ∈ prelude, endsPrelude t = false
  curly : isCurly block = true
  slice : Text.slice source head.span.start stop.span.stop =
    String.ofList (rawOf (keyword :: (prelude ++ [block])))
  sign : keyword.raw.head? = some '@'
  /-- The block ends with a curly bracket that is a token, or else with the source. -/
  closed : if block.isLeftOpen then stop.span.stop = source.utf8ByteSize
    else block.raw.getLast? = some '\x7d'

section

variable {source : String} {lo mid hi pos n : Nat} {t : Tree} {ts us rest : List Tree}
  {e head stop : Event} {es : List Event} {p q : Outcome} {kind : EventKind}

theorem cut_le_size (h : Cut source n) : n ≤ source.utf8ByteSize := by
  obtain ⟨before, after, hsource, rfl⟩ := h
  rw [Text.utf8ByteSize_eq_width, hsource, Text.width_append]
  exact Nat.le_add_right _ _

theorem Within.shown (h : Within source pos ts) : At source pos (rawOf ts) := by
  obtain ⟨_, _, before, after, -, hsource, hpos, -⟩ := h.located
  exact ⟨before, after, by rw [hsource, List.append_assoc], hpos⟩

theorem Within.shown_left (h : Within source pos (us ++ ts)) : At source pos (rawOf us) := by
  have hshown := h.shown
  rw [Tree.rawOf_append] at hshown
  exact hshown.left

theorem Within.shown_first (h : Within source pos (t :: ts)) : At source pos t.raw := by
  have hshown := h.shown
  rw [Tree.rawOf_cons] at hshown
  exact hshown.left

/-- Nothing but an at sign begins a keyword. -/
theorem readMark_atKeyword {c : Char} {cs : List Char} {name : String}
    (h : (readMark c cs).1 = .atKeyword name) : c = '@' := by
  have hmatch : ∀ c token, (∀ name, token ≠ Token.atKeyword name) →
      (readMatch c token cs).1 ≠ .atKeyword name := by
    intro c token htoken
    rcases readMatch_token c token cs with h | h <;> simp [h, htoken]
  unfold readMark at h
  split at h
  case h_1 => rcases readHash_token cs with ⟨s, hs⟩ | ⟨s, hs⟩ | hs <;> simp [hs] at h
  case h_11 | h_12 | h_13 | h_14 | h_15 => exact absurd h (hmatch _ _ (by simp))
  case h_16 => split at h <;> simp at h
  case h_17 => split at h <;> simp at h
  case h_18 => rfl
  all_goals simp at h

theorem readToken_atKeyword {c : Char} {cs : List Char} {name : String}
    (h : (readToken c cs).1 = .atKeyword name) : c = '@' := by
  rcases readToken_reader c cs with ⟨-, s, n, hs⟩ | ⟨-, ⟨s, hs⟩ | ⟨n, hs⟩ | hs | ⟨n, hs⟩ | hs⟩
  · simp [hs] at h
  · rw [hs] at h
    split at h <;> simp at h
  · rw [hs] at h
    rcases readNumeric_token (c :: cs) with ⟨v, hv⟩ | ⟨v, hv⟩ | ⟨v, unit, hv⟩ <;> simp [hv] at h
  · simp [hs] at h
  · rw [hs] at h
    rcases readIdentLike_token (c :: cs) with ⟨v, hv⟩ | ⟨v, hv⟩ | ⟨v, hv⟩ | ⟨v, hv⟩ <;>
      simp [hv] at h
  · rw [hs] at h
    exact readMark_atKeyword h

theorem Within.sign_of_atKeyword {name : String} (h : Within source pos (t :: ts))
    (htoken : t.token = .atKeyword name) : t.raw.head? = some '@' := by
  obtain ⟨_, _, _, hstands⟩ := h.stands
  obtain ⟨l, ls, hl, hraw⟩ : ∃ l ls, t.lexemes = l :: ls ∧ l.token = .atKeyword name := by
    cases t with
    | leaf l => exact ⟨l, [], by rw [Tree.lexemes], htoken⟩
    | block head body close => exact ⟨head, _, by rw [Tree.lexemes], htoken⟩
  have hreads := hstands.reads
  rw [Tree.lexemesOf_cons, hl, List.cons_append, reads_cons_iff] at hreads
  obtain ⟨c, u, n, hc, hread, -⟩ := hreads.1.exists_readToken
  obtain rfl : c = '@' := readToken_atKeyword (by rw [hread]; exact hraw)
  simp [Tree.raw, hl, hc]

/-! ## One event -/

theorem covers_of_at {cs : List Char} (h : At source pos cs)
    (hspan : e.span = ⟨pos, pos + Text.width cs⟩) (hdata : ShowsData source e) :
    Covers source e where
  start := by rw [hspan]; exact h.start
  stop := by rw [hspan]; exact h.stop
  le := by rw [hspan]; exact Nat.le_add_right _ _
  le_size := by rw [hspan]; exact cut_le_size h.stop
  data := hdata

theorem covers_comment (h : Within source pos (t :: ts)) : Covers source (commentEvent pos t) :=
  covers_of_at h.shown_first rfl h.shown_first.slice_eq

theorem covers_selector (hkind : kind = .selector ∨ kind = .rulesetStart)
    (h : At source pos (rawOf ts)) : Covers source (selectorEvent kind pos ts) := by
  obtain ⟨after, hraw⟩ := Text.exists_append_strip Text.isBlank (rawOf ts)
  rw [hraw] at h
  have hdata := h.right.left
  refine covers_of_at hdata rfl ?_
  rcases hkind with rfl | rfl <;> exact hdata.slice_eq

/-- A declaration or the beginning of an at-rule, with the trees that its span covers. -/
theorem covers_headed
    (hkind : e.kind ∈ [.declaration, .customDeclaration, .statement, .blockStart])
    (hdata : e.data = t.text) (h : At source pos (rawOf (t :: ts)))
    (hspan : e.span = ⟨pos, pos + widthOf (t :: ts)⟩) : Covers source e := by
  refine covers_of_at h hspan ?_
  have hshown : At source e.span.start e.data.toList := by
    rw [hspan, hdata, Tree.text, String.toList_ofList]
    rw [Tree.rawOf_cons] at h
    exact h.left
  unfold ShowsData
  split <;> simp_all

/-- The end of a block shows its bracket or nothing. -/
theorem covers_end (hkind : kind.ends = true) (h : At source pos t.raw) :
    Covers source (endEvent kind t (pos + t.width)) := by
  have hdata : Text.slice source (endEvent kind t (pos + t.width)).span.start
        (endEvent kind t (pos + t.width)).span.stop = "\x7d" ∨
      Text.slice source (endEvent kind t (pos + t.width)).span.start
        (endEvent kind t (pos + t.width)).span.stop = "" →
      ShowsData source (endEvent kind t (pos + t.width)) := by
    cases kind <;> first | exact id | exact absurd hkind Bool.false_ne_true
  by_cases hlast : t.raw.getLast? = some '\x7d'
  · obtain ⟨before, hraw⟩ := List.getLast?_eq_some_iff.1 hlast
    rw [hraw] at h
    have hwidth : pos + t.width = pos + Text.width before + 1 := by
      rw [Tree.width, hraw, Text.width_append, ← Nat.add_assoc]
      rfl
    have hspan : (endEvent kind t (pos + t.width)).span
        = ⟨pos + Text.width before, pos + Text.width before + Text.width ['\x7d']⟩ := by
      rw [endEvent, if_pos hlast, hwidth]
      rfl
    exact covers_of_at h.right hspan (hdata (.inl (by rw [hspan]; exact h.right.slice_eq)))
  · have hspan : (endEvent kind t (pos + t.width)).span = ⟨pos + t.width, pos + t.width⟩ := by
      rw [endEvent, if_neg hlast]
    have hnothing : At source (pos + t.width) [] := by
      have hend : At source pos (t.raw ++ []) := by rwa [List.append_nil]
      exact hend.right
    exact covers_of_at hnothing hspan (hdata (.inr (by rw [hspan]; exact hnothing.slice_eq)))

/-! ## At-rules with their blocks -/

/-- Every end of an at-rule comes after its beginning, with nested events between them. -/
def EndsRules (source : String) (es : List Event) : Prop :=
  ∀ before stop after, es = before ++ stop :: after → stop.kind = .blockEnd →
    ∃ earlier head ns, before = earlier ++ head :: Node.eventsIn ns ∧
      (∃ ctx, ∀ n ∈ ns, Node.Fits ctx n) ∧ head.kind = .blockStart ∧
      ∃ keyword prelude block, CoversRule source head stop keyword prelude block

theorem endsRules_singleton (h : e.kind ≠ .blockEnd) : EndsRules source [e] := by
  intro before stop after heq hstop
  obtain rfl : e = stop := List.mem_singleton.1 (by rw [heq]; simp) |>.symm
  exact absurd hstop h

theorem EndsRules.append {es es' : List Event} (h : EndsRules source es)
    (h' : EndsRules source es') : EndsRules source (es ++ es') := by
  intro before stop after heq hstop
  rcases List.append_eq_append_iff.1 heq with ⟨more, rfl, hmore⟩ | ⟨more, rfl, hmore⟩
  · obtain ⟨earlier, head, ns, rfl, hrule⟩ := h' more stop after hmore hstop
    exact ⟨es ++ earlier, head, ns, by rw [List.append_assoc], hrule⟩
  · cases more with
    | nil =>
      obtain ⟨earlier, head, ns, hnone, hrule⟩ := h' [] stop after hmore.symm hstop
      simp at hnone
    | cons d more =>
      obtain ⟨rfl, -⟩ := List.cons.inj hmore
      exact h before stop more rfl hstop

/-- The end of the at-rule that has begun last. -/
theorem EndsRules.concat {ns : List Node} {keyword block : Tree} {prelude : List Tree}
    (h : EndsRules source (head :: Node.eventsIn ns))
    (hfits : ∃ ctx, ∀ n ∈ ns, Node.Fits ctx n) (hhead : head.kind = .blockStart)
    (hrule : CoversRule source head stop keyword prelude block) :
    EndsRules source (head :: Node.eventsIn ns ++ [stop]) := by
  intro before stop' after heq hstop
  rcases List.eq_nil_or_concat after with rfl | ⟨after, x, rfl⟩
  · obtain ⟨rfl, hlast⟩ := List.append_inj' heq rfl
    obtain rfl := List.singleton_inj.1 hlast
    exact ⟨[], head, ns, rfl, hfits, hhead, keyword, prelude, block, hrule⟩
  · rw [List.concat_eq_append, ← List.cons_append, ← List.append_assoc] at heq
    obtain ⟨hsplit, -⟩ := List.append_inj' heq rfl
    exact h before stop' after hsplit hstop

/-! ## Reading -/

/-- A place between two others where a character may begin. -/
structure Between (source : String) (lo n hi : Nat) : Prop where
  le : lo ≤ n
  le_hi : n ≤ hi
  cut : Cut source n

/-- What is read between two bytes of the source covers it, and a fault comes after the events. -/
structure Spanned (source : String) (lo : Nat) (p : Outcome) (hi : Nat) : Prop where
  le : lo ≤ hi
  covers : ∀ e ∈ p.events, Covers source e ∧ e.span.stop ≤ hi
  rules : EndsRules source p.events
  fault : ∀ f ∈ p.error, Between source lo f.offset hi ∧ ∀ e ∈ p.events, e.span.stop ≤ f.offset

namespace Spanned

theorem empty (h : lo ≤ hi) : Spanned source lo .empty hi :=
  ⟨h, by simp [Outcome.empty], by simp [EndsRules, Outcome.empty], by simp [Outcome.empty]⟩

theorem fail {fault : SyntaxFault} (h : Between source lo n hi) :
    Spanned source lo (.fail fault n) hi where
  le := Nat.le_trans h.le h.le_hi
  covers := by simp [Outcome.fail]
  rules := by simp [EndsRules, Outcome.fail]
  fault f hf := by
    obtain rfl : _ = f := Option.some.inj hf
    exact ⟨h, by simp [Outcome.fail]⟩

theorem one (hle : lo ≤ hi) (hcovers : Covers source e) (hstop : e.span.stop ≤ hi)
    (hkind : e.kind ≠ .blockEnd) : Spanned source lo (.one e) hi where
  le := hle
  covers d hd := by
    obtain rfl := List.mem_singleton.1 hd
    exact ⟨hcovers, hstop⟩
  rules := endsRules_singleton hkind
  fault := by simp [Outcome.one]

theorem since (h : Spanned source mid p hi) (hle : lo ≤ mid) : Spanned source lo p hi where
  le := Nat.le_trans hle h.le
  covers := h.covers
  rules := h.rules
  fault f hf :=
    have hfault := h.fault f hf
    ⟨⟨Nat.le_trans hle hfault.1.le, hfault.1.le_hi, hfault.1.cut⟩, hfault.2⟩

theorem mono (h : Spanned source lo p mid) (hle : mid ≤ hi) : Spanned source lo p hi where
  le := Nat.le_trans h.le hle
  covers e he := ⟨(h.covers e he).1, Nat.le_trans (h.covers e he).2 hle⟩
  rules := h.rules
  fault f hf :=
    have hfault := h.fault f hf
    ⟨⟨hfault.1.le, Nat.le_trans hfault.1.le_hi hle, hfault.1.cut⟩, hfault.2⟩

theorem append (h : Spanned source lo p mid) (h' : Spanned source mid q hi) :
    Spanned source lo (p ++ q) hi := by
  rw [Outcome.append_def]
  split
  · exact h.mono h'.le
  · refine ⟨Nat.le_trans h.le h'.le, fun e he => ?_, h.rules.append h'.rules, fun f hf => ?_⟩
    · rcases List.mem_append.1 he with he | he
      · exact (h.mono h'.le).covers e he
      · exact h'.covers e he
    · obtain ⟨hbetween, hbefore⟩ := h'.fault f hf
      refine ⟨⟨Nat.le_trans h.le hbetween.le, hbetween.le_hi, hbetween.cut⟩, fun e he => ?_⟩
      rcases List.mem_append.1 he with he | he
      · exact Nat.le_trans (h.covers e he).2 hbetween.le
      · exact hbefore e he

/-- The end of an at-rule after all that is read inside it. -/
theorem closed {keyword block : Tree} {prelude : List Tree}
    (h : Spanned source lo (.one head ++ p) mid) (hmid : mid ≤ hi)
    (hnested : p.error = none →
      ∃ ctx ns, (∀ n ∈ ns, Node.Fits ctx n) ∧ p.events = Node.eventsIn ns)
    (hhead : head.kind = .blockStart) (hcovers : Covers source stop) (hstop : stop.span.stop = hi)
    (hrule : CoversRule source head stop keyword prelude block) :
    Spanned source lo (.one head ++ p ++ .one stop) hi := by
  have hmono := h.mono hmid
  rw [Outcome.append_def]
  split
  · exact hmono
  · next herror =>
    have hp : p.error = none := by simpa using herror
    obtain ⟨ctx, ns, hfits, hevents⟩ := hnested hp
    refine ⟨hmono.le, fun e he => ?_, ?_, by simp [Outcome.one]⟩
    · rcases List.mem_append.1 he with he | he
      · exact hmono.covers e he
      · obtain rfl := List.mem_singleton.1 he
        exact ⟨hcovers, Nat.le_of_eq hstop⟩
    · have hrules := h.rules
      rw [Outcome.one_append_events, hevents] at hrules ⊢
      exact EndsRules.concat hrules ⟨ctx, hfits⟩ hhead hrule

end Spanned

theorem firstFault_between {f : SyntaxError} (h : At source pos (rawOf ts))
    (hfault : firstFault pos ts = some f) : Between source pos f.offset (pos + widthOf ts) := by
  induction ts generalizing pos with
  | nil => simp [firstFault] at hfault
  | cons t ts ih =>
    have hstart := h.start
    rw [Tree.rawOf_cons] at h
    rw [firstFault] at hfault
    split at hfault
    · obtain rfl := Option.some.inj hfault
      exact ⟨Nat.le_refl _, Nat.le_add_right _ _, hstart⟩
    · obtain rfl := Option.some.inj hfault
      exact ⟨Nat.le_refl _, Nat.le_add_right _ _, hstart⟩
    · have hrest : At source (pos + t.width) (rawOf ts) := h.right
      obtain ⟨hle, hle', hcut⟩ := ih hrest hfault
      rw [widthOf_cons]
      exact ⟨by omega, by omega, hcut⟩

theorem spanned_guarded (hlo : lo ≤ pos) (h : Spanned source lo p hi)
    (hshown : At source pos (rawOf ts)) (hhi : pos + widthOf ts ≤ hi) :
    Spanned source lo (guarded pos ts p) hi := by
  unfold guarded
  split
  · next f hfault =>
    have hbetween := firstFault_between hshown hfault
    exact Spanned.fail
      ⟨Nat.le_trans hlo hbetween.le, Nat.le_trans hbetween.le_hi hhi, hbetween.cut⟩
  · exact h

theorem stop_selectorEvent_le (kind : EventKind) (pos : Nat) (ts : List Tree) :
    (selectorEvent kind pos ts).span.stop ≤ pos + widthOf ts := by
  obtain ⟨after, hraw⟩ := Text.exists_append_strip Text.isBlank (rawOf ts)
  have hwidth := congrArg Text.width hraw
  rw [Text.width_append, Text.width_append] at hwidth
  simp only [selectorEvent, widthOf]
  omega

/-- The trees of an at-rule with a block, and the events that it begins and ends with. -/
theorem coversRule_of_within {name : String} {keyword block : Tree} {prelude : List Tree}
    (hwithin : Within source pos (keyword :: (prelude ++ block :: rest)))
    (htoken : keyword.token = .atKeyword name) (hunended : ∀ t ∈ prelude, endsPrelude t = false)
    (hcurly : isCurly block = true) (hdata : head.data = keyword.text)
    (hstart : head.span.start = pos)
    (hstop : stop.span.stop = pos + widthOf (keyword :: (prelude ++ [block]))) :
    CoversRule source head stop keyword prelude block := by
  have htrees : Within source pos ((keyword :: (prelude ++ [block])) ++ rest) := by
    simpa using hwithin
  have hblock : Within source (pos + widthOf (keyword :: prelude)) (block :: rest) := hwithin.drop
  refine ⟨⟨rest, by rwa [hstart]⟩, ⟨name, htoken⟩, hdata, hunended, hcurly, ?_,
    hwithin.sign_of_atKeyword htoken, ?_⟩
  · rw [hstart, hstop]
    exact htrees.shown_left.slice_eq
  · split
    · next hopen =>
      rw [hstop, ← left_open_of_within hblock hcurly hopen]
      simp [widthOf_cons]
      omega
    · next hopen =>
      obtain ⟨opening, body, close, rfl, -, hclose, -⟩ := hblock.exists_curly hcurly
      cases close with
      | none => exact absurd rfl hopen
      | some l =>
        rw [raw_block, hclose l rfl]
        simp

/-- The place between some trees and those that follow. -/
theorem between_of_within (h : Within source pos (us ++ ts)) :
    Between source pos (pos + widthOf us) (pos + widthOf (us ++ ts)) where
  le := Nat.le_add_right _ _
  le_hi := by
    rw [Tree.widthOf_append, ← Nat.add_assoc]
    exact Nat.le_add_right _ _
  cut := h.shown_left.stop

/-- The components of a phrase, with what follows them. -/
theorem spanned_guarded_left (hlo : lo ≤ pos) (h : Spanned source lo p (pos + widthOf (us ++ ts)))
    (hwithin : Within source pos (us ++ ts)) :
    Spanned source lo (guarded pos us p) (pos + widthOf (us ++ ts)) :=
  spanned_guarded hlo h hwithin.shown_left (between_of_within hwithin).le_hi

/-! ## One thing after another -/

/-- A selector before the mark that ends it. -/
theorem spanned_selector (hkind : kind = .selector ∨ kind = .rulesetStart)
    (h : At source pos (rawOf ts)) (hhi : pos + widthOf ts ≤ hi) :
    Spanned source pos (.one (selectorEvent kind pos ts)) hi := by
  refine .one (Nat.le_trans (Nat.le_add_right _ _) hhi) (covers_selector hkind h)
    (Nat.le_trans (stop_selectorEvent_le kind pos ts) hhi) ?_
  rcases hkind with rfl | rfl <;> simp [selectorEvent]

/-- A rule with what is read in its block. -/
theorem spanned_ruleset (hselector : At source pos (rawOf ts)) (hmid : mid = pos + widthOf ts)
    (hblock : Within source mid (t :: rest))
    (hinside : Spanned source (mid + t.headWidth) p (mid + t.headWidth + widthOf t.inside)) :
    Spanned source pos (.one (selectorEvent .rulesetStart pos ts) ++ p
      ++ .one (endEvent .rulesetEnd t (mid + t.width))) (mid + t.width) := by
  have hwidth := width_inside_le t
  have hhead : Spanned source pos (.one (selectorEvent .rulesetStart pos ts))
      (mid + t.headWidth) :=
    spanned_selector (.inr rfl) hselector (by omega)
  have hend : Spanned source (mid + t.headWidth + widthOf t.inside)
      (.one (endEvent .rulesetEnd t (mid + t.width))) (mid + t.width) :=
    .one (by omega) (covers_end rfl hblock.shown_first) (Nat.le_refl _) (by simp [endEvent])
  exact (hhead.append hinside).append hend

/-- An at-rule without a block of its own. -/
theorem spanned_statement {values : List String} (h : At source pos (rawOf (t :: ts)))
    (hhi : hi = pos + widthOf (t :: ts)) :
    Spanned source pos (.one ⟨.statement, t.text, values, ⟨pos, hi⟩⟩) hi := by
  subst hhi
  exact .one (Nat.le_add_right _ _) (covers_headed (by simp) rfl h rfl) (Nat.le_refl _) (by simp)

/-- An at-rule with what is read in its block. -/
theorem spanned_atRule {name : String} {values : List String} {keyword : Tree}
    {prelude : List Tree} (hwithin : Within source pos (keyword :: (prelude ++ t :: rest)))
    (htoken : keyword.token = .atKeyword name) (hunended : ∀ u ∈ prelude, endsPrelude u = false)
    (hcurly : isCurly t = true) (hmid : mid = pos + widthOf (keyword :: prelude))
    (hinside : Spanned source (mid + t.headWidth) p (mid + t.headWidth + widthOf t.inside))
    (hnested : p.error = none →
      ∃ ctx ns, (∀ n ∈ ns, Node.Fits ctx n) ∧ p.events = Node.eventsIn ns) :
    Spanned source pos (.one ⟨.blockStart, keyword.text, values, ⟨pos, mid⟩⟩ ++ p
      ++ .one (endEvent .blockEnd t (mid + t.width))) (mid + t.width) := by
  have hwidth := width_inside_le t
  have htrees : Within source pos ((keyword :: prelude) ++ t :: rest) := hwithin
  have hblock : Within source mid (t :: rest) := hmid ▸ htrees.drop
  have hhead : Spanned source pos (.one ⟨.blockStart, keyword.text, values, ⟨pos, mid⟩⟩)
      (mid + t.headWidth) := by
    refine .one ?_ (covers_headed (by simp) rfl htrees.shown_left (by rw [hmid])) ?_ (by simp)
    · rw [hmid, Nat.add_assoc]
      exact Nat.le_add_right _ _
    · exact Nat.le_add_right _ _
  have hstop : mid + t.width = pos + widthOf (keyword :: (prelude ++ [t])) := by
    rw [hmid, ← List.cons_append, Tree.widthOf_append, widthOf_cons t]
    simp [Nat.add_assoc]
  exact (hhead.append hinside).closed (by omega) hnested rfl
    (covers_end rfl hblock.shown_first) rfl
    (coversRule_of_within hwithin htoken hunended hcurly rfl rfl hstop)

theorem spanned_declaration {name : Tree} {value : List Tree}
    (h : At source pos (rawOf (name :: ts))) (hhi : hi = pos + widthOf (name :: ts)) :
    Spanned source pos (.one (declarationEvent name value ⟨pos, hi⟩)) hi := by
  subst hhi
  have hcovers : Covers source (declarationEvent name value ⟨pos, pos + widthOf (name :: ts)⟩) ∧
      (declarationEvent name value ⟨pos, pos + widthOf (name :: ts)⟩).kind ≠ .blockEnd := by
    unfold declarationEvent
    split <;> exact ⟨covers_headed (by simp) rfl h rfl, by simp⟩
  refine .one (Nat.le_add_right _ _) hcovers.1 (Nat.le_of_eq ?_) hcovers.2
  unfold declarationEvent
  split <;> rfl

/-- What is read from trees of the source covers it. -/
theorem Reading.spanned {ctx : Context} (h : Reading ctx pos ts p)
    (hwithin : Within source pos ts) : Spanned source pos p (pos + widthOf ts) := by
  induction h with
  | nil => exact .empty (Nat.le_add_right _ _)
  | filler _ _ _ ih =>
    rw [widthOf_cons, ← Nat.add_assoc]
    exact (ih hwithin.later).since (Nat.le_add_right _ _)
  | @comment _ pos t _ _ _ _ _ _ ih =>
    have hcomment : Spanned source pos (.one (commentEvent pos t)) (pos + t.width) :=
      .one (Nat.le_add_right _ _) (covers_comment hwithin) (Nat.le_refl _) (by simp [commentEvent])
    rw [widthOf_cons, ← Nat.add_assoc]
    exact hcomment.append (ih hwithin.later)
  | rule _ _ ih => exact ih hwithin
  | @selector pos selector t ts p _ _ _ _ ih =>
    have hmark : Within source (pos + widthOf selector) (t :: ts) := hwithin.drop
    refine spanned_guarded_left (Nat.le_refl pos) ?_ hwithin
    rw [Tree.widthOf_append, widthOf_cons, ← Nat.add_assoc, ← Nat.add_assoc]
    exact (spanned_selector (.inl rfl) hwithin.shown_left (Nat.le_add_right _ _)).append
      (ih hmark.later)
  | @ruleset pos selector t ts p q _ curly _ _ _ ihInside ih =>
    have hblock : Within source (pos + widthOf selector) (t :: ts) := hwithin.drop
    refine spanned_guarded_left (Nat.le_refl pos) ?_ hwithin
    rw [Tree.widthOf_append, widthOf_cons, ← Nat.add_assoc, ← Nat.add_assoc]
    exact (spanned_ruleset hwithin.shown_left rfl hblock (ihInside hblock.inside)).append
      (ih hblock.later)
  | @lastStatement _ pos keyword prelude =>
    rw [widthOf_cons, ← Nat.add_assoc]
    exact spanned_guarded (Nat.le_add_right _ _)
      (spanned_statement hwithin.shown (by rw [widthOf_cons, Nat.add_assoc])) hwithin.later.shown
      (Nat.le_refl _)
  | @statement _ pos keyword stop prelude ts p _ _ _ _ _ _ ih =>
    have hwhole : Within source pos ((keyword :: (prelude ++ [stop])) ++ ts) := by
      simpa using hwithin
    have hstop : pos + keyword.width + widthOf prelude + stop.width
        = pos + widthOf (keyword :: (prelude ++ [stop])) := by
      simp [widthOf_cons, Nat.add_assoc]
    rw [widthOf_cons, ← Nat.add_assoc]
    refine spanned_guarded_left (Nat.le_add_right _ _) ?_ hwithin.later
    rw [Tree.widthOf_append, widthOf_cons, ← Nat.add_assoc, ← Nat.add_assoc]
    exact (spanned_statement hwhole.shown_left hstop).append (ih hwithin.later.drop.later)
  | @block _ pos keyword t prelude ts p q _ _ token unended curly inside _ ihInside ih =>
    have hblock : Within source (pos + keyword.width + widthOf prelude) (t :: ts) :=
      hwithin.later.drop
    have hmid : pos + keyword.width + widthOf prelude = pos + widthOf (keyword :: prelude) := by
      rw [widthOf_cons, Nat.add_assoc]
    rw [widthOf_cons, ← Nat.add_assoc]
    refine spanned_guarded_left (Nat.le_add_right _ _) ?_ hwithin.later
    rw [Tree.widthOf_append, widthOf_cons, ← Nat.add_assoc, ← Nat.add_assoc]
    exact (spanned_atRule hwithin token unended curly hmid (ihInside hblock.inside)
      (inside.exists_nodes (Context.ofAtRule_ne_selectors _))).append (ih hblock.later)
  | @declaration pos name colon gap value ts p _ _ _ _ _ _ _ ih =>
    have hwhole : Within source pos ((name :: (gap ++ colon :: value)) ++ ts) := by
      simpa using hwithin
    have hstop : pos + name.width + widthOf gap + colon.width + widthOf value
        = pos + widthOf (name :: (gap ++ colon :: value)) := by
      simp [widthOf_cons, Nat.add_assoc]
    have hvalue : Within source (pos + name.width + widthOf gap + colon.width) (value ++ ts) :=
      hwithin.later.drop.later
    rw [widthOf_cons, Tree.widthOf_append, widthOf_cons, ← Nat.add_assoc, ← Nat.add_assoc,
      ← Nat.add_assoc]
    refine spanned_guarded_left (by omega) ?_ hvalue
    rw [Tree.widthOf_append, ← Nat.add_assoc]
    exact (spanned_declaration hwhole.shown_left hstop).append (ih hvalue.drop)
  | endInSelector =>
    exact spanned_guarded (Nat.le_refl _)
      (.fail ⟨Nat.le_add_right _ _, Nat.le_refl _, hwithin.shown.stop⟩) hwithin.shown
      (Nat.le_refl _)
  | emptySelector | inSelector =>
    exact spanned_guarded_left (Nat.le_refl _) (.fail (between_of_within hwithin)) hwithin
  | @missingColon pos name gap ts =>
    have hwhole : Within source pos ((name :: gap) ++ ts) := hwithin
    have hbetween := between_of_within hwhole
    rw [widthOf_cons, ← Nat.add_assoc] at hbetween
    exact .fail hbetween
  | inRules | inDeclarations =>
    exact .fail ⟨Nat.le_refl _, Nat.le_add_right _ _, hwithin.shown.start⟩

/-! ## The events of a source -/

theorem spanned_events (source : String) :
    Spanned source 0 (events source) source.utf8ByteSize := by
  have hspanned : Spanned source 0 (events source) (0 + widthOf (Tree.ofText source.toList)) :=
    (reading_eventsOf _ _ _).spanned .text
  rwa [Nat.zero_add, widthOf, Tree.rawOf_ofText, ← Text.utf8ByteSize_eq_width] at hspanned

theorem covers_of_mem_events (he : e ∈ (events source).events) : Covers source e :=
  ((spanned_events source).covers e he).1

/-- An end begins no later than the last byte of a source that ends with a curly bracket. -/
theorem start_lt_of_getLast? {before after : List Event}
    (h : (events source).events = before ++ e :: after)
    (hlast : source.toList.getLast? = some '\x7d') : e.span.start < source.utf8ByteSize := by
  have hordered := ordered_events source
  have hbounds := hordered.bounds e (by simp [h])
  cases hordered.placed before e after h with
  | own kind => exact hordered.before_hi e (by simp [h]) kind
  | @ended pos t block span apart =>
    cases hread : misread source t with
    | true =>
      obtain ⟨cs, hcs⟩ := List.getLast?_eq_some_iff.1 hlast
      have hsize : source.utf8ByteSize = Text.width cs + 1 := by
        rw [Text.utf8ByteSize_eq_width, hcs, Text.width_append]
        rfl
      rw [span, hread, if_pos rfl, hsize]
      exact Nat.lt_succ_self _
    | false =>
      -- A block that is left open would be misread.
      obtain ⟨opening, body, close, rfl, -, -⟩ := block.curly
      cases close with
      | none => simp [misread, Tree.isLeftOpen, hlast] at hread
      | some l =>
        rw [span, hread, if_neg Bool.false_ne_true] at hbounds ⊢
        exact Nat.lt_of_lt_of_le (Nat.lt_succ_self _) hbounds.2.2

/-- No event starts before one that is read earlier. -/
theorem start_le_start {before after : List Event} {d : Event}
    (h : (events source).events = before ++ e :: after) (hd : d ∈ before) :
    d.span.start ≤ e.span.start := by
  have hordered := ordered_events source
  have hspan := (hordered.bounds d (by simp [h, hd])).2.1
  cases hordered.placed before e after h with
  | own kind wide apart => exact Nat.le_trans hspan (apart d hd)
  | @ended pos t block span apart =>
    cases hread : misread source t with
    | false => exact Nat.le_trans hspan (apart hread d hd)
    | true =>
      obtain ⟨front, back, rfl⟩ := List.append_of_mem hd
      have hlast : source.toList.getLast? = some '\x7d' := by
        rw [misread, Bool.and_eq_true, beq_iff_eq] at hread
        exact hread.2
      rw [List.append_assoc, List.cons_append] at h
      rw [span, hread, if_pos rfl]
      exact Nat.le_sub_one_of_lt (start_lt_of_getLast? h hlast)

/-- Nested events do not end inside an at-rule that begins among them. -/
theorem eventsIn_ne_begun {ctx ctx' : Context} {ns ns' : List Node} {before : List Event}
    (hfits : ∀ n ∈ ns, Node.Fits ctx n) (hfits' : ∀ n ∈ ns', Node.Fits ctx' n)
    (hhead : head.kind = .blockStart) : Node.eventsIn ns ≠ before ++ head :: Node.eventsIn ns' := by
  intro heq
  have hread := Node.read_eventsIn hfits [] []
  rw [heq, List.foldlM_append] at hread
  cases hbefore : before.foldlM Node.Nesting.read ⟨[], [], []⟩ with
  | none => simp [hbefore] at hread
  | some s =>
    rw [hbefore, Option.bind_eq_bind, Option.bind_some, List.foldlM_cons] at hread
    cases hearlier : s.earlier.isEmpty with
    | false => simp [Node.Nesting.read, hhead, hearlier] at hread
    | true =>
      -- The frame of the at-rule is still open when all is read.
      have hinside := Node.read_eventsIn hfits' (⟨.block head, s.done⟩ :: s.frames) []
      simp [Node.Nesting.read, hhead, hearlier, Node.Nesting.enter, hinside] at hread

/-- The beginning of an at-rule is told by what comes before its end. -/
theorem begun_unique {ctx ctx' : Context} {ns ns' : List Node} {before before' : List Event}
    {head' : Event} (h : before ++ head :: Node.eventsIn ns = before' ++ head' :: Node.eventsIn ns')
    (hfits : ∀ n ∈ ns, Node.Fits ctx n) (hfits' : ∀ n ∈ ns', Node.Fits ctx' n)
    (hhead : head.kind = .blockStart) (hhead' : head'.kind = .blockStart) : head = head' := by
  rcases List.append_eq_append_iff.1 h with ⟨more, -, hmore⟩ | ⟨more, -, hmore⟩
  · cases more with
    | nil => exact (List.cons.inj hmore).1
    | cons d more => exact absurd (List.cons.inj hmore).2 (eventsIn_ne_begun hfits hfits' hhead')
  · cases more with
    | nil => exact (List.cons.inj hmore).1.symm
    | cons d more => exact absurd (List.cons.inj hmore).2 (eventsIn_ne_begun hfits' hfits hhead)

/-- Where the events and the fault of a source stand in it. -/
structure Charted (source : String) : Prop where
  covers : ∀ e ∈ (events source).events, Covers source e
  starts : (events source).events.Pairwise (·.span.start ≤ ·.span.start)
  /-- An at-rule ends with the first end of its kind after nested events. -/
  atRules : ∀ before head ns stop after,
    (events source).events = before ++ head :: (Node.eventsIn ns ++ stop :: after) →
    (∃ ctx, ∀ n ∈ ns, Node.Fits ctx n) → head.kind = .blockStart → stop.kind = .blockEnd →
    ∃ keyword prelude block, CoversRule source head stop keyword prelude block
  fault : ∀ f ∈ (events source).error, Cut source f.offset ∧ f.offset ≤ source.utf8ByteSize ∧
    ∀ e ∈ (events source).events, e.span.stop ≤ f.offset

/-- Spans and data locate every event in the source, whether or not a fault follows. -/
theorem charted (source : String) : Charted source := by
  have hspanned := spanned_events source
  refine ⟨fun e he => covers_of_mem_events he, ?_, ?_, fun f hf => ?_⟩
  · rw [List.pairwise_iff_forall_sublist]
    intro d e hsub
    obtain ⟨front, back, hsplit, hd, he⟩ := List.cons_sublist_iff.1 hsub
    obtain ⟨between, after, rfl⟩ := List.append_of_mem (List.singleton_sublist.1 he)
    rw [← List.append_assoc] at hsplit
    exact start_le_start hsplit (List.mem_append_left between hd)
  · intro before head ns stop after hsplit ⟨ctx, hfits⟩ hhead hstop
    rw [← List.cons_append, ← List.append_assoc] at hsplit
    obtain ⟨earlier, head', ns', hbegun, ⟨ctx', hfits'⟩, hhead', hrule⟩ :=
      hspanned.rules _ stop after hsplit hstop
    obtain rfl := begun_unique hbegun hfits hfits' hhead hhead'
    exact hrule
  · obtain ⟨hbetween, hstops⟩ := hspanned.fault f hf
    exact ⟨hbetween.cut, hbetween.le_hi, hstops⟩

end

end StyleSieve.Css
