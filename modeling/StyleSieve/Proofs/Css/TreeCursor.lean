import StyleSieve.Css.Sheet
import StyleSieve.Proofs.Css.Cursor
import StyleSieve.Proofs.Css.Forest

/-!
# A cursor over trees

The trees of a text are passed one by one by a cursor that enters no block (`Before.exists_next`),
and the trees inside a block by one that enters it (`Before.exists_block`). Both come behind the
block to the same place.
-/

namespace StyleSieve.Css

open StyleSieve.Css.Tree (Bracketed lexemesOf rawOf widthOf countOf)

/-- What a tree is can be told by the token that it begins with. -/
theorem Tree.Bracketed.marks_eq {within : Option Bracket} {ended : Bool} {t : Tree} {ts : List Tree}
    (h : Bracketed within ended ts) (ht : t ∈ ts) :
    t.isComma = (t.token == .comma) ∧ t.isSemicolon = (t.token == .semicolon) ∧
      t.isColon = (t.token == .colon) ∧ t.isCurly = (t.token == .opening .curly) := by
  have hleaf : ∀ {l : Lexeme}, l.token.opens = none → (l.token == .opening .curly) = false := by
    intro l hopens
    rw [beq_eq_false_iff_ne]
    intro hcurly
    simp [hcurly, Token.opens] at hopens
  have hblock : ∀ {head : Lexeme} {b : Bracket} {token : Token}, head.token.opens = some b →
      token.opens = none → (head.token == token) = false := by
    intro head b token hopens htoken
    rw [beq_eq_false_iff_ne]
    rintro rfl
    simp [htoken] at hopens
  induction h with
  | nil => cases ht
  | leaf opens _ _ ih =>
    rcases List.mem_cons.1 ht with rfl | ht
    · exact ⟨rfl, rfl, rfl, (hleaf opens).symm⟩
    · exact ih ht
  | block opens _ _ _ _ ih =>
    rcases List.mem_cons.1 ht with rfl | ht
    · exact ⟨(hblock opens rfl).symm, (hblock opens rfl).symm, (hblock opens rfl).symm, rfl⟩
    · exact ih ht
  | unclosed opens _ =>
    obtain rfl := List.mem_singleton.1 ht
    exact ⟨(hblock opens rfl).symm, (hblock opens rfl).symm, (hblock opens rfl).symm, rfl⟩

namespace Cursor

variable {c d e : Cursor} {t : Tree} {ts us : List Tree} {l : Lexeme} {y : List Char}

/-- The given trees are what is left of the block being read, which ends at `e`. -/
structure Before (c : Cursor) (ts : List Tree) (e : Cursor) : Prop where
  opened : c.opened = none
  passed : c.Over (rawOf ts) e
  reads : Reads (lexemesOf ts) e.rest
  bracketed : Bracketed c.within e.rest.isEmpty ts
  within : e.within = c.within
  atEnd : e.AtEnd

theorem Before.eq_of_nil (h : c.Before [] e) : c = e := by
  obtain ⟨hrest, hposition⟩ := h.passed
  exact Cursor.ext hrest hposition.symm (h.opened.trans h.atEnd.opened.symm) h.within.symm

/-- The place behind a lexeme. -/
def behindLexeme (c : Cursor) (l : Lexeme) (y : List Char) : Cursor :=
  ⟨y, c.position + Text.width l.raw, l.token.opens, c.within⟩

theorem read_of_reads (hrest : c.rest = l.raw ++ y) (h : Reads [l] y) :
    c.read = (some l.token, c.behindLexeme l y) := by
  obtain ⟨ch, u, n, hraw, hread, htake⟩ := h.exists_readToken
  have hdrop : (u ++ y).drop n = y := by
    have hsplit := List.take_append_drop n (u ++ y)
    rw [htake] at hsplit
    exact List.append_cancel_left hsplit
  rw [hraw, List.cons_append] at hrest
  rw [read, hrest]
  simp only [hread, advance, hrest, List.take_succ_cons, List.drop_succ_cons, htake, hdrop]
  rw [behindLexeme, hraw]

/-- A lexeme that does not close the block is the next token. -/
theorem next_of_reads (hopened : c.opened = none) (hrest : c.rest = l.raw ++ y)
    (h : Reads [l] y) (hcloses : ∀ b ∈ c.within, l.token.closes ≠ some b) :
    c.next = (some l.token, c.behindLexeme l y) := by
  have hhalted : c.halted = false := by
    rw [Bool.eq_false_iff]
    intro hhalted
    obtain ⟨b, hwithin, hhead⟩ := exists_bracket_of_halted hhalted
    obtain ⟨ch, u, n, hraw, hread, -⟩ := h.exists_readToken
    rw [hrest, hraw, List.cons_append, List.head?_cons] at hhead
    have hclosing : (readToken ch (u ++ y)).1.closes = some b :=
      closes_readToken_iff.2 (Option.some.inj hhead)
    rw [hread] at hclosing
    exact hcloses b hwithin hclosing
  rw [next, settle_of_none hopened, hhalted, if_neg Bool.false_ne_true, read_of_reads hrest h]

/-- A leaf is a token without a block. -/
theorem Before.exists_leaf (h : c.Before (.leaf l :: ts) e) :
    ∃ d, c.next = (some l.token, d) ∧ d.opened = none ∧ c.Over l.raw d ∧ d.Before ts e := by
  obtain ⟨hreads, hreads'⟩ := reads_cons_iff.1 h.reads
  have hbracketed := h.bracketed
  generalize hended : e.rest.isEmpty = ended at hbracketed
  cases hbracketed with
  | leaf opens closes rest =>
    have hrest : c.rest = l.raw ++ (rawOf ts ++ e.rest) := by
      simpa [Tree.raw, Tree.lexemes] using h.passed.1
    have hnext := next_of_reads h.opened hrest hreads closes
    refine ⟨c.behindLexeme l _, hnext, opens, ⟨hrest, rfl⟩, opens, ⟨rfl, ?_⟩, hreads',
      hended ▸ rest, h.within, h.atEnd⟩
    simpa [behindLexeme, Tree.raw, Tree.lexemes, Nat.add_assoc] using h.passed.2

/-- At the end of the text nothing is left to leave. -/
theorem leave_of_nil (h : c.rest = []) (hopened : c.opened = none) (bs : List Bracket) :
    c.leave bs = c := by
  rcases c with ⟨rest, position, opened, within⟩
  obtain rfl : rest = [] := h
  obtain rfl : opened = none := hopened
  simp [leave, advance]

/-- The place behind the first of some trees. -/
def behindTree (c : Cursor) (t : Tree) (y : List Char) : Cursor :=
  ⟨y, c.position + t.width, none, c.within⟩

theorem Before.behindTree (h : c.Before (t :: ts) e) {ended : Bool}
    (hreads : Reads (lexemesOf ts) e.rest) (hbracketed : Bracketed c.within ended ts)
    (hended : e.rest.isEmpty = ended) :
    c.Over t.raw (c.behindTree t (rawOf ts ++ e.rest)) ∧
      (c.behindTree t (rawOf ts ++ e.rest)).Before ts e := by
  obtain ⟨hrest, hposition⟩ := h.passed
  rw [Tree.rawOf_cons] at hrest hposition
  refine ⟨⟨by rw [hrest, List.append_assoc]; rfl, rfl⟩, rfl, ⟨rfl, ?_⟩, hreads,
    hended ▸ hbracketed, h.within, h.atEnd⟩
  rw [hposition, Text.width_append, ← Nat.add_assoc]
  rfl

/-- The end of the inside of a block, where the text `z` is left. -/
def endOfInside (c : Cursor) (head : Lexeme) (body : List Tree) (b : Bracket) (z : List Char) :
    Cursor :=
  ⟨z, c.position + Text.width head.raw + widthOf body, none, some b⟩

/-- The inside of a block goes on to its end. -/
theorem before_inside {head : Lexeme} {body : List Tree} {b : Bracket} {z : List Char}
    (hbody : Reads (lexemesOf body) z) (hbracketed : Bracketed (some b) z.isEmpty body)
    (hend : z = [] ∨ z.head? = some b.closer) :
    ((c.behindLexeme head (rawOf body ++ z)).enter b).Before body
      (c.endOfInside head body b z) := by
  refine ⟨rfl, ⟨rfl, rfl⟩, hbody, hbracketed, rfl, ⟨rfl, hend.imp_right fun hhead => ?_⟩⟩
  simp [halted, endOfInside, hhead]

/-- A block that the text does not close is left at the end of the text. -/
theorem exit_of_nil (c : Cursor) (head : Lexeme) (body : List Tree) (b : Bracket) :
    (c.behindLexeme head (rawOf body ++ [])).exit (c.endOfInside head body b []) b =
      c.behindTree (.block head body none) [] := by
  have hsettle : (c.endOfInside head body b []).settle = c.endOfInside head body b [] :=
    settle_of_none rfl
  rw [exit, hsettle, leave_of_nil rfl rfl]
  simp [endOfInside, behindLexeme, behindTree, Tree.width, Tree.raw, Tree.lexemes, widthOf, rawOf,
    Nat.add_assoc]

/-- A block is left behind its closing bracket. -/
theorem exit_of_closes (c : Cursor) (head : Lexeme) (body : List Tree) {b : Bracket}
    {close : Lexeme} (hclose : Reads [close] y) (closes : close.token.closes = some b) :
    (c.behindLexeme head (rawOf body ++ (close.raw ++ y))).exit
        (c.endOfInside head body b (close.raw ++ y)) b =
      c.behindTree (.block head body (some close)) y := by
  have hsettle : (c.endOfInside head body b (close.raw ++ y)).settle =
      c.endOfInside head body b (close.raw ++ y) := settle_of_none rfl
  have hread : (c.endOfInside head body b (close.raw ++ y)).read = _ := read_of_reads rfl hclose
  rw [exit, hsettle, leave_of_read hread, if_pos closes, leave_nil]
  simp [endOfInside, behindLexeme, behindTree, Tree.width, Tree.raw, Tree.lexemes, widthOf, rawOf,
    Nat.add_assoc]

/-- A block is read by its own, from the place behind its bracket to the bracket that closes it. -/
theorem Before.exists_block {head : Lexeme} {body : List Tree} {close : Option Lexeme}
    (h : c.Before (.block head body close :: ts) e) :
    ∃ d b e', c.next = (some head.token, d) ∧ d.opened = some b ∧
      d.position = c.position + Text.width head.raw ∧ (d.enter b).Before body e' ∧
      c.Over (Tree.block head body close).raw (d.exit e' b) ∧ (d.exit e' b).Before ts e := by
  have hreads := h.reads
  have hrest := h.passed.1
  have hbracketed := h.bracketed
  generalize hended : e.rest.isEmpty = ended at hbracketed
  rw [Tree.lexemesOf_cons, Tree.lexemes, List.cons_append, reads_cons_iff, reads_append_iff,
    reads_append_iff] at hreads
  obtain ⟨hhead, ⟨hbody, hclose⟩, hafter⟩ := hreads
  have hcloses : ∀ {b}, head.token.opens = some b → ∀ b ∈ c.within, head.token.closes ≠ some b := by
    intro b hopens
    simp [Tree.closes_of_opens hopens]
  cases hbracketed with
  | @block _ _ _ close b _ _ opens closes inside rest =>
    have hraw : close.raw = [b.closer] := by
      refine Reads.raw_of_mark hclose ?_
      rw [Token.eq_closing closes]
      cases b <;> rfl
    have hrest : c.rest = head.raw ++ (rawOf body ++ (close.raw ++ (rawOf ts ++ e.rest))) := by
      simpa [Tree.raw, rawOf, Tree.lexemes] using hrest
    have hnext := next_of_reads h.opened hrest (by simpa [rawOf] using hhead) (hcloses opens)
    have hinside := @before_inside c head body b (close.raw ++ (rawOf ts ++ e.rest))
      (by simpa [rawOf] using hbody) inside.ends (.inr (by simp [hraw]))
    have hclose : Reads [close] (rawOf ts ++ e.rest) := by simpa [rawOf] using hclose
    have hexit := exit_of_closes c head body hclose closes
    refine ⟨_, b, _, hnext, opens, rfl, hinside, ?_⟩
    rw [hexit]
    exact h.behindTree hafter rest hended
  | @unclosed _ _ b _ opens inside =>
    have hnil : e.rest = [] := List.isEmpty_iff.1 hended
    have hrest : c.rest = head.raw ++ (rawOf body ++ []) := by
      simpa [Tree.raw, rawOf, Tree.lexemes, hnil] using hrest
    have hnext := next_of_reads h.opened hrest (by simpa [hnil, rawOf] using hhead) (hcloses opens)
    have hinside := @before_inside c head body b [] (by simpa [hnil] using hbody) inside (.inl rfl)
    refine ⟨_, b, _, hnext, opens, rfl, hinside, ?_⟩
    rw [exit_of_nil]
    have hbehind := h.behindTree hafter .nil hended
    rwa [Tree.rawOf_nil, List.nil_append, hnil] at hbehind

theorem Before.onward (h : c.Before ts e) : c.Onward e := by
  induction hcount : countOf ts using Nat.strongRecOn generalizing c ts e with
  | ind n ih =>
    subst hcount
    cases ts with
    | nil =>
      obtain rfl := h.eq_of_nil
      exact .refl c
    | cons t ts =>
      have hcount := t.count_pos
      rw [Tree.countOf_cons] at ih
      cases t with
      | leaf l =>
        obtain ⟨d, hnext, -, -, hd⟩ := h.exists_leaf
        exact (past_of_next hnext).toOnward.trans (ih _ (by omega) hd rfl)
      | block head body close =>
        obtain ⟨d, b, e', hnext, hopened, -, hinside, -, hbehind⟩ := h.exists_block
        have hbody := Tree.countOf_inside_lt (.block head body close)
        have hinside : (d.enter b).Onward e' := ih _ (Nat.lt_add_right _ hbody) hinside rfl
        rw [exit_eq_settle hopened hinside] at hbehind
        have hpast := (past_of_next hnext).toOnward.trans d.onward_settle
        exact hpast.trans (ih _ (by omega) hbehind rfl)

/-- The next token begins the next tree, and the place behind it is before the others. -/
theorem Before.exists_next (h : c.Before (t :: ts) e) :
    ∃ d, c.next = (some t.token, d) ∧ c.Over t.raw d.settle ∧ d.settle.Before ts e := by
  cases t with
  | leaf l =>
    obtain ⟨d, hnext, hopened, hover, hd⟩ := h.exists_leaf
    rw [← settle_of_none hopened] at hover hd
    exact ⟨d, hnext, by simpa [Tree.raw, Tree.lexemes] using hover, hd⟩
  | block head body close =>
    obtain ⟨d, b, e', hnext, hopened, -, hinside, hover, hd⟩ := h.exists_block
    rw [exit_eq_settle hopened hinside.onward] at hover hd
    exact ⟨d, hnext, hover, hd⟩

/-- A token that opens nothing is a tree by itself. -/
theorem Before.exists_next_of_opens (h : c.Before (t :: ts) e) (hopens : t.token.opens = none) :
    ∃ d, c.next = (some t.token, d) ∧ c.Over t.raw d ∧ d.Before ts e := by
  obtain ⟨d, hnext, hover, hd⟩ := h.exists_next
  rw [settle_of_none ((opened_of_next hnext).trans hopens)] at hover hd
  exact ⟨d, hnext, hover, hd⟩

theorem Before.next_of_nil (h : c.Before [] e) : c.next = (none, c) ∧ c = e := by
  obtain rfl := h.eq_of_nil
  exact ⟨h.atEnd.next_eq, rfl⟩

end Cursor

end StyleSieve.Css
