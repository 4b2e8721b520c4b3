import StyleSieve.Proofs.Css.Lexing
import StyleSieve.Text.Width

/-!
# A cursor over a stylesheet

A cursor is a place in a text of which tokens are read one at a time. A block whose opening bracket
was read last may be entered, and is passed over as a whole by the next token otherwise. Inside a
block the reading stops before the bracket that closes it.

Whatever is read, the place moves over the text and stays inside its block (`Onward`), and a token
takes some of the text (`past_of_next`). Where there is no token, the block or the text is at its
end (`finished_of_next`).
-/

namespace StyleSieve.Css

/-- The character that closes a bracket. -/
def Bracket.closer : Bracket → Char
  | .paren => ')'
  | .square => ']'
  | .curly => '\x7d'

/-- The characters up to the end of some open blocks, innermost first. Inside a block only its own
bracket closes anything, and a block that is not closed ends with the text. -/
def blockLength : List Bracket → List Char → Nat
  | [], _ => 0
  | _ :: _, [] => 0
  | b :: bs, c :: cs =>
    let token := readToken c cs
    let left := if token.1.closes = some b then bs else token.1.opens.toList ++ b :: bs
    token.2 + 1 + blockLength left (cs.drop token.2)
termination_by _ cs => cs.length
decreasing_by simp only [List.length_drop, List.length_cons]; omega

/-- A place in a text. -/
@[ext]
structure Cursor where
  /-- The text that has not been read. -/
  rest : List Char
  /-- The bytes that have been read. -/
  position : Nat
  /-- The bracket that was read last, if it opens a block. -/
  opened : Option Bracket
  /-- The bracket of the block that is being read, unless it is the whole text. -/
  within : Option Bracket
deriving Repr, DecidableEq

namespace Cursor

/-- The beginning of a text. -/
def ofText (cs : List Char) : Cursor := ⟨cs, 0, none, none⟩

/-- The place some characters further on. -/
def advance (c : Cursor) (n : Nat) : Cursor :=
  { c with
    rest := c.rest.drop n
    position := c.position + Text.width (c.rest.take n)
    opened := none }

/-- The place behind some open blocks. -/
def leave (c : Cursor) (bs : List Bracket) : Cursor := c.advance (blockLength bs c.rest)

/-- The place behind a block that has been opened and not entered. -/
def settle (c : Cursor) : Cursor := c.leave c.opened.toList

/-- The text read since an earlier place. -/
def since (c start : Cursor) : List Char :=
  start.rest.take (start.rest.length - c.rest.length)

/-- The bracket that closes the block being read comes next. -/
def halted (c : Cursor) : Bool := c.within.any fun b => c.rest.head? == some b.closer

/-- The next token of the text, whatever block it stands in. -/
def read (c : Cursor) : Option Token × Cursor :=
  match c.rest with
  | [] => (none, c)
  | ch :: cs =>
    let token := readToken ch cs
    (some token.1, { c.advance (token.2 + 1) with opened := token.1.opens })

/-- The next token of the block being read. There is none at the end of the block or of the text. -/
def next (c : Cursor) : Option Token × Cursor :=
  if c.settle.halted then (none, c.settle) else c.settle.read

theorem length_of_read {c d : Cursor} {token : Token} (h : c.read = (some token, d)) :
    d.rest.length < c.rest.length := by
  unfold read at h
  split at h
  · cases h
  · next ch cs hrest =>
    obtain ⟨-, rfl⟩ := Prod.mk.inj h
    simp only [advance, hrest, List.drop_succ_cons, List.length_drop, List.length_cons]
    omega

/-- The place behind the white space and the comments that come next. -/
def skipBlank (c : Cursor) : Cursor :=
  match h : c.read with
  | (some (.whitespace _), d) =>
    have := length_of_read h
    d.skipBlank
  | (some (.comment _), d) =>
    have := length_of_read h
    d.skipBlank
  | _ => c
termination_by c.rest.length

/-- What is left of the block being read: its next token but for white space and comments. -/
def unread (c : Cursor) : Option Token := c.settle.skipBlank.next.1

/-- The beginning of a block whose opening bracket has been read. -/
def enter (c : Cursor) (b : Bracket) : Cursor := { c with opened := none, within := some b }

/-- The place behind a block that has been read as far as `inner`. -/
def exit (c inner : Cursor) (b : Bracket) : Cursor :=
  { inner.settle.leave [b] with within := c.within }

/-- The place behind a block that has been opened: it is entered, and what is left of it, which is
all, does not count. -/
def skipBlock (c : Cursor) : Cursor := c.opened.elim c fun b => c.exit (c.enter b) b

end Cursor

/-! ## Open blocks -/

theorem closes_readToken_iff {b : Bracket} {c : Char} {cs : List Char} :
    (readToken c cs).1.closes = some b ↔ c = b.closer := by
  constructor
  · intro h
    have hmark : markChar (readToken c cs).1 = some b.closer := by
      rw [Token.eq_closing h]
      cases b <;> rfl
    exact ((readToken_token c cs).2.2.1 _ hmark).1
  · rintro rfl
    have hbegins : beginsMark b.closer = true := by cases b <;> decide
    rw [readToken_of_beginsMark hbegins]
    cases b <;> rfl

@[simp] theorem blockLength_nil (cs : List Char) : blockLength [] cs = 0 := by
  simp [blockLength]

@[simp] theorem blockLength_of_nil (bs : List Bracket) : blockLength bs [] = 0 := by
  cases bs <;> simp [blockLength]

/-- Inner blocks are left before those around them. -/
theorem blockLength_append (bs bs' : List Bracket) (cs : List Char) :
    blockLength (bs ++ bs') cs =
      blockLength bs cs + blockLength bs' (cs.drop (blockLength bs cs)) := by
  fun_induction blockLength bs cs with
  | case1 cs => simp
  | case2 => simp
  | case3 b bs c cs token left ih =>
    have hleft : (if token.1.closes = some b then bs ++ bs'
        else token.1.opens.toList ++ b :: (bs ++ bs')) = left ++ bs' := by
      simp only [left]
      split <;> simp
    rw [List.cons_append, blockLength]
    simp only [token] at hleft ih ⊢
    have hdrop : (c :: cs).drop
        ((readToken c cs).2 + 1 + blockLength left (cs.drop (readToken c cs).2)) =
          cs.drop ((readToken c cs).2 + blockLength left (cs.drop (readToken c cs).2)) := by
      rw [Nat.add_right_comm, List.drop_succ_cons]
    rw [hleft, ih, hdrop, List.drop_drop]
    omega

namespace Cursor

variable {c d e : Cursor} {token : Token}

/-! ## Places in a block -/

/-- The text behind the block being read. Nothing is behind the whole text. -/
def behind (c : Cursor) : List Char :=
  c.within.elim [] fun b => (c.leave (c.opened.toList ++ [b])).rest

/-- The block being read, or the text, is at its end. -/
structure AtEnd (c : Cursor) : Prop where
  opened : c.opened = none
  ended : c.rest = [] ∨ c.halted = true

/-- The text between two places. -/
def Over (c : Cursor) (cs : List Char) (d : Cursor) : Prop :=
  c.rest = cs ++ d.rest ∧ d.position = c.position + Text.width cs

/-- The reading has moved on, and not out of its block. -/
structure Onward (c d : Cursor) : Prop where
  passed : ∃ cs, c.Over cs d
  within : d.within = c.within
  behind : d.behind = c.behind

/-- The reading has moved on and taken some of the text. -/
structure Past (c d : Cursor) : Prop extends Onward c d where
  shorter : d.rest.length < c.rest.length

/-- The reading has moved on to the end of its block. -/
structure Finished (c d : Cursor) : Prop extends Onward c d where
  atEnd : d.AtEnd

theorem Over.trans {cs ds : List Char} (h : c.Over cs d) (h' : d.Over ds e) :
    c.Over (cs ++ ds) e := by
  obtain ⟨hrest, hposition⟩ := h
  obtain ⟨hrest', hposition'⟩ := h'
  refine ⟨by rw [hrest, hrest', List.append_assoc], ?_⟩
  rw [hposition', hposition, Text.width_append, Nat.add_assoc]

/-- A place is told by the text that is left. -/
theorem Over.position_add {cs : List Char} (h : c.Over cs d) :
    d.position + Text.width d.rest = c.position + Text.width c.rest := by
  obtain ⟨hrest, hposition⟩ := h
  rw [hposition, hrest, Text.width_append, Nat.add_assoc]

theorem Over.since_eq {cs : List Char} (h : c.Over cs d) : d.since c = cs := by
  simp [since, h.1]

theorem over_advance (c : Cursor) (n : Nat) : c.Over (c.rest.take n) (c.advance n) :=
  ⟨(List.take_append_drop n c.rest).symm, rfl⟩

theorem advance_advance (c : Cursor) (m n : Nat) : (c.advance m).advance n = c.advance (m + n) := by
  simp only [advance, List.drop_drop, List.take_add, Text.width_append, Nat.add_assoc]

theorem position_add_leave (c : Cursor) (bs : List Bracket) :
    (c.leave bs).position + Text.width (c.leave bs).rest = c.position + Text.width c.rest :=
  (over_advance c _).position_add

theorem leave_nil (c : Cursor) : c.leave [] = { c with opened := none } := by
  simp [leave, advance]

theorem leave_append (c : Cursor) (bs bs' : List Bracket) :
    c.leave (bs ++ bs') = (c.leave bs).leave bs' := by
  rw [leave, blockLength_append, ← advance_advance]
  rfl

theorem Onward.refl (c : Cursor) : c.Onward c := ⟨⟨[], by simp [Over]⟩, rfl, rfl⟩

theorem Onward.trans (h : c.Onward d) (h' : d.Onward e) : c.Onward e := by
  obtain ⟨⟨cs, hcs⟩, hwithin, hbehind⟩ := h
  obtain ⟨⟨ds, hds⟩, hwithin', hbehind'⟩ := h'
  exact ⟨⟨cs ++ ds, hcs.trans hds⟩, hwithin'.trans hwithin, hbehind'.trans hbehind⟩

theorem Onward.length_le (h : c.Onward d) : d.rest.length ≤ c.rest.length := by
  obtain ⟨cs, hrest, -⟩ := h.passed
  have hlength := congrArg List.length hrest
  rw [List.length_append] at hlength
  omega

theorem Past.trans_onward (h : c.Past d) (h' : d.Onward e) : c.Past e :=
  ⟨h.toOnward.trans h', Nat.lt_of_le_of_lt h'.length_le h.shorter⟩

theorem Onward.trans_past (h : c.Onward d) (h' : d.Past e) : c.Past e :=
  ⟨h.trans h'.toOnward, Nat.lt_of_lt_of_le h'.shorter h.length_le⟩

theorem Past.onward_trans (h : c.Past d) (h' : d.Onward e) : c.Onward e := h.toOnward.trans h'

theorem Past.trans (h : c.Past d) (h' : d.Past e) : c.Past e := h.trans_onward h'.toOnward

theorem Past.trans_finished (h : c.Past d) (h' : d.Finished e) : c.Finished e :=
  ⟨h.toOnward.trans h'.toOnward, h'.atEnd⟩

/-- Every character has a byte at least. -/
theorem Past.position_lt (h : c.Past d) : c.position < d.position := by
  obtain ⟨cs, hrest, hposition⟩ := h.passed
  cases cs with
  | nil =>
    have hshorter := h.shorter
    rw [hrest] at hshorter
    exact absurd hshorter (Nat.lt_irrefl _)
  | cons ch cs =>
    have hbytes := ch.utf8Size_pos
    rw [hposition, Text.width_cons]
    omega

/-! ## One token -/

theorem settle_of_none (h : c.opened = none) : c.settle = c := by
  rw [settle, h, Option.toList_none, leave_nil]
  rcases c with ⟨rest, position, opened, within⟩
  obtain rfl : opened = none := h
  rfl

theorem onward_settle (c : Cursor) : c.Onward c.settle := by
  refine ⟨⟨_, over_advance c _⟩, rfl, ?_⟩
  have hleave : ∀ bs, c.settle.leave bs = c.leave (c.opened.toList ++ bs) := fun bs =>
    (leave_append c c.opened.toList bs).symm
  exact congrArg (c.within.elim []) (funext fun b => congrArg rest (hleave [b]))

theorem leave_of_read (h : c.read = (some token, d)) (b : Bracket) (bs : List Bracket) :
    c.leave (b :: bs) =
      d.leave (if token.closes = some b then bs else token.opens.toList ++ b :: bs) := by
  unfold read at h
  split at h
  · cases h
  · next ch cs hrest =>
    obtain ⟨htoken, rfl⟩ := Prod.mk.inj h
    obtain rfl := Option.some.inj htoken
    rw [leave, hrest, blockLength, ← advance_advance]
    simp [leave, advance, hrest]

/-- A token that does not close the block is read inside of it. -/
theorem past_of_read (h : c.read = (some token, d)) (hopened : c.opened = none)
    (hhalted : c.halted = false) : c.Past d := by
  have hleave := leave_of_read h
  have hshorter := length_of_read h
  unfold read at h
  split at h
  · cases h
  · next ch cs hrest =>
    obtain ⟨htoken, rfl⟩ := Prod.mk.inj h
    obtain rfl := Option.some.inj htoken
    refine ⟨⟨⟨_, over_advance c _⟩, rfl, ?_⟩, hshorter⟩
    cases hwithin : c.within with
    | none => simp [behind, advance, hwithin]
    | some b =>
      have hcloses : (readToken ch cs).1.closes ≠ some b := by
        intro hcloses
        rw [halted, hwithin, hrest] at hhalted
        simp [closes_readToken_iff.1 hcloses] at hhalted
      have hbehind : c.behind = (c.leave [b]).rest := by simp [behind, hwithin, hopened]
      rw [hbehind, hleave, if_neg hcloses]
      simp [behind, advance, hwithin]

theorem past_of_next (h : c.next = (some token, d)) : c.Past d := by
  rw [next] at h
  split at h
  · cases h
  · next hhalted =>
    exact (onward_settle c).trans_past (past_of_read h rfl (by simpa using hhalted))

theorem opened_of_next (h : c.next = (some token, d)) : d.opened = token.opens := by
  rw [next] at h
  split at h
  · cases h
  · unfold read at h
    split at h <;> cases h
    rfl

/-- There is no token only at the end. -/
theorem finished_of_next (h : c.next = (none, d)) : c.Finished d := by
  rw [next] at h
  split at h
  · next hhalted =>
    obtain ⟨-, rfl⟩ := Prod.mk.inj h
    exact ⟨onward_settle c, ⟨rfl, .inr hhalted⟩⟩
  · rw [read] at h
    split at h
    · next hrest =>
      obtain ⟨-, rfl⟩ := Prod.mk.inj h
      exact ⟨onward_settle c, ⟨rfl, .inl hrest⟩⟩
    · cases h

theorem AtEnd.next_eq (h : c.AtEnd) : c.next = (none, c) := by
  rw [next, settle_of_none h.opened]
  split
  · rfl
  · next hhalted =>
    have hrest := h.ended.resolve_right hhalted
    rw [read, hrest]

theorem exists_bracket_of_halted (h : c.halted = true) :
    ∃ b, c.within = some b ∧ c.rest.head? = some b.closer := by
  simpa [halted, Option.any_eq_true] using h

/-- At the end of a block only its closing bracket can be read. -/
theorem AtEnd.closes_of_read (h : c.AtEnd) (hread : c.read = (some token, d)) :
    ∃ b, token = .closing b := by
  unfold read at hread
  split at hread
  · cases hread
  · next ch cs hrest =>
    have hhalted := h.ended.resolve_left (by simp [hrest])
    obtain ⟨b, -, hhead⟩ := exists_bracket_of_halted hhalted
    rw [hrest, List.head?_cons] at hhead
    obtain ⟨htoken, -⟩ := Prod.mk.inj hread
    obtain rfl := Option.some.inj htoken
    exact ⟨b, Token.eq_closing (closes_readToken_iff.2 (Option.some.inj hhead))⟩

/-- At the end of a block nothing is left of it. -/
theorem AtEnd.unread_eq (h : c.AtEnd) : c.unread = none := by
  have hblank : c.skipBlank = c := by
    rw [skipBlank]
    split
    · next hread =>
      obtain ⟨b, hb⟩ := h.closes_of_read hread
      contradiction
    · next hread =>
      obtain ⟨b, hb⟩ := h.closes_of_read hread
      contradiction
    · rfl
  rw [unread, settle_of_none h.opened, hblank, h.next_eq]

/-! ## Blocks entered and left -/

/-- A block is left at the place behind it, however far it has been read. -/
theorem exit_eq_settle {b : Bracket} (hopened : c.opened = some b) (h : (c.enter b).Onward d) :
    c.exit d b = c.settle := by
  have hwithin : d.within = some b := h.within
  have hrest : (d.settle.leave [b]).rest = c.settle.rest := by
    have hbehind := h.behind
    rw [behind, behind, hwithin, Option.elim_some, leave_append] at hbehind
    rw [settle, settle, hopened, hbehind]
    rfl
  have hposition : (d.settle.leave [b]).position = c.settle.position := by
    obtain ⟨cs, hover⟩ := h.passed
    have hinside : d.position + Text.width d.rest = c.position + Text.width c.rest :=
      hover.position_add
    have hinner := position_add_leave d d.opened.toList
    have hleft := position_add_leave d.settle [b]
    have hsettled := position_add_leave c c.opened.toList
    rw [← settle] at hinner hsettled
    rw [hrest] at hleft
    omega
  exact Cursor.ext hrest hposition rfl rfl

theorem skipBlock_eq_settle (c : Cursor) : c.skipBlock = c.settle := by
  cases hopened : c.opened with
  | none => simp [skipBlock, hopened, settle_of_none]
  | some b =>
    rw [skipBlock, hopened, Option.elim_some]
    exact exit_eq_settle hopened (.refl _)

end Cursor

end StyleSieve.Css
