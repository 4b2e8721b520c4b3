import StyleSieve.Proofs.Css.Loops

/-!
# The loops end

Every pass of a loop returns or moves on, strictly further in the text (`Turn.Moves`): a token that
begins a rule is read a second time, but the rule does not end before it. So no loop is given up
(`advances_of_moves`), and every loop ends (`returns_of_moves`): first the loops that call no other,
then the others for all blocks up to some length, and with them the blocks that are longer by their
bracket (`blocksEnd`). Rules and declarations are read to the end of their block, and nothing is
left of it when it is left (`Answer.Reaches.exhaust_eq`).
-/

namespace StyleSieve.Css

/-- Only the grammar can be violated, and otherwise the reading stands at a place as said. -/
structure Answer.Reaches (x : Answer) (good : Cursor → Prop) : Prop where
  malformed : ∀ f ∈ x.failure, ∃ e, f = .malformed e
  reached : x.failure = none → good x.reader.cursor

/-- The call returns as said. -/
def Returns (call : Option Answer) (good : Cursor → Prop) : Prop :=
  ∃ x, call = some x ∧ x.Reaches good

/-- The pass ends: the loop goes on from a later place, or the call returns as said. -/
inductive Turn.Moves {σ : Type} (cursor : σ → Cursor) (c : Cursor) (good : Cursor → Prop) :
    Option (Turn σ) → Prop
  | again {s : σ} (past : c.Past (cursor s)) : Moves cursor c good (some (.again s))
  | leave {x : Answer} (reaches : x.Reaches good) : Moves cursor c good (some (.leave x))

/-- What a loop does after a pass. -/
def Turn.follow {σ : Type} (loop : σ → Option Answer) : Turn σ → Option Answer
  | .again s => loop s
  | .leave x => some x

/-- What a loop does after a pass from a place, if it is given up unless the pass has moved on. -/
def Turn.guard {σ : Type} (cursor : σ → Cursor) (loop : σ → Option Answer) (c : Cursor) :
    Turn σ → Option Answer
  | .again s => if (cursor s).rest.length < c.rest.length then loop s else none
  | .leave x => some x

open Turn (Moves)

theorem iterate_guard {σ : Type} (cursor : σ → Cursor) (turn : σ → Turn σ) (s : σ) :
    iterate cursor turn s =
      (some (turn s)).bind (Turn.guard cursor (iterate cursor turn) (cursor s)) := by
  rw [iterate, Option.bind_some]
  cases turn s <;> rfl

theorem ruleList_guard (r : Reader) :
    ruleList r = (ruleTurn r).bind (Turn.guard Reader.cursor ruleList r.cursor) := by
  rw [ruleList]
  rcases ruleTurn r with _ | _ | _ <;> rfl

theorem qualifiedRule_guard (g : Gathering) : qualifiedRule g =
    (selectorTurn g).bind (Turn.guard Gathering.cursor qualifiedRule g.cursor) := by
  rw [qualifiedRule]
  rcases selectorTurn g with _ | _ | _ <;> rfl

theorem declarationList_guard (r : Reader) : declarationList r =
    (declarationTurn r).bind (Turn.guard Reader.cursor declarationList r.cursor) := by
  rw [declarationList]
  rcases declarationTurn r with _ | _ | _ <;> rfl

theorem preludeLoop_guard (data : String) (g : Gathering) : preludeLoop data g =
    (preludeTurn data g).bind (Turn.guard Gathering.cursor (preludeLoop data) g.cursor) := by
  rw [preludeLoop]
  rcases preludeTurn data g with _ | _ | _ <;> rfl

/-- A loop of which every pass returns or moves on ends, because the text that is left gets shorter
with every pass. -/
theorem returns_of_moves {σ : Type} {turn : σ → Option (Turn σ)} {loop : σ → Option Answer}
    {n : Nat} (cursor : σ → Cursor) (good : Cursor → Cursor → Prop)
    (hloop : ∀ s, loop s = (turn s).bind (Turn.guard cursor loop (cursor s)))
    (hgood : ∀ {c d e}, c.Past d → good d e → good c e)
    (hturn : ∀ s, (cursor s).rest.length ≤ n → Moves cursor (cursor s) (good (cursor s)) (turn s))
    (s : σ) (hs : (cursor s).rest.length ≤ n) : Returns (loop s) (good (cursor s)) := by
  -- By induction on the text that is left when the pass begins.
  induction hlength : (cursor s).rest.length using Nat.strongRecOn generalizing s with
  | ind m ih =>
    have hmoves := hturn s hs
    rw [hloop]
    cases hpass : turn s with
    | none =>
      rw [hpass] at hmoves
      cases hmoves
    | some t =>
      rw [hpass] at hmoves
      cases hmoves with
      | @again s' past =>
        have hshorter := past.shorter
        obtain ⟨x, hx, hreaches⟩ := ih _ (by omega) s' (by omega) rfl
        rw [Option.bind_some, Turn.guard, if_pos hshorter]
        exact ⟨x, hx, hreaches.malformed, fun h => hgood past (hreaches.reached h)⟩
      | @leave x reaches => exact ⟨x, rfl, reaches⟩

theorem Answer.Reaches.mono {x : Answer} {good good' : Cursor → Prop} (h : x.Reaches good)
    (hgood : ∀ c, good c → good' c) : x.Reaches good' :=
  ⟨h.malformed, fun hx => hgood _ (h.reached hx)⟩

theorem Returns.mono {call : Option Answer} {good good' : Cursor → Prop} (h : Returns call good)
    (hgood : ∀ c, good c → good' c) : Returns call good' := by
  obtain ⟨x, hx, hreaches⟩ := h
  exact ⟨x, hx, hreaches.mono hgood⟩

/-- A fault of the grammar ends the call wherever it is. -/
theorem reaches_fail (r : Reader) (fault : SyntaxFault) (offset : Nat) (good : Cursor → Prop) :
    (r.fail fault offset).Reaches good := by
  constructor
  · intro f hf
    obtain rfl := Option.mem_some.1 hf
    exact ⟨_, rfl⟩
  · intro h
    cases h

theorem reaches_done {r : Reader} {good : Cursor → Prop} (h : good r.cursor) :
    r.done.Reaches good := by
  constructor
  · intro f hf
    cases hf
  · intro _
    exact h

/-- A loop that has called another one goes on from where the call has come. -/
theorem moves_again {c : Cursor} {x : Answer} {good : Cursor → Prop} (h : x.Reaches c.Past) :
    Moves Reader.cursor c good (some x.again) := by
  rw [Answer.again]
  cases hfailure : x.failure with
  | none => exact .again (h.reached hfailure)
  | some f =>
    refine .leave ⟨h.malformed, fun hnone => ?_⟩
    rw [hfailure] at hnone
    cases hnone

/-- A call after a token, or after the token has been put back. -/
theorem moves_call {c : Cursor} {call : Option Answer} {good : Cursor → Prop}
    (h : Returns call c.Past) :
    Moves Reader.cursor c good (do let x ← call; some x.again) := by
  obtain ⟨x, rfl, hreaches⟩ := h
  exact moves_again hreaches

theorem Answer.Reaches.close {x : Answer} {good : Cursor → Prop} (h : x.Reaches good)
    (kind : EventKind) (start : Cursor) : (x.close kind start).Reaches good := by
  rw [Answer.close]
  cases hfailure : x.failure with
  | none => exact reaches_done (h.reached hfailure)
  | some f => exact h

/-- A token that ends nothing is read with the block that it opens. -/
theorem moves_more {g : Gathering} {token : Token} {c : Cursor} {good : Cursor → Prop}
    (h : g.cursor.next = (some token, c)) :
    Moves Gathering.cursor g.cursor good (some (g.more token c)) := by
  have hpast := Cursor.past_of_next h
  have hskip : g.cursor.Past c.skipBlock := by
    rw [Cursor.skipBlock_eq_settle]
    exact hpast.trans_onward c.onward_settle
  unfold Gathering.more
  split
  · exact .leave (reaches_fail _ _ _ _)
  · next k d hadd =>
    unfold Gathered.add at hadd
    split at hadd
    all_goals cases hadd
    · exact .again hpast
    · exact .again hpast
    · exact .again hskip

/-! ## Declarations -/

theorem moves_colonTurn (data : String) (r : Reader) :
    Moves Reader.cursor r.cursor r.cursor.Onward (some (colonTurn data r)) := by
  unfold colonTurn
  split
  · exact .leave (reaches_fail _ _ _ _)
  · next hnext => exact .again (Cursor.past_of_next hnext)
  · next hnext => exact .again (Cursor.past_of_next hnext)
  · next hnext => exact .leave (reaches_done (Cursor.past_of_next hnext).toOnward)
  · exact .leave (reaches_fail _ _ _ _)

theorem moves_valueTurn (data : List Char) (start : Cursor) (g : Gathering) :
    Moves Gathering.cursor g.cursor g.cursor.Onward (some (valueTurn data start g)) := by
  unfold valueTurn
  split
  · next hnext => exact .leave (reaches_done (Cursor.finished_of_next hnext).toOnward)
  · next hnext => exact .leave (reaches_done (Cursor.past_of_next hnext).toOnward)
  · next hnext => exact moves_more hnext

theorem returns_declaration (start : Cursor) (r : Reader) :
    Returns (declaration start r) r.cursor.Onward := by
  obtain ⟨x, hx, hreaches⟩ := returns_of_moves Reader.cursor Cursor.Onward
    (iterate_guard Reader.cursor (colonTurn _)) Cursor.Past.onward_trans
    (fun r' _ => moves_colonTurn (String.ofList (r.cursor.since start)) r') r (Nat.le_refl _)
  rw [declaration, hx]
  cases hfailure : x.failure with
  | some f => exact ⟨x, by simp [hfailure], hreaches⟩
  | none =>
    obtain ⟨y, hy, hvalue⟩ := returns_of_moves Gathering.cursor Cursor.Onward
      (iterate_guard Gathering.cursor (valueTurn (r.cursor.since start) start))
      Cursor.Past.onward_trans (fun g _ => moves_valueTurn _ start g) (.fresh x.reader)
      (Nat.le_refl _)
    refine ⟨y, by simpa [hfailure] using hy, ?_⟩
    exact hvalue.mono fun c hc => (hreaches.reached hfailure).trans hc

/-! ## Rules and blocks -/

/-- Reading a block ends if less than the given text is left behind its bracket. -/
def BlocksEnd (n : Nat) : Prop :=
  ∀ (body : Context) (r : Reader), r.cursor.rest.length < n → r.cursor.opened.isSome = true →
    Returns (readBlock body r) r.cursor.Onward

section

variable {n : Nat} (hblocks : BlocksEnd n)
include hblocks

/-- A block whose bracket has just been read. -/
theorem returns_readBlock {c d : Cursor} {b : Bracket} (hc : c.rest.length ≤ n)
    (hnext : c.next = (some (.opening b), d)) (body : Context) (es : List Event) :
    Returns (readBlock body ⟨d, es⟩) c.Past := by
  have hpast := Cursor.past_of_next hnext
  have hopened : d.opened = some b := Cursor.opened_of_next hnext
  have hshorter := hpast.shorter
  have hcall := hblocks body ⟨d, es⟩ (by dsimp only; omega) (by simp [hopened])
  exact hcall.mono fun _ h => hpast.trans_onward h

theorem moves_preludeTurn (data : String) (g : Gathering) (hg : g.cursor.rest.length ≤ n) :
    Moves Gathering.cursor g.cursor g.cursor.Onward (preludeTurn data g) := by
  rw [preludeTurn]
  split
  · next hnext => exact .leave (reaches_done (Cursor.finished_of_next hnext).toOnward)
  · next hnext => exact .leave (reaches_done (Cursor.past_of_next hnext).toOnward)
  · next c hnext =>
    obtain ⟨x, hx, hreaches⟩ := returns_readBlock hblocks hg hnext (.ofAtRule data) _
    rw [Reader.move, Reader.emit, hx]
    exact .leave ((hreaches.mono fun _ h => h.toOnward).close _ _)
  · next hnext => exact moves_more hnext

theorem returns_atRule (start : Cursor) (r : Reader) (hr : r.cursor.rest.length ≤ n) :
    Returns (atRule start r) r.cursor.Onward := by
  rw [atRule]
  exact returns_of_moves Gathering.cursor Cursor.Onward (preludeLoop_guard _)
    Cursor.Past.onward_trans (moves_preludeTurn hblocks _) ⟨r, .empty, start⟩ hr

theorem moves_selectorTurn (g : Gathering) (hg : g.cursor.rest.length ≤ n) :
    Moves Gathering.cursor g.cursor g.cursor.Past (selectorTurn g) := by
  rw [selectorTurn]
  split
  · exact .leave (reaches_fail _ _ _ _)
  · next hnext =>
    split
    · exact .leave (reaches_fail _ _ _ _)
    · exact .again (Cursor.past_of_next hnext)
  · next c hnext =>
    split
    · exact .leave (reaches_fail _ _ _ _)
    · obtain ⟨x, hx, hreaches⟩ := returns_readBlock hblocks hg hnext .declarations _
      rw [Reader.move, Reader.emit, hx]
      exact .leave (hreaches.close _ _)
  · exact .leave (reaches_fail _ _ _ _)
  · exact .leave (reaches_fail _ _ _ _)
  · next hnext => exact moves_more hnext

theorem returns_qualifiedRule (g : Gathering) (hg : g.cursor.rest.length ≤ n) :
    Returns (qualifiedRule g) g.cursor.Past :=
  returns_of_moves Gathering.cursor Cursor.Past qualifiedRule_guard Cursor.Past.trans
    (moves_selectorTurn hblocks) g hg

theorem moves_ruleTurn (r : Reader) (hr : r.cursor.rest.length ≤ n) :
    Moves Reader.cursor r.cursor r.cursor.Finished (ruleTurn r) := by
  rw [ruleTurn]
  split
  · next hnext => exact .leave (reaches_done (Cursor.finished_of_next hnext))
  · next hnext => exact .again (Cursor.past_of_next hnext)
  · next hnext => exact .again (Cursor.past_of_next hnext)
  · next hnext => exact .again (Cursor.past_of_next hnext)
  · next hnext => exact .again (Cursor.past_of_next hnext)
  · next hnext => exact .again (Cursor.past_of_next hnext)
  · next c hnext =>
    have hpast := Cursor.past_of_next hnext
    have hcall := returns_atRule hblocks r.cursor (r.move c)
      (Nat.le_trans hpast.toOnward.length_le hr)
    exact moves_call (hcall.mono fun _ h => hpast.trans_onward h)
  · exact .leave (reaches_fail _ _ _ _)
  · exact .leave (reaches_fail _ _ _ _)
  · exact .leave (reaches_fail _ _ _ _)
  · -- The rule begins where the pass did, and it does not end there.
    exact moves_call (returns_qualifiedRule hblocks (.fresh r) hr)

theorem moves_declarationTurn (r : Reader) (hr : r.cursor.rest.length ≤ n) :
    Moves Reader.cursor r.cursor r.cursor.Finished (declarationTurn r) := by
  rw [declarationTurn]
  split
  · next hnext => exact .leave (reaches_done (Cursor.finished_of_next hnext))
  · next hnext => exact .again (Cursor.past_of_next hnext)
  · next hnext => exact .again (Cursor.past_of_next hnext)
  · next hnext => exact .again (Cursor.past_of_next hnext)
  · next c hnext =>
    have hpast := Cursor.past_of_next hnext
    have hcall := returns_atRule hblocks r.cursor (r.move c)
      (Nat.le_trans hpast.toOnward.length_le hr)
    exact moves_call (hcall.mono fun _ h => hpast.trans_onward h)
  · next c hnext =>
    have hpast := Cursor.past_of_next hnext
    have hcall := returns_declaration r.cursor (r.move c)
    exact moves_call (hcall.mono fun _ h => hpast.trans_onward h)
  · exact .leave (reaches_fail _ _ _ _)

theorem returns_ruleList_of_blocks (r : Reader) (hr : r.cursor.rest.length ≤ n) :
    Returns (ruleList r) r.cursor.Finished :=
  returns_of_moves Reader.cursor Cursor.Finished ruleList_guard Cursor.Past.trans_finished
    (moves_ruleTurn hblocks) r hr

theorem returns_declarationList_of_blocks (r : Reader) (hr : r.cursor.rest.length ≤ n) :
    Returns (declarationList r) r.cursor.Finished :=
  returns_of_moves Reader.cursor Cursor.Finished declarationList_guard Cursor.Past.trans_finished
    (moves_declarationTurn hblocks) r hr

end

/-- At its end nothing is left of a block. -/
theorem Answer.Reaches.exhaust_eq {x : Answer} {c : Cursor} (h : x.Reaches c.Finished)
    (offset : Nat) : x.exhaust offset = x := by
  rw [Answer.exhaust]
  cases hfailure : x.failure with
  | some f => simp
  | none =>
    have hunread := (h.reached hfailure).atEnd.unread_eq
    rcases x with ⟨r, failure⟩
    obtain rfl : failure = none := hfailure
    simp [hunread]

/-- A block is left behind its end. -/
theorem Answer.Reaches.outOf {x : Answer} {c : Cursor} {b : Bracket} (hopened : c.opened = some b)
    (h : x.Reaches (c.enter b).Finished) : (x.outOf c b).Reaches c.Onward := by
  rw [Answer.outOf, h.exhaust_eq]
  refine ⟨h.malformed, fun hfailure => ?_⟩
  show c.Onward (c.exit x.reader.cursor b)
  rw [Cursor.exit_eq_settle hopened (h.reached hfailure).toOnward]
  exact c.onward_settle

/-- Blocks end because those inside are shorter. -/
theorem blocksEnd (n : Nat) : BlocksEnd n := by
  induction n with
  | zero =>
    intro body r hr
    omega
  | succ n ih =>
    intro body r hr hopened
    obtain ⟨b, hb⟩ := Option.isSome_iff_exists.1 hopened
    have hinside : (r.move (r.cursor.enter b)).cursor.rest.length ≤ n := Nat.le_of_lt_succ hr
    obtain ⟨x, hx, hreaches⟩ : Returns (readInside body (r.move (r.cursor.enter b)))
        (r.cursor.enter b).Finished := by
      rw [readInside]
      split
      · exact returns_ruleList_of_blocks ih _ hinside
      · exact returns_declarationList_of_blocks ih _ hinside
    refine ⟨x.outOf r.cursor b, ?_, hreaches.outOf hb⟩
    rw [readBlock, hb]
    simp only [hx]
    rfl

/-! ## All loops -/

theorem returns_ruleList (r : Reader) : Returns (ruleList r) r.cursor.Finished :=
  returns_ruleList_of_blocks (blocksEnd _) r (Nat.le_refl _)

theorem returns_declarationList (r : Reader) : Returns (declarationList r) r.cursor.Finished :=
  returns_declarationList_of_blocks (blocksEnd _) r (Nat.le_refl _)

/-- Every pass returns, and the loop then goes on as the pass says, from a place further in the text
or not at all. -/
structure Advances {σ : Type} (cursor : σ → Cursor) (turn : σ → Option (Turn σ))
    (loop : σ → Option Answer) : Prop where
  follows : ∀ s, loop s = (turn s).bind (Turn.follow loop)
  moves : ∀ s, ∃ t, turn s = some t ∧ ∀ s', t = .again s' →
    (cursor s).position < (cursor s').position ∧
      (cursor s').rest.length < (cursor s).rest.length

/-- The loop is not given up if every pass moves on. -/
theorem advances_of_moves {σ : Type} {cursor : σ → Cursor} {turn : σ → Option (Turn σ)}
    {loop : σ → Option Answer} {good : Cursor → Cursor → Prop}
    (hloop : ∀ s, loop s = (turn s).bind (Turn.guard cursor loop (cursor s)))
    (hturn : ∀ s, Moves cursor (cursor s) (good (cursor s)) (turn s)) :
    Advances cursor turn loop := by
  constructor
  · intro s
    have hmoves := hturn s
    rw [hloop]
    generalize turn s = pass at hmoves
    cases hmoves with
    | again past => exact if_pos past.shorter
    | leave _ => rfl
  · intro s
    have hmoves := hturn s
    generalize turn s = pass at hmoves
    cases hmoves with
    | again past =>
      refine ⟨_, rfl, ?_⟩
      rintro s' ⟨⟩
      exact ⟨past.position_lt, past.shorter⟩
    | leave _ =>
      refine ⟨_, rfl, ?_⟩
      rintro s' ⟨⟩

theorem advances_ruleList : Advances Reader.cursor ruleTurn ruleList :=
  advances_of_moves ruleList_guard fun r => moves_ruleTurn (blocksEnd _) r (Nat.le_refl _)

theorem advances_qualifiedRule : Advances Gathering.cursor selectorTurn qualifiedRule :=
  advances_of_moves qualifiedRule_guard fun g => moves_selectorTurn (blocksEnd _) g (Nat.le_refl _)

theorem advances_declarationList : Advances Reader.cursor declarationTurn declarationList :=
  advances_of_moves declarationList_guard fun r =>
    moves_declarationTurn (blocksEnd _) r (Nat.le_refl _)

theorem advances_preludeLoop (data : String) :
    Advances Gathering.cursor (preludeTurn data) (preludeLoop data) :=
  advances_of_moves (preludeLoop_guard data) fun g =>
    moves_preludeTurn (blocksEnd _) data g (Nat.le_refl _)

theorem advances_colonTurn (data : String) :
    Advances Reader.cursor (fun r => some (colonTurn data r))
      (iterate Reader.cursor (colonTurn data)) :=
  advances_of_moves (iterate_guard Reader.cursor (colonTurn data)) (moves_colonTurn data)

theorem advances_valueTurn (data : List Char) (start : Cursor) :
    Advances Gathering.cursor (fun g => some (valueTurn data start g))
      (iterate Gathering.cursor (valueTurn data start)) :=
  advances_of_moves (iterate_guard Gathering.cursor (valueTurn data start))
    (moves_valueTurn data start)

/-- Unless the grammar is violated, the call returns at the end of its block or of the text, where
nothing is left of the block. -/
def Consumes (loop : Reader → Option Answer) : Prop :=
  ∀ r, Returns (loop r) fun c => r.cursor.Finished c ∧ c.unread = none

theorem consumes_of_returns {loop : Reader → Option Answer}
    (h : ∀ r, Returns (loop r) r.cursor.Finished) : Consumes loop := fun r =>
  (h r).mono fun _ hc => ⟨hc, hc.atEnd.unread_eq⟩

end StyleSieve.Css
