import StyleSieve.Proofs.Css.Progress
import StyleSieve.Proofs.Css.TreeCursor

/-!
# Outcomes of calls

What a call reads is told by an outcome, the events that it adds and its fault, if any. Outcomes are
added up call by call (`Yields.bind`), since a call that has failed is the end of all calls around
it (`Passes`). The trees up to a mark that ends a loop are gathered as component values, unless one
of them is faulty (`yields_gathered`).
-/

namespace StyleSieve.Css

open StyleSieve.Css.Tree (rawOf)

variable {c d e : Cursor} {g : Gathering} {r : Reader} {t : Tree} {ts us : List Tree}
  {call : Option Answer} {es : List Event} {p q : Outcome} {k : Answer → Option Answer}

/-! ## Outcomes of calls -/

/-- The call returns. It reads some events more, and unless there is a fault it comes to a place. -/
def Yields (call : Option Answer) (es : List Event) (p : Outcome) (e : Cursor) : Prop :=
  ∃ x, call = some x ∧ x.reader.events = es ++ p.events ∧
    x.failure = p.error.map Failure.malformed ∧ (p.error = none → x.reader.cursor = e)

/-- What comes after a call that has failed does not add anything to it. -/
def Passes (k : Answer → Option Answer) : Prop :=
  ∀ x, x.failure.isSome = true →
    ∃ y, k x = some y ∧ y.reader.events = x.reader.events ∧ y.failure = x.failure

/-- A loop goes on after a call. -/
def Answer.resume (loop : Reader → Option Answer) (x : Answer) : Option Answer :=
  Turn.follow loop x.again

theorem passes_resume (loop : Reader → Option Answer) : Passes (Answer.resume loop) := by
  intro x hfailure
  refine ⟨x, ?_, rfl, rfl⟩
  rw [Answer.resume, Answer.again, if_pos hfailure]
  rfl

theorem passes_close (kind : EventKind) (start : Cursor) :
    Passes fun x => some (x.close kind start) := by
  intro x hfailure
  refine ⟨x, congrArg some ?_, rfl, rfl⟩
  rw [Answer.close, if_pos hfailure]

theorem passes_outOf (c : Cursor) (b : Bracket) : Passes fun x => some (x.outOf c b) := by
  intro x hfailure
  refine ⟨_, rfl, rfl, ?_⟩
  rw [Answer.outOf, Answer.exhaust, if_pos hfailure]

theorem yields_done (r : Reader) : Yields (some r.done) r.events .empty r.cursor :=
  ⟨r.done, rfl, (List.append_nil _).symm, rfl, fun _ => rfl⟩

theorem yields_fail (r : Reader) (fault : SyntaxFault) (offset : Nat) (e : Cursor) :
    Yields (some (r.fail fault offset)) r.events (.fail fault offset) e :=
  ⟨r.fail fault offset, rfl, (List.append_nil _).symm, rfl, fun h => nomatch h⟩

/-- A call after another one. -/
theorem Yields.bind (hk : Passes k) (h : Yields call es p c)
    (hq : p.error = none → Yields (k (Reader.done ⟨c, es ++ p.events⟩)) (es ++ p.events) q e) :
    Yields (call.bind k) es (p ++ q) e := by
  obtain ⟨⟨⟨cursor, events⟩, failure⟩, rfl, rfl, hfailure, hcursor⟩ := h
  rcases p with ⟨fs, _ | fault⟩
  · obtain rfl := hcursor rfl
    obtain rfl : failure = none := hfailure
    obtain ⟨y, hy, hevents', hfailure', hcursor'⟩ := hq rfl
    exact ⟨y, hy, by rw [hevents']; exact List.append_assoc .., hfailure', hcursor'⟩
  · obtain rfl : failure = some (.malformed fault) := hfailure
    obtain ⟨y, hy, hevents', hfailure'⟩ := hk ⟨⟨cursor, es ++ fs⟩, some (.malformed fault)⟩ rfl
    exact ⟨y, hy, hevents', hfailure', fun h => nomatch h⟩

/-- A failed call is the end. -/
theorem Yields.bind_fail (hk : Passes k) {fault : SyntaxFault} {offset : Nat}
    (h : Yields call es (.fail fault offset) c) (e : Cursor) :
    Yields (call.bind k) es (.fail fault offset) e := by
  rw [← Outcome.append_empty (.fail fault offset)]
  exact h.bind hk fun herror => nomatch herror

/-- An event has been read before the call. -/
theorem Yields.one_append {event : Event} (h : Yields call (es ++ [event]) p e) :
    Yields call es (.one event ++ p) e := by
  obtain ⟨x, rfl, hevents, hfailure, hcursor⟩ := h
  refine ⟨x, rfl, ?_, ?_, ?_⟩
  · rw [Outcome.one_append_events, hevents, List.append_assoc, List.singleton_append]
  · rw [Outcome.one_append_error, hfailure]
  · rw [Outcome.one_append_error]
    exact hcursor

/-- A token at which a loop ends with a fault. -/
theorem yields_fault {σ : Type} {turn : σ → Option (Turn σ)} {loop : σ → Option Answer} {s : σ}
    {fault : SyntaxFault} {offset : Nat} (hloop : ∀ s, loop s = (turn s).bind (Turn.follow loop))
    (hk : Passes k) (hturn : turn s = some (.leave (r.fail fault offset))) (e : Cursor) :
    Yields ((loop s).bind k) r.events (.fail fault offset) e := by
  rw [hloop, hturn]
  exact (yields_fail r fault offset e).bind_fail hk e

/-- A pass that ends with a call. -/
theorem loop_of_call {σ : Type} {turn : σ → Option (Turn σ)} {loop : σ → Option Answer} {s : σ}
    {f : Answer → Answer} (hloop : ∀ s, loop s = (turn s).bind (Turn.follow loop))
    (hturn : turn s = call.bind fun x => some (.leave (f x))) :
    loop s = call.bind fun x => some (f x) := by
  rw [hloop, hturn, Option.bind_assoc]
  rfl

/-! ## Component values -/

namespace Gathered

/-- One tree more, which is not faulty. -/
def join (k : Gathered) (t : Tree) : Gathered :=
  if t.token.isComment then k
  else if t.token.isWhitespace then { k with space := true }
  else k.push t.text

/-- The values that have been read, and those of the trees that come next. -/
def valuesWith (k : Gathered) (ts : List Tree) : List String :=
  k.values ++ componentsAfter (!k.values.isEmpty) k.space ts

theorem valuesWith_nil (k : Gathered) : k.valuesWith [] = k.values := by
  rw [valuesWith, componentsAfter, List.append_nil]

theorem valuesWith_cons (k : Gathered) (t : Tree) (ts : List Tree) :
    k.valuesWith (t :: ts) = (k.join t).valuesWith ts := by
  unfold valuesWith join
  rw [componentsAfter]
  split
  · rfl
  · split
    · rfl
    · rcases k with ⟨_ | ⟨v, vs⟩, _ | _⟩ <;> simp [push]

end Gathered

/-- Some trees have been read on, none of them faulty, and others come next. -/
structure Gathering.Through (g : Gathering) (ts us : List Tree) (e : Cursor) (g' : Gathering) :
    Prop where
  events : g'.reader.events = g.reader.events
  start : g'.start = g.start
  values : g'.gathered.values = g.gathered.valuesWith ts
  passed : g.cursor.Over (rawOf ts) g'.cursor
  before : g'.cursor.Before us e

theorem Gathering.Through.refl (h : g.cursor.Before us e) : g.Through [] us e g where
  events := rfl
  start := rfl
  values := g.gathered.valuesWith_nil.symm
  passed := ⟨rfl, rfl⟩
  before := h

theorem firstFault_cons (pos : Nat) (t : Tree) (ts : List Tree) :
    firstFault pos (t :: ts) = (firstFault pos [t]).or (firstFault (pos + t.width) ts) := by
  simp only [firstFault]
  split <;> rfl

theorem more_of_fault {fault : SyntaxError}
    (h : firstFault g.cursor.position [t] = some fault) (d : Cursor) :
    g.more t.token d = .leave ⟨g.reader.move d, some (.malformed fault)⟩ := by
  unfold firstFault at h
  unfold Gathering.more
  split at h
  · next htoken =>
    obtain rfl := Option.some.inj h
    rw [htoken]
    rfl
  · next htoken =>
    obtain rfl := Option.some.inj h
    rw [htoken]
    rfl
  · cases h

theorem more_of_sound (hnext : g.cursor.next = (some t.token, d))
    (hover : g.cursor.Over t.raw d.settle) (h : firstFault g.cursor.position [t] = none) :
    g.more t.token d = .again ⟨g.reader.move d.settle, g.gathered.join t, g.start⟩ := by
  have hopened := Cursor.opened_of_next hnext
  have hadd : g.gathered.add g.cursor d t.token = .ok (g.gathered.join t, d.settle) := by
    unfold Gathered.add Gathered.join
    split
    · next htoken =>
      rw [Cursor.settle_of_none (by rw [hopened, htoken]; rfl), htoken]
      rfl
    · next htoken =>
      rw [Cursor.settle_of_none (by rw [hopened, htoken]; rfl), htoken]
      rfl
    · next htoken => simp [firstFault, htoken] at h
    · next htoken => simp [firstFault, htoken] at h
    · next hwhitespace hcomment _ _ =>
      have hcomment : ¬t.token.isComment = true := by
        unfold Token.isComment
        split
        · next htoken => exact absurd htoken (hcomment _)
        · exact Bool.false_ne_true
      have hwhitespace : ¬t.token.isWhitespace = true := by
        unfold Token.isWhitespace
        split
        · next htoken => exact absurd htoken (hwhitespace _)
        · exact Bool.false_ne_true
      rw [Cursor.skipBlock_eq_settle, hover.since_eq, if_neg hcomment, if_neg hwhitespace]
      rfl
  rw [Gathering.more, hadd]

/-- The trees up to what ends a loop are its component values, unless one of them is faulty. -/
theorem yields_gathered {turn : Gathering → Option (Turn Gathering)}
    {loop : Gathering → Option Answer} {stops : Token → Bool}
    (hloop : ∀ g, loop g = (turn g).bind (Turn.follow loop))
    (hturn : ∀ {g token d}, g.cursor.next = (some token, d) → stops token = false →
      turn g = some (g.more token d))
    (hk : Passes k) (h : g.cursor.Before (ts ++ us) c) (hts : ∀ t ∈ ts, stops t.token = false)
    (hp : ∀ g', g.Through ts us c g' → Yields ((loop g').bind k) g.reader.events p e) :
    Yields ((loop g).bind k) g.reader.events (guarded g.cursor.position ts p) e := by
  induction ts generalizing g with
  | nil => exact hp g (.refl h)
  | cons t ts ih =>
    obtain ⟨d, hnext, hover, hd⟩ := h.exists_next
    rw [hloop, hturn hnext (hts t List.mem_cons_self), guarded, firstFault_cons]
    cases hfault : firstFault g.cursor.position [t] with
    | some fault =>
      rw [more_of_fault hfault]
      have hfail := yields_fail (g.reader.move d) fault.fault fault.offset e
      exact hfail.bind_fail hk e
    | none =>
      rw [more_of_sound hnext hover hfault]
      have hposition : d.settle.position = g.cursor.position + t.width := hover.2
      rw [Option.none_or, ← hposition]
      refine ih hd (fun t ht => hts t (List.mem_cons_of_mem _ ht)) fun g' hg' => hp g' ?_
      exact {
        events := hg'.events
        start := hg'.start
        values := by rw [hg'.values, Gathered.valuesWith_cons]
        passed := by rw [Tree.rawOf_cons]; exact hover.trans hg'.passed
        before := hg'.before }

end StyleSieve.Css
