import StyleSieve.Proofs.Purge.Draft

/-!
# What a node adds to a draft

A draft carries the groups that stand around and have not been opened, and a font that is held back.
What a node adds to it can be told without them. Outside the definition of a font it writes
something before the groups around are opened and something after (`write_of_none`). Inside it every
head of a group goes out at once, and the rest goes into the definition (`write_of_held`). Neither
asks whether the nodes fit where they stand.
-/

namespace StyleSieve.Purge

open Css
open Text (sameAscii slice)
open Usage (fontName)

@[simp] theorem openings_nil : openings [] = [] := rfl

theorem openings_append (heads heads' : List Event) :
    openings (heads ++ heads') = openings heads ++ openings heads' := List.flatMap_append

/-! ## Families and groups -/

mutual

/-- The families that part of the definition of a font tells, in order. -/
def toldBy (j : Judge) : Node → List String
  | .declaration e => if sameAscii e.data "font-family" then [fontName e.text] else []
  | .ruleset earlier last body _ => if keepsRule j earlier last then toldIn j body else []
  | .block head body _ => if isKeyframes head.atName then [] else toldIn j body
  | _ => []

def toldIn (j : Judge) : List Node → List String
  | [] => []
  | n :: ns => toldBy j n ++ toldIn j ns

end

/-- The last family that the definition of a font tells. -/
def lastFamily (j : Judge) (body : List Node) : String := ((toldIn j body).getLast?).getD ""

mutual

/-- The groups around are opened, inside the definition of a font or outside. A definition opens
them itself if it is wanted. -/
def stirs (j : Judge) (inFont : Bool) : Node → Bool
  | .comment _ => false
  | .declaration _ => false
  | .statement _ => true
  | .ruleset earlier last _ _ => keepsRule j earlier last
  | .block head body _ =>
    if isKeyframes head.atName then j.wantsAnimation head
    else if isConditional head.atName then stirsIn j inFont body
    else if isFontFace head.atName && !inFont then
      stirsIn j true body || j.wantsFont (lastFamily j body)
    else true

def stirsIn (j : Judge) (inFont : Bool) : List Node → Bool
  | [] => false
  | n :: ns => stirs j inFont n || stirsIn j inFont ns

end

mutual

/-- The groups that are opened, in order. -/
def opened (j : Judge) (inFont : Bool) : Node → List Event
  | .ruleset earlier last body _ => if keepsRule j earlier last then openedIn j inFont body else []
  | .block head body _ =>
    if isKeyframes head.atName then []
    else if isConditional head.atName then
      if stirsIn j inFont body then head :: openedIn j inFont body else []
    else openedIn j (inFont || isFontFace head.atName) body
  | _ => []

def openedIn (j : Judge) (inFont : Bool) : List Node → List Event
  | [] => []
  | n :: ns => opened j inFont n ++ openedIn j inFont ns

end

mutual

/-- A group is opened only where the groups around it are opened. -/
theorem opened_eq_nil {j : Judge} {inFont : Bool} : ∀ {n : Node}, stirs j inFont n = false →
    opened j inFont n = []
  | .comment e => fun _ => by simp [opened]
  | .declaration e => fun _ => by simp [opened]
  | .statement e => fun _ => by simp [opened]
  | .ruleset earlier last body stop => fun h => by
    rw [stirs] at h
    rw [opened, h, if_neg Bool.false_ne_true]
  | .block head body stop => fun h => by
    rw [stirs] at h
    rw [opened]
    split
    · rfl
    · next hkeyframes =>
      rw [if_neg hkeyframes] at h
      split
      · next hconditional =>
        rw [if_pos hconditional] at h
        rw [h, if_neg Bool.false_ne_true]
      · next hconditional =>
        rw [if_neg hconditional] at h
        split at h
        · next hfont =>
          rw [Bool.and_eq_true, Bool.not_eq_true'] at hfont
          rw [Bool.or_eq_false_iff] at h
          rw [hfont.1, Bool.or_true]
          exact openedIn_eq_nil h.1
        · simp at h

theorem openedIn_eq_nil {j : Judge} {inFont : Bool} : ∀ {ns : List Node},
    stirsIn j inFont ns = false → openedIn j inFont ns = []
  | [] => fun _ => by rw [openedIn]
  | n :: ns => fun h => by
    rw [stirsIn, Bool.or_eq_false_iff] at h
    rw [openedIn, opened_eq_nil h.1, openedIn_eq_nil h.2, List.append_nil]

end

/-! ## Inside the definition of a font -/

mutual

/-- What part of the definition of a font adds to the definition. -/
def heldMarks (j : Judge) (source : String) : Node → List Mark
  | .comment e =>
    if isKeptComment e then [.text e (.text e.data), .text e (.text "\n")] else []
  | .declaration e => [.text e (.declaration e.data e.values)]
  | .statement e => [.text e (.text e.prelude), .text e (.text ";")]
  | .ruleset earlier last body _ =>
    if keepsRule j earlier last then
      selectorMarks false ((earlier ++ [last]).filter j.keeps)
        ++ .opens last :: (heldMarksIn j source body ++ [.closes last])
    else []
  | .block head body stop =>
    if isKeyframes head.atName then
      if j.wantsAnimation head then
        [.text head (.text (slice source head.span.start stop.span.stop))]
      else []
    else if isConditional head.atName then
      heldMarksIn j source body ++ if stirsIn j true body then [.closes head] else []
    else headMarks head ++ heldMarksIn j source body ++ [.closes head]

def heldMarksIn (j : Judge) (source : String) : List Node → List Mark
  | [] => []
  | n :: ns => heldMarks j source n ++ heldMarksIn j source ns

end

/-- A draft that holds a font back, with what part of the definition adds. -/
def Draft.grow (d : Draft) (h : Held) (forced : Bool) (groups : List Event) (ms : List Mark)
    (families : List String) : Draft where
  out := d.out ++ openings ((if forced then d.pending else []) ++ groups)
  pending := if forced then [] else d.pending
  held := some ⟨h.marks ++ ms, (families.getLast?).getD h.family⟩

mutual

/-- What a node adds inside the definition of a font. -/
theorem write_of_held (j : Judge) (source : String) {d : Draft} {h : Held} :
    ∀ {n : Node}, d.held = some h → Draft.write j source n d
      = d.grow h (stirs j true n) (opened j true n) (heldMarks j source n) (toldBy j n)
  | .comment e, hd => by
    rcases d with ⟨out, pending, held⟩
    obtain rfl : held = some h := hd
    rw [Draft.write, heldMarks]
    split <;> simp [Draft.grow, Draft.put, stirs, opened, toldBy, openings]
  | .declaration e, hd => by
    rcases d with ⟨out, pending, held⟩
    obtain rfl : held = some h := hd
    rw [Draft.write, heldMarks, toldBy, Draft.hear]
    split <;> simp [Draft.grow, Draft.put, stirs, opened, openings]
  | .statement e, hd => by
    simp [Draft.write, Draft.putInside, Draft.openAll, Draft.put, Draft.grow, hd, stirs, opened,
      heldMarks, toldBy]
  | .ruleset earlier last body stop, hd => by
    rw [Draft.write, heldMarks, toldBy, opened, stirs]
    simp only [isEmpty_filter_keeps]
    cases hkeeps : keepsRule j earlier last with
    | false =>
      rcases d with ⟨out, pending, held⟩
      obtain rfl : held = some h := hd
      simp [Draft.grow, openings]
    | true =>
      have hbegin := held_putInside_some hd
        (selectorMarks false ((earlier ++ [last]).filter j.keeps) ++ [.opens last])
      simp only [Bool.not_true, Bool.false_eq_true, if_false, write_of_held_in j source hbegin]
      simp [Draft.grow, Draft.put, Draft.putInside, Draft.openAll, hd, openings_append]
  | .block head body stop, hd => by
    rw [Draft.write, heldMarks, toldBy, opened, stirs]
    have hsome : d.held.isNone = false := by rw [hd]; rfl
    split
    · split
      · next hwants => simp [hwants, Draft.putInside, Draft.openAll, Draft.put, Draft.grow, hd]
      · next hwants =>
        rcases d with ⟨out, pending, held⟩
        obtain rfl : held = some h := hd
        simp [hwants, Draft.grow, openings]
    · split
      -- The head waits with the groups around, and goes out with them if anything inside asks.
      · rw [write_of_held_in j source (d := { d with pending := d.pending ++ [head] }) hd]
        cases hstirs : stirsIn j true body with
        | true => simp [Draft.grow, Draft.put]
        | false => simp [Draft.grow, openedIn_eq_nil hstirs]
      · have hbegin := held_putInside_some hd (headMarks head)
        simp only [hsome, Bool.and_false, Bool.false_eq_true, if_false,
          write_of_held_in j source hbegin]
        simp [Draft.grow, Draft.put, Draft.putInside, Draft.openAll, hd, openings_append]

theorem write_of_held_in (j : Judge) (source : String) {d : Draft} {h : Held} :
    ∀ {ns : List Node}, d.held = some h → Draft.writeIn j source ns d
      = d.grow h (stirsIn j true ns) (openedIn j true ns) (heldMarksIn j source ns) (toldIn j ns)
  | [], hd => by
    rcases d with ⟨out, pending, held⟩
    obtain rfl : held = some h := hd
    simp [Draft.writeIn, Draft.grow, stirsIn, openedIn, heldMarksIn, toldIn, openings]
  | n :: ns, hd => by
    rw [Draft.writeIn, write_of_held j source hd, write_of_held_in j source rfl, stirsIn,
      openedIn, heldMarksIn, toldIn]
    cases hstirs : stirs j true n with
    | true => cases stirsIn j true ns <;> simp [Draft.grow, openings_append, List.getLast?_append]
    | false => simp [Draft.grow, openings_append, List.getLast?_append, opened_eq_nil hstirs]

end

/-! ## Outside the definition of a font -/

/-- What is written while no font is held back: something before the groups around are opened and,
if they are opened, something after. -/
structure Written where
  lead : List Mark
  rest : Option (List Mark)
deriving Repr, DecidableEq

namespace Written

def nothing : Written := ⟨[], none⟩

/-- Marks that open the groups around. -/
def inside (ms : List Mark) : Written := ⟨[], some ms⟩

/-- The groups around are opened. -/
def stirs (w : Written) : Bool := w.rest.isSome

/-- The marks at a place where no group waits to be opened. -/
def marks (w : Written) : List Mark := w.lead ++ w.rest.getD []

/-- Once the groups around are open, everything comes after that. -/
def append (w w' : Written) : Written :=
  match w.rest with
  | none => ⟨w.lead ++ w'.lead, w'.rest⟩
  | some ms => ⟨w.lead, some (ms ++ w'.marks)⟩

/-- A conditional group, which begins where it is first needed. -/
def group (head : Event) (w : Written) : Written :=
  ⟨w.lead, w.rest.map fun ms => headMarks head ++ ms ++ [.closes head]⟩

@[simp] theorem stirs_nothing : nothing.stirs = false := rfl

@[simp] theorem stirs_inside (ms : List Mark) : (inside ms).stirs = true := rfl

@[simp] theorem stirs_append (w w' : Written) : (w.append w').stirs = (w.stirs || w'.stirs) := by
  rcases w with ⟨lead, _ | rest⟩ <;> simp [append, stirs]

@[simp] theorem stirs_group (head : Event) (w : Written) : (w.group head).stirs = w.stirs :=
  Option.isSome_map

@[simp] theorem marks_inside (ms : List Mark) : (inside ms).marks = ms := rfl

@[simp] theorem marks_append (w w' : Written) : (w.append w').marks = w.marks ++ w'.marks := by
  rcases w with ⟨lead, _ | rest⟩ <;> simp [append, marks]

theorem inside_append (ms : List Mark) (w : Written) :
    (inside ms).append w = inside (ms ++ w.marks) := rfl

end Written

/-- The definition of a font, after the groups that are opened in it. -/
def writtenFont (j : Judge) (source : String) (head : Event) (body : List Node) : List Mark :=
  openings (openedIn j true body) ++
    if j.wantsFont (lastFamily j body) then
      headMarks head ++ heldMarksIn j source body ++ [.closes head]
    else []

mutual

/-- What a node writes. -/
def written (j : Judge) (source : String) : Node → Written
  | .comment e =>
    ⟨if isKeptComment e then [.text e (.text e.data), .text e (.text "\n")] else [], none⟩
  | .declaration e => ⟨[.text e (.declaration e.data e.values)], none⟩
  | .statement e => .inside [.text e (.text e.prelude), .text e (.text ";")]
  | .ruleset earlier last body _ =>
    if keepsRule j earlier last then
      .inside (selectorMarks false ((earlier ++ [last]).filter j.keeps)
        ++ .opens last :: ((writtenIn j source body).marks ++ [.closes last]))
    else .nothing
  | .block head body stop =>
    if isKeyframes head.atName then
      if j.wantsAnimation head then
        .inside [.text head (.text (slice source head.span.start stop.span.stop))]
      else .nothing
    else if isConditional head.atName then .group head (writtenIn j source body)
    else if isFontFace head.atName then
      if stirsIn j true body || j.wantsFont (lastFamily j body) then
        .inside (writtenFont j source head body)
      else .nothing
    else .inside (headMarks head ++ (writtenIn j source body).marks ++ [.closes head])

/-- What several nodes write. -/
def writtenIn (j : Judge) (source : String) : List Node → Written
  | [] => .nothing
  | n :: ns => (written j source n).append (writtenIn j source ns)

end

/-- A draft that holds no font back, with what is written for some nodes. -/
def Draft.extend (d : Draft) (w : Written) : Draft where
  out := d.out ++ w.lead ++ (if w.stirs then openings d.pending else []) ++ w.rest.getD []
  pending := if w.stirs then [] else d.pending
  held := none

namespace Draft

variable {d : Draft} {ms : List Mark}

theorem extend_nothing (h : d.held = none) : d.extend .nothing = d := by
  rcases d with ⟨out, pending, held⟩
  obtain rfl : held = none := h
  simp [extend, Written.nothing, Written.stirs]

theorem extend_append (d : Draft) (w w' : Written) :
    (d.extend w).extend w' = d.extend (w.append w') := by
  rcases w with ⟨lead, _ | rest⟩ <;> rcases w' with ⟨lead', _ | rest'⟩ <;>
    simp [extend, Written.append, Written.stirs, Written.marks]

theorem put_eq_extend (h : d.held = none) (ms : List Mark) : d.put ms = d.extend ⟨ms, none⟩ := by
  simp [put, extend, Written.stirs, h]

theorem putInside_eq_extend (h : d.held = none) (ms : List Mark) :
    d.putInside ms = d.extend (.inside ms) := by
  simp [putInside, openAll, put, extend, Written.inside, Written.stirs, h]

/-- A block that is no group, with what is written in it. -/
theorem wrap_eq_extend (h : d.held = none) (heads : List Mark) (w : Written) (e : Event) :
    ((d.putInside heads).extend w).put [.closes e]
      = d.extend (.inside (heads ++ w.marks ++ [.closes e])) := by
  rw [putInside_eq_extend h, put_eq_extend rfl, extend_append, extend_append,
    Written.inside_append, Written.marks_append, List.append_assoc]
  rfl

/-- The definition of a font, with what is written into it. -/
theorem release_eq_extend (d : Draft) (j : Judge) (source : String) (head : Event)
    (body : List Node) :
    (d.grow ⟨headMarks head, ""⟩ (stirsIn j true body) (openedIn j true body)
        (heldMarksIn j source body) (toldIn j body)).release j head
      = d.extend (if stirsIn j true body || j.wantsFont (lastFamily j body) then
          .inside (writtenFont j source head body) else .nothing) := by
  have hrelease : (d.grow ⟨headMarks head, ""⟩ (stirsIn j true body) (openedIn j true body)
        (heldMarksIn j source body) (toldIn j body)).release j head
      = if j.wantsFont (lastFamily j body) then
          Draft.putInside ⟨d.out ++ openings ((if stirsIn j true body then d.pending else [])
            ++ openedIn j true body), if stirsIn j true body then [] else d.pending, none⟩
            (headMarks head ++ heldMarksIn j source body ++ [.closes head])
        else ⟨d.out ++ openings ((if stirsIn j true body then d.pending else [])
            ++ openedIn j true body), if stirsIn j true body then [] else d.pending, none⟩ := rfl
  rw [hrelease]
  cases hstirs : stirsIn j true body with
  | true =>
    split
    · simp [putInside, openAll, put, extend, Written.inside, Written.stirs, writtenFont,
        openings_append, *]
    · simp [extend, Written.inside, Written.stirs, writtenFont, openings_append, *]
  | false =>
    have hopened := openedIn_eq_nil hstirs
    split
    · simp [putInside, openAll, put, extend, Written.inside, Written.stirs, writtenFont, *]
    · simp [extend, Written.nothing, Written.stirs, *]

end Draft

mutual

/-- What a node adds outside the definition of a font. -/
theorem write_of_none (j : Judge) (source : String) {d : Draft} :
    ∀ {n : Node}, d.held = none → Draft.write j source n d = d.extend (written j source n)
  | .comment e, hd => by
    rw [Draft.write, written]
    split
    · exact Draft.put_eq_extend hd _
    · exact (Draft.extend_nothing hd).symm
  | .declaration e, hd => by
    rw [Draft.write, written, Draft.hear_of_held hd]
    exact Draft.put_eq_extend hd _
  | .statement e, hd => by
    rw [Draft.write, written]
    exact Draft.putInside_eq_extend hd _
  | .ruleset earlier last body stop, hd => by
    rw [Draft.write, written]
    simp only [isEmpty_filter_keeps]
    cases hkeeps : keepsRule j earlier last with
    | false => exact (Draft.extend_nothing hd).symm
    | true =>
      simp only [Bool.not_true, Bool.false_eq_true, if_false, if_true]
      rw [write_of_none_in j source (held_putInside hd _), Draft.wrap_eq_extend hd]
      simp only [List.append_assoc, List.cons_append, List.nil_append]
  | .block head body stop, hd => by
    have hnone : d.held.isNone = true := by rw [hd]; rfl
    rw [Draft.write, written]
    split
    · split
      · exact Draft.putInside_eq_extend hd _
      · exact (Draft.extend_nothing hd).symm
    · split
      · rw [write_of_none_in j source (d := { d with pending := d.pending ++ [head] }) hd]
        rcases writtenIn j source body with ⟨lead, _ | rest⟩
        · simp [Draft.extend, Written.group, Written.stirs]
        · simp [Draft.extend, Written.group, Written.stirs, Draft.put, openings, headMarks]
      · rw [hnone, Bool.and_true]
        split
        · rw [write_of_held_in j source (d := { d with held := some ⟨headMarks head, ""⟩ }) rfl]
          exact Draft.release_eq_extend d j source head body
        · rw [write_of_none_in j source (held_putInside hd _), Draft.wrap_eq_extend hd]

theorem write_of_none_in (j : Judge) (source : String) {d : Draft} :
    ∀ {ns : List Node}, d.held = none →
      Draft.writeIn j source ns d = d.extend (writtenIn j source ns)
  | [], hd => by
    rw [Draft.writeIn, writtenIn, Draft.extend_nothing hd]
  | n :: ns, hd => by
    rw [Draft.writeIn, write_of_none j source hd, write_of_none_in j source rfl, writtenIn,
      Draft.extend_append]

end

/-- What is written for a stylesheet. -/
theorem marksOf_eq (j : Judge) (source : String) :
    marksOf j source = (writtenIn j source (outline source)).marks := by
  rw [marksOf, write_of_none_in j source rfl]
  simp [Draft.extend, Draft.start, Written.marks]

end StyleSieve.Purge
