import StyleSieve.Proofs.Purge.Effect
import StyleSieve.Proofs.Purge.Simulation
import Mathlib.Tactic.ByContra

/-!
# Brackets that a purge writes

Whether every block that is opened on the sink is closed there. `balanced_marksOf_iff` has the exact
answer: it is, unless a conditional group is opened inside the definition of a font. The head of
such a group goes out at once, but its closing bracket goes into the definition, which may be
dropped and is written later if not. Brackets inside the texts of selectors, values and animations
do not count.
-/

namespace StyleSieve.Purge

open Css
open Text (slice)

/-! ## Balance -/

/-- Reads the brackets of some marks with the blocks that are open, the innermost first. A closing
bracket has to be that of the innermost block. -/
def settle : List Event → List Mark → Option (List Event)
  | stack, [] => some stack
  | stack, .text _ _ :: ms => settle stack ms
  | stack, .opens e :: ms => settle (e :: stack) ms
  | [], .closes _ :: _ => none
  | e' :: stack, .closes e :: ms => if e' = e then settle stack ms else none

/-- Each opening bracket has a closing one of the same block, and none is left open. -/
def Balanced (ms : List Mark) : Prop := settle [] ms = some []

instance (ms : List Mark) : Decidable (Balanced ms) := inferInstanceAs (Decidable (_ = _))

/-- Opening brackets less closing brackets. -/
def surplus : List Mark → Int
  | [] => 0
  | .text _ _ :: ms => surplus ms
  | .opens _ :: ms => surplus ms + 1
  | .closes _ :: ms => surplus ms - 1

theorem settle_append (stack : List Event) (ms ms' : List Mark) :
    settle stack (ms ++ ms') = (settle stack ms).bind (settle · ms') := by
  fun_induction settle stack ms with
  | case1 => rfl
  | case2 stack e o ms ih => exact ih
  | case3 stack e ms ih => exact ih
  | case4 => rfl
  | case5 stack e ms ih => rw [List.cons_append, settle, if_pos rfl, ih]
  | case6 e' stack e ms hne => rw [List.cons_append, settle, if_neg hne, Option.bind_none]

theorem surplus_append (ms ms' : List Mark) : surplus (ms ++ ms') = surplus ms + surplus ms' := by
  induction ms with
  | nil => simp [surplus]
  | cons m ms ih => cases m <;> simp [surplus, ih] <;> omega

/-- The surplus tells how many more blocks are open afterwards. -/
theorem length_of_settle {stack stack' : List Event} {ms : List Mark}
    (h : settle stack ms = some stack') : (stack'.length : Int) = stack.length + surplus ms := by
  fun_induction settle stack ms with
  | case1 => simp_all [surplus]
  | case2 stack e o ms ih => exact ih h
  | case3 stack e ms ih =>
    have := ih h
    simp only [List.length_cons, surplus] at this ⊢
    omega
  | case4 => simp at h
  | case5 stack e ms ih =>
    have := ih h
    simp only [List.length_cons, surplus] at this ⊢
    omega
  | case6 => simp at h

theorem surplus_of_balanced {ms : List Mark} (h : Balanced ms) : surplus ms = 0 := by
  have := length_of_settle h
  simpa using this.symm

theorem settle_openings (stack heads : List Event) :
    settle stack (openings heads) = some (heads.reverse ++ stack) := by
  induction heads generalizing stack with
  | nil => rfl
  | cons e heads ih =>
    have hcons : openings (e :: heads)
        = .text e (.text e.prelude) :: .opens e :: openings heads := rfl
    rw [hcons, settle, settle, ih]
    simp

theorem surplus_openings (heads : List Event) : surplus (openings heads) = heads.length := by
  have := length_of_settle (settle_openings [] heads)
  simpa using this.symm

theorem settle_selectorMarks (stack : List Event) (comma : Bool) (kept : List Event) :
    settle stack (selectorMarks comma kept) = some stack := by
  induction kept generalizing comma with
  | nil => rfl
  | cons e kept ih => cases comma <;> exact ih true

/-! ## Groups that are opened inside the definition of a font -/

/-- The event begins a conditional group. -/
def beginsGroup (e : Event) : Bool := e.kind == .blockStart && isConditional e.atName

mutual

/-- Part of the definition of a font that opens the groups around it. -/
def forces (j : Judge) : Node → Bool
  | .comment _ => false
  | .declaration _ => false
  | .statement _ => true
  | .ruleset earlier last _ _ => keepsRule j earlier last
  | .block head body _ =>
    if isKeyframes head.atName then j.wantsAnimation head
    else if isConditional head.atName then forcesIn j body
    else true

def forcesIn (j : Judge) : List Node → Bool
  | [] => false
  | n :: ns => forces j n || forcesIn j ns

end

mutual

/-- Part of the definition of a font that opens a group in it. -/
def opensGroup (j : Judge) : Node → Bool
  | .ruleset earlier last body _ => keepsRule j earlier last && opensGroupIn j body
  | .block head body _ =>
    if isKeyframes head.atName then false
    else if isConditional head.atName then forcesIn j body
    else opensGroupIn j body
  | _ => false

def opensGroupIn (j : Judge) : List Node → Bool
  | [] => false
  | n :: ns => opensGroup j n || opensGroupIn j ns

end

mutual

/-- A conditional group is opened inside the definition of a font. -/
def strands (j : Judge) : Node → Bool
  | .ruleset earlier last body _ => keepsRule j earlier last && strandsIn j body
  | .block head body _ =>
    if isKeyframes head.atName then false
    else if isConditional head.atName then strandsIn j body
    else if isFontFace head.atName then opensGroupIn j body
    else strandsIn j body
  | _ => false

def strandsIn (j : Judge) : List Node → Bool
  | [] => false
  | n :: ns => strands j n || strandsIn j ns

end

/-! ## Inside the definition of a font -/

/-- Marks that leave every stack as it was. -/
def Neutral (ms : List Mark) : Prop := ∀ stack, settle stack ms = some stack

theorem neutral_prelude (head : Event) : Neutral [.text head (.text head.prelude)] := fun _ => rfl

/-- What is written into the definition of a font when some groups are opened in it: the closing
brackets of these groups, with balanced text between. -/
structure Strays (groups : List Event) (ms : List Mark) : Prop where
  surplus : surplus ms = -groups.length
  settle : ∀ top stack, beginsGroup top = false →
    settle (top :: stack) ms = if groups.isEmpty then some (top :: stack) else none

namespace Strays

variable {groups groups' : List Event} {ms ms' heads : List Mark} {e : Event}

theorem of_neutral (h : Neutral ms) : Strays [] ms where
  surplus := surplus_of_balanced (h [])
  settle top stack _ := h (top :: stack)

theorem append (h : Strays groups ms) (h' : Strays groups' ms') :
    Strays (groups ++ groups') (ms ++ ms') where
  surplus := by
    rw [surplus_append, h.surplus, h'.surplus, List.length_append]
    omega
  settle top stack htop := by
    rw [settle_append, h.settle top stack htop]
    cases groups with
    | nil => exact h'.settle top stack htop
    | cons g groups => rfl

/-- A block that is no group, with what is written inside it. -/
theorem wrap (h : Strays groups ms) (hheads : Neutral heads) (he : beginsGroup e = false) :
    Strays groups (heads ++ [.opens e] ++ ms ++ [.closes e]) where
  surplus := by
    have hneutral := surplus_of_balanced (hheads [])
    simp only [surplus_append, h.surplus, hneutral, Purge.surplus]
    omega
  settle top stack htop := by
    rw [List.append_assoc, List.append_assoc, settle_append, hheads, Option.bind_some,
      List.singleton_append, Purge.settle, settle_append, h.settle e (top :: stack) he]
    cases groups with
    | nil => simp [Purge.settle]
    | cons g groups => rfl

/-- A group that is opened inside: its closing bracket meets another block. -/
theorem close (h : Strays groups ms) (he : beginsGroup e = true) :
    Strays (e :: groups) (ms ++ [.closes e]) where
  surplus := by
    simp only [surplus_append, h.surplus, Purge.surplus, List.length_cons]
    omega
  settle top stack htop := by
    rw [settle_append, h.settle top stack htop]
    cases groups with
    | nil =>
      have hne : top ≠ e := by
        rintro rfl
        rw [he] at htop
        exact absurd htop (by simp)
      simp [Purge.settle, hne]
    | cons g groups => rfl

end Strays

mutual

theorem stirs_true (j : Judge) : ∀ n : Node, stirs j true n = forces j n
  | .comment e => by rw [stirs, forces]
  | .declaration e => by rw [stirs, forces]
  | .statement e => by rw [stirs, forces]
  | .ruleset earlier last body stop => by rw [stirs, forces]
  | .block head body stop => by
    rw [stirs, forces, stirsIn_true j body]
    simp

theorem stirsIn_true (j : Judge) : ∀ ns : List Node, stirsIn j true ns = forcesIn j ns
  | [] => by rw [stirsIn, forcesIn]
  | n :: ns => by rw [stirsIn, forcesIn, stirs_true j n, stirsIn_true j ns]

end

mutual

/-- Part of the definition of a font opens groups in it as `opensGroup` tells. -/
theorem isEmpty_opened (j : Judge) : ∀ n : Node, (opened j true n).isEmpty = !opensGroup j n
  | .comment e => by simp [opened, opensGroup]
  | .declaration e => by simp [opened, opensGroup]
  | .statement e => by simp [opened, opensGroup]
  | .ruleset earlier last body stop => by
    rw [opened, opensGroup]
    cases keepsRule j earlier last with
    | false => rfl
    | true => exact isEmpty_openedIn j body
  | .block head body stop => by
    rw [opened, opensGroup, stirsIn_true]
    split
    · rfl
    · split
      · cases forcesIn j body <;> rfl
      · exact isEmpty_openedIn j body

theorem isEmpty_openedIn (j : Judge) : ∀ ns : List Node,
    (openedIn j true ns).isEmpty = !opensGroupIn j ns
  | [] => by rw [openedIn, opensGroupIn]; rfl
  | n :: ns => by
    rw [openedIn, opensGroupIn, Bool.not_or, ← isEmpty_opened j n, ← isEmpty_openedIn j ns]
    cases opened j true n <;> rfl

end

mutual

/-- What is written into the definition of a font settles but for the groups opened in it. -/
theorem strays_heldMarks (j : Judge) (source : String) {ctx : Context} : ∀ {n : Node}, n.Fits ctx →
    Strays (opened j true n) (heldMarks j source n)
  | .comment e, .comment kind => by
    have hopened : opened j true (.comment e) = [] := by simp [opened]
    rw [hopened, heldMarks]
    split
    · exact .of_neutral fun _ => rfl
    · exact .of_neutral fun _ => rfl
  | .declaration e, .declaration kind => by
    have hopened : opened j true (.declaration e) = [] := by simp [opened]
    rw [hopened, heldMarks]
    exact .of_neutral fun _ => rfl
  | .statement e, .statement kind => by
    have hopened : opened j true (.statement e) = [] := by simp [opened]
    rw [hopened, heldMarks]
    exact .of_neutral fun _ => rfl
  | .ruleset earlier last body stop, .ruleset hearlier hlast hstop fits => by
    have hlast' : beginsGroup last = false := by simp [beginsGroup, hlast]
    rw [opened, heldMarks]
    split
    · have hbody := (strays_heldMarksIn j source fits).wrap (e := last)
        (settle_selectorMarks · false ((earlier ++ [last]).filter j.keeps)) hlast'
      simpa using hbody
    · exact .of_neutral fun _ => rfl
  | .block head body stop, .block hhead hstop fits => by
    have hbody := strays_heldMarksIn j source fits
    rw [opened, heldMarks]
    split
    · split
      · exact .of_neutral fun _ => rfl
      · exact .of_neutral fun _ => rfl
    · split
      · next hconditional =>
        have hhead' : beginsGroup head = true := by simp [beginsGroup, hhead, hconditional]
        cases hstirs : stirsIn j true body with
        | true => exact hbody.close hhead'
        | false =>
          rw [openedIn_eq_nil hstirs] at hbody
          simpa using hbody
      · next hconditional =>
        have hhead' : beginsGroup head = false := by simp [beginsGroup, hconditional]
        exact hbody.wrap (neutral_prelude head) hhead'

theorem strays_heldMarksIn (j : Judge) (source : String) {ctx : Context} : ∀ {ns : List Node},
    (∀ n ∈ ns, n.Fits ctx) → Strays (openedIn j true ns) (heldMarksIn j source ns)
  | [], _ => by
    rw [openedIn, heldMarksIn]
    exact .of_neutral fun _ => rfl
  | n :: ns, fits => by
    rw [openedIn, heldMarksIn]
    exact (strays_heldMarks j source (fits n List.mem_cons_self)).append
      (strays_heldMarksIn j source fun m hm => fits m (List.mem_cons_of_mem n hm))

end

/-! ## Outside the definition of a font -/

/-- Marks that leave every stack as it was unless a bracket is stranded in them; if one is, they
fail or leave more blocks open. -/
structure Settles (stranded : Bool) (ms : List Mark) : Prop where
  surplus : 0 ≤ surplus ms
  settled : stranded = false → Neutral ms
  unsettled : stranded = true → (∀ stack, settle stack ms = none) ∨ 0 < Purge.surplus ms

namespace Settles

variable {b b' : Bool} {ms ms' heads : List Mark} {e : Event} {groups : List Event}

theorem of_neutral (h : Neutral ms) : Settles false ms where
  surplus := Int.le_of_eq (surplus_of_balanced (h [])).symm
  settled _ := h
  unsettled := by simp

theorem append (h : Settles b ms) (h' : Settles b' ms') : Settles (b || b') (ms ++ ms') where
  surplus := by
    have := h.surplus
    have := h'.surplus
    rw [surplus_append]
    omega
  settled hb stack := by
    rw [Bool.or_eq_false_iff] at hb
    rw [settle_append, h.settled hb.1 stack, Option.bind_some, h'.settled hb.2]
  unsettled hb := by
    have hle := h.surplus
    have hle' := h'.surplus
    rw [surplus_append]
    rw [Bool.or_eq_true] at hb
    rcases hb with hb | hb
    · rcases h.unsettled hb with hnone | hlt
      · exact .inl fun stack => by rw [settle_append, hnone, Option.bind_none]
      · exact .inr (by omega)
    · rcases h'.unsettled hb with hnone | hlt
      · refine .inl fun stack => ?_
        rw [settle_append]
        cases settle stack ms with
        | none => rfl
        | some stack' => exact hnone stack'
      · exact .inr (by omega)

theorem settle_wrap (hheads : Neutral heads) (stack : List Event) :
    settle stack (heads ++ .opens e :: (ms ++ [.closes e]))
      = (settle (e :: stack) ms).bind (settle · [.closes e]) := by
  rw [settle_append, hheads, Option.bind_some, settle, settle_append]

/-- A block with what is written in it. -/
theorem wrap (h : Settles b ms) (hheads : Neutral heads) :
    Settles b (heads ++ .opens e :: (ms ++ [.closes e])) := by
  have hsurplus : Purge.surplus (heads ++ .opens e :: (ms ++ [.closes e])) = Purge.surplus ms := by
    have hneutral := surplus_of_balanced (hheads [])
    simp only [surplus_append, hneutral, Purge.surplus]
    omega
  constructor
  · rw [hsurplus]
    exact h.surplus
  · intro hb stack
    rw [settle_wrap hheads, h.settled hb]
    simp [settle]
  · intro hb
    rcases h.unsettled hb with hnone | hlt
    · exact .inl fun stack => by rw [settle_wrap hheads, hnone, Option.bind_none]
    · exact .inr (by rwa [hsurplus])

/-- Groups that are opened and not closed. -/
theorem openings (h : groups.isEmpty = !b) : Settles b (openings groups) := by
  cases groups with
  | nil =>
    obtain rfl : b = false := by simpa using h
    exact of_neutral fun _ => rfl
  | cons g groups =>
    obtain rfl : b = true := by simpa using h
    have hsurplus := surplus_openings (g :: groups)
    rw [List.length_cons] at hsurplus
    exact ⟨by omega, by simp, fun _ => .inr (by omega)⟩

/-- The definition of a font after the groups that were opened inside it. A closing bracket meets
another block than its own. -/
theorem of_strays (h : groups.isEmpty = !b) (he : beginsGroup e = false)
    (hstrays : Strays groups ms) :
    Settles b (Purge.openings groups ++ (headMarks e ++ ms ++ [.closes e])) := by
  have hhead : headMarks e ++ ms ++ [.closes e]
      = [.text e (.text e.prelude)] ++ .opens e :: (ms ++ [.closes e]) := rfl
  rw [hhead]
  cases groups with
  | nil =>
    obtain rfl : b = false := by simpa using h
    refine of_neutral fun stack => ?_
    rw [openings_nil, List.nil_append, settle_wrap fun _ => rfl, hstrays.settle e stack he]
    simp [settle]
  | cons g groups =>
    obtain rfl : b = true := by simpa using h
    refine ⟨?_, by simp, fun _ => .inl fun stack => ?_⟩
    · have hms := hstrays.surplus
      simp only [surplus_append, surplus_openings, hms, Purge.surplus, List.length_cons]
      omega
    · rw [settle_append, settle_openings, Option.bind_some, settle_wrap fun _ => rfl,
        hstrays.settle e _ he]
      rfl

end Settles

/-- What is written for some nodes settles, apart from brackets that are stranded. -/
structure Written.Accounts (w : Written) (stranded : Bool) : Prop where
  lead : Neutral w.lead
  rest : Settles stranded (w.rest.getD [])

namespace Written.Accounts

variable {b b' : Bool} {w w' : Written} {ms : List Mark}

theorem marks (h : w.Accounts b) : Settles b w.marks :=
  (Settles.of_neutral h.lead).append h.rest

theorem of_neutral (h : Neutral ms) : Accounts ⟨ms, none⟩ false := ⟨h, .of_neutral fun _ => rfl⟩

theorem of_settles (h : Settles b ms) : Accounts (.inside ms) b := ⟨fun _ => rfl, h⟩

theorem append (h : w.Accounts b) (h' : w'.Accounts b') : (w.append w').Accounts (b || b') := by
  rcases w with ⟨lead, _ | rest⟩
  · obtain rfl : b = false := by
      cases b with
      | false => rfl
      | true =>
        rcases h.rest.unsettled rfl with hnone | hlt
        · exact absurd (hnone []) (by simp [settle])
        · simp [Purge.surplus] at hlt
    refine ⟨fun stack => ?_, h'.rest⟩
    rw [Written.append, settle_append, h.lead, Option.bind_some, h'.lead]
  · exact ⟨h.lead, h.rest.append h'.marks⟩

theorem group (h : w.Accounts b) (head : Event) : (w.group head).Accounts b := by
  rcases w with ⟨lead, _ | rest⟩
  · exact h
  · exact ⟨h.lead, h.rest.wrap (neutral_prelude head)⟩

end Written.Accounts

mutual

/-- The marks of a node settle unless a bracket is stranded in it. -/
theorem accounts_written (j : Judge) (source : String) {ctx : Context} : ∀ {n : Node}, n.Fits ctx →
    (written j source n).Accounts (strands j n)
  | .comment e, .comment kind => by
    have hstrands : strands j (.comment e) = false := by simp [strands]
    rw [written, hstrands]
    split
    · exact .of_neutral fun _ => rfl
    · exact .of_neutral fun _ => rfl
  | .declaration e, .declaration kind => by
    have hstrands : strands j (.declaration e) = false := by simp [strands]
    rw [written, hstrands]
    exact .of_neutral fun _ => rfl
  | .statement e, .statement kind => by
    have hstrands : strands j (.statement e) = false := by simp [strands]
    rw [written, hstrands]
    exact .of_settles (.of_neutral fun _ => rfl)
  | .ruleset earlier last body stop, .ruleset hearlier hlast hstop fits => by
    rw [written, strands]
    cases keepsRule j earlier last with
    | false => exact .of_neutral fun _ => rfl
    | true =>
      exact .of_settles ((accounts_writtenIn j source fits).marks.wrap
        (settle_selectorMarks · false _))
  | .block head body stop, .block hhead hstop fits => by
    have hbody := accounts_writtenIn j source fits
    rw [written, strands]
    split
    · split
      · exact .of_settles (.of_neutral fun _ => rfl)
      · exact .of_neutral fun _ => rfl
    · split
      · exact hbody.group head
      · next hconditional =>
        have hhead' : beginsGroup head = false := by simp [beginsGroup, hconditional]
        split
        · have hgroups := isEmpty_openedIn j body
          split
          · refine .of_settles ?_
            rw [writtenFont]
            split
            · exact .of_strays hgroups hhead' (strays_heldMarksIn j source fits)
            · simpa using Settles.openings hgroups
          · next hstirs =>
            rw [Bool.or_eq_true, not_or, Bool.not_eq_true] at hstirs
            rw [openedIn_eq_nil hstirs.1] at hgroups
            have hnone : opensGroupIn j body = false := by simpa using hgroups
            rw [hnone]
            exact .of_neutral fun _ => rfl
        · exact .of_settles (hbody.marks.wrap (neutral_prelude head))

theorem accounts_writtenIn (j : Judge) (source : String) {ctx : Context} : ∀ {ns : List Node},
    (∀ n ∈ ns, n.Fits ctx) → (writtenIn j source ns).Accounts (strandsIn j ns)
  | [], _ => by
    rw [writtenIn, strandsIn]
    exact .of_neutral fun _ => rfl
  | n :: ns, fits => by
    rw [writtenIn, strandsIn]
    exact (accounts_written j source (fits n List.mem_cons_self)).append
      (accounts_writtenIn j source fun m hm => fits m (List.mem_cons_of_mem n hm))

end

/-- A purge that succeeds writes balanced brackets just if no conditional group is opened inside the
definition of a font. -/
theorem balanced_marksOf_iff {j : Judge} {source : String} {sink : Sink} {counts : Counts}
    (h : (purge j source sink).result = .ok counts) :
    (purge j source sink).sink.text = sink.text ++ textOf ((marksOf j source).map Mark.output) ∧
      (Balanced (marksOf j source) ↔ strandsIn j (outline source) = false) := by
  obtain ⟨herror, htext⟩ := purge_text_marksOf h
  refine ⟨htext, ?_⟩
  have hsettles := (accounts_writtenIn j source (outline_fits herror)).marks
  rw [marksOf_eq]
  constructor
  · intro hbalanced
    by_contra hstrands
    rw [Bool.not_eq_false] at hstrands
    rcases hsettles.unsettled hstrands with hnone | hlt
    · rw [Balanced, hnone []] at hbalanced
      exact absurd hbalanced (by simp)
    · rw [surplus_of_balanced hbalanced] at hlt
      simp at hlt
  · intro hstrands
    exact hsettles.settled hstrands []

/-- A group that is opened inside a rule is closed there. -/
theorem balanced_marksOf_nested_group :
    let j : Judge := ⟨.markup [.ofTag "a"], .empty⟩
    let source := "a\x7bx:y;@media print\x7ba\x7bx:y\x7d\x7d\x7d"
    (purge j source .unlimited).sink.text
        = Sink.unlimited.text ++ textOf ((marksOf j source).map Mark.output) ∧
      Balanced (marksOf j source) := by
  intro j source
  obtain ⟨counts, hcounts⟩ : ∃ counts, (purge j source .unlimited).result = .ok counts :=
    exists_counts_of_isOk (by decide +kernel)
  obtain ⟨htext, hiff⟩ := balanced_marksOf_iff hcounts
  exact ⟨htext, hiff.2 (by decide +kernel)⟩

/-- The definition of a font is dropped, but the head of a group inside it has gone out. -/
theorem group_left_open_by_fontFace :
    let j : Judge := ⟨.markup [.ofTag "a"], .empty⟩
    let source := "@font-face\x7bfont-family:X;@media print\x7ba\x7bcolor:red\x7d\x7d\x7d"
    (purge j source .unlimited).result.isOk = true ∧
      (purge j source .unlimited).sink.text = "@media print\x7b" ∧
      (marksOf j source).map Mark.output = [.text "@media print", .text "\x7b"] ∧
      ¬ Balanced (marksOf j source) := by
  decide +kernel

end StyleSieve.Purge
