import StyleSieve.Proofs.Purge.Effect
import StyleSieve.Proofs.Purge.Simulation

/-!
# Pruning

What is kept of a stylesheet as a tree, defined by recursion on its outline, and the text of such a
tree. A purge that succeeds writes the text of the pruned outline (`purge_text_eq_pruned`), provided
that no at-rule stands inside the definition of a font: the engine opens groups around such an
at-rule in another place. Comments at the beginning of a conditional group move before it.
-/

namespace StyleSieve.Purge

open Css
open Text (sameAscii slice)
open Usage (fontName)

/-! ## Pruned trees -/

/-- What is kept of a node. -/
inductive Kept where
  | comment (data : String)
  | declaration (property : String) (values : List String)
  | statement (prelude : String)
  /-- Text that stands as it does in the source. -/
  | copied (text : String)
  | block (prelude : String) (body : List Kept)
deriving Repr

namespace Kept

def isDeclaration : Kept → Bool
  | declaration .. => true
  | _ => false

/-- A conditional group is kept for the sake of something that is no comment and no declaration. -/
def holdsGroup : Kept → Bool
  | comment _ => false
  | declaration .. => false
  | _ => true

mutual

def text : Kept → String
  | comment data => data ++ "\n"
  | declaration property values => property ++ ":" ++ String.join values
  | statement prelude => prelude ++ ";"
  | copied text => text
  | block prelude body => prelude ++ "\x7b" ++ texts body ++ "\x7d"

/-- The text of several things. A declaration is separated from what follows. -/
def texts : List Kept → String
  | [] => ""
  | k :: ks => text k ++ (if k.isDeclaration && !ks.isEmpty then ";" else "") ++ texts ks

end

/-- The things before the first that holds a group. -/
def lead (ks : List Kept) : List Kept := ks.takeWhile (!·.holdsGroup)

/-- From the first thing that holds a group. -/
def rest (ks : List Kept) : List Kept := ks.dropWhile (!·.holdsGroup)

/-- A conditional group with what is kept inside. It begins where it is first needed, and does not
begin at all if nothing holds it. A kept comment holds no group: those up to the first thing that
does are laid before the group, all of them if the group is removed, and later ones stay in it. -/
def group (prelude : String) (ks : List Kept) : List Kept :=
  lead ks ++ if (rest ks).isEmpty then [] else [block prelude (rest ks)]

end Kept

/-- The family that a declaration tells. -/
def familyOf? : Node → Option String
  | .declaration e => if sameAscii e.data "font-family" then some (fontName e.text) else none
  | _ => none

/-- The last family that the body of the definition of a font tells. -/
def familyOf (body : List Node) : String := ((body.filterMap familyOf?).getLast?).getD ""

mutual

/-- What is kept of a node. -/
def pruned (j : Judge) (source : String) : Node → List Kept
  | .comment e => if isKeptComment e then [.comment e.data] else []
  | .declaration e => [.declaration e.data e.values]
  | .statement e => [.statement e.prelude]
  | .ruleset earlier last body _ =>
    let kept := (earlier ++ [last]).filter j.keeps
    if kept.isEmpty then []
    else [.block (",".intercalate (kept.map Event.text)) (prunedIn j source body)]
  | .block head body stop =>
    if isKeyframes head.atName then
      if j.wantsAnimation head then [.copied (slice source head.span.start stop.span.stop)] else []
    else if isConditional head.atName then Kept.group head.prelude (prunedIn j source body)
    else if isFontFace head.atName then
      if j.wantsFont (familyOf body) then [.block head.prelude (prunedIn j source body)] else []
    else [.block head.prelude (prunedIn j source body)]

/-- What is kept of several nodes. -/
def prunedIn (j : Judge) (source : String) : List Node → List Kept
  | [] => []
  | n :: ns => pruned j source n ++ prunedIn j source ns

end

/-! ## Families that a font tells -/

theorem toldBy_declaration (j : Judge) (e : Event) :
    toldBy j (.declaration e) = (familyOf? (.declaration e)).toList := by
  rw [toldBy, familyOf?]
  split <;> rfl

mutual

theorem toldBy_eq_nil (j : Judge) : ∀ {n : Node},
    (∀ m ∈ Node.nodesIn [n], familyOf? m = none) → toldBy j n = []
  | .comment e, _ => by simp [toldBy]
  | .declaration e, h => by
    rw [toldBy_declaration, h _ (Node.mem_nodesIn_self List.mem_cons_self), Option.toList_none]
  | .statement e, _ => by simp [toldBy]
  | .ruleset earlier last body stop, h => by
    have hbody : toldIn j body = [] := toldIn_eq_nil j fun m hm => h m (Node.mem_nodesIn_of_body hm)
    rw [toldBy, hbody, ite_self]
  | .block head body stop, h => by
    have hbody : toldIn j body = [] := toldIn_eq_nil j fun m hm => h m (Node.mem_nodesIn_of_body hm)
    rw [toldBy, hbody, ite_self]

theorem toldIn_eq_nil (j : Judge) : ∀ {ns : List Node},
    (∀ m ∈ Node.nodesIn ns, familyOf? m = none) → toldIn j ns = []
  | [], _ => by rw [toldIn]
  | n :: ns, h => by
    rw [toldIn, toldBy_eq_nil j fun m hm => h m (Node.mem_nodesIn_of_head hm),
      toldIn_eq_nil j fun m hm => h m (Node.mem_nodesIn_of_tail hm), List.append_nil]

end

/-- A font whose blocks tell no family has the one that it declares. -/
theorem lastFamily_eq_familyOf (j : Judge) {body : List Node}
    (h : ∀ n ∈ body, ∀ m ∈ Node.nodesIn n.body, familyOf? m = none) :
    lastFamily j body = familyOf body := by
  have htold : toldIn j body = body.filterMap familyOf? := by
    induction body with
    | nil => rw [toldIn, List.filterMap_nil]
    | cons n body ih =>
      have hn : toldBy j n = (familyOf? n).toList := by
        have hinside := toldIn_eq_nil j (h n List.mem_cons_self)
        cases n with
        | declaration e => exact toldBy_declaration j e
        | ruleset earlier last inner stop =>
          rw [toldBy, show toldIn j inner = [] from hinside, ite_self]
          rfl
        | block head inner stop =>
          rw [toldBy, show toldIn j inner = [] from hinside, ite_self]
          rfl
        | _ => simp [toldBy, familyOf?]
      rw [toldIn, hn, ih fun m hm => h m (List.mem_cons_of_mem n hm), List.filterMap_cons]
      cases familyOf? n <;> rfl
  rw [lastFamily, familyOf, htold]

/-! ## Outputs for a pruned tree -/

namespace Kept

mutual

def outputs : Kept → List Output
  | comment data => [.text data, .text "\n"]
  | declaration property values => [.declaration property values]
  | statement prelude => [.text prelude, .text ";"]
  | copied text => [.text text]
  | block prelude body => .text prelude :: .text "\x7b" :: (outputsIn body ++ [.close])

def outputsIn : List Kept → List Output
  | [] => []
  | k :: ks => outputs k ++ outputsIn ks

end

theorem outputsIn_nil : outputsIn [] = [] := by rw [outputsIn]

theorem outputsIn_singleton (k : Kept) : outputsIn [k] = k.outputs := by simp [outputsIn]

theorem outputsIn_append (ks ks' : List Kept) :
    outputsIn (ks ++ ks') = outputsIn ks ++ outputsIn ks' := by
  induction ks with
  | nil => rw [outputsIn_nil, List.nil_append, List.nil_append]
  | cons k ks ih => rw [List.cons_append, outputsIn, outputsIn, ih, List.append_assoc]

mutual

/-- A separator comes before the text if it is due, and is due after it for a declaration. -/
theorem textFrom_outputs (due : Bool) : ∀ k : Kept,
    textFrom due k.outputs = (if due then ";" else "") ++ k.text
      ∧ dueAfter due k.outputs = k.isDeclaration
  | comment data => by
    rw [outputs, text, textFrom_text, textFrom_text, textFrom_nil]
    exact ⟨by simp [String.append_assoc], rfl⟩
  | declaration property values => by
    rw [outputs, text, textFrom_declaration]
    exact ⟨by simp [String.append_assoc], rfl⟩
  | statement prelude => by
    rw [outputs, text, textFrom_text, textFrom_text, textFrom_nil]
    exact ⟨by simp [String.append_assoc], rfl⟩
  | copied t => by
    rw [outputs, text, textFrom_text, textFrom_nil]
    exact ⟨by simp, rfl⟩
  | block prelude body => by
    have hbody := textFrom_outputsIn false body
    rw [outputs, text, textFrom_text, textFrom_text, textFrom_append, textFrom_close, hbody]
    refine ⟨by simp [String.append_assoc], ?_⟩
    rw [← List.cons_append, ← List.cons_append, dueAfter_append]
    rfl

theorem textFrom_outputsIn (due : Bool) : ∀ ks : List Kept,
    textFrom due (outputsIn ks) = (if due && !ks.isEmpty then ";" else "") ++ texts ks
  | [] => by
    rw [outputsIn, texts, textFrom_nil]
    simp
  | k :: ks => by
    obtain ⟨htext, hdue⟩ := textFrom_outputs due k
    rw [outputsIn, textFrom_append, htext, hdue, textFrom_outputsIn k.isDeclaration ks, texts]
    simp [String.append_assoc]

end

theorem lead_append_rest (ks : List Kept) : lead ks ++ rest ks = ks :=
  List.takeWhile_append_dropWhile

theorem outputsIn_lead_rest (ks : List Kept) :
    outputsIn (lead ks) ++ outputsIn (rest ks) = outputsIn ks := by
  rw [← outputsIn_append, lead_append_rest]

theorem lead_of_rest_nil {ks : List Kept} (h : rest ks = []) : lead ks = ks := by
  have hks := lead_append_rest ks
  rwa [h, List.append_nil] at hks

theorem lead_append (ks ks' : List Kept) :
    lead (ks ++ ks') = if (rest ks).isEmpty then ks ++ lead ks' else lead ks := by
  induction ks with
  | nil => rfl
  | cons k ks ih =>
    unfold lead rest at ih ⊢
    cases hk : k.holdsGroup with
    | true => simp [hk]
    | false =>
      simp only [List.cons_append, List.takeWhile_cons, List.dropWhile_cons, hk, Bool.not_false,
        if_true, ih]
      split <;> rfl

theorem rest_append (ks ks' : List Kept) :
    rest (ks ++ ks') = if (rest ks).isEmpty then rest ks' else rest ks ++ ks' := by
  unfold rest
  rw [List.dropWhile_append]

theorem isEmpty_rest_append (ks ks' : List Kept) :
    (rest (ks ++ ks')).isEmpty = ((rest ks).isEmpty && (rest ks').isEmpty) := by
  rw [rest_append]
  cases rest ks <;> simp

theorem rest_lead (ks : List Kept) : rest (lead ks) = [] := by
  induction ks with
  | nil => rfl
  | cons k ks ih =>
    unfold rest lead at ih ⊢
    cases hk : k.holdsGroup <;> simp [hk, ih]

theorem lead_group (prelude : String) (ks : List Kept) : lead (group prelude ks) = lead ks := by
  rw [group, lead_append, rest_lead, List.isEmpty_nil, if_pos rfl]
  split <;> exact List.append_nil _

theorem rest_group (prelude : String) (ks : List Kept) :
    rest (group prelude ks) = if (rest ks).isEmpty then [] else [block prelude (rest ks)] := by
  rw [group, rest_append, rest_lead, List.isEmpty_nil, if_pos rfl]
  split <;> rfl

end Kept

/-! ## What is written for a pruned tree -/

/-- What is written stands for what is kept: that which holds a group comes after the groups around
have been opened, and the rest before. -/
structure Written.Renders (w : Written) (ks : List Kept) : Prop where
  lead : Alike (w.lead.map Mark.output) (Kept.outputsIn (Kept.lead ks))
  stirs : w.stirs = !(Kept.rest ks).isEmpty
  rest : Alike ((w.rest.getD []).map Mark.output) (Kept.outputsIn (Kept.rest ks))

namespace Written.Renders

variable {w w' : Written} {ks ks' : List Kept} {k : Kept} {ms : List Mark}

theorem marks (h : w.Renders ks) : Alike (w.marks.map Mark.output) (Kept.outputsIn ks) := by
  rw [Written.marks, List.map_append, ← Kept.outputsIn_lead_rest]
  exact h.lead.append h.rest

theorem nothing : Written.nothing.Renders [] := ⟨Alike.refl _, rfl, Alike.refl _⟩

/-- Something that holds no group does not open the groups around. -/
theorem before (hk : k.holdsGroup = false) (h : Alike (ms.map Mark.output) k.outputs) :
    Written.Renders ⟨ms, none⟩ [k] where
  lead := by simpa [Kept.lead, hk, Kept.outputsIn_singleton] using h
  stirs := by simp [Written.stirs, Kept.rest, hk]
  rest := by simpa [Kept.rest, hk, Kept.outputsIn_nil] using Alike.refl []

/-- Something that holds a group opens the groups around. -/
theorem inside (hk : k.holdsGroup = true) (h : Alike (ms.map Mark.output) k.outputs) :
    (Written.inside ms).Renders [k] where
  lead := by simpa [Written.inside, Kept.lead, hk, Kept.outputsIn_nil] using Alike.refl []
  stirs := by simp [Kept.rest, hk]
  rest := by simpa [Written.inside, Kept.rest, hk, Kept.outputsIn_singleton] using h

theorem append (h : w.Renders ks) (h' : w'.Renders ks') :
    (w.append w').Renders (ks ++ ks') where
  lead := by
    have hlead := h.lead
    have hstirs := h.stirs
    -- As long as nothing holds a group, all that follows may still stand before one is opened.
    rcases w with ⟨lead, _ | rest⟩
    · have hrest : (Kept.rest ks).isEmpty = true := by simpa [Written.stirs] using hstirs
      rw [Kept.lead_of_rest_nil (List.isEmpty_iff.1 hrest)] at hlead
      rw [Kept.lead_append, if_pos hrest, Kept.outputsIn_append, Written.append, List.map_append]
      exact hlead.append h'.lead
    · have hrest : (Kept.rest ks).isEmpty = false := by simpa [Written.stirs] using hstirs
      rw [Kept.lead_append, hrest, if_neg Bool.false_ne_true]
      exact hlead
  stirs := by
    rw [stirs_append, h.stirs, h'.stirs, Kept.isEmpty_rest_append, Bool.not_and]
  rest := by
    have hrests := h.rest
    have hstirs := h.stirs
    rcases w with ⟨lead, _ | rest⟩
    · have hrest : (Kept.rest ks).isEmpty = true := by simpa [Written.stirs] using hstirs
      rw [Kept.rest_append, if_pos hrest]
      exact h'.rest
    · have hrest : (Kept.rest ks).isEmpty = false := by simpa [Written.stirs] using hstirs
      rw [Kept.rest_append, hrest, if_neg Bool.false_ne_true, Kept.outputsIn_append,
        Written.append, Option.getD_some, List.map_append]
      exact hrests.append h'.marks

/-- A block with a head, written around what is kept inside. -/
theorem wrap {prelude : String} {heads : List Mark} {e : Event}
    (hheads : Alike (heads.map Mark.output) [.text prelude, .text "\x7b"]) (h : w.Renders ks) :
    (Written.inside (heads ++ w.marks ++ [.closes e])).Renders [.block prelude ks] := by
  refine inside rfl ?_
  rw [List.map_append, List.map_append, Kept.outputs]
  exact (hheads.append h.marks).append (Alike.refl [.close])

/-- A conditional group stands as long as nothing inside holds it. -/
theorem group (h : w.Renders ks) (head : Event) :
    (w.group head).Renders (Kept.group head.prelude ks) where
  lead := by
    rw [Kept.lead_group]
    exact h.lead
  stirs := by
    rw [stirs_group, h.stirs, Kept.rest_group]
    split <;> simp [*]
  rest := by
    have hrests := h.rest
    have hstirs := h.stirs
    rw [Kept.rest_group]
    rcases w with ⟨lead, _ | rest⟩
    · have hrest : (Kept.rest ks).isEmpty = true := by simpa [Written.stirs] using hstirs
      rw [if_pos hrest, Kept.outputsIn_nil]
      exact Alike.refl []
    · have hrest : (Kept.rest ks).isEmpty = false := by simpa [Written.stirs] using hstirs
      rw [hrest, if_neg Bool.false_ne_true, Kept.outputsIn_singleton, Kept.outputs]
      have hheads : Alike ((headMarks head).map Mark.output) [.text head.prelude, .text "\x7b"] :=
        Alike.refl _
      have hblock := (hheads.append hrests).append (Alike.refl ([Mark.closes head].map Mark.output))
      rw [← List.map_append, ← List.map_append] at hblock
      exact hblock

end Written.Renders

/-- The selectors that are kept may be handed over as one text. -/
theorem alike_selectorMarks {kept : List Event} (h : kept ≠ []) :
    Alike ((selectorMarks false kept).map Mark.output)
      [.text (",".intercalate (kept.map Event.text))] := by
  induction kept with
  | nil => exact absurd rfl h
  | cons e kept ih =>
    cases kept with
    | nil =>
      rw [List.map_singleton, String.intercalate_singleton]
      exact Alike.refl _
    | cons e' kept =>
      have hothers := (ih (by simp)).cons (.text ",")
      have hall := (hothers.trans (Alike.merged _ _ [])).cons (.text e.text)
      rw [List.map_cons, List.map_cons, String.intercalate_cons_cons, String.append_assoc]
      exact hall.trans (Alike.merged _ _ [])

/-! ## Purging is pruning -/

/-- No at-rule stands inside the definition of a font. -/
def FontsArePlain (ns : List Node) : Prop :=
  ∀ face ∈ Node.nodesIn ns, face.definesFont → ∀ n ∈ Node.nodesIn face.body, n.isAtRule = false

instance (ns : List Node) : Decidable (FontsArePlain ns) :=
  inferInstanceAs (Decidable (∀ face ∈ Node.nodesIn ns, face.definesFont →
    ∀ n ∈ Node.nodesIn face.body, n.isAtRule = false))

namespace FontsArePlain

theorem head {n : Node} {ns : List Node} (h : FontsArePlain (n :: ns)) : FontsArePlain [n] :=
  fun face hface => h face (Node.mem_nodesIn_of_head hface)

theorem tail {n : Node} {ns : List Node} (h : FontsArePlain (n :: ns)) : FontsArePlain ns :=
  fun face hface => h face (Node.mem_nodesIn_of_tail hface)

theorem body {n : Node} {ns : List Node} (h : FontsArePlain (n :: ns)) : FontsArePlain n.body :=
  fun face hface => h face (Node.mem_nodesIn_of_body hface)

end FontsArePlain

/-- The definition of a font holds declarations. -/
theorem ofAtRule_of_isFontFace {head : Event} (h : isFontFace head.atName) :
    Context.ofAtRule head.data = .declarations := by
  have hname : plainName head.atName = "font-face" := by simpa [isFontFace] using h
  have hrules : holdsRules head.atName = false := by
    rw [holdsRules, isConditional, hname]
    decide
  exact if_neg (by rw [← Event.atName, hrules]; simp)

/-- A comment or a declaration in the definition of a font is written into it. -/
theorem alike_heldMarks (j : Judge) (source : String) {n : Node} (hfits : n.Fits .declarations)
    (hplain : n.isAtRule = false) :
    stirs j true n = false ∧
      Alike ((heldMarks j source n).map Mark.output) (Kept.outputsIn (pruned j source n)) := by
  cases hfits with
  | comment kind =>
    rw [heldMarks, pruned]
    split
    · rw [Kept.outputsIn_singleton]
      exact ⟨rfl, Alike.refl _⟩
    · exact ⟨rfl, Alike.refl _⟩
  | declaration kind =>
    rw [heldMarks, pruned, Kept.outputsIn_singleton]
    exact ⟨rfl, Alike.refl _⟩
  | statement kind => simp [Node.isAtRule] at hplain
  | block hhead hstop fits => simp [Node.isAtRule] at hplain

theorem alike_heldMarksIn (j : Judge) (source : String) {body : List Node}
    (hbody : ∀ n ∈ body, n.Fits .declarations ∧ n.isAtRule = false) :
    stirsIn j true body = false ∧
      Alike ((heldMarksIn j source body).map Mark.output)
        (Kept.outputsIn (prunedIn j source body)) := by
  induction body with
  | nil =>
    rw [stirsIn, heldMarksIn, prunedIn]
    exact ⟨rfl, Alike.refl _⟩
  | cons n body ih =>
    obtain ⟨hfits, hplain⟩ := hbody n List.mem_cons_self
    obtain ⟨hstirs, halike⟩ := alike_heldMarks j source hfits hplain
    obtain ⟨hstirs', halike'⟩ := ih fun m hm => hbody m (List.mem_cons_of_mem n hm)
    rw [stirsIn, hstirs, hstirs', heldMarksIn, prunedIn, List.map_append, Kept.outputsIn_append]
    exact ⟨rfl, halike.append halike'⟩

/-- The definition of a font is written in one piece or not at all. -/
theorem renders_fontFace (j : Judge) (source : String) {head stop : Event} {body : List Node}
    (hfontFace : isFontFace head.atName) (hfits : ∀ n ∈ body, n.Fits (.ofAtRule head.data))
    (hplain : FontsArePlain [.block head body stop]) :
    (if stirsIn j true body || j.wantsFont (lastFamily j body) then
        Written.inside (writtenFont j source head body) else .nothing).Renders
      (if j.wantsFont (familyOf body) then [.block head.prelude (prunedIn j source body)]
        else []) := by
  have hbody : ∀ n ∈ body, n.Fits .declarations ∧ n.isAtRule = false := by
    intro n hn
    refine ⟨ofAtRule_of_isFontFace hfontFace ▸ hfits n hn, ?_⟩
    refine hplain (.block head body stop) ?_ hfontFace n (Node.mem_nodesIn_self hn)
    exact Node.mem_nodesIn_self List.mem_cons_self
  obtain ⟨hstirs, halike⟩ := alike_heldMarksIn j source hbody
  have hfamily : lastFamily j body = familyOf body := by
    refine lastFamily_eq_familyOf j fun n hn m hm => ?_
    obtain ⟨hflat, hrule⟩ := hbody n hn
    cases hflat with
    | block hhead hstop fits => simp [Node.isAtRule] at hrule
    | _ => simp [Node.body] at hm
  rw [hstirs, hfamily, Bool.false_or, writtenFont, openedIn_eq_nil hstirs, openings_nil, hfamily]
  split
  · refine .inside rfl ?_
    rw [List.nil_append, List.map_append, List.map_append, Kept.outputs]
    exact ((Alike.refl _).append halike).append (Alike.refl _)
  · exact .nothing

mutual

/-- Outside the definition of a font, what is kept of a node is written. -/
theorem renders_written (j : Judge) (source : String) {ctx : Context} :
    ∀ {n : Node}, n.Fits ctx → FontsArePlain [n] →
      (written j source n).Renders (pruned j source n)
  | .comment e, .comment kind, _ => by
    rw [written, pruned]
    split
    · exact .before rfl (Alike.refl _)
    · exact .nothing
  | .declaration e, .declaration kind, _ => by
    rw [written, pruned]
    exact .before rfl (Alike.refl _)
  | .statement e, .statement kind, _ => by
    rw [written, pruned]
    exact .inside rfl (Alike.refl _)
  | .ruleset earlier last body stop, .ruleset hearlier hlast hstop fits, hplain => by
    have hbody := renders_writtenIn j source fits hplain.body
    have hempty := isEmpty_filter_keeps j earlier last
    rw [written, pruned]
    cases hkeeps : keepsRule j earlier last with
    | false =>
      rw [hkeeps, Bool.not_false] at hempty
      simp only [hempty, if_true]
      exact .nothing
    | true =>
      rw [hkeeps, Bool.not_true] at hempty
      have hkept : (earlier ++ [last]).filter j.keeps ≠ [] := List.isEmpty_eq_false_iff.1 hempty
      have hheads := (alike_selectorMarks hkept).append (Alike.refl [Mark.output (.opens last)])
      rw [← List.map_singleton, ← List.map_append] at hheads
      have hblock := hbody.wrap (e := last) hheads
      simp only [hempty, Bool.false_eq_true, if_false, if_true]
      simpa using hblock
  | .block head body stop, .block hhead hstop fits, hplain => by
    have hbody := renders_writtenIn j source fits hplain.body
    rw [written, pruned]
    split
    · split
      · exact .inside rfl (Alike.refl _)
      · exact .nothing
    · split
      · exact hbody.group head
      · split
        · next hfontFace => exact renders_fontFace j source hfontFace fits hplain
        · exact hbody.wrap (Alike.refl _)

theorem renders_writtenIn (j : Judge) (source : String) {ctx : Context} :
    ∀ {ns : List Node}, (∀ n ∈ ns, n.Fits ctx) → FontsArePlain ns →
      (writtenIn j source ns).Renders (prunedIn j source ns)
  | [], _, _ => by
    rw [writtenIn, prunedIn]
    exact .nothing
  | n :: ns, fits, hplain => by
    rw [writtenIn, prunedIn]
    exact (renders_written j source (fits n List.mem_cons_self) hplain.head).append
      (renders_writtenIn j source (fun m hm => fits m (List.mem_cons_of_mem n hm)) hplain.tail)

end

/-- What a purge that succeeds has written is the text of the pruned outline. -/
theorem sink_text_of_ok {j : Judge} {source : String} {sink : Sink} {counts : Counts}
    (h : (purge j source sink).result = .ok counts) (hplain : FontsArePlain (outline source)) :
    (purge j source sink).sink.text
      = sink.text ++ Kept.texts (prunedIn j source (outline source)) := by
  obtain ⟨herror, htext⟩ := purge_text_marksOf h
  have hrenders := renders_writtenIn j source (outline_fits herror) hplain
  rw [htext, marksOf_eq, hrenders.marks.textOf_eq, textOf_eq, Kept.textFrom_outputsIn]
  simp

/-- A purge that succeeds writes the text of the pruned outline, and the outline holds the events
of the stylesheet in order. Kept comments at the beginning of a conditional group come out before
it, and those of a group that is removed come out in its place (`Kept.group`). -/
theorem purge_text_eq_pruned {j : Judge} {source : String} {sink : Sink} {counts : Counts}
    (h : (purge j source sink).result = .ok counts) (hplain : FontsArePlain (outline source)) :
    Node.eventsIn (outline source) = (events source).events ∧
      (purge j source sink).sink.text
        = sink.text ++ Kept.texts (prunedIn j source (outline source)) :=
  ⟨outline_events (exists_run_of_purge h).1, sink_text_of_ok h hplain⟩

/-- One rule of a group is kept for its tag, and a font for the rule. -/
theorem purge_text_eq_pruned_group :
    let j : Judge := ⟨.markup [.ofTag "a"], ⟨[("X", [.ofTag "a"])], []⟩⟩
    let source := "@media print\x7ba\x7bx:y\x7db\x7bx:y\x7d\x7d@font-face\x7bfont-family:X\x7d"
    FontsArePlain (outline source) ∧
      (purge j source .unlimited).sink.text
        = Sink.unlimited.text ++ Kept.texts (prunedIn j source (outline source)) := by
  intro j source
  have hplain : FontsArePlain (outline source) := by decide +kernel
  obtain ⟨counts, hcounts⟩ : ∃ counts, (purge j source .unlimited).result = .ok counts :=
    exists_counts_of_isOk (by decide +kernel)
  exact ⟨hplain, (purge_text_eq_pruned hcounts hplain).2⟩

end StyleSieve.Purge
