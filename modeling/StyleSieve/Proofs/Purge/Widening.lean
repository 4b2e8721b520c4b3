import Mathlib.Data.List.Flatten
import Mathlib.Data.List.Perm.Subperm
import StyleSieve.Proofs.Purge.Fonts
import StyleSieve.Proofs.Purge.Pruning
import StyleSieve.Proofs.Purge.Tally
import StyleSieve.Proofs.Usage.Search

/-!
# Purging with more in use

With an index that includes more, a purge writes at least what it wrote before and keeps no fewer
selectors (`marksOf_subperm`). What two purges write is compared node by node: `Written.Within`
relates the smaller to the larger one, and holds of every node (`within_written`). The order may
change, since a comment stands before a group that is opened after it. The definition of a font has
to tell the same family to both, as it does if no rule inside it declares one
(`RulesAreSilent.familiesAgree`); otherwise the larger index may lose the font
(`font_lost_to_larger_index`).
-/

namespace StyleSieve.Purge

open Css
open Text (slice)
open Usage (Index References)

/-! ## Judges -/

/-- Whatever the first judge keeps and wants, the second does too. -/
structure Judge.Within (i j : Judge) : Prop where
  keeps : ∀ e, i.keeps e = true → j.keeps e = true
  wantsAnimation : ∀ head, i.wantsAnimation head = true → j.wantsAnimation head = true
  wantsFont : ∀ family, i.wantsFont family = true → j.wantsFont family = true

theorem Judge.within_of_includes {index index' : Index}
    (h : ∀ chain, index.includes chain = true → index'.includes chain = true) (refs : References) :
    Judge.Within ⟨index, refs⟩ ⟨index', refs⟩ where
  keeps e he := by
    rw [keeps] at he ⊢
    split at he
    · next chain hchain => exact h chain he
    · exact absurd he Bool.false_ne_true
  wantsAnimation head hhead := by
    obtain ⟨chain, hchain, hincludes⟩ := List.any_eq_true.1 hhead
    exact List.any_eq_true.2 ⟨chain, hchain, h chain hincludes⟩
  wantsFont family hfamily := by
    obtain ⟨chain, hchain, hincludes⟩ := List.any_eq_true.1 hfamily
    exact List.any_eq_true.2 ⟨chain, hchain, h chain hincludes⟩

namespace Judge.Within

variable {i j : Judge}

theorem filter_sublist (h : i.Within j) (es : List Event) :
    (es.filter i.keeps).Sublist (es.filter j.keeps) :=
  List.monotone_filter_right es h.keeps

theorem keepsRule (h : i.Within j) {earlier : List Event} {last : Event}
    (hkeeps : keepsRule i earlier last = true) : keepsRule j earlier last = true := by
  obtain ⟨e, he, hkept⟩ := List.any_eq_true.1 hkeeps
  exact List.any_eq_true.2 ⟨e, he, h.keeps e hkept⟩

end Judge.Within

/-! ## Selectors that are kept -/

mutual

theorem filter_decided_sublist {i j : Judge} (h : i.Within j) : ∀ n : Node,
    ((decided i n).filter i.keeps).Sublist ((decided j n).filter j.keeps)
  | .comment e => by simp [decided]
  | .declaration e => by simp [decided]
  | .statement e => by simp [decided]
  | .ruleset earlier last body stop => by
    rw [decided, decided, List.filter_append (earlier ++ [last]),
      List.filter_append (earlier ++ [last])]
    refine (h.filter_sublist _).append ?_
    by_cases hkeeps : keepsRule i earlier last = true
    · rw [if_pos hkeeps, if_pos (h.keepsRule hkeeps)]
      exact filter_decidedIn_sublist h body
    · rw [if_neg hkeeps]
      exact List.nil_sublist _
  | .block head body stop => by
    rw [decided, decided]
    split
    · exact List.Sublist.refl _
    · exact filter_decidedIn_sublist h body

theorem filter_decidedIn_sublist {i j : Judge} (h : i.Within j) : ∀ ns : List Node,
    ((decidedIn i ns).filter i.keeps).Sublist ((decidedIn j ns).filter j.keeps)
  | [] => by simp [decidedIn]
  | n :: ns => by
    rw [decidedIn, decidedIn, List.filter_append, List.filter_append]
    exact (filter_decided_sublist h n).append (filter_decidedIn_sublist h ns)

end

/-! ## Inside the definition of a font -/

theorem selectorMarks_sublist {kept kept' : List Event} (h : kept.Sublist kept')
    {comma comma' : Bool} (hcomma : comma = true → comma' = true) :
    (selectorMarks comma kept).Sublist (selectorMarks comma' kept') := by
  induction h generalizing comma comma' with
  | slnil => exact List.Sublist.refl _
  | cons e _ ih =>
    rw [selectorMarks]
    exact ((ih fun _ => rfl).cons _).trans (List.sublist_append_right _ _)
  | cons_cons e _ ih =>
    rw [selectorMarks, selectorMarks]
    refine List.Sublist.append ?_ ((ih fun h => h).cons_cons _)
    cases comma with
    | false => exact List.nil_sublist _
    | true =>
      rw [hcomma rfl]

mutual

theorem stirs_mono {i j : Judge} (h : i.Within j) : ∀ {n : Node}, stirs i true n = true →
    stirs j true n = true
  | .comment e => fun hn => by simp [stirs] at hn
  | .declaration e => fun hn => by simp [stirs] at hn
  | .statement e => fun _ => by simp [stirs]
  | .ruleset earlier last body stop => fun hn => by
    rw [stirs] at hn ⊢
    exact h.keepsRule hn
  | .block head body stop => fun hn => by
    rw [stirs] at hn ⊢
    split at hn
    · next hkeyframes =>
      rw [if_pos hkeyframes]
      exact h.wantsAnimation head hn
    · next hkeyframes =>
      rw [if_neg hkeyframes]
      split at hn
      · next hconditional =>
        rw [if_pos hconditional]
        exact stirsIn_mono h hn
      · next hconditional => simp [hconditional]

theorem stirsIn_mono {i j : Judge} (h : i.Within j) : ∀ {ns : List Node}, stirsIn i true ns = true →
    stirsIn j true ns = true
  | [] => fun hns => hns
  | n :: ns => fun hns => by
    rw [stirsIn, Bool.or_eq_true] at hns ⊢
    exact hns.imp (stirs_mono h) (stirsIn_mono h)

end

mutual

theorem opened_sublist {i j : Judge} (h : i.Within j) : ∀ n : Node,
    (opened i true n).Sublist (opened j true n)
  | .comment e => by simp [opened]
  | .declaration e => by simp [opened]
  | .statement e => by simp [opened]
  | .ruleset earlier last body stop => by
    rw [opened, opened]
    by_cases hkeeps : keepsRule i earlier last = true
    · rw [if_pos hkeeps, if_pos (h.keepsRule hkeeps)]
      exact openedIn_sublist h body
    · rw [if_neg hkeeps]
      exact List.nil_sublist _
  | .block head body stop => by
    rw [opened, opened]
    split
    · exact List.nil_sublist _
    · split
      · by_cases hstirs : stirsIn i true body = true
        · rw [if_pos hstirs, if_pos (stirsIn_mono h hstirs)]
          exact (openedIn_sublist h body).cons_cons head
        · rw [if_neg hstirs]
          exact List.nil_sublist _
      · exact openedIn_sublist h body

theorem openedIn_sublist {i j : Judge} (h : i.Within j) : ∀ ns : List Node,
    (openedIn i true ns).Sublist (openedIn j true ns)
  | [] => by simp [openedIn]
  | n :: ns => by
    rw [openedIn, openedIn]
    exact (opened_sublist h n).append (openedIn_sublist h ns)

end

mutual

theorem heldMarks_sublist {i j : Judge} (h : i.Within j) (source : String) : ∀ n : Node,
    (heldMarks i source n).Sublist (heldMarks j source n)
  | .comment e => by rw [heldMarks, heldMarks]
  | .declaration e => by rw [heldMarks, heldMarks]
  | .statement e => by rw [heldMarks, heldMarks]
  | .ruleset earlier last body stop => by
    rw [heldMarks, heldMarks]
    by_cases hkeeps : keepsRule i earlier last = true
    · rw [if_pos hkeeps, if_pos (h.keepsRule hkeeps)]
      exact (selectorMarks_sublist (h.filter_sublist _) fun hcomma => hcomma).append
        (((heldMarksIn_sublist h source body).append_right _).cons_cons _)
    · rw [if_neg hkeeps]
      exact List.nil_sublist _
  | .block head body stop => by
    have hbody := heldMarksIn_sublist h source body
    rw [heldMarks, heldMarks]
    split
    · by_cases hwants : i.wantsAnimation head = true
      · rw [if_pos hwants, if_pos (h.wantsAnimation head hwants)]
      · rw [if_neg hwants]
        exact List.nil_sublist _
    · split
      · refine hbody.append ?_
        by_cases hstirs : stirsIn i true body = true
        · rw [if_pos hstirs, if_pos (stirsIn_mono h hstirs)]
        · rw [if_neg hstirs]
          exact List.nil_sublist _
      · exact (hbody.append_left _).append_right _

theorem heldMarksIn_sublist {i j : Judge} (h : i.Within j) (source : String) : ∀ ns : List Node,
    (heldMarksIn i source ns).Sublist (heldMarksIn j source ns)
  | [] => by rw [heldMarksIn, heldMarksIn]
  | n :: ns => by
    rw [heldMarksIn, heldMarksIn]
    exact (heldMarks_sublist h source n).append (heldMarksIn_sublist h source ns)

end

/-! ## Families -/

/-- The definitions of fonts among some nodes tell the same families to both judges. -/
def FamiliesAgree (i j : Judge) (ns : List Node) : Prop :=
  ∀ face ∈ Node.nodesIn ns, face.definesFont → lastFamily i face.body = lastFamily j face.body

/-- No rule inside the definition of a font declares a family. -/
def RulesAreSilent (ns : List Node) : Prop :=
  ∀ face ∈ Node.nodesIn ns, face.definesFont → ∀ rule ∈ Node.nodesIn face.body, rule.isRule →
    ∀ n ∈ Node.nodesIn rule.body, familyOf? n = none

instance (ns : List Node) : Decidable (RulesAreSilent ns) :=
  inferInstanceAs (Decidable (∀ face ∈ Node.nodesIn ns, face.definesFont →
    ∀ rule ∈ Node.nodesIn face.body, rule.isRule →
      ∀ n ∈ Node.nodesIn rule.body, familyOf? n = none))

mutual

theorem toldBy_eq_of_silent (i j : Judge) : ∀ {n : Node},
    (∀ rule ∈ Node.nodesIn [n], rule.isRule → ∀ m ∈ Node.nodesIn rule.body, familyOf? m = none) →
      toldBy i n = toldBy j n
  | .comment e, _ => by simp [toldBy]
  | .declaration e, _ => by rw [toldBy_declaration, toldBy_declaration]
  | .statement e, _ => by simp [toldBy]
  | .ruleset earlier last body stop, h => by
    have hsilent : ∀ m ∈ Node.nodesIn body, familyOf? m = none :=
      h _ (Node.mem_nodesIn_self List.mem_cons_self) rfl
    rw [toldBy, toldBy, toldIn_eq_nil i hsilent, toldIn_eq_nil j hsilent, ite_self, ite_self]
  | .block head body stop, h => by
    have hbody : toldIn i body = toldIn j body :=
      toldIn_eq_of_silent i j fun m hm => h m (Node.mem_nodesIn_of_body hm)
    rw [toldBy, toldBy, hbody]

/-- Only rules that one judge removes and the other keeps tell the families apart. -/
theorem toldIn_eq_of_silent (i j : Judge) : ∀ {ns : List Node},
    (∀ rule ∈ Node.nodesIn ns, rule.isRule → ∀ m ∈ Node.nodesIn rule.body, familyOf? m = none) →
      toldIn i ns = toldIn j ns
  | [], _ => by rw [toldIn, toldIn]
  | n :: ns, h => by
    rw [toldIn, toldIn, toldBy_eq_of_silent i j fun m hm => h m (Node.mem_nodesIn_of_head hm),
      toldIn_eq_of_silent i j fun m hm => h m (Node.mem_nodesIn_of_tail hm)]

end

theorem RulesAreSilent.familiesAgree {ns : List Node} (h : RulesAreSilent ns) (i j : Judge) :
    FamiliesAgree i j ns := by
  intro face hface hfont
  rw [lastFamily, lastFamily, toldIn_eq_of_silent i j (h face hface hfont)]

/-! ## A node in both purges -/

theorem Judge.Within.wantsFont_of_eq {i j : Judge} (h : i.Within j) {body : List Node}
    (hfamily : lastFamily i body = lastFamily j body)
    (hwants : i.wantsFont (lastFamily i body) = true) : j.wantsFont (lastFamily j body) = true :=
  hfamily ▸ h.wantsFont _ hwants

theorem writtenFont_sublist {i j : Judge} (h : i.Within j) (source : String) (head : Event)
    {body : List Node} (hfamily : lastFamily i body = lastFamily j body) :
    (writtenFont i source head body).Sublist (writtenFont j source head body) := by
  rw [writtenFont, writtenFont]
  refine ((openedIn_sublist h body).flatMap _).append ?_
  split
  · next hwants =>
    rw [if_pos (h.wantsFont_of_eq hfamily hwants)]
    exact ((heldMarksIn_sublist h source body).append_left _).append_right _
  · exact List.nil_sublist _

theorem Written.marks_group_perm (head : Event) (lead rest : List Mark) :
    (group head ⟨lead, some rest⟩).marks.Perm
      (Written.marks ⟨lead, some rest⟩ ++ (headMarks head ++ [.closes head])) := by
  have hmarks : (group head ⟨lead, some rest⟩).marks
      = lead ++ (headMarks head ++ (rest ++ [.closes head])) := by
    simp [group, Written.marks]
  have hmarks' : Written.marks ⟨lead, some rest⟩ ++ (headMarks head ++ [.closes head])
      = lead ++ (rest ++ (headMarks head ++ [.closes head])) := by
    simp [Written.marks]
  rw [hmarks, hmarks']
  exact (List.perm_append_comm_assoc _ _ _).append_left lead

/-- Whatever is written for the first judge is written for the second, which opens the groups around
if the first does. -/
structure Written.Within (w w' : Written) : Prop where
  marks : w.marks.Subperm w'.marks
  stirs : w.stirs = true → w'.stirs = true

namespace Written.Within

variable {w w' v v' : Written} {ms ms' : List Mark}

theorem refl (w : Written) : Within w w := ⟨List.Subperm.refl _, id⟩

theorem nothing (w : Written) : Within .nothing w := ⟨List.nil_subperm, by simp⟩

theorem inside (h : ms.Subperm ms') : Within (.inside ms) (.inside ms') := ⟨h, id⟩

theorem append (h : Within w w') (h' : Within v v') : Within (w.append v) (w'.append v') where
  marks := by
    rw [marks_append, marks_append]
    exact h.marks.append h'.marks
  stirs := by
    rw [stirs_append, stirs_append, Bool.or_eq_true, Bool.or_eq_true]
    exact Or.imp h.stirs h'.stirs

/-- If only the larger judge opens the group, nothing is left of it for the smaller one. -/
theorem group (h : Within w w') (head : Event) : Within (w.group head) (w'.group head) where
  marks := by
    have hmarks := h.marks
    rcases w with ⟨lead, _ | rest⟩
    · refine hmarks.trans ?_
      rcases w' with ⟨lead', _ | rest'⟩
      · exact List.Subperm.refl _
      · exact ((List.infix_append _ _ _).sublist.append_left lead').subperm
    · obtain ⟨rest', hrest⟩ := Option.isSome_iff_exists.1 (h.stirs rfl)
      rcases w' with ⟨lead', _⟩
      obtain rfl := hrest
      exact (marks_group_perm head lead rest).subperm.trans
        ((hmarks.append (List.Subperm.refl _)).trans
          (marks_group_perm head lead' rest').symm.subperm)
  stirs := by
    rw [stirs_group, stirs_group]
    exact h.stirs

end Written.Within

mutual

/-- What the smaller judge writes of a node, the larger one writes too. -/
theorem within_written {i j : Judge} (hij : i.Within j) (source : String) :
    ∀ {n : Node}, FamiliesAgree i j [n] → (written i source n).Within (written j source n)
  | .comment e => fun _ => by
    rw [written, written]
    exact .refl _
  | .declaration e => fun _ => by
    rw [written, written]
    exact .refl _
  | .statement e => fun _ => by
    rw [written, written]
    exact .refl _
  | .ruleset earlier last body stop => fun hfonts => by
    have hbody := within_writtenIn hij source fun face hface =>
      hfonts face (Node.mem_nodesIn_of_body hface)
    rw [written, written]
    by_cases hkeeps : keepsRule i earlier last = true
    · rw [if_pos hkeeps, if_pos (hij.keepsRule hkeeps)]
      have hselectors := selectorMarks_sublist (hij.filter_sublist (earlier ++ [last]))
        fun hcomma : false = true => hcomma
      exact .inside (hselectors.subperm.append
        ((List.subperm_cons _).2 (hbody.marks.append (List.Subperm.refl _))))
    · rw [if_neg hkeeps]
      exact .nothing _
  | .block head body stop => fun hfonts => by
    have hbody := within_writtenIn hij source fun face hface =>
      hfonts face (Node.mem_nodesIn_of_body hface)
    rw [written, written]
    split
    · by_cases hwants : i.wantsAnimation head = true
      · rw [if_pos hwants, if_pos (hij.wantsAnimation head hwants)]
        exact .refl _
      · rw [if_neg hwants]
        exact .nothing _
    · split
      · exact hbody.group head
      · split
        · next hface =>
          have hagree : lastFamily i body = lastFamily j body :=
            hfonts _ (Node.mem_nodesIn_self List.mem_cons_self) hface
          split
          · next hstirs =>
            have hmarks := writtenFont_sublist hij source head hagree
            rw [Bool.or_eq_true] at hstirs
            rw [if_pos (Bool.or_eq_true_iff.2
              (hstirs.imp (stirsIn_mono hij) fun hwants => hij.wantsFont_of_eq hagree hwants))]
            exact .inside hmarks.subperm
          · exact .nothing _
        · exact .inside (((List.Subperm.refl _).append hbody.marks).append (List.Subperm.refl _))

theorem within_writtenIn {i j : Judge} (hij : i.Within j) (source : String) :
    ∀ {ns : List Node}, FamiliesAgree i j ns →
      (writtenIn i source ns).Within (writtenIn j source ns)
  | [] => fun _ => by
    rw [writtenIn, writtenIn]
    exact .refl _
  | n :: ns => fun hfonts => by
    rw [writtenIn, writtenIn]
    exact (within_written hij source fun face hface =>
        hfonts face (Node.mem_nodesIn_of_head hface)).append
      (within_writtenIn hij source fun face hface => hfonts face (Node.mem_nodesIn_of_tail hface))

end

/-! ## Larger indices -/

section

variable {index index' : Index} {refs : References} {source : String} {sink sink' : Sink}
  {counts counts' : Counts}

/-- Whatever is written when less is in use is written when more is, each event as often, and no
fewer selectors are kept. Only a font is lost whose definition tells another family when more of
what stands inside it is kept. -/
theorem marksOf_subperm
    (hincludes : ∀ chain, index.includes chain = true → index'.includes chain = true)
    (h : (purge ⟨index, refs⟩ source sink).result = .ok counts)
    (h' : (purge ⟨index', refs⟩ source sink').result = .ok counts') :
    let small : Judge := ⟨index, refs⟩
    let large : Judge := ⟨index', refs⟩
    (purge small source sink).sink.text
        = sink.text ++ textOf ((marksOf small source).map Mark.output) ∧
      (purge large source sink').sink.text
        = sink'.text ++ textOf ((marksOf large source).map Mark.output) ∧
      counts.selectorsKept ≤ counts'.selectorsKept ∧
      (FamiliesAgree small large (outline source) →
        (marksOf small source).Subperm (marksOf large source)) := by
  intro small large
  have hwithin := Judge.within_of_includes hincludes refs
  obtain ⟨-, htext⟩ := purge_text_marksOf h
  obtain ⟨-, htext'⟩ := purge_text_marksOf h'
  refine ⟨htext, htext', ?_, fun hfonts => ?_⟩
  · rw [(selectors_of_purge h).1, (selectors_of_purge h').1, List.countP_eq_length_filter,
      List.countP_eq_length_filter]
    exact (filter_decidedIn_sublist hwithin (outline source)).length_le
  · rw [marksOf_eq, marksOf_eq]
    exact (within_writtenIn hwithin source hfonts).marks

end

/-- A rule that only the larger index keeps. The comment stands inside its group there, and before
the group where the rule is removed. -/
theorem marksOf_subperm_comment :
    let source := "@media print\x7ba\x7bx:y\x7d/*!c*/b\x7bfont-family:X\x7d\x7d" ++
      "@font-face\x7bfont-family:X\x7d"
    let refs : References := ⟨[("X", [.ofTag "b"])], []⟩
    let small : Judge := ⟨.markup [.ofTag "b"], refs⟩
    let large : Judge := ⟨.markup [.ofTag "a", .ofTag "b"], refs⟩
    (purge small source .unlimited).sink.text =
        "/*!c*/\n@media print\x7bb\x7bfont-family:X\x7d\x7d@font-face\x7bfont-family:X\x7d" ∧
      (purge large source .unlimited).sink.text =
        "@media print\x7ba\x7bx:y\x7d/*!c*/\nb\x7bfont-family:X\x7d\x7d" ++
          "@font-face\x7bfont-family:X\x7d" ∧
      RulesAreSilent (outline source) ∧
      (marksOf small source).Subperm (marksOf large source) := by
  intro source refs small large
  have hincludes (chain : Selector.Chain) (hchain : small.index.includes chain = true) :
      large.index.includes chain = true :=
    Usage.Nodes.includes_mono (List.subset_cons_self _ _) hchain
  obtain ⟨hok, hok', htext, htext', hsilent⟩ : (purge small source .unlimited).result.isOk = true ∧
      (purge large source .unlimited).result.isOk = true ∧
      (purge small source .unlimited).sink.text =
        "/*!c*/\n@media print\x7bb\x7bfont-family:X\x7d\x7d@font-face\x7bfont-family:X\x7d" ∧
      (purge large source .unlimited).sink.text =
        "@media print\x7ba\x7bx:y\x7d/*!c*/\nb\x7bfont-family:X\x7d\x7d" ++
          "@font-face\x7bfont-family:X\x7d" ∧
      RulesAreSilent (outline source) := by
    decide +kernel
  obtain ⟨counts, h⟩ := exists_counts_of_isOk hok
  obtain ⟨counts', h'⟩ := exists_counts_of_isOk hok'
  obtain ⟨-, -, -, hmarks⟩ := marksOf_subperm hincludes h h'
  exact ⟨htext, htext', hsilent, hmarks (hsilent.familiesAgree small large)⟩

/-- A rule inside the definition of a font is kept once its element is in use. The definition then
counts as that of the families that the rule lists, and the font that is in use is lost. -/
theorem font_lost_to_larger_index :
    let source := "@font-face\x7bfont-family:X;@media print\x7ba\x7bfont-family:Y,Z\x7d\x7d\x7d" ++
      "b\x7bfont-family:X\x7d"
    let refs : References := ⟨[("Y", [.ofTag "a"]), ("Z", [.ofTag "a"]), ("X", [.ofTag "b"])], []⟩
    let small : Judge := ⟨.markup [.ofTag "b"], refs⟩
    let large : Judge := ⟨.markup [.ofTag "a", .ofTag "b"], refs⟩
    (∀ chain, small.index.includes chain = true → large.index.includes chain = true) ∧
      (References.ofSheet source).toOption = some refs ∧
      (purge small source .unlimited).result.isOk = true ∧
      (purge large source .unlimited).result.isOk = true ∧
      (purge small source .unlimited).sink.text =
        "@font-face\x7bfont-family:X\x7db\x7bfont-family:X\x7d" ∧
      (purge large source .unlimited).sink.text = "@media print\x7bb\x7bfont-family:X\x7d" ∧
      ∃ m ∈ marksOf small source, m ∉ marksOf large source := by
  intro source refs small large
  refine ⟨fun chain hchain => ?_, by decide +kernel⟩
  exact Usage.Nodes.includes_mono (List.subset_cons_self _ _) hchain

end StyleSieve.Purge
