import StyleSieve.Proofs.Css.Concat
import StyleSieve.Proofs.Purge.Fixpoint

/-!
# Purged stylesheets one after another

What a purge writes is read alike whatever is written after it (`events_purged_append`), so purged
stylesheets can be written one after another. Rules and at-rules that are left open at the end of a
stylesheet are shut by the purge. The definition of an animation is not: it is copied with its block
left open, as are strings, functions and the like, and swallows what comes next.
-/

namespace StyleSieve.Purge

open Css
open Text (At)
open Css.Phrase (Derives Joined treesOf)
open Css.Tree (rawOf lexemesOf Bracketed)

/-! ## Open blocks shut -/

mutual

/-- What is kept of the last phrase of a text, with the blocks shut that the text leaves open. -/
def shut (j : Judge) : Phrase → List Phrase
  | .filler t => [.filler t]
  | .comment t => if isKeptComment (commentEvent 0 t) then [.comment t] else []
  | .declaration name gap colon value => [.declaration name gap colon value]
  | .statement keyword prelude stop => [.statement keyword prelude stop]
  | .block keyword prelude head body (some close) => [.block keyword prelude head body (some close)]
  | .block keyword prelude head body none =>
    if isKeyframes (atName keyword) then
      if j.wantsNamed prelude then [.block keyword prelude head body none] else []
    else if isFontFace (atName keyword) && !j.wantsFont (familyIn body) then []
    else [.block keyword prelude head (shutIn j body) (some curlyClose)]
  | .ruleset earlier last head body (some close) => [.ruleset earlier last head body (some close)]
  | .ruleset earlier last head body none =>
    if ((earlier.map Prod.fst ++ [last]).filter j.keepsSelector).isEmpty then []
    else [.ruleset earlier last head (shutIn j body) (some curlyClose)]

/-- Phrases with the blocks shut that are left open after the last of them. -/
def shutIn (j : Judge) : List Phrase → List Phrase
  | [] => []
  | p :: ps => if ps.isEmpty then shut j p else p :: shutIn j ps

end

/-- Once its blocks are shut, nothing is left open in what is kept of a text, so that a semicolon
after it is read as one. -/
def ShutsCleanly (j : Judge) (ps : List Phrase) : Prop :=
  Tree.ofText (rawOf (treesOf (shutIn j ps)) ++ [';']) = treesOf (shutIn j ps) ++ [semicolonMark]

section

variable {j : Judge} {w : Option Bracket} {ctx : Context} {ps : List Phrase}

theorem filterMap_familyTold_shut (j : Judge) (p : Phrase) :
    (shut j p).filterMap familyTold = (familyTold p).toList := by
  have hlone : ∀ q : Phrase, [q].filterMap familyTold = (familyTold q).toList := fun q => by
    rw [List.filterMap_cons]
    cases familyTold q <;> rfl
  cases p with
  | filler t => rw [shut, hlone]
  | comment t =>
    rw [shut]
    split <;> rfl
  | declaration name gap colon value => rw [shut, hlone]
  | statement keyword prelude stop => rw [shut, hlone]
  | block keyword prelude head body close =>
    cases close with
    | some close => rw [shut, hlone]
    | none =>
      rw [shut]
      split
      · split <;> rfl
      · split <;> rfl
  | ruleset earlier last head body close =>
    cases close with
    | some close => rw [shut, hlone]
    | none =>
      rw [shut]
      split <;> rfl

/-- Shutting blocks leaves the family alone that the phrases tell. -/
theorem familyIn_shutIn (j : Judge) (ps : List Phrase) : familyIn (shutIn j ps) = familyIn ps := by
  have hall : (shutIn j ps).filterMap familyTold = ps.filterMap familyTold := by
    induction ps with
    | nil => rw [shutIn]
    | cons p ps ih =>
      rw [shutIn]
      split
      · next hnil =>
        rw [List.isEmpty_iff.1 hnil, filterMap_familyTold_shut, List.filterMap_cons]
        cases familyTold p <;> rfl
      · rw [List.filterMap_cons, List.filterMap_cons, ih]
  rw [familyIn, familyIn, hall]

mutual

theorem ofPhrases_shut (j : Judge) : ∀ p : Phrase, Piece.ofPhrases j (shut j p) = Piece.ofPhrase j p
  | .filler t => by rw [shut, Piece.ofPhrases, Piece.ofPhrases, List.append_nil]
  | .comment t => by
    rw [shut, Piece.ofPhrase]
    split
    · next hkept =>
      rw [Piece.ofPhrases, Piece.ofPhrase, if_pos hkept, Piece.ofPhrases, List.append_nil]
    · rw [Piece.ofPhrases]
  | .declaration name gap colon value => by
    rw [shut, Piece.ofPhrases, Piece.ofPhrases, List.append_nil]
  | .statement keyword prelude stop => by
    rw [shut, Piece.ofPhrases, Piece.ofPhrases, List.append_nil]
  | .block keyword prelude head body (some close) => by
    rw [shut, Piece.ofPhrases, Piece.ofPhrases, List.append_nil]
  | .block keyword prelude head body none => by
    have hbody := ofPhrases_shutIn j body
    rw [shut, Piece.ofPhrase]
    split
    · next hname =>
      split
      · next hwanted =>
        rw [Piece.ofPhrases, Piece.ofPhrases, List.append_nil, Piece.ofPhrase, if_pos hname,
          if_pos hwanted]
      · rw [Piece.ofPhrases]
    · next hname =>
      split
      · next hdropped =>
        rw [Bool.and_eq_true, Bool.not_eq_true'] at hdropped
        have hconditional : ¬ isConditional (atName keyword) = true := by
          intro h
          rw [not_isFontFace_of_isConditional h] at hdropped
          simp at hdropped
        rw [if_neg hconditional, if_pos hdropped.1, hdropped.2, if_neg (by simp), Piece.ofPhrases]
      · rw [Piece.ofPhrases, Piece.ofPhrases, List.append_nil, Piece.ofPhrase, if_neg hname, hbody,
          familyIn_shutIn]
  | .ruleset earlier last head body (some close) => by
    rw [shut, Piece.ofPhrases, Piece.ofPhrases, List.append_nil]
  | .ruleset earlier last head body none => by
    have hbody := ofPhrases_shutIn j body
    rw [shut, Piece.ofPhrase]
    split
    · next hnone =>
      rw [List.isEmpty_iff.1 hnone, Piece.ofPhrases]
      rfl
    · rw [Piece.ofPhrases, Piece.ofPhrases, List.append_nil, Piece.ofPhrase, hbody]

/-- Just as much is kept once the blocks are shut. -/
theorem ofPhrases_shutIn (j : Judge) : ∀ ps : List Phrase,
    Piece.ofPhrases j (shutIn j ps) = Piece.ofPhrases j ps
  | [] => by rw [shutIn]
  | p :: ps => by
    rw [shutIn, Piece.ofPhrases]
    split
    · next hnil =>
      rw [List.isEmpty_iff.1 hnil, Piece.ofPhrases, List.append_nil]
      exact ofPhrases_shut j p
    · rw [Piece.ofPhrases, ofPhrases_shutIn j ps]

end

/-! ## Shutting blocks keeps to the grammar -/

theorem seamlessIn_iff : seamlessIn j ps = true ↔ ∀ p ∈ ps, seamless j p = true := by
  induction ps with
  | nil => simp [seamlessIn]
  | cons p ps ih => rw [seamlessIn, Bool.and_eq_true, ih, List.forall_mem_cons]

theorem plainFontsIn_iff : plainFontsIn ps = true ↔ ∀ p ∈ ps, plainFonts p = true := by
  induction ps with
  | nil => simp [plainFontsIn]
  | cons p ps ih => rw [plainFontsIn, Bool.and_eq_true, ih, List.forall_mem_cons]

/-- At most one phrase is left. -/
theorem shut_eq (j : Judge) (p : Phrase) : shut j p = [] ∨ ∃ q, shut j p = [q] := by
  cases p with
  | filler t => exact .inr ⟨_, by rw [shut]⟩
  | comment t =>
    rw [shut]
    split
    · exact .inr ⟨_, rfl⟩
    · exact .inl rfl
  | declaration name gap colon value => exact .inr ⟨_, by rw [shut]⟩
  | statement keyword prelude stop => exact .inr ⟨_, by rw [shut]⟩
  | block keyword prelude head body close =>
    cases close with
    | some close => exact .inr ⟨_, by rw [shut]⟩
    | none =>
      rw [shut]
      split <;> split <;> first | exact .inl rfl | exact .inr ⟨_, rfl⟩
  | ruleset earlier last head body close =>
    cases close with
    | some close => exact .inr ⟨_, by rw [shut]⟩
    | none =>
      rw [shut]
      split
      · exact .inl rfl
      · exact .inr ⟨_, rfl⟩

theorem mayPrecede_shutIn {p : Phrase} (h : p.MayPrecede ps) (hne : ps.isEmpty = false) :
    p.MayPrecede (shutIn j ps) := by
  cases p with
  | declaration name gap colon value =>
    rcases h with rfl | ⟨t, rest, rfl, ht⟩
    · simp at hne
    · refine .inr ?_
      rw [shutIn]
      split
      · exact ⟨t, [], by rw [shut], ht⟩
      · exact ⟨t, _, rfl, ht⟩
  | statement keyword prelude stop =>
    cases stop with
    | none =>
      obtain rfl : ps = [] := h
      simp at hne
    | some t => trivial
  | _ => trivial

theorem joined_shutIn (h : Joined ps) : Joined (shutIn j ps) := by
  induction ps with
  | nil =>
    rw [shutIn]
    trivial
  | cons p ps ih =>
    rw [shutIn]
    split
    · rcases shut_eq j p with hshut | ⟨q, hshut⟩
      · rw [hshut]
        trivial
      · rw [hshut]
        refine ⟨?_, trivial⟩
        cases q with
        | declaration => exact .inl rfl
        | statement _ _ stop => cases stop <;> trivial
        | _ => trivial
    · next hne => exact ⟨mayPrecede_shutIn h.1 (eq_false_of_ne_true hne), ih h.2⟩

theorem all_isPlainPhrase_shutIn (h : ps.all isPlainPhrase = true) :
    (shutIn j ps).all isPlainPhrase = true := by
  induction ps with
  | nil => rw [shutIn]; rfl
  | cons p ps ih =>
    rw [List.all_cons, Bool.and_eq_true] at h
    rw [shutIn]
    split
    · cases p with
      | filler t => rw [shut]; rfl
      | comment t =>
        rw [shut]
        split <;> rfl
      | declaration name gap colon value => rw [shut]; rfl
      | _ => simp [isPlainPhrase] at h
    · rw [List.all_cons, h.1, ih h.2]
      rfl

/-- The phrase obeys the grammar and is kept as it is written. -/
structure Sturdy (j : Judge) (ctx : Context) (p : Phrase) : Prop where
  derives : Derives ctx p
  seamless : seamless j p = true
  plain : plainFonts p = true

section

variable {keyword : Tree} {prelude last : List Tree} {head : Lexeme} {body : List Phrase}
  {earlier : List (List Tree × Tree)}

/-- A block is as sturdy with its end as without, if its body stays sturdy. -/
theorem sturdy_block (h : Sturdy j ctx (.block keyword prelude head body none))
    (hname : ¬ isKeyframes (atName keyword) = true)
    (hkept : ¬ (isFontFace (atName keyword) && !j.wantsFont (familyIn body)) = true)
    (hbody : (∀ p ∈ body, Sturdy j (.ofAtRule keyword.text) p) →
      ∀ q ∈ shutIn j body, Sturdy j (.ofAtRule keyword.text) q) :
    Sturdy j ctx (.block keyword prelude head (shutIn j body) (some curlyClose)) := by
  obtain ⟨hderives, hseam, hplain⟩ := h
  rw [seamless, if_neg hname] at hseam
  rw [plainFonts, Bool.and_eq_true] at hplain
  have hinner : seamlessIn j body = true := by
    rw [if_neg hkept] at hseam
    split at hseam <;> exact (Bool.and_eq_true_iff.1 hseam).1
  cases hderives with
  | block hkeyword hsound hprelude hcurly hderives hjoined =>
    have hshut := hbody fun p hp =>
      ⟨hderives p hp, seamlessIn_iff.1 hinner p hp, plainFontsIn_iff.1 hplain.2 p hp⟩
    refine ⟨.block hkeyword hsound hprelude hcurly (fun p hp => (hshut p hp).derives)
      (joined_shutIn hjoined), ?_, ?_⟩
    · rw [seamless, if_neg hname, ofPhrases_shutIn, familyIn_shutIn,
        seamlessIn_iff.2 fun p hp => (hshut p hp).seamless]
      rw [hinner] at hseam
      exact hseam
    · rw [plainFonts, plainFontsIn_iff.2 fun p hp => (hshut p hp).plain, Bool.and_true]
      rw [Bool.or_eq_true] at hplain ⊢
      exact hplain.1.imp id all_isPlainPhrase_shutIn

/-- So is a rule of which something is kept. -/
theorem sturdy_ruleset (h : Sturdy j ctx (.ruleset earlier last head body none))
    (hkept : ¬ ((earlier.map Prod.fst ++ [last]).filter j.keepsSelector).isEmpty = true)
    (hbody : (∀ p ∈ body, Sturdy j .declarations p) →
      ∀ q ∈ shutIn j body, Sturdy j .declarations q) :
    Sturdy j ctx (.ruleset earlier last head (shutIn j body) (some curlyClose)) := by
  obtain ⟨hderives, hseam, hplain⟩ := h
  rw [seamless, eq_false_of_ne_true hkept, Bool.false_or, Bool.and_eq_true] at hseam
  rw [plainFonts] at hplain
  cases hderives with
  | ruleset hearlier hcommas hlast hbegins hcurly hderives hjoined =>
    have hshut := hbody fun p hp =>
      ⟨hderives p hp, seamlessIn_iff.1 hseam.2 p hp, plainFontsIn_iff.1 hplain p hp⟩
    refine ⟨.ruleset hearlier hcommas hlast hbegins hcurly (fun p hp => (hshut p hp).derives)
      (joined_shutIn hjoined), ?_, ?_⟩
    · rw [seamless, hseam.1, seamlessIn_iff.2 fun p hp => (hshut p hp).seamless]
      simp
    · rw [plainFonts]
      exact plainFontsIn_iff.2 fun p hp => (hshut p hp).plain

end

mutual

theorem sturdy_shut (j : Judge) {ctx : Context} : ∀ {p : Phrase}, Sturdy j ctx p →
    ∀ q ∈ shut j p, Sturdy j ctx q
  | .filler t, h, q, hq => by
    rw [shut] at hq
    exact List.mem_singleton.1 hq ▸ h
  | .comment t, h, q, hq => by
    rw [shut] at hq
    split at hq
    · exact List.mem_singleton.1 hq ▸ h
    · simp at hq
  | .declaration name gap colon value, h, q, hq => by
    rw [shut] at hq
    exact List.mem_singleton.1 hq ▸ h
  | .statement keyword prelude stop, h, q, hq => by
    rw [shut] at hq
    exact List.mem_singleton.1 hq ▸ h
  | .block keyword prelude head body (some close), h, q, hq => by
    rw [shut] at hq
    exact List.mem_singleton.1 hq ▸ h
  | .block keyword prelude head body none, h, q, hq => by
    rw [shut] at hq
    split at hq
    · split at hq
      · exact List.mem_singleton.1 hq ▸ h
      · simp at hq
    · next hname =>
      split at hq
      · simp at hq
      · next hkept =>
        obtain rfl := List.mem_singleton.1 hq
        exact sturdy_block h hname hkept fun hbody => sturdy_shutIn j hbody
  | .ruleset earlier last head body (some close), h, q, hq => by
    rw [shut] at hq
    exact List.mem_singleton.1 hq ▸ h
  | .ruleset earlier last head body none, h, q, hq => by
    rw [shut] at hq
    split at hq
    · simp at hq
    · next hkept =>
      obtain rfl := List.mem_singleton.1 hq
      exact sturdy_ruleset h hkept fun hbody => sturdy_shutIn j hbody

theorem sturdy_shutIn (j : Judge) {ctx : Context} : ∀ {ps : List Phrase},
    (∀ p ∈ ps, Sturdy j ctx p) → ∀ q ∈ shutIn j ps, Sturdy j ctx q
  | [], _, q, hq => by
    rw [shutIn] at hq
    simp at hq
  | p :: ps, h, q, hq => by
    rw [shutIn] at hq
    split at hq
    · exact sturdy_shut j (h p List.mem_cons_self) q hq
    · rcases List.mem_cons.1 hq with rfl | hq
      · exact h q List.mem_cons_self
      · exact sturdy_shutIn j (fun r hr => h r (List.mem_cons_of_mem p hr)) q hq

end

/-! ## What is written is read alike before any text -/

theorem joined_left {qs : List Phrase} (h : Joined (ps ++ qs)) : Joined ps := by
  induction ps with
  | nil => trivial
  | cons p ps ih =>
    refine ⟨?_, ih h.2⟩
    have hp := h.1
    cases p with
    | declaration name gap colon value =>
      cases ps with
      | nil => exact .inl rfl
      | cons q ps =>
        rcases hp with hnil | ⟨t, rest, hcons, ht⟩
        · simp at hnil
        · obtain ⟨rfl, -⟩ := List.cons.inj hcons
          exact .inr ⟨t, ps, rfl, ht⟩
    | statement keyword prelude stop =>
      cases stop with
      | none => exact (List.append_eq_nil_iff.1 hp).1
      | some t => trivial
    | _ => trivial

/-- A comment at the end is read whatever follows, if the line break after it is left out. -/
theorem layOut_concat_comment {t : Tree} (ht : Canonical j w ctx (.comment t)) :
    ∀ ks : List Piece, (∀ k ∈ ks, Canonical j w ctx k) → ∃ qs,
      Piece.layOut (ks ++ [.comment t]) = qs ++ [.comment t, .filler lineBreak] ∧
        ∀ z, Reads (lexemesOf (treesOf (qs ++ [.comment t]))) z ∧
          startsWith isSpace (rawOf (treesOf (qs ++ [.comment t])) ++ z) = false
  | [], _ => by
    refine ⟨[], by simp [Piece.layOut, Piece.phrase, Piece.trailer], fun z => ?_⟩
    have hreads : Reads (lexemesOf ((Piece.comment t).phrase.trees ++ [])) z := by
      rw [Piece.phrase, Phrase.trees, List.append_nil]
      cases ht with
      | comment _ _ reads => exact reads z
    have htrees : treesOf ([] ++ [.comment t]) = (Piece.comment t).phrase.trees ++ [] := by
      simp [Piece.phrase]
    rw [htrees]
    exact ⟨hreads, startsWith_isSpace_phrase ht hreads⟩
  | k :: ks, h => by
    obtain ⟨qs, hqs, hreads⟩ := layOut_concat_comment ht ks
      fun l hl => h l (List.mem_cons_of_mem k hl)
    have hk := h k List.mem_cons_self
    refine ⟨k.phrase :: (k.trailer false ++ qs), ?_, fun z => ?_⟩
    · have hmore : (ks ++ [Piece.comment t]).isEmpty = false := by simp
      rw [List.cons_append, Piece.layOut, hqs, hmore]
      simp
    · have hall : Reads (lexemesOf (k.phrase.trees ++ (treesOf (k.trailer false) ++
          treesOf (qs ++ [.comment t])))) z :=
        reads_trailed hk (reads_phrase k w ctx hk) (hreads z).1 (fun _ => (hreads z).2) (by simp)
      have htrees : treesOf (k.phrase :: (k.trailer false ++ qs) ++ [.comment t]) =
          k.phrase.trees ++ (treesOf (k.trailer false) ++ treesOf (qs ++ [.comment t])) := by
        simp [Phrase.treesOf_append]
      rw [htrees]
      exact ⟨hall, startsWith_isSpace_phrase hk hall⟩

/-- Pieces among rules have an end of their own. -/
theorem stopsBefore_layOut {ks : List Piece} (h : ∀ k ∈ ks, Canonical j w .rules k)
    (rest : List Tree) : ∀ p ∈ (Piece.layOut ks).getLast?, p.StopsBefore rest := by
  induction ks with
  | nil => simp [Piece.layOut]
  | cons k ks ih =>
    have hks := ih fun l hl => h l (List.mem_cons_of_mem k hl)
    have hk : k.phrase.StopsBefore rest ∧ ∀ last, ∀ p ∈ k.trailer last, p.StopsBefore rest := by
      cases h k List.mem_cons_self <;> simp [Piece.phrase, Piece.trailer, Phrase.StopsBefore]
    rw [Piece.layOut]
    intro p hp
    rw [← List.cons_append, List.getLast?_append] at hp
    cases hlast : (Piece.layOut ks).getLast? with
    | some q =>
      rw [hlast] at hp
      exact hks p (hlast ▸ hp)
    | none =>
      rw [hlast, Option.none_or] at hp
      rcases List.mem_cons.1 (List.mem_of_getLast? hp) with rfl | hp
      · exact hk.1
      · exact hk.2 _ p hp

theorem lexemes_of_reads {ts : List Tree} {text : String} (htext : text.toList = rawOf ts)
    (h : Reads (lexemesOf ts) []) : lexemes text.toList = lexemesOf ts := by
  rw [Reads, List.append_nil, lexemes_nil, List.append_nil] at h
  rw [htext]
  exact h

/-- The events of phrases that are read before any text. -/
theorem events_append_of_reads {text : String} (hderives : ∀ p ∈ ps, Derives .rules p)
    (hjoined : Joined ps) (htext : text.toList = rawOf (treesOf ps))
    (hbracketed : Bracketed none false (treesOf ps)) (hreads : Reads (lexemesOf (treesOf ps)) [])
    {next : String} (hnext : Reads (lexemesOf (treesOf ps)) next.toList)
    (hlast : ∀ p ∈ ps.getLast?, p.StopsBefore (Tree.ofText next.toList)) :
    events (text ++ next) = events text ++ (events next).shift (Text.width text.toList) := by
  have hlexemes := lexemes_of_reads htext hreads
  have htrees : Tree.ofText text.toList = treesOf ps := Tree.ofText_eq hlexemes hbracketed.ends
  exact Css.events_append ⟨hderives, hjoined, htrees.symm⟩ (hlexemes ▸ hnext)
    (htrees ▸ hbracketed) hlast

/-- A line break between two texts that are read apart belongs to the first as well. -/
theorem events_append_lineBreak {text : String}
    (h : ∀ rest, events (text ++ ("\n" ++ rest)) =
      events text ++ (events ("\n" ++ rest)).shift (Text.width text.toList)) (next : String) :
    events (text ++ "\n" ++ next) =
      events (text ++ "\n") ++ (events next).shift (Text.width (text ++ "\n").toList) := by
  have hbreak : ∀ rest, events (text ++ ("\n" ++ rest)) =
      events text ++ (events rest).shift (Text.width text.toList + 1) := by
    intro rest
    rw [h, events_append_white (by simp [isSpace, isNewline]), Outcome.shift_shift]
    rfl
  have hempty : events "" = .empty := by
    have htree : Tree.ofText "".toList = [] :=
      Tree.ofText_eq (by rw [Tree.lexemesOf_nil]; exact lexemes_nil) .nil
    rw [events, htree]
    exact Phrase.eventsOf_nil (by simp) 0
  have hbare := hbreak ""
  rw [String.append_empty, hempty] at hbare
  rw [String.append_assoc, hbreak, hbare, Outcome.shift_empty, Outcome.append_empty,
    String.toList_append, Text.width_append]
  rfl

/-- The text of canonical pieces is read alike whatever follows it. -/
theorem events_layOut_append {ks : List Piece} {text : String}
    (h : ∀ k ∈ ks, Canonical j none .rules k)
    (htext : text.toList = rawOf (treesOf (Piece.layOut ks))) (next : String) :
    events (text ++ next) = events text ++ (events next).shift (Text.width text.toList) := by
  have hderives := derives_layOut ks none .rules h
  have hjoined := joined_layOut ks h
  have hbracketed := bracketed_layOut ks none .rules h
  by_cases hlast : ∃ t, ks.getLast? = some (.comment t)
  · -- The line break after the comment belongs to the white space that may come next.
    obtain ⟨t, ht⟩ := hlast
    obtain ⟨front, rfl⟩ := List.getLast?_eq_some_iff.1 ht
    obtain ⟨qs, hqs, hreads⟩ := layOut_concat_comment (h (.comment t) (by simp)) front
      fun k hk => h k (List.mem_append_left _ hk)
    have hsplit : Piece.layOut (front ++ [.comment t]) =
        (qs ++ [.comment t]) ++ [.filler lineBreak] := by
      rw [hqs]
      simp
    rw [hsplit] at hderives hjoined hbracketed htext
    rw [Phrase.treesOf_append] at hbracketed htext
    obtain ⟨body, hlist⟩ : ∃ body : String, body.toList = rawOf (treesOf (qs ++ [.comment t])) :=
      ⟨String.ofList _, String.toList_ofList⟩
    obtain rfl : text = body ++ "\n" := by
      rw [← String.toList_inj, htext, String.toList_append, hlist, Tree.rawOf_append]
      rfl
    exact events_append_lineBreak (fun rest => events_append_of_reads
      (fun p hp => hderives p (List.mem_append_left _ hp)) (joined_left hjoined) hlist
      hbracketed.closed_left (hreads []).1 (hreads _).1 (by simp [Phrase.StopsBefore])) next
  · refine events_append_of_reads hderives hjoined htext hbracketed
      (reads_layOut ks none .rules h [] (fun h => absurd h hlast) (by simp))
      (reads_layOut ks none .rules h _ (fun h => absurd h hlast) (by simp))
      (stopsBefore_layOut h _)

/-- What a purge writes is read without a fault, and alike whatever is written after it, if nothing
but the blocks of rules and at-rules is left open in what is kept and what is kept keeps its
tokens. -/
theorem events_purged_append {source : String} {sink : Sink} {counts : Counts}
    (h : (purge j source sink).result = .ok counts) (hps : Phrase.Spells source ps)
    (hshut : ShutsCleanly j ps) (hseam : seamlessIn j ps = true) (hplain : plainFontsIn ps = true) :
    ∃ text, (purge j source sink).sink.text = sink.text ++ text ∧ (events text).error = none ∧
      ∀ next, events (text ++ next) =
        events text ++ (events next).shift (Text.width text.toList) := by
  have hfonts : FontsArePlain (outline source) := by
    rw [hps.outline_eq]
    exact fontsArePlain_outlinesAt ps 0 hplain
  have hat : At source 0 (rawOf (treesOf ps)) :=
    ⟨[], [], by rw [hps.trees_eq, Tree.rawOf_ofText]; simp, rfl⟩
  have hsturdy := sturdy_shutIn j fun p hp =>
    ⟨hps.derives p hp, seamlessIn_iff.1 hseam p hp, plainFontsIn_iff.1 hplain p hp⟩
  have hcanonical : ∀ k ∈ Piece.ofPhrases j ps, Canonical j none .rules k := by
    have hshutIn := canonical_ofPhrases (shutIn j ps) none .rules [';']
      (fun p hp => (hsturdy p hp).derives) (joined_shutIn hps.joined) (enclosed_of_ofText hshut)
      (seamlessIn_iff.2 fun p hp => (hsturdy p hp).seamless)
      (plainFontsIn_iff.2 fun p hp => (hsturdy p hp).plain)
    rwa [ofPhrases_shutIn] at hshutIn
  have htext : (Kept.texts (Piece.keptOf (Piece.ofPhrases j ps))).toList =
      rawOf (treesOf (Piece.layOut (Piece.ofPhrases j ps))) := Piece.toList_texts _
  refine ⟨_, ?_, ?_, events_layOut_append hcanonical htext⟩
  · rw [sink_text_of_ok h hfonts, hps.outline_eq, prunedIn_outlinesAt j ps 0 hat hseam]
  · exact (Phrase.accepts_iff_derives _).1.2 ⟨_, spells_layOut hcanonical htext⟩

end

/-- A rule and the group around it are shut. -/
theorem events_purged_append_open :
    let j : Judge := ⟨.markup [.ofTag "a"], ⟨[], []⟩⟩
    let source := "@media print\x7ba\x7bb:c"
    (purge j source .unlimited).sink.text = "@media print\x7ba\x7bb:c\x7d\x7d" ∧
      ∃ text, (purge j source .unlimited).sink.text = Sink.unlimited.text ++ text ∧
        (events text).error = none ∧ ∀ next, events (text ++ next) =
          events text ++ (events next).shift (Text.width text.toList) := by
  intro j source
  let name (s : String) : Tree := .leaf ⟨.ident s, s.toList⟩
  let keyword : Tree := .leaf ⟨.atKeyword "media", "@media".toList⟩
  let value : Phrase := .declaration (name "b") [] colonMark [name "c"]
  let rule (close : Option Lexeme) : Phrase := .ruleset [] [name "a"] curlyOpen [value] close
  let group (close inner : Option Lexeme) : Phrase :=
    .block keyword [Tree.space, name "print"] curlyOpen [rule inner] close
  have hvalue : Derives .declarations value :=
    .declaration rfl (by simp) rfl (by simp [Phrase.Sound, name, Tree.token])
      (by simp [name, Tree.isSemicolon])
  have hrule : Derives .rules (rule none) := by
    refine .ruleset (by simp) (by simp) ⟨?_, ?_, name "a", List.mem_singleton_self _, rfl⟩ ?_ rfl
      (List.forall_mem_singleton.2 hvalue) ⟨.inl rfl, trivial⟩
    · simp [Phrase.Sound, name, Tree.token]
    · simp [name, Tree.endsSelector, Tree.isComma, Tree.isCurly, Tree.isSemicolon, Tree.token]
    · simp [name, Phrase.beginsRule, Tree.token]
  have hgroup : Derives .rules (group none none) := by
    have hrules : Context.ofAtRule keyword.text = .rules := by decide +kernel
    refine .block rfl ?_ ?_ rfl (hrules ▸ List.forall_mem_singleton.2 hrule) ⟨trivial, trivial⟩
    · simp [Phrase.Sound, name, Tree.token, Tree.space]
    · simp [name, Tree.endsPrelude, Tree.isCurly, Tree.isSemicolon, Tree.space]
  have hinside : Bracketed (some .curly) false (treesOf [value]) := by
    simp only [value, Phrase.treesOf_cons, Phrase.treesOf_nil, Phrase.trees, List.append_nil,
      List.nil_append]
    exact bracketed_leaf rfl rfl (bracketed_leaf rfl rfl (bracketed_leaf rfl rfl .nil))
  have htrees (close inner : Option Lexeme) : treesOf [group close inner] =
      [keyword, Tree.space, name "print",
        .block curlyOpen [name "a", .block curlyOpen (treesOf [value]) inner] close] := by
    simp [group, rule, Phrase.trees]
  have hspells : Phrase.Spells source [group none none] := by
    refine ⟨List.forall_mem_singleton.2 hgroup, ⟨trivial, trivial⟩, ?_⟩
    rw [htrees]
    refine (Tree.ofText_eq (by decide +kernel) ?_).symm
    exact .leaf rfl (by simp) (.leaf rfl (by simp) (.leaf rfl (by simp) (.unclosed rfl
      (.leaf rfl (by decide) (.unclosed rfl hinside.ends)))))
  have hshut : shutIn j [group none none] = [group (some curlyClose) (some curlyClose)] := by
    have hname : isKeyframes (atName keyword) = false ∧ isFontFace (atName keyword) = false := by
      decide +kernel
    have hkept : ([[name "a"]].filter j.keepsSelector).isEmpty = false := by decide +kernel
    simp [shutIn, shut, group, rule, value, hname, hkept]
  have hcleanly : ShutsCleanly j [group none none] := by
    rw [ShutsCleanly, hshut, htrees]
    refine Tree.ofText_eq (by decide +kernel) (Bracketed.ends ?_)
    exact bracketed_leaf rfl rfl (bracketed_leaf rfl rfl (bracketed_leaf rfl rfl ((bracketed_curly
      (bracketed_leaf rfl rfl (bracketed_curly hinside))).append (bracketed_leaf rfl rfl .nil))))
  obtain ⟨counts, hcounts⟩ : ∃ counts, (purge j source .unlimited).result = .ok counts :=
    exists_counts_of_isOk (by decide +kernel)
  exact ⟨by decide +kernel, events_purged_append hcounts hspells hcleanly (by decide +kernel)
    (by decide +kernel)⟩

/-- The definition of an animation that is left open swallows the next stylesheet. -/
theorem events_purged_append_keyframes :
    let j : Judge := ⟨.markup [.ofTag "a"], ⟨[], [("k", [.ofTag "a"])]⟩⟩
    let text := "@keyframes k\x7bfrom\x7bx:y"
    let next := "a\x7bb:c\x7d"
    (∃ counts, (purge j text .unlimited).result = .ok counts) ∧
      (purge j text .unlimited).sink.text = text ∧
        (∃ counts, (purge j next .unlimited).result = .ok counts) ∧
          (purge j next .unlimited).sink.text = next ∧
            events (text ++ next) ≠ events text ++ (events next).shift (Text.width text.toList) := by
  intro j text next
  refine ⟨exists_counts_of_isOk (by decide +kernel), by decide +kernel,
    exists_counts_of_isOk (by decide +kernel), by decide +kernel, ?_⟩
  decide +kernel

end StyleSieve.Purge
