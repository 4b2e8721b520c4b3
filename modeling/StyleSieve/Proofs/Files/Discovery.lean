import Mathlib.Data.List.Basic
import StyleSieve.Files.Discovery

/-!
# Discovered files

What the globs of a configuration stand for is given by a `Finder`; how a glob is followed in a file
tree is only said where it has no wildcards (`expand_of_names`). Files are found unless some glob
has a fault, and then each kind has the paths that are wanted, once each and in the order of the
globs (`Finder.Lists`). A path may be written in several ways. It is listed as it is first found
among the writings that no exclude accepts, so an exclude that accepts only some of them may bring
another one to a later place (`exclude_moves_file`).
-/

namespace StyleSieve.Files

/-- The globs for the files of a kind. -/
def globsOf (c : Config) : FileKind → List String
  | .html => c.html
  | .css => c.css
  | .words => c.words

/-- The files of a kind. -/
def FileSet.ofKind (s : FileSet) : FileKind → List SourceFile
  | .html => s.html
  | .css => s.css
  | .words => s.words

namespace Finder

/-- The paths that a glob stands for; none if it is no glob. -/
def paths (f : Finder) (glob : String) : List String :=
  match f.entries glob with
  | .error _ => []
  | .ok entries => entries.filterMap Except.toOption

/-- The glob is none, or leads to something that cannot be looked at. -/
inductive Fails (f : Finder) (glob : String) : Prop
  | invalid {cause : GlobError} (entries : f.entries glob = .error cause)
  | unreadable {entries : List (Except Unreadable String)} {entry : Unreadable}
      (found : f.entries glob = .ok entries) (mem : .error entry ∈ entries)

/-- Where a path is found first: how many globs stand before the one that finds it, and how many of
the paths of that one before it. -/
def rank (f : Finder) (path : String) : List String → Nat × Nat
  | [] => (0, 0)
  | glob :: globs =>
    if path ∈ f.paths glob then (0, (f.paths glob).idxOf path)
    else ((f.rank path globs).1 + 1, (f.rank path globs).2)

/-- One path is found before another: by an earlier glob, or earlier by the same one. -/
def Before (f : Finder) (globs : List String) (path other : String) : Prop :=
  Prod.Lex (· < ·) (· < ·) (f.rank path globs) (f.rank other globs)

/-- The path is found for the kind, is no directory and accepted by no exclude. -/
structure Wanted (f : Finder) (c : Config) (kind : FileKind) (path : String) : Prop where
  found : ∃ glob ∈ globsOf c kind, path ∈ f.paths glob
  not_directory : f.isDirectory path = false
  not_excluded : ∀ text ∈ c.exclude, ∀ g, Glob.parse text = .ok g → g.accepts path = false

/-- The files are the wanted ones of a kind: each path once, written as it is found first, in the
order in which the globs find them. -/
structure Lists (f : Finder) (c : Config) (kind : FileKind) (files : List SourceFile) : Prop where
  kinds : ∀ file ∈ files, file.kind = kind
  apart : files.Pairwise fun file other => normal file.path ≠ normal other.path
  ordered : files.Pairwise fun file other => f.Before (globsOf c kind) file.path other.path
  covers : ∀ path, f.Wanted c kind path → ∃ file ∈ files, normal file.path = normal path
  mem_iff : ∀ path, ⟨path, kind⟩ ∈ files ↔ f.Wanted c kind path ∧ ∀ other, f.Wanted c kind other →
    normal other = normal path → other = path ∨ f.Before (globsOf c kind) path other

/-- The glob accepts all writings of a wanted path or none of them. -/
def TakesWhole (f : Finder) (c : Config) (kind : FileKind) (g : Glob) : Prop :=
  ∀ path other, f.Wanted c kind path → f.Wanted c kind other → normal path = normal other →
    g.accepts path = g.accepts other

end Finder

/-- Some globs, and the same globs with some of them said again later on. -/
inductive Repeats (globs : List String) : List String → Prop
  | refl : Repeats globs globs
  | again {before between after : List String} {glob : String}
      (shorter : Repeats globs (before ++ glob :: (between ++ after))) :
      Repeats globs (before ++ glob :: (between ++ glob :: after))

theorem globsOf_exclude {c : Config} {texts : List String} {kind : FileKind} :
    globsOf { c with exclude := texts } kind = globsOf c kind := by
  cases kind <;> rfl

/-! ## Paths that are the same -/

section

variable {seen : List (List String)} {ps : List String} {p q : String}

theorem idxOf_cons_of_ne {a : String} (h : a ≠ p) : (a :: ps).idxOf p = ps.idxOf p + 1 := by
  rw [List.idxOf_cons, beq_false_of_ne h]
  rfl

theorem distinct_cons_of_seen (h : normal p ∈ seen) :
    distinct seen (p :: ps) = distinct seen ps := by
  rw [distinct, if_pos (List.contains_iff_mem.2 h)]

theorem distinct_cons_of_new (h : normal p ∉ seen) :
    distinct seen (p :: ps) = p :: distinct (normal p :: seen) ps := by
  rw [distinct, if_neg (by rwa [List.contains_iff_mem])]

/-- What is kept is what was not seen before and stands before all that is the same. -/
theorem mem_distinct_iff : p ∈ distinct seen ps ↔
    p ∈ ps ∧ normal p ∉ seen ∧ ∀ q, normal q = normal p → ps.idxOf p ≤ ps.idxOf q := by
  induction ps generalizing seen with
  | nil => simp [distinct]
  | cons a ps ih =>
    by_cases hseen : normal a ∈ seen
    · rw [distinct_cons_of_seen hseen, ih]
      refine ⟨fun ⟨hmem, hnew, hfirst⟩ => ?_, fun ⟨hmem, hnew, hfirst⟩ => ?_⟩
      · refine ⟨List.mem_cons_of_mem a hmem, hnew, fun q hsame => ?_⟩
        have hp : a ≠ p := fun h => hnew (h ▸ hseen)
        have hq : a ≠ q := fun h => hnew (hsame ▸ h ▸ hseen)
        rw [idxOf_cons_of_ne hp, idxOf_cons_of_ne hq]
        exact Nat.succ_le_succ (hfirst q hsame)
      · have hp : a ≠ p := fun h => hnew (h ▸ hseen)
        refine ⟨(List.mem_cons.1 hmem).resolve_left hp.symm, hnew, fun q hsame => ?_⟩
        have hq : a ≠ q := fun h => hnew (hsame ▸ h ▸ hseen)
        have hle := hfirst q hsame
        rw [idxOf_cons_of_ne hp, idxOf_cons_of_ne hq] at hle
        exact Nat.le_of_succ_le_succ hle
    · rw [distinct_cons_of_new hseen, List.mem_cons, ih]
      by_cases hp : a = p
      · subst hp
        simp [hseen]
      · refine ⟨fun h => ?_, fun ⟨hmem, hnew, hfirst⟩ => .inr ?_⟩
        · obtain ⟨hmem, hnew, hfirst⟩ := h.resolve_left (Ne.symm hp)
          obtain ⟨hsame, hnew⟩ := not_or.1 (mt List.mem_cons.2 hnew)
          refine ⟨List.mem_cons_of_mem a hmem, hnew, fun q hq => ?_⟩
          have hne : a ≠ q := fun h => hsame (h ▸ hq).symm
          rw [idxOf_cons_of_ne hp, idxOf_cons_of_ne hne]
          exact Nat.succ_le_succ (hfirst q hq)
        · -- The head is not the same path, since it stands before.
          have hsame : normal p ≠ normal a := by
            intro h
            have hle := hfirst a h.symm
            rw [idxOf_cons_of_ne hp, List.idxOf_cons_self] at hle
            omega
          refine ⟨(List.mem_cons.1 hmem).resolve_left (Ne.symm hp),
            mt List.mem_cons.1 (not_or.2 ⟨hsame, hnew⟩), fun q hq => ?_⟩
          have hne : a ≠ q := fun h => hsame (h ▸ hq).symm
          have hle := hfirst q hq
          rw [idxOf_cons_of_ne hp, idxOf_cons_of_ne hne] at hle
          exact Nat.le_of_succ_le_succ hle

theorem not_seen_of_mem_distinct (h : p ∈ distinct seen ps) : normal p ∉ seen :=
  (mem_distinct_iff.1 h).2.1

/-- No two paths that are kept are the same, and they are kept in order. -/
theorem pairwise_distinct (seen : List (List String)) (ps : List String) :
    (distinct seen ps).Pairwise fun p q => normal p ≠ normal q ∧ ps.idxOf p < ps.idxOf q := by
  induction ps generalizing seen with
  | nil => exact .nil
  | cons a ps ih =>
    by_cases hseen : normal a ∈ seen
    · rw [distinct_cons_of_seen hseen]
      refine (ih seen).imp_of_mem fun {p q} hp hq h => ⟨h.1, ?_⟩
      have hnep : a ≠ p := fun h => not_seen_of_mem_distinct hp (h ▸ hseen)
      have hneq : a ≠ q := fun h => not_seen_of_mem_distinct hq (h ▸ hseen)
      rw [idxOf_cons_of_ne hnep, idxOf_cons_of_ne hneq]
      exact Nat.succ_lt_succ h.2
    · rw [distinct_cons_of_new hseen]
      have hne : ∀ q ∈ distinct (normal a :: seen) ps, normal a ≠ normal q := fun q hq h =>
        not_seen_of_mem_distinct hq (List.mem_cons.2 (.inl h.symm))
      refine List.pairwise_cons.2 ⟨fun q hq => ⟨hne q hq, ?_⟩,
        (ih _).imp_of_mem fun {p q} hp hq h => ⟨h.1, ?_⟩⟩
      · have haq : a ≠ q := fun h => hne q hq (h ▸ rfl)
        rw [List.idxOf_cons_self, idxOf_cons_of_ne haq]
        omega
      · have hnep : a ≠ p := fun h => hne p hp (h ▸ rfl)
        have hneq : a ≠ q := fun h => hne q hq (h ▸ rfl)
        rw [idxOf_cons_of_ne hnep, idxOf_cons_of_ne hneq]
        exact Nat.succ_lt_succ h.2

theorem exists_mem_distinct (h : p ∈ ps) (hnew : normal p ∉ seen) :
    ∃ q ∈ distinct seen ps, normal q = normal p := by
  induction ps generalizing seen with
  | nil => simp at h
  | cons a ps ih =>
    by_cases hseen : normal a ∈ seen
    · rw [distinct_cons_of_seen hseen]
      have hp : a ≠ p := fun h => hnew (h ▸ hseen)
      exact ih ((List.mem_cons.1 h).resolve_left hp.symm) hnew
    · rw [distinct_cons_of_new hseen]
      by_cases hsame : normal a = normal p
      · exact ⟨a, List.mem_cons_self, hsame⟩
      · have hp : a ≠ p := fun h => hsame (h ▸ rfl)
        obtain ⟨q, hq, heq⟩ := ih ((List.mem_cons.1 h).resolve_left hp.symm)
          (mt List.mem_cons.1 (not_or.2 ⟨Ne.symm hsame, hnew⟩))
        exact ⟨q, List.mem_cons_of_mem a hq, heq⟩

/-- It only matters which paths have been seen. -/
theorem distinct_congr {seen' : List (List String)} (h : ∀ n, n ∈ seen ↔ n ∈ seen')
    (ps : List String) : distinct seen ps = distinct seen' ps := by
  induction ps generalizing seen seen' with
  | nil => rfl
  | cons a ps ih =>
    by_cases hseen : normal a ∈ seen
    · rw [distinct_cons_of_seen hseen, distinct_cons_of_seen ((h _).1 hseen), ih h]
    · rw [distinct_cons_of_new hseen, distinct_cons_of_new (mt (h _).2 hseen)]
      refine congrArg (a :: ·) (ih fun n => ?_)
      rw [List.mem_cons, List.mem_cons, h n]

theorem distinct_append (seen : List (List String)) (ps qs : List String) :
    distinct seen (ps ++ qs) = distinct seen ps ++ distinct (ps.map normal ++ seen) qs := by
  induction ps generalizing seen with
  | nil => rfl
  | cons a ps ih =>
    by_cases hseen : normal a ∈ seen
    · rw [List.cons_append, distinct_cons_of_seen hseen, distinct_cons_of_seen hseen, ih,
        List.map_cons, List.cons_append]
      refine congrArg _ (distinct_congr (fun n => ⟨List.mem_cons_of_mem _, fun hn => ?_⟩) qs)
      rcases List.mem_cons.1 hn with rfl | hn
      · exact List.mem_append_right _ hseen
      · exact hn
    · rw [List.cons_append, distinct_cons_of_new hseen, distinct_cons_of_new hseen, ih,
        List.cons_append]
      refine congrArg (a :: ·) (congrArg _ (distinct_congr (fun n => ?_) qs))
      simp only [List.map_cons, List.mem_cons, List.mem_append, List.cons_append]
      exact or_left_comm

theorem distinct_of_forall_seen (h : ∀ p ∈ ps, normal p ∈ seen) : distinct seen ps = [] := by
  induction ps with
  | nil => rfl
  | cons a ps ih =>
    obtain ⟨ha, hps⟩ := List.forall_mem_cons.1 h
    rw [distinct_cons_of_seen ha, ih hps]

/-- Paths that have come before may come again. -/
theorem distinct_again (as bs cs ds : List String) :
    distinct seen (as ++ (bs ++ (cs ++ (bs ++ ds)))) =
      distinct seen (as ++ (bs ++ (cs ++ ds))) := by
  have hagain : distinct ((as ++ (bs ++ cs)).map normal ++ seen) bs = [] :=
    distinct_of_forall_seen fun p hp => by
      refine List.mem_append_left _ (List.mem_map_of_mem ?_)
      exact List.mem_append_right as (List.mem_append_left cs hp)
  have hsplit : ∀ rest, as ++ (bs ++ (cs ++ rest)) = (as ++ (bs ++ cs)) ++ rest := by
    simp only [List.append_assoc, implies_true]
  rw [hsplit, hsplit, distinct_append seen _ (bs ++ ds), distinct_append seen _ ds,
    distinct_append _ bs, hagain, List.nil_append]
  refine congrArg _ (distinct_congr (fun n => ⟨fun hn => ?_, List.mem_append_right _⟩) ds)
  rcases List.mem_append.1 hn with hn | hn
  · refine List.mem_append_left _ ?_
    rw [List.map_append, List.map_append]
    exact List.mem_append_right _ (List.mem_append_left _ hn)
  · exact hn

theorem distinct_cons_of_forall_ne {n : List String} (h : ∀ p ∈ ps, normal p ≠ n) :
    distinct (n :: seen) ps = distinct seen ps := by
  induction ps generalizing seen with
  | nil => rfl
  | cons a ps ih =>
    obtain ⟨ha, hps⟩ := List.forall_mem_cons.1 h
    by_cases hseen : normal a ∈ seen
    · rw [distinct_cons_of_seen hseen, distinct_cons_of_seen (List.mem_cons_of_mem n hseen), ih hps]
    · have hnew : normal a ∉ n :: seen := mt List.mem_cons.1 (not_or.2 ⟨ha, hseen⟩)
      rw [distinct_cons_of_new hseen, distinct_cons_of_new hnew]
      refine congrArg (a :: ·) ((distinct_congr (fun m => ?_) ps).trans (ih hps))
      simp only [List.mem_cons]
      exact or_left_comm

/-- If all writings of a path are kept or none, then paths are left out of the result. -/
theorem distinct_filter {keep : String → Bool}
    (h : ∀ p ∈ ps, ∀ q ∈ ps, normal p = normal q → keep p = keep q) :
    distinct seen (ps.filter keep) = (distinct seen ps).filter keep := by
  induction ps generalizing seen with
  | nil => rfl
  | cons a ps ih =>
    have hps : ∀ p ∈ ps, ∀ q ∈ ps, normal p = normal q → keep p = keep q := fun p hp q hq =>
      h p (List.mem_cons_of_mem a hp) q (List.mem_cons_of_mem a hq)
    by_cases hkeep : keep a = true
    · rw [List.filter_cons_of_pos hkeep]
      by_cases hseen : normal a ∈ seen
      · rw [distinct_cons_of_seen hseen, distinct_cons_of_seen hseen, ih hps]
      · rw [distinct_cons_of_new hseen, distinct_cons_of_new hseen, ih hps,
          List.filter_cons_of_pos hkeep]
    · rw [List.filter_cons_of_neg hkeep]
      by_cases hseen : normal a ∈ seen
      · rw [distinct_cons_of_seen hseen, ih hps]
      · rw [distinct_cons_of_new hseen, List.filter_cons_of_neg hkeep, ← ih hps]
        refine (distinct_cons_of_forall_ne fun p hp hsame => hkeep ?_).symm
        obtain ⟨hp, hkept⟩ := List.mem_filter.1 hp
        rw [← h p (List.mem_cons_of_mem a hp) a List.mem_cons_self hsame]
        exact hkept

end

/-! ## Faults -/

section

variable {f : Finder} {c : Config} {kind : FileKind} {path : String}

/-- What is wrong with a glob of what is left out. -/
def globFault (text : String) : Option DiscoveryError :=
  match Glob.parse text with
  | .error cause => some (.invalid text cause)
  | .ok _ => none

def entryFault : Except Unreadable String → Option DiscoveryError
  | .error entry => some (.unreadable entry)
  | .ok _ => none

/-- What is wrong with a glob of files. -/
def Finder.fault (f : Finder) (glob : String) : Option DiscoveryError :=
  match f.entries glob with
  | .error cause => some (.invalid glob cause)
  | .ok entries => entries.findSome? entryFault

/-- The first fault of all globs. -/
def Finder.faultOf (f : Finder) (c : Config) : Option DiscoveryError :=
  (c.exclude.findSome? globFault).or ((c.html ++ (c.css ++ c.words)).findSome? f.fault)

/-- The globs of what is left out. -/
def excluded (c : Config) : List Glob := c.exclude.filterMap fun text => (Glob.parse text).toOption

/-- What the globs of a kind find and what is not left out. -/
def Finder.wantedPaths (f : Finder) (c : Config) (kind : FileKind) : List String :=
  ((globsOf c kind).flatMap f.paths).filter (f.isWanted (excluded c))

/-- The files of a kind if no glob has a fault. -/
def Finder.filesOf (f : Finder) (c : Config) (kind : FileKind) : List SourceFile :=
  (distinct [] (f.wantedPaths c kind)).map (⟨·, kind⟩)

theorem compile_eq (texts : List String) : compile texts =
    match texts.findSome? globFault with
    | some e => .error e
    | none => .ok (texts.filterMap fun text => (Glob.parse text).toOption) := by
  induction texts with
  | nil => rfl
  | cons text texts ih =>
    rw [compile, List.findSome?_cons, globFault]
    cases hparse : Glob.parse text with
    | error cause => rfl
    | ok g =>
      simp only [ih, List.filterMap_cons, hparse, Except.toOption]
      cases texts.findSome? globFault <;> rfl

theorem readEntries_eq (entries : List (Except Unreadable String)) : readEntries entries =
    match entries.findSome? entryFault with
    | some e => .error e
    | none => .ok (entries.filterMap Except.toOption) := by
  induction entries with
  | nil => rfl
  | cons entry entries ih =>
    cases entry with
    | error entry => rfl
    | ok path =>
      simp only [readEntries, ih, List.findSome?_cons, entryFault, List.filterMap_cons,
        Except.toOption]
      cases entries.findSome? entryFault <;> rfl

theorem expandAll_eq (f : Finder) (globs : List String) : f.expandAll globs =
    match globs.findSome? f.fault with
    | some e => .error e
    | none => .ok (globs.flatMap f.paths) := by
  induction globs with
  | nil => rfl
  | cons glob globs ih =>
    rw [Finder.expandAll, List.findSome?_cons, List.flatMap_cons, Finder.fault, Finder.paths]
    cases hentries : f.entries glob with
    | error cause => rfl
    | ok entries =>
      simp only [readEntries_eq, ih]
      cases entries.findSome? entryFault with
      | some e => rfl
      | none => cases globs.findSome? f.fault <;> rfl

theorem findKind_eq (f : Finder) (c : Config) (kind : FileKind) :
    f.findKind (excluded c) kind (globsOf c kind) =
      match (globsOf c kind).findSome? f.fault with
      | some e => .error e
      | none => .ok (f.filesOf c kind) := by
  rw [Finder.findKind, expandAll_eq]
  cases (globsOf c kind).findSome? f.fault <;> rfl

/-- Files are found unless there is a fault, and the first one is told. -/
theorem findFiles_eq (f : Finder) (c : Config) : f.findFiles c =
    match f.faultOf c with
    | some e => .error e
    | none => .ok ⟨f.filesOf c .html, f.filesOf c .css, f.filesOf c .words⟩ := by
  have hkind := findKind_eq f c
  rw [Finder.findFiles, compile_eq, Finder.faultOf, List.findSome?_append, List.findSome?_append]
  cases c.exclude.findSome? globFault with
  | some e => rfl
  | none =>
    have hhtml := hkind .html
    have hcss := hkind .css
    have hwords := hkind .words
    simp only [globsOf, excluded] at hhtml hcss hwords
    simp only [hhtml, hcss, hwords]
    cases c.html.findSome? f.fault with
    | some e => rfl
    | none =>
      cases c.css.findSome? f.fault with
      | some e => rfl
      | none => cases c.words.findSome? f.fault <;> rfl

theorem Finder.fails_iff {glob : String} : f.Fails glob ↔ f.fault glob ≠ none := by
  rw [Finder.fault]
  cases hentries : f.entries glob with
  | error cause => simp [Finder.Fails.invalid hentries]
  | ok entries =>
    refine ⟨fun h hnone => ?_, fun h => ?_⟩
    · cases h with
      | invalid hinvalid => simp [hentries] at hinvalid
      | unreadable hfound hmem =>
        obtain rfl := Except.ok.inj (hentries.symm.trans hfound)
        simpa [entryFault] using List.findSome?_eq_none_iff.1 hnone _ hmem
    · obtain ⟨e, he⟩ := Option.ne_none_iff_exists'.1 h
      obtain ⟨entry, hmem, hfault⟩ := List.exists_of_findSome?_eq_some he
      cases entry with
      | ok path => simp [entryFault] at hfault
      | error entry => exact .unreadable hentries hmem

theorem globFault_eq_none_iff {text : String} :
    globFault text = none ↔ ∃ g, Glob.parse text = .ok g := by
  rw [globFault]
  cases Glob.parse text <;> simp

/-- There is no fault just if all globs of what is left out are globs and no glob of files fails. -/
theorem Finder.faultOf_eq_none_iff : f.faultOf c = none ↔
    (∀ text ∈ c.exclude, ∃ g, Glob.parse text = .ok g) ∧
      ∀ kind, ∀ glob ∈ globsOf c kind, ¬ f.Fails glob := by
  have hglob : ∀ glob, f.fault glob = none ↔ ¬ f.Fails glob := fun glob => by
    rw [Finder.fails_iff, ne_eq, Decidable.not_not]
  rw [Finder.faultOf, Option.or_eq_none_iff, List.findSome?_eq_none_iff,
    List.findSome?_eq_none_iff]
  simp only [globFault_eq_none_iff, hglob, List.mem_append]
  refine and_congr_right' ⟨fun h kind glob hmem => ?_, fun h glob hmem => ?_⟩
  · cases kind with
    | html => exact h glob (.inl hmem)
    | css => exact h glob (.inr (.inl hmem))
    | words => exact h glob (.inr (.inr hmem))
  · rcases hmem with hmem | hmem | hmem
    · exact h .html glob hmem
    · exact h .css glob hmem
    · exact h .words glob hmem

theorem Finder.findFiles_error_iff : (∃ e, f.findFiles c = .error e) ↔
    (∃ text ∈ c.exclude, ∃ cause, Glob.parse text = .error cause) ∨
      ∃ kind, ∃ glob ∈ globsOf c kind, f.Fails glob := by
  have herror : (∃ e, f.findFiles c = .error e) ↔ f.faultOf c ≠ none := by
    rw [findFiles_eq]
    cases f.faultOf c <;> simp
  have hparse : ∀ text, (¬ ∃ g, Glob.parse text = .ok g) ↔
      ∃ cause, Glob.parse text = .error cause := by
    intro text
    cases Glob.parse text <;> simp
  rw [herror, ne_eq, Finder.faultOf_eq_none_iff, not_and_or]
  push Not
  simp only [← hparse, not_exists]

theorem Finder.findFiles_ok_iff {files : FileSet} : f.findFiles c = .ok files ↔
    f.faultOf c = none ∧ ∀ kind, files.ofKind kind = f.filesOf c kind := by
  have hfiles : (⟨f.filesOf c .html, f.filesOf c .css, f.filesOf c .words⟩ : FileSet) = files ↔
      ∀ kind, files.ofKind kind = f.filesOf c kind := by
    refine ⟨fun h kind => ?_, fun h => ?_⟩
    · subst h
      cases kind <;> rfl
    · rw [← h .html, ← h .css, ← h .words]
      rfl
  rw [findFiles_eq, ← hfiles]
  cases f.faultOf c <;> simp

/-! ## The files of a kind -/

theorem Finder.isWanted_iff : f.isWanted (excluded c) path = true ↔ f.isDirectory path = false ∧
    ∀ text ∈ c.exclude, ∀ g, Glob.parse text = .ok g → g.accepts path = false := by
  rw [Finder.isWanted, Bool.and_eq_true, Bool.not_eq_true', Bool.not_eq_true', List.any_eq_false]
  refine and_congr_right' ⟨fun h text htext g hg => ?_, fun h g hg => ?_⟩
  · refine eq_false_of_ne_true (h g (List.mem_filterMap.2 ⟨text, htext, ?_⟩))
    rw [hg]
    rfl
  · obtain ⟨text, htext, hparse⟩ := List.mem_filterMap.1 hg
    cases htold : Glob.parse text with
    | error cause => simp [htold, Except.toOption] at hparse
    | ok g' =>
      obtain rfl : g' = g := by simpa [htold, Except.toOption] using hparse
      simp [h text htext g' htold]

theorem Finder.mem_wantedPaths_iff : path ∈ f.wantedPaths c kind ↔ f.Wanted c kind path := by
  rw [Finder.wantedPaths, List.mem_filter, List.mem_flatMap, Finder.isWanted_iff]
  exact ⟨fun ⟨hfound, hdirectory, hkept⟩ => ⟨hfound, hdirectory, hkept⟩,
    fun h => ⟨h.found, h.not_directory, h.not_excluded⟩⟩

/-- The first place among all paths tells which is found before. -/
theorem Finder.before_of_idxOf {globs : List String} {path other : String}
    (h : (globs.flatMap f.paths).idxOf path < (globs.flatMap f.paths).idxOf other) :
    f.Before globs path other := by
  induction globs with
  | nil => simp at h
  | cons glob globs ih =>
    rw [List.flatMap_cons, List.idxOf_append, List.idxOf_append] at h
    unfold Finder.Before
    rw [Finder.rank, Finder.rank]
    by_cases hpath : path ∈ f.paths glob
    · by_cases hother : other ∈ f.paths glob
      · rw [if_pos hpath, if_pos hother] at h ⊢
        exact .right 0 h
      · rw [if_pos hpath, if_neg hother]
        exact .left _ _ (Nat.succ_pos _)
    · have hlength := List.idxOf_lt_length_iff (l := f.paths glob) (a := other)
      by_cases hother : other ∈ f.paths glob
      · rw [if_neg hpath, if_pos hother] at h
        have := hlength.2 hother
        omega
      · rw [if_neg hpath, if_neg hother] at h ⊢
        rcases Prod.lex_def.1 (ih (by omega)) with hlt | ⟨heq, hlt⟩
        · exact .left _ _ (Nat.succ_lt_succ hlt)
        · exact Prod.lex_def.2 (.inr ⟨congrArg (· + 1) heq, hlt⟩)

/-- Leaving out paths does not change the order of others. -/
theorem idxOf_filter_lt_iff {keep : String → Bool} {ps : List String} {p q : String}
    (hp : keep p = true) (hq : keep q = true) :
    (ps.filter keep).idxOf p < (ps.filter keep).idxOf q ↔ ps.idxOf p < ps.idxOf q := by
  induction ps with
  | nil => simp
  | cons a ps ih =>
    by_cases hkeep : keep a = true
    · rw [List.filter_cons_of_pos hkeep]
      by_cases hap : a = p
      · subst hap
        by_cases haq : a = q
        · subst haq
          simp
        · simp [idxOf_cons_of_ne haq]
      · by_cases haq : a = q
        · subst haq
          simp
        · rw [idxOf_cons_of_ne hap, idxOf_cons_of_ne haq, idxOf_cons_of_ne hap,
            idxOf_cons_of_ne haq]
          omega
    · have hap : a ≠ p := fun h => hkeep (h ▸ hp)
      have haq : a ≠ q := fun h => hkeep (h ▸ hq)
      rw [List.filter_cons_of_neg hkeep, ih, idxOf_cons_of_ne hap, idxOf_cons_of_ne haq]
      omega

/-- What is found without a fault is listed. -/
theorem Finder.lists_filesOf (f : Finder) (c : Config) (kind : FileKind) :
    f.Lists c kind (f.filesOf c kind) := by
  have hbefore : ∀ {p q}, f.Wanted c kind p → f.Wanted c kind q →
      (f.wantedPaths c kind).idxOf p < (f.wantedPaths c kind).idxOf q →
      f.Before (globsOf c kind) p q := by
    intro p q hp hq hlt
    have hp := (List.mem_filter.1 (Finder.mem_wantedPaths_iff.2 hp)).2
    have hq := (List.mem_filter.1 (Finder.mem_wantedPaths_iff.2 hq)).2
    exact Finder.before_of_idxOf ((idxOf_filter_lt_iff hp hq).1 hlt)
  have hwanted : ∀ {p}, p ∈ distinct [] (f.wantedPaths c kind) → f.Wanted c kind p := fun hp =>
    Finder.mem_wantedPaths_iff.1 (mem_distinct_iff.1 hp).1
  have hpairwise := pairwise_distinct [] (f.wantedPaths c kind)
  have hmem : ∀ path, ⟨path, kind⟩ ∈ f.filesOf c kind ↔
      path ∈ distinct [] (f.wantedPaths c kind) := by
    intro path
    rw [Finder.filesOf, List.mem_map]
    refine ⟨fun ⟨p, hp, heq⟩ => ?_, fun hp => ⟨path, hp, rfl⟩⟩
    obtain rfl : p = path := congrArg SourceFile.path heq
    exact hp
  refine
    { kinds := ?_
      apart := List.pairwise_map.2 (hpairwise.imp And.left)
      ordered := List.pairwise_map.2 (hpairwise.imp_of_mem fun hp hq h =>
        hbefore (hwanted hp) (hwanted hq) h.2)
      covers := ?_
      mem_iff := ?_ }
  · intro file hfile
    obtain ⟨p, -, rfl⟩ := List.mem_map.1 hfile
    rfl
  · intro path hpath
    have hnew : normal path ∉ ([] : List (List String)) := List.not_mem_nil
    obtain ⟨p, hp, hsame⟩ := exists_mem_distinct (Finder.mem_wantedPaths_iff.2 hpath) hnew
    exact ⟨⟨p, kind⟩, (hmem p).2 hp, hsame⟩
  · intro path
    rw [hmem, mem_distinct_iff, Finder.mem_wantedPaths_iff]
    refine and_congr_right fun hpath => ⟨fun ⟨_, hfirst⟩ other hother hsame => ?_, fun hfirst =>
      ⟨List.not_mem_nil, fun other hsame => Nat.le_of_not_lt fun hlt => ?_⟩⟩
    · by_cases heq : other = path
      · exact .inl heq
      · refine .inr (hbefore hpath hother (Nat.lt_of_le_of_ne (hfirst other hsame) ?_))
        exact fun h => heq ((List.idxOf_inj (Finder.mem_wantedPaths_iff.2 hpath)).1 h).symm
    · have hmember : other ∈ f.wantedPaths c kind :=
        List.idxOf_lt_length_iff.1 (Nat.lt_of_lt_of_le hlt List.idxOf_le_length)
      have hother := Finder.mem_wantedPaths_iff.1 hmember
      have hsooner := Prod.lex_def.1 (hbefore hother hpath hlt)
      rcases hfirst other hother hsame with rfl | hlater
      · omega
      · have hlater := Prod.lex_def.1 hlater
        omega

/-! ## Globs said again -/

theorem Repeats.mem_iff {globs globs' : List String} (h : Repeats globs globs') (glob : String) :
    glob ∈ globs' ↔ glob ∈ globs := by
  induction h with
  | refl => rfl
  | again _ ih =>
    rw [← ih]
    simp only [List.mem_append, List.mem_cons]
    tauto

theorem Repeats.findSome?_eq {globs globs' : List String} (h : Repeats globs globs')
    (fault : String → Option DiscoveryError) :
    globs'.findSome? fault = globs.findSome? fault := by
  induction h with
  | refl => rfl
  | @again before between after glob _ ih =>
    rw [← ih]
    simp only [List.findSome?_append, List.findSome?_cons]
    cases fault glob <;> rfl

theorem Repeats.distinct_eq {globs globs' : List String} (h : Repeats globs globs')
    (found : String → List String) :
    distinct [] (globs'.flatMap found) = distinct [] (globs.flatMap found) := by
  induction h with
  | refl => rfl
  | again _ ih =>
    rw [← ih]
    simp only [List.flatMap_append, List.flatMap_cons]
    exact distinct_again _ _ _ _

/-- Globs said again find nothing new and have no new fault. -/
theorem Finder.findFiles_of_repeats {c' : Config} (hexclude : Repeats c.exclude c'.exclude)
    (hglobs : ∀ kind, Repeats (globsOf c kind) (globsOf c' kind)) :
    f.findFiles c' = f.findFiles c := by
  have hwanted : f.isWanted (excluded c') = f.isWanted (excluded c) := by
    funext path
    rw [Bool.eq_iff_iff, Finder.isWanted_iff, Finder.isWanted_iff]
    simp only [hexclude.mem_iff]
  have hfiles : ∀ kind, f.filesOf c' kind = f.filesOf c kind := by
    intro kind
    rw [Finder.filesOf, Finder.filesOf, Finder.wantedPaths, Finder.wantedPaths, hwanted,
      List.filter_flatMap, List.filter_flatMap, (hglobs kind).distinct_eq]
  have hfault : f.faultOf c' = f.faultOf c := by
    have hhtml := (hglobs .html).findSome?_eq f.fault
    have hcss := (hglobs .css).findSome?_eq f.fault
    have hwords := (hglobs .words).findSome?_eq f.fault
    simp only [globsOf] at hhtml hcss hwords
    simp only [Finder.faultOf, List.findSome?_append, hexclude.findSome?_eq, hhtml, hcss, hwords]
  rw [findFiles_eq, findFiles_eq, hfault, hfiles, hfiles, hfiles]

/-! ## One exclude more -/

theorem Finder.isWanted_of_exclude {before after : List String} {text : String} {g : Glob}
    (hsplit : c.exclude = before ++ after) (hglob : Glob.parse text = .ok g) (path : String) :
    f.isWanted (excluded { c with exclude := before ++ text :: after }) path =
      (f.isWanted (excluded c) path && !g.accepts path) := by
  rw [Bool.eq_iff_iff, Bool.and_eq_true, Finder.isWanted_iff, Finder.isWanted_iff, hsplit,
    Bool.not_eq_true', and_assoc]
  refine and_congr_right' ?_
  simp only [List.mem_append, List.mem_cons]
  refine ⟨fun h => ⟨fun t ht => h t (ht.imp_right .inr), h text (.inr (.inl rfl)) g hglob⟩,
    fun ⟨hothers, haccepts⟩ t ht g' hg' => ?_⟩
  rcases ht with ht | rfl | ht
  · exact hothers t (.inl ht) g' hg'
  · obtain rfl := Except.ok.inj (hglob.symm.trans hg')
    exact haccepts
  · exact hothers t (.inr ht) g' hg'

/-- Files are left out by one exclude more. -/
theorem Finder.filesOf_of_exclude {before after : List String} {text : String} {g : Glob}
    (hsplit : c.exclude = before ++ after) (hglob : Glob.parse text = .ok g)
    (hwhole : f.TakesWhole c kind g) :
    f.filesOf { c with exclude := before ++ text :: after } kind =
      (f.filesOf c kind).filter fun file => !g.accepts file.path := by
  have hpaths : f.wantedPaths { c with exclude := before ++ text :: after } kind =
      (f.wantedPaths c kind).filter fun path => !g.accepts path := by
    rw [Finder.wantedPaths, Finder.wantedPaths, List.filter_filter]
    refine List.filter_congr fun path _ => ?_
    rw [Finder.isWanted_of_exclude hsplit hglob, Bool.and_comm]
  rw [Finder.filesOf, Finder.filesOf, hpaths, List.filter_map, distinct_filter]
  · rfl
  · intro p hp q hq hsame
    rw [hwhole p q (Finder.mem_wantedPaths_iff.1 hp) (Finder.mem_wantedPaths_iff.1 hq) hsame]

/-! ## Globs without wildcards -/

/-- The glob that stands for a name alone. -/
def Glob.ofName (name : String) : Glob := ⟨name.toList.map .char⟩

theorem literal?_ofName (name : String) : (Glob.ofName name).literal? = some name := by
  rw [Glob.literal?, Glob.ofName, List.mapM_map]
  have hchars : name.toList.mapM (fun c => some (id c)) = some (name.toList.map id) :=
    List.mapM_pure
  rw [List.map_id] at hchars
  exact (congrArg (String.ofList <$> ·) hchars).trans (congrArg some String.ofList_toList)

/-- Names are followed one by one. -/
theorem arrived_of_names {t : FileTree} {w last : Way} {names : List String}
    (hwalk : names.foldlM (Way.step t) w = some last) :
    arrived t false w (names.map Glob.ofName) = [last.path] := by
  induction names generalizing w with
  | nil =>
    obtain rfl := Option.some.inj hwalk
    rw [List.map_nil, arrived]
    rfl
  | cons name names ih =>
    rw [List.foldlM_cons] at hwalk
    obtain ⟨next, hstep, hwalk⟩ := Option.bind_eq_some_iff.1 hwalk
    rw [List.map_cons, arrived, below, literal?_ofName]
    simp only [hstep]
    exact ih hwalk

/-- A text whose parts are names stands for the path they lead to. -/
theorem expand_of_names {t : FileTree} {text : String} (names : List String) (hne : names ≠ [])
    (hglob : (Glob.parse text).isOk = true ∧ isAbsolute text = false ∧ text.endsWith "/" = false)
    (hparts : globParts (if text.isEmpty then [""] else split text) =
      .ok (names.map Glob.ofName))
    (hwalk : (names.foldlM (Way.step t) .start).map Way.path = some path) :
    expand t text = .ok [path] := by
  obtain ⟨hfine, hrelative, hends⟩ := hglob
  obtain ⟨last, hlast, rfl⟩ := Option.map_eq_some_iff.1 hwalk
  obtain ⟨name, names, rfl⟩ := List.exists_cons_of_ne_nil hne
  rw [expand, hparts, hrelative, hends, ← arrived_of_names hlast, List.map_cons, arrived]
  cases hparse : Glob.parse text with
  | ok g => rfl
  | error cause =>
    rw [hparse] at hfine
    contradiction

/-- A name of one part is the path that it stands for. -/
theorem expand_of_name {t : FileTree} {name : String}
    (hglob : (Glob.parse name).isOk = true ∧ isAbsolute name = false ∧ name.endsWith "/" = false)
    (hpart : globParts (if name.isEmpty then [""] else split name) = .ok [Glob.ofName name])
    (hstep : (Way.step t .start name).map Way.path = some name) :
    expand t name = .ok [name] := by
  refine expand_of_names [name] (List.cons_ne_nil name []) hglob hpart ?_
  rw [List.foldlM_cons]
  obtain ⟨way, hway, hpath⟩ := Option.map_eq_some_iff.1 hstep
  rw [hway]
  exact congrArg some hpath

/-- Stylesheets that are given by the paths they are found under, none of them excluded or said
twice. -/
theorem findFiles_of_stylesheets {t : FileTree} {c : Config}
    (hexclude : c.exclude.findSome? globFault = none)
    (hfound : ∀ text ∈ c.css, expand t text = .ok [text]) (hothers : c.html = [] ∧ c.words = [])
    (hkept : distinct [] (c.css.filter ((Finder.ofTree t).isWanted (excluded c))) = c.css) :
    findFiles t c = .ok ⟨[], c.css.map (⟨·, .css⟩), []⟩ := by
  have hentries : ∀ text ∈ c.css, (Finder.ofTree t).entries text = .ok [.ok text] :=
    fun text htext => congrArg (Functor.map (List.map Except.ok)) (hfound text htext)
  have hfault : c.css.findSome? (Finder.ofTree t).fault = none := by
    refine List.findSome?_eq_none_iff.2 fun text htext => ?_
    rw [Finder.fault, hentries text htext]
    rfl
  have hpaths : c.css.flatMap (Finder.ofTree t).paths = c.css := by
    have hone : ∀ text ∈ c.css, (Finder.ofTree t).paths text = [text] := fun text htext => by
      rw [Finder.paths, hentries text htext]
      rfl
    rw [List.flatMap_congr hone, List.flatMap_singleton']
  have hfaults : (Finder.ofTree t).faultOf c = none := by
    rw [Finder.faultOf, hexclude, hothers.1, hothers.2, List.nil_append, List.append_nil, hfault]
    rfl
  rw [findFiles, findFiles_eq, hfaults]
  simp only [Finder.filesOf, Finder.wantedPaths, globsOf, hothers.1, hothers.2, hpaths, hkept]
  rfl

/-! ## Discovery -/

/-- Discovery fails just if a glob has a fault. Otherwise each kind has the wanted paths, once each
and in the order of the globs. Globs said again change nothing. One exclude more brings no other
path in, and only leaves files out if it accepts all writings of a path or none. -/
theorem discovered_once_in_order (f : Finder) (c : Config) :
    ((∃ e, f.findFiles c = .error e) ↔
      (∃ text ∈ c.exclude, ∃ cause, Glob.parse text = .error cause) ∨
        ∃ kind, ∃ glob ∈ globsOf c kind, f.Fails glob) ∧
    (∀ files, f.findFiles c = .ok files → ∀ kind, f.Lists c kind (files.ofKind kind)) ∧
    (∀ c' : Config, Repeats c.exclude c'.exclude →
      (∀ kind, Repeats (globsOf c kind) (globsOf c' kind)) → f.findFiles c' = f.findFiles c) ∧
    ∀ files before after text g, f.findFiles c = .ok files → c.exclude = before ++ after →
      Glob.parse text = .ok g →
      ∃ files', f.findFiles { c with exclude := before ++ text :: after } = .ok files' ∧
        ∀ kind, (∀ file ∈ files'.ofKind kind, ∃ listed ∈ files.ofKind kind,
            normal listed.path = normal file.path) ∧
          (f.TakesWhole c kind g → files'.ofKind kind =
            (files.ofKind kind).filter fun file => !g.accepts file.path) := by
  refine ⟨Finder.findFiles_error_iff, fun files hfiles kind => ?_,
    fun c' hexclude hglobs => Finder.findFiles_of_repeats hexclude hglobs,
    fun files before after text g hfiles hsplit hglob => ?_⟩
  · rw [(Finder.findFiles_ok_iff.1 hfiles).2 kind]
    exact f.lists_filesOf c kind
  · obtain ⟨hfine, hofKind⟩ := Finder.findFiles_ok_iff.1 hfiles
    obtain ⟨hexclude, hfails⟩ := Finder.faultOf_eq_none_iff.1 hfine
    have hfine' : f.faultOf { c with exclude := before ++ text :: after } = none := by
      refine Finder.faultOf_eq_none_iff.2 ⟨fun t ht => ?_, fun kind glob hmem => ?_⟩
      · rcases List.mem_append.1 ht with ht | ht
        · exact hexclude t (hsplit ▸ List.mem_append_left after ht)
        · rcases List.mem_cons.1 ht with rfl | ht
          · exact ⟨g, hglob⟩
          · exact hexclude t (hsplit ▸ List.mem_append_right before ht)
      · exact hfails kind glob (globsOf_exclude ▸ hmem)
    refine ⟨_, by rw [findFiles_eq, hfine'], fun kind => ?_⟩
    have hofKind' := (Finder.findFiles_ok_iff.1 (by rw [findFiles_eq, hfine'])).2 kind
    rw [hofKind', hofKind]
    refine ⟨fun file hfile => ?_, Finder.filesOf_of_exclude hsplit hglob⟩
    obtain ⟨path, hpath, rfl⟩ := List.mem_map.1 hfile
    have hwanted := Finder.mem_wantedPaths_iff.1 (mem_distinct_iff.1 hpath).1
    refine (f.lists_filesOf c kind).covers path
      ⟨globsOf_exclude ▸ hwanted.found, hwanted.not_directory, fun t ht => ?_⟩
    refine hwanted.not_excluded t (List.mem_append.2 ?_)
    exact (List.mem_append.1 (hsplit ▸ ht)).imp_right (List.mem_cons_of_mem text)

/-- A file found by two globs, one of them said twice, and one left out by one exclude more. -/
theorem discovered_once_in_order_two_globs :
    let t : FileTree := ⟨[(["a"], .text ""), (["b"], .text "")]⟩
    let c := { Config.default with css := ["b", "*"], exclude := [] }
    let g : Glob := ⟨[.char 'a']⟩
    ∃ files files', (Finder.ofTree t).findFiles c = .ok files ∧
      (Finder.ofTree t).Lists c .css files.css ∧
      (Finder.ofTree t).findFiles { c with css := ["b", "*", "b"] } = .ok files ∧
      (Finder.ofTree t).findFiles { c with exclude := ["a"] } = .ok files' ∧
      files'.css = files.css.filter fun file => !g.accepts file.path := by
  intro t c g
  have hexclude : Glob.parse "a" = .ok g := by decide +kernel
  have hname : expand t "b" = .ok ["b"] :=
    expand_of_name (by decide +kernel) (by decide +kernel) (by decide +kernel)
  have hall : expand t "*" = .ok ["a", "b"] := by
    have hglob : Glob.parse "*" = .ok ⟨[.anyText]⟩ := by decide +kernel
    have hparts : globParts (if "*".isEmpty then [""] else split "*") = .ok [⟨[.anyText]⟩] := by
      decide +kernel
    rw [expand, hglob, hparts]
    simp only [below, visited, arrived]
    decide +kernel
  have hfiles : (Finder.ofTree t).findFiles c =
      .ok ⟨[], [⟨"b", .css⟩, ⟨"a", .css⟩], []⟩ := by
    simp only [Finder.findFiles, Finder.findKind, Finder.expandAll, Finder.ofTree, c,
      Config.default, compile, hname, hall]
    decide +kernel
  have hpaths : (Finder.ofTree t).wantedPaths c .css = ["b", "a", "b"] := by
    simp only [Finder.wantedPaths, Finder.paths, globsOf, Finder.ofTree, c, excluded,
      List.flatMap_cons, List.flatMap_nil, hname, hall]
    decide +kernel
  have hsame : ∀ p ∈ ["b", "a", "b"], ∀ q ∈ ["b", "a", "b"], normal p = normal q →
      g.accepts p = g.accepts q := by decide +kernel
  have hwhole : (Finder.ofTree t).TakesWhole c .css g := by
    intro p q hp hq
    rw [← Finder.mem_wantedPaths_iff, hpaths] at hp hq
    exact hsame p hp q hq
  obtain ⟨-, hlists, hrepeats, hmore⟩ := discovered_once_in_order (Finder.ofTree t) c
  obtain ⟨files', hfiles', hofKind⟩ := hmore _ [] [] "a" g hfiles rfl hexclude
  refine ⟨_, files', hfiles, hlists _ hfiles .css, ?_, hfiles', (hofKind .css).2 hwhole⟩
  rw [← hfiles]
  refine hrepeats _ .refl fun kind => ?_
  cases kind with
  | css => exact @Repeats.again _ [] ["*"] [] "b" .refl
  | html => exact .refl
  | words => exact .refl

/-- A stylesheet that is found as it is excluded is found again later on, where it is written in
another way. So the exclude does not only leave files out. -/
theorem exclude_moves_file :
    let t : FileTree := ⟨[(["d", "a"], .text ""), (["b"], .text "")]⟩
    let c := { Config.default with css := ["d/a", "b", "d/./a"], exclude := [] }
    ∃ files files', findFiles t c = .ok files ∧
      findFiles t { c with exclude := ["d/a"] } = .ok files' ∧
      files.css.map SourceFile.path = ["d/a", "b"] ∧
      files'.css.map SourceFile.path = ["b", "d/./a"] ∧
      ¬ ∃ keep, files'.css = files.css.filter keep := by
  intro t c
  have hfirst : expand t "d/a" = .ok ["d/a"] := expand_of_names ["d", "a"] (by simp)
    (by decide +kernel) (by decide +kernel) (by decide +kernel)
  have hother : expand t "b" = .ok ["b"] :=
    expand_of_name (by decide +kernel) (by decide +kernel) (by decide +kernel)
  have hagain : expand t "d/./a" = .ok ["d/./a"] := expand_of_names ["d", ".", "a"] (by simp)
    (by decide +kernel) (by decide +kernel) (by decide +kernel)
  have hexclude : Glob.parse "d/a" = .ok ⟨[.char 'd', .char '/', .char 'a']⟩ := by decide +kernel
  have hfiles : findFiles t c = .ok ⟨[], [⟨"d/a", .css⟩, ⟨"b", .css⟩], []⟩ := by
    simp only [findFiles, Finder.findFiles, Finder.findKind, Finder.expandAll, Finder.ofTree, c,
      Config.default, compile, hfirst, hother, hagain]
    decide +kernel
  have hfiles' : findFiles t { c with exclude := ["d/a"] } =
      .ok ⟨[], [⟨"b", .css⟩, ⟨"d/./a", .css⟩], []⟩ := by
    simp only [findFiles, Finder.findFiles, Finder.findKind, Finder.expandAll, Finder.ofTree, c,
      Config.default, compile, hexclude, hfirst, hother, hagain]
    decide +kernel
  refine ⟨_, _, hfiles, hfiles', rfl, rfl, ?_⟩
  rintro ⟨keep, hkeep⟩
  have hmem : (⟨"d/./a", .css⟩ : SourceFile) ∈ [(⟨"d/a", .css⟩ : SourceFile), ⟨"b", .css⟩] := by
    refine (List.mem_filter (p := keep)).1 ?_ |>.1
    rw [← hkeep]
    simp
  exact absurd hmem (by decide)

end

end StyleSieve.Files
