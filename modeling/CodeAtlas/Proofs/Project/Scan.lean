import CodeAtlas.Proofs.Files.Tree
import CodeAtlas.Proofs.Text.Case
import CodeAtlas.Project.Scan
import Mathlib.Data.String.Basic

/-!
# The files that a scan finds

A scan of a directory tree without ignore files finds the source files in it that the options allow,
in the order of the names on the way to them. Which files these are depends on the tree only, and not
on where the tree is.

Main definitions:

- `ScanOptions.Wants`: a file is to be found, by its names below the root and its size.
- `ScanOptions.Selects`: names lead to the files that are to be found in a tree.

Main results:

- Theorem `mem_found`: what is found in an entry.
- Theorem `pairwise_found`: what is found is in the order of the names.
- Theorem `scan_selects`: what a scan of a tree finds, wherever the tree is.
-/

namespace CodeAtlas.Project

open CodeAtlas.Files

/-! ## Wanted files -/

/-- A name that is not passed over: it is not hidden and not that of a directory without sources. -/
structure IsWalked (name : String) : Prop where
  visible : name.toList.head? ≠ some '.'
  inScope : String.ofList (Text.lowercase name.toList) ∉ ignoredScopes

/-- A name that ends in a dot, the letter P and the letter Y, behind something else. -/
def IsSourceName (name : String) : Prop :=
  ∃ front p y, front ≠ [] ∧ name.toList = front ++ ['.', p, y] ∧ p ∈ ['p', 'P'] ∧ y ∈ ['y', 'Y']

/-- The options allow a file, by its path below the root and its size. -/
structure ScanOptions.Admits (o : ScanOptions) (relative : String) (size : Nat) : Prop where
  size_le : ∀ limit, o.maxFileSize = some limit → size ≤ limit
  patterns : ∀ pattern ∈ o.excludePatterns, ¬ pattern.toList <:+: relative.toList
  tests : o.includeTests = false → ∀ mark ∈ testMarks, ¬ mark.toList <:+: relative.toList
  docs : o.includeDocs = false → ∀ mark ∈ docMarks, ¬ mark.toList <:+: relative.toList

/-- A file is to be found, by the names that lead to it from the root and its size. -/
structure ScanOptions.Wants (o : ScanOptions) (names : List String) (size : Nat) : Prop where
  walked : ∀ name ∈ names, IsWalked name
  source : ∃ name, names.getLast? = some name ∧ IsSourceName name
  admits : o.Admits ("/".intercalate names) size

/-- Names lead to the files that are to be found in a tree, and are in their order. -/
structure ScanOptions.Selects (o : ScanOptions) (e : Entry) (found : List (List String)) :
    Prop where
  mem_iff : ∀ names, names ∈ found ↔
    ∃ bytes, e.at? names = some (.file bytes) ∧ o.Wants names bytes.length
  increasing : found.Pairwise (· < ·)

theorem contains_eq_true_iff {text part : String} :
    Text.contains text part = true ↔ part.toList <:+: text.toList :=
  Text.occursIn_iff_infix

theorem ScanOptions.admits_iff {o : ScanOptions} {relative : String} {size : Nat} :
    o.admits relative size = true ↔ o.Admits relative size := by
  have hnone : ∀ parts : List String, parts.any (Text.contains relative) = false ↔
      ∀ part ∈ parts, ¬ part.toList <:+: relative.toList := by
    intro parts
    simp only [List.any_eq_false, contains_eq_true_iff]
  have hsize : o.maxFileSize.all (fun limit => decide (size ≤ limit)) = true ↔
      ∀ limit, o.maxFileSize = some limit → size ≤ limit := by
    cases o.maxFileSize <;> simp
  simp only [admits, Bool.and_eq_true, Bool.or_eq_true, Bool.not_eq_true', hnone, hsize]
  constructor
  · rintro ⟨⟨⟨hsize, hpatterns⟩, htests⟩, hdocs⟩
    refine ⟨hsize, hpatterns, fun h => ?_, fun h => ?_⟩
    · exact htests.resolve_left (by simp [h])
    · exact hdocs.resolve_left (by simp [h])
  · intro h
    refine ⟨⟨⟨h.size_le, h.patterns⟩, ?_⟩, ?_⟩
    · exact or_iff_not_imp_left.2 (fun hoff => h.tests (Bool.not_eq_true _ ▸ hoff))
    · exact or_iff_not_imp_left.2 (fun hoff => h.docs (Bool.not_eq_true _ ▸ hoff))

/-- The letters P and Y in either case. -/
theorem toLower_eq_iff (c : Char) :
    (c.toLower = 'p' ↔ c ∈ ['p', 'P']) ∧ (c.toLower = 'y' ↔ c ∈ ['y', 'Y']) := by
  refine Text.toLower_cases (P := fun c d => (d = 'p' ↔ c ∈ ['p', 'P']) ∧
    (d = 'y' ↔ c ∈ ['y', 'Y'])) (by decide +kernel) (fun c hc => ?_) c
  have hne : ∀ d : Char, d.toNat < 128 → c ≠ d := by
    rintro d hd rfl
    omega
  simp [hne]

theorem asciiLowercase_eq_iff {cs : List Char} :
    Text.asciiLowercase cs = ['p', 'y'] ↔
      ∃ p y, cs = [p, y] ∧ p ∈ ['p', 'P'] ∧ y ∈ ['y', 'Y'] := by
  constructor
  · intro h
    obtain ⟨p, hp⟩ : ∃ p y, cs = [p, y] := by
      have hlength : cs.length = 2 := by simpa [Text.asciiLowercase] using congrArg List.length h
      exact List.length_eq_two.1 hlength
    obtain ⟨y, rfl⟩ := hp
    obtain ⟨hp, hy⟩ : p.toLower = 'p' ∧ y.toLower = 'y' := by simpa [Text.asciiLowercase] using h
    exact ⟨p, y, rfl, (toLower_eq_iff p).1.1 hp, (toLower_eq_iff y).2.1 hy⟩
  · rintro ⟨p, y, rfl, hp, hy⟩
    simp [Text.asciiLowercase, (toLower_eq_iff p).1.2 hp, (toLower_eq_iff y).2.2 hy]

theorem isSourceName_iff {name : String} :
    (Path.splitExtension name).2.any (fun e => Text.asciiLowercase e.toList == ['p', 'y']) = true ↔
      IsSourceName name := by
  simp only [Option.any_eq_true, beq_iff_eq, asciiLowercase_eq_iff, Path.splitExtension_eq_some_iff]
  constructor
  · rintro ⟨e, ⟨front, hfront, hname, -⟩, p, y, he, hp, hy⟩
    exact ⟨front, p, y, hfront, by rw [hname, he], hp, hy⟩
  · rintro ⟨front, p, y, hfront, hname, hp, hy⟩
    refine ⟨String.ofList [p, y], ⟨front, hfront, by simp [hname], ?_⟩, p, y, by simp, hp, hy⟩
    simp only [List.mem_cons, List.not_mem_nil, or_false] at hp hy
    rcases hp with rfl | rfl <;> rcases hy with rfl | rfl <;> simp

/-- Whether a path leads to a source file is seen from the last name. -/
theorem isSourceFile_intercalate {names : List String} (h : ∀ name ∈ names, Path.IsFileName name) :
    isSourceFile ("/".intercalate names) = true ↔
      ∃ name, names.getLast? = some name ∧ IsSourceName name := by
  rw [isSourceFile, Path.extension_intercalate h]
  cases names.getLast? with
  | none => simp
  | some name => simpa using isSourceName_iff

/-! ## Walking -/

/-- The directories that a walk comes from have no rules. -/
def WalkPlace.IsSilent (p : WalkPlace) : Prop := ∀ l ∈ p.levels, l.IsSilent

theorem isSkipped_eq_false_iff {p : WalkPlace} (h : p.IsSilent) (name : String)
    (isDirectory : Bool) : isSkipped p name isDirectory = false ↔ IsWalked name := by
  have hhidden : isHidden name = false ↔ name.toList.head? ≠ some '.' := by
    rw [← Bool.not_eq_true, isHidden, List.isPrefixOf_iff_prefix]
    cases name.toList with
    | nil => simp
    | cons c rest => simp [List.cons_prefix_cons, eq_comm]
  have hscope : isIgnoredScope name = false ↔
      String.ofList (Text.lowercase name.toList) ∉ ignoredScopes := by
    rw [isIgnoredScope, List.contains_eq_mem, decide_eq_false_iff_not]
  rw [isSkipped, judge_of_forall_isSilent h, Bool.or_eq_false_iff, hscope, hhidden]
  exact ⟨fun ⟨hscope, hvisible⟩ => ⟨hvisible, hscope⟩, fun ⟨hvisible, hscope⟩ => ⟨hscope, hvisible⟩⟩

/-- A walk in a directory, of which it knows the rules as well. -/
def WalkPlace.inside (p : WalkPlace) (e : Entry) : WalkPlace :=
  { p with levels := IgnoreLevel.ofDirectory false p.fromTop.length e :: p.levels }

@[simp]
theorem WalkPlace.fromRoot_enter_inside (p : WalkPlace) (e : Entry) (name : String) :
    ((p.inside e).enter name).fromRoot = p.fromRoot ++ [name] :=
  rfl

theorem WalkPlace.IsSilent.enter {p : WalkPlace} (h : p.IsSilent) (name : String) :
    (p.enter name).IsSilent :=
  h

theorem WalkPlace.IsSilent.inside {p : WalkPlace} (h : p.IsSilent) {e : Entry}
    (he : e.HasNoIgnoreFile) : (p.inside e).IsSilent :=
  List.forall_mem_cons.2
    ⟨IgnoreLevel.isSilent_ofDirectory (Entry.hasNoIgnoreFile_iff.1 he).1 _, h⟩

/-- What is found at the name of an entry. -/
def foundAt (o : ScanOptions) (p : WalkPlace) (c : String × Entry) : String × List (List String) :=
  (c.1, if isSkipped (p.enter c.1) c.1 c.2.isDirectory then [] else found o (p.enter c.1) c.2)

theorem foundAmong_eq_map (o : ScanOptions) (p : WalkPlace) (entries : List (String × Entry)) :
    foundAmong o p entries = entries.map (foundAt o p) := by
  induction entries with
  | nil => rw [foundAmong, List.map_nil]
  | cons c rest ih =>
    obtain ⟨name, e⟩ := c
    rw [foundAmong, ih, List.map_cons, foundAt]

theorem mem_foundAt {o : ScanOptions} {p : WalkPlace} (h : p.IsSilent) {c : String × Entry}
    {names : List String} :
    names ∈ (foundAt o p c).2 ↔ IsWalked c.1 ∧ names ∈ found o (p.enter c.1) c.2 := by
  have hskipped : isSkipped (p.enter c.1) c.1 c.2.isDirectory = false ↔ IsWalked c.1 :=
    isSkipped_eq_false_iff (h.enter c.1) c.1 c.2.isDirectory
  rw [foundAt, ← hskipped]
  cases isSkipped (p.enter c.1) c.1 c.2.isDirectory <;> simp

/-- Different names are strictly increasing when they are sorted. -/
theorem pairwise_lt_mergeSort {α : Type} {cs : List (String × α)} (h : (cs.map Prod.fst).Nodup) :
    (cs.mergeSort (fun a b => decide (a.1 ≤ b.1))).Pairwise (fun a b => a.1 < b.1) := by
  have hsorted : (cs.mergeSort (fun a b => decide (a.1 ≤ b.1))).Pairwise (fun a b => a.1 ≤ b.1) := by
    refine (List.pairwise_mergeSort (fun a b c hab hbc => ?_) (fun a b => ?_) cs).imp
      of_decide_eq_true
    · exact decide_eq_true (le_trans (of_decide_eq_true hab) (of_decide_eq_true hbc))
    · simpa using le_total a.1 b.1
  have hnodup := ((List.mergeSort_perm cs (fun a b => decide (a.1 ≤ b.1))).map Prod.fst).nodup_iff.2 h
  exact hsorted.imp₂ (fun _ _ hle hne => lt_of_le_of_ne hle hne) (List.pairwise_map.1 hnodup)

section Walk

variable {o : ScanOptions} (hgit : o.respectGitignore = false)

include hgit

theorem found_directory_eq (p : WalkPlace) (entries : List (String × Entry)) :
    found o p (.directory entries) =
      inNameOrder (entries.map (foundAt o (p.inside (.directory entries)))) := by
  rw [found_directory, hgit, foundAmong_eq_map]
  rfl

/-- What is found in a directory is what is found in the entries that are not passed over. -/
theorem mem_found_directory {p : WalkPlace} {entries : List (String × Entry)}
    (h : (p.inside (.directory entries)).IsSilent) {names : List String} :
    names ∈ found o p (.directory entries) ↔ ∃ c ∈ entries, IsWalked c.1 ∧
      names ∈ found o ((p.inside (.directory entries)).enter c.1) c.2 := by
  rw [found_directory_eq hgit, inNameOrder, List.mem_flatMap]
  simp only [List.mem_mergeSort, List.mem_map, exists_exists_and_eq_and, mem_foundAt h]

/-- What is found in an entry are the files in it on the way to which nothing is passed over, if they
are source files that the options allow. -/
theorem mem_found {e : Entry} (hproper : e.IsProper) (hignore : e.HasNoIgnoreFile) {p : WalkPlace}
    (h : p.IsSilent) {names : List String} :
    names ∈ found o p e ↔ ∃ below bytes, names = p.fromRoot ++ below ∧
      e.at? below = some (.file bytes) ∧ (∀ name ∈ below, IsWalked name) ∧
      isSourceFile ("/".intercalate names) = true ∧
      o.admits ("/".intercalate names) bytes.length = true := by
  -- no names lead on from a file, and the first one that leads on from a directory is that of an entry
  induction e using Entry.entriesInduction generalizing p with
  | file bytes =>
    rw [found]
    constructor
    · intro hnames
      split at hnames
      · next hwanted =>
        obtain rfl := List.mem_singleton.1 hnames
        exact ⟨[], bytes, by simp, rfl, by simp, by simpa using hwanted⟩
      · cases hnames
    · rintro ⟨below, content, rfl, hat, -, hsource, hadmits⟩
      cases below with
      | nil =>
        obtain rfl : bytes = content := by simpa using hat
        simp_all
      | cons name rest => simp [Entry.at?_cons] at hat
  | directory entries ih =>
    have hinside := h.inside hignore
    rw [mem_found_directory hgit hinside]
    constructor
    · rintro ⟨c, hc, hwalked, hnames⟩
      have hchild := hproper.child?_eq_some_iff.2 hc
      obtain ⟨below, bytes, rfl, hat, hbelow, hwanted⟩ :=
        (ih c hc (hproper.of_mem hc) (hignore.of_child? hchild) (hinside.enter c.1)).1 hnames
      refine ⟨c.1 :: below, bytes, ?_, ?_, List.forall_mem_cons.2 ⟨hwalked, hbelow⟩, hwanted⟩
      · rw [WalkPlace.fromRoot_enter_inside, List.append_assoc, List.singleton_append]
      · rw [Entry.at?_cons, hchild, Option.bind_some, hat]
    · rintro ⟨below, bytes, rfl, hat, hbelow, hwanted⟩
      cases below with
      | nil => simp at hat
      | cons name rest =>
        rw [Entry.at?_cons, Option.bind_eq_some_iff] at hat
        obtain ⟨child, hchild, hrest⟩ := hat
        obtain ⟨hwalked, hbelow⟩ := List.forall_mem_cons.1 hbelow
        have hc := Entry.mem_of_child? hchild
        refine ⟨(name, child), hc, hwalked, ?_⟩
        exact (ih _ hc (hproper.of_mem hc) (hignore.of_child? hchild) (hinside.enter name)).2
          ⟨rest, bytes, by rw [WalkPlace.fromRoot_enter_inside, List.append_assoc,
            List.singleton_append], hrest, hbelow, hwanted⟩

/-- What is found is strictly increasing in the order of the names. -/
theorem pairwise_found {e : Entry} (hproper : e.IsProper) (hignore : e.HasNoIgnoreFile)
    {p : WalkPlace} (h : p.IsSilent) : (found o p e).Pairwise (· < ·) := by
  induction e using Entry.entriesInduction generalizing p with
  | file bytes =>
    rw [found]
    split
    · exact List.pairwise_singleton _ _
    · exact List.Pairwise.nil
  | directory entries ih =>
    have hinside := h.inside hignore
    have hin : ∀ c ∈ entries, c.2.IsProper ∧ c.2.HasNoIgnoreFile := fun c hc =>
      ⟨hproper.of_mem hc, hignore.of_child? (hproper.child?_eq_some_iff.2 hc)⟩
    rw [found_directory_eq hgit, inNameOrder, List.pairwise_flatMap]
    constructor
    · -- inside of one entry
      intro c hc
      obtain ⟨d, hd, rfl⟩ := List.mem_map.1 (List.mem_mergeSort.1 hc)
      rw [foundAt]
      dsimp only
      split
      · exact List.Pairwise.nil
      · exact ih d hd (hin d hd).1 (hin d hd).2 (hinside.enter d.1)
    · -- in different entries the names differ first where the entries do
      have hnodup : ((entries.map (foundAt o (p.inside (.directory entries)))).map Prod.fst).Nodup := by
        simpa [foundAt, Function.comp_def] using hproper.nodup
      have hstarts : ∀ c ∈ (entries.map (foundAt o (p.inside (.directory entries)))).mergeSort
          (fun a b => decide (a.1 ≤ b.1)), ∀ names ∈ c.2,
            ∃ below, names = p.fromRoot ++ c.1 :: below := by
        intro c hc names hnames
        obtain ⟨d, hd, rfl⟩ := List.mem_map.1 (List.mem_mergeSort.1 hc)
        obtain ⟨-, hfound⟩ := (mem_foundAt hinside).1 hnames
        obtain ⟨below, -, rfl, -⟩ :=
          (mem_found hgit (hin d hd).1 (hin d hd).2 (hinside.enter d.1)).1 hfound
        exact ⟨below, by rw [WalkPlace.fromRoot_enter_inside, List.append_assoc,
          List.singleton_append, foundAt]⟩
      refine (pairwise_lt_mergeSort hnodup).imp_of_mem (fun ha hb hlt x hx y hy => ?_)
      obtain ⟨front, rfl⟩ := hstarts _ ha x hx
      obtain ⟨back, rfl⟩ := hstarts _ hb y hy
      exact List.append_left_lt (List.cons_lt_cons_iff.2 (Or.inl hlt))

/-- No directory on the way to a place has rules. -/
theorem isSilent_levelsAbove {e : Entry} {place : List String} (h : e.HasNoIgnoreFileTowards place)
    (depth : Nat) {levels : List IgnoreLevel} (hlevels : ∀ l ∈ levels, l.IsSilent) :
    ∀ l ∈ levelsAbove o depth levels e place, l.IsSilent := by
  induction place generalizing e depth levels with
  | nil => exact hlevels
  | cons name rest ih =>
    rw [levelsAbove, hgit]
    refine ih h.tail (depth + 1) (List.forall_mem_cons.2 ⟨?_, hlevels⟩)
    exact IgnoreLevel.isSilent_ofDirectory h.here depth

end Walk

/-! ## Scans -/

/-- Names that are strictly increasing are determined by which ones they are. -/
theorem eq_of_pairwise_lt {found others : List (List String)} (hfound : found.Pairwise (· < ·))
    (hothers : others.Pairwise (· < ·)) (h : ∀ names, names ∈ found ↔ names ∈ others) :
    found = others := by
  refine List.Perm.eq_of_pairwise (fun a b _ _ hab hba => ?_) hfound hothers
    ((List.perm_ext_iff_of_nodup hfound.nodup hothers.nodup).2 h)
  exact absurd (List.lt_trans hab hba) (List.lt_irrefl a)

section Scan

variable {o : ScanOptions} {entries : List (String × Entry)} (hgit : o.respectGitignore = false)
  (hproper : (Entry.directory entries).IsProper)
  (hignore : (Entry.directory entries).HasNoIgnoreFile)

include hgit hproper hignore

/-- A walk finds the files that are to be found, wherever it comes from. -/
theorem selects_found {p : WalkPlace} (h : p.IsSilent) (hroot : p.fromRoot = []) :
    o.Selects (.directory entries) (found o p (.directory entries)) := by
  refine ⟨fun names => ?_, pairwise_found hgit hproper hignore h⟩
  rw [mem_found hgit hproper hignore h, hroot]
  constructor
  · rintro ⟨below, bytes, rfl, hat, hwalked, hsource, hadmits⟩
    exact ⟨bytes, hat, hwalked, (isSourceFile_intercalate (hproper.isFileName_of_at? hat)).1 hsource,
      ScanOptions.admits_iff.1 hadmits⟩
  · rintro ⟨bytes, hat, h⟩
    exact ⟨names, bytes, rfl, hat, h.walked,
      (isSourceFile_intercalate (hproper.isFileName_of_at? hat)).2 h.source,
      ScanOptions.admits_iff.2 h.admits⟩

end Scan

/-- The names of a file that is found are names of files, and there is one at least. -/
theorem ScanOptions.Selects.names {o : ScanOptions} {e : Entry} {found : List (List String)}
    (h : o.Selects e found) (hproper : e.IsProper) {names : List String} (hnames : names ∈ found) :
    names ≠ [] ∧ ∀ name ∈ names, Path.IsFileName name := by
  obtain ⟨bytes, hat, hwants⟩ := (h.mem_iff names).1 hnames
  refine ⟨?_, hproper.isFileName_of_at? hat⟩
  rintro rfl
  obtain ⟨name, hlast, -⟩ := hwants.source
  cases hlast

theorem ne_empty_of_locate {w : Workspace} {path : String} {place : List String} {e : Entry}
    (h : w.locate path = .ok (place, e)) : path ≠ "" := by
  rintro rfl
  cases h

/-- The paths of files below a directory, by the names that lead to them. -/
def pathsBelow (root : String) (found : List (List String)) : List String :=
  found.map (fun names => Path.slashed root ++ "/".intercalate names)

/-- Paths below a directory are in the order of the names behind it. -/
theorem pairwise_pathsBelow (root : String) {found : List (List String)}
    (hfound : found.Pairwise (· < ·))
    (hnames : ∀ names ∈ found, ∀ name ∈ names, Path.IsFileName name) :
    (pathsBelow root found).Pairwise (fun a b => Path.components a < Path.components b) := by
  rw [pathsBelow, List.pairwise_map]
  refine hfound.imp_of_mem (fun {a b} ha hb hlt => ?_)
  rw [Path.components_slashed_append, Path.components_slashed_append,
    Path.components_intercalate (hnames a ha), Path.components_intercalate (hnames b hb)]
  exact List.append_left_lt hlt

/-- A scan of a tree finds the source files in it that the options allow, strictly increasing in the
order of the components of their paths. Wherever the tree is, the paths are the same but for what
leads to the tree. -/
theorem scan_selects {o : ScanOptions} (hgit : o.respectGitignore = false)
    {entries : List (String × Entry)} (hproper : (Entry.directory entries).IsProper)
    (hignore : (Entry.directory entries).HasNoIgnoreFile) :
    ∃ found, o.Selects (.directory entries) found ∧
      ∀ (w : Workspace) (root : String) (place : List String),
        w.locate root = .ok (place, .directory entries) → w.top.HasNoIgnoreFileTowards place →
          scan w root o = pathsBelow root found ∧
          (scan w root o).Pairwise (fun a b => Path.components a < Path.components b) := by
  have hselects := selects_found hgit hproper hignore (p := ⟨[], [], []⟩) nofun rfl
  have hnames := fun names (h : names ∈ _) => hselects.names hproper h
  refine ⟨_, hselects, fun w root place hlocate habove => ?_⟩
  have hsame := selects_found hgit hproper hignore
    (p := ⟨levelsAbove o 0 [] w.top place, place, []⟩) (isSilent_levelsAbove hgit habove 0 nofun) rfl
  have hscan : scan w root o = pathsBelow root (found o ⟨[], [], []⟩ (.directory entries)) := by
    -- the walk knows other directories above, but finds the same files in the same order
    rw [scan_of_directory hlocate, eq_of_pairwise_lt hsame.increasing hselects.increasing
      (fun names => (hsame.mem_iff names).trans (hselects.mem_iff names).symm)]
    exact List.map_congr_left (fun names h =>
      Path.foldl_join (ne_empty_of_locate hlocate) (hnames names h).1 (hnames names h).2)
  rw [hscan]
  exact ⟨rfl, pairwise_pathsBelow root hselects.increasing (fun names h => (hnames names h).2)⟩

/-- A tree with a source file in capital letters, a test, and a directory without sources. -/
def smallEntries : List (String × Entry) := [
  ("b.py", .file [0]),
  ("app", .directory [("main.PY", .file []), ("test_main.py", .file [])]),
  ("Venv", .directory [("tool.py", .file [])])]

theorem isProper_smallEntries : (Entry.directory smallEntries).IsProper := by
  refine .directory (by decide +kernel) (by decide +kernel) ?_
  simp only [smallEntries, List.forall_mem_cons]
  refine ⟨.file _, .directory (by decide +kernel) (by decide +kernel) ?_,
    .directory (by decide +kernel) (by decide +kernel) ?_, nofun⟩
  · simp [Entry.IsProper.file]
  · simp [Entry.IsProper.file]

theorem hasNoIgnoreFile_smallEntries : (Entry.directory smallEntries).HasNoIgnoreFile := by
  refine Entry.hasNoIgnoreFile_directory (by decide +kernel) ?_
  simp only [smallEntries, List.forall_mem_cons]
  refine ⟨Entry.hasNoIgnoreFile_file _, Entry.hasNoIgnoreFile_directory (by decide +kernel) ?_,
    Entry.hasNoIgnoreFile_directory (by decide +kernel) ?_, nofun⟩
  · simp [Entry.hasNoIgnoreFile_file]
  · simp [Entry.hasNoIgnoreFile_file]

/-- The small tree at the top of a workspace, and in a directory of another one. -/
theorem scan_selects_smallEntries :
    let o : ScanOptions := { includeTests := false, respectGitignore := false }
    ∃ found, o.Selects (.directory smallEntries) found ∧
      scan ⟨"/work", .directory smallEntries, []⟩ "." o = pathsBelow "." found ∧
      scan ⟨"/", .directory [("src", .directory smallEntries)], []⟩ "/src/" o =
        pathsBelow "/src/" found := by
  intro o
  obtain ⟨found, hselects, hscan⟩ :=
    scan_selects (o := o) rfl isProper_smallEntries hasNoIgnoreFile_smallEntries
  have hsrc : (Entry.directory [("src", .directory smallEntries)]).HasNoIgnoreFile :=
    Entry.hasNoIgnoreFile_directory (by decide +kernel)
      (by simpa using hasNoIgnoreFile_smallEntries)
  exact ⟨found, hselects,
    (hscan _ "." [] rfl (fun above _ bytes => hasNoIgnoreFile_smallEntries above bytes)).1,
    (hscan _ "/src/" ["src"] rfl (fun above _ bytes => hsrc above bytes)).1⟩

end CodeAtlas.Project
