import CodeAtlas.Files.Ignore
import CodeAtlas.Proofs.Files.Path
import Mathlib.Data.List.Nodup

/-!
# Directory trees

What names lead to in a directory tree, and trees as they may stand on a disk: the entries of a
directory have different names, which are names of files.

Main definitions:

- `Entry.at?`: what names lead to.
- `Entry.IsProper`: a tree as it may stand on a disk.
- `Entry.HasNoIgnoreFile`, `Entry.HasNoIgnoreFileTowards`: there are no general ignore files in a tree,
  or on the way to a place.

Main results:

- Theorem `Entry.entriesInduction`: induction on trees of files.
- Theorem `Entry.IsProper.child?_eq_some_iff`: an entry has one name, and a name leads to one entry.
- Theorem `judge_of_forall_isSilent`: directories without rules say nothing about an entry.
-/

namespace CodeAtlas.Files

namespace Entry

/-- Induction on trees: what holds of files, and of directories if it holds of what is in them. -/
@[elab_as_elim]
theorem entriesInduction {motive : Entry → Prop} (file : ∀ bytes, motive (.file bytes))
    (directory : ∀ entries : List (String × Entry), (∀ c ∈ entries, motive c.2) →
      motive (.directory entries)) (e : Entry) : motive e :=
  Entry.rec (motive_1 := motive) (motive_2 := fun entries => ∀ c ∈ entries, motive c.2)
    (motive_3 := fun c => motive c.2) file directory (fun _ h => absurd h List.not_mem_nil)
    (fun _ _ hc hrest => List.forall_mem_cons.2 ⟨hc, hrest⟩) (fun _ _ h => h) e

/-- What names lead to. -/
def at? : Entry → List String → Option Entry
  | e, [] => some e
  | e, name :: rest => (e.child? name).bind (fun child => child.at? rest)

/-- Trees as they may stand on a disk: the entries of a directory have different names. -/
inductive IsProper : Entry → Prop where
  | file (bytes : List UInt8) : IsProper (.file bytes)
  | directory {entries : List (String × Entry)} (hnodup : (entries.map Prod.fst).Nodup)
    (hnames : ∀ c ∈ entries, Path.IsFileName c.1) (h : ∀ c ∈ entries, IsProper c.2) :
    IsProper (.directory entries)

/-- No general ignore file is in a tree. -/
def HasNoIgnoreFile (e : Entry) : Prop :=
  ∀ names bytes, e.at? (names ++ [".ignore"]) ≠ some (.file bytes)

/-- No general ignore file is in the directories on the way to a place. -/
def HasNoIgnoreFileTowards (e : Entry) (place : List String) : Prop :=
  ∀ above, above <+: place → ∀ bytes, e.at? (above ++ [".ignore"]) ≠ some (.file bytes)

variable {entries : List (String × Entry)} {name : String} {child : Entry}

@[simp]
theorem at?_nil (e : Entry) : e.at? [] = some e := rfl

theorem at?_cons (e : Entry) (name : String) (rest : List String) :
    e.at? (name :: rest) = (e.child? name).bind (fun child => child.at? rest) :=
  rfl

@[simp]
theorem child?_file (bytes : List UInt8) (name : String) : (file bytes).child? name = none := rfl

theorem mem_of_child? (h : (directory entries).child? name = some child) :
    (name, child) ∈ entries := by
  obtain ⟨⟨found, e⟩, hfind, rfl⟩ := Option.map_eq_some_iff.1 h
  obtain rfl : found = name := by simpa using List.find?_some hfind
  exact List.mem_of_find?_eq_some hfind

namespace IsProper

theorem nodup (h : (Entry.directory entries).IsProper) : (entries.map Prod.fst).Nodup := by
  cases h
  assumption

theorem isFileName (h : (Entry.directory entries).IsProper) {c : String × Entry} (hc : c ∈ entries) :
    Path.IsFileName c.1 := by
  cases h with
  | directory _ hnames _ => exact hnames c hc

theorem of_mem (h : (Entry.directory entries).IsProper) {c : String × Entry} (hc : c ∈ entries) :
    c.2.IsProper := by
  cases h with
  | directory _ _ hentries => exact hentries c hc

/-- An entry has one name, and a name leads to one entry. -/
theorem child?_eq_some_iff (h : (Entry.directory entries).IsProper) :
    (Entry.directory entries).child? name = some child ↔ (name, child) ∈ entries := by
  refine ⟨mem_of_child?, fun hmem => ?_⟩
  obtain ⟨found, hfound⟩ : ∃ found, (Entry.directory entries).child? name = some found := by
    rw [← Option.isSome_iff_exists, child?, Option.isSome_map, List.find?_isSome]
    exact ⟨_, hmem, beq_self_eq_true name⟩
  have hsame := List.inj_on_of_nodup_map h.nodup (mem_of_child? hfound) hmem rfl
  rw [hfound, (Prod.mk.inj hsame).2]

/-- The names on the way to something are names of files. -/
theorem isFileName_of_at? {e : Entry} (h : e.IsProper) {names : List String}
    (hat : e.at? names = some child) : ∀ name ∈ names, Path.IsFileName name := by
  induction names generalizing e with
  | nil => exact fun _ hname => absurd hname List.not_mem_nil
  | cons name rest ih =>
    rw [at?_cons, Option.bind_eq_some_iff] at hat
    obtain ⟨next, hnext, hrest⟩ := hat
    cases e with
    | file bytes => cases hnext
    | directory entries =>
      have hmem := mem_of_child? hnext
      exact List.forall_mem_cons.2 ⟨h.isFileName hmem, ih (h.of_mem hmem) hrest⟩

end IsProper

theorem at?_singleton (e : Entry) (name : String) : e.at? [name] = e.child? name := by
  simp [at?_cons]

/-- There are no general ignore files in a directory if there is none among its entries and none in
them. -/
theorem hasNoIgnoreFile_iff {e : Entry} :
    e.HasNoIgnoreFile ↔ (∀ bytes, e.child? ".ignore" ≠ some (.file bytes)) ∧
      ∀ name child, e.child? name = some child → child.HasNoIgnoreFile := by
  constructor
  · intro h
    refine ⟨fun bytes hchild => h [] bytes (by simpa [at?_singleton] using hchild), ?_⟩
    intro name child hchild names bytes hat
    exact h (name :: names) bytes (by simpa [at?_cons, hchild] using hat)
  · rintro ⟨hhere, hbelow⟩ names bytes hat
    cases names with
    | nil => exact hhere bytes (by simpa [at?_singleton] using hat)
    | cons name rest =>
      rw [List.cons_append, at?_cons, Option.bind_eq_some_iff] at hat
      obtain ⟨child, hchild, hrest⟩ := hat
      exact hbelow name child hchild rest bytes hrest

theorem HasNoIgnoreFile.of_child? {e : Entry} (h : e.HasNoIgnoreFile)
    (hchild : e.child? name = some child) : child.HasNoIgnoreFile :=
  (hasNoIgnoreFile_iff.1 h).2 name child hchild

theorem hasNoIgnoreFile_file (bytes : List UInt8) : (file bytes).HasNoIgnoreFile :=
  hasNoIgnoreFile_iff.2 ⟨nofun, nofun⟩

theorem hasNoIgnoreFile_directory (hnames : ∀ c ∈ entries, c.1 ≠ ".ignore")
    (h : ∀ c ∈ entries, c.2.HasNoIgnoreFile) : (directory entries).HasNoIgnoreFile := by
  refine hasNoIgnoreFile_iff.2 ⟨fun bytes hchild => ?_, fun name child hchild => ?_⟩
  · exact hnames _ (mem_of_child? hchild) rfl
  · exact h _ (mem_of_child? hchild)

namespace HasNoIgnoreFileTowards

variable {e : Entry} {place : List String}

theorem here (h : e.HasNoIgnoreFileTowards place) (bytes : List UInt8) :
    e.child? ".ignore" ≠ some (.file bytes) := by
  intro hchild
  exact h [] List.nil_prefix bytes (by simpa [at?_singleton] using hchild)

/-- The rest of the way starts at the first directory on it, which is empty if it is not there. -/
theorem tail (h : e.HasNoIgnoreFileTowards (name :: place)) :
    ((e.child? name).getD (directory [])).HasNoIgnoreFileTowards place := by
  intro above habove bytes hat
  cases hchild : e.child? name with
  | none =>
    rw [hchild, Option.getD_none] at hat
    cases above with
    | nil => simp [at?_cons, child?, Entry.entries] at hat
    | cons next others => simp [at?_cons, child?, Entry.entries] at hat
  | some child =>
    rw [hchild, Option.getD_some] at hat
    refine h (name :: above) (List.cons_prefix_cons.2 ⟨rfl, habove⟩) bytes ?_
    rw [List.cons_append, at?_cons, hchild, Option.bind_some, hat]

end HasNoIgnoreFileTowards

end Entry

/-! ## Rules -/

/-- There are no general rules in a directory without a general ignore file. -/
theorem rulesAt_ignore {e : Entry} (h : ∀ bytes, e.child? ".ignore" ≠ some (.file bytes)) :
    rulesAt e [".ignore"] = [] := by
  cases e with
  | file bytes => rfl
  | directory entries =>
    cases hchild : (Entry.directory entries).child? ".ignore" with
    | none => simp [rulesAt, follow, hchild]
    | some child =>
      cases child with
      | file bytes => exact absurd hchild (h bytes)
      | directory inside => simp [rulesAt, follow, hchild]

/-- A directory has no rules of any kind. -/
structure IgnoreLevel.IsSilent (l : IgnoreLevel) : Prop where
  general : l.general = []
  shared : l.shared = []
  unshared : l.unshared = []

/-- Apart from a general ignore file a directory has no rules, if those of repositories are left
out. -/
theorem IgnoreLevel.isSilent_ofDirectory {e : Entry}
    (h : ∀ bytes, e.child? ".ignore" ≠ some (.file bytes)) (depth : Nat) :
    (IgnoreLevel.ofDirectory false depth e).IsSilent :=
  ⟨by simpa [ofDirectory] using rulesAt_ignore h, rfl, rfl⟩

theorem firstVerdict_of_forall_nil {rules : IgnoreLevel → List IgnoreRule}
    {levels : List IgnoreLevel} (h : ∀ l ∈ levels, rules l = []) (place : List String)
    (isDirectory : Bool) : firstVerdict rules place isDirectory levels = none := by
  rw [firstVerdict, List.findSome?_eq_none_iff]
  intro l hl
  simp [decideEntry, h l hl]

theorem insideRepository_subset (levels : List IgnoreLevel) : insideRepository levels ⊆ levels := by
  intro l hl
  unfold insideRepository at hl
  split at hl
  · rcases List.mem_append.1 hl with hl | hl
    · exact List.takeWhile_subset _ hl
    · exact List.mem_of_find?_eq_some (Option.mem_toList.1 hl)
  · cases hl

/-- Directories without rules say nothing about an entry. -/
theorem judge_of_forall_isSilent {levels : List IgnoreLevel} (h : ∀ l ∈ levels, l.IsSilent)
    (place : List String) (isDirectory : Bool) : judge levels place isDirectory = none := by
  have hinside := fun l (hl : l ∈ insideRepository levels) => h l (insideRepository_subset levels hl)
  rw [judge, firstVerdict_of_forall_nil (fun l hl => (h l hl).general),
    firstVerdict_of_forall_nil (fun l hl => (hinside l hl).shared),
    firstVerdict_of_forall_nil (fun l hl => (hinside l hl).unshared)]
  rfl

end CodeAtlas.Files
