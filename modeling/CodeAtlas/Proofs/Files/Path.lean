import CodeAtlas.Files.Path
import Mathlib.Data.List.Infix

/-!
# Paths of files below a directory

A path is put together from the names on the way, and its components are these names again. The
extension of a name is what stands behind its last dot.

Main definitions:

- `IsFileName`: what an entry of a directory may be called.
- `slashed`: a path with a slash behind it.

Main results:

- Theorem `components_append_slash`: the components on both sides of a slash.
- Theorem `foldl_join`: a path that is put together name by name.
- Theorem `components_slashed_append`: the components of such a path.
- Theorem `extension_intercalate`: the extension of such a path is that of the last name.
-/

namespace CodeAtlas.Files.Path

/-- A name that an entry of a directory may have. -/
structure IsFileName (name : String) : Prop where
  ne_empty : name ≠ ""
  ne_dot : name ≠ "."
  ne_dots : name ≠ ".."
  no_slash : '/' ∉ name.toList

instance (name : String) : Decidable (IsFileName name) :=
  decidable_of_iff (name ≠ "" ∧ name ≠ "." ∧ name ≠ ".." ∧ '/' ∉ name.toList)
    ⟨fun ⟨hempty, hdot, hdots, hslash⟩ => ⟨hempty, hdot, hdots, hslash⟩,
      fun h => ⟨h.ne_empty, h.ne_dot, h.ne_dots, h.no_slash⟩⟩

/-! ## Components -/

/-- The components on both sides of a slash. -/
theorem components_append_slash (front back : String) :
    components (front ++ "/" ++ back) = components front ++ components back := by
  have htext : (front ++ "/" ++ back).toList = front.toList ++ '/' :: back.toList := by simp
  simp only [components, htext, List.splitOn_append_cons_self,
    List.filter_append, List.map_append]

@[simp]
theorem components_empty : components "" = [] := rfl

theorem components_of_isFileName {name : String} (h : IsFileName name) :
    components name = [name] := by
  have hne : name.toList ≠ [] := by simpa using h.ne_empty
  have hdot : name.toList ≠ ['.'] := fun heq => h.ne_dot (String.toList_injective heq)
  simp [components, List.splitOn_eq_singleton h.no_slash, hne, hdot]

/-- The components of names with slashes between them are the names. -/
theorem components_intercalate {names : List String} (h : ∀ name ∈ names, IsFileName name) :
    components ("/".intercalate names) = names := by
  induction names with
  | nil => rfl
  | cons name rest ih =>
    obtain ⟨hname, hrest⟩ := List.forall_mem_cons.1 h
    cases rest with
    | nil => rw [String.intercalate_singleton, components_of_isFileName hname]
    | cons next others =>
      rw [String.intercalate_cons_cons, components_append_slash, components_of_isFileName hname,
        ih hrest, List.singleton_append]

/-! ## Paths below a directory -/

/-- A path with a slash behind it. -/
def slashed (path : String) : String :=
  if path.toList.getLast? = some '/' then path else path ++ "/"

theorem join_of_isFileName {base name : String} (hbase : base ≠ "") (h : IsFileName name) :
    join base name = slashed base ++ name := by
  have habsolute : isAbsolute name = false := by
    rw [isAbsolute, decide_eq_false_iff_not]
    exact fun hhead => h.no_slash (List.mem_of_head? hhead)
  have hempty : base.isEmpty = false := by simpa using hbase
  simp only [join, habsolute, hempty, slashed, Bool.false_eq_true, if_false]
  split <;> rfl

/-- A path that is put together name by name. -/
theorem foldl_join {base : String} (hbase : base ≠ "") {names : List String} (hne : names ≠ [])
    (h : ∀ name ∈ names, IsFileName name) :
    names.foldl join base = slashed base ++ "/".intercalate names := by
  induction names generalizing base with
  | nil => exact absurd rfl hne
  | cons name rest ih =>
    obtain ⟨hname, hrest⟩ := List.forall_mem_cons.1 h
    rw [List.foldl_cons, join_of_isFileName hbase hname]
    cases rest with
    | nil => rw [List.foldl_nil, String.intercalate_singleton]
    | cons next others =>
      have hlast : (slashed base ++ name).toList.getLast? ≠ some '/' := by
        intro hslash
        obtain ⟨last, hlast⟩ := Option.ne_none_iff_exists'.1
          (mt List.getLast?_eq_none_iff.1 (by simpa using hname.ne_empty : name.toList ≠ []))
        rw [String.toList_append, List.getLast?_append, hlast] at hslash
        obtain rfl : last = '/' := by simpa using hslash
        exact hname.no_slash (List.mem_of_getLast? hlast)
      have hnonempty : slashed base ++ name ≠ "" := by simp [hname.ne_empty]
      rw [ih hnonempty (List.cons_ne_nil _ _) hrest, slashed, if_neg hlast,
        String.intercalate_cons_cons]
      simp only [String.append_assoc]

/-- The components behind a directory come behind those of the directory. -/
theorem components_slashed_append (base path : String) :
    components (slashed base ++ path) = components base ++ components path := by
  rw [slashed]
  split
  · next hslash =>
    obtain ⟨front, hfront⟩ := List.getLast?_eq_some_iff.1 hslash
    obtain rfl : base = String.ofList front ++ "/" := by
      apply String.toList_injective
      simp [hfront]
    have hbase := components_append_slash (String.ofList front) ""
    rw [String.append_empty, components_empty, List.append_nil] at hbase
    rw [components_append_slash, hbase]
  · exact components_append_slash base path

/-! ## Extensions -/

/-- From the end of a text up to a dot. -/
theorem takeWhile_reverse_append {behind : List Char} (h : '.' ∉ behind) (rest : List Char) :
    (behind.reverse ++ rest).takeWhile (· ≠ '.') =
      behind.reverse ++ rest.takeWhile (· ≠ '.') := by
  refine List.takeWhile_append_of_pos (fun c hc => decide_eq_true ?_)
  rintro rfl
  exact h (List.mem_reverse.1 hc)

theorem splitExtension_of_not_mem {name : String} (h : '.' ∉ name.toList) :
    (splitExtension name).2 = none := by
  have hbehind : name.toList.reverse.takeWhile (· ≠ '.') = name.toList.reverse := by
    simpa using takeWhile_reverse_append h []
  simp only [splitExtension, hbehind, List.reverse_reverse, or_true, if_true]

/-- The extension of a name is what stands behind the last dot, unless the name starts with it. -/
theorem splitExtension_of_eq {name : String} {front behind : List Char}
    (hname : name.toList = front ++ '.' :: behind) (h : '.' ∉ behind) :
    (splitExtension name).2 = if front = [] then none else some (String.ofList behind) := by
  have hbehind : name.toList.reverse.takeWhile (· ≠ '.') = behind.reverse := by
    have hcut : name.toList.reverse = behind.reverse ++ '.' :: front.reverse := by simp [hname]
    rw [hcut, takeWhile_reverse_append h, List.takeWhile_cons_of_neg (by simp), List.append_nil]
  have hfront : name.toList.take (name.toList.length - behind.length - 1) = front := by
    have hlength : name.toList.length - behind.length - 1 = front.length := by
      rw [hname]
      simp
      omega
    rw [hlength, hname, List.take_left']
    rfl
  have hshort : behind.length ≠ name.toList.length := by
    rw [hname]
    simp
    omega
  simp only [splitExtension, hbehind, List.reverse_reverse, hfront, hshort, or_false,
    List.isEmpty_iff]
  split <;> rfl

theorem splitExtension_eq_some_iff {name e : String} :
    (splitExtension name).2 = some e ↔
      ∃ front, front ≠ [] ∧ name.toList = front ++ '.' :: e.toList ∧ '.' ∉ e.toList := by
  constructor
  · intro h
    by_cases hdot : '.' ∈ name.toList
    · obtain ⟨behind, front, hcut, hbehind⟩ :=
        List.eq_append_cons_of_mem (List.mem_reverse.2 hdot)
      have hname : name.toList = front.reverse ++ '.' :: behind.reverse := by
        rw [← List.reverse_inj, hcut]
        simp
      have hclear : '.' ∉ behind.reverse := by simpa using hbehind
      rw [splitExtension_of_eq hname hclear] at h
      split at h
      · cases h
      · next hfront =>
        obtain rfl := Option.some.inj h
        exact ⟨front.reverse, hfront, by simpa using hname, by simpa using hclear⟩
    · rw [splitExtension_of_not_mem hdot] at h
      cases h
  · rintro ⟨front, hfront, hname, hclear⟩
    rw [splitExtension_of_eq hname hclear, if_neg hfront, String.ofList_toList]

/-- The extension of names with slashes between them is that of the last name. -/
theorem extension_intercalate {names : List String} (h : ∀ name ∈ names, IsFileName name) :
    extension ("/".intercalate names) = names.getLast?.bind (fun name => (splitExtension name).2) := by
  rw [extension, fileName, components_intercalate h]
  split
  · next hdots => exact absurd rfl (h ".." (List.mem_of_getLast? hdots)).ne_dots
  · rfl

end CodeAtlas.Files.Path
