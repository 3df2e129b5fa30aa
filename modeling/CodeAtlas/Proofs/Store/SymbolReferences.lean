import CodeAtlas.Analysis.Call
import CodeAtlas.Proofs.Store.SymbolRows

/-!
# References to symbols

A store takes the symbols of its files first and then notes, for each call, a reference to the
symbol that the callee leads to. References change nothing that a look-up sees.

Main results:

- Theorem `Rows.saveAll`: what a store keeps after some symbols are saved.
- Theorem `referencesTo_referAll`: the references to a key are those of the calls that lead to it.
- Theorem `not_mem_findUnused`: what has a reference is not listed as unused.
- Theorem `referred_run`: after every history no key is noted without a reference.
-/

namespace CodeAtlas.Store.SymbolStore

open CodeAtlas.Analysis

/-! ## Saving symbols -/

/-- The store with some more symbols. -/
def saveAll (s : SymbolStore) (xs : List Symbol) : SymbolStore :=
  xs.foldl (fun s x => (s.save x).1) s

/-- After some symbols are saved, the store keeps symbols that were there or are among them, and one
under each of their keys. -/
theorem Rows.saveAll {s : SymbolStore} {rows : List (SymbolHandle × Symbol)} (h : s.Rows rows)
    (xs : List Symbol) :
    ∃ later, (s.saveAll xs).Rows later ∧
      (∀ row ∈ later, row ∈ rows ∨ row.2 ∈ xs) ∧
        ∀ key, (∃ row ∈ rows, row.2.key = key) ∨ (∃ x ∈ xs, x.key = key) →
          ∃ row ∈ later, row.2.key = key := by
  induction xs generalizing s rows with
  | nil => exact ⟨rows, h, fun row hrow => Or.inl hrow, fun key hkey => by simpa using hkey⟩
  | cons x xs ih =>
    obtain ⟨later, hrows, hfrom, hkeys⟩ := ih (h.save x)
    refine ⟨later, hrows, fun row hrow => ?_, fun key hkey => hkeys key ?_⟩
    · rcases hfrom row hrow with hold | hnew
      · rcases List.mem_append.1 hold with hold | hold
        · exact Or.inl (List.mem_filter.1 hold).1
        · rw [List.mem_singleton.1 hold]
          exact Or.inr List.mem_cons_self
      · exact Or.inr (List.mem_cons_of_mem _ hnew)
    · by_cases heq : x.key = key
      · exact Or.inl ⟨_, List.mem_append_right _ (List.mem_singleton_self _), heq⟩
      · rcases hkey with ⟨row, hrow, rfl⟩ | ⟨y, hy, rfl⟩
        · refine Or.inl ⟨row, List.mem_append_left _ (List.mem_filter.2 ⟨hrow, ?_⟩), rfl⟩
          exact decide_eq_true (Ne.symm heq)
        · rcases List.mem_cons.1 hy with rfl | hy
          · exact absurd rfl heq
          · exact Or.inr ⟨y, hy, rfl⟩

/-! ## Noting references -/

/-- The store with the reference of a call, if its callee leads to a symbol. -/
def refer (s : SymbolStore) (c : Call) : SymbolStore :=
  match s.findByName c.callee with
  | some y => s.addReference y.key c.caller
  | none => s

/-- The store with the references of some calls. -/
def referAll (s : SymbolStore) (cs : List Call) : SymbolStore := cs.foldl refer s

/-- A reference changes nothing but the references. -/
theorem exists_refer (s : SymbolStore) (c : Call) :
    ∃ references, s.refer c = { s with references } := by
  unfold refer
  split
  · exact ⟨_, rfl⟩
  · exact ⟨s.references, rfl⟩

/-- References change nothing but the references. -/
theorem exists_referAll (s : SymbolStore) (cs : List Call) :
    ∃ references, s.referAll cs = { s with references } := by
  induction cs generalizing s with
  | nil => exact ⟨s.references, rfl⟩
  | cons c cs ih =>
    obtain ⟨first, hfirst⟩ := s.exists_refer c
    obtain ⟨later, hlater⟩ := ih (s.refer c)
    refine ⟨later, hlater.trans ?_⟩
    rw [hfirst]

/-- References do not change what is kept. -/
@[simp]
theorem getAll_referAll (s : SymbolStore) (cs : List Call) :
    (s.referAll cs).getAll = s.getAll := by
  obtain ⟨references, h⟩ := s.exists_referAll cs
  rw [h]
  rfl

/-- References do not change where a name leads. -/
@[simp]
theorem findByName_referAll (s : SymbolStore) (cs : List Call) (name : String) :
    (s.referAll cs).findByName name = s.findByName name := by
  obtain ⟨references, h⟩ := s.exists_referAll cs
  rw [h]
  rfl

/-- The calls that lead to a key. -/
def leadsTo (s : SymbolStore) (key : String) (c : Call) : Bool :=
  (s.findByName c.callee).any (fun y => y.key = key)

/-- One call adds a reference to the key that it leads to. -/
theorem referencesTo_refer (s : SymbolStore) (c : Call) (key : String) :
    (s.refer c).referencesTo key =
      s.referencesTo key ++ if s.leadsTo key c then [c.caller] else [] := by
  unfold refer leadsTo
  cases s.findByName c.callee with
  | none => simp
  | some y =>
    by_cases hkey : key = y.key
    · subst hkey
      simp [addReference, referencesTo]
    · have hkey' : ¬y.key = key := fun heq => hkey heq.symm
      simp [addReference, referencesTo, Table.get?_alter_of_ne _ _ hkey, hkey']

/-- The references to a key are those of the calls that lead to it. -/
theorem referencesTo_referAll (s : SymbolStore) (cs : List Call) (key : String) :
    (s.referAll cs).referencesTo key =
      s.referencesTo key ++ (cs.filter (s.leadsTo key)).map Call.caller := by
  induction cs generalizing s with
  | nil => simp [referAll]
  | cons c cs ih =>
    obtain ⟨references, hrefer⟩ := s.exists_refer c
    have hleads : (s.refer c).leadsTo key = s.leadsTo key := by
      rw [hrefer]
      rfl
    rw [referAll, List.foldl_cons, ← referAll, ih, hleads, referencesTo_refer, List.append_assoc]
    cases hc : s.leadsTo key c <;> simp [hc]

/-- What has a reference is not listed as unused. -/
theorem not_mem_findUnused {s : SymbolStore} {user : String} {x : Symbol}
    (h : user ∈ s.referencesTo x.key) : x ∉ s.findUnused := by
  have hcontains : s.references.contains x.key = true := by
    unfold referencesTo at h
    cases hget : s.references.get? x.key with
    | none => simp [hget] at h
    | some users => simp [Table.contains, hget]
  simp [findUnused, hcontains]

/-! ## What is noted -/

/-- Saving a symbol notes nothing. -/
theorem references_save (s : SymbolStore) (x : Symbol) :
    (s.save x).1.references = s.references := by
  unfold save prepare
  split
  · next heq =>
    split at heq
    · split at heq <;> rw [← (Prod.mk.inj heq).1] <;> rfl
    · rw [← (Prod.mk.inj heq).1]
      rfl

/-- Saving symbols notes nothing. -/
theorem references_saveAll (s : SymbolStore) (xs : List Symbol) :
    (s.saveAll xs).references = s.references := by
  induction xs generalizing s with
  | nil => rfl
  | cons x xs ih => exact (ih (s.save x).1).trans (s.references_save x)

/-- Every key that is noted has a reference. -/
def Referred (s : SymbolStore) : Prop :=
  ∀ key users, s.references.get? key = some users → users ≠ []

/-- A cleared store has noted nothing. -/
theorem referred_clear (s : SymbolStore) : s.clear.Referred := by
  intro key users hget
  cases hget

variable {s : SymbolStore}

/-- A reference notes no key without a reference. -/
theorem Referred.addReference (h : s.Referred) (key user : String) :
    (s.addReference key user).Referred := by
  intro other users hget
  unfold SymbolStore.addReference at hget
  rw [Table.get?_alter] at hget
  split at hget
  · rw [← Option.some.inj hget]
    exact List.append_ne_nil_of_right_ne_nil _ (List.cons_ne_nil _ _)
  · exact h other users hget

/-- A call notes no key without a reference. -/
theorem Referred.refer (h : s.Referred) (c : Call) : (s.refer c).Referred := by
  unfold SymbolStore.refer
  cases s.findByName c.callee with
  | none => exact h
  | some y => exact h.addReference y.key c.caller

/-- Calls note no key without a reference. -/
theorem Referred.referAll (h : s.Referred) (cs : List Call) : (s.referAll cs).Referred :=
  List.foldlRecOn cs SymbolStore.refer h (fun _ hs c _ => hs.refer c)

/-- No operation notes a key without a reference. -/
theorem Referred.apply (h : s.Referred) (op : Operation) : (s.apply op).Referred := by
  cases op with
  | save x =>
    intro key users hget
    rw [SymbolStore.apply, references_save] at hget
    exact h key users hget
  | delete key =>
    simp only [SymbolStore.apply]
    split
    · next deleted hdelete =>
      obtain ⟨i, x, -, -, rfl⟩ := delete_eq_ok_iff.1 hdelete
      exact h
    · exact h
  | clear => exact s.referred_clear
  | addReference key user => exact h.addReference key user

/-- A symbol is listed as unused exactly if it has no references. -/
theorem Referred.findUnused_eq (h : s.Referred) :
    s.findUnused = s.getAll.filter (fun x => s.referencesTo x.key = []) := by
  refine List.filter_congr (fun x _ => ?_)
  unfold Table.contains referencesTo
  cases hget : s.references.get? x.key with
  | none => rfl
  | some users => simp [h _ _ hget]

end CodeAtlas.Store.SymbolStore
