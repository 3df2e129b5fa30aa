import CodeAtlas.Json.Reader
import Mathlib.Data.List.Nodup

/-!
# Records with some of their members

A record that is written as an object can be read when some of its members are left out, when they
come in another order, and when there are others that are not known.

Main definition: `Json.IsPart`, some of the members of a record, and others beside them.

Main results:

- Theorem `exists_record?_of_isPart`: the members that are kept are found, and those that are left
  out are not.
- Theorem `readOr_of_kept`: a member has its value if it is kept, and its default value otherwise.
- Theorem `list?_arr_map`: an array of what can be read item by item.
-/

namespace CodeAtlas.Json

variable {α : Type} {kept : String → Bool} {members fields : List (String × Json)} {name : String}
  {v : Json}

/-- An object has those members of a record whose names are kept, in any order; any members with
other names may be among them. -/
def IsPart (kept : String → Bool) : Json → Json → Prop
  | obj members, obj fields =>
    (fields.filter (fun e => e.1 ∈ members.map Prod.fst)).Perm (members.filter (fun e => kept e.1))
  | _, _ => False

/-- A record is a part of itself from which nothing is left out. -/
theorem isPart_all (members : List (String × Json)) :
    IsPart (fun _ => true) (obj members) (obj members) := by
  have hknown : members.filter (fun e => e.1 ∈ members.map Prod.fst) = members :=
    List.filter_eq_self.2 (fun e he => decide_eq_true (List.mem_map_of_mem he))
  rw [IsPart, hknown, List.filter_true]

theorem IsPart.exists_fields (h : IsPart kept (obj members) v) : ∃ fields, v = obj fields := by
  cases v with
  | obj fields => exact ⟨fields, rfl⟩
  | _ => exact h.elim

/-- Of a member that is known there is nothing but its value, and only if it is kept. -/
theorem IsPart.mem_iff (h : IsPart kept (obj members) (obj fields))
    (hmembers : (members.map Prod.fst).Nodup) (hv : (name, v) ∈ members) {u : Json} :
    (name, u) ∈ fields ↔ kept name = true ∧ u = v := by
  have hknown : name ∈ members.map Prod.fst := List.mem_map_of_mem hv
  have hfields : (name, u) ∈ fields ↔ (name, u) ∈ members ∧ kept name = true := by
    simpa [hknown] using List.Perm.mem_iff h (a := (name, u))
  rw [hfields, and_comm]
  refine and_congr_right (fun _ => ⟨fun hu => ?_, fun heq => heq ▸ hv⟩)
  exact congrArg Prod.snd (List.inj_on_of_nodup_map hmembers hu hv rfl)

theorem field?_obj (fields : List (String × Json)) (name : String) :
    (obj fields).field? name = (fields.find? (fun e => e.1 == name)).map Prod.snd :=
  rfl

/-- A member that is kept is found, and one that is left out is not. -/
theorem field?_of_isPart (h : IsPart kept (obj members) (obj fields))
    (hmembers : (members.map Prod.fst).Nodup) (hv : (name, v) ∈ members) :
    (obj fields).field? name = if kept name then some v else none := by
  rw [field?_obj]
  cases hfind : fields.find? (fun e => e.1 == name) with
  | none =>
    have hkept : ¬kept name = true := by
      intro hkept
      have hmem := (h.mem_iff hmembers hv).2 ⟨hkept, rfl⟩
      simpa using List.find?_eq_none.1 hfind (name, v) hmem
    rw [if_neg hkept, Option.map_none]
  | some e =>
    obtain ⟨key, u⟩ := e
    obtain rfl : key = name := by simpa using List.find?_some hfind
    obtain ⟨hkept, rfl⟩ := (h.mem_iff hmembers hv).1 (List.mem_of_find?_eq_some hfind)
    rw [if_pos hkept, Option.map_some]

/-- The members of a part are looked up by their names. -/
theorem exists_record?_of_isPart (h : IsPart kept (obj members) v)
    (hmembers : (members.map Prod.fst).Nodup) (names : List String) :
    ∃ member, v.record? names = some member ∧
      ∀ e ∈ members, member e.1 = if kept e.1 then some e.2 else none := by
  obtain ⟨fields, rfl⟩ := h.exists_fields
  exact ⟨(obj fields).field?, rfl, fun e he => field?_of_isPart h hmembers he⟩

/-- A member that is kept has the value that it was written with, and one that is left out has its
default value. -/
theorem readOr_of_kept {read : Json → Option α} {default x : α} {isKept : Bool}
    {member : Option Json} (h : member = if isKept then some v else none)
    (hread : read v = some x) :
    readOr default read member = some (if isKept then x else default) := by
  cases isKept with
  | true => exact h ▸ hread
  | false => exact h ▸ rfl

/-! ## Values -/

/-- Items that can be read one by one can be read from an array. -/
theorem list?_arr_map {read : Json → Option α} {write : α → Json} {items : List α}
    (h : ∀ x ∈ items, read (write x) = some x) : list? read (arr (items.map write)) = some items := by
  rw [list?]
  induction items with
  | nil => rfl
  | cons x rest ih =>
    rw [List.forall_mem_cons] at h
    rw [List.map_cons, List.mapM_cons, h.1, ih h.2]
    rfl

theorem bool?_bool (b : Bool) : bool? (.bool b) = some b := rfl

theorem list?_strs (items : List String) : list? str? (strs items) = some items :=
  list?_arr_map (fun _ _ => rfl)

theorem nat?_nat {n : Nat} (h : n ≤ maxNat) : nat? (nat n) = some n :=
  if_pos h

/-- A number that may be missing is written as null where it is. -/
theorem nullable?_optNat {n? : Option Nat} (h : ∀ n ∈ n?, n ≤ maxNat) :
    nullable? nat? (optNat n?) = some n? := by
  cases n? with
  | none => rfl
  | some n => exact congrArg (Option.map some) (nat?_nat (h n rfl))

end CodeAtlas.Json
