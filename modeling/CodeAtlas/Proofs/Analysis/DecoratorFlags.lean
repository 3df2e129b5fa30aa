import CodeAtlas.Proofs.Analysis.SymbolUpdates

/-!
# Flags and decorators

Whether a symbol is static and whether it is abstract is read off its decorators when these are set
while the symbol is built. An update sets decorators and flags each on their own. So an update of the
decorators alone leaves the flags as they were, and the symbol is said to be a static method by its
decorators but not by its flag, or the other way around.

Main results:

- Theorem `IsBuilt.flagsFollow`: the flags of a symbol that was built follow its decorators.
- Theorem `decorators_after`: the decorators after some updates are those that were given last.
- Theorem `flagsStay_after`: without updates of the flags, the flags follow the decorators that the
  symbol was built with, and so they follow its present ones exactly if these agree with the former.
- Theorem `staticmethod_without_flag`: an update of the decorators alone can part the two.
-/

namespace CodeAtlas.Analysis

namespace Symbol

/-- The flags of a symbol follow its decorators. -/
def FlagsFollow (s : Symbol) : Prop :=
  (s.isStatic = true ↔ "staticmethod" ∈ s.decorators) ∧
    (s.isAbstract = true ↔ "abstractmethod" ∈ s.decorators)

instance (s : Symbol) : Decidable s.FlagsFollow :=
  inferInstanceAs (Decidable ((_ ↔ _) ∧ (_ ↔ _)))

/-- Two lists of decorators agree on what the flags are read off. -/
def AgreeOnFlags (names others : List String) : Prop :=
  ("staticmethod" ∈ names ↔ "staticmethod" ∈ others) ∧
    ("abstractmethod" ∈ names ↔ "abstractmethod" ∈ others)

theorem flagsFollow_of_create {name filePath modulePath : String} {kind : SymbolKind} {a b : Nat}
    {s : Symbol} (h : create name kind filePath modulePath a b = .ok s) : s.FlagsFollow := by
  unfold create at h
  split at h
  · cases h
  · split at h
    · cases h
    · cases h
      exact ⟨by simp, by simp⟩

/-- Setting the decorators reads the flags off them, and no other property touches either. -/
theorem FlagsFollow.give {s : Symbol} (h : s.FlagsFollow) (property : SymbolProperty) :
    (s.give property).FlagsFollow := by
  cases property with
  | decorators names => exact ⟨by simp [Symbol.give, withDecorators], by
      simp [Symbol.give, withDecorators]⟩
  | signature | docComment | visibility | parentClass | isAsync => exact h

/-- A method is static by its decorators where its flag says so. -/
theorem isStatic_eq_isStaticMethod_iff {s : Symbol} (h : s.isMethod = true) :
    s.isStatic = s.isStaticMethod ↔ (s.isStatic = true ↔ "staticmethod" ∈ s.decorators) := by
  rw [Bool.eq_iff_iff, isStaticMethod, h, Bool.true_and, List.contains_iff_mem]

end Symbol

namespace SymbolRecord

variable {τ : Type} {r : SymbolRecord τ} {u : SymbolUpdate} {now : τ}
  {history : List (SymbolUpdate × τ)}

/-- However a symbol was built, its flags follow its decorators. -/
theorem IsBuilt.flagsFollow (h : IsBuilt r) : r.symbol.FlagsFollow := by
  induction h with
  | create h => exact Symbol.flagsFollow_of_create (create_eq_ok h)
  | give _ property ih => exact ih.give property

/-! ## Accepted updates -/

/-- All updates of a history are made. -/
def Accepts (r : SymbolRecord τ) : List (SymbolUpdate × τ) → Prop
  | [] => True
  | (u, now) :: rest => (∃ t, (update u now).run r = .ok () t) ∧ Accepts (r.updated u now) rest

/-- No update of a history gives a flag. -/
def GivesNoFlag (history : List (SymbolUpdate × τ)) : Prop :=
  ∀ step ∈ history, step.1.isStatic = none ∧ step.1.isAbstract = none

/-- The decorators that a history gives last. -/
def lastDecorators? (history : List (SymbolUpdate × τ)) : Option (List String) :=
  (history.filterMap (fun step => step.1.decorators)).getLast?

/-- An update that is made gives the symbol what it gives. -/
theorem symbol_updated (h : ∃ t, (update u now).run r = .ok () t) :
    (r.updated u now).symbol = u.mergeInto r.symbol := by
  obtain ⟨t, ht⟩ := h
  rw [updated, ht, (update_whole r u now).made t ht]

/-- What is given first counts only if nothing is given behind it. -/
theorem lastDecorators?_cons (step : SymbolUpdate × τ) (rest : List (SymbolUpdate × τ)) :
    lastDecorators? (step :: rest) = (lastDecorators? rest).or step.1.decorators := by
  unfold lastDecorators?
  rw [List.filterMap_cons]
  cases step.1.decorators with
  | none => rw [Option.or_none]
  | some names =>
    rw [List.getLast?_cons]
    cases (rest.filterMap (fun step => step.1.decorators)).getLast? <;> rfl

/-- The decorators after some updates are those that were given last. -/
theorem decorators_after (h : Accepts r history) :
    (r.after history).symbol.decorators = (lastDecorators? history).getD r.symbol.decorators := by
  induction history generalizing r with
  | nil => rfl
  | cons step rest ih =>
    obtain ⟨hmade, hrest⟩ := h
    have hfirst : (r.updated step.1 step.2).symbol.decorators =
        step.1.decorators.getD r.symbol.decorators := by rw [symbol_updated hmade]; rfl
    have hafter : r.after (step :: rest) = (r.updated step.1 step.2).after rest := rfl
    rw [hafter, ih hrest, hfirst, lastDecorators?_cons]
    cases lastDecorators? rest <;> rfl

/-- Updates that give no flag leave both flags. -/
theorem flags_after (h : Accepts r history) (hplain : GivesNoFlag history) :
    (r.after history).symbol.isStatic = r.symbol.isStatic ∧
      (r.after history).symbol.isAbstract = r.symbol.isAbstract := by
  induction history generalizing r with
  | nil => exact ⟨rfl, rfl⟩
  | cons step rest ih =>
    obtain ⟨hmade, hrest⟩ := h
    obtain ⟨hstatic, habstract⟩ := hplain step List.mem_cons_self
    have hfirst : (r.updated step.1 step.2).symbol.isStatic = r.symbol.isStatic ∧
        (r.updated step.1 step.2).symbol.isAbstract = r.symbol.isAbstract := by
      rw [symbol_updated hmade, SymbolUpdate.mergeInto, hstatic, habstract]
      exact ⟨rfl, rfl⟩
    obtain ⟨hthen, hthen'⟩ := ih hrest (fun step hstep => hplain step (List.mem_cons_of_mem _ hstep))
    exact ⟨hthen.trans hfirst.1, hthen'.trans hfirst.2⟩

/-! ## Flags after updates -/

/-- Flags and decorators of a record that was built, after some updates that were made and gave no
flag. -/
structure FlagsStay (r : SymbolRecord τ) (history : List (SymbolUpdate × τ)) : Prop where
  built : r.symbol.FlagsFollow
  /-- The flags stay those of the decorators that the symbol was built with. -/
  isStatic_iff : (r.after history).symbol.isStatic = true ↔ "staticmethod" ∈ r.symbol.decorators
  isAbstract_iff :
    (r.after history).symbol.isAbstract = true ↔ "abstractmethod" ∈ r.symbol.decorators
  decorators : (r.after history).symbol.decorators =
    (lastDecorators? history).getD r.symbol.decorators
  /-- They follow the present decorators exactly if the last ones that an update gave agree with the
  former ones. -/
  flagsFollow_iff : (r.after history).symbol.FlagsFollow ↔
    ∀ names, lastDecorators? history = some names → Symbol.AgreeOnFlags names r.symbol.decorators
  /-- A method is static by its decorators and by its flag exactly if they agree on that. -/
  isStaticMethod_iff : (r.after history).symbol.isMethod = true →
    ((r.after history).symbol.isStatic = (r.after history).symbol.isStaticMethod ↔
      ∀ names, lastDecorators? history = some names →
        ("staticmethod" ∈ names ↔ "staticmethod" ∈ r.symbol.decorators))

/-- Updates of the decorators alone do not reach the flags. -/
theorem flagsStay_after (h : IsBuilt r) (haccepts : Accepts r history)
    (hplain : GivesNoFlag history) : FlagsStay r history := by
  obtain ⟨hstatic, habstract⟩ := flags_after haccepts hplain
  have hbuilt := h.flagsFollow
  have hdecorators := decorators_after haccepts
  refine ⟨hbuilt, by rw [hstatic]; exact hbuilt.1, by rw [habstract]; exact hbuilt.2, hdecorators,
    ?flagsFollow_iff, ?isStaticMethod_iff⟩
  case flagsFollow_iff =>
    rw [Symbol.FlagsFollow, hstatic, habstract, hbuilt.1, hbuilt.2, hdecorators]
    cases lastDecorators? history with
    | none => simp
    | some names =>
      simp only [Option.getD_some, Option.some.injEq, forall_eq', Symbol.AgreeOnFlags]
      exact and_congr iff_comm iff_comm
  case isStaticMethod_iff =>
    intro hmethod
    rw [Symbol.isStatic_eq_isStaticMethod_iff hmethod, hstatic, hbuilt.1, hdecorators]
    cases lastDecorators? history with
    | none => simp
    | some names =>
      simp only [Option.getD_some, Option.some.injEq, forall_eq']
      exact iff_comm

/-- The record of a method without decorators, created at time 0. -/
def factoryRecord : SymbolRecord Nat :=
  ⟨{ name := "make", kind := .function, filePath := "m.py", modulePath := "m", startLine := 1,
     endLine := 2, parentClass := some "Factory" }, 0, 0⟩

theorem isBuilt_factoryRecord : IsBuilt factoryRecord := by
  have hnew : create 0 "make" .function "m.py" "m" 1 2 =
      .ok ⟨{ factoryRecord.symbol with parentClass := none }, 0, 0⟩ := rfl
  exact (IsBuilt.create hnew).give (.parentClass (some "Factory"))

/-- The method becomes a static method by its decorators and loses them again; its flag, which never
followed, is right again. -/
theorem flagsStay_after_factory :
    let history : List (SymbolUpdate × Nat) :=
      [({ decorators := some ["staticmethod"] }, 1), ({ decorators := some ["cache"] }, 2)]
    IsBuilt factoryRecord ∧ Accepts factoryRecord history ∧ GivesNoFlag history ∧
      FlagsStay factoryRecord history ∧ (factoryRecord.after history).symbol.FlagsFollow := by
  intro history
  have haccepts : Accepts factoryRecord history := ⟨⟨_, rfl⟩, ⟨_, rfl⟩, trivial⟩
  have hplain : GivesNoFlag history := by simp [GivesNoFlag, history]
  have hstay := flagsStay_after isBuilt_factoryRecord haccepts hplain
  refine ⟨isBuilt_factoryRecord, haccepts, hplain, hstay, hstay.flagsFollow_iff.2 ?_⟩
  intro names hnames
  obtain rfl : ["cache"] = names := Option.some.inj hnames
  simp [Symbol.AgreeOnFlags, factoryRecord]

/-- An update of the decorators alone parts flag and decorators: the method is a static method, but
not static. -/
theorem staticmethod_without_flag :
    let history : List (SymbolUpdate × Nat) := [({ decorators := some ["staticmethod"] }, 1)]
    IsBuilt factoryRecord ∧ Accepts factoryRecord history ∧ GivesNoFlag history ∧
      (factoryRecord.after history).symbol.isMethod = true ∧
      "staticmethod" ∈ (factoryRecord.after history).symbol.decorators ∧
      (factoryRecord.after history).symbol.isStatic = false ∧
      (factoryRecord.after history).symbol.isStaticMethod = true := by
  intro history
  have haccepts : Accepts factoryRecord history := ⟨⟨_, rfl⟩, trivial⟩
  have hplain : GivesNoFlag history := by simp [GivesNoFlag, history]
  exact ⟨isBuilt_factoryRecord, haccepts, hplain, rfl, List.mem_cons_self, rfl, rfl⟩

end SymbolRecord

end CodeAtlas.Analysis
