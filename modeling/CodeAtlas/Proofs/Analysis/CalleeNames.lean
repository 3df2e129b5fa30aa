import CodeAtlas.Proofs.Analysis.CallOrigins
import CodeAtlas.Proofs.Analysis.Scopes
import CodeAtlas.Proofs.Table
import CodeAtlas.Python.Outline

/-!
# The names of callees

Under which name a call is recorded can be said without the tables that it is looked up in. There
are four sources: what the imports of the file bind, the classes of the file, the class that the
function stands in directly, and the assignments from calls of names below the function. Each of
them is read off the outline by itself, and where one name has several bindings the last one counts.

Main definitions: `NameSources.Names`, the name of a callee as the sources have it, and `sourcesAt`,
the sources for a function.

Main results:

- Theorem `NameSources.resolve_eq_some_iff`: looking a callee up gives the name that the sources
  have.
- Theorem `resolver_sourcesAt`: the look-up in a function is the one in its sources.
- Theorem `Call.exists_ofTree_eq_ok_iff`: what it takes for the calls of a file to be recorded.
- Theorem `Call.calleesNamed`: the calls that are recorded, and their names.
-/

namespace CodeAtlas.Syntax

/-- The variable that is assigned from a call of a name, with that name. -/
def Node.construction? (n : Node) : Option (String × String) :=
  match n.kind with
  | .assign ⟨target, .call (.name className)⟩ => some (target, className)
  | _ => none

/-- A callee can be worked out if it is a name or an attribute of a name. -/
theorem Expr.isResolvable_iff {callee : Expr} :
    callee.isResolvable = true ↔
      (∃ x, callee = .name x) ∨ ∃ r attr, callee = .attribute (.name r) attr := by
  rcases callee with _ | ⟨_ | _ | _ | _ | _, _⟩ | _ | _ | _ <;> simp [Expr.isResolvable]

/-- The nodes of an outline are those that addresses lead to. -/
theorem Node.mem_preorder_iff {n m : Node} : m ∈ n.preorder ↔ ∃ p, n.at? p = some m := by
  constructor
  · intro hm
    obtain ⟨p, -, hp⟩ := exists_of_mem_right (forall₂_addresses n) hm
    exact ⟨p, hp⟩
  · rintro ⟨p, hp⟩
    obtain ⟨k, hk, hpk⟩ := exists_of_mem_left (forall₂_addresses n) (mem_addresses_iff.2 ⟨m, hp⟩)
    obtain rfl := Option.some.inj (hp.symm.trans hpk)
    exact hk

end CodeAtlas.Syntax

namespace CodeAtlas.Analysis

open CodeAtlas.Syntax

/-! ## What a callee is called -/

/-- What the names of the callees of a function can be told from. -/
structure NameSources where
  /-- The names that import statements bind, with their targets, in order. -/
  imported : List (String × String)
  /-- The names of the classes of the file. -/
  classes : List String
  /-- The class that the function stands in directly. -/
  owner : Option String
  /-- The variables that are assigned from calls of names, with these names, in order. -/
  constructed : List (String × String)

namespace NameSources

variable {s : NameSources} {r x name : String} {callee : Expr}

/-- The last binding of a name by an import is one to this target. -/
def IsImport (s : NameSources) (x target : String) : Prop :=
  IsLast (fun e => e.1 = x) s.imported (x, target)

/-- The last assignment of a variable from a call of a class is one of this class. What else is
assigned to the variable, before or after, does not count. -/
def IsInstance (s : NameSources) (r className : String) : Prop :=
  IsLast (fun e => e.2 ∈ s.classes ∧ e.1 = r) s.constructed (r, className)

/-- Some import binds a name. -/
def IsImported (s : NameSources) (x : String) : Prop := ∃ target, (x, target) ∈ s.imported

/-- A variable is assigned from a call of a class of the file somewhere. -/
def HoldsInstance (s : NameSources) (r : String) : Prop :=
  ∃ className ∈ s.classes, (r, className) ∈ s.constructed

/-- In a method of a class, two names stand for its receiver. -/
def IsReceiver (s : NameSources) (r : String) : Prop :=
  (r = "self" ∨ r = "cls") ∧ s.owner.isSome = true

/-- What a name in front of an attribute stands for. -/
inductive Owns (s : NameSources) (r : String) : String → Prop
  | receiver {className : String} :
    r = "self" ∨ r = "cls" → s.owner = some className → Owns s r className
  | instanceOf {className : String} :
    ¬s.IsReceiver r → s.IsInstance r className → Owns s r className
  | imported {target : String} :
    ¬s.IsReceiver r → ¬s.HoldsInstance r → s.IsImport r target → Owns s r target
  | plain : ¬s.IsReceiver r → ¬s.HoldsInstance r → ¬s.IsImported r → Owns s r r

/-- What a callee is called. Only names and attributes of names are called anything. -/
inductive Names (s : NameSources) : Expr → String → Prop
  | imported {x target : String} : s.IsImport x target → Names s (.name x) target
  | plain {x : String} : ¬s.IsImported x → Names s (.name x) x
  | attribute {r owner attr : String} :
    s.Owns r owner → Names s (.attribute (.name r) attr) (owner ++ "." ++ attr)

/-! ## Looking it up -/

/-- The tables that the sources are looked up in. -/
def resolver (s : NameSources) : CallResolver where
  scope := ⟨s.owner⟩
  imports := ⟨Table.ofList s.imported⟩
  instances := Table.ofList (s.constructed.filter (fun e => e.2 ∈ s.classes))

theorem resolve_imports_eq_some_iff {target : String} :
    s.resolver.imports.resolve x = some target ↔ s.IsImport x target :=
  Table.get?_ofList_eq_some_iff

theorem resolve_imports_eq_none_iff :
    s.resolver.imports.resolve x = none ↔ ¬s.IsImported x := by
  refine Table.get?_ofList_eq_none_iff.trans ⟨?_, ?_⟩
  · rintro h ⟨target, hmem⟩
    exact h (x, target) hmem rfl
  · rintro h ⟨_, target⟩ hmem rfl
    exact h ⟨target, hmem⟩

theorem get?_instances_eq_some_iff {className : String} :
    s.resolver.instances.get? r = some className ↔ s.IsInstance r className :=
  Table.get?_ofList_eq_some_iff.trans isLast_filter_iff

theorem get?_instances_eq_none_iff :
    s.resolver.instances.get? r = none ↔ ¬s.HoldsInstance r := by
  refine Table.get?_ofList_eq_none_iff.trans ⟨?_, ?_⟩
  · rintro h ⟨className, hclass, hmem⟩
    exact h (r, className) (List.mem_filter.2 ⟨hmem, decide_eq_true hclass⟩) rfl
  · rintro h ⟨_, className⟩ hmem rfl
    obtain ⟨hmem, hclass⟩ := List.mem_filter.1 hmem
    exact h ⟨className, of_decide_eq_true hclass, hmem⟩

end NameSources

/-- What a name in front of an attribute is looked up as. -/
def CallResolver.ownerName (r : CallResolver) (receiver : String) : String :=
  let owner :=
    match r.scope.className with
    | some className =>
      if receiver = "self" ∨ receiver = "cls" then some className else r.instances.get? receiver
    | none => r.instances.get? receiver
  owner.getD ((r.imports.resolve receiver).getD receiver)

theorem CallResolver.resolveAttribute_eq (r : CallResolver) (receiver attr : String) :
    r.resolveAttribute receiver attr = r.ownerName receiver ++ "." ++ attr :=
  rfl

namespace NameSources

variable {s : NameSources} {r x name : String} {callee : Expr}

/-- The receiver of a method is looked up as the class of the method. -/
theorem ownerName_of_receiver {className : String} (hr : r = "self" ∨ r = "cls")
    (howner : s.owner = some className) : s.resolver.ownerName r = className := by
  simp only [CallResolver.ownerName, resolver, howner, if_pos hr, Option.getD_some]

/-- Other names are looked up among the instances first and then among the imports. -/
theorem ownerName_of_not_receiver (hr : ¬s.IsReceiver r) :
    s.resolver.ownerName r =
      (s.resolver.instances.get? r).getD ((s.resolver.imports.resolve r).getD r) := by
  have hscope : s.resolver.scope.className = s.owner := rfl
  unfold CallResolver.ownerName
  rw [hscope]
  cases howner : s.owner with
  | none => rfl
  | some className =>
    have hself : ¬(r = "self" ∨ r = "cls") := fun h => hr ⟨h, by rw [howner]; rfl⟩
    simp only [if_neg hself]

/-- What a name stands for is what it is looked up as. -/
theorem Owns.ownerName_eq {owner : String} (h : s.Owns r owner) :
    s.resolver.ownerName r = owner := by
  cases h with
  | receiver hr howner => exact ownerName_of_receiver hr howner
  | instanceOf hr hinstance =>
    rw [ownerName_of_not_receiver hr, get?_instances_eq_some_iff.2 hinstance, Option.getD_some]
  | imported hr hinstance himport =>
    rw [ownerName_of_not_receiver hr, get?_instances_eq_none_iff.2 hinstance, Option.getD_none,
      resolve_imports_eq_some_iff.2 himport, Option.getD_some]
  | plain hr hinstance himport =>
    rw [ownerName_of_not_receiver hr, get?_instances_eq_none_iff.2 hinstance, Option.getD_none,
      resolve_imports_eq_none_iff.2 himport, Option.getD_none]

/-- Every name stands for what it is looked up as. -/
theorem owns_ownerName (s : NameSources) (r : String) : s.Owns r (s.resolver.ownerName r) := by
  by_cases hr : s.IsReceiver r
  · obtain ⟨className, howner⟩ := Option.isSome_iff_exists.1 hr.2
    rw [ownerName_of_receiver hr.1 howner]
    exact Owns.receiver hr.1 howner
  · rw [ownerName_of_not_receiver hr]
    cases hinstance : s.resolver.instances.get? r with
    | some className =>
      exact Owns.instanceOf hr (get?_instances_eq_some_iff.1 hinstance)
    | none =>
      rw [get?_instances_eq_none_iff] at hinstance
      cases himport : s.resolver.imports.resolve r with
      | some target => exact Owns.imported hr hinstance (resolve_imports_eq_some_iff.1 himport)
      | none => exact Owns.plain hr hinstance (resolve_imports_eq_none_iff.1 himport)

/-- Looking a callee up gives what the sources call it. -/
theorem resolve_eq_some_iff : s.resolver.resolve callee = some name ↔ s.Names callee name := by
  constructor
  · intro h
    unfold CallResolver.resolve at h
    split at h
    · next x =>
      obtain rfl := Option.some.inj h
      cases himport : s.resolver.imports.resolve x with
      | some target => exact Names.imported (resolve_imports_eq_some_iff.1 himport)
      | none => exact Names.plain (resolve_imports_eq_none_iff.1 himport)
    · next r attr =>
      obtain rfl := Option.some.inj h
      exact Names.attribute (s.owns_ownerName r)
    · cases h
  · rintro (himport | himport | howns)
    · rw [CallResolver.resolve, resolve_imports_eq_some_iff.2 himport, Option.getD_some]
    · rw [CallResolver.resolve, resolve_imports_eq_none_iff.2 himport, Option.getD_none]
    · rw [CallResolver.resolve, CallResolver.resolveAttribute_eq, howns.ownerName_eq]

/-- A callee is called one thing at most. -/
theorem Names.unique {other : String} (h : s.Names callee name) (h' : s.Names callee other) :
    name = other :=
  Option.some.inj ((resolve_eq_some_iff.2 h).symm.trans (resolve_eq_some_iff.2 h'))

/-- Whether a callee is called anything depends on its shape only. -/
theorem exists_names_iff : (∃ name, s.Names callee name) ↔ callee.isResolvable = true := by
  rw [← s.resolver.isSome_resolve callee, Option.isSome_iff_exists]
  simp only [resolve_eq_some_iff]

end NameSources

/-! ## The sources for a function -/

/-- What an import statement binds a name to. An import from no named module binds nothing, and
neither does one without names, which is what a wildcard import is in an outline. -/
inductive Imports.Binds : NodeKind → String → String → Prop
  | imports {names : List ImportAlias} {a : ImportAlias} :
    a ∈ names → Binds (.imports names) a.boundName a.name
  | importFrom {moduleName : String} {names : List ImportAlias} {a : ImportAlias} :
    a ∈ names →
      Binds (.importFrom ⟨some moduleName, names⟩) a.boundName (moduleName ++ "." ++ a.name)

theorem Imports.mem_ofKind_iff {kind : NodeKind} {x target : String} :
    (x, target) ∈ Imports.ofKind kind ↔ Imports.Binds kind x target := by
  constructor
  · intro h
    unfold Imports.ofKind at h
    split at h
    · obtain ⟨a, ha, heq⟩ := List.mem_map.1 h
      cases heq
      exact Binds.imports ha
    · obtain ⟨a, ha, heq⟩ := List.mem_map.1 h
      cases heq
      exact Binds.importFrom ha
    · cases h
  · rintro (ha | ha)
    · exact List.mem_map_of_mem ha
    · exact List.mem_map_of_mem ha

/-- The sources for the function at an address. -/
def sourcesAt (t : Tree) (p : Address) : NameSources where
  imported := t.root.preorder.flatMap (fun n => Imports.ofKind n.kind)
  classes := t.root.preorder.filterMap Node.className?
  owner := t.root.owner? p
  constructed := ((t.root.at? p).map (fun m =>
    (Node.preorderAll m.children).filterMap Node.construction?)).getD []

/-- The classes among the definitions are all classes of the file. -/
theorem ofClass_mem_ofTree_iff {t : Tree} {m : Node} {decl : ClassDef} :
    Definition.ofClass m decl ∈ Definition.ofTree t ↔
      m ∈ t.root.preorder ∧ m.kind = .classDef decl := by
  constructor
  · intro hd
    obtain ⟨p, -, hm, hkind⟩ := exists_of_mem_right (Definition.forall₂_ofTree t) hd
    exact ⟨Node.mem_preorder_iff.2 ⟨p, hm⟩, hkind⟩
  · rintro ⟨hm, hkind⟩
    obtain ⟨p, hp⟩ := Node.mem_preorder_iff.1 hm
    have hzip := (Definition.mem_zip_counted_iff t).2
      (Definition.countsAt_ofClass_iff.2 ⟨hp, hkind⟩)
    exact (List.of_mem_zip hzip).2

/-- The names of these classes are those of all classes of the file. -/
theorem mem_classNames_iff {t : Tree} {name : String} :
    name ∈ Definition.classNames (Definition.ofTree t) ↔
      name ∈ t.root.preorder.filterMap Node.className? := by
  simp only [Definition.classNames, List.mem_filterMap]
  constructor
  · rintro ⟨d, hd, hname⟩
    cases d with
    | ofClass m decl =>
      obtain ⟨hm, hkind⟩ := ofClass_mem_ofTree_iff.1 hd
      refine ⟨m, hm, ?_⟩
      rw [Node.className?, hkind]
      exact hname
    | ofFunction m decl scope => cases hname
  · rintro ⟨m, hm, hname⟩
    unfold Node.className? at hname
    split at hname
    · next decl hkind => exact ⟨_, ofClass_mem_ofTree_iff.2 ⟨hm, hkind⟩, hname⟩
    · cases hname

/-- The instances among some nodes are the variables that are assigned from calls of classes. -/
theorem instanceBindings_eq (classes : List String) (nodes : List Node) :
    instanceBindings classes nodes = Table.ofList
      ((nodes.filterMap Node.construction?).filter (fun e => classes.contains e.2)) := by
  rw [instanceBindings, List.filter_filterMap]
  refine congrArg Table.ofList (List.filterMap_congr (fun n _ => ?_))
  obtain ⟨kind, span, children⟩ := n
  unfold Node.construction?
  dsimp only
  split <;> simp [Option.filter]

/-- The look-up in a function is the one in its sources. -/
theorem resolver_sourcesAt {t : Tree} {p : Address} {m : Node} (hm : t.root.at? p = some m) :
    (sourcesAt t p).resolver = ⟨⟨t.root.owner? p⟩, Imports.ofTree t,
      instanceBindings (Definition.classNames (Definition.ofTree t)) m.descendants⟩ := by
  have himports : Imports.ofTree t = (sourcesAt t p).resolver.imports := by
    rw [Imports.ofTree, Tree.walk, Node.walk_eq_preorder]
    rfl
  have hinstances : instanceBindings (Definition.classNames (Definition.ofTree t)) m.descendants =
      (sourcesAt t p).resolver.instances := by
    rw [instanceBindings_eq, Node.descendants_eq]
    simp only [NameSources.resolver, sourcesAt, hm, Option.map_some, Option.getD_some,
      ← mem_classNames_iff]
    refine congrArg Table.ofList (List.filter_congr (fun e _ => ?_))
    simp
  rw [himports, hinstances]
  rfl

/-! ## What is recorded -/

namespace Call

variable {t : Tree} {imports : Imports} {filePath : String} {o : Address × Address}

/-- A relationship needs names on both sides and a line that is counted from 1. -/
theorem exists_create_eq_ok_iff {caller callee : String} {kind : CallKind} {line column : Nat} :
    (∃ c, create caller callee kind filePath line column = .ok c) ↔
      caller ≠ "" ∧ callee ≠ "" ∧ line ≠ 0 := by
  unfold create
  simp only [String.isEmpty_iff]
  split
  · next hcaller => simp [hcaller]
  · next hcaller =>
    split
    · next hcallee => simp [hcallee]
    · next hcallee =>
      split
      · next hline => simp [hline]
      · next hline => simp [hcaller, hcallee, hline]

/-- So does what a call expression becomes. -/
theorem exists_ofSite_eq_ok_iff {site : CallSite} {caller callee : String} {span : Span} :
    (∃ c, ofSite site caller callee filePath span = .ok c) ↔
      caller ≠ "" ∧ callee ≠ "" ∧ span.startLine ≠ 0 := by
  have hcreate : (∃ c, create caller callee (kindOf site.callee) filePath span.startLine
      span.column = .ok c) ↔ caller ≠ "" ∧ callee ≠ "" ∧ span.startLine ≠ 0 :=
    exists_create_eq_ok_iff
  rw [← hcreate]
  simp only [ofSite, bind_eq_ok_iff, pure, Except.pure, Except.ok.injEq]
  constructor
  · rintro ⟨-, c, hc, -⟩
    exact ⟨c, hc⟩
  · rintro ⟨c, hc⟩
    exact ⟨_, c, hc, rfl⟩

/-- The calls of a definition are recorded if each call expression below it gives something. -/
theorem exists_ofDefinition_eq_ok {p : Address} {d : Definition} (hd : d.IsAt t.root p)
    (hp : p ∈ Definition.counted false t.root)
    (h : ∀ o ∈ origins t, ∃ c, ComesFrom t imports filePath o c) :
    ∃ calls, ofDefinition imports (Definition.classNames (Definition.ofTree t)) filePath d =
      .ok calls := by
  cases d with
  | ofClass m decl => exact ⟨[], rfl⟩
  | ofFunction m decl scope =>
    obtain ⟨hm, hkind, rfl⟩ := hd
    have hfunction : p ∈ functionAddresses t := by
      refine List.mem_filter.2 ⟨hp, ?_⟩
      rw [Node.isFunctionAt, hm, Option.any_some, Node.isFunction, hkind]
    rw [ofDefinition, exists_mapM_eq_ok_iff, resolvedSites_eq]
    rintro ⟨site, callee, span⟩ hsite
    obtain ⟨k, hk, hsite⟩ := List.mem_filterMap.1 hsite
    obtain ⟨q, hq, hqk⟩ := exists_of_mem_right (Node.forall₂_isAbove hm) hk
    have hcall : t.root.isResolvableCallAt q = true := by
      rw [Node.isResolvableCallAt, hqk, Option.any_some, ← isSome_siteOf, hsite, Option.isSome_some]
    have horigin : (p, q) ∈ origins t :=
      List.mem_flatMap.2 ⟨p, hfunction, List.mem_map_of_mem (List.mem_filter.2 ⟨hq, hcall⟩)⟩
    obtain ⟨c, hcaller, m', k', site', hm', hk', hkind', hresolve', hok, -⟩ := h (p, q) horigin
    obtain rfl := Option.some.inj (hm.symm.trans hm')
    obtain rfl := Option.some.inj (hqk.symm.trans hk')
    obtain ⟨hkindk, hresolve, rfl⟩ := siteOf_eq_some_iff.1 hsite
    obtain rfl := NodeKind.call.inj (hkindk.symm.trans hkind')
    rw [Node.functionName?, hm, Option.bind_some, Node.name?, hkind, Option.map_some] at hcaller
    have hcallee : callee = c.callee := Option.some.inj (hresolve.symm.trans hresolve')
    exact ⟨c, by rw [Option.some.inj hcaller, hcallee]; exact hok⟩

/-- The calls of a file are recorded if each of the pairs of places gives a relationship. -/
theorem exists_ofTree_eq_ok_iff :
    (∃ calls, ofTree t imports filePath = .ok calls) ↔
      ∀ o ∈ origins t, ∃ c, ComesFrom t imports filePath o c := by
  constructor
  · rintro ⟨calls, hcalls⟩ o ho
    obtain ⟨c, -, hc⟩ := exists_of_mem_left (forall₂_origins hcalls) ho
    exact ⟨c, hc⟩
  · intro h
    have hgroups : ∀ d ∈ Definition.ofTree t, ∃ calls, ofDefinition imports
        (Definition.classNames (Definition.ofTree t)) filePath d = .ok calls := by
      intro d hd
      obtain ⟨p, hp, hat⟩ := exists_of_mem_right (Definition.forall₂_ofTree t) hd
      exact exists_ofDefinition_eq_ok hat hp h
    obtain ⟨groups, hgroups⟩ := exists_mapM_eq_ok_iff.2 hgroups
    exact ⟨groups.flatten, map_eq_ok_iff.2 ⟨groups, hgroups, rfl⟩⟩

/-- What the sources for the function at the first place call the callee of the call expression at
the second one. -/
def NamesCallee (t : Tree) (o : Address × Address) (callee : String) : Prop :=
  ∃ n site, t.root.at? o.2 = some n ∧ n.kind = .call site ∧
    (sourcesAt t o.1).Names site.callee callee

/-- Function and callee have names that are not empty, and the line is counted from 1. -/
def Recordable (t : Tree) (o : Address × Address) : Prop :=
  ∃ caller callee n, t.root.functionName? o.1 = some caller ∧ NamesCallee t o callee ∧
    t.root.at? o.2 = some n ∧ caller ≠ "" ∧ callee ≠ "" ∧ n.span.startLine ≠ 0

/-- A relationship has the callee that the sources name. -/
theorem ComesFrom.namesCallee {c : Call} (h : ComesFrom t (Imports.ofTree t) filePath o c) :
    NamesCallee t o c.callee := by
  obtain ⟨m, n, site, hm, hn, hkind, hresolve, -⟩ := h.site
  rw [← resolver_sourcesAt hm] at hresolve
  exact ⟨n, site, hn, hkind, NameSources.resolve_eq_some_iff.1 hresolve⟩

/-- A pair of places gives a relationship if nothing about it is missing. -/
theorem exists_comesFrom_iff :
    (∃ c, ComesFrom t (Imports.ofTree t) filePath o c) ↔ Recordable t o := by
  constructor
  · rintro ⟨c, hc⟩
    obtain ⟨m, n, site, -, hn, -, -, hok, -⟩ := hc.site
    exact ⟨c.caller, c.callee, n, hc.caller, hc.namesCallee, hn, exists_ofSite_eq_ok_iff.1 ⟨c, hok⟩⟩
  · rintro ⟨caller, callee, n, hcaller, ⟨n', site, hn', hkind, hnames⟩, hn, hcomplete⟩
    obtain rfl := Option.some.inj (hn.symm.trans hn')
    obtain ⟨c, hok⟩ : ∃ c, ofSite site caller callee filePath n.span = .ok c :=
      exists_ofSite_eq_ok_iff.2 hcomplete
    have heq := ofSite_eq_ok hok
    have hcallerEq : c.caller = caller := by rw [heq]
    have hcalleeEq : c.callee = callee := by rw [heq]
    obtain ⟨name, hname, -⟩ := Option.map_eq_some_iff.1 hcaller
    obtain ⟨m, hm, -⟩ := Option.bind_eq_some_iff.1 hname
    refine ⟨c, by rw [hcaller, hcallerEq], m, n, site, hm, hn, hkind, ?_, ?_, by rw [heq],
      by rw [heq]⟩
    · rw [← resolver_sourcesAt hm, hcalleeEq]
      exact NameSources.resolve_eq_some_iff.2 hnames
    · rw [hcallerEq, hcalleeEq, hok]

/-- Whether a callee is called anything is a matter of its shape. -/
theorem exists_namesCallee_iff :
    (∃ callee, NamesCallee t o callee) ↔ t.root.isResolvableCallAt o.2 = true := by
  rw [Node.isResolvableCallAt, Option.any_eq_true]
  constructor
  · rintro ⟨callee, n, site, hn, hkind, hnames⟩
    refine ⟨n, hn, ?_⟩
    rw [Node.isResolvableCall, hkind]
    exact NameSources.exists_names_iff.1 ⟨callee, hnames⟩
  · rintro ⟨n, hn, hcall⟩
    unfold Node.isResolvableCall at hcall
    split at hcall
    · next site hkind =>
      obtain ⟨callee, hnames⟩ := NameSources.exists_names_iff.2 hcall
      exact ⟨callee, n, site, hn, hkind, hnames⟩
    · cases hcall

/-- The calls of a file and the names of their callees. -/
structure CalleesNamed (t : Tree) (filePath : String) : Prop where
  /-- The functions are those among the definitions, in the same order. -/
  functions : List.Forall₂ (fun p d => Definition.IsAt t.root p d) (functionAddresses t)
    ((Definition.ofTree t).filter Definition.isFunction)
  /-- The classes are those among the definitions. -/
  mem_classes_iff : ∀ p name, name ∈ (sourcesAt t p).classes ↔
    name ∈ Definition.classNames (Definition.ofTree t)
  /-- The imported names are those that import statements bind. -/
  mem_imported_iff : ∀ p x target, (x, target) ∈ (sourcesAt t p).imported ↔
    ∃ n ∈ t.root.preorder, Imports.Binds n.kind x target
  /-- Imports from no named module and imports of no names, as wildcards are, bind nothing. -/
  silent : ∀ n ∈ t.root.preorder, (∃ names, n.kind = .importFrom ⟨none, names⟩) ∨
    (∃ moduleName, n.kind = .importFrom ⟨moduleName, []⟩) →
      ∀ x target, ¬Imports.Binds n.kind x target
  /-- Each function is paired once with each call expression below it whose callee has a name. -/
  mem_origins_iff : ∀ p q, (p, q) ∈ origins t ↔
    p ∈ functionAddresses t ∧ p.IsAbove q ∧ ∃ callee, NamesCallee t (p, q) callee
  nodup_origins : (origins t).Nodup
  /-- The callee has a name if it is a name or an attribute of a name, and otherwise not. -/
  named_iff : ∀ p q n site, t.root.at? q = some n → n.kind = .call site →
    ((∃ callee, NamesCallee t (p, q) callee) ↔
      (∃ x, site.callee = .name x) ∨ ∃ r attr, site.callee = .attribute (.name r) attr)
  /-- No callee has two names. -/
  unique : ∀ o callee other, NamesCallee t o callee → NamesCallee t o other → callee = other
  /-- The calls are recorded unless there is a pair that lacks a name or a line. -/
  recorded_iff : (∃ calls, ofTree t (Imports.ofTree t) filePath = .ok calls) ↔
    ∀ o ∈ origins t, Recordable t o
  /-- There is one relationship for each pair: the function calls what the callee is named there. -/
  callees : ∀ calls, ofTree t (Imports.ofTree t) filePath = .ok calls →
    List.Forall₂ (fun o c => t.root.functionName? o.1 = some c.caller ∧ NamesCallee t o c.callee)
      (origins t) calls

/-- No pair is listed twice. -/
theorem nodup_origins (t : Tree) : (origins t).Nodup := by
  refine List.nodup_flatMap.2 ⟨fun p _ => ?_, (nodup_functionAddresses t).imp ?_⟩
  · exact (t.root.nodup_callsBelow p).map (fun q q' heq => (Prod.mk.inj heq).2)
  · intro p p' hne o ho ho'
    obtain ⟨q, -, rfl⟩ := List.mem_map.1 ho
    obtain ⟨q', -, heq⟩ := List.mem_map.1 ho'
    exact hne (Prod.mk.inj heq).1.symm

/-- A pair is a function that counts and a call expression below it whose callee has a name. -/
theorem mem_origins_iff {p q : Address} :
    (p, q) ∈ origins t ↔
      p ∈ functionAddresses t ∧ p.IsAbove q ∧ ∃ callee, NamesCallee t (p, q) callee := by
  rw [exists_namesCallee_iff, ← Node.mem_callsBelow_iff, origins, List.mem_flatMap]
  constructor
  · rintro ⟨p, hp, hmap⟩
    obtain ⟨q, hq, heq⟩ := List.mem_map.1 hmap
    cases heq
    exact ⟨hp, hq⟩
  · rintro ⟨hp, hq⟩
    exact ⟨p, hp, List.mem_map_of_mem hq⟩

/-- In every file, the calls that are recorded are those whose callees have a name by the sources
for the function that they are recorded for, and they are recorded under this name. -/
theorem calleesNamed (t : Tree) (filePath : String) : CalleesNamed t filePath where
  functions := forall₂_functionAddresses t
  mem_classes_iff _ _ := mem_classNames_iff.symm
  mem_imported_iff p x target := by
    simp only [sourcesAt, List.mem_flatMap, Imports.mem_ofKind_iff]
  silent n _ hkind x target hbinds := by
    rcases hkind with ⟨names, hkind⟩ | ⟨moduleName, hkind⟩
    · rw [hkind] at hbinds
      cases hbinds
    · rw [hkind] at hbinds
      cases hbinds with
      | importFrom ha => exact absurd ha List.not_mem_nil
  mem_origins_iff _ _ := mem_origins_iff
  nodup_origins := nodup_origins t
  named_iff p q n site hn hkind := by
    rw [exists_namesCallee_iff, Node.isResolvableCallAt, hn, Option.any_some,
      Node.isResolvableCall, hkind]
    exact Expr.isResolvable_iff
  unique o callee other := by
    rintro ⟨n, site, hn, hkind, hnames⟩ ⟨n', site', hn', hkind', hnames'⟩
    obtain rfl := Option.some.inj (hn.symm.trans hn')
    obtain rfl := NodeKind.call.inj (hkind.symm.trans hkind')
    exact hnames.unique hnames'
  recorded_iff := by
    simp only [exists_ofTree_eq_ok_iff, exists_comesFrom_iff]
  callees _ hcalls := (forall₂_origins hcalls).imp (fun _ _ hc => ⟨hc.caller, hc.namesCallee⟩)

/-- A name that is imported twice, and a variable that holds an instance before it is assigned
something else. -/
def reboundTree : Tree where
  root := ⟨.file, ⟨1, 9, 0⟩, [
    ⟨.imports [⟨"db", none⟩], ⟨1, 1, 0⟩, []⟩,
    ⟨.classDef { name := "Shop" }, ⟨2, 3, 0⟩, []⟩,
    ⟨.function { name := "main" }, ⟨4, 9, 0⟩, [
      ⟨.importFrom ⟨some "tools", [⟨"load", some "db"⟩]⟩, ⟨5, 5, 4⟩, []⟩,
      ⟨.assign ⟨"db", .call (.name "connect")⟩, ⟨6, 6, 4⟩, []⟩,
      ⟨.assign ⟨"shop", .call (.name "Shop")⟩, ⟨7, 7, 4⟩, []⟩,
      ⟨.assign ⟨"shop", .call (.name "connect")⟩, ⟨8, 8, 4⟩, []⟩,
      ⟨.call { callee := .attribute (.name "shop") "open" }, ⟨9, 9, 4⟩, []⟩,
      ⟨.call { callee := .attribute (.name "db") "read" }, ⟨9, 9, 16⟩, []⟩,
      ⟨.call { callee := .attribute (.name "self") "read" }, ⟨9, 9, 27⟩, []⟩,
      ⟨.call { callee := .attribute (.attribute (.name "shop") "db") "read" }, ⟨9, 9, 40⟩, []⟩]⟩]⟩
  source := ""

example : ((ofTree reboundTree (Imports.ofTree reboundTree) "app.py").toOption.getD []).map
    Call.callee = ["Shop.open", "tools.load.read", "self.read"] := by
  decide +kernel

end Call

end CodeAtlas.Analysis
