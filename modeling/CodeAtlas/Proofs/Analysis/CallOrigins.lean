import CodeAtlas.Analysis.CallResolution
import CodeAtlas.Proofs.Analysis.Symbols

/-!
# Where the calls of a file come from

Every relationship comes from a pair of places: a function that counts, and a call expression
somewhere below it whose callee can be worked out. The pairs can be listed from the outline alone,
function by function and in each of them in the order in which nodes are visited.

Main results:

- Theorem `ofSite_eq_ok`: what a call expression becomes.
- Theorem `isSome_resolve`: whether a callee can be worked out depends on its shape only.
- Theorem `countP_origins`: a call expression occurs in as many pairs as there are functions that
  count on the way to it.
- Theorem `forall₂_origins`: the relationships of a file come from these pairs one by one.
- Theorem `traced_of_ofTree`: so they are counted and ordered like the pairs, and the caller is the
  qualified name of the symbol of the function.
-/

namespace CodeAtlas.Syntax

/-- Whether a callee can be worked out from a file alone: a name, or an attribute of a name. -/
def Expr.isResolvable : Expr → Bool
  | .name _ => true
  | .attribute (.name _) _ => true
  | _ => false

namespace Node

/-- Whether the node is a call expression whose callee can be worked out. -/
def isResolvableCall (n : Node) : Bool :=
  match n.kind with
  | .call site => site.callee.isResolvable
  | _ => false

/-- Whether such a call expression is at an address. -/
def isResolvableCallAt (n : Node) (p : Address) : Bool := (n.at? p).any isResolvableCall

/-- The addresses of such call expressions below an address, in the order in which they are
visited. -/
def callsBelow (n : Node) (p : Address) : List Address :=
  (n.addresses.filter (Address.IsAbove p)).filter n.isResolvableCallAt

/-- The name of the function at an address, with the class that it stands in directly in front. -/
def functionName? (n : Node) (p : Address) : Option String :=
  ((n.at? p).bind name?).map (Analysis.Scope.qualify ⟨n.owner? p⟩)

/-- What is listed below an address are the call expressions below it, each once. -/
theorem mem_callsBelow_iff {n : Node} {p q : Address} :
    q ∈ n.callsBelow p ↔ p.IsAbove q ∧ n.isResolvableCallAt q = true := by
  rw [callsBelow, List.mem_filter, List.mem_filter, mem_addresses_iff, decide_eq_true_iff]
  constructor
  · rintro ⟨⟨-, habove⟩, hcall⟩
    exact ⟨habove, hcall⟩
  · rintro ⟨habove, hcall⟩
    obtain ⟨m, hm, -⟩ := (Option.any_eq_true _ _).1 hcall
    exact ⟨⟨⟨m, hm⟩, habove⟩, hcall⟩

theorem nodup_callsBelow (n : Node) (p : Address) : (n.callsBelow p).Nodup :=
  ((nodup_addresses n).filter _).filter _

end Node

end CodeAtlas.Syntax

namespace CodeAtlas.Analysis

open CodeAtlas.Syntax

/-! ## Call expressions -/

/-- Whether a callee can be worked out depends on its shape only. -/
theorem CallResolver.isSome_resolve (r : CallResolver) (callee : Expr) :
    (r.resolve callee).isSome = callee.isResolvable := by
  rcases callee with _ | ⟨_ | _ | _ | _ | _, _⟩ | _ | _ | _ <;> rfl

namespace Call

/-- Arguments are added in order. -/
theorem foldl_addArgument (f : Expr → String) (args : List Expr) (c : Call) :
    args.foldl (fun c e => c.addArgument none (f e)) c =
      { c with arguments := c.arguments ++ args.map (fun e => { value := f e }) } := by
  induction args generalizing c with
  | nil => simp
  | cons e rest ih => rw [List.foldl_cons, ih]; simp [addArgument]

/-- Keyword arguments are entered into the table one after the other. -/
theorem foldl_addKeyword (key value : Keyword → String) (keywords : List Keyword) (c : Call) :
    keywords.foldl (fun c k => c.addKeyword (key k) (value k)) c =
      { c with keywords := keywords.foldl (fun t k => t.insert (key k) (value k)) c.keywords } := by
  induction keywords generalizing c with
  | nil => rfl
  | cons k rest ih => rw [List.foldl_cons, ih]; rfl

/-- The kind of a call, by the shape of its callee. -/
def kindOf : Expr → CallKind
  | .attribute _ _ => .methodCall
  | _ => .functionCall

/-- What a call expression becomes. -/
theorem ofSite_eq_ok {site : CallSite} {caller callee filePath : String} {span : Span} {c : Call}
    (h : ofSite site caller callee filePath span = .ok c) :
    c = { caller, callee, filePath
          kind := kindOf site.callee
          line := span.startLine
          column := span.column
          arguments := site.arguments.map (fun e => { value := renderArgument e })
          keywords := site.keywords.foldl
            (fun t k => t.insert (k.name.getD splatKeyword) (renderArgument k.value)) ∅ } := by
  simp only [ofSite, bind_eq_ok_iff, foldl_addArgument, foldl_addKeyword, pure, Except.pure,
    Except.ok.injEq] at h
  obtain ⟨c', hc', rfl⟩ := h
  unfold create at hc'
  split at hc'
  · cases hc'
  · split at hc'
    · cases hc'
    · split at hc'
      · cases hc'
      · cases hc'
        rfl

/-! ## Pairs of places -/

/-- The addresses of the functions that count, in the order of the walk. -/
def functionAddresses (t : Tree) : List Address :=
  (Definition.counted false t.root).filter t.root.isFunctionAt

/-- The functions that count, each with the call expressions below it. -/
def origins (t : Tree) : List (Address × Address) :=
  (functionAddresses t).flatMap (fun p => (t.root.callsBelow p).map (fun q => (p, q)))

theorem mem_functionAddresses_iff {t : Tree} {p : Address} :
    p ∈ functionAddresses t ↔ t.root.countsFunctionAt p = true := by
  rw [functionAddresses, List.mem_filter, Definition.mem_counted_file_iff, Node.countsAt,
    Bool.or_eq_true]
  constructor
  · rintro ⟨hclass | hcounts, hfunction⟩
    · rw [Node.isFunctionAt_of_isClassAt hclass] at hfunction
      cases hfunction
    · exact hcounts
  · intro hcounts
    exact ⟨Or.inr hcounts, (Bool.and_eq_true_iff.1 hcounts).1⟩

theorem nodup_functionAddresses (t : Tree) : (functionAddresses t).Nodup :=
  (Definition.nodup_counted false t.root).filter _

/-- If each part holds at most one of what is counted, the parts that hold one are counted. -/
theorem countP_flatMap_of_one {α β : Type} {f : α → List β} {q : β → Bool} {p : α → Bool}
    (h : ∀ x, (f x).countP q = if p x then 1 else 0) (l : List α) :
    (l.flatMap f).countP q = l.countP p := by
  induction l with
  | nil => rfl
  | cons x rest ih =>
    rw [List.flatMap_cons, List.countP_append, ih, h x, List.countP_cons, Nat.add_comm]

/-- A call expression occurs in as many pairs as there are functions that count on the way to it. -/
theorem countP_origins (t : Tree) {q : Address} (hq : t.root.isResolvableCallAt q = true) :
    (origins t).countP (fun o => o.2 = q) =
      (Address.above q).countP t.root.countsFunctionAt := by
  have hbelow : ∀ p, ((t.root.callsBelow p).map (fun q => (p, q))).countP (fun o => o.2 = q) =
      if p.IsAbove q then 1 else 0 := by
    intro p
    have hcount := (t.root.nodup_callsBelow p).count (a := q)
    simp only [Node.mem_callsBelow_iff, hq, and_true] at hcount
    rw [List.countP_map, ← hcount, List.count]
    exact List.countP_congr (fun a _ => by simp)
  have hsame : ((functionAddresses t).filter (fun p => p.IsAbove q)).Perm
      ((Address.above q).filter t.root.countsFunctionAt) := by
    rw [List.perm_ext_iff_of_nodup ((nodup_functionAddresses t).filter _)
      ((Address.nodup_above q).filter _)]
    intro p
    rw [List.mem_filter, List.mem_filter, mem_functionAddresses_iff, Address.mem_above_iff,
      decide_eq_true_iff, and_comm]
  calc (origins t).countP (fun o => o.2 = q)
      = (functionAddresses t).countP (fun p => p.IsAbove q) :=
        countP_flatMap_of_one (fun p => by simpa using hbelow p) _
    _ = ((functionAddresses t).filter (fun p => p.IsAbove q)).length :=
        List.countP_eq_length_filter
    _ = (Address.above q).countP t.root.countsFunctionAt := by
        rw [hsame.length_eq, List.countP_eq_length_filter]

/-! ## Relationships and the pairs that they come from -/

/-- The relationship comes from a pair of places. -/
structure ComesFrom (t : Tree) (imports : Imports) (filePath : String) (o : Address × Address)
    (c : Call) : Prop where
  /-- The caller is the function. -/
  caller : t.root.functionName? o.1 = some c.caller
  /-- The callee is what is called, as far as it can be worked out in the function, and everything
  else is taken from the call expression. -/
  site : ∃ m n site, t.root.at? o.1 = some m ∧ t.root.at? o.2 = some n ∧ n.kind = .call site ∧
    CallResolver.resolve ⟨⟨t.root.owner? o.1⟩, imports,
      instanceBindings (Definition.classNames (Definition.ofTree t)) m.descendants⟩ site.callee =
      some c.callee ∧
    ofSite site c.caller c.callee filePath n.span = .ok c ∧
    c.line = n.span.startLine ∧ c.column = n.span.column

variable {t : Tree} {imports : Imports} {filePath : String}

/-- The call expression that a node is, with the name of its callee, if that can be worked out. -/
def siteOf (r : CallResolver) (n : Node) : Option (CallSite × String × Span) :=
  match n.kind with
  | .call site => (r.resolve site.callee).map (fun callee => (site, callee, n.span))
  | _ => none

theorem resolvedSites_eq (r : CallResolver) (nodes : List Node) :
    resolvedSites r nodes = nodes.filterMap (siteOf r) :=
  rfl

theorem isSome_siteOf (r : CallResolver) (n : Node) :
    (siteOf r n).isSome = n.isResolvableCall := by
  unfold siteOf Node.isResolvableCall
  cases n.kind with
  | call site => rw [Option.isSome_map, CallResolver.isSome_resolve]
  | _ => rfl

theorem siteOf_eq_some_iff {r : CallResolver} {n : Node} {site : CallSite} {callee : String}
    {span : Span} :
    siteOf r n = some (site, callee, span) ↔
      n.kind = .call site ∧ r.resolve site.callee = some callee ∧ n.span = span := by
  unfold siteOf
  cases n.kind with
  | call site' =>
    simp only [Option.map_eq_some_iff, Prod.mk.injEq, NodeKind.call.injEq]
    constructor
    · rintro ⟨_, hresolve, rfl, rfl, rfl⟩
      exact ⟨rfl, hresolve, rfl⟩
    · rintro ⟨rfl, hresolve, rfl⟩
      exact ⟨callee, hresolve, rfl, rfl, rfl⟩
  | _ => simp

/-- The relationships of a definition come from the call expressions below it, if it is a function.
-/
theorem forall₂_ofDefinition {p : Address} {d : Definition} {calls : List Call}
    (hd : d.IsAt t.root p)
    (h : ofDefinition imports (Definition.classNames (Definition.ofTree t)) filePath d = .ok calls) :
    List.Forall₂ (ComesFrom t imports filePath)
      (if t.root.isFunctionAt p then (t.root.callsBelow p).map (fun q => (p, q)) else []) calls := by
  cases d with
  | ofClass m decl =>
    have hfunction : t.root.isFunctionAt p = false := by
      simp [Node.isFunctionAt, hd.1, Node.isFunction, hd.2]
    cases h
    rw [hfunction]
    exact List.Forall₂.nil
  | ofFunction m decl s =>
    obtain ⟨hm, hkind, rfl⟩ := hd
    have hfunction : t.root.isFunctionAt p = true := by
      simp [Node.isFunctionAt, hm, Node.isFunction, hkind]
    rw [if_pos hfunction, List.forall₂_map_left_iff]
    simp only [ofDefinition, mapM_eq_ok_iff, resolvedSites_eq, forall₂_filterMap_left_iff,
      isSome_siteOf] at h
    have hsites : List.Forall₂ (fun q k => t.root.at? q = some k) (t.root.callsBelow p)
        (m.descendants.filter Node.isResolvableCall) := by
      refine forall₂_filter (Node.forall₂_isAbove hm) (fun q _ k hk => ?_)
      rw [Node.isResolvableCallAt, hk, Option.any_some]
    refine (forall₂_comp hsites h).imp (fun q c hc => ?_)
    obtain ⟨k, hk, ⟨site, callee, span⟩, hsite, hc⟩ := hc
    obtain ⟨hcall, hresolve, rfl⟩ := siteOf_eq_some_iff.1 hsite
    have heq := ofSite_eq_ok hc
    have hcaller : c.caller = Scope.qualify ⟨t.root.owner? p⟩ decl.name := by rw [heq]
    have hcallee : c.callee = callee := by rw [heq]
    refine ⟨?_, m, k, site, hm, hk, hcall, ?_, ?_, by rw [heq], by rw [heq]⟩
    · rw [Node.functionName?, hm, Option.bind_some, Node.name?, hkind, Option.map_some, hcaller]
    · rw [hcallee, hresolve]
    · rw [hcaller, hcallee, hc]

/-- Picking first and then going on gives nothing for what is not picked. -/
theorem flatMap_filter {α β : Type} (p : α → Bool) (f : α → List β) (l : List α) :
    (l.filter p).flatMap f = (l.map (fun x => if p x then f x else [])).flatten := by
  induction l with
  | nil => rfl
  | cons x rest ih =>
    rw [List.map_cons, List.flatten_cons, ← ih]
    cases hp : p x <;> simp [hp]

/-- The relationships of a file come from the pairs of places, one by one. -/
theorem forall₂_origins {calls : List Call} (h : ofTree t imports filePath = .ok calls) :
    List.Forall₂ (ComesFrom t imports filePath) (origins t) calls := by
  obtain ⟨groups, hgroups, rfl⟩ := map_eq_ok_iff.1 h
  have hdefinitions := forall₂_comp (Definition.forall₂_ofTree t) (mapM_eq_ok_iff.1 hgroups)
  rw [origins, functionAddresses, flatMap_filter]
  refine List.rel_flatten (List.forall₂_map_left_iff.2 (hdefinitions.imp (fun p calls hp => ?_)))
  obtain ⟨d, hd, hcalls⟩ := hp
  exact forall₂_ofDefinition hd hcalls

/-! ## Callers and symbols -/

/-- What is at an address and has a symbol has the name that the symbol says. -/
theorem qualifiedName_of_isAt {modulePath : String} {p : Address} {d : Definition} {x : Symbol}
    (hd : d.IsAt t.root p) (hfunction : t.root.isFunctionAt p = true)
    (hx : Symbol.Declares filePath modulePath d x) :
    t.root.functionName? p = some x.qualifiedName := by
  rw [hx.qualifiedName]
  cases d with
  | ofClass m decl => simp [Node.isFunctionAt, hd.1, Node.isFunction, hd.2] at hfunction
  | ofFunction m decl s =>
    obtain ⟨hm, hkind, rfl⟩ := hd
    simp [Node.functionName?, hm, Node.name?, hkind, Definition.owner?, Definition.name]

/-- The caller of the relationship is the qualified name of the symbol that the function at an
address gets, among the symbols of all definitions. -/
def NamedBySymbol (t : Tree) (symbols : List Symbol) (p : Address) (c : Call) : Prop :=
  ∃ (i : Nat) (d : Definition) (x : Symbol), (Definition.ofTree t)[i]? = some d ∧ d.IsAt t.root p ∧
    symbols[i]? = some x ∧ c.caller = x.qualifiedName

/-- A relationship that comes from a function that counts is named by the symbol of the function. -/
theorem ComesFrom.namedBySymbol {modulePath : String} {symbols : List Symbol}
    (hsymbols : Symbol.ofTree t filePath modulePath = .ok symbols) {o : Address × Address} {c : Call}
    (ho : o.1 ∈ functionAddresses t) (h : ComesFrom t imports filePath o c) :
    NamedBySymbol t symbols o.1 c := by
  obtain ⟨hcounted, hfunction⟩ := List.mem_filter.1 ho
  obtain ⟨i, hi⟩ := List.mem_iff_getElem?.1 hcounted
  obtain ⟨d, hd, hisAt⟩ := exists_getElem?_right (Definition.forall₂_ofTree t) hi
  obtain ⟨x, hx, hdeclares⟩ := exists_getElem?_right (Symbol.forall₂_declares hsymbols) hd
  refine ⟨i, d, x, hd, hisAt, hx, ?_⟩
  exact Option.some.inj (h.caller.symm.trans (qualifiedName_of_isAt hisAt hfunction hdeclares))

/-- The relationships of a file, pair by pair. -/
structure Traced (t : Tree) (imports : Imports) (filePath : String) (calls : List Call) :
    Prop where
  /-- The functions are those among the definitions, in the same order. -/
  functions : List.Forall₂ (fun p d => Definition.IsAt t.root p d) (functionAddresses t)
    ((Definition.ofTree t).filter Definition.isFunction)
  /-- There is one relationship for each pair, in the order of the pairs. -/
  traced : List.Forall₂ (ComesFrom t imports filePath) (origins t) calls
  /-- A call expression whose callee can be worked out gives one relationship for each function that
  counts on the way to it. -/
  count : ∀ q, t.root.isResolvableCallAt q = true →
    (origins t).countP (fun o => o.2 = q) = (Address.above q).countP t.root.countsFunctionAt
  /-- If the file has symbols, those of the functions name the callers. -/
  callers : ∀ modulePath symbols, Symbol.ofTree t filePath modulePath = .ok symbols →
    List.Forall₂ (fun o c => NamedBySymbol t symbols o.1 c) (origins t) calls

/-- Every relationship comes from a function that counts. -/
theorem fst_mem_of_mem_origins {o : Address × Address} (ho : o ∈ origins t) :
    o.1 ∈ functionAddresses t := by
  obtain ⟨p, hp, hmap⟩ := List.mem_flatMap.1 ho
  obtain ⟨q, -, rfl⟩ := List.mem_map.1 hmap
  exact hp

/-- The functions among the definitions stand at the addresses of functions that count. -/
theorem forall₂_functionAddresses (t : Tree) :
    List.Forall₂ (fun p d => Definition.IsAt t.root p d) (functionAddresses t)
      ((Definition.ofTree t).filter Definition.isFunction) := by
  refine forall₂_filter (Definition.forall₂_ofTree t) (fun p _ d hd => ?_)
  cases d with
  | ofClass m decl => simp [Node.isFunctionAt, hd.1, Node.isFunction, hd.2, Definition.isFunction]
  | ofFunction m decl s =>
    simp [Node.isFunctionAt, hd.1, Node.isFunction, hd.2.1, Definition.isFunction]

/-- If the calls of a file can be made, they are one relationship for each function that counts and
each call expression below it whose callee can be worked out. -/
theorem traced_of_ofTree {calls : List Call} (h : ofTree t imports filePath = .ok calls) :
    Traced t imports filePath calls where
  functions := forall₂_functionAddresses t
  traced := forall₂_origins h
  count := fun _ hq => countP_origins t hq
  callers := by
    intro modulePath symbols hsymbols
    have hcounts : ∀ o ∈ origins t, o.1 ∈ functionAddresses t := fun o => fst_mem_of_mem_origins
    refine ((List.forall₂_and_left _ _).2 ⟨hcounts, forall₂_origins h⟩).imp (fun o c hc => ?_)
    exact hc.2.namedBySymbol hsymbols hc.1

/-- A class with a method that has a helper, and a function in a function, with a call in each. -/
def nestedTree : Tree where
  root := ⟨.file, ⟨1, 8, 0⟩, [
    ⟨.classDef { name := "Shop" }, ⟨1, 4, 0⟩, [
      ⟨.function { name := "sell" }, ⟨2, 4, 4⟩, [
        ⟨.function { name := "price" }, ⟨3, 4, 8⟩, [
          ⟨.call { callee := .attribute (.name "self") "tax" }, ⟨4, 4, 12⟩, []⟩]⟩]⟩]⟩,
    ⟨.function { name := "outer" }, ⟨5, 7, 0⟩, [
      ⟨.function { name := "inner" }, ⟨6, 7, 4⟩, [
        ⟨.call { callee := .name "run" }, ⟨7, 7, 8⟩, []⟩]⟩]⟩,
    ⟨.call { callee := .name "outer" }, ⟨8, 8, 0⟩, []⟩]⟩
  source := ""

/-- What the calls of that file are. -/
def nestedCalls : List Call := (ofTree nestedTree {} "shop.py").toOption.getD []

/-- The call in the helper counts for the method only, the call in the inner function for both
functions, and the call outside all functions for none. -/
theorem traced_nestedTree :
    ofTree nestedTree {} "shop.py" = .ok nestedCalls ∧
      Traced nestedTree {} "shop.py" nestedCalls ∧
      nestedCalls.map (fun c => (c.caller, c.callee, c.line)) =
        [("Shop.sell", "Shop.tax", 4), ("outer", "run", 7), ("inner", "run", 7)] := by
  have hcalls : ofTree nestedTree {} "shop.py" = .ok nestedCalls := by decide +kernel
  exact ⟨hcalls, traced_of_ofTree hcalls, by decide +kernel⟩

end Call

end CodeAtlas.Analysis
