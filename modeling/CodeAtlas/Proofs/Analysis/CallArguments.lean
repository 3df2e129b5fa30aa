import CodeAtlas.Proofs.Analysis.CalleeNames
import CodeAtlas.Proofs.Table
import CodeAtlas.Report.Entities

/-!
# Arguments of calls

Positional and keyword arguments are added to a call one after the other. The positional ones stay a
list. The keyword arguments are a map in which a keyword has the value that it got last, at the
place where it came first; so a report of the call has each keyword once.

Main definitions:

- `Call.addAll`: a call with some more arguments.
- `Call.Collects`: what a call has after some arguments were added to it.
- `Call.KeepsArguments`: a relationship has the arguments of a call expression.

Main results:

- Theorem `Call.collects_addAll`: what becomes of arguments that are added.
- Theorem `Call.keepsArguments_ofSite`: what becomes of the arguments of a call expression.
- Theorem `Call.argumentsKept`: both, and the same for all relationships of a file.
-/

namespace CodeAtlas.Analysis.Call

open CodeAtlas.Syntax

/-! ## Arguments that are added -/

/-- An argument that is added to a call. -/
inductive Addition where
  | positional (name : Option String) (value : String)
  | keyword (key value : String)
  deriving DecidableEq, Repr, Inhabited

/-- The positional argument that is added, if it is one. -/
def Addition.argument? : Addition → Option CallArgument
  | positional name value => some { name, value }
  | keyword _ _ => none

/-- The keyword with its value that is added, if it is one. -/
def Addition.keyword? : Addition → Option (String × String)
  | positional _ _ => none
  | keyword key value => some (key, value)

/-- A call with one more argument. -/
def add (c : Call) : Addition → Call
  | .positional name value => c.addArgument name value
  | .keyword key value => c.addKeyword key value

/-- A call with some more arguments, one after the other. -/
def addAll (c : Call) (additions : List Addition) : Call := additions.foldl add c

/-- Positional arguments come behind those that are there, and keywords are entered one by one. -/
theorem addAll_eq (c : Call) (additions : List Addition) :
    c.addAll additions = { c with
      arguments := c.arguments ++ additions.filterMap Addition.argument?
      keywords := Table.ofList (c.keywords.entries ++ additions.filterMap Addition.keyword?) } := by
  rw [← Table.foldl_insert_eq]
  induction additions generalizing c with
  | nil => simp [addAll]
  | cons addition rest ih =>
    change (c.add addition).addAll rest = _
    rw [ih]
    cases addition with
    | positional name value =>
      simp [add, addArgument, List.filterMap_cons, Addition.argument?, Addition.keyword?]
    | keyword key value =>
      simp [add, addKeyword, List.filterMap_cons, Addition.argument?, Addition.keyword?]

/-- What a call has after some arguments were added to it: the positional ones behind those that it
had, and of each keyword the value that came last, at the place where the keyword came first. -/
structure Collects (c : Call) (additions : List Addition) (d : Call) : Prop where
  arguments : d.arguments = c.arguments ++ additions.filterMap Addition.argument?
  /-- A keyword has the last of the values that it had and got. -/
  keyword : ∀ key value, d.keyword? key = some value ↔
    IsLast (fun e => e.1 = key) (c.keywords.entries ++ additions.filterMap Addition.keyword?)
      (key, value)
  /-- The keywords are in the order in which they came first. -/
  keys : d.keywords.keys =
    (c.keywords.keys ++ (additions.filterMap Addition.keyword?).map Prod.fst).eraseDups
  /-- Keywords that are there already leave the order as it is. -/
  keys_of_present : (∀ e ∈ additions.filterMap Addition.keyword?, e.1 ∈ c.keywords.keys) →
    d.keywords.keys = c.keywords.keys
  /-- A keyword counts once. -/
  size : d.keywords.size =
    (c.keywords.keys ++ (additions.filterMap Addition.keyword?).map Prod.fst).toFinset.card
  /-- A report shows each keyword once, and how many there are. -/
  report : ∃ fields, (Report.call d).field? "keyword_arguments" = some (.obj fields) ∧
    (Report.call d).field? "keyword_arguments_count" = some (.nat d.keywords.size) ∧
    fields.map Prod.fst = d.keywords.keys ∧ (fields.map Prod.fst).Nodup

/-- A report of a call has its keywords in order, each once, and their number. -/
theorem exists_reported_keywords (c : Call) :
    ∃ fields, (Report.call c).field? "keyword_arguments" = some (.obj fields) ∧
      (Report.call c).field? "keyword_arguments_count" = some (.nat c.keywords.size) ∧
      fields.map Prod.fst = c.keywords.keys ∧ (fields.map Prod.fst).Nodup := by
  have hkeys : (c.keywords.entries.map (fun e => (e.1, Json.str e.2))).map Prod.fst =
      c.keywords.keys := by
    rw [List.map_map]
    rfl
  exact ⟨_, rfl, rfl, hkeys, hkeys ▸ c.keywords.nodup_keys⟩

/-- Whatever arguments are added to a call, it has them afterwards. -/
theorem collects_addAll (c : Call) (additions : List Addition) :
    c.Collects additions (c.addAll additions) := by
  have hkeywords : (c.addAll additions).keywords =
      Table.ofList (c.keywords.entries ++ additions.filterMap Addition.keyword?) := by
    rw [addAll_eq]
  have hkeys : (c.addAll additions).keywords.keys =
      (c.keywords.keys ++ (additions.filterMap Addition.keyword?).map Prod.fst).eraseDups := by
    rw [hkeywords, Table.keys_ofList, List.map_append, Table.keys]
  refine ⟨by rw [addAll_eq], fun key value => ?keyword, hkeys, fun hpresent => ?present, ?size,
    exists_reported_keywords _⟩
  case keyword => rw [keyword?, hkeywords, Table.get?_ofList_eq_some_iff]
  case present => rw [hkeywords, Table.keys_ofList_append_of_present _ hpresent]
  case size => rw [hkeywords, Table.size_ofList, List.map_append, Table.keys]

/-! ## Call expressions -/

/-- The key of a keyword argument; splatted mappings share one. -/
def keyOf (k : Keyword) : String := k.name.getD splatKeyword

/-- The arguments of a call expression in the order in which they are added. -/
def additionsOf (site : CallSite) : List Addition :=
  site.arguments.map (fun e => .positional none (renderArgument e)) ++
    site.keywords.map (fun k => .keyword (keyOf k) (renderArgument k.value))

/-- A relationship has the arguments of a call expression: the positional ones in order and without
names, and of each keyword the last value, at the place where the keyword comes first. -/
structure KeepsArguments (site : CallSite) (c : Call) : Prop where
  arguments : c.arguments = site.arguments.map (fun e =>
    { name := none, value := renderArgument e, typeHint := none, isKeyword := false })
  keyword : ∀ key value, c.keyword? key = some value ↔
    ∃ k, IsLast (fun k => keyOf k = key) site.keywords k ∧ renderArgument k.value = value
  keys : c.keywords.keys = (site.keywords.map keyOf).eraseDups
  nodup_keys : c.keywords.keys.Nodup
  size : c.keywords.size = (site.keywords.map keyOf).toFinset.card

/-- What is added for a call expression. -/
theorem filterMap_additionsOf (site : CallSite) :
    (additionsOf site).filterMap Addition.argument? =
        site.arguments.map (fun e => { value := renderArgument e }) ∧
      (additionsOf site).filterMap Addition.keyword? =
        site.keywords.map (fun k => (keyOf k, renderArgument k.value)) := by
  constructor
  · simp [additionsOf, List.filterMap_append, List.filterMap_map, Function.comp_def,
      Addition.argument?]
  · simp [additionsOf, List.filterMap_append, List.filterMap_map, Function.comp_def,
      Addition.keyword?]

variable {site : CallSite} {caller callee filePath : String} {span : Span} {c : Call}

/-- What a call expression becomes is a call without arguments to which its arguments are added. -/
theorem exists_addAll_of_ofSite (h : ofSite site caller callee filePath span = .ok c) :
    ∃ bare : Call, bare.arguments = [] ∧ bare.keywords = ∅ ∧
      c = bare.addAll (additionsOf site) := by
  obtain ⟨harguments, hkeywords⟩ := filterMap_additionsOf site
  let bare : Call :=
    { caller, callee, filePath
      kind := kindOf site.callee
      line := span.startLine
      column := span.column }
  refine ⟨bare, rfl, rfl, ?_⟩
  rw [ofSite_eq_ok h, addAll_eq, harguments, hkeywords, ← Table.foldl_insert_eq, List.foldl_map]
  rfl

/-- What a call expression becomes has its arguments. -/
theorem keepsArguments_ofSite (h : ofSite site caller callee filePath span = .ok c) :
    KeepsArguments site c := by
  obtain ⟨bare, harguments, hkeywords, rfl⟩ := exists_addAll_of_ofSite h
  obtain ⟨hpositional, hnamed⟩ := filterMap_additionsOf site
  have hcollects := bare.collects_addAll (additionsOf site)
  have hentries : bare.keywords.entries = [] := congrArg Table.entries hkeywords
  have hkeys : bare.keywords.keys = [] := congrArg (List.map Prod.fst) hentries
  have hnames : ((additionsOf site).filterMap Addition.keyword?).map Prod.fst =
      site.keywords.map keyOf := by
    rw [hnamed, List.map_map]
    rfl
  refine ⟨?arguments, fun key value => ?keyword, ?keys, Table.nodup_keys _, ?size⟩
  case arguments => rw [hcollects.arguments, harguments, hpositional, List.nil_append]
  case keyword =>
    rw [hcollects.keyword, hentries, List.nil_append, hnamed, isLast_map_iff]
    refine exists_congr (fun k => and_congr_right (fun hlast => ?_))
    have hkey : keyOf k = key := hlast.prop
    rw [Prod.mk.injEq, and_iff_right hkey]
  case keys => rw [hcollects.keys, hkeys, List.nil_append, hnames]
  case size => rw [hcollects.size, hkeys, List.nil_append, hnames]

/-- Calls keep the arguments that are added to them, and so what a call expression becomes keeps
those of the expression; every relationship of a file comes from one. -/
theorem argumentsKept :
    (∀ site caller callee filePath span c, ofSite site caller callee filePath span = .ok c →
      KeepsArguments site c) ∧
    (∀ site caller callee filePath span, (∃ c, ofSite site caller callee filePath span = .ok c) ↔
      caller ≠ "" ∧ callee ≠ "" ∧ span.startLine ≠ 0) ∧
    (∀ t imports filePath calls, ofTree t imports filePath = .ok calls →
      List.Forall₂ (fun o c => ∃ n site, t.root.at? o.2 = some n ∧ n.kind = .call site ∧
        KeepsArguments site c) (origins t) calls) ∧
    ∀ (c : Call) (additions : List Addition), c.Collects additions (c.addAll additions) := by
  refine ⟨fun _ _ _ _ _ _ => keepsArguments_ofSite, fun _ _ _ _ _ => exists_ofSite_eq_ok_iff,
    fun t imports filePath calls hcalls => ?_, collects_addAll⟩
  refine (forall₂_origins hcalls).imp (fun o c hc => ?_)
  obtain ⟨m, n, site, -, hn, hkind, -, hok, -⟩ := hc.site
  exact ⟨n, site, hn, hkind, keepsArguments_ofSite hok⟩

/-- A call with a splatted list, a repeated keyword and two splatted mappings. -/
def repeatedSite : CallSite where
  callee := .name "g"
  arguments := [.name "x", .other]
  keywords := [⟨"zeta", .constant "1"⟩, ⟨none, .name "first"⟩, ⟨"alpha", .constant "2"⟩,
    ⟨"zeta", .constant "3"⟩, ⟨none, .name "second"⟩]

theorem argumentsKept_repeatedSite :
    ∃ c, ofSite repeatedSite "f" "g" "a.py" ⟨2, 2, 4⟩ = .ok c ∧ KeepsArguments repeatedSite c ∧
      c.keywords.entries = [("zeta", "3"), ("**", "second"), ("alpha", "2")] := by
  obtain ⟨c, hc⟩ := (argumentsKept.2.1 repeatedSite "f" "g" "a.py" ⟨2, 2, 4⟩).2
    ⟨by decide, by decide, by decide⟩
  refine ⟨c, hc, argumentsKept.1 _ _ _ _ _ _ hc, ?_⟩
  have hentries : (ofSite repeatedSite "f" "g" "a.py" ⟨2, 2, 4⟩).map (fun c => c.keywords.entries) =
      .ok [("zeta", "3"), ("**", "second"), ("alpha", "2")] := by decide
  rw [hc] at hentries
  exact Except.ok.inj hentries

end CodeAtlas.Analysis.Call
