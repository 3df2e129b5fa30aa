import CodeAtlas.Proofs.Python.Landmarks
import CodeAtlas.Python.Reader

/-!
# Comments among constructs

Comments are put into a tree when all else has been read. They are no landmarks, and the landmarks
of a tree stay what they are; so the tree follows the grammar with the comments if it does without
them.

Main definition: `Commented`, some constructs in a row with comments between them and in them.

Main result: `FollowsGrammar.withComments`.
-/

namespace CodeAtlas.Python

/-- Constructs in a row, and the same ones with comments between them and in them. -/
inductive Commented : List Concrete → List Concrete → Prop where
  | nil : Commented [] []
  | comment {cs ds : List Concrete} (k : Comment) (h : Commented cs ds) :
    Commented cs (commentNode k :: ds)
  | keep {cs ds : List Concrete} (c : Concrete) (comments : List Comment) (h : Commented cs ds) :
    Commented (c :: cs) (c.withComments comments :: ds)

namespace Commented

variable {cs ds : List Concrete}

theorem comments (ks : List Comment) (h : Commented cs ds) :
    Commented cs (ks.map commentNode ++ ds) := by
  induction ks with
  | nil => exact h
  | cons k rest ih => exact .comment k ih

/-- A construct with comments is one of the constructs, or a comment. -/
theorem mem_cases (h : Commented cs ds) {d : Concrete} (hd : d ∈ ds) :
    (∃ k, d = commentNode k) ∨
      ∃ c comments, c ∈ cs ∧ d = c.withComments comments := by
  induction h with
  | nil => exact absurd hd List.not_mem_nil
  | comment k _ ih =>
    rcases List.mem_cons.1 hd with rfl | hd
    · exact Or.inl ⟨k, rfl⟩
    · exact ih hd
  | keep c comments _ ih =>
    rcases List.mem_cons.1 hd with rfl | hd
    · exact Or.inr ⟨c, comments, List.mem_cons_self, rfl⟩
    · rcases ih hd with hcomment | ⟨e, others, he, rfl⟩
      · exact Or.inl hcomment
      · exact Or.inr ⟨e, others, List.mem_cons_of_mem _ he, rfl⟩

/-- Each construct is at one place, and at the other places are comments and other constructs. -/
theorem exists_index (h : Commented cs ds) {i : Nat} {c : Concrete} (hc : cs[i]? = some c) :
    ∃ (j : Nat) (comments : List Comment), ds[j]? = some (c.withComments comments) ∧
      ∀ (l : Nat) (d : Concrete), ds[l]? = some d → l ≠ j →
        (∃ k, d = commentNode k) ∨ ∃ (k : Nat) (e : Concrete) (others : List Comment),
          cs[k]? = some e ∧ k ≠ i ∧ d = e.withComments others := by
  induction h generalizing i with
  | nil => simp at hc
  | comment k _ ih =>
    obtain ⟨j, comments, hj, hothers⟩ := ih hc
    refine ⟨j + 1, comments, hj, fun l d hd hl => ?_⟩
    cases l with
    | zero => exact Or.inl ⟨k, (Option.some.inj hd).symm⟩
    | succ l => exact hothers l d hd (fun heq => hl (congrArg (· + 1) heq))
  | keep first inside hrest ih =>
    cases i with
    | zero =>
      obtain rfl : first = c := Option.some.inj hc
      refine ⟨0, inside, rfl, fun l d hd hl => ?_⟩
      obtain ⟨l, rfl⟩ := Nat.exists_eq_succ_of_ne_zero hl
      rcases hrest.mem_cases (List.mem_of_getElem? hd) with hcomment | ⟨e, others, he, rfl⟩
      · exact Or.inl hcomment
      · obtain ⟨k, hk⟩ := List.mem_iff_getElem?.1 he
        exact Or.inr ⟨k + 1, e, others, hk, Nat.succ_ne_zero k, rfl⟩
    | succ i =>
      obtain ⟨j, comments, hj, hothers⟩ := ih hc
      refine ⟨j + 1, comments, hj, fun l d hd hl => ?_⟩
      cases l with
      | zero =>
        obtain rfl := Option.some.inj hd
        exact Or.inr ⟨0, first, inside, rfl, (Nat.succ_ne_zero i).symm, rfl⟩
      | succ l =>
        rcases hothers l d hd (fun heq => hl (congrArg (· + 1) heq)) with
          hcomment | ⟨k, e, others, hk, hne, rfl⟩
        · exact Or.inl hcomment
        · exact Or.inr ⟨k + 1, e, others, hk, fun heq => hne (Nat.succ.inj heq), rfl⟩

end Commented

theorem commented_withCommentsAmong (ks : List Comment) (cs : List Concrete) :
    Commented cs (withCommentsAmong ks cs) := by
  induction cs generalizing ks with
  | nil =>
    have hcomments := Commented.nil.comments ks
    rwa [List.append_nil] at hcomments
  | cons c rest ih =>
    rw [withCommentsAmong]
    exact (Commented.keep c _ (ih _)).comments _

namespace Concrete

variable (ks : List Comment) (c : Concrete)

@[simp]
theorem construct_withComments : (c.withComments ks).construct = c.construct := by
  cases c
  rw [withComments]

@[simp]
theorem role_withComments : (c.withComments ks).role = c.role := by
  cases c
  rw [withComments]

@[simp]
theorem children_withComments :
    (c.withComments ks).children = withCommentsAmong ks c.children := by
  cases c
  rw [withComments]

theorem commented_children : Commented c.children (c.withComments ks).children := by
  rw [children_withComments]
  exact commented_withCommentsAmong ks c.children

/-- Comments have no roles. -/
theorem child?_withComments (role : Role) :
    ∃ comments, (c.withComments ks).child? role =
      (c.child? role).map (fun d => d.withComments comments) := by
  have h := commented_children ks c
  unfold child?
  generalize c.children = cs, (c.withComments ks).children = ds at h
  induction h with
  | nil => exact ⟨[], rfl⟩
  | comment k _ ih => simpa [commentNode] using ih
  | keep d comments _ ih =>
    by_cases hrole : d.role = some role
    · exact ⟨comments, by simp [hrole]⟩
    · simpa [hrole] using ih

/-- A construct with comments is a landmark if it is one without them. -/
theorem isLandmark_withComments : (c.withComments ks).isLandmark = c.isLandmark := by
  obtain ⟨comments, hleft⟩ := child?_withComments ks c .left
  obtain ⟨others, hright⟩ := child?_withComments ks c .right
  have hassigns : (c.withComments ks).assignsName = c.assignsName := by
    rw [assignsName, assignsName, hleft, hright]
    cases c.child? .left <;> simp [isA]
  simp only [isLandmark, isDefinition, isImport, isA, construct_withComments, hassigns]

variable {c}

theorem isBare_commentNode (k : Comment) : (commentNode k).IsBare :=
  isBare_iff.2 ⟨rfl, fun _ hd => absurd hd List.not_mem_nil⟩

theorem IsBare.withComments (h : c.IsBare) : (c.withComments ks).IsBare := by
  induction c using childrenInduction generalizing ks with
  | step c ih =>
    obtain ⟨hlandmark, hchildren⟩ := isBare_iff.1 h
    refine isBare_iff.2 ⟨(isLandmark_withComments ks c).trans hlandmark, fun d hd => ?_⟩
    rcases (commented_children ks c).mem_cases hd with ⟨k, rfl⟩ | ⟨e, comments, he, rfl⟩
    · exact isBare_commentNode k
    · exact ih e he comments (hchildren e he)

theorem WellMade.withComments (h : c.WellMade) : (c.withComments ks).WellMade where
  decorated hconstruct := by
    rw [construct_withComments] at hconstruct
    obtain ⟨k, definition, hk, hrole, hdefinition, hothers⟩ := h.decorated hconstruct
    obtain ⟨j, comments, hj, hbeside⟩ := (commented_children ks c).exists_index hk
    refine ⟨j, definition.withComments comments, hj, ?_, ?_, fun i d hd hi => ?_⟩
    · rwa [role_withComments]
    · simpa [isDefinition, isA] using hdefinition
    · rcases hbeside i d hd hi with ⟨k, rfl⟩ | ⟨m, e, inside, he, hm, rfl⟩
      · exact ⟨by simp [commentNode], Or.inr (isBare_commentNode k)⟩
      · obtain ⟨hnot, hpart⟩ := hothers m e he hm
        rw [role_withComments, construct_withComments]
        exact ⟨hnot, hpart.imp_right (IsBare.withComments inside)⟩
  imports himport d hd := by
    have hplain : c.isImport = true := by simpa [isImport, isA] using himport
    rcases (commented_children ks c).mem_cases hd with ⟨k, rfl⟩ | ⟨e, comments, he, rfl⟩
    · exact isBare_commentNode k
    · exact (h.imports hplain e he).withComments comments

theorem followsGrammar_commentNode (k : Comment) : (commentNode k).FollowsGrammar := by
  refine followsGrammar_iff.2 ⟨⟨fun h => ?_, fun h => ?_⟩, fun d hd => ?_⟩
  · simp [commentNode] at h
  · simp [commentNode, isImport, isA] at h
  · exact absurd hd List.not_mem_nil

/-- What follows the grammar without comments does so with them. -/
theorem FollowsGrammar.withComments (h : c.FollowsGrammar) :
    (c.withComments ks).FollowsGrammar := by
  induction c using childrenInduction generalizing ks with
  | step c ih =>
    obtain ⟨hmade, hchildren⟩ := followsGrammar_iff.1 h
    refine followsGrammar_iff.2 ⟨hmade.withComments ks, fun d hd => ?_⟩
    rcases (commented_children ks c).mem_cases hd with ⟨k, rfl⟩ | ⟨e, comments, he, rfl⟩
    · exact followsGrammar_commentNode k
    · exact ih e he comments (hchildren e he)

end Concrete

end CodeAtlas.Python
