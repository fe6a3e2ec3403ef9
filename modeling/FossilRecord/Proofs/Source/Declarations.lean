import FossilRecord.Proofs.Source.Candidates
import Mathlib.Data.List.Nodup
import Mathlib.Data.List.Range

/-!
# Which declarations an outline reports

The walk over a tree carries a mark down to the children of a node that wraps a declaration, and
takes it away at the first child that declares a symbol.  Listing the candidates of a tree in the
same way gives every candidate of the tree, in the order of the addresses, and no other.

`outlineTree_candidates` states that the symbols of an outline are those that the candidates give.
The candidates hang on the tree alone, so a name that is no good takes away the symbol of its own
candidate and no other.
-/

namespace FossilRecord.Source

/-! ## The candidates in order -/

/-- The candidate that a node is itself, unless it is covered, or that it makes of a child. -/
def ownCandidates (language : Language) (covered : Bool) (n : Node) : List Candidate :=
  if covered then []
  else
    match language.role? n.kind with
    | some (.declares base) => [⟨[], [], base⟩]
    | some .wraps =>
        match firstDeclaring? language n.children, wrapped? language n with
        | some i, some (_, base) => [⟨[], [i], base⟩]
        | _, _ => []
    | none => []

/-- A candidate below a child, seen from the parent. -/
def Candidate.under (i : Nat) (c : Candidate) : Candidate :=
  ⟨i :: c.anchor, i :: c.declaration, c.base⟩

/-- The candidates of the upper levels below a node, in the order in which a walk comes to them. -/
def candidates (language : Language) : (levels : Nat) → (covered : Bool) → Node → List Candidate
  | 0, _, _ => []
  | levels + 1, covered, n =>
      ownCandidates language covered n ++ n.children.zipIdx.flatMap fun child =>
        (candidates language levels
          (!covered && coversChild language n &&
            firstDeclaring? language n.children = some child.2) child.1).map
          (Candidate.under child.2)

/-! ## What the walk reports -/

section

variable {sheet : Sheet}

theorem walk_zero (covered : Bool) (n : Node) : walk sheet 0 covered n = [] := by
  cases n
  rfl

theorem walk_succ (room : Nat) (covered : Bool) (n : Node) :
    walk sheet (room + 1) covered n =
      (if covered then [] else reportNode sheet n) ++
        walkAll sheet room (!covered && coversChild sheet.kind.language n) n.children := by
  cases n
  rfl

/-- Of nodes in a row, the first one that declares a symbol is covered, if one is pending. -/
theorem walkAll_eq (room : Nat) (pending : Bool) (nodes : List Node) :
    walkAll sheet room pending nodes = nodes.zipIdx.flatMap fun child =>
      walk sheet room (pending && firstDeclaring? sheet.kind.language nodes = some child.2)
        child.1 := by
  induction nodes generalizing pending with
  | nil => rfl
  | cons n rest ih =>
      rw [walkAll, ih, List.zipIdx_cons', List.flatMap_cons, List.flatMap_map]
      -- what is pending for the rest depends on whether the first node takes it
      cases hfirst : (declared? sheet.kind.language n).isSome with
      | true => simp [firstDeclaring?, List.findIdx?_cons, hfirst]
      | false =>
          have hcons : firstDeclaring? sheet.kind.language (n :: rest) =
              (firstDeclaring? sheet.kind.language rest).map (· + 1) := by
            simp [firstDeclaring?, List.findIdx?_cons, hfirst]
          simp only [hcons, Bool.and_false, Bool.not_false, Bool.and_true]
          refine congrArg₂ (· ++ ·) (by simp) (List.flatMap_congr fun child _ => ?_)
          exact congrArg (fun covered => walk sheet room (pending && covered) child.1)
            (decide_eq_decide.mpr (by simp))

theorem report_eq_filterMap {n declaration : Node} {c : Candidate} (hanchor : c.anchor = [])
    (hat : n.at? c.declaration = some declaration) :
    report sheet n declaration c.base = [c].filterMap (Candidate.symbol? sheet n) := by
  have hsymbol : c.symbol? sheet n = (report sheet n declaration c.base).head? := by
    rw [Candidate.symbol?, hanchor, hat]
    rfl
  rw [report_eq_toList, List.filterMap_cons, hsymbol]
  cases (report sheet n declaration c.base).head? <;> rfl

theorem reportNode_eq (n : Node) :
    reportNode sheet n =
      (ownCandidates sheet.kind.language false n).filterMap (Candidate.symbol? sheet n) := by
  unfold reportNode ownCandidates
  cases sheet.kind.language.role? n.kind with
  | none => rfl
  | some role =>
      cases role with
      | declares base => exact report_eq_filterMap (c := ⟨[], [], base⟩) rfl rfl
      | wraps =>
          cases hwrapped : wrapped? sheet.kind.language n with
          | none => simp
          | some found =>
              obtain ⟨c, base⟩ := found
              obtain ⟨i, hi⟩ := wrapped?_eq_some.mp hwrapped
              rw [firstDeclaring?_eq_some.mpr ⟨c, base, hi⟩]
              exact report_eq_filterMap (c := ⟨[], [i], base⟩) rfl
                (Node.at?_cons_of_child hi.child [])

/-- A candidate below a child gives what it gives for the child. -/
theorem symbol?_under {n c : Node} {i : Nat} (hc : n.children[i]? = some c) (d : Candidate) :
    (d.under i).symbol? sheet n = d.symbol? sheet c := by
  rw [Candidate.symbol?, Candidate.symbol?, Candidate.under, Node.at?_cons_of_child hc,
    Node.at?_cons_of_child hc]

/-- A walk reports what the candidates give. -/
theorem walk_eq_filterMap (sheet : Sheet) (levels : Nat) (covered : Bool) (n : Node) :
    walk sheet levels covered n =
      (candidates sheet.kind.language levels covered n).filterMap (Candidate.symbol? sheet n) := by
  induction levels generalizing covered n with
  | zero => exact walk_zero covered n
  | succ levels ih =>
      rw [walk_succ, walkAll_eq, candidates, List.filterMap_append, List.filterMap_flatMap]
      congr 1
      · cases covered with
        | true => rfl
        | false => exact reportNode_eq n
      · refine List.flatMap_congr fun child hc => ?_
        have hchild := List.mem_zipIdx_iff_getElem?.mp hc
        rw [ih, List.filterMap_map]
        exact List.filterMap_congr fun d _ => (symbol?_under hchild d).symm

end

/-! ## The candidates are in order -/

section

variable {language : Language}

theorem anchor_of_mem_ownCandidates {covered : Bool} {n : Node} {c : Candidate}
    (hc : c ∈ ownCandidates language covered n) : c.anchor = [] := by
  unfold ownCandidates at hc
  split at hc
  · cases hc
  · split at hc
    · rw [List.mem_singleton.mp hc]
    · split at hc
      · rw [List.mem_singleton.mp hc]
      · cases hc
    · cases hc

theorem ownCandidates_pairwise (covered : Bool) (n : Node) :
    (ownCandidates language covered n).Pairwise fun a b => a.anchor < b.anchor := by
  unfold ownCandidates
  split
  · exact .nil
  · split
    · exact List.pairwise_singleton _ _
    · split
      · exact List.pairwise_singleton _ _
      · exact .nil
    · exact .nil

/-- Candidates come in the order of the nodes at whose lines they are. -/
theorem candidates_pairwise (language : Language) (levels : Nat) (covered : Bool) (n : Node) :
    (candidates language levels covered n).Pairwise fun a b => a.anchor < b.anchor := by
  induction levels generalizing covered n with
  | zero => exact .nil
  | succ levels ih =>
      rw [candidates, List.pairwise_append]
      refine ⟨ownCandidates_pairwise covered n, ?_, ?_⟩
      · rw [List.pairwise_flatMap]
        constructor
        · intro child _
          rw [List.pairwise_map]
          exact (ih _ child.1).imp fun hlt => List.cons_lt_cons_iff.mpr (.inr ⟨rfl, hlt⟩)
        · -- what is below an earlier child stands before what is below a later one
          have hindices : n.children.zipIdx.Pairwise fun a b => a.2 < b.2 := by
            rw [← List.pairwise_map (f := Prod.snd), List.zipIdx_map_snd]
            exact List.pairwise_lt_range'
          refine hindices.imp fun hlt c hc d hd => ?_
          obtain ⟨c, -, rfl⟩ := List.mem_map.mp hc
          obtain ⟨d, -, rfl⟩ := List.mem_map.mp hd
          exact List.cons_lt_cons_iff.mpr (.inl hlt)
      · intro c hc d hd
        obtain ⟨child, -, hd⟩ := List.mem_flatMap.mp hd
        obtain ⟨d, -, rfl⟩ := List.mem_map.mp hd
        rw [anchor_of_mem_ownCandidates hc]
        exact List.nil_lt_cons _ _

end

/-! ## Which candidates there are -/

section

variable {language : Language} {n child : Node} {i : Nat}

theorem mem_ownCandidates {covered : Bool} {c : Candidate} :
    c ∈ ownCandidates language covered n ↔ covered = false ∧
      ((∃ base, language.role? n.kind = some (.declares base) ∧ c = ⟨[], [], base⟩) ∨
        (language.role? n.kind = some .wraps ∧
          ∃ i d base, IsFirstDeclaring language n i d base ∧ c = ⟨[], [i], base⟩)) := by
  unfold ownCandidates
  cases covered with
  | true => simp
  | false =>
      simp only [Bool.false_eq_true, if_false, true_and]
      cases language.role? n.kind with
      | none => simp
      | some role =>
          cases role with
          | declares base => simp
          | wraps =>
              simp only [reduceCtorEq, Option.some.injEq, false_and, exists_false, true_and,
                false_or]
              constructor
              · intro hc
                split at hc
                · rename_i i _ base hindex hwrapped
                  obtain ⟨d, other, hd⟩ := firstDeclaring?_eq_some.mp hindex
                  obtain ⟨j, hj⟩ := wrapped?_eq_some.mp hwrapped
                  obtain rfl := hd.unique hj
                  exact ⟨i, _, base, hj, List.mem_singleton.mp hc⟩
                · cases hc
              · rintro ⟨i, d, base, hd, rfl⟩
                rw [firstDeclaring?_eq_some.mpr ⟨d, base, hd⟩, wrapped?_eq_some.mpr ⟨i, hd⟩]
                exact List.mem_singleton.mpr rfl

/-- A candidate is at the line of the node itself, or is one below a child. -/
theorem IsCandidate.cases_levels {levels : Nat} {c : Candidate}
    (h : IsCandidate language (levels + 1) n c) :
    c ∈ ownCandidates language false n ∨
      ∃ i child d, n.children[i]? = some child ∧ c = Candidate.under i d := by
  cases h with
  | own hat hdepth hrole hfree =>
      rename_i address m base
      cases address with
      | nil =>
          cases hat
          exact .inl (mem_ownCandidates.mpr ⟨rfl, .inl ⟨base, hrole, rfl⟩⟩)
      | cons i rest =>
          obtain ⟨child, hchild, -⟩ := Node.at?_cons_eq_some.mp hat
          exact .inr ⟨i, child, ⟨rest, rest, base⟩, hchild, rfl⟩
  | wrapped hat hdepth hrole hfirst =>
      rename_i address w d j base
      cases address with
      | nil =>
          cases hat
          exact .inl (mem_ownCandidates.mpr ⟨rfl, .inr ⟨hrole, j, d, base, hfirst, rfl⟩⟩)
      | cons i rest =>
          obtain ⟨child, hchild, -⟩ := Node.at?_cons_eq_some.mp hat
          exact .inr ⟨i, child, ⟨rest, rest ++ [j], base⟩, hchild, rfl⟩

theorem isCandidate_of_mem_ownCandidates {levels : Nat} {covered : Bool} {c : Candidate}
    (hc : c ∈ ownCandidates language covered n) : IsCandidate language (levels + 1) n c := by
  rcases mem_ownCandidates.mp hc with ⟨-, ⟨base, hrole, rfl⟩ | ⟨hrole, i, d, base, hfirst, rfl⟩⟩
  · exact .own rfl (Nat.succ_pos levels) hrole not_isWrapped_nil
  · exact .wrapped rfl (Nat.succ_pos levels) hrole hfirst

/-- What is a candidate below a child is one below the node, unless it is the child and the node
wraps it. -/
theorem isCandidate_under {levels : Nat} (hchild : n.children[i]? = some child) {d : Candidate} :
    IsCandidate language (levels + 1) n (d.under i) ↔
      IsCandidate language levels child d ∧
        (d.declaration = [] → language.role? n.kind = some .wraps →
          ¬∃ base, IsFirstDeclaring language n i child base) := by
  obtain ⟨anchor, declaration, base⟩ := d
  constructor
  · intro h
    generalize hd : Candidate.under i ⟨anchor, declaration, base⟩ = c at h
    cases h with
    | own hat hdepth hrole hfree =>
        simp only [Candidate.under, Candidate.mk.injEq] at hd
        obtain ⟨rfl, hsame, rfl⟩ := hd
        obtain rfl := (List.cons.inj hsame).2
        rw [Node.at?_cons_of_child hchild] at hat
        rw [isWrapped_cons hchild, not_or] at hfree
        exact ⟨.own hat (Nat.lt_of_succ_lt_succ hdepth) hrole hfree.2,
          fun hnil hwraps hfirst => hfree.1 ⟨hnil, hwraps, hfirst⟩⟩
    | wrapped hat hdepth hrole hfirst =>
        simp only [Candidate.under, Candidate.mk.injEq] at hd
        obtain ⟨rfl, hsame, rfl⟩ := hd
        obtain rfl := (List.cons.inj hsame).2
        rw [Node.at?_cons_of_child hchild] at hat
        exact ⟨.wrapped hat (Nat.lt_of_succ_lt_succ hdepth) hrole hfirst, by simp⟩
  · rintro ⟨h, hfree⟩
    generalize hd : (⟨anchor, declaration, base⟩ : Candidate) = d at h
    cases h with
    | own hat hdepth hrole hfree' =>
        cases hd
        rw [← Node.at?_cons_of_child hchild] at hat
        refine .own hat (Nat.succ_lt_succ hdepth) hrole ?_
        rw [isWrapped_cons hchild]
        rintro (⟨hnil, hwraps, hfirst⟩ | hwrapped)
        · exact hfree hnil hwraps hfirst
        · exact hfree' hwrapped
    | wrapped hat hdepth hrole hfirst =>
        cases hd
        rw [← Node.at?_cons_of_child hchild] at hat
        exact .wrapped hat (Nat.succ_lt_succ hdepth) hrole hfirst

theorem coversChild_iff : coversChild language n = true ↔ language.role? n.kind = some .wraps := by
  unfold coversChild
  split
  · rename_i hrole
    simp [hrole]
  · rename_i hrole
    simp only [Bool.false_eq_true, false_iff]
    exact hrole

theorem mem_candidates_succ {levels : Nat} {covered : Bool} {c : Candidate} :
    c ∈ candidates language (levels + 1) covered n ↔
      c ∈ ownCandidates language covered n ∨
      ∃ i child d, n.children[i]? = some child ∧ c = Candidate.under i d ∧
        d ∈ candidates language levels
          (!covered && coversChild language n && firstDeclaring? language n.children = some i)
          child := by
  rw [candidates, List.mem_append, List.mem_flatMap]
  refine or_congr_right ?_
  simp only [Prod.exists, List.mem_zipIdx_iff_getElem?, List.mem_map]
  constructor
  · rintro ⟨child, i, hchild, d, hd, rfl⟩
    exact ⟨i, child, d, hchild, rfl, hd⟩
  · rintro ⟨i, child, d, hchild, rfl, hd⟩
    exact ⟨child, i, hchild, d, hd, rfl⟩

/-- A covered node declares a symbol, so a node that wraps something is not covered. -/
theorem covered_eq_false {covered : Bool}
    (hcovered : covered = true → ∃ base, language.role? n.kind = some (.declares base))
    (hwraps : language.role? n.kind = some .wraps) : covered = false := by
  rw [Bool.eq_false_iff]
  intro htrue
  obtain ⟨base, hdeclares⟩ := hcovered htrue
  rw [hwraps] at hdeclares
  cases hdeclares

/-- The mark goes to the first declaring child of a node that wraps something. -/
theorem covers_iff {covered : Bool}
    (hcovered : covered = true → ∃ base, language.role? n.kind = some (.declares base))
    (hchild : n.children[i]? = some child) :
    (!covered && coversChild language n && firstDeclaring? language n.children = some i) = true ↔
      language.role? n.kind = some .wraps ∧ ∃ base, IsFirstDeclaring language n i child base := by
  rw [Bool.and_eq_true, Bool.and_eq_true, decide_eq_true_eq, coversChild_iff,
    firstDeclaring?_eq_some, Bool.not_eq_true', and_assoc]
  constructor
  · rintro ⟨-, hwraps, c, base, hfirst⟩
    obtain rfl : child = c := Option.some.inj (hchild.symm.trans hfirst.child)
    exact ⟨hwraps, base, hfirst⟩
  · rintro ⟨hwraps, base, hfirst⟩
    exact ⟨covered_eq_false hcovered hwraps, hwraps, child, base, hfirst⟩

/-- The candidates of a walk are those of the tree; a node that is covered is none itself. -/
theorem mem_candidates {levels : Nat} {covered : Bool} {c : Candidate}
    (hcovered : covered = true → ∃ base, language.role? n.kind = some (.declares base)) :
    c ∈ candidates language levels covered n ↔
      IsCandidate language levels n c ∧ (covered = true → c.declaration ≠ []) := by
  induction levels generalizing covered n c with
  | zero =>
      simp only [candidates, List.not_mem_nil, false_iff, not_and]
      rintro (⟨-, hdepth, -⟩ | ⟨-, hdepth, -⟩) <;> cases hdepth
  | succ levels ih =>
      have hbelow : ∀ i child d, n.children[i]? = some child →
          (d ∈ candidates language levels
            (!covered && coversChild language n && firstDeclaring? language n.children = some i)
            child ↔ IsCandidate language (levels + 1) n (d.under i)) := by
        intro i child d hchild
        rw [isCandidate_under hchild, ih]
        · refine and_congr_right fun _ => ?_
          rw [covers_iff hcovered hchild]
          tauto
        · intro hmarked
          obtain ⟨-, base, hfirst⟩ := (covers_iff hcovered hchild).mp hmarked
          exact ⟨base, hfirst.declares⟩
      rw [mem_candidates_succ]
      constructor
      · rintro (hown | ⟨i, child, d, hchild, rfl, hd⟩)
        · refine ⟨isCandidate_of_mem_ownCandidates hown, fun htrue => ?_⟩
          rw [(mem_ownCandidates.mp hown).1] at htrue
          cases htrue
        · exact ⟨(hbelow i child d hchild).mp hd, fun _ => by simp [Candidate.under]⟩
      · rintro ⟨hc, hfree⟩
        rcases hc.cases_levels with hown | ⟨i, child, d, hchild, rfl⟩
        · refine .inl ?_
          obtain ⟨-, hroot⟩ := mem_ownCandidates.mp hown
          refine mem_ownCandidates.mpr ⟨?_, hroot⟩
          rcases hroot with ⟨base, -, rfl⟩ | ⟨hwraps, -⟩
          · exact Bool.eq_false_iff.mpr fun htrue => hfree htrue rfl
          · exact covered_eq_false hcovered hwraps
        · exact .inr ⟨i, child, d, hchild, rfl, (hbelow i child d hchild).mpr hc⟩

end

/-! ## The main statement -/

/-- Whether some candidates are all those of a tree, in order and each declaration once. -/
structure IsOutline (language : Language) (tree : Node) (found : List Candidate) : Prop where
  /-- They come in the order of the nodes at whose lines they are. -/
  ordered : found.Pairwise fun a b => a.anchor < b.anchor
  mem_iff : ∀ c, c ∈ found ↔ IsCandidate language (maxDepth + 1) tree c
  /-- No declaration comes twice, be it by itself or through a node that wraps it. -/
  once : (found.map Candidate.declaration).Nodup
  /-- Every declaration that is not too deep comes, also below one that is wrapped. -/
  every : ∀ address n base, tree.at? address = some n → address.length ≤ maxDepth →
    language.role? n.kind = some (.declares base) →
      ∃ c ∈ found, c.declaration = address ∧ c.base = base

/-- The candidates of a walk from the root are an outline. -/
theorem isOutline_candidates (language : Language) (tree : Node) :
    IsOutline language tree (candidates language (maxDepth + 1) false tree) := by
  have hordered := candidates_pairwise language (maxDepth + 1) false tree
  have hmem : ∀ c, c ∈ candidates language (maxDepth + 1) false tree ↔
      IsCandidate language (maxDepth + 1) tree c := by
    intro c
    rw [mem_candidates (by simp)]
    simp
  refine ⟨hordered, hmem, ?_, fun address n base hat hdepth hrole => ?_⟩
  · refine List.Nodup.map_on (fun c hc d hd hsame => ?_) ?_
    · exact ((hmem c).mp hc).eq_of_declaration ((hmem d).mp hd) hsame
    · refine hordered.imp fun hlt hsame => ?_
      rw [hsame] at hlt
      exact lt_irrefl _ hlt
  · obtain ⟨c, hc, hdeclaration, hbase⟩ :=
      IsCandidate.exists_of_declares hat (Nat.lt_succ_of_le hdepth) hrole
    exact ⟨c, (hmem c).mpr hc, hdeclaration, hbase⟩

/-- The symbols of an outline are those that the candidates of its tree give, in their order; the
candidates are the same for every text, every label and every kind of file in the language. -/
theorem outlineTree_candidates (language : Language) (tree : Node) :
    ∃ found, IsOutline language tree found ∧
      ∀ (markup script : Bool) (src : Chars) (label : String),
        let sheet : Sheet := ⟨⟨language, markup, script⟩, src, label⟩
        outlineTree sheet tree = found.filterMap (Candidate.symbol? sheet tree) ∧
          ∀ c ∈ found, ∀ s, c.symbol? sheet tree = some s ↔ c.Gives sheet tree s := by
  refine ⟨_, isOutline_candidates language tree, fun markup script src label => ⟨?_, ?_⟩⟩
  · exact walk_eq_filterMap ⟨⟨language, markup, script⟩, src, label⟩ (maxDepth + 1) false tree
  · exact fun _ _ _ => Candidate.symbol?_eq_some

end FossilRecord.Source
