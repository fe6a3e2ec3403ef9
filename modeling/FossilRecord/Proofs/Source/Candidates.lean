import FossilRecord.Source.Outline

/-!
# Declarations and the nodes that wrap them

A node is known by its address: the indices of the children on the way down to it.  Read from left
to right, addresses are in the order in which a walk comes to their nodes, so what an outline
reports can be said without the walk: `IsCandidate` names, by their addresses, the declarations that
are reported and the nodes at whose lines they are.  Every declaration is a candidate once, by
itself or through the node that wraps it.
-/

namespace FossilRecord.Source

/-! ## Addresses -/

/-- The indices of the children on the way from a node down to another one. -/
abbrev Address := List Nat

namespace Node

/-- The node at an address below a node. -/
def at? (n : Node) : Address → Option Node
  | [] => some n
  | i :: rest => n.children[i]?.bind fun c => c.at? rest

@[simp] theorem at?_nil (n : Node) : n.at? [] = some n := rfl

theorem at?_cons (n : Node) (i : Nat) (rest : Address) :
    n.at? (i :: rest) = n.children[i]?.bind fun c => c.at? rest := rfl

/-- An address that goes down to a child first is an address below that child. -/
theorem at?_cons_of_child {n c : Node} {i : Nat} (hc : n.children[i]? = some c) (rest : Address) :
    n.at? (i :: rest) = c.at? rest := by
  rw [at?_cons, hc, Option.bind_some]

theorem at?_cons_eq_some {n m : Node} {i : Nat} {rest : Address} :
    n.at? (i :: rest) = some m ↔ ∃ c, n.children[i]? = some c ∧ c.at? rest = some m := by
  rw [at?_cons, Option.bind_eq_some_iff]

theorem at?_snoc (n : Node) (above : Address) (i : Nat) :
    n.at? (above ++ [i]) = (n.at? above).bind fun w => w.children[i]? := by
  induction above generalizing n with
  | nil => simp [at?_cons]
  | cons j rest ih =>
      rw [List.cons_append, at?_cons, at?_cons, Option.bind_assoc]
      exact Option.bind_congr fun c _ => ih c

end Node

/-! ## Candidates -/

/-- A declaration that may be reported, and the node at whose line it is. -/
structure Candidate where
  anchor : Address
  declaration : Address
  /-- The kind that the node declares. -/
  base : SymbolType
deriving DecidableEq

/-- Whether a node's child of some index is the first of its children that declares a symbol. -/
structure IsFirstDeclaring (language : Language) (n : Node) (i : Nat) (c : Node)
    (base : SymbolType) : Prop where
  child : n.children[i]? = some c
  declares : language.role? c.kind = some (.declares base)
  first : ∀ j < i, ∀ d, n.children[j]? = some d →
    ∀ other, language.role? d.kind ≠ some (.declares other)

/-- Whether the node at an address is the first declaring child of a node that wraps one. -/
def IsWrapped (language : Language) (tree : Node) (address : Address) : Prop :=
  ∃ above i w c base, address = above ++ [i] ∧ tree.at? above = some w ∧
    language.role? w.kind = some .wraps ∧ IsFirstDeclaring language w i c base

/-- What may be reported of the upper levels of a tree: every declaration that is not wrapped, at
its own line, and the first declaring child of every node that wraps one, at the line of that
node. -/
inductive IsCandidate (language : Language) (levels : Nat) (tree : Node) : Candidate → Prop
  | own {address : Address} {n : Node} {base : SymbolType} (hat : tree.at? address = some n)
      (hdepth : address.length < levels) (hrole : language.role? n.kind = some (.declares base))
      (hfree : ¬IsWrapped language tree address) :
      IsCandidate language levels tree ⟨address, address, base⟩
  | wrapped {address : Address} {w c : Node} {i : Nat} {base : SymbolType}
      (hat : tree.at? address = some w) (hdepth : address.length < levels)
      (hrole : language.role? w.kind = some .wraps)
      (hfirst : IsFirstDeclaring language w i c base) :
      IsCandidate language levels tree ⟨address, address ++ [i], base⟩

/-- The symbol of a declaration with its name, at the line of another node. -/
def symbolOf (sheet : Sheet) (anchor declaration name : Node) (base : SymbolType) : LiveSymbol where
  file := sheet.label
  line := rowOf sheet.src anchor.start + 1
  kind := classify (String.ofList (name.chars sheet.src)) base sheet.kind.markup sheet.kind.script
  name := String.ofList (name.chars sheet.src)
  signature := signature? sheet.kind.language sheet.src declaration

/-- Whether a symbol is what a candidate gives: the name of its declaration has more than one
character and does not start with an underscore, and the symbol is that of this name. -/
def Candidate.Gives (sheet : Sheet) (tree : Node) (c : Candidate) (s : LiveSymbol) : Prop :=
  ∃ anchor declaration name, tree.at? c.anchor = some anchor ∧
    tree.at? c.declaration = some declaration ∧
    nameNode? sheet.kind.language declaration = some name ∧
    1 < (name.chars sheet.src).length ∧ (name.chars sheet.src).head? ≠ some '_' ∧
    s = symbolOf sheet anchor declaration name c.base

/-- The symbol that a candidate gives, if it gives one. -/
def Candidate.symbol? (sheet : Sheet) (tree : Node) (c : Candidate) : Option LiveSymbol :=
  match tree.at? c.anchor, tree.at? c.declaration with
  | some anchor, some declaration => (report sheet anchor declaration c.base).head?
  | _, _ => none

/-! ## What one candidate gives -/

section

variable {sheet : Sheet} {tree : Node}

/-- A declaration gives one symbol or none. -/
theorem report_eq_toList (sheet : Sheet) (anchor declaration : Node) (base : SymbolType) :
    report sheet anchor declaration base =
      (report sheet anchor declaration base).head?.toList := by
  unfold report
  split
  · rfl
  · dsimp only
    split <;> rfl

theorem head?_report_eq_some {anchor declaration : Node} {base : SymbolType} {s : LiveSymbol} :
    (report sheet anchor declaration base).head? = some s ↔
      ∃ name, nameNode? sheet.kind.language declaration = some name ∧
        1 < (name.chars sheet.src).length ∧ (name.chars sheet.src).head? ≠ some '_' ∧
        s = symbolOf sheet anchor declaration name base := by
  unfold report
  cases nameNode? sheet.kind.language declaration with
  | none => simp
  | some name =>
      have husable : isUsableName (name.chars sheet.src) = true ↔
          1 < (name.chars sheet.src).length ∧ (name.chars sheet.src).head? ≠ some '_' := by
        rw [isUsableName, Bool.and_eq_true, decide_eq_true_eq, bne_iff_ne]
      dsimp only
      constructor
      · intro hs
        split at hs
        · rename_i h
          obtain ⟨hlong, hhead⟩ := husable.mp h
          exact ⟨name, rfl, hlong, hhead, (Option.some.inj hs).symm⟩
        · cases hs
      · rintro ⟨_, hname, hlong, hhead, rfl⟩
        cases hname
        rw [if_pos (husable.mpr ⟨hlong, hhead⟩)]
        rfl

theorem Candidate.symbol?_eq_some {c : Candidate} {s : LiveSymbol} :
    c.symbol? sheet tree = some s ↔ c.Gives sheet tree s := by
  unfold Candidate.symbol? Candidate.Gives
  cases tree.at? c.anchor with
  | none => simp
  | some anchor =>
      cases tree.at? c.declaration with
      | none => simp
      | some declaration => simp [head?_report_eq_some]

end

/-! ## The first declaring child -/

section

variable {language : Language} {n : Node}

theorem declared?_eq_some {base : SymbolType} :
    declared? language n = some base ↔ language.role? n.kind = some (.declares base) := by
  unfold declared?
  split <;> simp_all

theorem declared?_eq_none :
    declared? language n = none ↔ ∀ base, language.role? n.kind ≠ some (.declares base) := by
  simp only [Option.eq_none_iff_forall_ne_some, ne_eq, declared?_eq_some]

/-- The index of the first node that declares a symbol. -/
def firstDeclaring? (language : Language) (nodes : List Node) : Option Nat :=
  nodes.findIdx? fun c => (declared? language c).isSome

theorem IsFirstDeclaring.unique {i j : Nat} {c d : Node} {base other : SymbolType}
    (hi : IsFirstDeclaring language n i c base) (hj : IsFirstDeclaring language n j d other) :
    i = j := by
  rcases Nat.lt_trichotomy i j with hlt | heq | hgt
  · exact absurd hi.declares (hj.first i hlt c hi.child base)
  · exact heq
  · exact absurd hj.declares (hi.first j hgt d hj.child other)

theorem firstDeclaring?_eq_some {i : Nat} :
    firstDeclaring? language n.children = some i ↔
      ∃ c base, IsFirstDeclaring language n i c base := by
  rw [firstDeclaring?, List.findIdx?_eq_some_iff_getElem]
  constructor
  · rintro ⟨hi, hdeclares, hfirst⟩
    obtain ⟨base, hbase⟩ := Option.isSome_iff_exists.mp hdeclares
    refine ⟨n.children[i], base, List.getElem?_eq_getElem hi, declared?_eq_some.mp hbase, ?_⟩
    intro j hj d hd other hother
    obtain ⟨hlength, rfl⟩ := List.getElem?_eq_some_iff.mp hd
    exact hfirst j hj (Option.isSome_iff_exists.mpr ⟨other, declared?_eq_some.mpr hother⟩)
  · rintro ⟨c, base, hchild, hdeclares, hfirst⟩
    obtain ⟨hi, rfl⟩ := List.getElem?_eq_some_iff.mp hchild
    refine ⟨hi, Option.isSome_iff_exists.mpr ⟨base, declared?_eq_some.mpr hdeclares⟩, ?_⟩
    intro j hj hother
    obtain ⟨other, hother⟩ := Option.isSome_iff_exists.mp hother
    exact hfirst j hj _ (List.getElem?_eq_getElem (by omega)) other (declared?_eq_some.mp hother)

theorem wrapped?_eq_some {c : Node} {base : SymbolType} :
    wrapped? language n = some (c, base) ↔ ∃ i, IsFirstDeclaring language n i c base := by
  rw [wrapped?, List.findSome?_eq_some_iff]
  simp only [Option.map_eq_some_iff, Prod.mk.injEq, Option.map_eq_none_iff, declared?_eq_some,
    declared?_eq_none]
  constructor
  · rintro ⟨before, d, after, hsplit, ⟨_, hdeclares, rfl, rfl⟩, hnone⟩
    refine ⟨before.length, by simp [hsplit], hdeclares, fun j hj e he => hnone e ?_⟩
    rw [hsplit, List.getElem?_append_left hj] at he
    exact List.mem_of_getElem? he
  · rintro ⟨i, hchild, hdeclares, hfirst⟩
    obtain ⟨hi, rfl⟩ := List.getElem?_eq_some_iff.mp hchild
    refine ⟨n.children.take i, n.children[i], n.children.drop (i + 1), by simp,
      ⟨base, hdeclares, rfl, rfl⟩, fun e he => ?_⟩
    obtain ⟨j, hj, rfl⟩ := List.mem_take_iff_getElem.mp he
    exact hfirst j (by omega) _ (List.getElem?_eq_getElem (by omega))

end

/-! ## Nodes that are wrapped -/

section

variable {language : Language} {n child : Node} {i : Nat}

theorem not_isWrapped_nil : ¬IsWrapped language n [] := by
  rintro ⟨above, i, _, _, _, haddress, -⟩
  simp at haddress

/-- A node below a child is wrapped if it is below that child, or if it is the child and the node
wraps it. -/
theorem isWrapped_cons (hchild : n.children[i]? = some child) {rest : Address} :
    IsWrapped language n (i :: rest) ↔
      (rest = [] ∧ language.role? n.kind = some .wraps ∧
        ∃ base, IsFirstDeclaring language n i child base) ∨
      IsWrapped language child rest := by
  constructor
  · rintro ⟨above, j, w, c, base, haddress, hat, hrole, hfirst⟩
    cases above with
    | nil =>
        simp only [List.nil_append, List.cons.injEq] at haddress
        obtain ⟨rfl, rfl⟩ := haddress
        cases hat
        obtain rfl : child = c := Option.some.inj (hchild.symm.trans hfirst.child)
        exact .inl ⟨rfl, hrole, base, hfirst⟩
    | cons k above =>
        simp only [List.cons_append, List.cons.injEq] at haddress
        obtain ⟨rfl, rfl⟩ := haddress
        rw [Node.at?_cons_of_child hchild] at hat
        exact .inr ⟨above, j, w, c, base, rfl, hat, hrole, hfirst⟩
  · rintro (⟨rfl, hrole, base, hfirst⟩ | ⟨above, j, w, c, base, rfl, hat, hrole, hfirst⟩)
    · exact ⟨[], i, n, child, base, rfl, rfl, hrole, hfirst⟩
    · rw [← Node.at?_cons_of_child hchild] at hat
      exact ⟨i :: above, j, w, c, base, rfl, hat, hrole, hfirst⟩

end

/-! ## Every declaration once -/

section

variable {language : Language} {tree : Node} {levels : Nat}

/-- A declaration has one place among the candidates. -/
theorem IsCandidate.eq_of_declaration {c d : Candidate} (hc : IsCandidate language levels tree c)
    (hd : IsCandidate language levels tree d) (hsame : c.declaration = d.declaration) : c = d := by
  -- one node does not declare two kinds, and a node that is wrapped is no candidate by itself
  have hbase : ∀ {n m : Node} {a b : SymbolType}, n = m →
      language.role? n.kind = some (.declares a) → language.role? m.kind = some (.declares b) →
        a = b := by
    rintro n _ a b rfl ha hb
    simpa [ha] using hb
  cases hc with
  | own hat _ hrole hfree =>
      cases hd with
      | own hat' _ hrole' _ =>
          cases hsame
          rw [hbase (Option.some.inj (hat.symm.trans hat')) hrole hrole']
      | wrapped hat' _ hwraps hfirst =>
          exact absurd ⟨_, _, _, _, _, hsame, hat', hwraps, hfirst⟩ hfree
  | wrapped hat _ hwraps hfirst =>
      cases hd with
      | own hat' _ hrole' hfree =>
          exact absurd ⟨_, _, _, _, _, hsame.symm, hat, hwraps, hfirst⟩ hfree
      | wrapped hat' _ _ hfirst' =>
          obtain ⟨rfl, hindex⟩ := List.append_inj' hsame rfl
          cases hindex
          obtain rfl := Option.some.inj (hat.symm.trans hat')
          rw [hbase (Option.some.inj (hfirst.child.symm.trans hfirst'.child)) hfirst.declares
            hfirst'.declares]

/-- Every declaration of the upper levels has a place among the candidates. -/
theorem IsCandidate.exists_of_declares {address : Address} {n : Node} {base : SymbolType}
    (hat : tree.at? address = some n) (hdepth : address.length < levels)
    (hrole : language.role? n.kind = some (.declares base)) :
    ∃ c, IsCandidate language levels tree c ∧ c.declaration = address ∧ c.base = base := by
  by_cases hwrapped : IsWrapped language tree address
  · obtain ⟨above, i, w, c, other, rfl, habove, hwraps, hfirst⟩ := hwrapped
    rw [Node.at?_snoc, habove, Option.bind_some, hfirst.child] at hat
    cases hat
    obtain rfl : other = base := by simpa [hrole] using hfirst.declares.symm
    rw [List.length_append] at hdepth
    exact ⟨_, .wrapped habove (by omega) hwraps hfirst, rfl, rfl⟩
  · exact ⟨_, .own hat hdepth hrole hwrapped, rfl, rfl⟩

end

end FossilRecord.Source
