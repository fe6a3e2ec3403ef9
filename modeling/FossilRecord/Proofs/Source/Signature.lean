import FossilRecord.Proofs.Source.Candidates
import FossilRecord.Proofs.Source.Grammars

/-!
# Signatures

A signature shows the text of a declaration from its parameter list to the end of what it returns,
with blanks collapsed.  It does so in all languages and for all results but those that say about a
parameter what it is: these hold their own colon, and get an arrow in front of it.
-/

namespace FossilRecord.Source

open Text (bare IsCollapsed)

variable {language : Language} {src : Chars}

/-! ## The list that is shown -/

/-- The first of some nodes of which something holds. -/
structure IsFirst (P : Node → Prop) (xs : List Node) (x : Node) : Prop where
  holds : P x
  split : ∃ before after, xs = before ++ x :: after ∧ ∀ y ∈ before, ¬P y

theorem find?_eq_some_iff_isFirst {p : Node → Bool} {P : Node → Prop}
    (hp : ∀ x, p x = true ↔ P x) {xs : List Node} {x : Node} :
    xs.find? p = some x ↔ IsFirst P xs x := by
  have hnot : ∀ y, (!p y) = true ↔ ¬P y := fun y => by simp [← hp y]
  rw [List.find?_eq_some_iff_append, hp x]
  simp only [hnot]
  exact ⟨fun ⟨hholds, hsplit⟩ => ⟨hholds, hsplit⟩, fun ⟨hholds, hsplit⟩ => ⟨hholds, hsplit⟩⟩

/-- The parameter list that a signature of a node shows: the first one that starts after the name
of the node, or the first of all if none does. -/
inductive IsShown (language : Language) (n list : Node) : Prop
  | afterName {name : Node} (hname : n.childOfKind? language.nameKinds = some name)
      (hfirst : IsFirst (fun x => x.kind ∈ parameterKinds ∧ name.stop ≤ x.start) n.children list)
  | first (hnone : ∀ name, n.childOfKind? language.nameKinds = some name →
        ∀ x ∈ n.children, x.kind ∈ parameterKinds → ¬name.stop ≤ x.start)
      (hfirst : IsFirst (fun x => x.kind ∈ parameterKinds) n.children list)

/-- The list after the name, or else the first. -/
theorem parameterList?_eq (language : Language) (n : Node) :
    parameterList? language n =
      ((n.childOfKind? language.nameKinds).bind fun name => n.children.find? fun x =>
        parameterKinds.contains x.kind && decide (name.stop ≤ x.start)).or
      (n.children.find? fun x => parameterKinds.contains x.kind) := by
  unfold parameterList?
  dsimp only
  rw [Option.orElse_eq_or, List.head?_filter]
  cases n.childOfKind? language.nameKinds with
  | none => exact Option.or_self
  | some name =>
      dsimp only [Option.bind_some]
      rw [List.find?_filter]
      simp only [Bool.decide_and, Bool.decide_eq_true]

theorem parameterList?_eq_some {n list : Node} :
    parameterList? language n = some list ↔ IsShown language n list := by
  have hfirst : n.children.find? (fun x => parameterKinds.contains x.kind) = some list ↔
      IsFirst (fun x => x.kind ∈ parameterKinds) n.children list :=
    find?_eq_some_iff_isFirst (by simp)
  have hafter : ∀ name : Node, n.children.find? (fun x => parameterKinds.contains x.kind &&
      decide (name.stop ≤ x.start)) = some list ↔
      IsFirst (fun x => x.kind ∈ parameterKinds ∧ name.stop ≤ x.start) n.children list :=
    fun name => find?_eq_some_iff_isFirst (by simp)
  rw [parameterList?_eq, Option.or_eq_some_iff, Option.bind_eq_some_iff, Option.bind_eq_none_iff]
  simp only [hfirst, hafter]
  constructor
  · rintro (⟨name, hname, h⟩ | ⟨hnone, h⟩)
    · exact .afterName hname h
    · exact .first (fun name hname => by simpa using hnone name hname) h
  · rintro (⟨hname, h⟩ | ⟨hnone, h⟩)
    · exact .inl ⟨_, hname, h⟩
    · exact .inr ⟨fun name hname => by simpa using hnone name hname, h⟩

theorem parameterList?_eq_none {n : Node} :
    parameterList? language n = none ↔ ∀ x ∈ n.children, x.kind ∉ parameterKinds := by
  rw [parameterList?_eq, Option.or_eq_none_iff, Option.bind_eq_none_iff]
  simp only [List.find?_eq_none]
  constructor
  · rintro ⟨-, h⟩
    simpa using h
  · intro h
    exact ⟨fun _ _ => by simpa using fun x hx hlist => absurd hlist (h x hx), by simpa using h⟩

/-- The node that a signature is read from, and the parameter list that it shows: those of the
declaration itself or, if it has no such list, those of the function that it names. -/
inductive Shows (language : Language) (n : Node) : Node → Node → Prop
  | own {list : Node} (hlist : IsShown language n list) : Shows language n n list
  | value {value list : Node} (hnone : ∀ x ∈ n.children, x.kind ∉ parameterKinds)
      (hvalue : functionValue? n = some value) (hlist : IsShown language value list) :
      Shows language n value list

/-- There is a signature if and only if there is a list to show. -/
theorem signature?_eq_some {n : Node} {text : String} :
    signature? language src n = some text ↔
      ∃ m list, Shows language n m list ∧ signatureFrom src m list = text := by
  unfold signature?
  cases hown : parameterList? language n with
  | some list =>
      have hlist := parameterList?_eq_some.mp hown
      dsimp only
      rw [Option.some_inj]
      refine ⟨fun h => ⟨n, list, .own hlist, h⟩, ?_⟩
      rintro ⟨_, _, hshows, htext⟩
      cases hshows with
      | own hlist' =>
          obtain rfl := Option.some.inj (hown.symm.trans (parameterList?_eq_some.mpr hlist'))
          exact htext
      | value hnone =>
          rw [parameterList?_eq_none.mpr hnone] at hown
          cases hown
  | none =>
      have hnone := parameterList?_eq_none.mp hown
      simp only [Option.bind_eq_some_iff, Option.map_eq_some_iff]
      constructor
      · rintro ⟨value, hvalue, list, hlist, htext⟩
        exact ⟨value, list, .value hnone hvalue (parameterList?_eq_some.mp hlist), htext⟩
      · rintro ⟨m, list, hshows, htext⟩
        cases hshows with
        | own hlist =>
            rw [parameterList?_eq_some.mpr hlist] at hown
            cases hown
        | value _ hvalue hlist => exact ⟨m, hvalue, list, parameterList?_eq_some.mpr hlist, htext⟩

/-! ## The row that is read -/

section

variable {Q : List Node → Prop} {n m : Node}

theorem Node.RowsAre.row (h : n.RowsAre Q) : Q n.children := by
  obtain ⟨hown, -⟩ := h
  exact hown

theorem Node.RowsAre.child (h : n.RowsAre Q) (hm : m ∈ n.children) : m.RowsAre Q := by
  obtain ⟨-, hbelow⟩ := h
  exact hbelow m hm

theorem Node.RowsAre.descend {address : Address} (h : n.RowsAre Q) (hm : n.at? address = some m) :
    m.RowsAre Q := by
  induction address generalizing n with
  | nil =>
      cases hm
      exact h
  | cons i rest ih =>
      obtain ⟨c, hc, hrest⟩ := Node.at?_cons_eq_some.mp hm
      exact ih (h.child (List.mem_of_getElem? hc)) hrest

/-- The function that a declaration gives as a value stands two levels below it. -/
theorem exists_mem_of_functionValue? {value : Node} (h : functionValue? n = some value) :
    ∃ c ∈ n.children, value ∈ c.children := by
  unfold functionValue? at h
  split at h
  · rename_i found hfound
    obtain ⟨c, hc, hvalue⟩ := List.exists_of_findSome?_eq_some hfound
    split at h
    · cases h
      exact ⟨c, (List.mem_filter.mp hc).1, List.mem_of_find?_eq_some hvalue⟩
    · cases h
  · cases h

theorem Node.RowsAre.of_shows {list : Node} (h : n.RowsAre Q) (hshows : Shows language n m list) :
    Q m.children := by
  cases hshows with
  | own => exact h.row
  | value _ hvalue =>
      obtain ⟨c, hc, hm⟩ := exists_mem_of_functionValue? hvalue
      exact ((h.child hc).child hm).row

end

/-! ## What is shown -/

theorem slice_append (src : Chars) {i j k : Nat} (hij : i ≤ j) (hjk : j ≤ k) :
    slice src i j ++ slice src j k = slice src i k := by
  rw [slice, slice, slice, ← Array.toList_append, Array.extract_append_extract,
    Nat.min_eq_left hij, Nat.max_eq_right hjk]

theorem Shows.isShown {n m list : Node} (h : Shows language n m list) :
    IsShown language m list := by
  cases h with
  | own hlist => exact hlist
  | value _ _ hlist => exact hlist

/-- A signature without a result. -/
theorem bare_of_silent {m list : Node} (h : m.returned? = none) :
    bare (signatureFrom src m list).toList = bare (list.chars src) := by
  unfold Node.returned? at h
  rw [signatureFrom, h, String.toList_ofList, Text.bare_collapse, List.append_nil]

/-- A signature with a result. -/
theorem bare_of_returned {m list result : Node} (h : m.returned? = some result)
    (hfield : (m.childByField? "result").isSome = true ↔ result.field = "result") :
    bare (signatureFrom src m list).toList =
      bare (list.chars src) ++ separator result ++ bare (result.chars src) := by
  unfold Node.returned? at h
  rw [signatureFrom, h, String.toList_ofList, Text.bare_collapse, Text.bare_append,
    List.append_assoc]
  congr 1
  unfold separator
  by_cases hkind : result.kind = "type_annotation"
  · simp only [hkind, if_true, true_or, List.nil_append]
  · by_cases hresult : result.field = "result"
    · simp only [hkind, hresult, hfield.mpr hresult, if_true, if_false, or_true]
      rfl
    · simp only [hkind, hresult, mt hfield.mp hresult, if_false, or_false]
      rfl

/-- In all languages, a node of the tree of a text has a signature if and only if there is a
parameter list to show.  The signature has one space between any two words.  Blanks apart, it is the
list, if the node says nothing of what is returned; and if only blanks and at most one arrow stand
between the list and what it says, then it is the text from the start of the one to the end of the
other, unless what it says is what a parameter is. -/
theorem signature_as_written (language : Language) (src : Chars) {address : Address} {n : Node}
    (hat : (treeIn language src).at? address = some n) :
    ((signature? language src n).isSome = true ↔ ∃ m list, Shows language n m list) ∧
    ∀ m list, Shows language n m list → IsShown language m list ∧
      ∃ text, signature? language src n = some text ∧ IsCollapsed text.toList ∧
        (m.returned? = none → bare text.toList = bare (list.chars src)) ∧
        ∀ result, m.returned? = some result → IsGap (slice src list.stop result.start) →
          (bare text.toList = bare (slice src list.start result.stop) ↔
            result.kind ∉ predicateKinds) := by
  refine ⟨?_, fun m list hshows => ⟨hshows.isShown, _,
    signature?_eq_some.mpr ⟨m, list, hshows, rfl⟩, ?_, bare_of_silent,
    fun result hresult hgap => ?_⟩⟩
  · simp only [Option.isSome_iff_exists, signature?_eq_some]
    exact ⟨fun ⟨_, m, list, hshows, _⟩ => ⟨m, list, hshows⟩,
      fun ⟨m, list, hshows⟩ => ⟨_, m, list, hshows, rfl⟩⟩
  · rw [signatureFrom, String.toList_ofList]
    exact Text.isCollapsed_collapse _
  · have hsettled := ((rowsAre_treeIn language src).descend hat).of_shows hshows
    obtain ⟨hlist, hreturns, hfield⟩ :=
      hsettled m rfl list result (parameterList?_eq_some.mpr hshows.isShown) hresult
    have hwritten : bare (slice src list.start result.stop) = bare (list.chars src) ++
        bare (slice src list.stop result.start) ++ bare (result.chars src) := by
      rw [← slice_append src hlist (hreturns.le_start.trans hreturns.start_le),
        ← slice_append src hreturns.le_start hreturns.start_le, ← List.append_assoc]
      simp only [Text.bare_append, Node.chars]
    rw [bare_of_returned hresult hfield, hwritten, List.append_cancel_right_eq,
      List.append_cancel_left_eq, eq_comm]
    exact hreturns.between hgap

/-- A method: the list after its name is shown, not the receiver before it. -/
theorem signature_as_written_method :
    let src : Chars := "func (b Box) Get(i int) (int, error) { }".toList.toArray
    ∃ n list result, (treeIn .go src).at? [0] = some n ∧ Shows .go n n list ∧
      list.chars src = "(i int)".toList ∧ n.returned? = some result ∧ result.kind ∉ predicateKinds ∧
      ∃ text, signature? .go src n = some text ∧
        bare text.toList = bare (slice src list.start result.stop) := by
  intro src
  have hread : ((treeIn .go src).at? [0]).bind (fun n => (parameterList? .go n).bind fun list =>
      n.returned?.map fun result =>
        (list.chars src, slice src list.stop result.start, predicateKinds.contains result.kind)) =
      some ("(i int)".toList, [' '], false) := by decide +kernel
  simp only [Option.bind_eq_some_iff, Option.map_eq_some_iff, Prod.mk.injEq] at hread
  obtain ⟨n, hat, list, hlist, result, hresult, hchars, hgap, hkind⟩ := hread
  replace hkind : result.kind ∉ predicateKinds := by simpa using hkind
  have hshows : Shows .go n n list := .own (parameterList?_eq_some.mp hlist)
  obtain ⟨-, hall⟩ := signature_as_written .go src hat
  obtain ⟨-, text, htext, -, -, hreturned⟩ := hall n list hshows
  exact ⟨n, list, result, hat, hshows, hchars, hresult, hkind, text, htext,
    (hreturned result hresult (hgap ▸ .inl rfl)).mpr hkind⟩

/-- A function that says what its parameter is: there is nothing between the list and the result,
but the signature has an arrow before the colon. -/
theorem predicate_after_arrow :
    let src : Chars := "function isText(x: any): x is string { return true; }\n".toList.toArray
    ∃ n list result, (treeIn .typescript src).at? [0] = some n ∧ Shows .typescript n n list ∧
      n.returned? = some result ∧ slice src list.stop result.start = [] ∧
      slice src list.start result.stop = "(x: any): x is string".toList ∧
      signature? .typescript src n = some "(x: any) -> : x is string" ∧
      bare "(x: any) -> : x is string".toList ≠ bare (slice src list.start result.stop) := by
  intro src
  have hread : ((treeIn .typescript src).at? [0]).bind (fun n =>
      (parameterList? .typescript n).bind fun list => n.returned?.map fun result =>
        (slice src list.stop result.start, slice src list.start result.stop,
          signature? .typescript src n)) =
      some ([], "(x: any): x is string".toList, some "(x: any) -> : x is string") := by
    decide +kernel
  simp only [Option.bind_eq_some_iff, Option.map_eq_some_iff, Prod.mk.injEq] at hread
  obtain ⟨n, hat, list, hlist, result, hresult, hgap, hwritten, hsignature⟩ := hread
  refine ⟨n, list, result, hat, .own (parameterList?_eq_some.mp hlist), hresult, hgap, hwritten,
    hsignature, ?_⟩
  rw [hwritten]
  decide

end FossilRecord.Source
