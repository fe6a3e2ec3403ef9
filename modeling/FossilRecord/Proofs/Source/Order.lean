import FossilRecord.Proofs.Source.Reading
import FossilRecord.Source.Extract
import Mathlib.Data.Nat.Basic
import Mathlib.Order.Basic

/-!
# The order of the nodes of a tree

A walk that comes to every node before it comes to what is below it meets the nodes in the order of
the text: where they start never goes back.  This holds of whatever a grammar takes, as long as
skipping blanks does not go back either, and so of the trees of all languages.
-/

namespace FossilRecord.Source

/-! ## Nodes in the order of a walk -/

namespace Node

mutual

/-- Where a node and all below it start, each before those below it. -/
def starts : Node → List Nat
  | .mk _ _ start _ children => start :: startsOf children

/-- Where nodes in a row and all below them start. -/
def startsOf : List Node → List Nat
  | [] => []
  | n :: rest => n.starts ++ startsOf rest

end

theorem starts_eq (n : Node) : n.starts = n.start :: startsOf n.children := by
  cases n
  rw [starts]
  rfl

@[simp] theorem startsOf_nil : startsOf [] = [] := rfl

@[simp] theorem startsOf_cons (n : Node) (rest : List Node) :
    startsOf (n :: rest) = n.starts ++ startsOf rest := by
  rw [startsOf]

@[simp] theorem startsOf_append (xs ys : List Node) :
    startsOf (xs ++ ys) = startsOf xs ++ startsOf ys := by
  induction xs with
  | nil => rfl
  | cons x xs ih => simp [ih]

@[simp] theorem starts_withField (name : String) (n : Node) :
    (n.withField name).starts = n.starts := by
  cases n
  rw [withField, starts, starts]

@[simp] theorem startsOf_withField (name : String) (xs : List Node) :
    startsOf (xs.map (·.withField name)) = startsOf xs := by
  induction xs with
  | nil => rfl
  | cons x xs ih => simp [ih]

theorem starts_extend (i : Nat) (left : List Node) (n : Node) :
    (n.extend i left).starts = i :: (startsOf left ++ startsOf n.children) := by
  cases n
  rw [extend, starts, startsOf_append]
  rfl

/-- Whether a walk down from a node never goes back in the text. -/
def IsOrdered (n : Node) : Prop :=
  n.starts.Pairwise (· ≤ ·)

instance (n : Node) : Decidable n.IsOrdered :=
  inferInstanceAs (Decidable (n.starts.Pairwise (· ≤ ·)))

end Node

open Node (startsOf)

/-! ## What a rule takes stands in order -/

/-- Whether nodes stand in order between two indices, the first of all not before another one. -/
structure Spans (lo first hi : Nat) (xs : List Node) : Prop where
  lo_le : lo ≤ first
  le_hi : first ≤ hi
  sorted : (startsOf xs).Pairwise (· ≤ ·)
  first_le : ∀ s ∈ startsOf xs, first ≤ s
  starts_le : ∀ s ∈ startsOf xs, s ≤ hi

namespace Spans

variable {lo first mid next hi : Nat} {xs ys : List Node}

theorem nil (h : lo ≤ hi) : Spans lo lo hi [] :=
  ⟨le_refl lo, h, .nil, by simp, by simp⟩

theorem append (hxs : Spans lo first mid xs) (hys : Spans mid next hi ys) :
    Spans lo first hi (xs ++ ys) where
  lo_le := hxs.lo_le
  le_hi := hxs.le_hi.trans (hys.lo_le.trans hys.le_hi)
  sorted := by
    rw [Node.startsOf_append, List.pairwise_append]
    exact ⟨hxs.sorted, hys.sorted, fun s hs t ht =>
      (hxs.starts_le s hs).trans (hys.lo_le.trans (hys.first_le t ht))⟩
  first_le s hs := by
    rw [Node.startsOf_append, List.mem_append] at hs
    rcases hs with hs | hs
    · exact hxs.first_le s hs
    · exact hxs.le_hi.trans (hys.lo_le.trans (hys.first_le s hs))
  starts_le s hs := by
    rw [Node.startsOf_append, List.mem_append] at hs
    rcases hs with hs | hs
    · exact (hxs.starts_le s hs).trans (hys.lo_le.trans hys.le_hi)
    · exact hys.starts_le s hs

/-- A node that starts with the first of its children. -/
theorem node (h : Spans lo first hi xs) (kind : String) :
    Spans lo first hi [.mk kind "" first hi xs] where
  lo_le := h.lo_le
  le_hi := h.le_hi
  sorted := by
    rw [Node.startsOf_cons, Node.startsOf_nil, List.append_nil, Node.starts]
    exact List.pairwise_cons.mpr ⟨h.first_le, h.sorted⟩
  first_le := by simpa [Node.starts] using h.first_le
  starts_le := by simpa [Node.starts] using ⟨h.le_hi, h.starts_le⟩

/-- Steps that what was before them becomes the front of, one after the other. -/
theorem nest (h : Spans lo first hi (xs ++ ys)) : Spans lo first hi (Rule.nest first xs ys) := by
  induction ys generalizing xs with
  | nil => simpa [Rule.nest] using h
  | cons y ys ih =>
      rw [Rule.nest]
      apply ih
      have hstarts : startsOf (xs ++ y :: ys) =
          startsOf xs ++ y.start :: (startsOf y.children ++ startsOf ys) := by
        simp [Node.starts_eq]
      have hextended : startsOf ([y.extend first xs] ++ ys) =
          first :: (startsOf xs ++ (startsOf y.children ++ startsOf ys)) := by
        simp [Node.starts_extend]
      -- the start of the step is taken away, and the first of all put in front
      have hfewer : (startsOf xs ++ (startsOf y.children ++ startsOf ys)).Sublist
          (startsOf (xs ++ y :: ys)) := by
        rw [hstarts]
        exact (List.sublist_cons_self _ _).append_left _
      constructor
      · exact h.lo_le
      · exact h.le_hi
      · rw [hextended, List.pairwise_cons]
        exact ⟨fun s hs => h.first_le s (hfewer.subset hs), h.sorted.sublist hfewer⟩
      · intro s hs
        rw [hextended, List.mem_cons] at hs
        rcases hs with rfl | hs
        · exact le_refl s
        · exact h.first_le s (hfewer.subset hs)
      · intro s hs
        rw [hextended, List.mem_cons] at hs
        rcases hs with rfl | hs
        · exact h.le_hi
        · exact h.starts_le s (hfewer.subset hs)

end Spans

variable {N σ : Type} {g : Grammar N σ} {src : Chars}

/-- Whether nodes stand in order between two places, and where what was taken starts, if anything
was. -/
structure Advances (here : Place σ) (first? : Option Nat) (xs : List Node) (there : Place σ) :
    Prop where
  marked : there.first? = here.first?.or first?
  spans : Spans here.next (first?.getD here.next) there.next xs
  still : first? = none → there.next = here.next ∧ xs = []

namespace Advances

variable {here there beyond : Place σ} {first? second? : Option Nat} {xs ys : List Node}

theorem nothing (here : Place σ) (context : σ) :
    Advances here none [] { here with context := context } where
  marked := by simp
  spans := .nil (le_refl here.next)
  still _ := ⟨rfl, rfl⟩

theorem append (hxs : Advances here first? xs there) (hys : Advances there second? ys beyond) :
    Advances here (first?.or second?) (xs ++ ys) beyond where
  marked := by rw [hys.marked, hxs.marked, Option.or_assoc]
  spans := by
    cases first? with
    | some first => exact hxs.spans.append hys.spans
    | none =>
        obtain ⟨hnext, rfl⟩ := hxs.still rfl
        simpa [hnext] using hys.spans
  still hnone := by
    obtain ⟨rfl, rfl⟩ := Option.or_eq_none_iff.mp hnone
    obtain ⟨hnext, rfl⟩ := hxs.still rfl
    obtain ⟨hnext', rfl⟩ := hys.still rfl
    exact ⟨hnext'.trans hnext, rfl⟩

/-- A node starts where the first of what was taken for it does. -/
theorem startSince_eq (h : Advances here.opened first? xs there) :
    there.startSince here = first?.getD here.next := by
  rw [Place.startSince, h.marked]
  rfl

theorem closed (h : Spans here.next (there.startSince here) there.next xs) :
    Advances here (some (there.startSince here)) xs (there.closed here) :=
  ⟨rfl, h, nofun⟩

end Advances

/-- Whether skipping blanks never goes back. -/
def Grammar.SkipsAhead (g : Grammar N σ) (src : Chars) : Prop :=
  ∀ context i, i ≤ g.skipBlanks src context i

theorem Rule.le_tokenStart (hskip : g.SkipsAhead src) (spaced : Bool) (here : Place σ) :
    here.next ≤ tokenStart g src spaced here := by
  unfold tokenStart
  split
  · exact hskip _ _
  · exact le_refl _

/-- Whatever a rule takes stands in order. -/
theorem Takes.advances (hskip : g.SkipsAhead src) {r : Rule N σ} {here there : Place σ}
    {xs : List Node} (h : Takes g src r here xs there) :
    ∃ first?, Advances here first? xs there := by
  induction h with
  | empty => exact ⟨none, .nothing _ _⟩
  | @token here spaced _ _ _ _ hlt =>
      have hstart := Rule.le_tokenStart hskip spaced here
      exact ⟨some _, rfl, ⟨hstart, hlt.le, .nil, by simp, by simp⟩, nofun⟩
  | mark => exact ⟨none, .nothing _ _⟩
  | seq _ _ ihfirst ihsecond =>
      obtain ⟨_, hfirst⟩ := ihfirst
      obtain ⟨_, hsecond⟩ := ihsecond
      exact ⟨_, hfirst.append hsecond⟩
  | altFirst _ ih => exact ih
  | altSecond _ ih => exact ih
  | manyEnd => exact ⟨none, .nothing _ _⟩
  | manyMore _ _ ihitem ihmore =>
      obtain ⟨_, hitem⟩ := ihitem
      obtain ⟨_, hmore⟩ := ihmore
      exact ⟨_, hitem.append hmore⟩
  | phrase _ ih => exact ih
  | node _ ih =>
      obtain ⟨_, hbody⟩ := ih
      exact ⟨_, .closed ((hbody.startSince_eq ▸ hbody.spans).node _)⟩
  | field _ ih =>
      obtain ⟨first?, hmarked, ⟨hlo, hhi, hsorted, hfirst, hstarts⟩, hstill⟩ := ih
      refine ⟨first?, hmarked, ?_, fun hnone => ?_⟩
      · exact ⟨hlo, hhi, by simpa using hsorted, by simpa using hfirst, by simpa using hstarts⟩
      · obtain ⟨hnext, rfl⟩ := hstill hnone
        exact ⟨hnext, rfl⟩
  | fold _ _ ihbase ihsteps =>
      obtain ⟨_, hbase⟩ := ihbase
      obtain ⟨_, hsteps⟩ := ihsteps
      have hspans := (hbase.startSince_eq ▸ hbase.spans).append hsteps.spans
      refine ⟨some _, ?_, hspans.nest, nofun⟩
      rw [hsteps.marked, Place.closed, Option.or_assoc]
      rfl
  | ahead => exact ⟨none, .nothing _ _⟩
  | within _ ih =>
      obtain ⟨first?, hmarked, hspans, hstill⟩ := ih
      exact ⟨first?, hmarked, hspans, hstill⟩

/-- What is taken for a node starts between the places before and after. -/
theorem Takes.startSince_between (hskip : g.SkipsAhead src) {r : Rule N σ} {here there : Place σ}
    {xs : List Node} (h : Takes g src r here.opened xs there) :
    here.next ≤ there.startSince here ∧ there.startSince here ≤ there.next := by
  obtain ⟨_, hadvances⟩ := h.advances hskip
  rw [hadvances.startSince_eq]
  exact ⟨hadvances.spans.lo_le, hadvances.spans.le_hi⟩

/-- The tree of a text is in order. -/
theorem isOrdered_treeOf (hskip : g.SkipsAhead src) (context : σ) (root : String)
    (body : Rule N σ) : (treeOf g context root body src).IsOrdered := by
  have hroot : (treeOf g context root body src).start = 0 := by
    unfold treeOf
    split <;> rfl
  rw [Node.IsOrdered, Node.starts_eq, hroot, List.pairwise_cons]
  refine ⟨fun s _ => s.zero_le, ?_⟩
  rcases children_treeOf context root body src (g := g) with hnone | ⟨_, htakes⟩
  · rw [hnone]
    exact .nil
  · obtain ⟨_, hadvances⟩ := htakes.advances hskip
    exact hadvances.spans.sorted

/-! ## Blanks -/

namespace Lexeme

theorem le_runEnd (src : Chars) (test : Char → Bool) (fuel i : Nat) :
    i ≤ runEnd src test fuel i := by
  fun_induction runEnd src test fuel i <;> omega

theorem le_lineEnd (src : Chars) (i : Nat) : i ≤ lineEnd src i :=
  le_runEnd src _ _ i

theorem le_of_find {word : String} {i j : Nat} (h : find src word i = some j) : i ≤ j := by
  unfold find at h
  revert h
  fun_induction findFrom src word.toList (src.size + 1 - i) i <;> grind

end Lexeme

theorem Rust.le_of_commentEnd {fuel open_ i j : Nat}
    (h : Rust.commentEnd src fuel open_ i = some j) : i ≤ j := by
  revert h
  fun_induction Rust.commentEnd src fuel open_ i <;> grind

theorem Rust.le_blanksEnd (src : Chars) (fuel i : Nat) : i ≤ Rust.blanksEnd src fuel i := by
  fun_induction Rust.blanksEnd src fuel i <;> grind [Lexeme.le_lineEnd, → Rust.le_of_commentEnd]

theorem Script.le_blanksEnd (src : Chars) (fuel i : Nat) : i ≤ Script.blanksEnd src fuel i := by
  fun_induction Script.blanksEnd src fuel i <;> grind [Lexeme.le_lineEnd, → Lexeme.le_of_find]

theorem Go.le_blanksEnd (src : Chars) (lines : Bool) (fuel i : Nat) :
    i ≤ Go.blanksEnd src lines fuel i := by
  fun_induction Go.blanksEnd src lines fuel i <;> grind [Lexeme.le_lineEnd, → Lexeme.le_of_find]

theorem Python.le_blanksEnd (src : Chars) (bracketed : Bool) (fuel i : Nat) :
    i ≤ Python.blanksEnd src bracketed fuel i := by
  fun_induction Python.blanksEnd src bracketed fuel i <;> grind [Lexeme.le_lineEnd]

theorem Bash.le_blanksEnd (src : Chars) (fuel i : Nat) : i ≤ Bash.blanksEnd src fuel i := by
  fun_induction Bash.blanksEnd src fuel i <;> grind [Lexeme.le_lineEnd]

theorem Rust.skipsAhead (src : Chars) : Rust.grammar.SkipsAhead src :=
  fun _ _ => Rust.le_blanksEnd _ _ _

theorem Script.skipsAhead (f : Script.Flavour) (src : Chars) : f.grammar.SkipsAhead src :=
  fun _ _ => Script.le_blanksEnd _ _ _

theorem Go.skipsAhead (src : Chars) : Go.grammar.SkipsAhead src :=
  fun _ _ => Go.le_blanksEnd _ _ _ _

theorem Python.skipsAhead (src : Chars) : Python.grammar.SkipsAhead src :=
  fun _ _ => Python.le_blanksEnd _ _ _ _

theorem Bash.skipsAhead (src : Chars) : Bash.grammar.SkipsAhead src :=
  fun _ _ => Bash.le_blanksEnd _ _ _

/-- The tree of a text in any language is in order. -/
theorem isOrdered_treeIn (language : Language) (src : Chars) :
    (treeIn language src).IsOrdered := by
  cases language with
  | typescript => exact isOrdered_treeOf (Script.skipsAhead _ src) _ _ _
  | tsx => exact isOrdered_treeOf (Script.skipsAhead _ src) _ _ _
  | javascript => exact isOrdered_treeOf (Script.skipsAhead _ src) _ _ _
  | python => exact isOrdered_treeOf (Python.skipsAhead src) _ _ _
  | bash => exact isOrdered_treeOf (Bash.skipsAhead src) _ _ _
  | rust => exact isOrdered_treeOf (Rust.skipsAhead src) _ _ _
  | go => exact isOrdered_treeOf (Go.skipsAhead src) _ _ _

end FossilRecord.Source
