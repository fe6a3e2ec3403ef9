import FossilRecord.Proofs.Source.Order
import FossilRecord.Proofs.Text.Words

/-!
# Rows of children

What a signature shows is decided by the children of one node: which of them are lists of
parameters, and which says what is returned.  Almost all rows of children hold neither, and that can
be read off the rules: `Rule.quiet` asks it of what a rule takes, `Rule.plain` of every node that
it makes.  `Takes.rowsAre` then brings any property of rows from the rules of a grammar to all nodes
of a tree, so that only the rules that are not plain have to be looked at.
-/

namespace FossilRecord.Source

/-! ## Quiet nodes -/

/-- The fields for what a declaration returns. -/
def resultFields : List String := ["return_type", "result"]

/-- Whether a node is no list of parameters and does not say what a declaration returns. -/
structure Node.IsQuiet (n : Node) : Prop where
  kind : n.kind ∉ parameterKinds
  field : n.field ∉ resultFields

@[simp] theorem Node.kind_extend (i : Nat) (left : List Node) (n : Node) :
    (n.extend i left).kind = n.kind := by
  cases n
  rfl

@[simp] theorem Node.field_extend (i : Nat) (left : List Node) (n : Node) :
    (n.extend i left).field = n.field := by
  cases n
  rfl

@[simp] theorem Node.children_extend (i : Nat) (left : List Node) (n : Node) :
    (n.extend i left).children = left ++ n.children := by
  cases n
  rfl

@[simp] theorem Node.kind_withField (name : String) (n : Node) :
    (n.withField name).kind = n.kind := by
  cases n
  rfl

@[simp] theorem Node.field_withField (name : String) (n : Node) :
    (n.withField name).field = name := by
  cases n
  rfl

@[simp] theorem Node.children_withField (name : String) (n : Node) :
    (n.withField name).children = n.children := by
  cases n
  rfl

theorem Node.IsQuiet.extend {n : Node} (h : n.IsQuiet) (i : Nat) (left : List Node) :
    (n.extend i left).IsQuiet :=
  ⟨by simpa using h.kind, by simpa using h.field⟩

variable {N σ : Type}

namespace Rule

/-- Whether all nodes that a rule takes are quiet, if those of some phrases are. -/
def quiet (phrases : N → Bool) : Rule N σ → Bool
  | .empty => true
  | .token _ _ => true
  | .seq first second => first.quiet phrases && second.quiet phrases
  | .alt first second => first.quiet phrases && second.quiet phrases
  | .many item => item.quiet phrases
  | .phrase name => phrases name
  | .node kind _ => !parameterKinds.contains kind
  | .field name body => !resultFields.contains name && body.quiet phrases
  | .fold base step => base.quiet phrases && step.quiet phrases
  | .ahead _ _ => true
  | .within _ _ body => body.quiet phrases

/-- Whether all that stands directly below the nodes that a rule takes is quiet. -/
def quietBelow (phrases : N → Bool) : Rule N σ → Bool
  | .empty => true
  | .token _ _ => true
  | .seq first second => first.quietBelow phrases && second.quietBelow phrases
  | .alt first second => first.quietBelow phrases && second.quietBelow phrases
  | .many item => item.quietBelow phrases
  | .phrase _ => false
  | .node _ body => body.quiet phrases
  | .field _ body => body.quietBelow phrases
  | .fold _ _ => false
  | .ahead _ _ => true
  | .within _ _ body => body.quietBelow phrases

/-- Whether all that stands directly below any node that a rule makes is quiet. -/
def plain (phrases : N → Bool) : Rule N σ → Bool
  | .empty => true
  | .token _ _ => true
  | .seq first second => first.plain phrases && second.plain phrases
  | .alt first second => first.plain phrases && second.plain phrases
  | .many item => item.plain phrases
  | .phrase _ => true
  | .node _ body => body.quiet phrases && body.plain phrases
  | .field _ body => body.plain phrases
  | .fold base step =>
      base.plain phrases && step.plain phrases && base.quiet phrases && step.quiet phrases &&
        step.quietBelow phrases
  | .ahead _ _ => true
  | .within _ _ body => body.plain phrases

end Rule

/-- Whether those phrases are quiet whose nodes are said to be. -/
def Grammar.IsQuiet (g : Grammar N σ) (phrases : N → Bool) : Prop :=
  ∀ name, phrases name = true → (g.rule name).quiet phrases = true

/-- What becomes of the steps of a fold: the base, if there are none, or one of them with more in
front of it. -/
theorem mem_nest {start : Nat} {xs ys : List Node} {x : Node} (hx : x ∈ Rule.nest start xs ys) :
    x ∈ xs ∨ ∃ y ∈ ys, ∃ left, x = y.extend start left := by
  induction ys generalizing xs with
  | nil => exact .inl hx
  | cons y ys ih =>
      rcases ih hx with hlast | ⟨z, hz, left, rfl⟩
      · exact .inr ⟨y, List.mem_cons_self, xs, List.mem_singleton.mp hlast⟩
      · exact .inr ⟨z, List.mem_cons_of_mem y hz, left, rfl⟩

section

variable {g : Grammar N σ} {src : Chars} {phrases : N → Bool}

/-- Rules that are quiet take quiet nodes. -/
theorem Takes.isQuiet (hg : g.IsQuiet phrases) {r : Rule N σ} {here there : Place σ}
    {xs : List Node} (h : Takes g src r here xs there) (hr : r.quiet phrases = true) :
    ∀ x ∈ xs, x.IsQuiet := by
  induction h with
  | empty => simp
  | token => simp
  | mark => simp
  | seq _ _ ihfirst ihsecond =>
      obtain ⟨hfirst, hsecond⟩ := Bool.and_eq_true_iff.mp hr
      intro x hx
      exact (List.mem_append.mp hx).elim (ihfirst hfirst x) (ihsecond hsecond x)
  | altFirst _ ih => exact ih (Bool.and_eq_true_iff.mp hr).1
  | altSecond _ ih => exact ih (Bool.and_eq_true_iff.mp hr).2
  | manyEnd => simp
  | manyMore _ _ ihitem ihmore =>
      intro x hx
      exact (List.mem_append.mp hx).elim (ihitem hr x) (ihmore hr x)
  | phrase _ ih => exact ih (hg _ hr)
  | node =>
      intro x hx
      rw [List.mem_singleton.mp hx]
      exact ⟨by simpa [Rule.quiet, Node.kind] using hr, (by decide : "" ∉ resultFields)⟩
  | field _ ih =>
      obtain ⟨hname, hbody⟩ := Bool.and_eq_true_iff.mp hr
      intro x hx
      obtain ⟨y, hy, rfl⟩ := List.mem_map.mp hx
      exact ⟨by simpa using (ih hbody y hy).kind, by simpa using hname⟩
  | fold _ _ ihbase ihsteps =>
      obtain ⟨hbase, hsteps⟩ := Bool.and_eq_true_iff.mp hr
      intro x hx
      rcases mem_nest hx with hx | ⟨y, hy, left, rfl⟩
      · exact ihbase hbase x hx
      · exact (ihsteps hsteps y hy).extend _ left
  | ahead => simp
  | within _ ih => exact ih hr

theorem Takes.isQuiet_below (hg : g.IsQuiet phrases) {r : Rule N σ} {here there : Place σ}
    {xs : List Node} (h : Takes g src r here xs there) (hr : r.quietBelow phrases = true) :
    ∀ x ∈ xs, ∀ c ∈ x.children, c.IsQuiet := by
  induction h with
  | empty => simp
  | token => simp
  | mark => simp
  | seq _ _ ihfirst ihsecond =>
      obtain ⟨hfirst, hsecond⟩ := Bool.and_eq_true_iff.mp hr
      intro x hx
      exact (List.mem_append.mp hx).elim (ihfirst hfirst x) (ihsecond hsecond x)
  | altFirst _ ih => exact ih (Bool.and_eq_true_iff.mp hr).1
  | altSecond _ ih => exact ih (Bool.and_eq_true_iff.mp hr).2
  | manyEnd => simp
  | manyMore _ _ ihitem ihmore =>
      intro x hx
      exact (List.mem_append.mp hx).elim (ihitem hr x) (ihmore hr x)
  | phrase => cases hr
  | node hbody =>
      intro x hx
      rw [List.mem_singleton.mp hx]
      exact hbody.isQuiet hg hr
  | field _ ih =>
      intro x hx
      obtain ⟨y, hy, rfl⟩ := List.mem_map.mp hx
      simpa using ih hr y hy
  | fold => cases hr
  | ahead => simp
  | within _ ih => exact ih hr

end

/-! ## What holds of every row of children -/

/-- Whether the children of a node, those of its children, and so on, are as they should be. -/
inductive Node.RowsAre (Q : List Node → Prop) : Node → Prop
  | mk {n : Node} (own : Q n.children) (below : ∀ c ∈ n.children, c.RowsAre Q) : n.RowsAre Q

/-- Whether all rows that the nodes of a rule have as their children are as they should be, where
quiet nodes always are. -/
def Rule.Makes (g : Grammar N σ) (src : Chars) (phrases : N → Bool) (Q : List Node → Prop) :
    Rule N σ → Prop
  | .empty => True
  | .token _ _ => True
  | .seq first second => first.Makes g src phrases Q ∧ second.Makes g src phrases Q
  | .alt first second => first.Makes g src phrases Q ∧ second.Makes g src phrases Q
  | .many item => item.Makes g src phrases Q
  | .phrase _ => True
  | .node _ body =>
      (∀ here xs there, Takes g src body here xs there → Q xs) ∧ body.Makes g src phrases Q
  | .field _ body => body.Makes g src phrases Q
  | .fold base step =>
      base.Makes g src phrases Q ∧ step.Makes g src phrases Q ∧
        base.quiet phrases = true ∧ step.quiet phrases = true ∧ step.quietBelow phrases = true
  | .ahead _ _ => True
  | .within _ _ body => body.Makes g src phrases Q

section

variable {g : Grammar N σ} {src : Chars} {phrases : N → Bool} {Q : List Node → Prop}

theorem Node.RowsAre.withField {n : Node} (h : n.RowsAre Q) (name : String) :
    (n.withField name).RowsAre Q := by
  obtain ⟨own, below⟩ := h
  exact ⟨by simpa using own, by simpa using below⟩

/-- Steps with quiet nodes in front of quiet children. -/
theorem rowsAre_nest (hquiet : ∀ xs, (∀ x ∈ xs, x.IsQuiet) → Q xs) {start : Nat}
    {xs ys : List Node} (hxs : ∀ x ∈ xs, x.IsQuiet ∧ x.RowsAre Q)
    (hys : ∀ y ∈ ys, y.IsQuiet ∧ y.RowsAre Q ∧ ∀ c ∈ y.children, c.IsQuiet) :
    ∀ x ∈ Rule.nest start xs ys, x.RowsAre Q := by
  induction ys generalizing xs with
  | nil => exact fun x hx => (hxs x hx).2
  | cons y ys ih =>
      obtain ⟨⟨hy, ⟨hown, hbelow⟩, hchildren⟩, hrest⟩ := List.forall_mem_cons.mp hys
      apply ih _ hrest
      intro x hx
      rw [List.mem_singleton.mp hx]
      refine ⟨hy.extend start xs, ?_, ?_⟩
      · rw [Node.children_extend]
        exact hquiet _ (List.forall_mem_append.mpr ⟨fun x hx => (hxs x hx).1, hchildren⟩)
      · rw [Node.children_extend]
        exact List.forall_mem_append.mpr ⟨fun x hx => (hxs x hx).2, hbelow⟩

/-- If all rules of a grammar make rows as they should be, then all that is taken has such rows. -/
theorem Takes.rowsAre (hg : g.IsQuiet phrases)
    (hquiet : ∀ xs, (∀ x ∈ xs, x.IsQuiet) → Q xs)
    (hrules : ∀ name, (g.rule name).Makes g src phrases Q) {r : Rule N σ} {here there : Place σ}
    {xs : List Node} (h : Takes g src r here xs there) (hr : r.Makes g src phrases Q) :
    ∀ x ∈ xs, x.RowsAre Q := by
  induction h with
  | empty => simp
  | token => simp
  | mark => simp
  | seq _ _ ihfirst ihsecond =>
      intro x hx
      exact (List.mem_append.mp hx).elim (ihfirst hr.1 x) (ihsecond hr.2 x)
  | altFirst _ ih => exact ih hr.1
  | altSecond _ ih => exact ih hr.2
  | manyEnd => simp
  | manyMore _ _ ihitem ihmore =>
      intro x hx
      exact (List.mem_append.mp hx).elim (ihitem hr x) (ihmore hr x)
  | phrase _ ih => exact ih (hrules _)
  | node hbody ih =>
      intro x hx
      rw [List.mem_singleton.mp hx]
      exact ⟨hr.1 _ _ _ hbody, ih hr.2⟩
  | field _ ih =>
      intro x hx
      obtain ⟨y, hy, rfl⟩ := List.mem_map.mp hx
      exact (ih hr y hy).withField _
  | fold hbase hsteps ihbase ihsteps =>
      obtain ⟨hrbase, hrstep, hqbase, hqstep, hbelow⟩ := hr
      have hxs := hbase.isQuiet hg hqbase
      have hys := hsteps.isQuiet hg hqstep
      have hcs := hsteps.isQuiet_below hg hbelow
      exact rowsAre_nest hquiet (fun x hx => ⟨hxs x hx, ihbase hrbase x hx⟩)
        fun y hy => ⟨hys y hy, ihsteps hrstep y hy, hcs y hy⟩
  | ahead => simp
  | within _ ih => exact ih hr

/-- Plain rules have quiet rows only. -/
theorem Rule.makes_of_plain (hg : g.IsQuiet phrases)
    (hquiet : ∀ xs, (∀ x ∈ xs, x.IsQuiet) → Q xs) {r : Rule N σ} (h : r.plain phrases = true) :
    r.Makes g src phrases Q := by
  induction r with
  | empty => trivial
  | token => trivial
  | seq _ _ ihfirst ihsecond =>
      obtain ⟨hfirst, hsecond⟩ := Bool.and_eq_true_iff.mp h
      exact ⟨ihfirst hfirst, ihsecond hsecond⟩
  | alt _ _ ihfirst ihsecond =>
      obtain ⟨hfirst, hsecond⟩ := Bool.and_eq_true_iff.mp h
      exact ⟨ihfirst hfirst, ihsecond hsecond⟩
  | many _ ih => exact ih h
  | phrase => trivial
  | node kind body ih =>
      obtain ⟨hrow, hbody⟩ := Bool.and_eq_true_iff.mp h
      exact ⟨fun _ _ _ htakes => hquiet _ (htakes.isQuiet hg hrow), ih hbody⟩
  | field _ _ ih => exact ih h
  | fold base step ihbase ihstep =>
      simp only [Rule.plain, Bool.and_eq_true] at h
      obtain ⟨⟨⟨⟨hbase, hstep⟩, hqbase⟩, hqstep⟩, hbelow⟩ := h
      exact ⟨ihbase hbase, ihstep hstep, hqbase, hqstep, hbelow⟩
  | ahead => trivial
  | within _ _ _ ih => exact ih h

/-- Alternatives of which all do. -/
theorem Rule.makes_any {rs : List (Rule N σ)} (h : ∀ r ∈ rs, r.Makes g src phrases Q) :
    (Rule.any rs).Makes g src phrases Q := by
  induction rs with
  | nil => trivial
  | cons r rs ih =>
      obtain ⟨hr, hrs⟩ := List.forall_mem_cons.mp h
      cases rs with
      | nil => exact hr
      | cons => exact ⟨hr, ih hrs⟩

theorem Rule.makes_all {rs : List (Rule N σ)} (h : ∀ r ∈ rs, r.Makes g src phrases Q) :
    (Rule.all rs).Makes g src phrases Q := by
  induction rs with
  | nil => trivial
  | cons r rs ih =>
      obtain ⟨hr, hrs⟩ := List.forall_mem_cons.mp h
      cases rs with
      | nil => exact hr
      | cons => exact ⟨hr, ih hrs⟩

theorem Rule.makes_list {separator item : Rule N σ} (hseparator : separator.Makes g src phrases Q)
    (hitem : item.Makes g src phrases Q) : (Rule.list separator item).Makes g src phrases Q :=
  ⟨⟨hitem, ⟨hseparator, hitem⟩, hseparator, trivial⟩, trivial⟩

/-- The tree of a text has rows as they should be, if the rules make such rows. -/
theorem rowsAre_treeOf (hg : g.IsQuiet phrases) (hquiet : ∀ xs, (∀ x ∈ xs, x.IsQuiet) → Q xs)
    (hrules : ∀ name, (g.rule name).Makes g src phrases Q) {body : Rule N σ}
    (hbody : body.Makes g src phrases Q) (hroot : body.quiet phrases = true) (context : σ)
    (root : String) : (treeOf g context root body src).RowsAre Q := by
  rcases children_treeOf context root body src (g := g) with hnone | ⟨there, htakes⟩
  · refine ⟨?_, ?_⟩
    · rw [hnone]
      exact hquiet [] (by simp)
    · rw [hnone]
      simp
  · exact ⟨hquiet _ (htakes.isQuiet hg hroot), htakes.rowsAre hg hquiet hrules hbody⟩

end

end FossilRecord.Source
