import FossilRecord.Proofs.Source.Rows

/-!
# What stands between a parameter list and a result

A signature puts a separator of its own between a parameter list and what the declaration returns.
Where nothing but blanks and perhaps an arrow stands between the two in the text, the separator is
what stands there, with one exception: a script may say about a parameter what it is, and the kinds
of nodes for that are not among those that hold their own sign.
-/

namespace FossilRecord.Source

/-! ## Results -/

/-- The kinds of nodes that say about a parameter what it is: assertions and type predicates. -/
def predicateKinds : List String := ["asserts_annotation", "type_predicate_annotation"]

/-- What a signature puts between a parameter list and a result, blanks aside. -/
def separator (result : Node) : List Char :=
  if result.kind = "type_annotation" ∨ result.field = "result" then [] else ['-', '>']

/-- Whether a text holds only blanks, and perhaps one arrow. -/
def IsGap (cs : List Char) : Prop :=
  Text.bare cs = [] ∨ Text.bare cs = ['-', '>']

/-- Whether a node after an index says what a declaration returns, and what stands between is what
a signature puts there unless the node says what a parameter is. -/
structure Returns (src : Chars) (i : Nat) (result : Node) : Prop where
  field : result.field ∈ resultFields
  le_start : i ≤ result.start
  start_le : result.start ≤ result.stop
  between : IsGap (slice src i result.start) →
    (Text.bare (slice src i result.start) = separator result ↔ result.kind ∉ predicateKinds)

theorem mem_slice {src : Chars} {i j : Nat} {c : Char} :
    c ∈ slice src i j ↔ ∃ k, i ≤ k ∧ k < j ∧ src[k]? = some c := by
  rw [slice, Array.mem_toList_iff, Array.mem_iff_getElem?]
  constructor
  · rintro ⟨k, hk⟩
    rw [Array.getElem?_extract] at hk
    split at hk
    · exact ⟨i + k, by omega, by omega, hk⟩
    · cases hk
  · rintro ⟨k, hik, hkj, hk⟩
    refine ⟨k - i, ?_⟩
    have hsize : k < src.size := by
      by_contra hlarge
      rw [Array.getElem?_eq_none (by omega)] at hk
      cases hk
    rw [Array.getElem?_extract, if_pos (by omega), Nat.add_sub_cancel' hik, hk]

variable {N σ : Type} {g : Grammar N σ} {src : Chars}

/-! ## Results after an arrow -/

theorem Lexeme.of_exact {word : String} {context context' : σ} {i stop : Nat}
    (h : Lexeme.exact word src context i = some (stop, context')) :
    Lexeme.matchesAt src i word.toList = true ∧ stop = i + word.toList.length := by
  unfold Lexeme.exact at h
  dsimp only at h
  split at h
  · rename_i hmatches
    cases h
    exact ⟨hmatches, rfl⟩
  · cases h

/-- A result after an arrow: the arrow is what stands between. -/
theorem returns_of_arrow (hskip : g.SkipsAhead src) {body : Rule N σ} {here there : Place σ}
    {xs : List Node}
    (h : Takes g src (.seq (.token true (.exact "->")) (.field "return_type" (.node "type" body)))
      here xs there) :
    ∃ result, xs = [result] ∧ result.kind ∉ parameterKinds ∧ Returns src here.next result := by
  obtain ⟨_, _, middle, rfl, harrow, hresult⟩ := h.of_seq
  have hlong : ∀ context i stop context',
      Lexeme.exact "->" src (context : σ) i = some (stop, context') → i < stop := by
    intro _ i stop _ hlexeme
    obtain ⟨-, rfl⟩ := Lexeme.of_exact hlexeme
    exact Nat.lt_add_of_pos_right (by decide)
  obtain rfl := harrow.nodes_of_token
  obtain ⟨hlt, context, hlexeme⟩ := harrow.of_token hlong
  obtain ⟨_, rfl, hnode⟩ := hresult.of_field
  obtain ⟨ys, beyond, rfl, rfl, hbody⟩ := hnode.of_node
  obtain ⟨hstart, hstop⟩ := hbody.startSince_between hskip
  have hnext := Rule.le_tokenStart hskip true here
  refine ⟨_, rfl, (by decide : "type" ∉ parameterKinds), (by decide : "return_type" ∈ resultFields),
    hnext.trans (hlt.le.trans hstart), hstop, fun hgap => ?_⟩
  -- the first character of the arrow is no blank
  have hhyphen : '-' ∈ Text.bare (slice src here.next (beyond.startSince middle)) := by
    refine Text.mem_bare.mpr ⟨mem_slice.mpr ⟨_, hnext, hlt.trans_le hstart, ?_⟩, by decide⟩
    have hmatches : Lexeme.matchesAt src _ ['-', '>'] = true := (Lexeme.of_exact hlexeme).1
    rw [Lexeme.matchesAt, Bool.and_eq_true, beq_iff_eq] at hmatches
    exact hmatches.1
  refine iff_of_true ?_ (by decide : "type" ∉ predicateKinds)
  rcases hgap with hnone | harrow
  · exact absurd (hnone ▸ hhyphen) List.not_mem_nil
  · exact harrow

/-! ## Results right after blanks -/

/-- Whether a slash stands before every hyphen between two indices, as it does where there are only
blanks and comments that start with one. -/
def SlashFirst (src : Chars) (i j : Nat) : Prop :=
  ∀ k, i ≤ k → k < j → src[k]? = some '-' → ∃ m, i ≤ m ∧ m < k ∧ src[m]? = some '/'

namespace SlashFirst

variable {i j : Nat} {c : Char}

theorem nil (src : Chars) (i : Nat) : SlashFirst src i i :=
  fun k hik hki => absurd hik (by omega)

theorem slash (hc : src[i]? = some '/') (j : Nat) : SlashFirst src i j := by
  intro k hik _ hhyphen
  refine ⟨i, le_refl i, lt_of_le_of_ne hik ?_, hc⟩
  rintro rfl
  rw [hc] at hhyphen
  cases hhyphen

theorem cons (hc : src[i]? = some c) (hne : c ≠ '-') (h : SlashFirst src (i + 1) j) :
    SlashFirst src i j := by
  intro k hik hkj hhyphen
  have hlater : i ≠ k := by
    rintro rfl
    exact hne (Option.some.inj (hc.symm.trans hhyphen))
  obtain ⟨m, hm, hmk, hslash⟩ := h k (by omega) hkj hhyphen
  exact ⟨m, by omega, hmk, hslash⟩

end SlashFirst

/-- Whether a grammar skips the same in every context, and after blanks only comments that start
with a slash. -/
structure Grammar.SkipsPlainly (g : Grammar N σ) (src : Chars) : Prop where
  ahead : g.SkipsAhead src
  same : ∀ context context' i, g.skipBlanks src context i = g.skipBlanks src context' i
  slash : ∀ context i, SlashFirst src i (g.skipBlanks src context i)

theorem startSince_le (hg : g.SkipsPlainly src) (context : σ) {here there : Place σ}
    (hfirst : here.opened.first? = none →
      ∀ first ∈ there.first?, first ≤ g.skipBlanks src context here.opened.next) :
    there.startSince here ≤ g.skipBlanks src context here.next := by
  unfold Place.startSince
  cases htaken : there.first? with
  | none => exact hg.ahead context here.next
  | some first => exact hfirst rfl first htaken

/-- What is taken starts with the next token or before it. -/
theorem Takes.first_le (hg : g.SkipsPlainly src) (context : σ) {r : Rule N σ}
    {here there : Place σ} {xs : List Node} (h : Takes g src r here xs there) :
    here.first? = none → ∀ first ∈ there.first?, first ≤ g.skipBlanks src context here.next := by
  have hseq : ∀ {first second : Rule N σ} {here there beyond : Place σ} {xs ys : List Node},
      Takes g src first here xs there → Takes g src second there ys beyond →
      (here.first? = none → ∀ i ∈ there.first?, i ≤ g.skipBlanks src context here.next) →
      (there.first? = none → ∀ i ∈ beyond.first?, i ≤ g.skipBlanks src context there.next) →
      here.first? = none → ∀ i ∈ beyond.first?, i ≤ g.skipBlanks src context here.next := by
    intro first second here there beyond xs ys hfirst hsecond ihfirst ihsecond hnone
    obtain ⟨first?, hmarked, -, hstill⟩ := hfirst.advances hg.ahead
    obtain ⟨second?, hmarked', -, -⟩ := hsecond.advances hg.ahead
    rw [hnone, Option.none_or] at hmarked
    cases first? with
    | some i =>
        rw [hmarked', hmarked]
        simpa [hmarked] using ihfirst hnone
    | none =>
        rw [← (hstill rfl).1]
        exact ihsecond hmarked
  induction h with
  | empty => simp +contextual
  | @token here spaced _ stop _ _ _ =>
      intro hnone i hi
      simp only [hnone, Option.none_or, Option.mem_def, Option.some.injEq] at hi
      subst hi
      unfold Rule.tokenStart
      split
      · exact (hg.same _ _ _).le
      · exact hg.ahead _ _
  | mark => simp +contextual
  | seq hfirst hsecond ihfirst ihsecond => exact hseq hfirst hsecond ihfirst ihsecond
  | altFirst _ ih => exact ih
  | altSecond _ ih => exact ih
  | manyEnd => simp +contextual
  | manyMore hitem hmore ihitem ihmore => exact hseq hitem hmore ihitem ihmore
  | phrase _ ih => exact ih
  | node _ ih =>
      intro hnone i hi
      simp only [Place.closed, hnone, Option.none_or, Option.mem_def, Option.some.injEq] at hi
      exact hi ▸ startSince_le hg context ih
  | field _ ih => exact ih
  | fold _ hsteps ihbase _ =>
      intro hnone i hi
      obtain ⟨_, hmarked, -, -⟩ := hsteps.advances hg.ahead
      simp only [hmarked, Place.closed, hnone, Option.none_or, Option.some_or, Option.mem_def,
        Option.some.injEq] at hi
      exact hi ▸ startSince_le hg context ihbase
  | ahead => simp +contextual
  | within _ ih => exact ih

/-- Between a place and the node that is taken there, an arrow stands in a comment only. -/
theorem Takes.bare_between (hg : g.SkipsPlainly src) {r : Rule N σ} {here there : Place σ}
    {xs : List Node} (h : Takes g src r here.opened xs there) :
    Text.bare (slice src here.next (there.startSince here)) ≠ ['-', '>'] := by
  intro harrow
  have hle := startSince_le hg here.context (h.first_le hg here.context)
  have hhyphen : '-' ∈ slice src here.next (there.startSince here) := by
    refine (Text.mem_bare.mp ?_).1
    rw [harrow]
    exact List.mem_cons_self
  obtain ⟨k, hk, hlt, hchar⟩ := mem_slice.mp hhyphen
  obtain ⟨m, hm, hmk, hslash⟩ := hg.slash here.context here.next k hk (hlt.trans_le hle) hchar
  have hbare : '/' ∈ Text.bare (slice src here.next (there.startSince here)) :=
    Text.mem_bare.mpr ⟨mem_slice.mpr ⟨m, hm, hmk.trans hlt, hslash⟩, by decide⟩
  rw [harrow] at hbare
  exact absurd hbare (by decide)

/-- A result that is taken right after a place: nothing but blanks and comments stands between. -/
theorem returns_of_node (hg : g.SkipsPlainly src) {name kind : String} {body : Rule N σ}
    {here there : Place σ} {xs : List Node} (hname : name ∈ resultFields)
    (hkind : kind = "type_annotation" ∨ name = "result" ↔ kind ∉ predicateKinds)
    (h : Takes g src (.node kind body) here xs there) :
    ∃ result, xs.map (·.withField name) = [result] ∧ result.kind = kind ∧
      Returns src here.next result := by
  obtain ⟨ys, beyond, rfl, rfl, hbody⟩ := h.of_node
  obtain ⟨hstart, hstop⟩ := hbody.startSince_between hg.ahead
  let result : Node := .mk kind name (beyond.startSince here) beyond.next ys
  refine ⟨result, rfl, rfl, hname, hstart, hstop, fun hgap => ?_⟩
  have hnone : Text.bare (slice src here.next result.start) = [] :=
    hgap.resolve_right (hbody.bare_between hg)
  have hsame : [] = separator result ↔ kind = "type_annotation" ∨ name = "result" := by
    unfold separator
    split
    · rename_i hsign
      exact iff_of_true rfl hsign
    · rename_i hsign
      exact iff_of_false (by simp) hsign
  rw [hnone]
  exact hsame.trans hkind

/-! ## Rows with a list and a result -/

/-- Whether a node is a list of parameters, and not what a declaration returns. -/
structure Node.IsList (n : Node) : Prop where
  kind : n.kind ∈ parameterKinds
  field : n.field ∉ resultFields
  start_le : n.start ≤ n.stop

/-- Children of a node: none says what a declaration returns, or one does, right after the only list
of parameters. -/
inductive IsRow (src : Chars) : List Node → Prop where
  | silent {xs : List Node} (h : ∀ x ∈ xs, x.field ∉ resultFields) : IsRow src xs
  | signed {before after : List Node} {list result : Node} (hbefore : ∀ x ∈ before, x.IsQuiet)
      (hafter : ∀ x ∈ after, x.IsQuiet) (hlist : list.IsList)
      (hkind : result.kind ∉ parameterKinds) (hreturns : Returns src list.stop result) :
      IsRow src (before ++ list :: result :: after)

namespace IsRow

variable {xs ys : List Node}

theorem quiet (h : ∀ x ∈ xs, x.IsQuiet) : IsRow src xs :=
  .silent fun x hx => (h x hx).field

theorem append_quiet (h : IsRow src xs) (hys : ∀ y ∈ ys, y.IsQuiet) : IsRow src (xs ++ ys) := by
  cases h with
  | silent h => exact .silent (List.forall_mem_append.mpr ⟨h, fun y hy => (hys y hy).field⟩)
  | signed hbefore hafter hlist hkind hreturns =>
      rw [List.append_assoc, List.cons_append, List.cons_append]
      exact .signed hbefore (List.forall_mem_append.mpr ⟨hafter, hys⟩) hlist hkind hreturns

theorem quiet_append (h : IsRow src ys) (hxs : ∀ x ∈ xs, x.IsQuiet) : IsRow src (xs ++ ys) := by
  cases h with
  | silent h => exact .silent (List.forall_mem_append.mpr ⟨fun x hx => (hxs x hx).field, h⟩)
  | signed hbefore hafter hlist hkind hreturns =>
      rw [← List.append_assoc]
      exact .signed (List.forall_mem_append.mpr ⟨hxs, hbefore⟩) hafter hlist hkind hreturns

end IsRow

namespace Rule

variable {phrases : N → Bool}

/-- Whether a rule always takes one list of parameters. -/
def TakesList (g : Grammar N σ) (src : Chars) (r : Rule N σ) : Prop :=
  ∀ here xs there, Takes g src r here xs there → ∃ list, xs = [list] ∧ list.IsList ∧
    list.stop = there.next

/-- Whether a rule takes what a declaration returns, or nothing. -/
def TakesResult (g : Grammar N σ) (src : Chars) (r : Rule N σ) : Prop :=
  ∀ here xs there, Takes g src r here xs there → xs = [] ∨ ∃ result, xs = [result] ∧
    result.kind ∉ parameterKinds ∧ Returns src here.next result

/-- Whether the nodes that a rule takes always are a row. -/
def TakesRow (g : Grammar N σ) (src : Chars) (r : Rule N σ) : Prop :=
  ∀ here xs there, Takes g src r here xs there → IsRow src xs

theorem takesList_node (hskip : g.SkipsAhead src) {kind : String} (hkind : kind ∈ parameterKinds)
    (body : Rule N σ) : TakesList g src (.node kind body) := by
  intro here xs there h
  obtain ⟨ys, beyond, rfl, rfl, hbody⟩ := h.of_node
  exact ⟨_, rfl, ⟨hkind, (by decide : "" ∉ resultFields),
    (hbody.startSince_between hskip).2⟩, rfl⟩

theorem takesRow_quiet (hg : g.IsQuiet phrases) {r : Rule N σ} (hr : r.quiet phrases = true) :
    TakesRow g src r :=
  fun _ _ _ h => .quiet (h.isQuiet hg hr)

theorem takesRow_pair {list result : Rule N σ} (hlist : list.TakesList g src)
    (hresult : result.TakesResult g src) : TakesRow g src (.seq list result) := by
  intro here xs there h
  obtain ⟨_, _, middle, rfl, hl, hr⟩ := h.of_seq
  obtain ⟨l, rfl, hislist, hstop⟩ := hlist _ _ _ hl
  rcases hresult _ _ _ hr with rfl | ⟨r, rfl, hkind, hreturns⟩
  · exact .silent (by simpa using hislist.field)
  · change IsRow src ([] ++ l :: r :: [])
    exact .signed (by simp) (by simp) hislist hkind (hstop ▸ hreturns)

theorem takesRow_alt {first second : Rule N σ} (hfirst : first.TakesRow g src)
    (hsecond : second.TakesRow g src) : TakesRow g src (.alt first second) :=
  fun _ _ _ h => h.of_alt.elim (hfirst _ _ _) (hsecond _ _ _)

theorem takesRow_seq_quiet (hg : g.IsQuiet phrases) {first second : Rule N σ}
    (hfirst : first.TakesRow g src) (hsecond : second.quiet phrases = true) :
    TakesRow g src (.seq first second) := by
  intro here xs there h
  obtain ⟨_, _, middle, rfl, hf, hs⟩ := h.of_seq
  exact (hfirst _ _ _ hf).append_quiet (hs.isQuiet hg hsecond)

theorem takesRow_quiet_seq (hg : g.IsQuiet phrases) {first second : Rule N σ}
    (hfirst : first.quiet phrases = true) (hsecond : second.TakesRow g src) :
    TakesRow g src (.seq first second) := by
  intro here xs there h
  obtain ⟨_, _, middle, rfl, hf, hs⟩ := h.of_seq
  exact (hsecond _ _ _ hs).quiet_append (hf.isQuiet hg hfirst)

theorem all_cons (r : Rule N σ) {rs : List (Rule N σ)} (h : rs ≠ []) :
    Rule.all (r :: rs) = .seq r (Rule.all rs) := by
  cases rs with
  | nil => exact absurd rfl h
  | cons => rfl

theorem quiet_all {rs : List (Rule N σ)} (h : rs.all (quiet phrases) = true) :
    (Rule.all rs).quiet phrases = true := by
  induction rs with
  | nil => rfl
  | cons r rs ih =>
      obtain ⟨hr, hrs⟩ := Bool.and_eq_true_iff.mp (List.all_cons ▸ h)
      cases rs with
      | nil => exact hr
      | cons => exact Bool.and_eq_true_iff.mpr ⟨hr, ih hrs⟩

/-- Quiet rules in front of rules that take a row. -/
theorem takesRow_all_append (hg : g.IsQuiet phrases) {before rs : List (Rule N σ)}
    (hbefore : before.all (quiet phrases) = true) (hne : rs ≠ [])
    (hrs : (Rule.all rs).TakesRow g src) : TakesRow g src (.all (before ++ rs)) := by
  induction before with
  | nil => exact hrs
  | cons r before ih =>
      obtain ⟨hr, hbefore⟩ := Bool.and_eq_true_iff.mp (List.all_cons ▸ hbefore)
      rw [List.cons_append, all_cons r (List.append_ne_nil_of_right_ne_nil before hne)]
      exact takesRow_quiet_seq hg hr (ih hbefore)

section

variable {rs after : List (Rule N σ)} {r list result : Rule N σ}

/-- A rule that takes a row, after so many quiet rules and before others. -/
theorem takesRow_all (hg : g.IsQuiet phrases) (count : Nat) (hdrop : rs.drop count = r :: after)
    (hbefore : (rs.take count).all (quiet phrases) = true)
    (hafter : after.all (quiet phrases) = true) (hr : r.TakesRow g src) :
    TakesRow g src (.all rs) := by
  rw [← List.take_append_drop count rs, hdrop]
  refine takesRow_all_append hg hbefore (List.cons_ne_nil r after) ?_
  cases after with
  | nil => exact hr
  | cons => exact takesRow_seq_quiet hg hr (quiet_all hafter)

/-- A list and a result, after so many quiet rules and before others. -/
theorem takesRow_all_pair (hg : g.IsQuiet phrases) (count : Nat)
    (hdrop : rs.drop count = list :: result :: after)
    (hbefore : (rs.take count).all (quiet phrases) = true)
    (hafter : after.all (quiet phrases) = true) (hlist : list.TakesList g src)
    (hresult : result.TakesResult g src) : TakesRow g src (.all rs) := by
  rw [← List.take_append_drop count rs, hdrop]
  refine takesRow_all_append hg hbefore (List.cons_ne_nil list _) ?_
  cases after with
  | nil => exact takesRow_pair hlist hresult
  | cons =>
      intro here xs there h
      obtain ⟨_, _, _, rfl, hl, hrest⟩ := h.of_seq
      obtain ⟨_, _, _, rfl, hr, hquiet⟩ := hrest.of_seq
      rw [← List.append_assoc]
      have hpair := takesRow_pair hlist hresult _ _ _ (hl.seq hr)
      exact hpair.append_quiet (hquiet.isQuiet hg (quiet_all hafter))

end

end Rule

/-! ## Signatures of nodes with a row -/

/-- The node for what a declaration returns, as a signature shows it. -/
def Node.returned? (n : Node) : Option Node :=
  (n.childByField? "return_type").orElse fun _ => n.childByField? "result"

/-- Whether nodes with some children have a result that follows their parameter list. -/
def IsSettled (language : Language) (src : Chars) (xs : List Node) : Prop :=
  ∀ n : Node, n.children = xs → ∀ list result, parameterList? language n = some list →
    n.returned? = some result → list.start ≤ list.stop ∧ Returns src list.stop result ∧
      ((n.childByField? "result").isSome = true ↔ result.field = "result")

section

variable {language : Language} {xs before after : List Node} {list result : Node}

theorem isSettled_silent (h : ∀ x ∈ xs, x.field ∉ resultFields) : IsSettled language src xs := by
  rintro n rfl list result - hresult
  have hnone : ∀ name ∈ resultFields, n.childByField? name = none := fun name hname =>
    List.find?_eq_none.mpr fun x hx => by
      simpa using fun heq : x.field = name => h x hx (heq ▸ hname)
  rw [Node.returned?, hnone "return_type" (by decide), hnone "result" (by decide)] at hresult
  cases hresult

theorem isSettled_quiet (h : ∀ x ∈ xs, x.IsQuiet) : IsSettled language src xs :=
  isSettled_silent fun x hx => (h x hx).field

/-- The node for a result is found by the field that it fills. -/
theorem find?_field (hbefore : ∀ x ∈ before, x.field ∉ resultFields)
    (hlist : list.field ∉ resultFields) (hafter : ∀ x ∈ after, x.field ∉ resultFields)
    {name : String} (hname : name ∈ resultFields) :
    (before ++ list :: result :: after).find? (·.field = name) =
      if result.field = name then some result else none := by
  have hother : ∀ {x : Node}, x.field ∉ resultFields → ¬x.field = name :=
    fun hx heq => hx (heq ▸ hname)
  have hnone : ∀ ys : List Node, (∀ y ∈ ys, y.field ∉ resultFields) →
      ys.find? (fun y => decide (y.field = name)) = none := fun ys hys =>
    List.find?_eq_none.mpr fun y hy => by simpa using hother (hys y hy)
  rw [List.find?_append, hnone before hbefore, Option.none_or, List.find?_cons_of_neg
    (by simpa using hother hlist), List.find?_cons, hnone after hafter]
  split <;> simp_all

/-- If the list before a result is the one that a signature shows, the two are settled. -/
theorem isSettled_of_chosen (hbefore : ∀ x ∈ before, x.field ∉ resultFields) (hlist : list.IsList)
    (hafter : ∀ x ∈ after, x.field ∉ resultFields) (hreturns : Returns src list.stop result)
    (hchosen : ∀ n : Node, n.children = before ++ list :: result :: after →
      parameterList? language n = some list) :
    IsSettled language src (before ++ list :: result :: after) := by
  intro n hn l r hl hr
  have hfield : ∀ name ∈ resultFields, n.childByField? name =
      if result.field = name then some result else none := fun name hname => by
    rw [Node.childByField?, hn]
    exact find?_field hbefore hlist.field hafter hname
  obtain rfl : list = l := Option.some.inj ((hchosen n hn).symm.trans hl)
  have hone : result.field = "return_type" ∨ result.field = "result" := by
    simpa [resultFields] using hreturns.field
  rw [Node.returned?, hfield "return_type" (by decide), hfield "result" (by decide)] at hr
  rw [hfield "result" (by decide)]
  rcases hone with hone | hone
  · simp only [hone, if_true, Option.orElse_some, Option.some.injEq] at hr
    subst hr
    exact ⟨hlist.start_le, hreturns, by simp [hone]⟩
  · simp only [hone, if_true] at hr
    obtain rfl : result = r := by simpa using hr
    exact ⟨hlist.start_le, hreturns, by simp [hone]⟩

theorem parameterList?_of_only {n : Node}
    (h : n.children.filter (fun c => parameterKinds.contains c.kind) = [list]) :
    parameterList? language n = some list := by
  unfold parameterList?
  rw [h]
  split
  · simp only [List.find?_cons, List.find?_nil, List.head?_cons]
    split <;> rfl
  · rfl

/-- A list that starts after the name is shown, if none before it does. -/
theorem parameterList?_of_named {n name : Node}
    (hname : n.childOfKind? language.nameKinds = some name)
    (hchildren : n.children = before ++ list :: after) (hlist : list.kind ∈ parameterKinds)
    (hafter : name.stop ≤ list.start)
    (hbefore : ∀ x ∈ before, x.kind ∈ parameterKinds → x.start < name.stop) :
    parameterList? language n = some list := by
  have hfound : (n.children.filter fun c => parameterKinds.contains c.kind).find?
      (fun p => decide (name.stop ≤ p.start)) = some list := by
    rw [hchildren, List.find?_filter, List.find?_append, List.find?_eq_none.mpr, Option.none_or,
      List.find?_cons_of_pos]
    · simpa using ⟨hlist, hafter⟩
    · simpa using hbefore
  unfold parameterList?
  simp only [hname, hfound, Option.orElse_some]

/-- If there is no name, the first list is shown. -/
theorem parameterList?_of_unnamed {n : Node} (hname : n.childOfKind? language.nameKinds = none)
    (hchildren : n.children = list :: after) (hlist : list.kind ∈ parameterKinds) :
    parameterList? language n = some list := by
  have hhead : (n.children.filter fun c => parameterKinds.contains c.kind).head? = some list := by
    rw [hchildren, List.filter_cons_of_pos (by simpa using hlist), List.head?_cons]
  unfold parameterList?
  simp only [hname, hhead, Option.orElse_some]

/-- The result of a row follows the only list of parameters. -/
theorem IsRow.isSettled (h : IsRow src xs) : IsSettled language src xs := by
  cases h with
  | silent h => exact isSettled_silent h
  | @signed before after list result hbefore hafter hlist hkind hreturns =>
      refine isSettled_of_chosen (fun x hx => (hbefore x hx).field) hlist
        (fun x hx => (hafter x hx).field) hreturns fun n hn => parameterList?_of_only ?_
      have hnone : ∀ ys : List Node, (∀ y ∈ ys, y.IsQuiet) →
          ys.filter (fun c => parameterKinds.contains c.kind) = [] := fun ys hys =>
        List.filter_eq_nil_iff.mpr fun y hy => by simpa using (hys y hy).kind
      rw [hn, List.filter_append, hnone before hbefore, List.nil_append,
        List.filter_cons_of_pos (by simpa using hlist.kind),
        List.filter_cons_of_neg (by simpa using hkind), hnone after hafter]

end

end FossilRecord.Source
