import FossilRecord.Proofs.Source.Results

/-!
# Parameter lists and results in the grammars

In every language a result follows the parameter list that a signature shows, and what stands
between the two is known.  In most of the nodes that the rules make there is no result at all, which
the rules show by themselves; what is left are functions and methods, which are looked at one by one.
-/

namespace FossilRecord.Source

variable {N σ : Type} {g : Grammar N σ} {src : Chars} {phrases : N → Bool} {language : Language}

/-- Whether all rows that the nodes of a rule have as their children are settled. -/
abbrev Rule.Settles (g : Grammar N σ) (src : Chars) (phrases : N → Bool) (language : Language)
    (r : Rule N σ) : Prop :=
  r.Makes g src phrases (IsSettled language src)

theorem Rule.settles_plain (hg : g.IsQuiet phrases) {r : Rule N σ} (h : r.plain phrases = true) :
    r.Settles g src phrases language :=
  Rule.makes_of_plain hg (fun _ => isSettled_quiet) h

theorem Rule.settles_all_plain (hg : g.IsQuiet phrases) {rs : List (Rule N σ)}
    (h : rs.all (·.plain phrases) = true) : ∀ r ∈ rs, r.Settles g src phrases language :=
  fun r hr => settles_plain hg (List.all_eq_true.mp h r hr)

/-- A rule and those after it, after so many plain ones. -/
theorem Rule.forall_settles (hg : g.IsQuiet phrases) {rs after : List (Rule N σ)} {r : Rule N σ}
    (count : Nat) (hdrop : rs.drop count = r :: after)
    (hbefore : (rs.take count).all (·.plain phrases) = true)
    (hr : r.Settles g src phrases language)
    (hafter : ∀ r ∈ after, r.Settles g src phrases language) :
    ∀ r ∈ rs, r.Settles g src phrases language := by
  rw [← List.take_append_drop count rs, hdrop]
  exact List.forall_mem_append.mpr
    ⟨settles_all_plain hg hbefore, List.forall_mem_cons.mpr ⟨hr, hafter⟩⟩

/-- A node with a row. -/
theorem Rule.settles_node (hg : g.IsQuiet phrases) {kind : String} {body : Rule N σ}
    (hrow : body.TakesRow g src) (hbody : body.plain phrases = true) :
    (Rule.node kind body).Settles g src phrases language :=
  ⟨fun _ _ _ h => (hrow _ _ _ h).isSettled, settles_plain hg hbody⟩

/-- A node without one. -/
theorem Rule.settles_quiet (hg : g.IsQuiet phrases) {kind : String} {body : Rule N σ}
    (hrow : body.quiet phrases = true) (hbody : body.Settles g src phrases language) :
    (Rule.node kind body).Settles g src phrases language :=
  ⟨fun _ _ _ h => isSettled_quiet (h.isQuiet hg hrow), hbody⟩

/-! ## Rust -/

namespace Rust

theorem isQuiet : grammar.IsQuiet fun _ => true := by
  intro name _
  cases name <;> rfl

theorem takesRow_functionHeader (src : Chars) : functionHeader.TakesRow grammar src := by
  refine Rule.takesRow_all_pair isQuiet 5 rfl rfl rfl ?_ ?_
  · exact Rule.takesList_node (skipsAhead src) (by decide) _
  · exact fun _ _ _ h => h.of_opt.imp_right (returns_of_arrow (skipsAhead src))

theorem settles_function (src : Chars) :
    function.Settles grammar src (fun _ => true) .rust := by
  have hnode : ∀ (kind : String) (finish : R), finish.quiet (fun _ => true) = true →
      (functionHeader.seq finish).plain (fun _ => true) = true →
      (Rule.node kind (.seq functionHeader finish)).Settles grammar src (fun _ => true) .rust :=
    fun kind finish hquiet hplain => Rule.settles_node isQuiet
      (Rule.takesRow_seq_quiet isQuiet (takesRow_functionHeader src) hquiet) hplain
  exact ⟨hnode _ _ rfl rfl, hnode _ _ rfl rfl⟩

theorem settles_rule (src : Chars) (name : Phrase) :
    (grammar.rule name).Settles grammar src (fun _ => true) .rust := by
  cases name with
  | item =>
      exact Rule.makes_any (Rule.forall_settles isQuiet 2 rfl rfl
        (settles_function src) (Rule.settles_all_plain isQuiet rfl))
  | _ => exact Rule.settles_plain isQuiet rfl

theorem rowsAre_tree (src : Chars) : (tree src).RowsAre (IsSettled .rust src) :=
  rowsAre_treeOf isQuiet (fun _ => isSettled_quiet) (settles_rule src)
    (Rule.settles_plain isQuiet rfl) rfl _ _

end Rust

/-! ## Python -/

namespace Python

theorem isQuiet : grammar.IsQuiet fun _ => true := by
  intro name _
  rcases name with _ | (_ | _) | _ | _ <;> rfl

theorem settles_functionDefinition (src : Chars) :
    functionDefinition.Settles grammar src (fun _ => true) .python := by
  refine Rule.settles_node isQuiet ?_ rfl
  refine Rule.takesRow_all_pair isQuiet 4 rfl rfl rfl ?_ ?_
  · exact Rule.takesList_node (skipsAhead src) (by decide) _
  · exact fun _ _ _ h => h.of_opt.imp_right (returns_of_arrow (skipsAhead src))

theorem settles_decorated (src : Chars) :
    decorated.Settles grammar src (fun _ => true) .python := by
  refine Rule.settles_quiet isQuiet rfl ⟨?_, ?_⟩
  · exact Rule.settles_plain isQuiet rfl
  · exact ⟨settles_functionDefinition src, Rule.settles_plain isQuiet rfl⟩

theorem settles_rule (src : Chars) (name : Phrase) :
    (grammar.rule name).Settles grammar src (fun _ => true) .python := by
  cases name with
  | statement =>
      refine Rule.makes_any (Rule.forall_settles isQuiet 5 rfl rfl
        (settles_decorated src) ?_)
      exact Rule.forall_settles isQuiet 0 rfl rfl (settles_functionDefinition src)
        (Rule.settles_all_plain isQuiet rfl)
  | soup colons => cases colons <;> exact Rule.settles_plain isQuiet rfl
  | _ => exact Rule.settles_plain isQuiet rfl

theorem rowsAre_tree (src : Chars) : (tree src).RowsAre (IsSettled .python src) :=
  rowsAre_treeOf isQuiet (fun _ => isSettled_quiet) (settles_rule src)
    (Rule.settles_plain isQuiet rfl) rfl _ _

end Python

/-! ## Bash -/

namespace Bash

theorem isQuiet : grammar.IsQuiet fun _ => true := by
  intro name _
  cases name <;> rfl

theorem rowsAre_tree (src : Chars) : (tree src).RowsAre (IsSettled .bash src) :=
  rowsAre_treeOf isQuiet (fun _ => isSettled_quiet)
    (fun name => Rule.settles_plain isQuiet (by cases name <;> rfl))
    (Rule.settles_plain isQuiet rfl) rfl _ _

end Bash

/-! ## Scripts of the web -/

namespace Script

/-- The phrases that take no list of parameters. -/
def isQuietPhrase : Phrase → Bool
  | .parameters => false
  | _ => true

variable (f : Flavour)

theorem isQuiet : f.grammar.IsQuiet isQuietPhrase := by
  intro name hname
  rcases f with ⟨_ | _, _ | _⟩ <;> cases name <;> first | rfl | cases hname

theorem slashFirst_blanksEnd (src : Chars) (fuel i : Nat) :
    SlashFirst src i (blanksEnd src fuel i) := by
  fun_induction blanksEnd src fuel i with
  | case1 i => exact .nil src i
  | case2 fuel i => exact .nil src i
  | case3 fuel i c hc hblank ih => exact .cons hc (by rintro rfl; cases hblank) ih
  | case4 fuel i c hc _ hslash => exact .slash (by simp_all) _
  | case5 fuel i c hc _ _ hslash => exact .slash (by simp_all) _
  | case6 fuel i => exact .nil src i
  | case7 fuel i => exact .nil src i

theorem skipsPlainly (src : Chars) : f.grammar.SkipsPlainly src where
  ahead := skipsAhead f src
  same _ _ _ := rfl
  slash _ _ := slashFirst_blanksEnd src _ _

theorem takesResult_returnType (src : Chars) :
    (f.maybeTyped returnType).TakesResult f.grammar src := by
  intro here xs there h
  rcases f with ⟨_ | _, markup⟩
  · cases h
    exact .inl rfl
  · rcases h.of_opt with rfl | hreturn
    · exact .inl rfl
    · right
      obtain ⟨ys, rfl, hnode⟩ := hreturn.of_field
      have hone : ∀ (kind : String) (body : R), kind ∉ parameterKinds →
          (kind = "type_annotation" ∨ "return_type" = "result" ↔ kind ∉ predicateKinds) →
          Takes (Flavour.grammar ⟨true, markup⟩) src (.node kind body) here ys there →
          ∃ result, ys.map (·.withField "return_type") = [result] ∧
            result.kind ∉ parameterKinds ∧ Returns src here.next result := by
        intro kind body hkind hsign hnode
        obtain ⟨result, hresult, hsame, hreturns⟩ :=
          returns_of_node (skipsPlainly _ src) (by decide) hsign hnode
        exact ⟨result, hresult, hsame ▸ hkind, hreturns⟩
      rcases hnode.of_alt with hasserts | hnode
      · exact hone _ _ (by decide) (by decide) hasserts
      · rcases hnode.of_alt with hpredicate | hannotation
        · exact hone _ _ (by decide) (by decide) hpredicate
        · exact hone _ _ (by decide) (by decide) hannotation

theorem takesRow_callSignature (src : Chars) : f.callSignature.TakesRow f.grammar src := by
  refine Rule.takesRow_all_pair (isQuiet f) 1 rfl ?_ rfl ?_ (takesResult_returnType f src)
  · rcases f with ⟨_ | _, _ | _⟩ <;> rfl
  · exact fun _ _ _ h => Rule.takesList_node (skipsAhead f src) (by decide) _ _ _ _ h.of_phrase

/-- A node whose rule takes a signature after so many quiet rules. -/
theorem settles_signature {f : Flavour} (src : Chars) (kind : String) {rs after : List R}
    (count : Nat) (hdrop : rs.drop count = f.callSignature :: after)
    (hbefore : (rs.take count).all (·.quiet isQuietPhrase) = true)
    (hafter : after.all (·.quiet isQuietPhrase) = true)
    (hplain : (Rule.all rs).plain isQuietPhrase = true) :
    (Rule.node kind (.all rs)).Settles f.grammar src isQuietPhrase language :=
  Rule.settles_node (isQuiet f)
    (Rule.takesRow_all (isQuiet f) count hdrop hbefore hafter (takesRow_callSignature f src)) hplain

theorem settles_functionDeclaration (src : Chars) :
    f.functionDeclaration.Settles f.grammar src isQuietPhrase language := by
  rcases f with ⟨_ | _, _ | _⟩ <;>
  · refine ⟨settles_signature src _ 4 rfl ?_ ?_ ?_, settles_signature src _ 4 rfl ?_ ?_ ?_, ?_⟩
    any_goals rfl
    first
    | trivial
    | exact settles_signature src _ 4 rfl rfl rfl rfl

theorem settles_functionExpression (src : Chars) :
    f.functionExpression.Settles f.grammar src isQuietPhrase language := by
  rcases f with ⟨_ | _, _ | _⟩ <;>
  · refine ⟨settles_signature src _ 4 rfl ?_ ?_ ?_, settles_signature src _ 4 rfl ?_ ?_ ?_⟩
    all_goals rfl

theorem settles_arrowFunction (src : Chars) :
    f.arrowFunction.Settles f.grammar src isQuietPhrase language := by
  refine Rule.settles_node (isQuiet f) ?_ ?_
  · refine Rule.takesRow_all (isQuiet f) 1 rfl ?_ ?_ (Rule.takesRow_alt
      (Rule.takesRow_quiet (isQuiet f) rfl) (takesRow_callSignature f src))
    all_goals rcases f with ⟨_ | _, _ | _⟩ <;> rfl
  · rcases f with ⟨_ | _, _ | _⟩ <;> rfl

theorem settles_methodAfter (src : Chars) {before : R}
    (hquiet : before.quiet isQuietPhrase = true) (hplain : before.plain isQuietPhrase = true) :
    (f.methodAfter before).Settles f.grammar src isQuietPhrase language := by
  rcases f with ⟨_ | _, _ | _⟩ <;>
  · refine settles_signature src _ 4 rfl ?_ rfl ?_
    · exact Bool.and_eq_true_iff.mpr ⟨hquiet, rfl⟩
    · exact Bool.and_eq_true_iff.mpr ⟨hplain, rfl⟩

theorem settles_object (src : Chars) : f.object.Settles f.grammar src isQuietPhrase language := by
  rcases f with ⟨_ | _, _ | _⟩ <;>
  · refine Rule.settles_quiet (isQuiet _) rfl (Rule.makes_all ?_)
    refine Rule.forall_settles (isQuiet _) 1 rfl rfl
      (Rule.makes_list ?_ (Rule.makes_any ?_)) ?_
    · exact Rule.settles_plain (isQuiet _) rfl
    · exact Rule.forall_settles (isQuiet _) 1 rfl rfl
        (settles_methodAfter _ src rfl rfl) (Rule.settles_all_plain (isQuiet _) rfl)
    · exact Rule.settles_all_plain (isQuiet _) rfl

theorem settles_primary (src : Chars) :
    f.primary.Settles f.grammar src isQuietPhrase language := by
  unfold Flavour.primary
  refine Rule.makes_any (Rule.forall_settles (isQuiet f) 0 rfl rfl
    (settles_functionExpression f src) (Rule.forall_settles (isQuiet f) 3 rfl ?_
      (settles_object f src) (Rule.settles_all_plain (isQuiet f) ?_)))
  · rcases f with ⟨_ | _, _ | _⟩ <;> rfl
  · rcases f with ⟨_ | _, _ | _⟩ <;> rfl

theorem settles_newExpression (src : Chars) :
    f.newExpression.Settles f.grammar src isQuietPhrase language := by
  have hoperand : (Rule.fold (.alt (.seq (.isAhead (key "new")) (.phrase .leftHand)) f.primary)
      f.memberStep).Settles f.grammar src isQuietPhrase language := by
    refine ⟨⟨⟨trivial, trivial⟩, settles_primary f src⟩,
      Rule.settles_plain (isQuiet f) ?_, ?_, ?_, ?_⟩
    all_goals rcases f with ⟨_ | _, _ | _⟩ <;> rfl
  unfold Flavour.newExpression
  refine ⟨Rule.settles_plain (isQuiet f) rfl,
    Rule.settles_quiet (isQuiet f) ?_ (Rule.makes_all (Rule.forall_settles (isQuiet f) 1 rfl
      rfl hoperand (Rule.settles_all_plain (isQuiet f) ?_)))⟩
  all_goals rcases f with ⟨_ | _, _ | _⟩ <;> rfl

theorem settles_leftHand (src : Chars) :
    f.leftHand.Settles f.grammar src isQuietPhrase language := by
  refine ⟨⟨settles_newExpression f src, settles_primary f src⟩,
    Rule.settles_plain (isQuiet f) ?_, ?_, ?_, ?_⟩
  all_goals rcases f with ⟨_ | _, _ | _⟩ <;> rfl

theorem settles_classMember (src : Chars) :
    f.classMember.Settles f.grammar src isQuietPhrase language := by
  have hsemicolon : (Rule.opt (sign ";")).Settles f.grammar src isQuietPhrase language :=
    Rule.settles_plain (isQuiet f) rfl
  rcases f with ⟨_ | _, markup⟩
  · refine Rule.makes_any (Rule.forall_settles (isQuiet _) 2 rfl ?_
      ⟨settles_methodAfter _ src ?_ ?_, hsemicolon⟩ (Rule.settles_all_plain (isQuiet _) ?_))
    all_goals cases markup <;> rfl
  · refine Rule.makes_any (Rule.forall_settles (isQuiet _) 2 rfl ?_
      ⟨settles_methodAfter _ src ?_ ?_, hsemicolon⟩ (Rule.forall_settles (isQuiet _) 0 rfl rfl
        ⟨Rule.makes_any (Rule.forall_settles (isQuiet _) 0 rfl rfl
          (settles_signature src _ 4 rfl ?_ rfl ?_) (Rule.settles_all_plain (isQuiet _) ?_)), ?_⟩
        (Rule.settles_all_plain (isQuiet _) ?_)))
    case refine_7 => exact Rule.settles_plain (isQuiet _) (by cases markup <;> rfl)
    all_goals cases markup <;> rfl

theorem settles_classBody (src : Chars) :
    f.classBody.Settles f.grammar src isQuietPhrase language := by
  refine Rule.settles_quiet (isQuiet f) ?_ (Rule.makes_all (Rule.forall_settles (isQuiet f) 1 rfl
    rfl (settles_classMember f src) (Rule.settles_all_plain (isQuiet f) rfl)))
  rcases f with ⟨_ | _, _ | _⟩ <;> rfl

theorem settles_declarations (src : Chars) :
    f.declarations.Settles f.grammar src isQuietPhrase language := by
  unfold Flavour.declarations
  refine Rule.makes_any (Rule.forall_settles (isQuiet f) 0 rfl rfl
    (settles_functionDeclaration f src) (Rule.settles_all_plain (isQuiet f) ?_))
  rcases f with ⟨_ | _, _ | _⟩ <;> rfl

theorem settles_assignment (src : Chars) :
    f.assignment.Settles f.grammar src isQuietPhrase language := by
  unfold Flavour.assignment
  refine Rule.makes_any (Rule.forall_settles (isQuiet f) 0 rfl rfl
    (settles_arrowFunction f src) (Rule.settles_all_plain (isQuiet f) ?_))
  rcases f with ⟨_ | _, _ | _⟩ <;> rfl

theorem settles_rule (src : Chars) (name : Phrase) :
    (f.grammar.rule name).Settles f.grammar src isQuietPhrase language := by
  cases name with
  | declaration => exact settles_declarations f src
  | expression => exact settles_assignment f src
  | leftHand => exact settles_leftHand f src
  | classBody => exact settles_classBody f src
  | _ =>
      refine Rule.settles_plain (isQuiet f) ?_
      rcases f with ⟨_ | _, _ | _⟩ <;> rfl

theorem rowsAre_tree (src : Chars) : (f.tree src).RowsAre (IsSettled language src) := by
  refine rowsAre_treeOf (isQuiet f) (fun _ => isSettled_quiet) (settles_rule f src)
    (Rule.settles_plain (isQuiet f) ?_) ?_ _ _
  all_goals rcases f with ⟨_ | _, _ | _⟩ <;> rfl

end Script

/-! ## Go -/

namespace Go

theorem isQuiet : grammar.IsQuiet fun _ => true := by
  intro name _
  cases name <;> rfl

theorem slashFirst_blanksEnd (src : Chars) (lines : Bool) (fuel i : Nat) :
    SlashFirst src i (blanksEnd src lines fuel i) := by
  fun_induction blanksEnd src lines fuel i with
  | case1 i => exact .nil src i
  | case2 fuel i => exact .nil src i
  | case3 fuel i c hc hblank ih => exact .cons hc (by rintro rfl; cases hblank) ih
  | case4 fuel i c hc _ hline ih => exact .cons hc (by rintro rfl; cases hline) ih
  | case5 fuel i c hc _ _ hslash => exact .slash (by simp_all) _
  | case6 fuel i => exact .nil src i
  | case7 fuel i c hc _ _ _ hslash => exact .slash (by simp_all) _
  | case8 fuel i => exact .nil src i
  | case9 fuel i => exact .nil src i

theorem skipsPlainly (src : Chars) : grammar.SkipsPlainly src where
  ahead := skipsAhead src
  same _ _ _ := rfl
  slash _ _ := slashFirst_blanksEnd src _ _ _

theorem of_signature {here there : Place Header} {xs : List Node}
    (h : Takes grammar src signature here xs there) :
    ∃ list, list.kind = "parameter_list" ∧ list.IsList ∧ here.next ≤ list.start ∧
      (xs = [list] ∨ ∃ result, xs = [list, result] ∧
        result.kind ∈ ["parameter_list", "type"] ∧ Returns src list.stop result) := by
  obtain ⟨_, _, middle, rfl, hlist, hresult⟩ := h.of_seq
  obtain ⟨_, rfl, hnode⟩ := hlist.of_field
  obtain ⟨ys, beyond, rfl, rfl, hbody⟩ := hnode.of_node
  obtain ⟨hstart, hstop⟩ := hbody.startSince_between (skipsAhead src)
  let list : Node := .mk "parameter_list" "parameters" (beyond.startSince here) beyond.next ys
  refine ⟨list, rfl, ⟨(by decide : "parameter_list" ∈ parameterKinds),
    (by decide : "parameters" ∉ resultFields), hstop⟩, hstart, ?_⟩
  rcases hresult.of_opt with rfl | hreturn
  · exact .inl rfl
  · right
    obtain ⟨zs, rfl, hnode⟩ := hreturn.of_field
    have hname : "result" ∈ resultFields := by decide
    rcases hnode.of_alt with hparameters | htype
    · obtain ⟨result, hone, hkind, hreturns⟩ := returns_of_node (skipsPlainly src) hname
        (by decide) hparameters
      exact ⟨result, by rw [hone]; rfl, by simp [hkind], hreturns⟩
    · obtain ⟨result, hone, hkind, hreturns⟩ := returns_of_node (skipsPlainly src) hname
        (by decide) htype
      exact ⟨result, by rw [hone]; rfl, by simp [hkind], hreturns⟩

/-- Children with a signature: the list is the one that a signature shows, if a name stands before
it and no other list starts after that, or if there is no name. -/
theorem isSettled_signature {here there : Place Header} {before xs after : List Node}
    (h : Takes grammar src signature here xs there) (hbefore : ∀ x ∈ before, x.field ∉ resultFields)
    (hafter : ∀ x ∈ after, x.IsQuiet ∧ x.kind = "block")
    (hname : before = [] ∨ ∃ name,
      before.find? (fun c => (Language.nameKinds .go).contains c.kind) = some name ∧
        name.stop ≤ here.next ∧ ∀ x ∈ before, x.kind ∈ parameterKinds → x.start < name.stop) :
    IsSettled .go src (before ++ (xs ++ after)) := by
  obtain ⟨list, hkind, hlist, hstart, hxs⟩ := of_signature h
  rcases hxs with rfl | ⟨result, rfl, hresult, hreturns⟩
  · refine isSettled_silent (List.forall_mem_append.mpr ⟨hbefore, List.forall_mem_append.mpr
      ⟨?_, fun x hx => (hafter x hx).1.field⟩⟩)
    simpa using hlist.field
  · refine isSettled_of_chosen hbefore hlist (fun x hx => (hafter x hx).1.field) hreturns ?_
    intro n hn
    rcases hname with rfl | ⟨name, hfound, hstop, hlists⟩
    · refine parameterList?_of_unnamed ?_ hn hlist.kind
      have hrest : ∀ x ∈ list :: result :: after, x.kind ∉ Language.nameKinds .go := by
        simp only [List.mem_cons, forall_eq_or_imp]
        refine ⟨by rw [hkind]; decide, ?_, fun x hx => by rw [(hafter x hx).2]; decide⟩
        simp only [List.mem_cons, List.not_mem_nil, or_false] at hresult
        rcases hresult with hresult | hresult <;> rw [hresult] <;> decide
      rw [Node.childOfKind?, hn]
      exact List.find?_eq_none.mpr (by simpa using hrest)
    · refine parameterList?_of_named ?_ hn hlist.kind (hstop.trans hstart) hlists
      rw [Node.childOfKind?, hn, List.find?_append, hfound, Option.some_or]

theorem of_block {here there : Place Header} {xs : List Node}
    (h : Takes grammar src block here xs there) : ∀ x ∈ xs, x.IsQuiet ∧ x.kind = "block" := by
  obtain ⟨ys, beyond, rfl, -⟩ := h.of_phrase.of_node
  intro x hx
  rw [List.mem_singleton.mp hx]
  exact ⟨⟨(by decide : "block" ∉ parameterKinds), (by decide : "" ∉ resultFields)⟩, rfl⟩

theorem of_optBlock {here there : Place Header} {xs : List Node}
    (h : Takes grammar src (.opt block) here xs there) :
    ∀ x ∈ xs, x.IsQuiet ∧ x.kind = "block" := by
  rcases h.of_opt with rfl | hblock
  · simp
  · exact of_block hblock

theorem settles_funcLiteral (src : Chars) :
    (Rule.node "func_literal" (.all [key "func", signature, inBrackets block])).Settles grammar src
      (fun _ => true) .go := by
  refine ⟨fun here xs there h => ?_, Rule.settles_plain isQuiet rfl⟩
  obtain ⟨_, _, _, rfl, hkey, hrest⟩ := h.of_seq
  obtain ⟨_, _, _, rfl, hsignature, hblock⟩ := hrest.of_seq
  obtain rfl := hkey.nodes_of_token
  obtain ⟨_, _, hblock⟩ := hblock.of_within
  exact isSettled_signature hsignature (by simp) (of_block hblock) (.inl rfl)

theorem lt_of_word {starts goesOn : Char → Bool} {reserved : List String} {context context' : σ}
    {i stop : Nat}
    (h : Lexeme.word starts goesOn reserved src context i = some (stop, context')) : i < stop := by
  unfold Lexeme.word at h
  split at h
  · split at h
    · dsimp only at h
      split at h
      · cases h
      · cases h
        exact Lexeme.le_runEnd src goesOn _ _
    · cases h
  · cases h

/-- A function: only its name and its type parameters stand before the list. -/
theorem settles_function (src : Chars) :
    (Rule.node "function_declaration" (.all [key "func", identifier, .opt brackets, signature,
      .opt block])).Settles grammar src (fun _ => true) .go := by
  refine ⟨fun here xs there h => ?_, Rule.settles_plain isQuiet rfl⟩
  obtain ⟨_, _, _, rfl, hkey, hrest⟩ := h.of_seq
  obtain ⟨_, _, _, rfl, hname, hrest⟩ := hrest.of_seq
  obtain ⟨_, _, _, rfl, hbrackets, hrest⟩ := hrest.of_seq
  obtain ⟨_, _, _, rfl, hsignature, hblock⟩ := hrest.of_seq
  obtain rfl := hkey.nodes_of_token
  obtain ⟨ys, beyond, rfl, rfl, hword⟩ := hname.of_node
  have hquiet := hbrackets.isQuiet isQuiet rfl
  rw [List.nil_append, ← List.append_assoc]
  refine isSettled_signature hsignature ?_ (of_optBlock hblock) (.inr ⟨_, rfl, ?_, ?_⟩)
  · exact List.forall_mem_cons.mpr
      ⟨(by decide : "" ∉ resultFields), fun x hx => (hquiet x hx).field⟩
  · obtain ⟨_, hadvances⟩ := hbrackets.advances (skipsAhead src)
    exact hadvances.spans.lo_le.trans hadvances.spans.le_hi
  · refine List.forall_mem_cons.mpr
      ⟨fun hlist => ?_, fun x hx hlist => absurd hlist (hquiet x hx).kind⟩
    exact absurd hlist (by decide : "identifier" ∉ parameterKinds)

/-- A method: its name stands between the receiver and the list. -/
theorem settles_method (src : Chars) :
    (Rule.node "method_declaration" (.all [key "func", .field "receiver" parameterList,
      .node "field_identifier" name, signature, .opt block])).Settles grammar src
      (fun _ => true) .go := by
  refine ⟨fun here xs there h => ?_, Rule.settles_plain isQuiet rfl⟩
  obtain ⟨_, _, start, rfl, hkey, hrest⟩ := h.of_seq
  obtain ⟨_, _, _, rfl, hreceiver, hrest⟩ := hrest.of_seq
  obtain ⟨_, _, _, rfl, hname, hrest⟩ := hrest.of_seq
  obtain ⟨_, _, _, rfl, hsignature, hblock⟩ := hrest.of_seq
  obtain rfl := hkey.nodes_of_token
  obtain ⟨_, rfl, hlist⟩ := hreceiver.of_field
  obtain ⟨ys, beyond, rfl, rfl, hparens⟩ := hlist.of_node
  obtain ⟨zs, further, rfl, rfl, hword⟩ := hname.of_node
  rw [List.nil_append, ← List.append_assoc]
  refine isSettled_signature hsignature ?_ (of_optBlock hblock) (.inr ⟨_, rfl, le_refl _, ?_⟩)
  · exact List.forall_mem_cons.mpr ⟨(by decide : "receiver" ∉ resultFields),
      List.forall_mem_cons.mpr ⟨(by decide : "" ∉ resultFields), List.forall_mem_nil _⟩⟩
  · -- the name is not empty, so it ends after the receiver
    obtain ⟨hlt, -⟩ := hword.of_token fun _ _ _ _ => lt_of_word
    have hreceiver := (hparens.startSince_between (skipsAhead src)).2
    have hskip := Rule.le_tokenStart (skipsAhead src) true (Place.opened (beyond.closed start))
    refine List.forall_mem_cons.mpr ⟨fun _ => (hreceiver.trans hskip).trans_lt hlt,
      List.forall_mem_cons.mpr ⟨fun hlist => ?_, List.forall_mem_nil _⟩⟩
    exact absurd hlist (by decide : "field_identifier" ∉ parameterKinds)

theorem settles_unary (src : Chars) : unary.Settles grammar src (fun _ => true) .go := by
  refine ⟨Rule.settles_plain isQuiet rfl, Rule.makes_any (Rule.forall_settles isQuiet 0 rfl rfl
    (settles_funcLiteral src) (Rule.settles_all_plain isQuiet rfl)),
    Rule.settles_plain isQuiet rfl, rfl, rfl, rfl⟩

theorem settles_rule (src : Chars) (name : Phrase) :
    (grammar.rule name).Settles grammar src (fun _ => true) .go := by
  cases name with
  | unary => exact settles_unary src
  | _ => exact Rule.settles_plain isQuiet rfl

theorem rowsAre_tree (src : Chars) : (tree src).RowsAre (IsSettled .go src) := by
  have htopLevel : topLevel.Settles grammar src (fun _ => true) .go :=
    Rule.makes_any (Rule.forall_settles isQuiet 2 rfl rfl
      ⟨settles_function src, settles_method src⟩ (Rule.settles_all_plain isQuiet rfl))
  have hend : endOfStatement.Settles grammar src (fun _ => true) .go :=
    Rule.settles_plain isQuiet rfl
  refine rowsAre_treeOf isQuiet (fun _ => isSettled_quiet) (settles_rule src) ?_ rfl _ _
  exact Rule.makes_any (Rule.forall_settles isQuiet 0 rfl rfl ⟨htopLevel, hend⟩
    (Rule.settles_all_plain isQuiet rfl))

end Go

theorem rowsAre_treeIn (language : Language) (src : Chars) :
    (treeIn language src).RowsAre (IsSettled language src) := by
  cases language with
  | typescript => exact Script.rowsAre_tree _ src
  | tsx => exact Script.rowsAre_tree _ src
  | javascript => exact Script.rowsAre_tree _ src
  | python => exact Python.rowsAre_tree src
  | bash => exact Bash.rowsAre_tree src
  | rust => exact Rust.rowsAre_tree src
  | go => exact Go.rowsAre_tree src

end FossilRecord.Source
