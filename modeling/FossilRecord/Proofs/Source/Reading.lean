import FossilRecord.Source.Rule

/-!
# What a rule takes

The reader tries alternatives, gives up on some and counts its fuel.  `Takes` says what is left of
that when it succeeds: which rule took which nodes between which places.  A fact about all that a
grammar can take is then proved by one induction, with one case for each kind of rule.
-/

namespace FossilRecord.Source

variable {N σ : Type}

open Rule (tokenStart)

/-- Whether a rule can take some nodes on the way from one place to another.  What the reader has
tried in vain, and when it stops repeating, is left open. -/
inductive Takes (g : Grammar N σ) (src : Chars) :
    Rule N σ → Place σ → List Node → Place σ → Prop where
  | empty {here : Place σ} : Takes g src .empty here [] here
  | token {here : Place σ} {spaced : Bool} {lexeme : Lexeme σ} {stop : Nat} {context : σ}
      (hlexeme : lexeme src here.context (tokenStart g src spaced here) = some (stop, context))
      (hlt : tokenStart g src spaced here < stop) :
      Takes g src (.token spaced lexeme) here []
        ⟨stop, here.first?.or (some (tokenStart g src spaced here)), context⟩
  | mark {here : Place σ} {spaced : Bool} {lexeme : Lexeme σ} {stop : Nat} {context : σ}
      (hlexeme : lexeme src here.context (tokenStart g src spaced here) = some (stop, context))
      (hle : stop ≤ tokenStart g src spaced here) :
      Takes g src (.token spaced lexeme) here [] { here with context := context }
  | seq {first second : Rule N σ} {here there beyond : Place σ} {xs ys : List Node}
      (hfirst : Takes g src first here xs there) (hsecond : Takes g src second there ys beyond) :
      Takes g src (.seq first second) here (xs ++ ys) beyond
  | altFirst {first second : Rule N σ} {here there : Place σ} {xs : List Node}
      (hfirst : Takes g src first here xs there) : Takes g src (.alt first second) here xs there
  | altSecond {first second : Rule N σ} {here there : Place σ} {xs : List Node}
      (hsecond : Takes g src second here xs there) : Takes g src (.alt first second) here xs there
  | manyEnd {item : Rule N σ} {here : Place σ} : Takes g src (.many item) here [] here
  | manyMore {item : Rule N σ} {here there beyond : Place σ} {xs ys : List Node}
      (hitem : Takes g src item here xs there) (hmore : Takes g src (.many item) there ys beyond) :
      Takes g src (.many item) here (xs ++ ys) beyond
  | phrase {name : N} {here there : Place σ} {xs : List Node}
      (hrule : Takes g src (g.rule name) here xs there) : Takes g src (.phrase name) here xs there
  | node {kind : String} {body : Rule N σ} {here there : Place σ} {xs : List Node}
      (hbody : Takes g src body here.opened xs there) :
      Takes g src (.node kind body) here [.mk kind "" (there.startSince here) there.next xs]
        (there.closed here)
  | field {name : String} {body : Rule N σ} {here there : Place σ} {xs : List Node}
      (hbody : Takes g src body here xs there) :
      Takes g src (.field name body) here (xs.map (·.withField name)) there
  | fold {base step : Rule N σ} {here there beyond : Place σ} {xs ys : List Node}
      (hbase : Takes g src base here.opened xs there)
      (hsteps : Takes g src (.many step) (there.closed here) ys beyond) :
      Takes g src (.fold base step) here (Rule.nest (there.startSince here) xs ys) beyond
  | ahead {wanted : Bool} {body : Rule N σ} {here : Place σ} :
      Takes g src (.ahead wanted body) here [] here
  | within {enter : σ → σ} {leave : σ → σ → σ} {body : Rule N σ} {here there : Place σ}
      {xs : List Node}
      (hbody : Takes g src body { here with context := enter here.context } xs there) :
      Takes g src (.within enter leave body) here xs
        { there with context := leave here.context there.context }

/-! ## What was taken by a rule of a kind -/

namespace Takes

variable {g : Grammar N σ} {src : Chars} {here there : Place σ} {xs : List Node}

theorem of_seq {first second : Rule N σ} (h : Takes g src (.seq first second) here xs there) :
    ∃ ys zs middle, xs = ys ++ zs ∧ Takes g src first here ys middle ∧
      Takes g src second middle zs there := by
  cases h with
  | seq hfirst hsecond => exact ⟨_, _, _, rfl, hfirst, hsecond⟩

theorem of_alt {first second : Rule N σ} (h : Takes g src (.alt first second) here xs there) :
    Takes g src first here xs there ∨ Takes g src second here xs there := by
  cases h with
  | altFirst hfirst => exact .inl hfirst
  | altSecond hsecond => exact .inr hsecond

theorem of_opt {r : Rule N σ} (h : Takes g src (.opt r) here xs there) :
    xs = [] ∨ Takes g src r here xs there := by
  rcases h.of_alt with hr | hnone
  · exact .inr hr
  · cases hnone
    exact .inl rfl

theorem of_phrase {name : N} (h : Takes g src (.phrase name) here xs there) :
    Takes g src (g.rule name) here xs there := by
  cases h with
  | phrase hrule => exact hrule

theorem of_within {enter : σ → σ} {leave : σ → σ → σ} {body : Rule N σ}
    (h : Takes g src (.within enter leave body) here xs there) :
    ∃ before after, Takes g src body before xs after := by
  cases h with
  | within hbody => exact ⟨_, _, hbody⟩

/-- A node ends with what was taken for it. -/
theorem of_node {kind : String} {body : Rule N σ}
    (h : Takes g src (.node kind body) here xs there) :
    ∃ ys beyond, xs = [.mk kind "" (beyond.startSince here) there.next ys] ∧
      there = beyond.closed here ∧ Takes g src body here.opened ys beyond := by
  cases h with
  | node hbody => exact ⟨_, _, rfl, rfl, hbody⟩

theorem of_field {name : String} {body : Rule N σ}
    (h : Takes g src (.field name body) here xs there) :
    ∃ ys, xs = ys.map (·.withField name) ∧ Takes g src body here ys there := by
  cases h with
  | field hbody => exact ⟨_, rfl, hbody⟩

theorem nodes_of_token {spaced : Bool} {lexeme : Lexeme σ}
    (h : Takes g src (.token spaced lexeme) here xs there) : xs = [] := by
  cases h <;> rfl

/-- A token that is never empty starts where it is looked for, and ends after that. -/
theorem of_token {spaced : Bool} {lexeme : Lexeme σ}
    (h : Takes g src (.token spaced lexeme) here xs there)
    (hlong : ∀ context i stop context', lexeme src context i = some (stop, context') → i < stop) :
    tokenStart g src spaced here < there.next ∧
      ∃ context, lexeme src here.context (tokenStart g src spaced here) =
        some (there.next, context) := by
  cases h with
  | token hlexeme hlt => exact ⟨hlt, _, hlexeme⟩
  | mark hlexeme hle => exact absurd (hlong _ _ _ _ hlexeme) (by omega)

end Takes

/-! ## What is read -/

namespace Rule

variable {g : Grammar N σ} {src : Chars} {again : Rule N σ → Place σ → Reading σ}

theorem takes_of_readToken {spaced : Bool} {lexeme : Lexeme σ} {here there : Place σ}
    {xs : List Node} (h : readToken g src spaced lexeme here = some (there, xs)) :
    Takes g src (.token spaced lexeme) here xs there := by
  unfold readToken at h
  split at h
  · cases h
  · rename_i stop context hlexeme
    split at h
    · rename_i hlt
      cases h
      exact .token hlexeme hlt
    · rename_i hge
      cases h
      exact .mark hlexeme (Nat.le_of_not_lt hge)

/-- What is read at one level is taken, if what is read further down is. -/
theorem takes_of_readWith
    (hagain : ∀ r here there xs, again r here = some (there, xs) → Takes g src r here xs there)
    (r : Rule N σ) {here there : Place σ} {xs : List Node}
    (h : readWith g src again r here = some (there, xs)) : Takes g src r here xs there := by
  induction r generalizing here there xs with
  | empty =>
      cases h
      exact .empty
  | token spaced lexeme => exact takes_of_readToken h
  | seq first second ihfirst ihsecond =>
      rw [readWith] at h
      split at h
      · cases h
      · rename_i hfirst
        split at h
        · cases h
        · rename_i hsecond
          cases h
          exact .seq (ihfirst hfirst) (ihsecond hsecond)
  | alt first second ihfirst ihsecond =>
      rw [readWith] at h
      split at h
      · exact .altSecond (ihsecond h)
      · exact .altFirst (ihfirst h)
  | many item ih =>
      rw [readWith] at h
      split at h
      · cases h
        exact .manyEnd
      · rename_i hitem
        split at h
        · cases h
          exact .manyEnd
        · split at h
          · cases h
            simpa using Takes.manyMore (ih hitem) .manyEnd
          · rename_i hmore
            cases h
            exact .manyMore (ih hitem) (hagain _ _ _ _ hmore)
  | phrase name => exact .phrase (hagain _ _ _ _ h)
  | node kind body ih =>
      rw [readWith] at h
      split at h
      · cases h
      · rename_i hbody
        cases h
        exact .node (ih hbody)
  | field name body ih =>
      rw [readWith] at h
      split at h
      · cases h
      · rename_i hbody
        cases h
        exact .field (ih hbody)
  | fold base step ihbase _ =>
      rw [readWith] at h
      split at h
      · cases h
      · rename_i hbase
        dsimp only at h
        split at h
        · cases h
          exact .fold (ihbase hbase) .manyEnd
        · rename_i hsteps
          cases h
          exact .fold (ihbase hbase) (hagain _ _ _ _ hsteps)
  | ahead wanted body _ =>
      rw [readWith] at h
      split at h <;> split at h <;> cases h <;> exact .ahead
  | within enter leave body ih =>
      rw [readWith] at h
      split at h
      · cases h
      · rename_i hbody
        cases h
        exact .within (ih hbody)

/-- What is read is taken. -/
theorem takes_of_read {fuel : Nat} {r : Rule N σ} {here there : Place σ} {xs : List Node}
    (h : read g src fuel r here = some (there, xs)) : Takes g src r here xs there := by
  induction fuel generalizing r here there xs with
  | zero => cases h
  | succ fuel ih => exact takes_of_readWith (fun _ _ _ _ => ih) r h

end Rule

/-- The root of a tree has nothing below it, or what its rule takes from the front of the text. -/
theorem children_treeOf {g : Grammar N σ} (context : σ) (root : String) (body : Rule N σ)
    (src : Chars) : (treeOf g context root body src).children = [] ∨
      ∃ there, Takes g src body ⟨0, none, context⟩ (treeOf g context root body src).children
        there := by
  unfold treeOf
  split
  · rename_i there _ hread
    exact .inr ⟨there, Rule.takes_of_read hread⟩
  · exact .inl rfl

end FossilRecord.Source
