import FossilRecord.Source.Outline

/-!
# What all symbols of an outline share

The walk over a syntax tree puts together what single nodes report, so what holds of every report
holds of all symbols that are found.
-/

namespace FossilRecord.Source

variable {sheet : Sheet}

/-! ## One report -/

theorem file_of_mem_report {anchor declaration : Node} {base : SymbolType} {s : LiveSymbol}
    (hs : s ∈ report sheet anchor declaration base) : s.file = sheet.label := by
  unfold report at hs
  split at hs
  · cases hs
  · dsimp only at hs
    split at hs
    · rw [List.mem_singleton.mp hs]
    · cases hs

theorem file_of_mem_reportNode {n : Node} {s : LiveSymbol} (hs : s ∈ reportNode sheet n) :
    s.file = sheet.label := by
  unfold reportNode at hs
  split at hs
  · exact file_of_mem_report hs
  · split at hs
    · exact file_of_mem_report hs
    · cases hs
  · cases hs

/-! ## The walk -/

variable {P : LiveSymbol → Prop}

mutual

/-- What holds of all reports of single nodes holds of all symbols that a walk finds. -/
theorem forall_mem_walk (hnode : ∀ n, ∀ s ∈ reportNode sheet n, P s) (room : Nat)
    (covered : Bool) : (n : Node) → ∀ s ∈ walk sheet room covered n, P s
  | .mk kind field start stop children => by
      intro s hs
      cases room with
      | zero => simp [walk] at hs
      | succ room =>
          simp only [walk, List.mem_append] at hs
          rcases hs with hown | hbelow
          · split at hown
            · cases hown
            · exact hnode _ s hown
          · exact forall_mem_walkAll hnode room _ children s hbelow

theorem forall_mem_walkAll (hnode : ∀ n, ∀ s ∈ reportNode sheet n, P s) (room : Nat)
    (pending : Bool) : (ns : List Node) → ∀ s ∈ walkAll sheet room pending ns, P s
  | [] => by simp [walkAll]
  | n :: rest => by
      intro s hs
      simp only [walkAll, List.mem_append] at hs
      rcases hs with hfirst | hrest
      · exact forall_mem_walk hnode room _ n s hfirst
      · exact forall_mem_walkAll hnode room _ rest s hrest

end

/-- Every symbol is reported for the file that is outlined. -/
theorem file_of_mem_outlineTree {tree : Node} {s : LiveSymbol}
    (hs : s ∈ outlineTree sheet tree) : s.file = sheet.label :=
  forall_mem_walk (fun _ _ => file_of_mem_reportNode) (maxDepth + 1) false tree s hs

end FossilRecord.Source
