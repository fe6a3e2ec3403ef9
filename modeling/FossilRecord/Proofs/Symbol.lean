import FossilRecord.Proofs.Text.Blank
import FossilRecord.Symbol

/-!
# Kinds and their labels

Trimming a text twice trims it once, so the kind that a label names is named by its own label.
-/

namespace FossilRecord

namespace SymbolType

/-- Whether a kind is the one that its label names. -/
def IsNamed (k : SymbolType) : Prop :=
  ofLabel k.label = k

instance (k : SymbolType) : Decidable k.IsNamed := inferInstanceAs (Decidable (_ = _))

theorem isNamed_function : IsNamed .function := by decide

theorem isNamed_ofTrimmed {s : String} (hs : Text.trim s = s) : IsNamed (ofTrimmed s) := by
  by_cases hempty : s = ""
  · rw [hempty]
    decide
  · have hlabel : (ofTrimmed s).label = s := by
      rw [ofTrimmed, if_neg hempty]
      repeat' split
      all_goals first | rfl | (rename_i hs; exact hs.symm)
    rw [IsNamed, hlabel, ofLabel, hs]

/-- The kind that a label names is named by its own label. -/
theorem isNamed_ofLabel (s : String) : IsNamed (ofLabel s) :=
  isNamed_ofTrimmed (Text.trim_idem s)

end SymbolType

end FossilRecord
