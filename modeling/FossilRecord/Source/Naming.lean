import FossilRecord.Source.Language
import FossilRecord.Text.Case

/-!
# What a name tells

A declaration of some kind is taken for a component, a hook or a store when its name follows the
convention for one.  The first convention that fits decides.
-/

namespace FossilRecord.Source

/-- Whether a name is `use` followed by a capital. -/
def isHookName (name : List Char) : Bool :=
  match name with
  | 'u' :: 's' :: 'e' :: c :: _ => Text.isUpper c
  | _ => false

/-- Whether a name is that of a store. -/
def isStoreName (name : List Char) : Bool :=
  Text.occursIn "Store".toList name || "create".toList.isPrefixOf name

/-- Whether a name starts with a capital. -/
def isCapitalised (name : List Char) : Bool :=
  match name with
  | c :: _ => Text.isUpper c
  | [] => false

/-- The kind of a declaration, given the kind that its node declares. -/
def classify (name : String) (base : SymbolType) (markup script : Bool) : SymbolType :=
  let cs := name.toList
  if markup && isCapitalised cs then .component
  else if isHookName cs then .hook
  else if script && isStoreName cs then .store
  else base

end FossilRecord.Source
