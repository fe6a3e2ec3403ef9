import FossilRecord.Source.Grammar.Bash
import FossilRecord.Source.Grammar.Go
import FossilRecord.Source.Grammar.Python
import FossilRecord.Source.Grammar.Rust
import FossilRecord.Source.Grammar.Script.Statement
import FossilRecord.Source.Outline
import FossilRecord.Text.Octets

/-!
# From octets to symbols

A source file is decoded leniently, read as a syntax tree of its language and outlined.

The grammars describe texts without faults, and no fault is mended: no token is put in where one is
missing, and a statement that cannot be read to its end gives no node, not even for the part before
the fault.  Text is passed over as nodes of the kind `ERROR`, by single characters or in Python by
lines, until a statement can be read again.  In Go, for instance, `func foo() -> int {}` declares
nothing.  Parts of a text that can hold no declaration are passed over; each grammar says which.
-/

namespace FossilRecord.Source

/-- The syntax tree of a text. -/
def treeIn : Language → Chars → Node
  | .typescript, src => Script.Flavour.tree ⟨true, false⟩ src
  | .tsx, src => Script.Flavour.tree ⟨true, true⟩ src
  | .javascript, src => Script.Flavour.tree ⟨false, true⟩ src
  | .go, src => Go.tree src
  | .python, src => Python.tree src
  | .rust, src => Rust.tree src
  | .bash, src => Bash.tree src

/-- The symbols of a source text. -/
def extractChars (kind : FileKind) (label : String) (src : Chars) : List LiveSymbol :=
  outlineTree ⟨kind, src, label⟩ (treeIn kind.language src)

/-- The symbols of a source file's octets. -/
def extract (kind : FileKind) (label : String) (octets : List UInt8) : List LiveSymbol :=
  extractChars kind label (Text.lenient octets).toArray

end FossilRecord.Source
