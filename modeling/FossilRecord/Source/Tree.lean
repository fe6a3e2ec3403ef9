/-!
# Syntax trees

A tree over the characters of a source text.  Every node has a kind, a span of characters, perhaps
the name of the field it fills in its parent, and children in the order of the text.
-/

namespace FossilRecord.Source

/-- A node of a syntax tree; it spans the characters from `start` up to `stop`. -/
inductive Node where
  | mk (kind field : String) (start stop : Nat) (children : List Node)
deriving Repr, Inhabited

namespace Node

/-- The kind of a node. -/
def kind : Node → String
  | mk kind _ _ _ _ => kind

/-- The field that a node fills; empty when it fills none. -/
def field : Node → String
  | mk _ field _ _ _ => field

/-- The index of the first character. -/
def start : Node → Nat
  | mk _ _ start _ _ => start

/-- The index after the last character. -/
def stop : Node → Nat
  | mk _ _ _ stop _ => stop

/-- The children in the order of the text. -/
def children : Node → List Node
  | mk _ _ _ _ children => children

/-- A node that fills a field. -/
def withField (name : String) : Node → Node
  | mk kind _ start stop children => mk kind name start stop children

/-- A node that starts earlier and has more children before its own. -/
def extend (from_ : Nat) (left : List Node) : Node → Node
  | mk kind field _ stop children => mk kind field from_ stop (left ++ children)

/-- The first child that fills a field. -/
def childByField? (name : String) (n : Node) : Option Node :=
  n.children.find? (·.field = name)

/-- The first child of one of some kinds. -/
def childOfKind? (kinds : List String) (n : Node) : Option Node :=
  n.children.find? fun c => kinds.contains c.kind

end Node

/-- The characters of a source text. -/
abbrev Chars := Array Char

/-- The characters of a span. -/
def slice (src : Chars) (start stop : Nat) : List Char :=
  (src.extract start stop).toList

/-- The characters that a node spans. -/
def Node.chars (src : Chars) (n : Node) : List Char :=
  slice src n.start n.stop

/-- The row, from zero, that a character stands in. -/
def rowOf (src : Chars) (index : Nat) : Nat :=
  (slice src 0 index).count '\n'

end FossilRecord.Source
