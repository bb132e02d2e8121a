/-!
# YAML nodes

What a YAML document says once its anchors are resolved. A plain scalar, which stands without
quotes, may be read as a number or a truth value; any other scalar is text only.
-/

namespace Chalkboard.Yaml

/-- A node of a document. -/
inductive Node where
  | scalar (plain : Bool) (text : String)
  | sequence (items : List Node)
  | mapping (entries : List (Node × Node))
  deriving Repr, Inhabited

namespace Node

/-- What stands where nothing is written. -/
def absent : Node :=
  .scalar true ""

/-- Nothing is written here. -/
def isAbsent : Node → Bool
  | .scalar true "" => true
  | _ => false

end Node

end Chalkboard.Yaml
