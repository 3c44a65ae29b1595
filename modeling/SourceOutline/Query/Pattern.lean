/-! Patterns over syntax trees. A pattern asks for a node with certain children, or for one of
several alternatives, and tags what it finds. -/
namespace SourceOutline

inductive NodeTest where
  /-- A named node of a kind. -/
  | kind (name : String)
  /-- Any named node but errors. -/
  | named
  /-- Any node but errors. -/
  | any
deriving DecidableEq, Repr

inductive Pattern where
  /-- A node with children in the given order. -/
  | node (test : NodeTest) (children : List Pattern) (tags : List String)
  | choice (options : List Pattern) (tags : List String)
  /-- A node that stands in a field of its parent. -/
  | field (name : String) (p : Pattern)

abbrev Query := List Pattern

end SourceOutline
