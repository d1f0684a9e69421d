import ParseReplay.Plane.Bounds

/-!
# Placed parse trees

A parse tree whose labels have a place in the plane.

## Main definitions

* `ParseTree α`: a label, its box and the children
* `ParseTree.preorder`: a tree as a list of its nodes with their levels
-/

namespace ParseReplay

/-- A parse tree with the boxes of its labels. -/
inductive ParseTree (α : Type) where
  | node (label : String) (glyph : GlyphBox α) (children : List (ParseTree α))

namespace ParseTree

variable {α : Type}

/-- The label of the root. -/
def label : ParseTree α → String
  | node l _ _ => l

/-- The box of the root's label. -/
def glyph : ParseTree α → GlyphBox α
  | node _ g _ => g

/-- The trees below the root. -/
def children : ParseTree α → List (ParseTree α)
  | node _ _ cs => cs

mutual

/-- The nodes of a tree with their levels, a parent before its children. -/
def preorder (level : Nat) : ParseTree α → List (Nat × String × GlyphBox α)
  | node l g cs => (level, l, g) :: preorderForest (level + 1) cs

/-- The nodes of several trees with their levels, from left to right. -/
def preorderForest (level : Nat) : List (ParseTree α) → List (Nat × String × GlyphBox α)
  | [] => []
  | t :: ts => t.preorder level ++ preorderForest level ts

end

end ParseTree

end ParseReplay
