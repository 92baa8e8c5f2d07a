namespace Mockup

inductive Tree (α : Type) where
  | node (item : α) (children : List (Tree α))

namespace Tree

variable {α : Type}

def item : Tree α → α
  | node a _ => a

def children : Tree α → List (Tree α)
  | node _ ts => ts

instance [Inhabited α] : Inhabited (Tree α) := ⟨node default []⟩

mutual

def subtrees : Tree α → List (Tree α)
  | node a ts => node a ts :: subtreesAll ts

def subtreesAll : List (Tree α) → List (Tree α)
  | [] => []
  | t :: ts => t.subtrees ++ subtreesAll ts

end

mutual

def preorder : Tree α → List α
  | node a ts => a :: preorderAll ts

def preorderAll : List (Tree α) → List α
  | [] => []
  | t :: ts => t.preorder ++ preorderAll ts

end

mutual

def postorder : Tree α → List α
  | node a ts => postorderAll ts ++ [a]

def postorderAll : List (Tree α) → List α
  | [] => []
  | t :: ts => t.postorder ++ postorderAll ts

end

end Tree

end Mockup
