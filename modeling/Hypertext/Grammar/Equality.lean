import Hypertext.Grammar.Node

/-!
# Equality of nodes

Two nodes are equal if they are built in the same way from equal attributes and equal texts, and
those are compared without their positions.
-/

namespace Hypertext

mutual

/-- Equality of nodes, positions apart. -/
def Node.beq {c : Category} : Node c → Node c → Bool
  | .plain x, .plain y => x == y
  | @Node.lift b _ _ m, @Node.lift b' _ _ n => if h : b = b' then m.beq (h ▸ n) else false
  | .void k as, .void l bs => k == l && as == bs
  | .verbatim k as x, .verbatim l bs y => k == l && as == bs && x == y
  | @Node.element _ d k as xs, @Node.element _ d' l bs ys =>
    if h : d = d' then k == h ▸ l && as == bs && xs.beq (h ▸ ys) else false
  | .list k as x xs, .list l bs y ys => k == l && as == bs && x.beq y && xs.beq ys
  | .definitions as hs, .definitions bs is => as == bs && hs == is
  | .form as hs, .form bs is => as == bs && hs == is
  | .map as hs, .map bs is => as == bs && hs == is
  | .media k as hs xs, .media l bs is ys => k == l && as == bs && hs == is && xs.beq ys
  | .heading k as xs, .heading l bs ys => k == l && as == bs && xs.beq ys
  | .paragraph as xs, .paragraph bs ys => as == bs && xs.beq ys
  | .table as none gs hs, .table bs none gs' hs' => as == bs && gs == gs' && hs == hs'
  | .table as (some x) gs hs, .table bs (some y) gs' hs' =>
    as == bs && x.beq y && gs == gs' && hs == hs'
  | .caption as xs, .caption bs ys => as == bs && xs.beq ys
  | .item as xs, .item bs ys => as == bs && xs.beq ys
  | .frames as xs, .frames bs ys => as == bs && xs.beq ys
  | _, _ => false
termination_by structural n => n

/-- Equality of sequences, positions apart. -/
def Content.beq {c : Category} : Content c → Content c → Bool
  | .nil, .nil => true
  | .cons x xs, .cons y ys => x.beq y && xs.beq ys
  | _, _ => false
termination_by structural xs => xs

end

instance {c : Category} : BEq (Node c) where
  beq := Node.beq

instance {c : Category} : BEq (Content c) where
  beq := Content.beq

end Hypertext
