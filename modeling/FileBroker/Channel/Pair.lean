import FileBroker.Channel.Basic

namespace FileBroker

inductive Side
  | left | right
  deriving DecidableEq, Repr

-- Two connected channels, each of them there until it is closed.
structure Pair (δ : Type) where
  left  : Option (Channel δ) := some {}
  right : Option (Channel δ) := some {}

namespace Pair

variable {δ : Type}

def at? (p : Pair δ) : Side → Option (Channel δ)
  | .left  => p.left
  | .right => p.right

def set (p : Pair δ) (side : Side) (c : Option (Channel δ)) : Pair δ :=
  match side with
  | .left  => { p with left := c }
  | .right => { p with right := c }

def otherSide : Side → Side
  | .left  => .right
  | .right => .left

def deliver (segments : List (Segment δ)) (c : Channel δ) : Channel δ :=
  { c with inbound := segments.foldl Inbound.push c.inbound }

-- Lets one end act, unless it is closed.
def act (p : Pair δ) (side : Side) (f : Channel δ → α × Channel δ) : Option α × Pair δ :=
  match p.at? side with
  | none => (none, p)
  | some c =>
    let (result, d) := f c
    let p := p.set side (some { d with sent := [] })
    (some result, p.set (otherSide side) ((p.at? (otherSide side)).map (deliver d.sent)))

def close (p : Pair δ) (side : Side) : Pair δ :=
  match p.at? side with
  | none => p
  | some c =>
    let hangUp (other : Channel δ) : Channel δ :=
      { other with
        inbound  := { other.inbound with ended := true, reset := !c.inbound.queue.isEmpty }
        patience := some 0 }
    (p.set side none).set (otherSide side) ((p.at? (otherSide side)).map hangUp)

end Pair

end FileBroker
