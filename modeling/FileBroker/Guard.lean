import FileBroker.Text.Quoted

namespace FileBroker

inductive Ending
  | finished | panicked
  deriving DecidableEq, Repr

-- An action that runs once: early, if its owner says so, and otherwise when the owner goes away.
structure Guard where
  label : String
  done  : Bool := false
  deriving DecidableEq, Repr

namespace Guard

-- Runs the action unless it ran before, and says whether it did. However the action ends, it has
-- run, and a panic goes no further.
def run (action : σ → Ending × σ) (g : Guard) (s : σ) : Bool × Guard × σ :=
  if g.done then (false, g, s) else (true, { g with done := true }, (action s).2)

def drop (action : σ → Ending × σ) (g : Guard) (s : σ) : σ :=
  (g.run action s).2.2

def text (g : Guard) : String :=
  s!"CleanupGuard \x7b label: {Quoted.text g.label}, done: {g.done} \x7d"

end Guard

end FileBroker
