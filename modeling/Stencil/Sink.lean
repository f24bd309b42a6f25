/-!
# Sinks

A sink takes the output of a rendering piece by piece.  It may hold text from
before, and it may refuse every piece after a given number.
-/

namespace Stencil

structure Sink where
  before : String
  pieces : Array String
  capacity : Option Nat
  deriving DecidableEq, Repr

namespace Sink

def unlimited (before : String) : Sink := ⟨before, #[], none⟩

def limited (before : String) (capacity : Nat) : Sink := ⟨before, #[], some capacity⟩

def accepts (sink : Sink) : Bool :=
  sink.capacity.all (sink.pieces.size < ·)

/-- The sink after a piece it takes; an empty piece counts like any other. -/
def add (sink : Sink) (piece : String) : Sink :=
  { sink with pieces := sink.pieces.push piece }

def text (sink : Sink) : String := sink.pieces.foldl (· ++ ·) sink.before

def writes (sink : Sink) : Nat := sink.pieces.size

end Sink

end Stencil
