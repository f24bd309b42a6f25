import Stencil.Journal

/-!
# Records

What a rendering records of its tokens, of its loops and of its end, told from
the records alone.  Those of loops are nested like brackets: each is in place
behind the records before it, which say how many loops have started and which
of them have not ended.
-/

namespace Stencil

/-! ## Tokens -/

def Token.record (token : Token) : Record :=
  ⟨.trace, "scanned token",
    [("kind", .text token.kind.name), ("text", .text token.text),
      ("line", .number token.span.line), ("column", .number token.span.column)]⟩

/-- No scan that fails is recorded. -/
def Scan.record? : Scan → Option Record
  | .token found => some found.record
  | .failure _ | .insideCharacter => none

namespace Journal

/-- The records of tokens, which only the finer level shows. -/
def scannedTokens (journal : Journal) : List Record :=
  (journal.records .trace).filter (·.message = "scanned token")

theorem scannedTokens_eq (journal : Journal) :
    journal.scannedTokens = journal.scans.filterMap Scan.record? := by
  have hevent (event : Event) :
      (event.record?.filter (Level.trace.shows ·.level)).filter (·.message = "scanned token") =
        event.scan?.bind Scan.record? := by
    cases event <;> rfl
  simp only [scannedTokens, records, scans, List.filter_filterMap, List.filterMap_filterMap, hevent]

end Journal

/-! ## Loops -/

/-- A loop that has started and not ended. -/
structure Bracket where
  frame : String
  count : Nat
  depth : Nat
  deriving DecidableEq, Repr

/-- No loop is over an empty array. -/
def AllFull (loops : List Bracket) : Prop := ∀ loop ∈ loops, 0 < loop.count

namespace Record

/--
What may be recorded after so many loops have started, of which the given ones
have not ended, the innermost first; and how many have started and which have
not ended then.
-/
inductive Moves (arrays : Arrays) :
    Nat → List Bracket → Record → Nat → List Bracket → Prop
  | loopStart {starts : Nat} {loops : List Bracket} {array item : String}
      {elements : List String} {emit : Bool} (harray : arrays.find? array = some elements)
      (hemit : emit = true ↔ AllFull loops) :
      Moves arrays starts loops
        ⟨.debug, "loop start",
          [("frame", .text (Lexeme.loopTag starts)), ("array", .text array),
            ("item", .text item), ("count", .number elements.length),
            ("depth", .number (loops.length + 1)), ("emit", .flag emit)]⟩
        (starts + 1) (⟨Lexeme.loopTag starts, elements.length, loops.length + 1⟩ :: loops)
  | loopEnd {starts : Nat} {frame : String} {count depth : Nat} {loops : List Bracket} :
      Moves arrays starts (⟨frame, count, depth + 1⟩ :: loops)
        ⟨.debug, "loop end", [("frame", .text frame), ("depth", .number depth)]⟩ starts loops
  | renderFinished {starts offset : Nat} :
      Moves arrays starts []
        ⟨.debug, "render finished", [("offset", .number offset)]⟩ starts []
  | other {starts : Nat} {loops : List Bracket} {record : Record}
      (h : record.message ∉ ["loop start", "loop end", "render finished"]) :
      Moves arrays starts loops record starts loops

/-- In the records so many loops have started, of which the given ones have not ended. -/
inductive Nested (arrays : Arrays) : List Record → Nat → List Bracket → Prop
  | nil : Nested arrays [] 0 []
  | concat {records : List Record} {record : Record} {starts starts' : Nat}
      {loops loops' : List Bracket} (h : Nested arrays records starts loops)
      (hrecord : record.Moves arrays starts loops starts' loops') :
      Nested arrays (records ++ [record]) starts' loops'

def Unfinished (records : List Record) : Prop :=
  ∀ record ∈ records, record.message ≠ "render finished"

/-- The last record, and no other, is that the rendering has finished. -/
def FinishedAt (offset : Nat) (records : List Record) : Prop :=
  ∃ earlier, Unfinished earlier ∧
    records = earlier ++ [⟨.debug, "render finished", [("offset", .number offset)]⟩]

end Record

end Stencil
