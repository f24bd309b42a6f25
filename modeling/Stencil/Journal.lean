import Stencil.Environment
import Stencil.Scanner

/-!
# The journal of a rendering

Rendering leaves a journal: what happened, and at each moment where the cursor
stood and which frames were open.  From it one reads the scans that were made,
and what is recorded of the events at either of two levels of detail, of which
the finer shows every token.
-/

namespace Stencil

/-- What asks for a token: a body between its blocks, or an unfinished tag. -/
inductive Site where
  | body
  | tag
  deriving DecidableEq, Repr

inductive Event where
  | renderStarted (bytes : Nat)
  | renderFinished (offset : Nat)
  | scanned (site : Site) (token : Token)
  | scanFailed (site : Site) (error : ScanError)
  | wrote (piece : String)
  | refused (piece : String)
  | loopStarted (frame array item : String) (count depth : Nat) (emit : Bool)
  | loopEnded (frame : String) (depth : Nat)
  | passStarted (emit : Bool)
  | passEnded
  deriving DecidableEq, Repr

/-- An event with the position and the environment right after it. -/
structure Moment where
  event : Event
  position : Position
  environment : Environment
  deriving Repr

abbrev Journal := Array Moment

/-! ## Records -/

inductive Level where
  | debug
  | trace
  deriving DecidableEq, Repr

def Level.name : Level → String
  | .debug => "DEBUG"
  | .trace => "TRACE"

/-- The finer level shows all that the coarser one shows. -/
def Level.shows : Level → Level → Bool
  | .trace, _ => true
  | .debug, level => level = .debug

@[simp] theorem Level.shows_debug (level : Level) : level.shows .debug = true := by
  cases level <;> rfl

inductive FieldValue where
  | text (value : String)
  | number (value : Nat)
  | flag (value : Bool)
  deriving DecidableEq, Repr

structure Record where
  level : Level
  message : String
  fields : List (String × FieldValue)
  deriving DecidableEq, Repr

def Event.record? : Event → Option Record
  | .renderStarted bytes => some ⟨.debug, "render start", [("len", .number bytes)]⟩
  | .renderFinished offset => some ⟨.debug, "render finished", [("offset", .number offset)]⟩
  | .scanned _ token =>
      some ⟨.trace, "scanned token",
        [("kind", .text token.kind.name), ("text", .text token.text),
          ("line", .number token.span.line), ("column", .number token.span.column)]⟩
  | .loopStarted frame array item count depth emit =>
      some ⟨.debug, "loop start",
        [("frame", .text frame), ("array", .text array), ("item", .text item),
          ("count", .number count), ("depth", .number depth), ("emit", .flag emit)]⟩
  | .loopEnded frame depth =>
      some ⟨.debug, "loop end", [("frame", .text frame), ("depth", .number depth)]⟩
  | .scanFailed .. | .wrote _ | .refused _ | .passStarted _ | .passEnded => none

/-- The scan that an event notes. -/
def Event.scan? : Event → Option Scan
  | .scanned _ token => some (.token token)
  | .scanFailed _ error => some (.failure error)
  | _ => none

namespace Journal

def events (journal : Journal) : List Event := journal.toList.map Moment.event

def records (journal : Journal) (level : Level) : List Record :=
  (journal.events.filterMap Event.record?).filter (level.shows ·.level)

def scans (journal : Journal) : List Scan := journal.events.filterMap Event.scan?

@[simp] theorem events_push (journal : Journal) (moment : Moment) :
    events (journal.push moment) = events journal ++ [moment.event] := by
  simp [events]

theorem records_push (journal : Journal) (moment : Moment) (level : Level) :
    records (journal.push moment) level =
      records journal level ++ moment.event.record?.toList.filter (level.shows ·.level) := by
  unfold records
  cases h : moment.event.record? <;> simp [h]

theorem scans_push (journal : Journal) (moment : Moment) :
    scans (journal.push moment) = scans journal ++ moment.event.scan?.toList := by
  unfold scans
  cases h : moment.event.scan? <;> simp [h]

end Journal

end Stencil
