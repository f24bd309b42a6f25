/-!
# Display

What a terminal shows of a text.  Control characters are not shown, save those
that move to another column or line, nor is the control sequence that an
escape begins.  Only the controls of ASCII count as control characters.
-/

namespace Stencil.CommandLine

def isControl (c : Char) : Bool := c < ' ' || c = '\x7f'

def isSpacing (c : Char) : Bool := c = '\t' || c = '\n' || c = '\x0c' || c = '\r'

def isShown (c : Char) : Bool := isSpacing c || !isControl c

def isAscii (c : Char) : Bool := c.toNat < 0x80

/-! ## Control sequences -/

/--
A control sequence that has begun, by what it can go on with.  A device control
opens with parameters and intermediates before its string; a command runs on
to a bell.
-/
inductive ControlSequence where
  | escape
  | intermediate
  | parameters
  | device
  | deviceParameters
  | deviceIntermediate
  | string
  | command
  deriving DecidableEq, Repr

namespace ControlSequence

def isInterruptible : ControlSequence → Bool
  | .escape | .intermediate | .parameters => true
  | _ => false

/-- What a graphic character of ASCII makes of the sequence; it is over when there is none. -/
def afterGraphic? (c : Char) : ControlSequence → Option ControlSequence
  | .escape =>
      if c ≤ '/' then some .intermediate
      else
        match c with
        | '[' => some .parameters
        | ']' => some .command
        | 'P' => some .device
        | 'X' | '^' | '_' => some .string
        | _ => none
  | .intermediate => if c ≤ '/' then some .intermediate else none
  | .parameters => if c ≤ '?' then some .parameters else none
  | .device =>
      if c ≤ '/' then some .deviceIntermediate
      else if c ≤ '?' then some .deviceParameters
      else some .string
  | .deviceParameters =>
      if c ≤ '/' then some .deviceIntermediate
      else if c ≤ ';' then some .deviceParameters
      else some .string
  | .deviceIntermediate => if c ≤ '/' then some .deviceIntermediate else some .string
  | .string => some .string
  | .command => some .command

/-- A string ends at the byte 9C, inside the encoding of a character too. -/
def endsString (c : Char) : Bool := (String.utf8EncodeChar c).contains 0x9c

def next? (sequence : ControlSequence) (c : Char) : Option ControlSequence :=
  if isControl c then
    if sequence = .command && c = '\x07' then none else some sequence
  else if isAscii c then sequence.afterGraphic? c
  else if sequence = .string && endsString c then none
  else some sequence

end ControlSequence

/-! ## Showing -/

/--
Whether text or a control sequence is being received.  A spacing control
interrupts a sequence: text is shown until another control takes the sequence
up again, or a character beyond ASCII ends it.
-/
inductive Reception where
  | text (interrupted : Option ControlSequence)
  | within (sequence : ControlSequence)
  deriving DecidableEq, Repr

namespace Reception

def start : Reception := .text none

def ofSequence? : Option ControlSequence → Reception
  | none => start
  | some sequence => .within sequence

def shows : Reception → Char → Bool
  | .text _, c => isShown c
  | .within sequence, c => isSpacing c && sequence.isInterruptible

/-- An escape begins a sequence and a cancel ends one, whatever is received. -/
def next (reception : Reception) (c : Char) : Reception :=
  if c = '\x1b' then .within .escape
  else if c = '\x18' || c = '\x1a' then start
  else
    match reception with
    | .text interrupted =>
        if !isShown c then ofSequence? interrupted
        else if isAscii c then .text interrupted
        else start
    | .within sequence =>
        if isSpacing c && sequence.isInterruptible then .text (some sequence)
        else ofSequence? (sequence.next? c)

end Reception

/-- The characters shown so far, the last one first. -/
structure Display where
  reception : Reception
  shown : List Char
  deriving DecidableEq, Repr

namespace Display

def start : Display := ⟨.start, []⟩

def receive (display : Display) (c : Char) : Display :=
  ⟨display.reception.next c,
    if display.reception.shows c then c :: display.shown else display.shown⟩

def receiveAll (display : Display) (characters : List Char) : Display :=
  characters.foldl receive display

end Display

def shownText (text : String) : String :=
  String.ofList (Display.start.receiveAll text.toList).shown.reverse

end Stencil.CommandLine
