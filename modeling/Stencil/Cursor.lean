import Stencil.Text
import Stencil.Tag

/-!
# Scanning

A cursor is a position in a template together with the characters ahead of it.
Scanning returns one lexeme and the cursor after it.  A text that ends at an
opening tag is returned first; the opening is then owed, and the next scan
hands it out without reading.
-/

namespace Stencil

inductive Mode where
  | text
  | tag
  deriving DecidableEq, Repr

/--
Where scanning stands.  While an opening tag is owed, `owed` is where it was
met and `place` is already behind it.
-/
structure Position where
  place : Place
  mode : Mode
  owed : Option Span
  deriving DecidableEq, Repr

def Position.start : Position := ⟨.start, .text, none⟩

/-- Closing braces return to text, every other item leaves more of the tag. -/
def TagItem.modeAfter : TagItem → Mode
  | .close => .text
  | _ => .tag

structure Cursor where
  position : Position
  ahead : List Char
  deriving DecidableEq, Repr

namespace Cursor

def ofTemplate (template : String) : Cursor := ⟨.start, template.toList⟩

/-- Scanning outside a tag never fails.  At the end of the input it does not move. -/
def scanText (place : Place) (ahead : List Char) : (Lexeme × Span) × Cursor :=
  let run := TextRun.read ahead
  let stop := place.after run.spelling
  let text := String.ofList run.meaning
  match run.pieces, run.beyond with
  | [], none => ((.endOfInput, place.span), ⟨⟨place, .text, none⟩, []⟩)
  | [], some beyond =>
      ((.scriptBegin, place.span), ⟨⟨place.after ['{', '{'], .tag, none⟩, beyond⟩)
  | _ :: _, none => ((.literal text, place.span), ⟨⟨stop, .text, none⟩, []⟩)
  | _ :: _, some beyond =>
      ((.literal text, place.span),
        ⟨⟨stop.after ['{', '{'], .tag, some stop.span⟩, beyond⟩)

/-- Inside a tag blanks are passed over first, also when no item follows them. -/
def scanTag (place : Place) (ahead : List Char) : Except ScanError (Lexeme × Span) × Cursor :=
  let here := place.after (ahead.takeWhile TagItem.isBlank)
  let items := ahead.dropWhile TagItem.isBlank
  match TagItem.read items with
  | .error fault => (.error ⟨fault, here.span⟩, ⟨⟨here, .tag, none⟩, items⟩)
  | .ok item =>
      (.ok (item.lexeme, here.span),
        ⟨⟨here.after item.spelling, item.modeAfter, none⟩, items.drop item.spelling.length⟩)

def scan (cursor : Cursor) : Except ScanError (Lexeme × Span) × Cursor :=
  match cursor.position.owed with
  | some span => (.ok (.scriptBegin, span), { cursor with position.owed := none })
  | none =>
      match cursor.position.mode with
      | .text =>
          let (scanned, next) := scanText cursor.position.place cursor.ahead
          (.ok scanned, next)
      | .tag => scanTag cursor.position.place cursor.ahead

def next (loops : Nat) (cursor : Cursor) : Except ScanError Token × Nat × Cursor :=
  match cursor.scan with
  | (.ok (lexeme, span), after) =>
      (.ok (lexeme.token loops span), loops + lexeme.loops, after)
  | (.error error, after) => (.error error, loops, after)

/--
A bound on the scans until the end of the input or an error: every other scan
reads a character, unless it hands out an opening that is owed.
-/
def scanBound (cursor : Cursor) : Nat :=
  cursor.ahead.length + (if cursor.position.owed.isSome then 2 else 1)

/-- The tokens up to the end of the input, those already found in reverse. -/
def tokensFrom (found : List Token) : Nat → Nat → Cursor → Except ScanError (List Token)
  | 0, _, _ => .ok found.reverse
  | bound + 1, loops, cursor =>
      match cursor.next loops with
      | (.error error, _, _) => .error error
      | (.ok token, loops, cursor) =>
          if token.kind = .endOfInput then .ok (token :: found).reverse
          else tokensFrom (token :: found) bound loops cursor

end Cursor

def tokensOf (template : String) : Except ScanError (List Token) :=
  let cursor := Cursor.ofTemplate template
  cursor.tokensFrom [] cursor.scanBound 0

end Stencil
