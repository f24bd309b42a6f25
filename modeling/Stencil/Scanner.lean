import Stencil.Cursor

/-!
# Scanners

A scanner scans one template and numbers the loops it meets.  Its position can
be taken at any time and put into any scanner later, which scans on from there
as if it had never been elsewhere; only the number of the next loop is never
put back.

A position taken in another template is known by its byte offset alone.
Beyond the end of the template it acts as the end.  Inside a character there
is nothing to scan.
-/

namespace Stencil

/-- The characters after the first `bytes` bytes, unless these end inside a character. -/
def charsAfter (bytes : Nat) : List Char → Option (List Char)
  | [] => some []
  | c :: rest =>
      if bytes = 0 then some (c :: rest)
      else if bytes < c.utf8Size then none
      else charsAfter (bytes - c.utf8Size) rest

inductive Scan where
  | token (found : Token)
  | failure (error : ScanError)
  | insideCharacter
  deriving DecidableEq, Repr

/-- After these scans every further one comes to the same. -/
def Scan.isLast : Scan → Bool
  | .token found => found.kind = .endOfInput
  | .failure _ | .insideCharacter => true

structure Scanner where
  template : List Char
  position : Position
  loops : Nat
  deriving DecidableEq, Repr

namespace Scanner

def ofTemplate (template : String) : Scanner := ⟨template.toList, .start, 0⟩

/--
The cursor of the next scan, if there is one.  An owed opening is handed out
without reading, wherever the position is.
-/
def cursor? (scanner : Scanner) : Option Cursor :=
  match charsAfter scanner.position.place.offset scanner.template, scanner.position.owed with
  | some ahead, _ => some ⟨scanner.position, ahead⟩
  | none, some _ => some ⟨scanner.position, []⟩
  | none, none => none

/-- Inside a character a scan changes nothing. -/
def scan (scanner : Scanner) : Scan × Scanner :=
  match scanner.cursor? with
  | none => (.insideCharacter, scanner)
  | some cursor =>
      match cursor.next scanner.loops with
      | (.ok token, loops, cursor) =>
          (.token token, { scanner with position := cursor.position, loops := loops })
      | (.error error, loops, cursor) =>
          (.failure error, { scanner with position := cursor.position, loops := loops })

def seek (scanner : Scanner) (position : Position) : Scanner :=
  { scanner with position := position }

/-- The scans up to the first that is the last, those already made in reverse. -/
def drainFrom (made : List Scan) : Nat → Scanner → List Scan × Scanner
  | 0, scanner => (made.reverse, scanner)
  | bound + 1, scanner =>
      match scanner.scan with
      | (scan, scanner) =>
          if scan.isLast then ((scan :: made).reverse, scanner)
          else drainFrom (scan :: made) bound scanner

def drain (scanner : Scanner) : List Scan × Scanner :=
  scanner.drainFrom [] (scanner.template.length + 2)

end Scanner

end Stencil
