/-!
# Text between tags

Outside a tag every character stands for itself, except that two opening
braces begin a tag.  Two spellings write the pair as text: a backslash between
the braces, and a backslash in front of them.
-/

namespace Stencil

inductive TextPiece where
  | plain (c : Char)
  | splitBraces
  | guardedBraces
  deriving DecidableEq, Repr

namespace TextPiece

def spelling : TextPiece → List Char
  | .plain c => [c]
  | .splitBraces => ['{', '\\', '{']
  | .guardedBraces => ['\\', '{', '{']

def meaning : TextPiece → List Char
  | .plain c => [c]
  | .splitBraces | .guardedBraces => ['{', '{']

end TextPiece

/--
Text up to the next opening of a tag.  `beyond` is what follows that opening,
and is absent when the template ends first.
-/
structure TextRun where
  pieces : List TextPiece
  beyond : Option (List Char)
  deriving DecidableEq, Repr

namespace TextRun

def spelling (run : TextRun) : List Char := run.pieces.flatMap TextPiece.spelling

def meaning (run : TextRun) : List Char := run.pieces.flatMap TextPiece.meaning

/-- The part of the template the run leaves unread, opening braces included. -/
def rest (run : TextRun) : List Char :=
  match run.beyond with
  | none => []
  | some beyond => '{' :: '{' :: beyond

/-- Pieces are taken from the left; an opening is looked for first. -/
def readFrom (seen : List TextPiece) : List Char → TextRun
  | '{' :: '{' :: beyond => ⟨seen.reverse, some beyond⟩
  | '{' :: '\\' :: '{' :: ahead => readFrom (.splitBraces :: seen) ahead
  | '\\' :: '{' :: '{' :: ahead => readFrom (.guardedBraces :: seen) ahead
  | c :: ahead => readFrom (.plain c :: seen) ahead
  | [] => ⟨seen.reverse, none⟩

def read (ahead : List Char) : TextRun := readFrom [] ahead

theorem readFrom_append (seen earlier : List TextPiece) (ahead : List Char) :
    readFrom (seen ++ earlier) ahead =
      ⟨earlier.reverse ++ (readFrom seen ahead).pieces, (readFrom seen ahead).beyond⟩ := by
  fun_induction readFrom seen ahead with
  | case1 => simp [readFrom]
  | case2 _ ahead ih => simpa [readFrom] using ih
  | case3 _ ahead ih => simpa [readFrom] using ih
  | case4 _ c ahead noOpening noSplit noGuard ih =>
      rw [readFrom]
      · simpa using ih
      all_goals assumption
  | case5 => simp [readFrom]

private theorem readFrom_spelling (seen : List TextPiece) (ahead : List Char) :
    (readFrom seen ahead).spelling ++ (readFrom seen ahead).rest =
      seen.reverse.flatMap TextPiece.spelling ++ ahead := by
  fun_induction readFrom seen ahead with
  | case1 => rfl
  | case2 _ _ ih => simpa [TextPiece.spelling] using ih
  | case3 _ _ ih => simpa [TextPiece.spelling] using ih
  | case4 _ _ _ _ _ _ ih => simpa [TextPiece.spelling] using ih
  | case5 => rfl

theorem read_spelling (ahead : List Char) :
    (read ahead).spelling ++ (read ahead).rest = ahead := by
  simpa [read] using readFrom_spelling [] ahead

theorem meaning_eq_nil_iff (run : TextRun) : run.meaning = [] ↔ run.pieces = [] := by
  cases h : run.pieces with
  | nil => simp [meaning, h]
  | cons piece pieces => cases piece <;> simp [meaning, TextPiece.meaning, h]

theorem spelling_eq_nil_iff (run : TextRun) : run.spelling = [] ↔ run.pieces = [] := by
  cases h : run.pieces with
  | nil => simp [spelling, h]
  | cons piece pieces => cases piece <;> simp [spelling, TextPiece.spelling, h]

end TextRun

end Stencil
