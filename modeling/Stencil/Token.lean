/-!
# Tokens of a template

A template is text interrupted by tags between double braces.  Scanning it
yields lexemes; a token is a lexeme together with where it begins and, for the
opening of a loop, the number that tells it from every other opening.
-/

namespace Stencil

/-! ## Places -/

structure Span where
  line : Nat
  column : Nat
  deriving DecidableEq, Repr

def Span.text (span : Span) : String :=
  "line " ++ toString span.line ++ " column " ++ toString span.column

/--
A point of a template.  The offset counts bytes of UTF-8 from zero; the line
and the column count characters from one.
-/
structure Place where
  offset : Nat
  line : Nat
  column : Nat
  deriving DecidableEq, Repr

namespace Place

def start : Place := ⟨0, 1, 1⟩

def span (here : Place) : Span := ⟨here.line, here.column⟩

/-- Only a line feed begins a new line. -/
def advance (here : Place) (passed : Char) : Place :=
  if passed = '\n' then ⟨here.offset + passed.utf8Size, here.line + 1, 1⟩
  else ⟨here.offset + passed.utf8Size, here.line, here.column + 1⟩

def after (here : Place) (passed : List Char) : Place :=
  passed.foldl advance here

@[simp] theorem after_nil (here : Place) : here.after [] = here := rfl

@[simp] theorem after_cons (here : Place) (c : Char) (passed : List Char) :
    here.after (c :: passed) = (here.advance c).after passed := rfl

theorem after_append (here : Place) (first second : List Char) :
    here.after (first ++ second) = (here.after first).after second :=
  List.foldl_append

end Place

/-! ## Kinds and tokens -/

inductive TokenKind where
  | endOfInput
  | literal
  | scriptBegin
  | scriptEnd
  | identifier
  | loopBegin
  | loopEnd
  deriving DecidableEq, Repr

def TokenKind.name : TokenKind → String
  | .endOfInput => "EOF"
  | .literal => "LITERAL"
  | .scriptBegin => "SCRIPT_BEGIN"
  | .scriptEnd => "SCRIPT_END"
  | .identifier => "IDENTIFIER"
  | .loopBegin => "LOOP_BEGIN"
  | .loopEnd => "LOOP_END"

structure Token where
  kind : TokenKind
  text : String
  span : Span
  deriving DecidableEq, Repr

/-- Tokens agree when they say the same, wherever they stand. -/
def Token.Agrees (first second : Token) : Prop :=
  first.kind = second.kind ∧ first.text = second.text

instance (first second : Token) : Decidable (first.Agrees second) :=
  inferInstanceAs (Decidable (_ ∧ _))

/-! ## Lexemes -/

/-- What a scanner recognises, before loops are numbered. -/
inductive Lexeme where
  | endOfInput
  | literal (text : String)
  | scriptBegin
  | scriptEnd
  | identifier (name : String)
  | loopBegin
  | loopEnd
  deriving DecidableEq, Repr

namespace Lexeme

def kind : Lexeme → TokenKind
  | .endOfInput => .endOfInput
  | .literal _ => .literal
  | .scriptBegin => .scriptBegin
  | .scriptEnd => .scriptEnd
  | .identifier _ => .identifier
  | .loopBegin => .loopBegin
  | .loopEnd => .loopEnd

def loopTag (number : Nat) : String := "loop" ++ toString number

/-- The text of the token, `loops` being the number of the next loop. -/
def text (loops : Nat) : Lexeme → String
  | .endOfInput => ""
  | .literal text => text
  | .scriptBegin => "\x7b\x7b"
  | .scriptEnd => "\x7d\x7d"
  | .identifier name => name
  | .loopBegin => loopTag loops
  | .loopEnd => "/loop"

def token (lexeme : Lexeme) (loops : Nat) (span : Span) : Token :=
  ⟨lexeme.kind, lexeme.text loops, span⟩

def loops : Lexeme → Nat
  | .loopBegin => 1
  | _ => 0

@[simp] theorem token_kind (lexeme : Lexeme) (loops : Nat) (span : Span) :
    (lexeme.token loops span).kind = lexeme.kind := rfl

@[simp] theorem token_text (lexeme : Lexeme) (loops : Nat) (span : Span) :
    (lexeme.token loops span).text = lexeme.text loops := rfl

end Lexeme

end Stencil
