import Stencil.Token

/-!
# What can go wrong

A fault says what is wrong, an error adds where.  Each has one message.  The
message of a fault in scanning follows its location, the message of a
misplaced token precedes it.
-/

namespace Stencil

/-! ## Scanning -/

inductive ScanFault where
  | unexpectedCharacter (found : Char)
  | invalidKeyword (sigil : Char)
  | unterminatedTag
  deriving DecidableEq, Repr

def ScanFault.message : ScanFault → String
  | .unexpectedCharacter found =>
      "cannot recognize character '" ++ String.singleton found ++ "'"
  | .invalidKeyword sigil =>
      "invalid keyword after '" ++ String.singleton sigil ++ "', expected 'loop'"
  | .unterminatedTag => "end of input inside a tag, expected '\x7d\x7d'"

structure ScanError where
  fault : ScanFault
  span : Span
  deriving DecidableEq, Repr

def ScanError.message (error : ScanError) : String :=
  error.span.text ++ ": " ++ error.fault.message

/-! ## Grammar -/

inductive GrammarFault where
  | expected (wanted found : TokenKind) (text : String)
  | unexpected (found : TokenKind) (text : String)
  | unmatchedLoopEnd
  deriving DecidableEq, Repr

/-- A token in a message: its kind, and its text unless that is empty. -/
def GrammarFault.describe (kind : TokenKind) (text : String) : String :=
  "'" ++ kind.name ++ "'" ++ if text = "" then "" else " ('" ++ text ++ "')"

def GrammarFault.message : GrammarFault → String
  | .expected wanted found text =>
      "Expected '" ++ wanted.name ++ "' but got " ++ describe found text
  | .unexpected found text => "Unexpected token " ++ describe found text
  | .unmatchedLoopEnd => "Unmatched '" ++ TokenKind.loopEnd.name ++ "'"

structure GrammarError where
  fault : GrammarFault
  span : Span
  deriving DecidableEq, Repr

namespace GrammarError

def expected (wanted : TokenKind) (found : Token) : GrammarError :=
  ⟨.expected wanted found.kind found.text, found.span⟩

def unexpected (found : Token) : GrammarError :=
  ⟨.unexpected found.kind found.text, found.span⟩

/-- The end of a loop that was never begun is reported without its location. -/
def message (error : GrammarError) : String :=
  match error.fault with
  | .unmatchedLoopEnd => error.fault.message
  | _ => error.fault.message ++ " at " ++ error.span.text

end GrammarError

/-! ## Names -/

inductive NameError where
  | undefinedIdentifier (name : String)
  | undefinedArray (name : String)
  deriving DecidableEq, Repr

def NameError.message : NameError → String
  | .undefinedIdentifier name => "Identifier '" ++ name ++ "' is undefined"
  | .undefinedArray name => "Array '" ++ name ++ "' is undefined"

/-! ## Rendering -/

inductive RenderError where
  | lexical (error : ScanError)
  | grammar (error : GrammarError)
  | unresolved (error : NameError)
  | refusedWrite
  deriving DecidableEq, Repr

def RenderError.message : RenderError → String
  | .lexical error => error.message
  | .grammar error => error.message
  | .unresolved error => error.message
  | .refusedWrite => "failed to write rendered output"

end Stencil
