import Stencil.Journal
import Stencil.Sink

/-!
# Rendering

A template is rendered straight from its tokens.  The body of a loop is
scanned once for every element: before each pass the cursor goes back to where
the body begins.  A loop without elements, and every loop inside it, is still
passed over once in silence, so that its faults are found and its end is.

Output is written as soon as it is known, and stays written when a fault stops
the rendering later.
-/

namespace Stencil

/-- The state of a rendering under way; `loops` is the number of the next loop. -/
structure Run where
  cursor : Cursor
  loops : Nat
  environment : Environment
  sink : Sink
  journal : Journal

/-- A step of a rendering.  An error leaves the state in which it arose. -/
abbrev Rendering := EStateM RenderError Run

namespace Rendering

def note (event : Event) : Rendering Unit :=
  modify fun run =>
    { run with journal := run.journal.push ⟨event, run.cursor.position, run.environment⟩ }

def fail {α : Type} (error : GrammarError) : Rendering α := throw (.grammar error)

def scan (site : Site) : Rendering Token := do
  let run ← get
  let (scanned, loops, cursor) := run.cursor.next run.loops
  set { run with cursor := cursor, loops := loops }
  match scanned with
  | .ok token =>
      note (.scanned site token)
      return token
  | .error error =>
      note (.scanFailed site error)
      throw (.lexical error)

def demand (kind : TokenKind) : Rendering Token := do
  let token ← scan .tag
  if token.kind = kind then return token else fail (.expected kind token)

def write (piece : String) : Rendering Unit := do
  if (← get).sink.accepts then
    modify fun run => { run with sink := run.sink.add piece }
    note (.wrote piece)
  else
    note (.refused piece)
    throw .refusedWrite

def resolve {α : Type} (found : Except NameError α) : Rendering α :=
  match found with
  | .ok value => return value
  | .error error => throw (.unresolved error)

/-- The value is written before the tag is known to be closed. -/
def insertValue (name : String) (emit : Bool) : Rendering Unit := do
  let value ← resolve ((← get).environment.value name)
  if emit then write value
  discard (demand .scriptEnd)

def setItem (item value : String) : Rendering Unit :=
  modify fun run => { run with environment := run.environment.define item value }

def seek (cursor : Cursor) : Rendering Unit :=
  modify fun run => { run with cursor := cursor }

/-- The passes over the body of a loop, `body` being one pass. -/
def passes (body : Bool → Rendering Unit) (item : String) (elements : List String)
    (emit : Bool) : Rendering Unit := do
  let start := (← get).cursor
  if emit && !elements.isEmpty then
    elements.forM fun element => do
      seek start
      setItem item element
      body true
  else
    setItem item ""
    body false

/--
A loop, the opening of which has been scanned as far as its keyword.  The
array has to be known before the item is named.
-/
def loop (body : Bool → Rendering Unit) (frame : String) (emit : Bool) :
    Rendering Unit := do
  let array := (← demand .identifier).text
  if !(← get).environment.hasArray array then
    throw (.unresolved (.undefinedArray array))
  let item := (← demand .identifier).text
  discard (demand .scriptEnd)
  modify fun run => { run with environment := run.environment.enter frame }
  let inside := (← get).environment
  let elements ← resolve (inside.array array)
  note (.loopStarted frame array item elements.length inside.depth emit)
  passes body item elements emit
  modify fun run => { run with environment := run.environment.leave.2 }
  note (.loopEnded frame (← get).environment.depth)

def pass (body : Bool → Rendering Unit) (emit : Bool) : Rendering Unit := do
  note (.passStarted emit)
  body emit
  note .passEnded

/-- A tag of which the first token has been scanned, and the blocks behind it. -/
def tag (rest : Bool → Rendering Unit) (emit : Bool) (token : Token) : Rendering Unit :=
  match token.kind with
  | .identifier => do
      insertValue token.text emit
      rest emit
  | .loopBegin => do
      loop (pass rest) token.text emit
      rest emit
  | .loopEnd => do
      if (← get).environment.atRoot then fail ⟨.unmatchedLoopEnd, token.span⟩
      discard (demand .scriptEnd)
  | _ => fail (.unexpected token)

/-- The next block of a body, and the blocks behind it. -/
def block (rest : Bool → Rendering Unit) (emit : Bool) : Rendering Unit := do
  let token ← scan .body
  match token.kind with
  | .endOfInput => return
  | .literal =>
      if emit then write token.text
      rest emit
  | .scriptBegin => tag rest emit (← scan .tag)
  | _ => fail (.unexpected token)

/--
The blocks of a body, up to the end of its loop or of the input.  Every block
takes up a character, so that no body has more blocks than there are
characters ahead, and `blocks` is never used up.
-/
def body : Nat → Bool → Rendering Unit
  | 0, _ => return
  | blocks + 1, emit => block (body blocks) emit

/-- A template of which the given body renders the blocks. -/
def templateBy (body : Bool → Rendering Unit) (template : String) : Rendering Unit := do
  note (.renderStarted template.utf8ByteSize)
  pass body true
  note (.renderFinished (← get).cursor.position.place.offset)

def renderTemplate (template : String) : Rendering Unit :=
  templateBy (body (template.length + 1)) template

end Rendering

end Stencil
