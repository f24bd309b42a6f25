import Stencil.Error

/-!
# Items of a tag

Between its braces a tag is a row of items: names, the two loop keywords, and
last the braces that close it.  Blanks may stand before every item.
-/

namespace Stencil

inductive TagItem where
  | name (text : String)
  | loopBegin
  | loopEnd
  | close
  deriving DecidableEq, Repr

namespace TagItem

def spelling : TagItem → List Char
  | .name text => text.toList
  | .loopBegin => ['#', 'l', 'o', 'o', 'p']
  | .loopEnd => ['/', 'l', 'o', 'o', 'p']
  | .close => ['}', '}']

def lexeme : TagItem → Lexeme
  | .name text => .identifier text
  | .loopBegin => .loopBegin
  | .loopEnd => .loopEnd
  | .close => .scriptEnd

/-- The blanks of ASCII: space, tab, line feed, form feed, carriage return. -/
def isBlank (c : Char) : Bool :=
  c = ' ' || c = '\t' || c = '\n' || c = '\x0c' || c = '\r'

/-- The keyword of loops stands ahead, and no letter or digit continues it. -/
def keywordAhead : List Char → Bool
  | 'l' :: 'o' :: 'o' :: 'p' :: beyond => !beyond.head?.any Char.isAlphanum
  | _ => false

/--
The item at the front of the input, which begins with no blank.  A name is an
ASCII letter and all ASCII letters and digits after it.
-/
def read : List Char → Except ScanFault TagItem
  | [] => .error .unterminatedTag
  | '#' :: ahead =>
      if keywordAhead ahead then .ok .loopBegin else .error (.invalidKeyword '#')
  | '/' :: ahead =>
      if keywordAhead ahead then .ok .loopEnd else .error (.invalidKeyword '/')
  | '}' :: '}' :: _ => .ok .close
  | c :: ahead =>
      if c.isAlpha then .ok (.name (String.ofList (c :: ahead.takeWhile Char.isAlphanum)))
      else .error (.unexpectedCharacter c)

theorem spelling_ne_nil_of_read {ahead : List Char} {item : TagItem}
    (h : read ahead = .ok item) : item.spelling ≠ [] := by
  unfold read at h
  split at h
  · cases h
  · split at h <;> cases h; simp [spelling]
  · split at h <;> cases h; simp [spelling]
  · cases h; simp [spelling]
  · split at h <;> cases h; simp [spelling]

private theorem eq_of_keywordAhead {ahead : List Char} (h : keywordAhead ahead = true) :
    ∃ beyond, ahead = 'l' :: 'o' :: 'o' :: 'p' :: beyond := by
  unfold keywordAhead at h
  split at h
  · exact ⟨_, rfl⟩
  · cases h

theorem spelling_prefix_of_read {ahead : List Char} {item : TagItem}
    (h : read ahead = .ok item) : item.spelling <+: ahead := by
  unfold read at h
  split at h
  · cases h
  · split at h
    · cases h
      obtain ⟨beyond, rfl⟩ := eq_of_keywordAhead ‹_›
      exact ⟨beyond, rfl⟩
    · cases h
  · split at h
    · cases h
      obtain ⟨beyond, rfl⟩ := eq_of_keywordAhead ‹_›
      exact ⟨beyond, rfl⟩
    · cases h
  · cases h
    exact ⟨_, rfl⟩
  · split at h
    · cases h
      simpa [spelling] using List.takeWhile_prefix _
    · cases h

end TagItem

end Stencil
