import Stencil.Proofs.Readings

/-!
# Messages

A message tells its error, whatever the texts and names that it quotes.  Its
first letters tell the kind of the error.  A location is read off the end at
which it stands, as far as its digits go; a name of a kind ends at its quote,
and what is left between fixed words is the text or the name.
-/

namespace Stencil

/-! ## Parts of a text -/

section Parts

variable {p : Char → Bool} {first second rest rest' before before' : List Char}

/-- A part that is all of one kind is read off the front, if what follows is not of that kind. -/
theorem eq_of_append_front (hfirst : first.all p) (hsecond : second.all p)
    (hrest : rest.head?.all (!p ·)) (hrest' : rest'.head?.all (!p ·))
    (h : first ++ rest = second ++ rest') : first = second ∧ rest = rest' := by
  have hpart : first = second := by
    rw [← takeWhile_append_stop hfirst hrest, h, takeWhile_append_stop hsecond hrest']
  subst hpart
  exact ⟨rfl, List.append_cancel_left h⟩

theorem eq_of_append_back (hfirst : first.all p) (hsecond : second.all p)
    (hbefore : before.getLast?.all (!p ·)) (hbefore' : before'.getLast?.all (!p ·))
    (h : before ++ first = before' ++ second) : before = before' ∧ first = second := by
  have hreverse := congrArg List.reverse h
  rw [List.reverse_append, List.reverse_append] at hreverse
  obtain ⟨hpart, hrest⟩ := eq_of_append_front (by simpa using hfirst) (by simpa using hsecond)
    (by simpa using hbefore) (by simpa using hbefore') hreverse
  exact ⟨List.reverse_inj.mp hrest, List.reverse_inj.mp hpart⟩

end Parts

/-! ## Numbers and locations -/

def digits (n : Nat) : List Char := (toString n).toList

theorem all_isDigit (n : Nat) : (digits n).all Char.isDigit := by
  rw [digits, Nat.toString_eq_repr, Nat.toList_repr, List.all_eq_true]
  exact fun c hc => Nat.isDigit_of_mem_toDigits (by decide) (by decide) hc

theorem eq_of_digits {m n : Nat} (h : digits m = digits n) : m = n := by
  rw [digits, digits, Nat.toString_eq_repr, Nat.toString_eq_repr, Nat.toList_repr,
    Nat.toList_repr] at h
  rw [← @Nat.ofDigitChars_toDigits 10 m (by decide) (by decide), h,
    Nat.ofDigitChars_toDigits (by decide) (by decide)]

theorem Span.toList_text (span : Span) :
    span.text.toList = "line ".toList ++
      (digits span.line ++ (" column ".toList ++ digits span.column)) := by
  simp only [text, digits, String.toList_append, List.append_assoc]

/-- A location is read off the front of a text. -/
theorem Span.eq_of_front {first second : Span} {rest rest' : List Char}
    (hrest : rest.head?.all (!·.isDigit)) (hrest' : rest'.head?.all (!·.isDigit))
    (h : first.text.toList ++ rest = second.text.toList ++ rest') :
    first = second ∧ rest = rest' := by
  simp only [toList_text, List.append_assoc] at h
  obtain ⟨hline, hbehind⟩ := eq_of_append_front (all_isDigit _) (all_isDigit _) rfl rfl
    (List.append_cancel_left h)
  obtain ⟨hcolumn, hrest⟩ := eq_of_append_front (all_isDigit _) (all_isDigit _) hrest hrest'
    (List.append_cancel_left hbehind)
  refine ⟨?_, hrest⟩
  rw [Span.mk.injEq]
  exact ⟨eq_of_digits hline, eq_of_digits hcolumn⟩

private theorem getLast?_append_word {before word : List Char}
    (hword : word.getLast?.any (!·.isDigit)) :
    (before ++ word).getLast?.all (!·.isDigit) := by
  cases hend : word.getLast? <;> simp_all [List.getLast?_append]

/-- The same holds at the back, where the word in front keeps the line apart from what is before. -/
theorem Span.eq_of_back {first second : Span} {before before' : List Char}
    (h : before ++ first.text.toList = before' ++ second.text.toList) :
    before = before' ∧ first = second := by
  simp only [toList_text, ← List.append_assoc] at h
  obtain ⟨hahead, hcolumn⟩ := eq_of_append_back (all_isDigit _) (all_isDigit _)
    (getLast?_append_word rfl) (getLast?_append_word rfl) h
  obtain ⟨hbefore, hline⟩ := eq_of_append_back (all_isDigit _) (all_isDigit _)
    (getLast?_append_word rfl) (getLast?_append_word rfl) (List.append_cancel_right hahead)
  refine ⟨List.append_cancel_right hbefore, ?_⟩
  rw [Span.mk.injEq]
  exact ⟨eq_of_digits hline, eq_of_digits hcolumn⟩

/-! ## Faults -/

/-- The letter that the message of a fault begins with. -/
def ScanFault.letter : ScanFault → Char
  | .unexpectedCharacter _ => 'c'
  | .invalidKeyword _ => 'i'
  | .unterminatedTag => 'e'

theorem ScanFault.head?_message (fault : ScanFault) :
    fault.message.toList.head? = some fault.letter := by
  unfold message
  cases fault <;> simp only [String.toList_append, String.reduceToList] <;> rfl

theorem ScanFault.eq_of_message {first second : ScanFault} (h : first.message = second.message) :
    first = second := by
  have hletter : some first.letter = some second.letter := by
    rw [← head?_message, h, head?_message]
  unfold message at h
  cases first <;> cases second <;> simp only [letter, Option.some.injEq, Char.reduceEq] at hletter
  case unexpectedCharacter.unexpectedCharacter found other =>
    obtain rfl : found = other := by
      simpa only [String.append_left_inj, String.append_right_inj, String.singleton_inj] using h
    rfl
  case invalidKeyword.invalidKeyword sigil other =>
    obtain rfl : sigil = other := by
      simpa only [String.append_left_inj, String.append_right_inj, String.singleton_inj] using h
    rfl
  case unterminatedTag.unterminatedTag => rfl

theorem TokenKind.eq_of_name {first second : TokenKind} (h : first.name = second.name) :
    first = second := by
  cases first <;> cases second <;> first | rfl | simp [name] at h

theorem TokenKind.unquoted (kind : TokenKind) : kind.name.toList.all (· ≠ '\'') := by
  cases kind <;> simp only [name, String.reduceToList] <;> rfl

/-- The name of a kind ends at the quote that follows it. -/
theorem TokenKind.eq_of_quoted {first second : TokenKind} {rest rest' : List Char}
    (h : first.name.toList ++ '\'' :: rest = second.name.toList ++ '\'' :: rest') :
    first = second ∧ rest = rest' := by
  obtain ⟨hname, hrest⟩ := eq_of_append_front first.unquoted second.unquoted rfl rfl h
  exact ⟨eq_of_name (String.toList_inj.mp hname), (List.cons.inj hrest).2⟩

namespace GrammarFault

variable {wanted wanted' kind kind' : TokenKind} {text text' : String}

theorem toList_describe (kind : TokenKind) (text : String) :
    (describe kind text).toList = '\'' :: (kind.name.toList ++
      '\'' :: if text = "" then [] else ' ' :: '(' :: '\'' :: (text.toList ++ ['\'', ')'])) := by
  unfold describe
  split <;> simp only [String.toList_append, String.reduceToList, List.cons_append,
    List.nil_append, List.append_assoc]

theorem eq_of_describe (h : (describe kind text).toList = (describe kind' text').toList) :
    kind = kind' ∧ text = text' := by
  rw [toList_describe, toList_describe] at h
  obtain ⟨rfl, hrest⟩ := TokenKind.eq_of_quoted (List.cons.inj h).2
  refine ⟨rfl, ?_⟩
  -- A text is left out only where it is empty, and then there are no brackets either.
  split at hrest <;> split at hrest
  · simp only [*]
  · cases hrest
  · cases hrest
  · simpa [String.toList_inj] using hrest

theorem toList_expected (wanted kind : TokenKind) (text : String) :
    (expected wanted kind text).message.toList = "Expected '".toList ++
      (wanted.name.toList ++ '\'' :: (" but got ".toList ++ (describe kind text).toList)) := by
  unfold message
  simp only [String.toList_append, String.reduceToList, List.cons_append, List.nil_append,
    List.append_assoc]

theorem eq_of_expected
    (h : (expected wanted kind text).message = (expected wanted' kind' text').message) :
    wanted = wanted' ∧ kind = kind' ∧ text = text' := by
  have hchars := congrArg String.toList h
  rw [toList_expected, toList_expected] at hchars
  obtain ⟨hwanted, hrest⟩ := TokenKind.eq_of_quoted (List.append_cancel_left hchars)
  exact ⟨hwanted, eq_of_describe (List.append_cancel_left hrest)⟩

theorem eq_of_unexpected
    (h : (unexpected kind text).message = (unexpected kind' text').message) :
    kind = kind' ∧ text = text' := by
  unfold message at h
  rw [String.append_right_inj] at h
  exact eq_of_describe (congrArg String.toList h)

end GrammarFault

/-! ## Errors -/

theorem ScanError.eq_of_message {first second : ScanError} (h : first.message = second.message) :
    first = second := by
  have hchars := congrArg String.toList h
  unfold message at hchars
  simp only [String.toList_append, List.append_assoc] at hchars
  obtain ⟨hspan, hrest⟩ := Span.eq_of_front rfl rfl hchars
  have hfault := ScanFault.eq_of_message (String.toList_inj.mp (List.append_cancel_left hrest))
  rw [ScanError.mk.injEq]
  exact ⟨hfault, hspan⟩

namespace GrammarError

theorem message_of_located {error : GrammarError} (h : error.fault ≠ .unmatchedLoopEnd) :
    error.message = error.fault.message ++ " at " ++ error.span.text := by
  obtain ⟨fault, span⟩ := error
  cases fault with
  | unmatchedLoopEnd => exact absurd rfl h
  | expected | unexpected => rfl

theorem eq_of_message {first second : GrammarError} (h : first.message = second.message)
    (hfirst : first.fault ≠ .unmatchedLoopEnd) (hsecond : second.fault ≠ .unmatchedLoopEnd) :
    first.fault.message = second.fault.message ∧ first.span = second.span := by
  have hchars := congrArg String.toList h
  rw [message_of_located hfirst, message_of_located hsecond, String.toList_append,
    @String.toList_append (second.fault.message ++ " at ")] at hchars
  obtain ⟨hbefore, hspan⟩ := Span.eq_of_back hchars
  rw [String.toList_inj, String.append_left_inj] at hbefore
  exact ⟨hbefore, hspan⟩

variable {wanted wanted' kind kind' : TokenKind} {text text' : String} {span span' : Span}

theorem eq_of_expected
    (h : message ⟨.expected wanted kind text, span⟩ =
      message ⟨.expected wanted' kind' text', span'⟩) :
    GrammarError.mk (.expected wanted kind text) span =
      ⟨.expected wanted' kind' text', span'⟩ := by
  obtain ⟨hfault, rfl⟩ := eq_of_message h (by simp) (by simp)
  obtain ⟨rfl, rfl, rfl⟩ := GrammarFault.eq_of_expected hfault
  rfl

theorem eq_of_unexpected
    (h : message ⟨.unexpected kind text, span⟩ = message ⟨.unexpected kind' text', span'⟩) :
    GrammarError.mk (.unexpected kind text) span = ⟨.unexpected kind' text', span'⟩ := by
  obtain ⟨hfault, rfl⟩ := eq_of_message h (by simp) (by simp)
  obtain ⟨rfl, rfl⟩ := GrammarFault.eq_of_unexpected hfault
  rfl

end GrammarError

theorem NameError.eq_of_undefinedIdentifier {name name' : String}
    (h : (NameError.undefinedIdentifier name).message =
      (NameError.undefinedIdentifier name').message) : name = name' := by
  unfold message at h
  simpa only [String.append_left_inj, String.append_right_inj] using h

theorem NameError.eq_of_undefinedArray {name name' : String}
    (h : (NameError.undefinedArray name).message =
      (NameError.undefinedArray name').message) : name = name' := by
  unfold message at h
  simpa only [String.append_left_inj, String.append_right_inj] using h

namespace RenderError

/-- The letters that the messages of errors of one form begin with. -/
def letters : RenderError → List Char
  | .lexical _ => ['l', 'i', 'n']
  | .grammar ⟨.expected .., _⟩ => ['E', 'x', 'p']
  | .grammar ⟨.unexpected .., _⟩ => ['U', 'n', 'e']
  | .grammar ⟨.unmatchedLoopEnd, _⟩ => ['U', 'n', 'm']
  | .unresolved (.undefinedIdentifier _) => ['I', 'd', 'e']
  | .unresolved (.undefinedArray _) => ['A', 'r', 'r']
  | .refusedWrite => ['f', 'a', 'i']

theorem take_message (error : RenderError) : error.message.toList.take 3 = error.letters := by
  unfold message ScanError.message Span.text GrammarError.message GrammarFault.message
    NameError.message
  rcases error with ⟨fault, span⟩ | ⟨_ | _ | _, span⟩ | (_ | _) | _ <;>
    simp only [String.toList_append, String.reduceToList] <;> rfl

/--
Two errors have one message only if they are the same, or both are ends of
loops that were never begun, the location of which is not reported.
-/
theorem message_eq_message_iff (first second : RenderError) :
    first.message = second.message ↔
      first = second ∨ ∃ span span', first = .grammar ⟨.unmatchedLoopEnd, span⟩ ∧
        second = .grammar ⟨.unmatchedLoopEnd, span'⟩ := by
  refine ⟨fun h => ?_, ?_⟩
  · have hletters : first.letters = second.letters := by
      rw [← take_message, h, take_message]
    rcases first with error | ⟨⟨_, _, _⟩ | ⟨_, _⟩ | _, span⟩ | (name | name) | _ <;>
      rcases second with error' | ⟨⟨_, _, _⟩ | ⟨_, _⟩ | _, span'⟩ | (name' | name') | _ <;>
      simp only [letters, List.cons.injEq, Char.reduceEq, false_and, and_false] at hletters
    case lexical.lexical => exact .inl (congrArg lexical (ScanError.eq_of_message h))
    case grammar.expected.grammar.expected =>
      exact .inl (congrArg grammar (GrammarError.eq_of_expected h))
    case grammar.unexpected.grammar.unexpected =>
      exact .inl (congrArg grammar (GrammarError.eq_of_unexpected h))
    case grammar.unmatchedLoopEnd.grammar.unmatchedLoopEnd =>
      exact .inr ⟨span, span', rfl, rfl⟩
    case unresolved.undefinedIdentifier.unresolved.undefinedIdentifier =>
      obtain rfl := NameError.eq_of_undefinedIdentifier h
      exact .inl rfl
    case unresolved.undefinedArray.unresolved.undefinedArray =>
      obtain rfl := NameError.eq_of_undefinedArray h
      exact .inl rfl
    case refusedWrite.refusedWrite => exact .inl rfl
  · rintro (rfl | ⟨span, span', rfl, rfl⟩) <;> rfl

end RenderError

end Stencil
