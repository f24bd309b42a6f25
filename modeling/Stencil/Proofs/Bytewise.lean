import Stencil.Proofs.Bytes

/-!
# Scanning bytes

A scan looks at single bytes to find its way, which it may do anywhere.  Only
where it needs a character or a stretch of text is the template cut, and a cut
anywhere but between two characters stops the scan.  It comes to what scanning
characters comes to, and the only bad cut is one at the place of a position
inside a character.
-/

namespace Stencil

/-! ## The scanner of bytes -/

/-- A template was to be cut where no character begins. -/
structure BadCut where
  offset : Nat
  deriving DecidableEq, Repr

/-- A scan of bytes.  A bad cut leaves the state in which it was made. -/
abbrev Bytewise := EStateM BadCut Scanner

namespace Bytewise

/-! ### Looking ahead -/

def ahead : Bytewise (List UInt8) := do
  let scanner ← get
  return (utf8Bytes scanner.template).drop scanner.position.place.offset

def atEnd : Bytewise Bool := do return (← ahead).isEmpty

def sees (text : List Char) : Bytewise Bool := do
  return (utf8Bytes text).isPrefixOf (← ahead)

def seesAscii (p : Char → Bool) : Bytewise Bool := do
  return (← ahead).head?.any (isAscii p)

/-! ### Cutting -/

def cut (offset : Nat) : Bytewise (List Char) := do
  let template := (← get).template
  -- There is nothing behind an offset beyond the end, and it is not to be cut at either.
  match if offset ≤ utf8Length template then charsAfter offset template else none with
  | some chars => return chars
  | none => throw ⟨offset⟩

def here : Bytewise Nat := do return (← get).position.place.offset

def slice (first last : Nat) : Bytewise (List Char) := do
  let chars ← cut first
  let beyond ← cut last
  if last < first then throw ⟨last⟩
  return chars.take (chars.length - beyond.length)

def pass : Bytewise (Option Char) := do
  match ← cut (← here) with
  | [] => return none
  | c :: _ =>
      modify fun scanner =>
        { scanner with position.place := scanner.position.place.advance c }
      return some c

def passMany : Nat → Bytewise Unit
  | 0 => return
  | count + 1 => do
      discard pass
      passMany count

def passWhile (p : Char → Bool) : Nat → Bytewise Unit
  | 0 => return
  | rounds + 1 => do
      if ← seesAscii p then
        discard pass
        passWhile p rounds

/-! ### Scanning -/

def span : Bytewise Span := do return (← get).position.place.span

def enter (mode : Mode) : Bytewise Unit :=
  modify fun scanner => { scanner with position.mode := mode }

def owe (owed : Option Span) : Bytewise Unit :=
  modify fun scanner => { scanner with position.owed := owed }

def token (lexeme : Lexeme) (span : Span) : Bytewise Token := do
  return lexeme.token (← get).loops span

/-- The text up to an opening, and where that opening is if there is one. -/
def readText : Nat → List Char → Bytewise (List Char × Option Span)
  | 0, text => return (text, none)
  | rounds + 1, text => do
      if ← atEnd then return (text, none)
      else if ← sees ['{', '{'] then
        let opening ← span
        passMany 2
        return (text, some opening)
      else if ← sees ['{', '\\', '{'] then
        passMany 3
        readText rounds (text ++ ['{', '{'])
      else if ← sees ['\\', '{', '{'] then
        passMany 3
        readText rounds (text ++ ['{', '{'])
      else
        let passed ← pass
        readText rounds (text ++ passed.toList)

def scanText : Bytewise Token := do
  let start ← span
  let (text, opening) ← readText (← ahead).length []
  match opening with
  | none =>
      if text.isEmpty then token .endOfInput start
      else token (.literal (String.ofList text)) start
  | some opening =>
      enter .tag
      if text.isEmpty then token .scriptBegin opening
      else
        owe (some opening)
        token (.literal (String.ofList text)) start

/-- The keyword of loops behind its sigil, if it stands there and nothing continues it. -/
def passKeyword : Bytewise Bool := do
  let rest ← cut ((← here) + 1)
  let continued := (utf8Bytes rest)[4]?.any (isAscii Char.isAlphanum)
  if ['l', 'o', 'o', 'p'].isPrefixOf rest && !continued then
    passMany 5
    return true
  else return false

def passName : Bytewise (List Char) := do
  let first ← here
  passWhile Char.isAlphanum (← ahead).length
  slice first (← here)

def scanItem : Bytewise (Except ScanError Token) := do
  let start ← span
  if ← atEnd then return .error ⟨.unterminatedTag, start⟩
  else if ← sees ['#'] then
    if ← passKeyword then
      let found ← token .loopBegin start
      modify fun scanner => { scanner with loops := scanner.loops + 1 }
      return .ok found
    else return .error ⟨.invalidKeyword '#', start⟩
  else if ← sees ['/'] then
    if ← passKeyword then
      let found ← token .loopEnd start
      return .ok found
    else return .error ⟨.invalidKeyword '/', start⟩
  else if ← seesAscii Char.isAlpha then
    let name ← passName
    let found ← token (.identifier (String.ofList name)) start
    return .ok found
  else if ← sees ['}', '}'] then
    passMany 2
    enter .text
    let found ← token .scriptEnd start
    return .ok found
  else
    let chars ← cut (← here)
    return .error ⟨.unexpectedCharacter (chars.head?.getD '\uFFFD'), start⟩

def scanTag : Bytewise (Except ScanError Token) := do
  passWhile TagItem.isBlank (← ahead).length
  scanItem

def scan : Bytewise (Except ScanError Token) := do
  let position := (← get).position
  match position.owed, position.mode with
  | some opening, _ =>
      owe none
      return .ok (← token .scriptBegin opening)
  | none, .text => return .ok (← scanText)
  | none, .tag => scanTag

end Bytewise

/-! ## Between characters -/

theorem toNat_lt_of_isAlpha {c : Char} (h : c.isAlpha) : c.toNat < 128 := by
  have hcase : c.isUpper ∨ c.isLower := Bool.or_eq_true_iff.mp h
  rcases hcase with hupper | hlower
  · have hle : c.val ≤ 'Z'.val := (of_decide_eq_true hupper).2
    exact Nat.lt_of_le_of_lt (UInt32.le_iff_toNat_le.mp hle) (by decide)
  · have hle : c.val ≤ 'z'.val := of_decide_eq_true (Bool.and_eq_true_iff.mp hlower).2
    exact Nat.lt_of_le_of_lt (UInt32.le_iff_toNat_le.mp hle) (by decide)

theorem toNat_lt_of_isAlphanum {c : Char} (h : c.isAlphanum) : c.toNat < 128 := by
  have hcase : c.isAlpha ∨ c.isDigit := Bool.or_eq_true_iff.mp h
  rcases hcase with halpha | hdigit
  · exact toNat_lt_of_isAlpha halpha
  · have hle : c.val ≤ '9'.val := of_decide_eq_true (Bool.and_eq_true_iff.mp hdigit).2
    exact Nat.lt_of_le_of_lt (UInt32.le_iff_toNat_le.mp hle) (by decide)

theorem toNat_lt_of_isBlank {c : Char} (h : TagItem.isBlank c) : c.toNat < 128 := by
  simp only [TagItem.isBlank, Bool.or_eq_true, decide_eq_true_eq] at h
  rcases h with (((rfl | rfl) | rfl) | rfl) | rfl <;> decide

theorem keyword_seen (chars : List Char) :
    (['l', 'o', 'o', 'p'].isPrefixOf chars &&
        !(utf8Bytes chars)[4]?.any (isAscii Char.isAlphanum)) = TagItem.keywordAhead chars := by
  cases hloop : ['l', 'o', 'o', 'p'].isPrefixOf chars with
  | true =>
      obtain ⟨beyond, rfl⟩ := List.isPrefixOf_iff_prefix.mp hloop
      have hbeyond := any_isAscii_head? (fun _ => toNat_lt_of_isAlphanum) beyond
      change _ = !beyond.head?.any Char.isAlphanum
      rw [← hbeyond, List.head?_eq_getElem?]
      rfl
  | false =>
      cases hkeyword : TagItem.keywordAhead chars with
      | false => rfl
      | true =>
          obtain ⟨beyond, rfl, -⟩ := (TagItem.keywordAhead_iff chars).mp hkeyword
          cases hloop

namespace Scanner

/-- The template is split at the place of the scanner. -/
def Splits (before ahead : List Char) (scanner : Scanner) : Prop :=
  scanner.template = before ++ ahead ∧ scanner.position.place.offset = utf8Length before

def pass (scanner : Scanner) (passed : List Char) : Scanner :=
  { scanner with position.place := scanner.position.place.after passed }

theorem pass_append (scanner : Scanner) (first second : List Char) :
    scanner.pass (first ++ second) = (scanner.pass first).pass second := by
  simp only [pass, Place.after_append]

theorem Splits.pass {scanner : Scanner} {before passed ahead : List Char}
    (h : scanner.Splits before (passed ++ ahead)) :
    (scanner.pass passed).Splits (before ++ passed) ahead := by
  obtain ⟨htemplate, hoffset⟩ := h
  constructor
  · simpa [Scanner.pass] using htemplate
  · simp only [Scanner.pass, Place.offset_after, hoffset, utf8Length_append]

end Scanner

namespace Bytewise

section Steps

variable {α β : Type} {scanner later : Scanner} {before ahead rest : List Char}

theorem bind_ok {first : Bytewise α} {second : α → Bytewise β} {value : α}
    (h : first scanner = .ok value later) : (first >>= second) scanner = second value later := by
  simp only [bind, EStateM.bind, h]

theorem bind_error {first : Bytewise α} {second : α → Bytewise β} {error : BadCut}
    (h : first scanner = .error error later) :
    (first >>= second) scanner = .error error later := by
  simp only [bind, EStateM.bind, h]

theorem bind_get (second : Scanner → Bytewise β) :
    (get >>= second) scanner = second scanner scanner := rfl

theorem bind_true {test : Bytewise Bool} {yes no : Bytewise α}
    (h : test scanner = .ok true later) :
    (test >>= fun passes => if passes then yes else no) scanner = yes later :=
  bind_ok h

theorem bind_false {test : Bytewise Bool} {yes no : Bytewise α}
    (h : test scanner = .ok false later) :
    (test >>= fun passes => if passes then yes else no) scanner = no later :=
  bind_ok h

theorem span_eq (scanner : Scanner) :
    span scanner = .ok scanner.position.place.span scanner := rfl

theorem here_eq (scanner : Scanner) :
    here scanner = .ok scanner.position.place.offset scanner := rfl

theorem ahead_ok (h : scanner.Splits before ahead) :
    Bytewise.ahead scanner = .ok (utf8Bytes ahead) scanner := by
  obtain ⟨htemplate, hoffset⟩ := h
  have hdrop := drop_utf8Bytes (charsAfter_utf8Length before ahead)
  rw [← hoffset, ← htemplate] at hdrop
  rw [← hdrop]
  rfl

theorem atEnd_ok (h : scanner.Splits before ahead) :
    atEnd scanner = .ok ahead.isEmpty scanner := by
  rw [atEnd, bind_ok (ahead_ok h), isEmpty_utf8Bytes]
  rfl

theorem sees_ok {text : List Char} {seen : Bool} (htext : text.all (·.toNat < 128))
    (h : scanner.Splits before ahead) (hseen : text.isPrefixOf ahead = seen) :
    sees text scanner = .ok seen scanner := by
  rw [sees, bind_ok (ahead_ok h), ← hseen, ← isPrefixOf_utf8Bytes htext]
  rfl

theorem seesAscii_ok {p : Char → Bool} {seen : Bool} (hp : ∀ c, p c → c.toNat < 128)
    (h : scanner.Splits before ahead) (hseen : ahead.head?.any p = seen) :
    seesAscii p scanner = .ok seen scanner := by
  rw [seesAscii, bind_ok (ahead_ok h), ← hseen, ← any_isAscii_head? hp]
  rfl

theorem cut_ok {before ahead : List Char} (htemplate : scanner.template = before ++ ahead) :
    cut (utf8Length before) scanner = .ok ahead scanner := by
  have hle : utf8Length before ≤ utf8Length scanner.template := by
    rw [htemplate, utf8Length_append]
    omega
  have hafter := charsAfter_utf8Length before ahead
  rw [← htemplate] at hafter
  rw [cut, bind_get, if_pos hle, hafter]
  rfl

theorem pass_ok {c : Char} (h : scanner.Splits before (c :: rest)) :
    pass scanner = .ok (some c) (scanner.pass [c]) := by
  have hcut := cut_ok h.1
  rw [← h.2] at hcut
  rw [pass, bind_ok (here_eq _), bind_ok hcut]
  rfl

theorem discard_pass_ok {c : Char} (h : scanner.Splits before (c :: rest)) :
    discard pass scanner = .ok () (scanner.pass [c]) := by
  simp only [discard, Functor.discard, Functor.mapConst, EStateM.map, pass_ok h, Function.comp]

theorem passMany_ok {passed : List Char} (h : scanner.Splits before (passed ++ rest)) :
    passMany passed.length scanner = .ok () (scanner.pass passed) := by
  induction passed generalizing scanner before with
  | nil => rfl
  | cons c passed ih =>
      have hnext : (scanner.pass [c]).Splits (before ++ [c]) (passed ++ rest) :=
        Scanner.Splits.pass (by simpa using h)
      rw [List.length_cons, passMany, bind_ok (discard_pass_ok h), ih hnext,
        ← Scanner.pass_append]
      rfl

theorem passWhile_ok {p : Char → Bool} (hp : ∀ c, p c → c.toNat < 128) {rounds : Nat}
    (hrounds : ahead.length ≤ rounds) (h : scanner.Splits before ahead) :
    passWhile p rounds scanner = .ok () (scanner.pass (ahead.takeWhile p)) := by
  induction rounds generalizing scanner before ahead with
  | zero =>
      obtain rfl : ahead = [] := List.length_eq_zero_iff.mp (Nat.le_zero.mp hrounds)
      rfl
  | succ rounds ih =>
      cases hseen : ahead.head?.any p with
      | false =>
          have htake : ahead.takeWhile p = [] := by cases ahead <;> simp_all
          rw [passWhile, bind_false (seesAscii_ok hp h hseen), htake]
          rfl
      | true =>
          obtain ⟨c, later, rfl⟩ : ∃ c later, ahead = c :: later := by
            cases ahead <;> simp_all
          have hc : p c := by simpa using hseen
          have hnext : (scanner.pass [c]).Splits (before ++ [c]) later :=
            Scanner.Splits.pass (by simpa using h)
          rw [passWhile, bind_true (seesAscii_ok hp h hseen), bind_ok (discard_pass_ok h),
            ih (by simpa using hrounds) hnext, ← Scanner.pass_append,
            List.takeWhile_cons_of_pos hc]
          rfl

theorem not_isPrefixOf {text ahead : List Char} (h : ¬text <+: ahead) :
    text.isPrefixOf ahead = false := by
  rwa [← List.isPrefixOf_iff_prefix, Bool.not_eq_true] at h

theorem readText_piece {piece : TextPiece} (hfits : piece.Fits rest) (rounds : Nat)
    (text : List Char) (h : scanner.Splits before (piece.spelling ++ rest)) :
    readText (rounds + 1) text scanner =
      readText rounds (text ++ piece.meaning) (scanner.pass piece.spelling) := by
  have hend : (piece.spelling ++ rest).isEmpty = false := by cases piece <;> rfl
  rw [readText, bind_false (hend ▸ atEnd_ok h)]
  cases piece with
  | splitBraces =>
      rw [bind_false (sees_ok (by decide) h rfl), bind_true (sees_ok (by decide) h rfl)]
      exact bind_ok (passMany_ok h)
  | guardedBraces =>
      rw [bind_false (sees_ok (by decide) h rfl), bind_false (sees_ok (by decide) h rfl),
        bind_true (sees_ok (by decide) h rfl)]
      exact bind_ok (passMany_ok h)
  | plain c =>
      obtain ⟨hbraces, hsplit, hguard⟩ := hfits
      rw [bind_false (sees_ok (by decide) h (not_isPrefixOf hbraces)),
        bind_false (sees_ok (by decide) h (not_isPrefixOf hsplit)),
        bind_false (sees_ok (by decide) h (not_isPrefixOf hguard))]
      exact bind_ok (pass_ok h)

/-- Reading passes over the pieces of a text as they are spelled, and keeps what they mean. -/
theorem readText_pieces {source : List Char} {pieces : List TextPiece}
    (hspells : TextRun.Spells source pieces rest) {rounds : Nat}
    (hrounds : source.length ≤ rounds) (text : List Char) (h : scanner.Splits before source) :
    ∃ fewer, rest.length ≤ fewer ∧
      readText rounds text scanner =
        readText fewer (text ++ pieces.flatMap TextPiece.meaning)
          (scanner.pass (pieces.flatMap TextPiece.spelling)) := by
  induction hspells generalizing scanner before rounds text with
  | nil => exact ⟨rounds, hrounds, by simp; rfl⟩
  | @cons piece ahead rest pieces hfits _ ih =>
      have hpos : 0 < piece.spelling.length := by cases piece <;> exact Nat.succ_pos _
      rw [List.length_append] at hrounds
      obtain ⟨fewer, rfl⟩ : ∃ fewer, rounds = fewer + 1 :=
        Nat.exists_eq_succ_of_ne_zero (by omega)
      have hfewer : ahead.length ≤ fewer := by omega
      obtain ⟨last, hlast, hread⟩ := ih hfewer (text ++ piece.meaning) h.pass
      refine ⟨last, hlast, ?_⟩
      rw [readText_piece hfits fewer text h, hread, List.flatMap_cons, List.flatMap_cons,
        ← Scanner.pass_append, List.append_assoc]

theorem readText_end (rounds : Nat) (text : List Char) (h : scanner.Splits before []) :
    readText rounds text scanner = .ok (text, none) scanner := by
  cases rounds with
  | zero => rfl
  | succ rounds => exact bind_true (atEnd_ok h)

theorem readText_opening (rounds : Nat) (text : List Char) {beyond : List Char}
    (h : scanner.Splits before ('{' :: '{' :: beyond)) :
    readText (rounds + 1) text scanner =
      .ok (text, some scanner.position.place.span) (scanner.pass ['{', '{']) := by
  have hpass := @passMany_ok scanner before beyond ['{', '{'] h
  rw [readText, bind_false (atEnd_ok h), bind_true (sees_ok (by decide) h rfl), bind_ok (span_eq _)]
  exact bind_ok hpass

theorem readText_run {source : List Char} {run : TextRun} (hread : TextRun.read source = run)
    (h : scanner.Splits before source) :
    readText (utf8Bytes source).length [] scanner =
      .ok (run.meaning, run.beyond.map fun _ => (scanner.pass run.spelling).position.place.span)
        ((scanner.pass run.spelling).pass (if run.beyond.isSome then ['{', '{'] else [])) := by
  have hspells := (TextRun.read_eq_iff source run).mp hread
  obtain ⟨fewer, hfewer, htext⟩ :=
    readText_pieces hspells (length_le_length_utf8Bytes source) [] h
  have hrest : (scanner.pass run.spelling).Splits (before ++ run.spelling) run.rest :=
    Scanner.Splits.pass (hspells.source_eq ▸ h)
  rw [htext, List.nil_append]
  change readText fewer run.meaning (scanner.pass run.spelling) = _
  obtain ⟨pieces, beyond⟩ := run
  cases beyond with
  | none => exact readText_end fewer _ hrest
  | some beyond =>
      obtain ⟨fewer, rfl⟩ : ∃ fewest, fewer = fewest + 1 := by
        apply Nat.exists_eq_succ_of_ne_zero
        rintro rfl
        simp [TextRun.rest] at hfewer
      exact readText_opening fewer _ hrest

theorem scanText_ok {template ahead : List Char} {place : Place} {loops : Nat}
    {run : TextRun} (hread : TextRun.read ahead = run)
    (h : Scanner.Splits before ahead ⟨template, ⟨place, .text, none⟩, loops⟩) :
    scanText ⟨template, ⟨place, .text, none⟩, loops⟩ =
      .ok ((Cursor.scanText place ahead).1.1.token loops (Cursor.scanText place ahead).1.2)
        ⟨template, (Cursor.scanText place ahead).2.position, loops⟩ := by
  rw [scanText, bind_ok (span_eq _), bind_ok (ahead_ok h), bind_ok (readText_run hread h)]
  obtain ⟨pieces, beyond⟩ := run
  cases pieces with
  | nil => cases beyond <;> simp only [Cursor.scanText, hread] <;> rfl
  | cons piece pieces =>
      have hempty : (TextRun.mk (piece :: pieces) beyond).meaning.isEmpty = false := by
        rw [List.isEmpty_eq_false_iff, ne_eq, TextRun.meaning_eq_nil_iff]
        exact List.cons_ne_nil piece pieces
      cases beyond <;>
        simp only [Cursor.scanText, hread, Option.map, hempty, Bool.false_eq_true, if_false] <;>
        rfl

theorem isPrefixOf_of_ne {t c : Char} (h : c ≠ t) {text chars : List Char} :
    (t :: text).isPrefixOf (c :: chars) = false := by
  simp [List.isPrefixOf, Ne.symm h]

theorem here_ok (h : scanner.Splits before ahead) :
    here scanner = .ok (utf8Length before) scanner := by
  rw [← h.2, here_eq]

theorem passKeyword_ok {sigil : Char} {stands : Bool} (hsigil : sigil.utf8Size = 1)
    (h : scanner.Splits before (sigil :: ahead)) (hstands : TagItem.keywordAhead ahead = stands) :
    passKeyword scanner =
      .ok stands (if stands then scanner.pass [sigil, 'l', 'o', 'o', 'p'] else scanner) := by
  have hcut : cut (utf8Length before + 1) scanner = .ok ahead scanner := by
    have hbehind : utf8Length (before ++ [sigil]) = utf8Length before + 1 := by
      rw [utf8Length_append, utf8Length_cons, hsigil]
      rfl
    rw [← hbehind]
    exact cut_ok (by simpa using h.1)
  rw [passKeyword, bind_ok (here_ok h), bind_ok hcut, keyword_seen, hstands]
  cases stands with
  | false => rfl
  | true =>
      obtain ⟨beyond, rfl, -⟩ := (TagItem.keywordAhead_iff ahead).mp hstands
      exact bind_ok (@passMany_ok scanner before beyond [sigil, 'l', 'o', 'o', 'p'] h)

theorem slice_ok {taken : List Char} (htemplate : scanner.template = before ++ (taken ++ rest)) :
    slice (utf8Length before) (utf8Length (before ++ taken)) scanner = .ok taken scanner := by
  have hlast : cut (utf8Length (before ++ taken)) scanner = .ok rest scanner :=
    cut_ok (by rw [htemplate, List.append_assoc])
  have hle : ¬utf8Length (before ++ taken) < utf8Length before := by
    rw [utf8Length_append]
    omega
  rw [slice, bind_ok (cut_ok htemplate), bind_ok hlast, if_neg hle]
  change EStateM.Result.ok ((taken ++ rest).take _) scanner = _
  rw [List.length_append, Nat.add_sub_cancel, List.take_left]

theorem passName_ok (h : scanner.Splits before ahead) :
    passName scanner =
      .ok (ahead.takeWhile Char.isAlphanum)
        (scanner.pass (ahead.takeWhile Char.isAlphanum)) := by
  have hpass := passWhile_ok (fun _ => toNat_lt_of_isAlphanum)
    (length_le_length_utf8Bytes ahead) h
  rw [← @List.takeWhile_append_dropWhile _ Char.isAlphanum ahead] at h
  have hlater := h.pass
  rw [passName, bind_ok (here_ok h), bind_ok (ahead_ok h), List.takeWhile_append_dropWhile,
    bind_ok hpass, bind_ok (here_ok hlater)]
  exact slice_ok (hlater.1.trans (List.append_assoc ..))

theorem scanItem_ok {template : List Char} {place : Place} {loops : Nat}
    (h : Scanner.Splits before ahead ⟨template, ⟨place, .tag, none⟩, loops⟩) :
    scanItem ⟨template, ⟨place, .tag, none⟩, loops⟩ =
      match TagItem.read ahead with
      | .error fault =>
          .ok (.error ⟨fault, place.span⟩) ⟨template, ⟨place, .tag, none⟩, loops⟩
      | .ok item =>
          .ok (.ok (item.lexeme.token loops place.span))
            ⟨template, ⟨place.after item.spelling, item.modeAfter, none⟩,
              loops + item.lexeme.loops⟩ := by
  rw [scanItem, bind_ok (span_eq _)]
  -- Each item is told from its first characters, and the tests for the items before it fail.
  fun_cases TagItem.read ahead with
  | case1 => exact bind_true (atEnd_ok h)
  | case2 ahead hkeyword =>
      rw [bind_false (atEnd_ok h), bind_true (sees_ok (by decide) h rfl)]
      exact bind_true (passKeyword_ok rfl h hkeyword)
  | case3 ahead hkeyword =>
      rw [bind_false (atEnd_ok h), bind_true (sees_ok (by decide) h rfl)]
      exact bind_false (passKeyword_ok rfl h (eq_false_of_ne_true hkeyword))
  | case4 ahead hkeyword =>
      rw [bind_false (atEnd_ok h), bind_false (sees_ok (by decide) h rfl),
        bind_true (sees_ok (by decide) h rfl)]
      exact bind_true (passKeyword_ok rfl h hkeyword)
  | case5 ahead hkeyword =>
      rw [bind_false (atEnd_ok h), bind_false (sees_ok (by decide) h rfl),
        bind_true (sees_ok (by decide) h rfl)]
      exact bind_false (passKeyword_ok rfl h (eq_false_of_ne_true hkeyword))
  | case6 ahead =>
      rw [bind_false (atEnd_ok h), bind_false (sees_ok (by decide) h rfl),
        bind_false (sees_ok (by decide) h rfl),
        bind_false (seesAscii_ok (fun _ => toNat_lt_of_isAlpha) h rfl),
        bind_true (sees_ok (by decide) h rfl)]
      exact bind_ok (@passMany_ok _ before ahead ['}', '}'] h)
  | case7 c ahead hbegin hend hclose hc =>
      have halphanum : c.isAlphanum := by simp [Char.isAlphanum, hc]
      have hname := passName_ok h
      rw [List.takeWhile_cons_of_pos halphanum] at hname
      rw [bind_false (atEnd_ok h), bind_false (sees_ok (by decide) h (isPrefixOf_of_ne hbegin)),
        bind_false (sees_ok (by decide) h (isPrefixOf_of_ne hend)),
        bind_true (seesAscii_ok (fun _ => toNat_lt_of_isAlpha) h hc), bind_ok hname]
      simp only [TagItem.spelling, String.toList_ofList]
      rfl
  | case8 c ahead hbegin hend hclose hc =>
      have hbraces : ['}', '}'].isPrefixOf (c :: ahead) = false := by
        apply not_isPrefixOf
        rintro ⟨tail, htail⟩
        cases htail
        exact hclose tail rfl rfl
      rw [bind_false (atEnd_ok h), bind_false (sees_ok (by decide) h (isPrefixOf_of_ne hbegin)),
        bind_false (sees_ok (by decide) h (isPrefixOf_of_ne hend)),
        bind_false (seesAscii_ok (fun _ => toNat_lt_of_isAlpha) h (eq_false_of_ne_true hc)),
        bind_false (sees_ok (by decide) h hbraces), bind_ok (here_ok h)]
      exact bind_ok (cut_ok h.1)

theorem scanTag_ok {template : List Char} {place : Place} {loops : Nat}
    (h : Scanner.Splits before ahead ⟨template, ⟨place, .tag, none⟩, loops⟩) :
    scanTag ⟨template, ⟨place, .tag, none⟩, loops⟩ =
      .ok ((Cursor.scanTag place ahead).1.map fun mark => mark.1.token loops mark.2)
        ⟨template, (Cursor.scanTag place ahead).2.position,
          loops + Reading.loops (Cursor.scanTag place ahead).1⟩ := by
  have hblanks := passWhile_ok (fun _ => toNat_lt_of_isBlank)
    (length_le_length_utf8Bytes ahead) h
  rw [scanTag, bind_ok (ahead_ok h), bind_ok hblanks]
  rw [← @List.takeWhile_append_dropWhile _ TagItem.isBlank ahead] at h
  have hitem := scanItem_ok h.pass
  rw [Cursor.scanTag]
  cases hread : TagItem.read (ahead.dropWhile TagItem.isBlank) with
  | error fault =>
      rw [hread] at hitem
      exact hitem
  | ok item =>
      rw [hread] at hitem
      exact hitem

end Steps

/-- A bad cut is what scanning inside a character comes to. -/
def outcome : EStateM.Result BadCut Scanner (Except ScanError Token) → Scan × Scanner
  | .ok (.ok found) later => (.token found, later)
  | .ok (.error error) later => (.failure error, later)
  | .error _ later => (.insideCharacter, later)

section Outcomes

variable {scanner : Scanner} {ahead : List Char} {byte : UInt8} {bytes : List UInt8}

/-- The scan of bytes does what the cursor of the scanner does. -/
def Follows (scanner : Scanner) (cursor : Cursor) : Prop :=
  Bytewise.scan scanner =
    .ok (cursor.scan.1.map fun mark => mark.1.token scanner.loops mark.2)
      { scanner with
        position := cursor.scan.2.position
        loops := scanner.loops + Reading.loops cursor.scan.1 }

theorem loops_scanText (place : Place) (ahead : List Char) :
    (Cursor.scanText place ahead).1.1.loops = 0 := by
  unfold Cursor.scanText
  dsimp only
  split <;> rfl

theorem scan_text (howed : scanner.position.owed = none) (hmode : scanner.position.mode = .text) :
    Bytewise.scan scanner = (scanText >>= fun found => pure (.ok found)) scanner := by
  obtain ⟨template, ⟨place, mode, owed⟩, loops⟩ := scanner
  cases howed
  cases hmode
  rfl

theorem scan_tag (howed : scanner.position.owed = none) (hmode : scanner.position.mode = .tag) :
    Bytewise.scan scanner = scanTag scanner := by
  obtain ⟨template, ⟨place, mode, owed⟩, loops⟩ := scanner
  cases howed
  cases hmode
  rfl

theorem follows_owed {span : Span} (howed : scanner.position.owed = some span) :
    Follows scanner ⟨scanner.position, ahead⟩ := by
  obtain ⟨template, ⟨place, mode, owed⟩, loops⟩ := scanner
  cases howed
  rfl

theorem follows_between {before : List Char} (howed : scanner.position.owed = none)
    (h : scanner.Splits before ahead) : Follows scanner ⟨scanner.position, ahead⟩ := by
  obtain ⟨template, ⟨place, mode, owed⟩, loops⟩ := scanner
  cases howed
  cases mode with
  | text =>
      change (scanText >>= fun found => pure (Except.ok found)) _ = EStateM.Result.ok _
        ⟨template, _, loops + (Cursor.scanText place ahead).1.1.loops⟩
      rw [bind_ok (scanText_ok rfl h), loops_scanText]
      rfl
  | tag => exact scanTag_ok h

theorem follows_beyond (howed : scanner.position.owed = none)
    (hend : utf8Length scanner.template ≤ scanner.position.place.offset) :
    Follows scanner ⟨scanner.position, []⟩ := by
  have hahead : Bytewise.ahead scanner = .ok [] scanner := by
    change EStateM.Result.ok ((utf8Bytes scanner.template).drop _) scanner = _
    rw [drop_utf8Bytes (charsAfter_of_le hend)]
    rfl
  have hatEnd : atEnd scanner = .ok true scanner := bind_ok hahead
  obtain ⟨template, ⟨place, mode, owed⟩, loops⟩ := scanner
  cases howed
  cases mode with
  | text =>
      have htext : scanText ⟨template, ⟨place, .text, none⟩, loops⟩ =
          .ok (Lexeme.endOfInput.token loops place.span)
            ⟨template, ⟨place, .text, none⟩, loops⟩ := by
        rw [scanText, bind_ok (span_eq _), bind_ok hahead]
        rfl
      exact bind_ok htext
  | tag =>
      change scanTag _ = _
      rw [scanTag, bind_ok hahead]
      change scanItem _ = _
      rw [scanItem, bind_ok (span_eq _)]
      exact bind_true hatEnd

theorem scan_beyond (howed : scanner.position.owed = none)
    (hend : utf8Length scanner.template ≤ scanner.position.place.offset) :
    Bytewise.scan scanner =
      match scanner.position.mode with
      | .text =>
          .ok (.ok (Lexeme.endOfInput.token scanner.loops scanner.position.place.span)) scanner
      | .tag => .ok (.error ⟨.unterminatedTag, scanner.position.place.span⟩) scanner := by
  have hfollows := follows_beyond howed hend
  obtain ⟨template, ⟨place, mode, owed⟩, loops⟩ := scanner
  cases howed
  cases mode <;> exact hfollows

theorem atEnd_inside (hahead : Bytewise.ahead scanner = .ok (byte :: bytes) scanner) :
    atEnd scanner = .ok false scanner :=
  bind_ok hahead

theorem seesAscii_inside (hahead : Bytewise.ahead scanner = .ok (byte :: bytes) scanner)
    (hbyte : 128 ≤ byte.toNat) (p : Char → Bool) :
    seesAscii p scanner = .ok false scanner := by
  rw [seesAscii, bind_ok hahead, List.head?_cons, Option.any_some, isAscii_of_le hbyte]
  rfl

theorem sees_inside (hahead : Bytewise.ahead scanner = .ok (byte :: bytes) scanner)
    (hbyte : 128 ≤ byte.toNat) {c : Char} (hc : c.toNat < 128) (text : List Char) :
    sees (c :: text) scanner = .ok false scanner := by
  have hne : (UInt8.ofNat c.toNat == byte) = false := by
    rw [beq_eq_false_iff_ne]
    rintro rfl
    rw [toNat_ofNat_of_lt hc] at hbyte
    omega
  rw [sees, bind_ok hahead, utf8Bytes_cons, utf8EncodeChar_of_lt hc, List.singleton_append,
    List.isPrefixOf, hne]
  rfl

theorem cut_inside
    (hinside : charsAfter scanner.position.place.offset scanner.template = none) :
    cut scanner.position.place.offset scanner =
      .error ⟨scanner.position.place.offset⟩ scanner := by
  have hsome : (if scanner.position.place.offset ≤ utf8Length scanner.template then
      charsAfter scanner.position.place.offset scanner.template else none) = none := by
    rw [hinside, ite_self]
  rw [cut, bind_get, hsome]
  rfl

/-- Inside a character a scan gets no further than its first cut. -/
theorem scan_inside (howed : scanner.position.owed = none)
    (hinside : charsAfter scanner.position.place.offset scanner.template = none) :
    Bytewise.scan scanner = .error ⟨scanner.position.place.offset⟩ scanner := by
  obtain ⟨byte, bytes, hdrop, hbyte⟩ := drop_utf8Bytes_of_none hinside
  have hahead : Bytewise.ahead scanner = .ok (byte :: bytes) scanner := by
    rw [← hdrop]
    rfl
  have hend := atEnd_inside hahead
  have hcut := cut_inside hinside
  have hsees (c : Char) (hc : c.toNat < 128) (text : List Char) :
      sees (c :: text) scanner = .ok false scanner :=
    sees_inside hahead hbyte hc text
  -- In both modes the byte ahead fails every test, and the last resort is to cut.
  cases hmode : scanner.position.mode with
  | text =>
      have hread : readText (bytes.length + 1) [] scanner =
          .error ⟨scanner.position.place.offset⟩ scanner := by
        rw [readText, bind_false hend, bind_false (hsees _ (by decide) _),
          bind_false (hsees _ (by decide) _), bind_false (hsees _ (by decide) _)]
        apply bind_error
        rw [pass, bind_ok (here_eq _)]
        exact bind_error hcut
      rw [scan_text howed hmode]
      apply bind_error
      rw [scanText, bind_ok (span_eq _), bind_ok hahead]
      exact bind_error hread
  | tag =>
      have hascii := seesAscii_inside hahead hbyte
      have hblanks : passWhile TagItem.isBlank (bytes.length + 1) scanner = .ok () scanner :=
        bind_false (hascii _)
      rw [scan_tag howed hmode, scanTag, bind_ok hahead]
      change (passWhile _ (bytes.length + 1) >>= _) scanner = _
      rw [bind_ok hblanks, scanItem, bind_ok (span_eq _), bind_false hend,
        bind_false (hsees _ (by decide) _), bind_false (hsees _ (by decide) _),
        bind_false (hascii _), bind_false (hsees _ (by decide) _), bind_ok (here_eq _)]
      exact bind_error hcut

end Outcomes

theorem cursor?_eq_none_iff (scanner : Scanner) :
    scanner.cursor? = none ↔ scanner.position.owed = none ∧
      charsAfter scanner.position.place.offset scanner.template = none := by
  unfold Scanner.cursor?
  cases charsAfter scanner.position.place.offset scanner.template <;>
    cases scanner.position.owed <;> simp

/-- Wherever there is a cursor to scan on from, the scan of bytes does what the cursor does. -/
theorem follows_cursor? {scanner : Scanner} {cursor : Cursor}
    (hcursor : scanner.cursor? = some cursor) : Follows scanner cursor := by
  cases howed : scanner.position.owed with
  | some span =>
      obtain ⟨ahead, rfl⟩ : ∃ ahead, cursor = ⟨scanner.position, ahead⟩ := by
        cases hafter : charsAfter scanner.position.place.offset scanner.template with
        | some ahead => exact ⟨ahead, by simpa [Scanner.cursor?, hafter] using hcursor.symm⟩
        | none => exact ⟨[], by simpa [Scanner.cursor?, hafter, howed] using hcursor.symm⟩
      exact follows_owed howed
  | none =>
      cases hafter : charsAfter scanner.position.place.offset scanner.template with
      | none =>
          rw [(cursor?_eq_none_iff scanner).mpr ⟨howed, hafter⟩] at hcursor
          cases hcursor
      | some chars =>
          obtain rfl : ⟨scanner.position, chars⟩ = cursor := by
            simpa [Scanner.cursor?, hafter] using hcursor
          by_cases hle : scanner.position.place.offset ≤ utf8Length scanner.template
          · obtain ⟨before, hbefore⟩ := exists_of_charsAfter hafter hle
            exact follows_between howed hbefore
          · have hend := Nat.le_of_not_le hle
            obtain rfl : chars = [] := Option.some.inj (hafter.symm.trans (charsAfter_of_le hend))
            exact follows_beyond howed hend

/-- Scanning bytes comes to what scanning characters comes to. -/
theorem outcome_scan (scanner : Scanner) : outcome (Bytewise.scan scanner) = scanner.scan := by
  cases hcursor : scanner.cursor? with
  | some cursor =>
      rw [follows_cursor? hcursor, Scanner.scan, hcursor]
      simp only [Cursor.next_eq]
      cases cursor.scan.1 <;> rfl
  | none =>
      obtain ⟨howed, hinside⟩ := (cursor?_eq_none_iff scanner).mp hcursor
      rw [scan_inside howed hinside, Scanner.scan, hcursor]
      rfl

/-- A scan makes a bad cut just where no character begins and nothing is owed. -/
theorem bad_cut_iff (scanner : Scanner) :
    (∃ cut later, Bytewise.scan scanner = .error cut later) ↔
      scanner.position.owed = none ∧
        charsAfter scanner.position.place.offset scanner.template = none := by
  constructor
  · rintro ⟨cut, later, hcut⟩
    rw [← cursor?_eq_none_iff]
    cases hcursor : scanner.cursor? with
    | none => rfl
    | some cursor =>
        rw [follows_cursor? hcursor] at hcut
        cases hcut
  · rintro ⟨howed, hinside⟩
    exact ⟨_, _, scan_inside howed hinside⟩

def reader : Reader Scanner Position where
  scan scanner :=
    let (found, later) := outcome (scan scanner)
    (some found, later)
  position := Scanner.position
  seek := Scanner.seek

theorem reader_eq : reader = Scanner.reader := by
  have hscan (scanner : Scanner) : reader.scan scanner = Scanner.reader.scan scanner := by
    change (some (outcome (scan scanner)).1, (outcome (scan scanner)).2) = _
    rw [outcome_scan]
    rfl
  rw [reader, Scanner.reader, Reader.mk.injEq]
  exact ⟨funext hscan, rfl, rfl⟩

/-! ### A whole template -/

def tokens : Nat → Bytewise (Except ScanError (List Token))
  | 0 => return .ok []
  | bound + 1 => do
      match ← scan with
      | .error error => return .error error
      | .ok token =>
          if token.kind = .endOfInput then return .ok [token]
          else
            let later ← tokens bound
            return later.map (token :: ·)

theorem follows_on {scanner : Scanner} {cursor : Cursor} (hon : cursor.On scanner.template)
    (hposition : scanner.position = cursor.position) : Follows scanner cursor := by
  apply follows_cursor?
  unfold Scanner.cursor?
  rw [hposition, hon.charsAfter_eq]

theorem tokens_ok {bound : Nat} {scanner : Scanner} {cursor : Cursor}
    (hon : cursor.On scanner.template) (hposition : scanner.position = cursor.position)
    (hbound : cursor.readings.length ≤ bound) :
    ∃ later, tokens bound scanner =
      .ok (Reading.tokens scanner.loops cursor.readings) later := by
  induction bound generalizing scanner cursor with
  | zero =>
      obtain ⟨earlier, last, hreadings, -, -⟩ := cursor.readings_eq_append
      simp [hreadings] at hbound
  | succ bound ih =>
      have hscan := follows_on hon hposition
      rw [tokens, bind_ok hscan]
      cases hreading : cursor.scan.1 with
      | error error =>
          rw [Cursor.readings_of_isLast (by simp [hreading, Reading.isLast]), hreading]
          exact ⟨_, rfl⟩
      | ok mark =>
          by_cases hend : mark.1 = .endOfInput
          · have hkind : (mark.1.token scanner.loops mark.2).kind = .endOfInput := by
              rw [hend]
              rfl
            rw [Cursor.readings_of_isLast (by simp [hreading, Reading.isLast, hend]), hreading]
            simp only [Except.map, hkind, if_true]
            exact ⟨_, rfl⟩
          · have hkind : ¬(mark.1.token scanner.loops mark.2).kind = .endOfInput := by
              rwa [Lexeme.token_kind, Lexeme.kind_eq_endOfInput_iff]
            have hlast : Reading.isLast cursor.scan.1 = false := by
              simpa [hreading, Reading.isLast] using hend
            rw [Cursor.readings_of_not_isLast hlast] at hbound ⊢
            obtain ⟨later, hlater⟩ := @ih
              ⟨scanner.template, cursor.scan.2.position,
                scanner.loops + Reading.loops cursor.scan.1⟩
              cursor.scan.2 hon.scan rfl (by simpa using hbound)
            simp only [hreading] at hlater ⊢
            simp only [Except.map, hkind, if_false]
            rw [bind_ok hlater]
            exact ⟨_, rfl⟩

end Bytewise

end Stencil
