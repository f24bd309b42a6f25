import Mathlib.Logic.Function.Iterate
import Stencil.Proofs.Bytewise

/-!
# Progress

A scan reads on unless it hands out an opening that is owed, and an opening is
owed only after it has been passed.  So the scans of a template come to an end,
and behind the end each scan is the last one again.  The loops inside a scan
come to theirs because between characters each round passes over some.
-/

namespace Stencil

theorem Place.offset_lt_after (here : Place) {passed : List Char} (h : passed ≠ []) :
    here.offset < (here.after passed).offset := by
  obtain ⟨c, passed, rfl⟩ := List.exists_cons_of_ne_nil h
  have hpos := c.utf8Size_pos
  rw [offset_after, utf8Length_cons]
  omega

/-! ## One scan -/

theorem Reading.loops_of_isLast {reading : Reading} (h : isLast reading) : loops reading = 0 := by
  rcases reading with error | ⟨lexeme, span⟩
  · rfl
  · obtain rfl : lexeme = .endOfInput := by simpa [isLast] using h
    rfl

namespace Cursor.Scans

variable {cursor next : Cursor} {reading : Reading}

theorem advances {mark : Mark} (h : Scans cursor (.ok mark) next) (hmark : mark.1 ≠ .endOfInput) :
    (mark.1 = .scriptBegin ∧ cursor.position.owed = some mark.2 ∧
        next.position = { cursor.position with owed := none }) ∨
      (cursor.position.owed = none ∧
        cursor.position.place.offset < next.position.place.offset) := by
  generalize hreading : (Except.ok mark : Reading) = reading at h
  cases h with
  | owed place mode span ahead =>
      cases hreading
      exact .inl ⟨rfl, rfl, rfl⟩
  | endOfInput =>
      cases hreading
      exact absurd rfl hmark
  | opening place => exact .inr ⟨rfl, place.offset_lt_after (by simp)⟩
  | lastText place run hpieces =>
      have hspelling : run.spelling ≠ [] := mt run.spelling_eq_nil_iff.mp hpieces
      exact .inr ⟨rfl, place.offset_lt_after hspelling⟩
  | text place run =>
      rw [← Place.after_append]
      exact .inr ⟨rfl, place.offset_lt_after (by simp)⟩
  | item place blanks rest item _ hread =>
      have hspelling := TagItem.spelling_ne_nil_of_read hread
      rw [← Place.after_append]
      exact .inr ⟨rfl, place.offset_lt_after (by simp [hspelling])⟩
  | stuck => cases hreading

/-- An opening is owed only behind a text, and has been passed. -/
theorem owed_passed (h : Scans cursor reading next) {span : Span}
    (howed : next.position.owed = some span) :
    cursor.position.owed = none ∧ ∃ text, text ≠ [] ∧
      cursor.ahead = text ++ '{' :: '{' :: next.ahead ∧
      next.position.place = cursor.position.place.after (text ++ ['{', '{']) ∧
      span = (cursor.position.place.after text).span := by
  cases h with
  | text place run beyond hpieces =>
      cases howed
      exact ⟨rfl, run.spelling, mt run.spelling_eq_nil_iff.mp hpieces, rfl,
        (Place.after_append ..).symm, rfl⟩
  | owed | endOfInput | opening | lastText | item | stuck => cases howed

end Cursor.Scans

namespace Scanner

/-- An opening that is owed is handed out in its place; every other scan reads on. -/
def Advances (scanner : Scanner) : Prop :=
  ∀ token, scanner.scan.1 = .token token → token.kind ≠ .endOfInput →
    (token.kind = .scriptBegin ∧ scanner.position.owed = some token.span ∧
        scanner.scan.2.position = { scanner.position with owed := none }) ∨
      (scanner.position.owed = none ∧
        scanner.position.place.offset < scanner.scan.2.position.place.offset)

/-- What is owed after a scan is an opening that the scan has passed, behind a text. -/
def OwesPassed (scanner : Scanner) : Prop :=
  ∀ span, scanner.scan.2.position.owed = some span →
    scanner.position.owed = none ∧ ∃ before text ahead, text ≠ [] ∧
      scanner.template = before ++ text ++ '{' :: '{' :: ahead ∧
      scanner.position.place = Place.start.after before ∧
      scanner.scan.2.position.place = Place.start.after (before ++ text ++ ['{', '{']) ∧
      span = spanAfter (before ++ text)

/-- After the last scan each further one is the same, and leaves the scanner as it is. -/
def Rests (scanner : Scanner) : Prop :=
  scanner.scan.1.isLast → ∀ count, (fun made => made.2.scan)^[count] scanner.scan = scanner.scan

section Reached

variable {scanner : Scanner} {cursor : Cursor} (hon : cursor.On scanner.template)
  (hposition : scanner.position = cursor.position)
include hon hposition

theorem advances_of_on : scanner.Advances := by
  intro token htoken hkind
  rw [scan_eq hon hposition] at htoken ⊢
  rw [hposition]
  have hscans := cursor.scan_scans
  generalize cursor.scan.1 = reading at htoken hscans
  rcases reading with error | ⟨lexeme, span⟩
  · cases htoken
  · cases htoken
    have hlexeme : lexeme ≠ .endOfInput := by
      rwa [Lexeme.token_kind, ne_eq, Lexeme.kind_eq_endOfInput_iff] at hkind
    refine (hscans.advances hlexeme).imp_left fun ⟨hbegin, howed, hnext⟩ => ⟨?_, howed, hnext⟩
    rw [Lexeme.token_kind, show lexeme = .scriptBegin from hbegin]
    rfl

theorem owesPassed_of_on : scanner.OwesPassed := by
  intro span hspan
  rw [scan_eq hon hposition] at hspan ⊢
  obtain ⟨hnone, text, hne, hahead, hplace, rfl⟩ := cursor.scan_scans.owed_passed hspan
  obtain ⟨before, htemplate, hbefore⟩ := hon
  refine ⟨hposition ▸ hnone, before, text, cursor.scan.2.ahead, hne, ?_, hposition ▸ hbefore,
    ?_, ?_⟩
  · rw [htemplate, hahead, List.append_assoc]
  · rw [hplace, hbefore, ← Place.after_append, List.append_assoc]
  · rw [hbefore, ← Place.after_append, Place.span_start_after]

theorem rests_of_on : scanner.Rests := by
  intro hlast count
  have hscan := scan_eq hon hposition
  have hlast : Reading.isLast cursor.scan.1 := by simpa [hscan] using hlast
  have hloops := Reading.loops_of_isLast hlast
  -- A failed scan in a tag passes over blanks once; behind them it is the same again.
  let later : Scanner := ⟨scanner.template, cursor.scan.2.position, scanner.loops⟩
  have hlater : scanner.scan = (Reading.scan scanner.loops cursor.scan.1, later) := by
    rw [hscan, hloops]
    rfl
  have hagain : later.scan = (Reading.scan scanner.loops cursor.scan.1, later) := by
    rw [@scan_eq later cursor.scan.2 hon.scan rfl, Cursor.scan_scan_of_isLast hlast, hloops]
    rfl
  rw [hlater]
  exact Function.iterate_fixed hagain count

end Reached

/-! ## The scans of a template -/

/-- Scanning up to the first scan that is the last, with the number of scans it takes. -/
inductive Tokenizes : Scanner → Nat → Except ScanError (List Token) → Prop
  | endOfInput {scanner later : Scanner} {token : Token}
      (hscan : scanner.scan = (.token token, later)) (hkind : token.kind = .endOfInput) :
      Tokenizes scanner 1 (.ok [token])
  | failure {scanner later : Scanner} {error : ScanError}
      (hscan : scanner.scan = (.failure error, later)) : Tokenizes scanner 1 (.error error)
  | token {scanner later : Scanner} {token : Token} {count : Nat}
      {result : Except ScanError (List Token)}
      (hscan : scanner.scan = (.token token, later)) (hkind : token.kind ≠ .endOfInput)
      (hlater : Tokenizes later count result) :
      Tokenizes scanner (count + 1) (result.map (token :: ·))

theorem tokenizes_of_on {scanner : Scanner} {cursor : Cursor} (hon : cursor.On scanner.template)
    (hposition : scanner.position = cursor.position) :
    scanner.Tokenizes cursor.readings.length (Reading.tokens scanner.loops cursor.readings) := by
  induction cursor using Cursor.readings.induct generalizing scanner with
  | case1 cursor hlast =>
      have hscan := scan_eq hon hposition
      rw [Cursor.readings_of_isLast hlast]
      cases hreading : cursor.scan.1 with
      | error error =>
          rw [hreading] at hscan
          exact .failure hscan
      | ok mark =>
          obtain ⟨lexeme, span⟩ := mark
          rw [hreading] at hscan hlast
          obtain rfl : lexeme = .endOfInput := by simpa [Reading.isLast] using hlast
          exact .endOfInput hscan rfl
  | case2 cursor hlast ih =>
      have hscan := scan_eq hon hposition
      have hlast : Reading.isLast cursor.scan.1 = false := by simpa using hlast
      rw [Cursor.readings_of_not_isLast hlast]
      cases hreading : cursor.scan.1 with
      | error error => simp [hreading, Reading.isLast] at hlast
      | ok mark =>
          rw [hreading] at hscan hlast
          have hkind : (mark.1.token scanner.loops mark.2).kind ≠ .endOfInput := by
            simpa [Reading.isLast, Lexeme.kind_eq_endOfInput_iff] using hlast
          exact .token hscan hkind (ih hon.scan rfl)

/-- Tokens are as many as the scans, and only the last of them is the end of the input. -/
theorem Tokenizes.tokens {scanner : Scanner} {count : Nat}
    {result : Except ScanError (List Token)} (h : scanner.Tokenizes count result)
    {tokens : List Token} (hresult : result = .ok tokens) :
    tokens.length = count ∧ ∃ earlier last, tokens = earlier ++ [last] ∧
      last.kind = .endOfInput ∧ ∀ token ∈ earlier, token.kind ≠ .endOfInput := by
  induction h generalizing tokens with
  | endOfInput hscan hkind =>
      cases hresult
      exact ⟨rfl, [], _, rfl, hkind, by simp⟩
  | failure => cases hresult
  | @token _ _ token count result hscan hkind hlater ih =>
      cases result with
      | error error => cases hresult
      | ok later =>
          cases hresult
          obtain ⟨hlength, earlier, last, rfl, hlast, hearlier⟩ := ih rfl
          exact ⟨congrArg (· + 1) hlength, token :: earlier, last, rfl, hlast,
            List.forall_mem_cons.mpr ⟨hkind, hearlier⟩⟩

end Scanner

/-! ## The loops of a scan -/

namespace Bytewise

/--
A round passes over characters that are ahead, and leaves the rounds that are
still to come between characters again.
-/
def Consumes {α : Type} (loop next : Nat → Bytewise α) (before ahead : List Char)
    (scanner : Scanner) : Prop :=
  ∃ passed rest, passed ≠ [] ∧ ahead = passed ++ rest ∧
    (scanner.pass passed).Splits (before ++ passed) rest ∧
    ∀ rounds, loop (rounds + 1) scanner = next rounds (scanner.pass passed)

/-- A round of the loop over text ends it, behind an opening if there is one, or reads on. -/
inductive TextRound (before ahead text : List Char) (scanner : Scanner) : Prop
  | endOfInput (hahead : ahead = [])
      (h : ∀ rounds, readText rounds text scanner = .ok (text, none) scanner)
  | opening (beyond : List Char) (hahead : ahead = '{' :: '{' :: beyond)
      (h : ∀ rounds, readText (rounds + 1) text scanner =
        .ok (text, some scanner.position.place.span) (scanner.pass ['{', '{']))
  | consumes (meaning : List Char)
      (h : Consumes (readText · text) (readText · (text ++ meaning)) before ahead scanner)

/-- A round of a loop over characters of one kind ends it at another character, or passes one. -/
inductive SkipRound (p : Char → Bool) (before ahead : List Char) (scanner : Scanner) : Prop
  | stops (hahead : ahead.head?.any p = false)
      (h : ∀ rounds, passWhile p rounds scanner = .ok () scanner)
  | consumes (hahead : ahead.head?.any p = true)
      (h : Consumes (passWhile p) (passWhile p) before ahead scanner)

section Rounds

variable {scanner : Scanner} {before ahead : List Char}

/-- Between characters a byte that is seen ahead begins a character, which can be passed. -/
theorem pass_of_ahead (h : scanner.Splits before ahead) {byte : UInt8} {bytes : List UInt8}
    (hahead : Bytewise.ahead scanner = .ok (byte :: bytes) scanner) :
    ∃ c rest, ahead = c :: rest ∧ pass scanner = .ok (some c) (scanner.pass [c]) := by
  rw [ahead_ok h] at hahead
  cases ahead with
  | nil => cases hahead
  | cons c rest => exact ⟨c, rest, rfl, pass_ok h⟩

theorem textRound (h : scanner.Splits before ahead) (text : List Char) :
    TextRound before ahead text scanner := by
  obtain ⟨⟨pieces, beyond⟩, hread⟩ : ∃ run, TextRun.read ahead = run := ⟨_, rfl⟩
  have hspells := (TextRun.read_eq_iff ..).mp hread
  cases pieces with
  | nil =>
      have hahead : ahead = (⟨[], beyond⟩ : TextRun).rest := hspells.source_eq
      cases beyond with
      | none =>
          obtain rfl : ahead = [] := hahead
          exact .endOfInput rfl fun rounds => readText_end rounds text h
      | some beyond =>
          obtain rfl : ahead = '{' :: '{' :: beyond := hahead
          exact .opening beyond rfl fun rounds => readText_opening rounds text h
  | cons piece pieces =>
      cases hspells with
      | @cons _ ahead _ _ hfits =>
          have hne : piece.spelling ≠ [] := by cases piece <;> exact List.cons_ne_nil _ _
          refine .consumes piece.meaning ⟨piece.spelling, ahead, hne, rfl, h.pass, ?_⟩
          exact fun rounds => readText_piece hfits rounds text h

theorem skipRound {p : Char → Bool} (hp : ∀ c, p c → c.toNat < 128)
    (h : scanner.Splits before ahead) : SkipRound p before ahead scanner := by
  cases hseen : ahead.head?.any p with
  | false =>
      refine .stops hseen fun rounds => ?_
      cases rounds with
      | zero => rfl
      | succ rounds => exact bind_false (seesAscii_ok hp h hseen)
  | true =>
      obtain ⟨c, rest, rfl⟩ : ∃ c rest, ahead = c :: rest := by cases ahead <;> simp_all
      refine .consumes hseen ⟨[c], rest, by simp, rfl, Scanner.Splits.pass (by simpa using h), ?_⟩
      intro rounds
      rw [passWhile, bind_true (seesAscii_ok hp h hseen), bind_ok (discard_pass_ok h)]

/-- As many rounds as there are characters ahead come to what more of them come to. -/
theorem readText_of_le (h : scanner.Splits before ahead) (text : List Char) {rounds more : Nat}
    (hrounds : ahead.length ≤ rounds) (hmore : ahead.length ≤ more) :
    readText rounds text scanner = readText more text scanner := by
  -- Both numbers fall by one with a round, and the characters ahead by one at least.
  induction rounds generalizing scanner before ahead text more with
  | zero =>
      obtain rfl : ahead = [] := List.length_eq_zero_iff.mp (Nat.le_zero.mp hrounds)
      rw [readText_end 0 text h, readText_end more text h]
  | succ rounds ih =>
      cases textRound h text with
      | endOfInput _ hend => rw [hend, hend]
      | opening beyond hahead hopening =>
          obtain ⟨more, rfl⟩ : ∃ fewer, more = fewer + 1 :=
            Nat.exists_eq_succ_of_ne_zero (by rintro rfl; simp [hahead] at hmore)
          rw [hopening, hopening]
      | consumes meaning hconsumes =>
          obtain ⟨passed, rest, hne, rfl, hnext, hround⟩ := hconsumes
          have hpos := List.length_pos_iff.mpr hne
          rw [List.length_append] at hrounds hmore
          obtain ⟨more, rfl⟩ : ∃ fewer, more = fewer + 1 :=
            Nat.exists_eq_succ_of_ne_zero (by omega)
          exact (hround rounds).trans
            ((ih hnext (text ++ meaning) (by omega) (by omega)).trans (hround more).symm)

end Rounds

end Bytewise

/-! ## Scanners -/

theorem Cursor.On.splits {scanner : Scanner} {cursor : Cursor} (hon : cursor.On scanner.template)
    (hposition : scanner.position = cursor.position) :
    ∃ before ahead, scanner.Splits before ahead := by
  obtain ⟨before, htemplate, hplace⟩ := hon
  refine ⟨before, cursor.ahead, htemplate, ?_⟩
  rw [hposition, hplace, Place.offset_after]
  exact Nat.zero_add _

/--
Wherever scanners of a template are wound, each scan but the last reads on or
hands out the opening that it owes, which has been passed.  The loops in it end:
between characters, where scanners are, every round passes over a character
that can be read.  So scanning a template takes no more scans than it has
characters and one, of which only the last finds the end of the input; after
it, and after an error, there is nothing else to be found.
-/
theorem scanning_progresses (template : String) :
    (∀ (commands : List Command) (index : Nat),
      let scanner :=
        ((Desk.ofDevice (Scanner.ofTemplate template)).run Bytewise.reader commands).2.devices index
      scanner.Advances ∧ scanner.OwesPassed ∧ scanner.Rests ∧
        scanner.scan.1 ≠ .insideCharacter ∧
        Bytewise.outcome (Bytewise.scan scanner) = scanner.scan ∧
        ∃ before ahead, scanner.Splits before ahead) ∧
    (∀ (scanner : Scanner) (before ahead : List Char), scanner.Splits before ahead →
      (∀ byte bytes, Bytewise.ahead scanner = .ok (byte :: bytes) scanner →
        ∃ c rest, ahead = c :: rest ∧ Bytewise.pass scanner = .ok (some c) (scanner.pass [c])) ∧
      (∀ text, Bytewise.TextRound before ahead text scanner ∧
        ∀ rounds ≥ ahead.length,
          Bytewise.readText rounds text scanner = Bytewise.readText ahead.length text scanner) ∧
      ∀ p ∈ [TagItem.isBlank, Char.isAlphanum], Bytewise.SkipRound p before ahead scanner ∧
        ∀ rounds ≥ ahead.length,
          Bytewise.passWhile p rounds scanner = Bytewise.passWhile p ahead.length scanner) ∧
    ∃ count ≤ template.length + 1,
      (Scanner.ofTemplate template).Tokenizes count (tokensOf template) ∧
      ∀ tokens, tokensOf template = .ok tokens →
        tokens.length = count ∧ ∃ earlier last, tokens = earlier ++ [last] ∧
          last.kind = .endOfInput ∧ ∀ token ∈ earlier, token.kind ≠ .endOfInput := by
  refine ⟨fun commands index => ?_, fun scanner before ahead h => ⟨?_, ?_, ?_⟩, ?_⟩
  · intro scanner
    have hof : scanner.Of template := by
      have hrun := (Scanner.of_run template commands).2 index
      rwa [← Bytewise.reader_eq] at hrun
    obtain ⟨htemplate, mode, before, cursor, hresumes, hposition⟩ := hof
    have hon : cursor.On scanner.template := htemplate ▸ hresumes.on
    refine ⟨Scanner.advances_of_on hon hposition, Scanner.owesPassed_of_on hon hposition,
      Scanner.rests_of_on hon hposition, ?_, Bytewise.outcome_scan scanner, hon.splits hposition⟩
    rw [Scanner.scan_eq hon hposition]
    cases cursor.scan.1 <;> simp [Reading.scan]
  · exact fun byte bytes => Bytewise.pass_of_ahead h
  · exact fun text => ⟨Bytewise.textRound h text,
      fun rounds hrounds => Bytewise.readText_of_le h text hrounds (Nat.le_refl _)⟩
  · intro p hp
    have hascii (c : Char) (hc : p c) : c.toNat < 128 := by
      rcases List.mem_pair.mp hp with rfl | rfl
      · exact toNat_lt_of_isBlank hc
      · exact toNat_lt_of_isAlphanum hc
    refine ⟨Bytewise.skipRound hascii h, fun rounds hrounds => ?_⟩
    rw [Bytewise.passWhile_ok hascii hrounds h, Bytewise.passWhile_ok hascii (Nat.le_refl _) h]
  · have htokenizes := @Scanner.tokenizes_of_on (.ofTemplate template) (.ofTemplate template)
      (.ofTemplate template) rfl
    have hlength := (Cursor.ofTemplate template).length_readings_le
    have hbound := Cursor.scanBound_ofTemplate_le template
    rw [tokensOf_eq]
    exact ⟨_, Nat.le_trans hlength hbound, htokenizes, fun tokens => htokenizes.tokens⟩

/-- A text before an opening that is owed, then handed out in its place, and never closed. -/
theorem scanning_progresses_owed :
    let template := "é\x7b\x7b"
    let scanner (commands : List Command) :=
      ((Desk.ofDevice (Scanner.ofTemplate template)).run Bytewise.reader commands).2.devices 0
    let owing := scanner [.scan 0]
    let last := scanner [.scan 0, .scan 0]
    owing.position.owed = some ⟨1, 2⟩ ∧
      owing.scan.2.position = { owing.position with owed := none } ∧
      last.scan.1 = .failure ⟨.unterminatedTag, ⟨1, 4⟩⟩ ∧
      (∀ count, (fun made => made.2.scan)^[count] last.scan = last.scan) ∧
      ∃ count ≤ 4,
        (Scanner.ofTemplate template).Tokenizes count (.error ⟨.unterminatedTag, ⟨1, 4⟩⟩) := by
  intro template scanner owing last
  obtain ⟨hscanners, -, count, hcount, htokenizes, -⟩ := scanning_progresses template
  obtain ⟨hadvances, -⟩ := hscanners [.scan 0] 0
  obtain ⟨-, -, hrests, -⟩ := hscanners [.scan 0, .scan 0] 0
  have howed : owing.position.owed = some ⟨1, 2⟩ := by decide +kernel
  have hbegin : owing.scan.1 = .token ⟨.scriptBegin, "\x7b\x7b", ⟨1, 2⟩⟩ := by decide +kernel
  have hlast : last.scan.1 = .failure ⟨.unterminatedTag, ⟨1, 4⟩⟩ := by decide +kernel
  have htokens : tokensOf template = .error ⟨.unterminatedTag, ⟨1, 4⟩⟩ := by decide +kernel
  have hlength : template.length = 3 := by decide
  rw [hlength] at hcount
  refine ⟨howed, ?_, hlast, hrests (congrArg Scan.isLast hlast), count, hcount,
    htokens ▸ htokenizes⟩
  rcases hadvances _ hbegin (by decide) with ⟨-, -, hnext⟩ | ⟨hnone, -⟩
  · exact hnext
  · exact absurd (howed.symm.trans hnone) (by decide)

end Stencil
