import Stencil.Scanner

/-!
# Readings

What a cursor comes to when it scans on: a finite row of readings, of which
only the last is the end of the input or a fault.  The tokens of a template
and the scans of a scanner are this row with its loops numbered.
-/

namespace Stencil

theorem all_head?_dropWhile (p : Char → Bool) (chars : List Char) :
    (chars.dropWhile p).head?.all (!p ·) := by
  have h := List.head?_dropWhile_not p chars
  cases hhead : (chars.dropWhile p).head? <;> simp_all

theorem takeWhile_append_stop {p : Char → Bool} {chars rest : List Char} (hchars : chars.all p)
    (hrest : rest.head?.all (!p ·)) : (chars ++ rest).takeWhile p = chars := by
  rw [List.takeWhile_append_of_pos (by simpa using hchars)]
  cases rest <;> simp_all

theorem Lexeme.kind_eq_endOfInput_iff (lexeme : Lexeme) :
    lexeme.kind = .endOfInput ↔ lexeme = .endOfInput := by
  cases lexeme <;> simp [kind]

/-- A lexeme with the location where it begins. -/
abbrev Mark := Lexeme × Span

abbrev Reading := Except ScanError Mark

namespace Reading

def isLast : Reading → Bool
  | .ok mark => mark.1 = .endOfInput
  | .error _ => true

def loops : Reading → Nat
  | .ok mark => mark.1.loops
  | .error _ => 0

/-- The scan that the reading comes to when the next loop has the given number. -/
def scan (number : Nat) : Reading → Scan
  | .ok mark => .token (mark.1.token number mark.2)
  | .error error => .failure error

@[simp] theorem isLast_scan (number : Nat) (reading : Reading) :
    (scan number reading).isLast = isLast reading := by
  rcases reading with error | ⟨lexeme, span⟩
  · rfl
  · cases lexeme <;> rfl

/-- The scans of a row of readings, every loop being numbered in its turn. -/
def numbered : Nat → List Reading → List Scan
  | _, [] => []
  | number, reading :: readings =>
      scan number reading :: numbered (number + loops reading) readings

def tokens : Nat → List Reading → Except ScanError (List Token)
  | _, [] => .ok []
  | _, .error error :: _ => .error error
  | number, .ok mark :: readings =>
      (tokens (number + mark.1.loops) readings).map (mark.1.token number mark.2 :: ·)

end Reading

namespace Cursor

/-! ## One scan -/

/--
The ways a scan can go.  Texts and items are read from characters; what is
read and what is left make up the input.
-/
inductive Scans : Cursor → Reading → Cursor → Prop
  | owed (place : Place) (mode : Mode) (span : Span) (ahead : List Char) :
      Scans ⟨⟨place, mode, some span⟩, ahead⟩ (.ok (.scriptBegin, span))
        ⟨⟨place, mode, none⟩, ahead⟩
  | endOfInput (place : Place) :
      Scans ⟨⟨place, .text, none⟩, []⟩ (.ok (.endOfInput, place.span))
        ⟨⟨place, .text, none⟩, []⟩
  | opening (place : Place) (beyond : List Char) :
      Scans ⟨⟨place, .text, none⟩, '{' :: '{' :: beyond⟩
        (.ok (.scriptBegin, place.span))
        ⟨⟨place.after ['{', '{'], .tag, none⟩, beyond⟩
  | lastText (place : Place) (run : TextRun) (hpieces : run.pieces ≠ [])
      (hbeyond : run.beyond = none) (hread : TextRun.read run.spelling = run) :
      Scans ⟨⟨place, .text, none⟩, run.spelling⟩
        (.ok (.literal (String.ofList run.meaning), place.span))
        ⟨⟨place.after run.spelling, .text, none⟩, []⟩
  | text (place : Place) (run : TextRun) (beyond : List Char)
      (hpieces : run.pieces ≠ []) (hbeyond : run.beyond = some beyond)
      (hread : TextRun.read (run.spelling ++ '{' :: '{' :: beyond) = run) :
      Scans ⟨⟨place, .text, none⟩, run.spelling ++ '{' :: '{' :: beyond⟩
        (.ok (.literal (String.ofList run.meaning), place.span))
        ⟨⟨(place.after run.spelling).after ['{', '{'], .tag,
          some (place.after run.spelling).span⟩, beyond⟩
  | item (place : Place) (blanks rest : List Char) (item : TagItem)
      (hblanks : blanks.all TagItem.isBlank)
      (hread : TagItem.read (item.spelling ++ rest) = .ok item) :
      Scans ⟨⟨place, .tag, none⟩, blanks ++ (item.spelling ++ rest)⟩
        (.ok (item.lexeme, (place.after blanks).span))
        ⟨⟨(place.after blanks).after item.spelling, item.modeAfter, none⟩, rest⟩
  | stuck (place : Place) (blanks items : List Char) (fault : ScanFault)
      (hblanks : blanks.all TagItem.isBlank)
      (hitems : items.head?.all (!TagItem.isBlank ·))
      (hread : TagItem.read items = .error fault) :
      Scans ⟨⟨place, .tag, none⟩, blanks ++ items⟩
        (.error ⟨fault, (place.after blanks).span⟩)
        ⟨⟨place.after blanks, .tag, none⟩, items⟩

private theorem scanText_scans (place : Place) (ahead : List Char) :
    Scans ⟨⟨place, .text, none⟩, ahead⟩ (.ok (scanText place ahead).1)
      (scanText place ahead).2 := by
  have hspelling := TextRun.read_spelling ahead
  obtain ⟨run, hrun⟩ : ∃ run, TextRun.read ahead = run := ⟨_, rfl⟩
  rw [hrun] at hspelling
  obtain ⟨pieces, beyond⟩ := run
  cases pieces with
  | nil =>
      cases beyond with
      | none =>
          have hahead : ahead = [] := by simpa [TextRun.spelling, TextRun.rest] using hspelling.symm
          subst hahead
          simpa [scanText, hrun] using Scans.endOfInput place
      | some beyond =>
          have hahead : ahead = '{' :: '{' :: beyond := by
            simpa [TextRun.spelling, TextRun.rest] using hspelling.symm
          subst hahead
          simpa [scanText, hrun] using Scans.opening place beyond
  | cons piece pieces =>
      cases beyond with
      | none =>
          have hahead : ahead = (⟨piece :: pieces, none⟩ : TextRun).spelling := by
            simpa [TextRun.rest] using hspelling.symm
          subst hahead
          simpa [scanText, hrun] using
            Scans.lastText place ⟨piece :: pieces, none⟩ (by simp) rfl hrun
      | some beyond =>
          have hahead : ahead =
              (⟨piece :: pieces, some beyond⟩ : TextRun).spelling ++ '{' :: '{' :: beyond :=
            hspelling.symm
          subst hahead
          simpa [scanText, hrun] using
            Scans.text place ⟨piece :: pieces, some beyond⟩ beyond (by simp) rfl hrun

private theorem scanTag_scans (place : Place) (ahead : List Char) :
    Scans ⟨⟨place, .tag, none⟩, ahead⟩ (scanTag place ahead).1 (scanTag place ahead).2 := by
  have hahead : ahead.takeWhile TagItem.isBlank ++ ahead.dropWhile TagItem.isBlank = ahead :=
    List.takeWhile_append_dropWhile
  have hblanks : (ahead.takeWhile TagItem.isBlank).all TagItem.isBlank := by simp
  unfold scanTag
  cases hread : TagItem.read (ahead.dropWhile TagItem.isBlank) with
  | error fault =>
      have hitems := all_head?_dropWhile TagItem.isBlank ahead
      simpa [hread, hahead] using Scans.stuck place _ _ fault hblanks hitems hread
  | ok item =>
      obtain ⟨rest, hrest⟩ := TagItem.spelling_prefix_of_read hread
      rw [← hrest] at hread hahead
      have hscans := Scans.item place _ rest item hblanks hread
      rw [hahead] at hscans
      simpa [← hrest, hread] using hscans

theorem scan_scans (cursor : Cursor) : Scans cursor cursor.scan.1 cursor.scan.2 := by
  obtain ⟨⟨place, mode, owed⟩, ahead⟩ := cursor
  cases owed with
  | some span => exact .owed place mode span ahead
  | none =>
      cases mode with
      | text => exact scanText_scans place ahead
      | tag => exact scanTag_scans place ahead

private theorem Scans.scanBound_lt {cursor next : Cursor} {reading : Reading}
    (h : Scans cursor reading next) (hlast : reading.isLast = false) :
    next.scanBound < cursor.scanBound := by
  cases h with
  | owed => simp [scanBound]
  | endOfInput => simp [Reading.isLast] at hlast
  | opening => simp [scanBound]
  | lastText place run hpieces =>
      simpa [scanBound, List.length_pos_iff, run.spelling_eq_nil_iff] using hpieces
  | text place run beyond hpieces =>
      have hlength : 0 < run.spelling.length := by
        simpa [List.length_pos_iff, run.spelling_eq_nil_iff] using hpieces
      simp only [scanBound, List.length_append, List.length_cons, Option.isSome_some,
        Option.isSome_none, Bool.false_eq_true, if_true, if_false]
      omega
  | item place blanks rest item _ hread =>
      have hlength := List.length_pos_iff.mpr (TagItem.spelling_ne_nil_of_read hread)
      simp [scanBound]
      omega
  | stuck => simp [Reading.isLast] at hlast

/-- Every scan but the last reads on or hands out what is owed. -/
theorem scanBound_scan_lt {cursor : Cursor} (hlast : Reading.isLast cursor.scan.1 = false) :
    cursor.scan.2.scanBound < cursor.scanBound :=
  (scan_scans cursor).scanBound_lt hlast

theorem scanBound_scan_le (cursor : Cursor) :
    cursor.scan.2.scanBound ≤ cursor.scanBound := by
  cases hlast : Reading.isLast cursor.scan.1 with
  | false => exact Nat.le_of_lt (scanBound_scan_lt hlast)
  | true =>
      generalize hreading : cursor.scan.1 = reading at hlast
      have hscans := cursor.scan_scans
      rw [hreading] at hscans
      generalize cursor.scan.2 = next at hscans ⊢
      cases hscans with
      | owed | opening | lastText | text => simp [Reading.isLast] at hlast
      | item _ _ _ item => cases item <;> simp [Reading.isLast, TagItem.lexeme] at hlast
      | endOfInput => exact Nat.le_refl _
      | stuck => simp [scanBound]

theorem takeWhile_isBlank_eq_nil {items : List Char}
    (hitems : items.head?.all (!TagItem.isBlank ·)) :
    items.takeWhile TagItem.isBlank = [] ∧ items.dropWhile TagItem.isBlank = items := by
  cases items with
  | nil => simp
  | cons c items => simp_all

/-- A cursor that came to its last reading comes to it again, and moves no more. -/
theorem scan_scan_of_isLast {cursor : Cursor} (hlast : Reading.isLast cursor.scan.1) :
    cursor.scan.2.scan = cursor.scan := by
  generalize hreading : cursor.scan.1 = reading at hlast
  generalize hnext : cursor.scan.2 = next
  have hscan : cursor.scan = (reading, next) := Prod.ext hreading hnext
  have hscans := scan_scans cursor
  rw [hscan] at hscans ⊢
  cases hscans with
  | owed | opening | lastText | text => simp [Reading.isLast] at hlast
  | item _ _ _ item => cases item <;> simp [Reading.isLast, TagItem.lexeme] at hlast
  | endOfInput => exact hscan
  | stuck place blanks items fault hblanks hitems hread =>
      obtain ⟨htake, hdrop⟩ := takeWhile_isBlank_eq_nil hitems
      simp [scan, scanTag, htake, hdrop, hread]

/-! ## The row of readings -/

/-- What a cursor comes to when it scans on. -/
def readings (cursor : Cursor) : List Reading :=
  if _h : Reading.isLast cursor.scan.1 then [cursor.scan.1]
  else cursor.scan.1 :: cursor.scan.2.readings
termination_by cursor.scanBound
decreasing_by exact scanBound_scan_lt (by simpa using _h)

theorem readings_of_isLast {cursor : Cursor} (hlast : Reading.isLast cursor.scan.1) :
    cursor.readings = [cursor.scan.1] := by
  rw [readings, dif_pos hlast]

theorem readings_of_not_isLast {cursor : Cursor}
    (hlast : Reading.isLast cursor.scan.1 = false) :
    cursor.readings = cursor.scan.1 :: cursor.scan.2.readings := by
  rw [readings, dif_neg (by simp [hlast])]

theorem readings_eq_cons {cursor next : Cursor} {mark : Mark}
    (h : cursor.scan = (.ok mark, next)) (hmark : mark.1 ≠ .endOfInput) :
    cursor.readings = .ok mark :: next.readings := by
  rw [readings_of_not_isLast (by simpa [h, Reading.isLast] using hmark), h]

theorem head?_readings (cursor : Cursor) : cursor.readings.head? = some cursor.scan.1 := by
  cases hlast : Reading.isLast cursor.scan.1 with
  | true => simp [readings_of_isLast hlast]
  | false => simp [readings_of_not_isLast hlast]

theorem readings_scan_of_isLast {cursor : Cursor} (hlast : Reading.isLast cursor.scan.1) :
    cursor.scan.2.readings = cursor.readings := by
  rw [readings_of_isLast hlast, readings_of_isLast, scan_scan_of_isLast hlast]
  rwa [scan_scan_of_isLast hlast]

theorem scanBound_pos (cursor : Cursor) : 0 < cursor.scanBound := by
  unfold scanBound
  split <;> omega

theorem exists_eq_succ (cursor : Cursor) {bound : Nat} (h : cursor.scanBound ≤ bound) :
    ∃ fewer, bound = fewer + 1 :=
  Nat.exists_eq_succ_of_ne_zero (by have hpos := cursor.scanBound_pos; omega)

theorem scanBound_ofTemplate_le (template : String) :
    (ofTemplate template).scanBound ≤ template.length + 1 := by
  simp [ofTemplate, scanBound, Position.start, String.length_toList]

theorem length_readings_le (cursor : Cursor) : cursor.readings.length ≤ cursor.scanBound := by
  induction cursor using readings.induct with
  | case1 cursor hlast =>
      rw [readings_of_isLast hlast]
      exact cursor.scanBound_pos
  | case2 cursor hlast ih =>
      have hlast : Reading.isLast cursor.scan.1 = false := by simpa using hlast
      have hlt := scanBound_scan_lt hlast
      rw [readings_of_not_isLast hlast, List.length_cons]
      omega

/-- Only the last reading is the end of the input or a fault. -/
theorem readings_eq_append (cursor : Cursor) :
    ∃ earlier last, cursor.readings = earlier ++ [last] ∧
      (∀ reading ∈ earlier, Reading.isLast reading = false) ∧ Reading.isLast last := by
  induction cursor using readings.induct with
  | case1 cursor hlast =>
      exact ⟨[], _, readings_of_isLast hlast, by simp, hlast⟩
  | case2 cursor hlast ih =>
      have hlast : Reading.isLast cursor.scan.1 = false := by simpa using hlast
      obtain ⟨earlier, last, hreadings, hearlier, hend⟩ := ih
      refine ⟨cursor.scan.1 :: earlier, last, ?_, ?_, hend⟩
      · rw [readings_of_not_isLast hlast, hreadings, List.cons_append]
      · simpa [hlast] using hearlier

end Cursor

/-! ## The tokens of a template -/

namespace Cursor

theorem next_eq (loops : Nat) (cursor : Cursor) :
    cursor.next loops =
      (cursor.scan.1.map (fun mark => mark.1.token loops mark.2),
        loops + Reading.loops cursor.scan.1, cursor.scan.2) := by
  unfold next
  split <;> simp_all [Except.map, Reading.loops]

theorem tokensFrom_eq (found : List Token) (bound loops : Nat) (cursor : Cursor)
    (hbound : cursor.readings.length ≤ bound) :
    cursor.tokensFrom found bound loops =
      (Reading.tokens loops cursor.readings).map (found.reverse ++ ·) := by
  induction bound generalizing found loops cursor with
  | zero =>
      obtain ⟨earlier, last, hreadings, -, -⟩ := cursor.readings_eq_append
      simp [hreadings] at hbound
  | succ bound ih =>
      cases hlast : Reading.isLast cursor.scan.1 with
      | true =>
          rw [readings_of_isLast hlast, tokensFrom, next_eq]
          cases hscan : cursor.scan.1 with
          | error error => rfl
          | ok mark =>
              have hend : mark.1 = .endOfInput := by
                simpa [hscan, Reading.isLast] using hlast
              simp [Reading.tokens, Except.map, hend, Lexeme.kind]
      | false =>
          rw [readings_of_not_isLast hlast] at hbound ⊢
          rw [tokensFrom, next_eq]
          cases hscan : cursor.scan.1 with
          | error error => simp [hscan, Reading.isLast] at hlast
          | ok mark =>
              have hkind : mark.1.kind ≠ .endOfInput := by
                simpa [hscan, Reading.isLast, Lexeme.kind_eq_endOfInput_iff] using hlast
              have hnext := ih (mark.1.token loops mark.2 :: found)
                (loops + mark.1.loops) cursor.scan.2 (by simpa using hbound)
              simp only [Except.map, Lexeme.token_kind, if_neg hkind, Reading.loops,
                hnext, Reading.tokens]
              cases Reading.tokens (loops + mark.1.loops) cursor.scan.2.readings <;>
                simp

end Cursor

theorem tokensOf_eq (template : String) :
    tokensOf template = Reading.tokens 0 (Cursor.ofTemplate template).readings := by
  unfold tokensOf
  rw [Cursor.tokensFrom_eq [] _ _ _ (Cursor.length_readings_le _)]
  cases Reading.tokens 0 (Cursor.ofTemplate template).readings <;> rfl

end Stencil
