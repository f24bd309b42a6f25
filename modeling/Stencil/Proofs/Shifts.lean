import Stencil.Proofs.Evaluation
import Stencil.Proofs.Locations

/-!
# Shifts

A template is scanned as before when text is put in front of it, but for where
its tokens stand and how its loops are numbered.  Text behind it makes no
difference either, up to the last text of the template, with which it may run
together.
-/

namespace Stencil

/-- What text in front of a template adds to its places and to the numbers of its loops. -/
structure Shift where
  bytes : Nat
  lines : Nat
  columns : Nat
  loops : Nat
  deriving DecidableEq, Repr

namespace Shift

/-- Text in which so many loops are begun. -/
def past (text : String) (loops : Nat) : Shift :=
  let stop := Place.start.after text.toList
  ⟨stop.offset, stop.line - 1, stop.column - 1, loops⟩

/-- Columns move on the first line alone. -/
def span (shift : Shift) (span : Span) : Span :=
  ⟨span.line + shift.lines, if span.line = 1 then span.column + shift.columns else span.column⟩

def place (shift : Shift) (place : Place) : Place :=
  ⟨place.offset + shift.bytes, (shift.span place.span).line, (shift.span place.span).column⟩

def cursor (shift : Shift) (tail : List Char) (cursor : Cursor) : Cursor :=
  { position :=
      { place := shift.place cursor.position.place
        mode := cursor.position.mode
        owed := cursor.position.owed.map shift.span }
    ahead := cursor.ahead ++ tail }

def reading (shift : Shift) : Reading → Reading
  | .ok mark => .ok (mark.1, shift.span mark.2)
  | .error error => .error ⟨error.fault, shift.span error.span⟩

def fault (shift : Shift) : Fault → Fault
  | .lexical error => .lexical ⟨error.fault, shift.span error.span⟩
  | .expected wanted found => .expected wanted (found.1, shift.span found.2)
  | .unexpected found => .unexpected (found.1, shift.span found.2)
  | .unmatchedLoopEnd span => .unmatchedLoopEnd (shift.span span)
  | .unresolved error => .unresolved error

/-- The error is the other with its span and, where a loop begins, its number moved. -/
def Moves (shift : Shift) (error error' : RenderError) : Prop :=
  ∃ (fault : Fault) (number : Nat), error = fault.error number ∧
    error' = (shift.fault fault).error (number + shift.loops)

/-! ## Places -/

@[simp] theorem span_place (shift : Shift) (here : Place) :
    (shift.place here).span = shift.span here.span := rfl

theorem place_advance (shift : Shift) {here : Place} (hline : 1 ≤ here.line) (c : Char) :
    (shift.place here).advance c = shift.place (here.advance c) := by
  unfold Place.advance
  have hlater : here.line ≠ 0 := by omega
  by_cases hbreak : c = '\n'
  · simp [hbreak, place, span, Place.span, hlater, Nat.add_right_comm]
  · by_cases hfirst : here.line = 1 <;>
      simp [hbreak, place, span, Place.span, hfirst, Nat.add_right_comm]

theorem line_advance {here : Place} (hline : 1 ≤ here.line) (c : Char) :
    1 ≤ (here.advance c).line := by
  unfold Place.advance
  split
  · exact Nat.le_add_left 1 here.line
  · exact hline

theorem place_after (shift : Shift) {here : Place} (hline : 1 ≤ here.line) (passed : List Char) :
    (shift.place here).after passed = shift.place (here.after passed) := by
  induction passed generalizing here with
  | nil => rfl
  | cons c passed ih =>
      rw [Place.after_cons, Place.after_cons, place_advance shift hline c]
      exact ih (line_advance hline c)

theorem line_after {here : Place} (hline : 1 ≤ here.line) (passed : List Char) :
    1 ≤ (here.after passed).line := by
  induction passed generalizing here with
  | nil => exact hline
  | cons c passed ih => exact ih (line_advance hline c)

theorem place_past (text : String) (loops : Nat) :
    (past text loops).place .start = Place.start.after text.toList := by
  have hspan := Place.span_start_after text.toList
  obtain ⟨hline, hcolumn⟩ := Span.mk.inj hspan
  simp only [place, past, span, Place.start, Place.span] at hline hcolumn ⊢
  generalize Place.after ⟨0, 1, 1⟩ text.toList = stop at hline hcolumn ⊢
  obtain ⟨offset, line, column⟩ := stop
  simp only [if_true, Place.mk.injEq] at hline hcolumn ⊢
  omega

theorem cursor_past_empty (tail : List Char) (cursor : Cursor) :
    (past "" 0).cursor tail cursor = { cursor with ahead := cursor.ahead ++ tail } := by
  have hspan : (past "" 0).span = id := by
    funext span
    simp [past, Shift.span, Place.start]
  have hplace (place : Place) : (past "" 0).place place = place := by
    simp only [Shift.place, hspan]
    rfl
  simp [Shift.cursor, hplace, hspan]

end Shift

/-! ## Text and items with more behind them -/

/-- The longest spelling that is not for one character has two more characters. -/
private theorem fits_append {c : Char} {ahead : List Char} (h : (TextPiece.plain c).Fits ahead)
    (hborder : 2 ≤ ahead.length ∨
      ∀ last, (c :: ahead).getLast? = some last → last ≠ '{' ∧ last ≠ '\\')
    (tail : List Char) : (TextPiece.plain c).Fits (ahead ++ tail) := by
  match ahead with
  | [] | [_] =>
      simp only [TextPiece.Fits, List.cons_prefix_cons] at h ⊢
      grind
  | d :: e :: ahead => simpa [TextPiece.Fits, List.cons_prefix_cons] using h

namespace TextRun

variable {source later : List Char} {pieces pieces' : List TextPiece}

/-- An opening that text has come to is come to whatever follows. -/
theorem Spells.extend {beyond : List Char} (h : Spells source pieces ('{' :: '{' :: beyond))
    (tail : List Char) : Spells (source ++ tail) pieces ('{' :: '{' :: (beyond ++ tail)) := by
  generalize hrest : '{' :: '{' :: beyond = rest at h
  induction h with
  | nil => exact hrest ▸ .nil _
  | @cons piece ahead rest pieces hfits h ih =>
      rw [List.append_assoc]
      refine .cons piece ?_ (ih hrest)
      cases piece with
      | splitBraces | guardedBraces => trivial
      | plain c =>
          apply fits_append hfits (.inl _)
          rw [h.source_eq, ← hrest, List.length_append, List.length_cons, List.length_cons]
          omega

private theorem fits_of_append {piece : TextPiece} {ahead : List Char} (tail : List Char)
    (h : piece.Fits (ahead ++ tail)) : piece.Fits ahead := by
  cases piece with
  | splitBraces | guardedBraces => trivial
  | plain c =>
      have hprefix {spelled : List Char} (hspelled : spelled <+: c :: ahead) :
          spelled <+: c :: (ahead ++ tail) := hspelled.trans (List.prefix_append (c :: ahead) tail)
      exact ⟨mt hprefix h.1, mt hprefix h.2.1, mt hprefix h.2.2⟩

private theorem Spells.cut {rest : List Char} (tail : List Char)
    (h : Spells source pieces (rest ++ tail)) :
    Spells (pieces.flatMap TextPiece.spelling ++ rest) pieces rest := by
  generalize hrest : rest ++ tail = whole at h
  induction h with
  | nil => exact .nil rest
  | @cons piece ahead whole pieces hfits h ih =>
      have hahead := h.source_eq
      rw [List.flatMap_cons, List.append_assoc]
      refine .cons piece (fits_of_append tail ?_) (ih hrest)
      rwa [List.append_assoc, hrest, ← hahead]

private theorem Spells.short_or_plain (h : Spells source pieces []) :
    2 ≤ source.length ∨ pieces = source.map .plain := by
  have hsource := h.source_eq
  match pieces with
  | [] => simp_all
  | [.plain c] => simp_all [TextPiece.spelling]
  | [.splitBraces] | [.guardedBraces] => simp_all [TextPiece.spelling]
  | first :: second :: pieces =>
      cases first <;> cases second <;> simp_all [TextPiece.spelling]

/-- Text runs together with text behind it, unless a tag or an escape may begin at its end. -/
theorem Spells.append {rest : List Char} (h : Spells source pieces [])
    (hplain : ∀ c, pieces.getLast? = some (.plain c) → c ≠ '{' ∧ c ≠ '\\')
    (h' : Spells later pieces' rest) : Spells (source ++ later) (pieces ++ pieces') rest := by
  generalize hend : [] = behind at h
  induction h with
  | nil => exact hend ▸ h'
  | @cons piece ahead behind pieces hfits h ih =>
      subst hend
      rw [List.append_assoc]
      refine .cons piece ?_ (ih ?_ rfl)
      · cases piece with
        | splitBraces | guardedBraces => trivial
        | plain c =>
            apply fits_append hfits
            refine h.short_or_plain.imp_right fun hpieces last hlast => hplain last ?_
            rw [hpieces, ← List.map_cons (f := TextPiece.plain), List.getLast?_map, hlast]
            rfl
      · intro c hc
        apply hplain c
        cases pieces with
        | nil => cases hc
        | cons => exact hc

theorem read_extend {run : TextRun} {beyond : List Char} (h : read source = run)
    (hbeyond : run.beyond = some beyond) (tail : List Char) :
    read (source ++ tail) = ⟨run.pieces, some (beyond ++ tail)⟩ := by
  have hspells := (read_eq_iff ..).mp h
  rw [rest, hbeyond] at hspells
  exact (read_eq_iff ..).mpr (hspells.extend tail)

/-- What is beyond the opening that text has come to may as well be anything else. -/
theorem read_redirect {run : TextRun} {beyond : List Char} (h : read source = run)
    (hbeyond : run.beyond = some beyond) (other : List Char) :
    read (run.spelling ++ '{' :: '{' :: other) = ⟨run.pieces, some other⟩ := by
  have hspells := (read_eq_iff ..).mp h
  rw [rest, hbeyond] at hspells
  have hcut : Spells (run.spelling ++ ['{', '{']) run.pieces ['{', '{'] :=
    Spells.cut beyond hspells
  have hother := hcut.extend other
  rw [List.append_assoc] at hother
  exact (read_eq_iff ..).mpr hother

/-- Text at whose end neither a tag nor an escape may begin, whatever follows. -/
structure Firm (run : TextRun) : Prop where
  beyond : run.beyond = none
  plain : ∀ c, run.pieces.getLast? = some (.plain c) → c ≠ '{' ∧ c ≠ '\\'

theorem Firm.spelling_eq (h : (read source).Firm) : (read source).spelling = source := by
  have hspelling := read_spelling source
  simpa [rest, h.beyond] using hspelling

theorem Firm.read_append (h : (read source).Firm) (later : List Char) :
    read (source ++ later) =
      ⟨(read source).pieces ++ (read later).pieces, (read later).beyond⟩ := by
  have hspells : Spells source (read source).pieces (read source).rest :=
    (read_eq_iff ..).mp rfl
  rw [rest, h.beyond] at hspells
  exact (read_eq_iff ..).mpr (hspells.append h.plain ((read_eq_iff ..).mp rfl))

end TextRun

theorem TagItem.Fits.append {item : TagItem} {rest : List Char} (h : item.Fits rest)
    (hrest : rest ≠ [] ∨ item = .close) (tail : List Char) : item.Fits (rest ++ tail) := by
  cases rest with
  | nil =>
      obtain rfl := hrest.resolve_left (absurd rfl)
      trivial
  | cons c rest => cases item <;> exact h

/-! ## Scanning with more around -/

namespace Cursor

/-- Nothing is ahead but text. -/
def AtLastText (cursor : Cursor) : Prop :=
  cursor.position.owed = none ∧ cursor.position.mode = .text ∧
    (TextRun.read cursor.ahead).beyond = none

/-- Where text is read to that begins at the place: an opening that ends it is owed. -/
def behindText (place : Place) (run : TextRun) : Cursor :=
  let stop := place.after run.spelling
  match run.beyond with
  | none => ⟨⟨stop, .text, none⟩, []⟩
  | some beyond => ⟨⟨stop.after ['{', '{'], .tag, some stop.span⟩, beyond⟩

theorem scan_of_read {run : TextRun} {ahead : List Char} (hread : TextRun.read ahead = run)
    (hpieces : run.pieces ≠ []) (place : Place) :
    (⟨⟨place, .text, none⟩, ahead⟩ : Cursor).scan =
      (.ok (.literal (String.ofList run.meaning), place.span), behindText place run) := by
  obtain ⟨_ | ⟨piece, pieces⟩, beyond⟩ := run
  · exact absurd rfl hpieces
  · cases beyond <;> simp only [scan, scanText, hread, behindText]

theorem behindText_append (place : Place) (first second : TextRun) :
    behindText place ⟨first.pieces ++ second.pieces, second.beyond⟩ =
      behindText (place.after first.spelling) second := by
  simp [behindText, TextRun.spelling, Place.after_append]

theorem behindText_shift (shift : Shift) {place : Place} (hline : 1 ≤ place.line)
    (run : TextRun) :
    behindText (shift.place place) run = shift.cursor [] (behindText place run) := by
  have hstop := shift.place_after hline run.spelling
  have hopening := shift.place_after (Shift.line_after hline run.spelling) ['{', '{']
  cases hbeyond : run.beyond with
  | none => simp [behindText, hbeyond, Shift.cursor, hstop]
  | some beyond => simpa [behindText, hbeyond, Shift.cursor, hstop] using hopening

/--
A scan goes the same way wherever the template stands.  What is behind the
template has no part in it where the text ahead ends at a tag, and where the
scans come to no fault.
-/
theorem scan_shift (shift : Shift) (tail : List Char) {cursor : Cursor}
    (hline : 1 ≤ cursor.position.place.line)
    (hfirm : tail = [] ∨ ¬cursor.AtLastText ∧ cursor.scan.1.isOk ∧ cursor.scan.2.scan.1.isOk) :
    (shift.cursor tail cursor).scan =
      (shift.reading cursor.scan.1, shift.cursor tail cursor.scan.2) := by
  have hscans := cursor.scan_scans
  generalize cursor.scan.1 = reading, cursor.scan.2 = next at hscans hfirm ⊢
  cases hscans with
  | owed => rfl
  | endOfInput place =>
      obtain rfl := hfirm.resolve_right fun hfirm => hfirm.1 ⟨rfl, rfl, rfl⟩
      rfl
  | opening place beyond =>
      have hplace := shift.place_after hline ['{', '{']
      dsimp only at hplace
      simp only [Shift.cursor, ← hplace]
      rfl
  | lastText place run hpieces hbeyond hread =>
      obtain rfl := hfirm.resolve_right fun hfirm => hfirm.1 ⟨rfl, rfl, by rw [hread, hbeyond]⟩
      have hplace := shift.place_after hline run.spelling
      have hscan := scan_of_read hread hpieces (shift.place place)
      simpa [Shift.cursor, Shift.reading, behindText, hbeyond, hplace] using hscan
  | text place run beyond hpieces hbeyond hread =>
      have hplace := shift.place_after hline run.spelling
      have hopening := shift.place_after (Shift.line_after hline run.spelling) ['{', '{']
      have hread := TextRun.read_extend hread hbeyond tail
      have hscan := scan_of_read hread hpieces (shift.place place)
      simp only [TextRun.spelling, TextRun.meaning] at hplace hopening hscan ⊢
      simpa [Shift.cursor, Shift.reading, behindText, TextRun.spelling, hplace, hopening] using
        hscan
  | item place blanks rest item hblanks hread =>
      have hfits : item.Fits (rest ++ tail) := by
        obtain ⟨_, hrest, hfits⟩ := (TagItem.read_eq_ok_iff ..).mp hread
        obtain rfl := List.append_cancel_left hrest
        rcases hfirm with rfl | ⟨-, -, hnext⟩
        · simpa using hfits
        · -- At the end of the template a tag that is not closed comes to a fault.
          refine hfits.append (or_iff_not_imp_left.mpr fun hrest => ?_) tail
          obtain rfl := not_not.mp hrest
          cases item with
          | close => rfl
          | _ => cases hnext
      have hplace := shift.place_after hline blanks
      have hitem := shift.place_after (Shift.line_after hline blanks) item.spelling
      have hscan := Grammar.scan_item (shift.place place) hblanks hfits
      simpa [Shift.cursor, Shift.reading, hplace, hitem] using hscan
  | stuck place blanks items fault hblanks hitems hread =>
      obtain rfl := hfirm.resolve_right fun hfirm => Bool.false_ne_true hfirm.2.1
      have hplace := shift.place_after hline blanks
      have hscan := Grammar.scanTag_skip (shift.place place) hblanks hitems
      rw [hread] at hscan
      simpa [Shift.cursor, Shift.reading, hplace, scan] using hscan

end Cursor

end Stencil
