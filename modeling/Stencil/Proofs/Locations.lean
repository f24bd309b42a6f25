import Mathlib.Data.List.Induction
import Stencil.Proofs.Grammar
import Stencil.Proofs.Rewinding

/-!
# Locations

A scanner knows where it is: byte, line and column are those that counting
through the template comes to, however it has been wound back and forth.  What
it finds lies where it says, and its scans cover the template one after the
other, but for blanks inside tags.
-/

namespace Stencil

/-! ## Counting through a template -/

/-- The line and the column of what follows the given characters. -/
def spanAfter (before : List Char) : Span :=
  ⟨1 + before.count '\n', 1 + (before.reverse.takeWhile (· ≠ '\n')).length⟩

theorem spanAfter_concat (before : List Char) (c : Char) :
    spanAfter (before ++ [c]) =
      if c = '\n' then ⟨(spanAfter before).line + 1, 1⟩
      else ⟨(spanAfter before).line, (spanAfter before).column + 1⟩ := by
  unfold spanAfter
  split <;> simp_all [Nat.add_assoc]

theorem Place.span_start_after (before : List Char) :
    (Place.start.after before).span = spanAfter before := by
  induction before using List.reverseRecOn with
  | nil => rfl
  | append_singleton before c ih =>
      rw [after_append, spanAfter_concat, ← ih]
      simp only [after_cons, after_nil, advance, span]
      split <;> rfl

theorem utf8Length_eq_utf8ByteSize (chars : List Char) :
    utf8Length chars = (String.ofList chars).utf8ByteSize := by
  induction chars with
  | nil => rfl
  | cons c chars ih =>
      have hsplit : String.ofList (c :: chars) = String.singleton c ++ String.ofList chars := by
        rw [String.singleton_eq_ofList, ← String.ofList_append, List.singleton_append]
      rw [utf8Length_cons, ih, hsplit, String.utf8ByteSize_append, String.utf8ByteSize_singleton]

theorem Place.offset_start_after (before : List Char) :
    (Place.start.after before).offset = (String.ofList before).utf8ByteSize := by
  rw [offset_after, ← utf8Length_eq_utf8ByteSize]
  exact Nat.zero_add _

/-! ## Positions -/

/-- The position is the one behind the given characters of the template. -/
structure Position.Behind (template : String) (before : List Char) (position : Position) :
    Prop where
  within : before <+: template.toList
  offset : position.place.offset = (String.ofList before).utf8ByteSize
  offset_le : position.place.offset ≤ template.utf8ByteSize
  boundary : String.Pos.Raw.IsValid template ⟨position.place.offset⟩
  span : position.place.span = spanAfter before
  owed : ∀ span, position.owed = some span → position.mode = .tag ∧
    ∃ earlier, before = earlier ++ ['{', '{'] ∧ span = spanAfter earlier

/--
The next scan begins behind the given characters, in the given mode.  An owed
opening is still to come, although the place is already behind it.
-/
inductive Position.Resumes : Mode → List Char → Position → Prop
  | here (mode : Mode) (before : List Char) :
      Resumes mode before ⟨Place.start.after before, mode, none⟩
  | owing (before : List Char) :
      Resumes .text before
        ⟨Place.start.after (before ++ ['{', '{']), .tag, some (spanAfter before)⟩

/-- The cursor resumes there, and the rest of the template is ahead of it. -/
inductive Cursor.Resumes (template : List Char) : Mode → List Char → Cursor → Prop
  | here (mode : Mode) (before ahead : List Char) (htemplate : template = before ++ ahead) :
      Resumes template mode before ⟨⟨Place.start.after before, mode, none⟩, ahead⟩
  | owing (before ahead : List Char) (htemplate : template = before ++ '{' :: '{' :: ahead) :
      Resumes template .text before
        ⟨⟨Place.start.after (before ++ ['{', '{']), .tag, some (spanAfter before)⟩, ahead⟩

section Positions

variable {template : String} {mode : Mode} {before : List Char} {cursor : Cursor}

theorem Cursor.Resumes.ofTemplate (template : String) :
    (Cursor.ofTemplate template).Resumes template.toList .text [] :=
  .here .text [] template.toList rfl

theorem Cursor.Resumes.position (h : cursor.Resumes template.toList mode before) :
    cursor.position.Resumes mode before := by
  cases h with
  | here => exact .here mode before
  | owing => exact .owing before

theorem Cursor.Resumes.on (h : cursor.Resumes template.toList mode before) :
    cursor.On template.toList := by
  cases h with
  | here _ _ _ htemplate => exact ⟨before, htemplate, rfl⟩
  | owing _ _ htemplate => exact ⟨before ++ ['{', '{'], by simp [htemplate], rfl⟩

private theorem behind_of_place {position : Position} {ahead : List Char}
    (htemplate : template.toList = before ++ ahead)
    (hplace : position.place = Place.start.after before)
    (howed : ∀ span, position.owed = some span → position.mode = .tag ∧
      ∃ earlier, before = earlier ++ ['{', '{'] ∧ span = spanAfter earlier) :
    position.Behind template before := by
  have hsplit : template = String.ofList before ++ String.ofList ahead := by
    rw [← String.ofList_append, ← htemplate, String.ofList_toList]
  have hoffset : position.place.offset = (String.ofList before).utf8ByteSize := by
    rw [hplace, Place.offset_start_after]
  constructor
  · exact ⟨ahead, htemplate.symm⟩
  · exact hoffset
  · rw [hoffset, hsplit, String.utf8ByteSize_append]
    omega
  · apply String.Pos.Raw.isValid_iff_exists_append.mpr
    exact ⟨_, _, hsplit, by rw [hoffset]; rfl⟩
  · rw [hplace, Place.span_start_after]
  · exact howed

theorem Cursor.Resumes.behind (h : cursor.Resumes template.toList mode before) :
    ∃ passed, cursor.position.Behind template passed := by
  cases h with
  | here _ _ ahead htemplate => exact ⟨before, behind_of_place htemplate rfl (by simp)⟩
  | owing _ ahead htemplate =>
      refine ⟨before ++ ['{', '{'], behind_of_place (by simp [htemplate]; rfl) rfl ?_⟩
      intro span hspan
      cases hspan
      exact ⟨rfl, before, rfl, rfl⟩

end Positions

/-! ## Tiles -/

/-- The characters of a template that a token is scanned from. -/
def Token.ScannedFrom (token : Token) (source : List Char) : Prop :=
  match token.kind with
  | .endOfInput => source = []
  | .literal => ∃ pieces : List TextPiece, pieces ≠ [] ∧
      source = pieces.flatMap TextPiece.spelling ∧
      token.text.toList = pieces.flatMap TextPiece.meaning
  | .loopBegin => source = ['#', 'l', 'o', 'o', 'p']
  | .scriptBegin | .scriptEnd | .identifier | .loopEnd => source = token.text.toList

/-- What is wrong is found behind the given characters of the template. -/
def ScanFault.StandsAt (template before : List Char) : ScanFault → Prop
  | .unterminatedTag => before = template
  | .unexpectedCharacter c | .invalidKeyword c => before ++ [c] <+: template

/-- The scan is of the source behind the given characters, and says that it is there. -/
def Scan.StandsAt (template before source : List Char) : Scan → Prop
  | .token found => found.span = spanAfter before ∧ found.ScannedFrom source ∧
      before ++ source <+: template ∧ (found.kind = .endOfInput → before = template)
  | .failure error => error.span = spanAfter before ∧ source = [] ∧
      error.fault.StandsAt template before
  | .insideCharacter => False

def Scan.modeAfter (mode : Mode) : Scan → Mode
  | .token found =>
      match found.kind with
      | .scriptBegin => .tag
      | .scriptEnd => .text
      | _ => mode
  | _ => mode

/-- A scan with the part of the template it takes up, which may begin with blanks. -/
structure Tile where
  blanks : List Char
  source : List Char
  scan : Scan

namespace Tile

def passed (tile : Tile) : List Char := tile.blanks ++ tile.source

/-- The tile lies behind the given characters; blanks it has only inside a tag. -/
structure Lies (template : List Char) (mode : Mode) (before : List Char) (tile : Tile) :
    Prop where
  blanks : tile.blanks.all TagItem.isBlank
  mode : tile.blanks ≠ [] → mode = .tag
  stands : tile.scan.StandsAt template (before ++ tile.blanks) tile.source

/-- Each tile lies behind all that the tiles before it take up. -/
def Row (template : List Char) : Mode → List Char → List Tile → Prop
  | _, _, [] => True
  | mode, before, tile :: tiles =>
      tile.Lies template mode before ∧
        Row template (tile.scan.modeAfter mode) (before ++ tile.passed) tiles

end Tile

namespace Cursor

variable {template before : List Char} {mode : Mode} {cursor next : Cursor}
  {reading : Reading}

private theorem standsAt_of_read {items : List Char} {fault : ScanFault}
    (htemplate : template = before ++ items) (hread : TagItem.read items = .error fault) :
    fault.StandsAt template before := by
  obtain ⟨-, rfl⟩ := (TagItem.read_eq_error_iff ..).mp hread
  subst htemplate
  unfold TagItem.faultAt
  split <;> simp [ScanFault.StandsAt]

private theorem scannedFrom_endOfInput (number : Nat) (span : Span) :
    (Lexeme.endOfInput.token number span).ScannedFrom [] := rfl

private theorem scannedFrom_opening (number : Nat) (span : Span) :
    (Lexeme.scriptBegin.token number span).ScannedFrom ['{', '{'] := by
  simp [Lexeme.token, Lexeme.kind, Lexeme.text, Token.ScannedFrom]

private theorem scannedFrom_item (item : TagItem) (number : Nat) (span : Span) :
    (item.lexeme.token number span).ScannedFrom item.spelling := by
  cases item <;> simp [TagItem.lexeme, TagItem.spelling, Lexeme.token, Lexeme.kind,
    Lexeme.text, Token.ScannedFrom]

private theorem scannedFrom_literal (run : TextRun) (hpieces : run.pieces ≠ []) (number : Nat)
    (span : Span) :
    ((Lexeme.literal (String.ofList run.meaning)).token number span).ScannedFrom
      run.spelling :=
  ⟨run.pieces, hpieces, rfl, String.toList_ofList⟩

private theorem exists_tile (blanks source ahead : List Char) {lexeme : Lexeme}
    {span : Span} (number : Nat) (htemplate : template = before ++ (blanks ++ (source ++ ahead)))
    (hblanks : blanks.all TagItem.isBlank) (hmode : blanks ≠ [] → mode = .tag)
    (hspan : span = spanAfter (before ++ blanks))
    (hsource : (lexeme.token number span).ScannedFrom source)
    (hend : lexeme.kind = .endOfInput → source ++ ahead = [])
    (hnext : next.Resumes template ((Scan.token (lexeme.token number span)).modeAfter mode)
      (before ++ (blanks ++ source))) :
    ∃ tile : Tile, tile.scan = Reading.scan number (.ok (lexeme, span)) ∧
      tile.Lies template mode before ∧
      next.Resumes template (tile.scan.modeAfter mode) (before ++ tile.passed) := by
  refine ⟨⟨blanks, source, .token (lexeme.token number span)⟩, rfl, ?_, hnext⟩
  refine ⟨hblanks, hmode, hspan, hsource, ⟨ahead, by simp [htemplate]⟩, ?_⟩
  intro hkind
  simp [htemplate, hend hkind]

/-- A scan adds a tile, behind which the cursor resumes. -/
private theorem Resumes.tile_of_scans (h : cursor.Resumes template mode before)
    (hscans : Scans cursor reading next) (number : Nat) :
    ∃ tile : Tile, tile.scan = Reading.scan number reading ∧ tile.Lies template mode before ∧
      next.Resumes template (tile.scan.modeAfter mode) (before ++ tile.passed) := by
  cases h with
  -- The place of the cursor is behind the opening that it owes, so that the scan takes up
  -- what has been passed already.
  | owing _ ahead htemplate =>
      cases hscans with
      | owed =>
          apply exists_tile [] ['{', '{'] ahead number htemplate rfl (by simp) (by simp)
            (scannedFrom_opening ..) (by simp [Lexeme.kind])
          exact .here .tag (before ++ ['{', '{']) ahead (by simp [htemplate])
  | here _ _ ahead htemplate =>
      have hspan : (Place.start.after before).span = spanAfter (before ++ []) := by
        rw [Place.span_start_after, List.append_nil]
      cases hscans with
      | endOfInput =>
          apply exists_tile [] [] [] number htemplate rfl (by simp) hspan
            (scannedFrom_endOfInput ..) (by simp)
          rw [List.append_nil, List.append_nil]
          exact .here .text before [] htemplate
      | opening _ beyond =>
          apply exists_tile [] ['{', '{'] beyond number htemplate rfl (by simp) hspan
            (scannedFrom_opening ..) (by simp [Lexeme.kind])
          rw [← Place.after_append]
          exact .here .tag (before ++ ['{', '{']) beyond (by simp [htemplate])
      | lastText _ run hpieces =>
          apply exists_tile [] run.spelling [] number (by simpa using htemplate) rfl (by simp)
            hspan (scannedFrom_literal run hpieces ..) (by simp [Lexeme.kind])
          rw [← Place.after_append]
          exact .here .text (before ++ run.spelling) [] (by simp [htemplate])
      | text _ run beyond hpieces =>
          apply exists_tile [] run.spelling _ number htemplate rfl (by simp) hspan
            (scannedFrom_literal run hpieces ..) (by simp [Lexeme.kind])
          have hahead : template = (before ++ run.spelling) ++ '{' :: '{' :: beyond := by
            simp [htemplate]
          rw [← Place.after_append _ before, ← Place.after_append,
            Place.span_start_after (before ++ _)]
          exact .owing (before ++ run.spelling) beyond hahead
      | item _ blanks rest item hblanks =>
          apply exists_tile blanks item.spelling rest number htemplate hblanks (by simp)
            (by rw [← Place.after_append, Place.span_start_after]) (scannedFrom_item item ..)
            (by cases item <;> simp [TagItem.lexeme, Lexeme.kind])
          rw [← Place.after_append, ← Place.after_append, List.append_assoc]
          cases item <;> exact .here _ (before ++ (blanks ++ _)) rest (by simp [htemplate])
      | stuck _ blanks items fault hblanks _ hread =>
          have hitems : template = (before ++ blanks) ++ items := by simp [htemplate]
          have hfault := standsAt_of_read hitems hread
          refine ⟨⟨blanks, [], .failure _⟩, rfl, ⟨hblanks, by simp, ?_, rfl, hfault⟩, ?_⟩
          · rw [← Place.after_append, Place.span_start_after]
          · rw [← Place.after_append, Tile.passed, List.append_nil]
            exact .here .tag (before ++ blanks) items hitems

theorem Resumes.scan (h : cursor.Resumes template mode before) (number : Nat) :
    ∃ tile : Tile, tile.scan = Reading.scan number cursor.scan.1 ∧
      tile.Lies template mode before ∧
      cursor.scan.2.Resumes template (tile.scan.modeAfter mode) (before ++ tile.passed) :=
  h.tile_of_scans cursor.scan_scans number

/-- The scans that are still to come cover what is still ahead. -/
theorem Resumes.row (h : cursor.Resumes template mode before) (number : Nat) :
    ∃ tiles : List Tile, tiles.map Tile.scan = Reading.numbered number cursor.readings ∧
      Tile.Row template mode before tiles := by
  induction cursor using Cursor.readings.induct generalizing mode before number with
  | case1 cursor hlast =>
      obtain ⟨tile, hscan, hlies, -⟩ := h.scan number
      refine ⟨[tile], ?_, hlies, trivial⟩
      rw [readings_of_isLast hlast]
      simp [Reading.numbered, hscan]
  | case2 cursor hlast ih =>
      obtain ⟨tile, hscan, hlies, hnext⟩ := h.scan number
      obtain ⟨tiles, hscans, hrow⟩ := ih hnext (number + Reading.loops cursor.scan.1)
      refine ⟨tile :: tiles, ?_, hlies, hrow⟩
      rw [readings_of_not_isLast (by simpa using hlast)]
      simp [Reading.numbered, hscan, hscans]

end Cursor

/-! ## Scanners -/

def Position.Of (template : String) (position : Position) : Prop :=
  ∃ mode before cursor, Cursor.Resumes template.toList mode before cursor ∧
    position = cursor.position

def Scanner.Of (template : String) (scanner : Scanner) : Prop :=
  scanner.template = template.toList ∧ scanner.position.Of template

private theorem scan_of {template : String} {scanner : Scanner} (h : scanner.Of template) :
    some scanner.scan.1 ≠ some .insideCharacter ∧ scanner.scan.2.Of template := by
  obtain ⟨htemplate, mode, before, cursor, hresumes, hposition⟩ := h
  rw [Scanner.scan_eq (htemplate ▸ hresumes.on) hposition]
  obtain ⟨tile, -, -, hnext⟩ := hresumes.scan scanner.loops
  refine ⟨?_, htemplate, _, _, _, hnext, rfl⟩
  cases cursor.scan.1 <;> simp [Reading.scan]

theorem Scanner.keeps_of (template : String) :
    Scanner.reader.Keeps (fun _ => Scanner.Of template) (Position.Of template)
      (· ≠ some .insideCharacter) where
  scan h := scan_of h
  position h := h.2
  seek h hmark := ⟨h.1, hmark⟩

theorem Scanner.of_run (template : String) (commands : List Command) :
    let (found, desk) := (Desk.ofDevice (ofTemplate template)).run reader commands
    (∀ scan ∈ found, scan ≠ some .insideCharacter) ∧ ∀ index, (desk.devices index).Of template := by
  have hstart : Desk.Holds (fun _ => Of template) (Position.Of template)
      (Desk.ofDevice (ofTemplate template)) := by
    constructor
    · intro index
      exact ⟨rfl, _, _, _, .ofTemplate template, rfl⟩
    · intro slot m hslot
      cases hslot
  obtain ⟨hfound, hdevices, -⟩ := hstart.run (keeps_of template) commands
  exact ⟨hfound, hdevices⟩

/--
Wherever scanners of a template are wound, each knows its byte, line and
column; its next scan lies where it says, behind blanks if it is made in a
tag, and the scanner resumes right after it.  The scans of a fresh scanner
cover the template one after the other.
-/
theorem scanners_located (template : String) :
    (∀ (commands : List Command) (index : Nat),
      let scanner :=
        ((Desk.ofDevice (Scanner.ofTemplate template)).run Scanner.reader commands).2.devices index
      (∃ passed, scanner.position.Behind template passed) ∧
        ∃ (mode : Mode) (before : List Char) (tile : Tile),
          scanner.position.Resumes mode before ∧ tile.scan = scanner.scan.1 ∧
          tile.Lies template.toList mode before ∧
          scanner.scan.2.position.Resumes (tile.scan.modeAfter mode) (before ++ tile.passed)) ∧
      ∃ tiles : List Tile, tiles.map Tile.scan = scansOf template ∧
        Tile.Row template.toList .text [] tiles := by
  constructor
  · intro commands index scanner
    have hof : scanner.Of template := (Scanner.of_run template commands).2 index
    obtain ⟨htemplate, mode, before, cursor, hresumes, hposition⟩ := hof
    have hscan := Scanner.scan_eq (htemplate ▸ hresumes.on) hposition
    obtain ⟨tile, htile, hlies, hnext⟩ := hresumes.scan scanner.loops
    constructor
    · rw [hposition]
      exact hresumes.behind
    · rw [hscan, hposition]
      exact ⟨mode, before, tile, hresumes.position, htile, hlies, hnext.position⟩
  · have hrow := (Cursor.Resumes.ofTemplate template).row 0
    rw [scansOf, Scanner.drain_ofTemplate]
    exact hrow

end Stencil
