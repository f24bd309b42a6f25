import Mathlib.Data.List.Chain
import Stencil.Proofs.Readings

/-!
# The grammar of templates

A template is text, and then any number of tags with text after each.  Both
are given here by what they are spelled with; where several readings of the
characters are possible, side conditions name the one that is meant.
-/

namespace Stencil

/-! ## Pieces and items -/

/--
Whether the piece can be read in front of the given characters.  A character
stands for itself only where neither a tag nor an escape begins.
-/
def TextPiece.Fits : TextPiece → List Char → Prop
  | .plain c, ahead =>
      ¬['{', '{'] <+: c :: ahead ∧ ¬['{', '\\', '{'] <+: c :: ahead ∧
        ¬['\\', '{', '{'] <+: c :: ahead
  | .splitBraces, _ | .guardedBraces, _ => True

def TagItem.Fits : TagItem → List Char → Prop
  | .name text, ahead =>
      (∃ first later, text.toList = first :: later ∧ first.isAlpha ∧
        later.all Char.isAlphanum) ∧ ahead.head?.all (!·.isAlphanum)
  | .loopBegin, ahead | .loopEnd, ahead => ahead.head?.all (!·.isAlphanum)
  | .close, _ => True

namespace TextRun

/-- The source begins with the pieces, and the rest follows them. -/
inductive Spells : List Char → List TextPiece → List Char → Prop
  | nil (rest : List Char) : Spells rest [] rest
  | cons (piece : TextPiece) {ahead rest : List Char} {pieces : List TextPiece}
      (hfits : piece.Fits ahead) (h : Spells ahead pieces rest) :
      Spells (piece.spelling ++ ahead) (piece :: pieces) rest

theorem Spells.source_eq {source rest : List Char} {pieces : List TextPiece}
    (h : Spells source pieces rest) :
    source = pieces.flatMap TextPiece.spelling ++ rest := by
  induction h with
  | nil => rfl
  | cons piece _ _ ih => simp [← ih]

private theorem fits_plain {c : Char} {ahead : List Char}
    (hopening : ∀ beyond, c = '{' → ahead = '{' :: beyond → False)
    (hsplit : ∀ beyond, c = '{' → ahead = '\\' :: '{' :: beyond → False)
    (hguard : ∀ beyond, c = '\\' → ahead = '{' :: '{' :: beyond → False) :
    (TextPiece.plain c).Fits ahead := by
  refine ⟨?_, ?_, ?_⟩ <;> rintro ⟨beyond, hbeyond⟩ <;> cases hbeyond
  · exact hopening beyond rfl rfl
  · exact hsplit beyond rfl rfl
  · exact hguard beyond rfl rfl

private theorem spells_readFrom (seen : List TextPiece) (ahead : List Char) :
    ∃ pieces, (readFrom seen ahead).pieces = seen.reverse ++ pieces ∧
      Spells ahead pieces (readFrom seen ahead).rest := by
  fun_induction readFrom seen ahead with
  | case1 seen beyond => exact ⟨[], by simp, .nil _⟩
  | case2 seen ahead ih =>
      obtain ⟨pieces, hpieces, hspells⟩ := ih
      exact ⟨.splitBraces :: pieces, by simp [hpieces], .cons .splitBraces trivial hspells⟩
  | case3 seen ahead ih =>
      obtain ⟨pieces, hpieces, hspells⟩ := ih
      exact ⟨.guardedBraces :: pieces, by simp [hpieces], .cons .guardedBraces trivial hspells⟩
  | case4 seen c ahead hopening hsplit hguard ih =>
      obtain ⟨pieces, hpieces, hspells⟩ := ih
      have hfits := fits_plain hopening hsplit hguard
      exact ⟨.plain c :: pieces, by simp [hpieces], .cons (.plain c) hfits hspells⟩
  | case5 seen => exact ⟨[], by simp, .nil _⟩

private theorem read_cons {piece : TextPiece} {ahead : List Char} (hfits : piece.Fits ahead) :
    read (piece.spelling ++ ahead) =
      ⟨piece :: (read ahead).pieces, (read ahead).beyond⟩ := by
  have happend : ∀ piece, readFrom [piece] ahead =
      ⟨piece :: (read ahead).pieces, (read ahead).beyond⟩ :=
    fun piece => readFrom_append [] [piece] ahead
  cases piece with
  | splitBraces => exact happend _
  | guardedBraces => exact happend _
  | plain c =>
      obtain ⟨hopening, hsplit, hguard⟩ := hfits
      rw [← happend, read]
      simp only [TextPiece.spelling, List.cons_append, List.nil_append]
      rw [readFrom]
      · rintro beyond rfl rfl
        exact hopening ⟨beyond, rfl⟩
      · rintro beyond rfl rfl
        exact hsplit ⟨beyond, rfl⟩
      · rintro beyond rfl rfl
        exact hguard ⟨beyond, rfl⟩

/-- Text is read as far as the next opening of a tag, in the one way it is spelled. -/
theorem read_eq_iff (source : List Char) (run : TextRun) :
    read source = run ↔ Spells source run.pieces run.rest := by
  constructor
  · rintro rfl
    obtain ⟨pieces, hpieces, hspells⟩ := spells_readFrom [] source
    rw [read, hpieces]
    exact hspells
  · obtain ⟨pieces, beyond⟩ := run
    intro h
    generalize hrest : (⟨pieces, beyond⟩ : TextRun).rest = rest at h
    dsimp only at h
    induction h with
    | nil rest =>
        subst hrest
        cases beyond <;> rfl
    | cons piece hfits _ ih =>
        rw [read_cons hfits, ih hrest]

end TextRun

namespace TagItem

theorem keywordAhead_iff (ahead : List Char) :
    keywordAhead ahead = true ↔
      ∃ beyond, ahead = 'l' :: 'o' :: 'o' :: 'p' :: beyond ∧
        beyond.head?.all (!·.isAlphanum) := by
  constructor
  · intro h
    unfold keywordAhead at h
    split at h
    · rename_i beyond
      refine ⟨beyond, rfl, ?_⟩
      cases beyond <;> simp_all
    · cases h
  · rintro ⟨beyond, rfl, h⟩
    cases beyond <;> simp_all [keywordAhead]

private theorem fits_of_read {source : List Char} {item : TagItem} (h : read source = .ok item) :
    ∃ rest, source = item.spelling ++ rest ∧ item.Fits rest := by
  unfold read at h
  split at h
  · cases h
  · split at h <;> cases h
    obtain ⟨beyond, rfl, hbeyond⟩ := (keywordAhead_iff _).mp ‹_›
    exact ⟨beyond, rfl, hbeyond⟩
  · split at h <;> cases h
    obtain ⟨beyond, rfl, hbeyond⟩ := (keywordAhead_iff _).mp ‹_›
    exact ⟨beyond, rfl, hbeyond⟩
  · cases h
    exact ⟨_, rfl, trivial⟩
  · rename_i c ahead _ _ _
    split at h <;> cases h
    refine ⟨ahead.dropWhile Char.isAlphanum, ?_, ⟨c, _, String.toList_ofList, ‹_›, ?_⟩,
      all_head?_dropWhile _ _⟩
    · simp [spelling, List.takeWhile_append_dropWhile]
    · simp

private theorem read_of_fits {item : TagItem} {rest : List Char} (h : item.Fits rest) :
    read (item.spelling ++ rest) = .ok item := by
  cases item with
  | close => rfl
  | loopBegin => simp [spelling, read, (keywordAhead_iff _).mpr ⟨rest, rfl, h⟩]
  | loopEnd => simp [spelling, read, (keywordAhead_iff _).mpr ⟨rest, rfl, h⟩]
  | name text =>
      obtain ⟨⟨first, later, htext, hfirst, hlater⟩, hrest⟩ := h
      have hname : String.ofList (first :: later) = text := by
        rw [← htext, String.ofList_toList]
      simp only [spelling, htext, List.cons_append]
      unfold read
      split
      · contradiction
      · simp_all
      · simp_all
      · simp_all
      · rename_i heq
        cases heq
        rw [if_pos hfirst, takeWhile_append_stop hlater hrest, hname]

/-- Items are read in the one way they are spelled. -/
theorem read_eq_ok_iff (source : List Char) (item : TagItem) :
    read source = .ok item ↔ ∃ rest, source = item.spelling ++ rest ∧ item.Fits rest := by
  refine ⟨fits_of_read, ?_⟩
  rintro ⟨rest, rfl, h⟩
  exact read_of_fits h

theorem isAlphanum_of_isBlank {c : Char} (h : isBlank c) : c.isAlphanum = false := by
  simp only [isBlank, Bool.or_eq_true, decide_eq_true_eq] at h
  rcases h with (((rfl | rfl) | rfl) | rfl) | rfl <;> decide

/-- What is wrong where no item begins. -/
def faultAt : List Char → ScanFault
  | [] => .unterminatedTag
  | '#' :: _ => .invalidKeyword '#'
  | '/' :: _ => .invalidKeyword '/'
  | c :: _ => .unexpectedCharacter c

private theorem eq_faultAt_of_read {source : List Char} {fault : ScanFault}
    (h : read source = .error fault) : fault = faultAt source := by
  unfold read at h
  split at h
  · cases h
    rfl
  · split at h <;> cases h
    rfl
  · split at h <;> cases h
    rfl
  · cases h
  · split at h <;> cases h
    unfold faultAt
    split <;> simp_all

/-- Nothing is read where no item begins, and the first character tells why. -/
theorem read_eq_error_iff (source : List Char) (fault : ScanFault) :
    read source = .error fault ↔
      (∀ (item : TagItem) (rest : List Char), source = item.spelling ++ rest →
        ¬item.Fits rest) ∧ fault = faultAt source := by
  constructor
  · intro h
    refine ⟨fun item rest hsource hfits => ?_, eq_faultAt_of_read h⟩
    rw [hsource, read_of_fits hfits] at h
    cases h
  · rintro ⟨hnone, rfl⟩
    cases h : read source with
    | ok item =>
        obtain ⟨rest, hsource, hfits⟩ := fits_of_read h
        exact absurd hfits (hnone item rest hsource)
    | error fault => rw [eq_faultAt_of_read h]

end TagItem

/-! ## Tags and templates -/

namespace Grammar

/--
A row of items inside a tag, blanks before each of them, and what follows it.
No item is the closing of the tag.
-/
inductive Items : Place → List Char → List Mark → Place → List Char → Prop
  | nil (place : Place) (rest : List Char) : Items place rest [] place rest
  | cons (place : Place) (blanks : List Char) (item : TagItem) {ahead rest : List Char}
      {marks : List Mark} {stop : Place} (hblanks : blanks.all TagItem.isBlank)
      (hitem : item ≠ .close) (hfits : item.Fits ahead)
      (h : Items ((place.after blanks).after item.spelling) ahead marks stop rest) :
      Items place (blanks ++ (item.spelling ++ ahead))
        ((item.lexeme, (place.after blanks).span) :: marks) stop rest

/-- The literal a text comes to; there is none where there is no text. -/
def literal (place : Place) (pieces : List TextPiece) : List Mark :=
  if pieces = [] then []
  else [(.literal (String.ofList (pieces.flatMap TextPiece.meaning)), place.span)]

def inside (place : Place) (pieces : List TextPiece) : Place :=
  (place.after (pieces.flatMap TextPiece.spelling)).after ['{', '{']

/-- The lexemes that a template derives, and where each begins. -/
inductive Derives : Place → List Char → List Mark → Prop
  | text (place : Place) {source : List Char} {pieces : List TextPiece}
      (htext : TextRun.Spells source pieces []) :
      Derives place source
        (literal place pieces ++ [(.endOfInput, (place.after source).span)])
  | tag (place : Place) {source within beyond blanks : List Char} {pieces : List TextPiece}
      {marks later : List Mark} {stop : Place}
      (htext : TextRun.Spells source pieces ('{' :: '{' :: within))
      (hitems : Items (inside place pieces) within marks stop
        (blanks ++ '}' :: '}' :: beyond))
      (hblanks : blanks.all TagItem.isBlank)
      (h : Derives ((stop.after blanks).after ['}', '}']) beyond later) :
      Derives place source
        (literal place pieces ++
          (.scriptBegin, (place.after (pieces.flatMap TextPiece.spelling)).span) ::
            (marks ++ (.scriptEnd, (stop.after blanks).span) :: later))

/--
The fault of a template: the first place inside a tag, blanks being skipped,
where neither an item nor the closing of the tag begins.
-/
inductive Stuck : Place → List Char → ScanError → Prop
  | here (place : Place) {source within blanks ahead : List Char} {pieces : List TextPiece}
      {marks : List Mark} {stop : Place}
      (htext : TextRun.Spells source pieces ('{' :: '{' :: within))
      (hitems : Items (inside place pieces) within marks stop (blanks ++ ahead))
      (hblanks : blanks.all TagItem.isBlank) (hahead : ahead.head?.all (!TagItem.isBlank ·))
      (hnone : ∀ (item : TagItem) (rest : List Char), ahead = item.spelling ++ rest →
        ¬item.Fits rest) :
      Stuck place source ⟨TagItem.faultAt ahead, (stop.after blanks).span⟩
  | later (place : Place) {source within beyond blanks : List Char} {pieces : List TextPiece}
      {marks : List Mark} {stop : Place} {error : ScanError}
      (htext : TextRun.Spells source pieces ('{' :: '{' :: within))
      (hitems : Items (inside place pieces) within marks stop
        (blanks ++ '}' :: '}' :: beyond))
      (hblanks : blanks.all TagItem.isBlank)
      (h : Stuck ((stop.after blanks).after ['}', '}']) beyond error) :
      Stuck place source error

/-! ## Scanning what is derived -/

private theorem readings_of_text (place : Place) {source : List Char}
    {pieces : List TextPiece} (htext : TextRun.Spells source pieces []) :
    (⟨⟨place, .text, none⟩, source⟩ : Cursor).readings =
      (literal place pieces).map .ok ++ [.ok (.endOfInput, (place.after source).span)] := by
  have hread : TextRun.read source = ⟨pieces, none⟩ := (TextRun.read_eq_iff ..).mpr htext
  have hsource : pieces.flatMap TextPiece.spelling = source := by
    simpa using htext.source_eq.symm
  have hend (stop : Place) : (⟨⟨stop, .text, none⟩, []⟩ : Cursor).readings =
      [.ok (.endOfInput, stop.span)] :=
    Cursor.readings_of_isLast rfl
  cases pieces with
  | nil =>
      subst hsource
      exact hend place
  | cons piece pieces =>
      have hscan : (⟨⟨place, .text, none⟩, source⟩ : Cursor).scan =
          (.ok (.literal (String.ofList ((piece :: pieces).flatMap TextPiece.meaning)),
            place.span), ⟨⟨place.after source, .text, none⟩, []⟩) := by
        simp only [Cursor.scan, Cursor.scanText, hread, TextRun.spelling, hsource]
        rfl
      rw [Cursor.readings_eq_cons hscan (by simp), hend]
      rfl

private theorem readings_of_opening (place : Place) {source within : List Char}
    {pieces : List TextPiece}
    (htext : TextRun.Spells source pieces ('{' :: '{' :: within)) :
    (⟨⟨place, .text, none⟩, source⟩ : Cursor).readings =
      (literal place pieces).map .ok ++
        .ok (.scriptBegin, (place.after (pieces.flatMap TextPiece.spelling)).span) ::
          (⟨⟨inside place pieces, .tag, none⟩, within⟩ : Cursor).readings := by
  have hread : TextRun.read source = ⟨pieces, some within⟩ :=
    (TextRun.read_eq_iff ..).mpr htext
  cases pieces with
  | nil =>
      have hscan : (⟨⟨place, .text, none⟩, source⟩ : Cursor).scan =
          (.ok (.scriptBegin, place.span), ⟨⟨inside place [], .tag, none⟩, within⟩) := by
        simp only [Cursor.scan, Cursor.scanText, hread]
        rfl
      exact Cursor.readings_eq_cons hscan (by simp)
  | cons piece pieces =>
      have hscan : (⟨⟨place, .text, none⟩, source⟩ : Cursor).scan =
          (.ok (.literal (String.ofList ((piece :: pieces).flatMap TextPiece.meaning)),
            place.span),
            ⟨⟨inside place (piece :: pieces), .tag,
              some (place.after ((piece :: pieces).flatMap TextPiece.spelling)).span⟩,
              within⟩) := by
        simp only [Cursor.scan, Cursor.scanText, hread]
        rfl
      rw [Cursor.readings_eq_cons hscan (by simp), Cursor.readings_eq_cons rfl (by simp)]
      rfl

theorem scanTag_skip (place : Place) {blanks ahead : List Char}
    (hblanks : blanks.all TagItem.isBlank) (hahead : ahead.head?.all (!TagItem.isBlank ·)) :
    Cursor.scanTag place (blanks ++ ahead) =
      match TagItem.read ahead with
      | .error fault =>
          (.error ⟨fault, (place.after blanks).span⟩,
            ⟨⟨place.after blanks, .tag, none⟩, ahead⟩)
      | .ok item =>
          (.ok (item.lexeme, (place.after blanks).span),
            ⟨⟨(place.after blanks).after item.spelling, item.modeAfter, none⟩,
              ahead.drop item.spelling.length⟩) := by
  obtain ⟨htake, hdrop⟩ := Cursor.takeWhile_isBlank_eq_nil hahead
  have hall : ∀ c ∈ blanks, TagItem.isBlank c = true := by simpa using hblanks
  have htakeAll : (blanks ++ ahead).takeWhile TagItem.isBlank = blanks := by
    rw [List.takeWhile_append_of_pos hall, htake, List.append_nil]
  have hdropAll : (blanks ++ ahead).dropWhile TagItem.isBlank = ahead := by
    rw [List.dropWhile_append_of_pos hall, hdrop]
  unfold Cursor.scanTag
  cases hread : TagItem.read ahead <;> simp [htakeAll, hdropAll, hread]

private theorem head_spelling {item : TagItem} {rest : List Char} (hfits : item.Fits rest) :
    (item.spelling ++ rest).head?.all (!TagItem.isBlank ·) := by
  cases item with
  | close => rfl
  | loopBegin => rfl
  | loopEnd => rfl
  | name text =>
      obtain ⟨⟨first, later, htext, hfirst, -⟩, -⟩ := hfits
      have hblank : TagItem.isBlank first = false := by
        cases h : TagItem.isBlank first with
        | false => rfl
        | true =>
            have halphanum := TagItem.isAlphanum_of_isBlank h
            simp [Char.isAlphanum, hfirst] at halphanum
      simp [TagItem.spelling, htext, hblank]

theorem scan_item (place : Place) {blanks rest : List Char} {item : TagItem}
    (hblanks : blanks.all TagItem.isBlank) (hfits : item.Fits rest) :
    (⟨⟨place, .tag, none⟩, blanks ++ (item.spelling ++ rest)⟩ : Cursor).scan =
      (.ok (item.lexeme, (place.after blanks).span),
        ⟨⟨(place.after blanks).after item.spelling, item.modeAfter, none⟩, rest⟩) := by
  have hread : TagItem.read (item.spelling ++ rest) = .ok item :=
    (TagItem.read_eq_ok_iff ..).mpr ⟨rest, rfl, hfits⟩
  change Cursor.scanTag place _ = _
  rw [scanTag_skip place hblanks (head_spelling hfits), hread]
  simp

private theorem readings_of_items {place stop : Place} {within rest : List Char}
    {marks : List Mark} (hitems : Items place within marks stop rest) :
    (⟨⟨place, .tag, none⟩, within⟩ : Cursor).readings =
      marks.map .ok ++ (⟨⟨stop, .tag, none⟩, rest⟩ : Cursor).readings := by
  induction hitems with
  | nil => rfl
  | cons place blanks item hblanks hitem hfits _ ih =>
      have hmode : item.modeAfter = .tag := by cases item <;> simp_all [TagItem.modeAfter]
      have hscan := scan_item place hblanks hfits
      rw [hmode] at hscan
      rw [Cursor.readings_eq_cons hscan (by cases item <;> simp [TagItem.lexeme]), ih]
      rfl

private theorem readings_of_close (place : Place) {blanks : List Char} (beyond : List Char)
    (hblanks : blanks.all TagItem.isBlank) :
    (⟨⟨place, .tag, none⟩, blanks ++ '}' :: '}' :: beyond⟩ : Cursor).readings =
      .ok (.scriptEnd, (place.after blanks).span) ::
        (⟨⟨(place.after blanks).after ['}', '}'], .text, none⟩, beyond⟩ : Cursor).readings :=
  Cursor.readings_eq_cons (@scan_item place blanks beyond .close hblanks trivial) (by simp)

private theorem readings_of_stuck (place : Place) {blanks ahead : List Char}
    (hblanks : blanks.all TagItem.isBlank) (hahead : ahead.head?.all (!TagItem.isBlank ·))
    (hnone : ∀ (item : TagItem) (rest : List Char), ahead = item.spelling ++ rest →
      ¬item.Fits rest) :
    (⟨⟨place, .tag, none⟩, blanks ++ ahead⟩ : Cursor).readings =
      [.error ⟨TagItem.faultAt ahead, (place.after blanks).span⟩] := by
  have hread : TagItem.read ahead = .error (TagItem.faultAt ahead) :=
    (TagItem.read_eq_error_iff ..).mpr ⟨hnone, rfl⟩
  have hscan := scanTag_skip place hblanks hahead
  rw [hread] at hscan
  rw [Cursor.readings_of_isLast] <;> simp only [Cursor.scan, hscan]
  rfl

theorem readings_of_derives {place : Place} {source : List Char} {marks : List Mark}
    (h : Derives place source marks) :
    (⟨⟨place, .text, none⟩, source⟩ : Cursor).readings = marks.map .ok := by
  induction h with
  | text place htext => simp [readings_of_text place htext]
  | tag place htext hitems hblanks _ ih =>
      rw [readings_of_opening place htext, readings_of_items hitems,
        readings_of_close _ _ hblanks, ih]
      simp

theorem readings_of_isStuck {place : Place} {source : List Char} {error : ScanError}
    (h : Stuck place source error) :
    ∃ marks : List Mark, (⟨⟨place, .text, none⟩, source⟩ : Cursor).readings =
      marks.map .ok ++ [.error error] := by
  induction h with
  | here place htext hitems hblanks hahead hnone =>
      rw [readings_of_opening place htext, readings_of_items hitems,
        readings_of_stuck _ hblanks hahead hnone]
      exact ⟨literal place _ ++ (.scriptBegin, _) :: _, by simp; rfl⟩
  | later place htext hitems hblanks _ ih =>
      obtain ⟨later, hlater⟩ := ih
      rw [readings_of_opening place htext, readings_of_items hitems,
        readings_of_close _ _ hblanks, hlater]
      exact ⟨literal place _ ++ (.scriptBegin, _) :: (_ ++ (.scriptEnd, _) :: later),
        by simp; rfl⟩

/-! ## Every template derives lexemes or has a fault -/

private theorem Items.length_le {place stop : Place} {within rest : List Char}
    {marks : List Mark} (h : Items place within marks stop rest) :
    rest.length ≤ within.length := by
  induction h with
  | nil => exact Nat.le_refl _
  | cons _ blanks item _ _ _ _ ih =>
      simp only [List.length_append]
      omega

private theorem items_total (place : Place) (within : List Char) :
    ∃ marks stop blanks ahead, Items place within marks stop (blanks ++ ahead) ∧
      blanks.all TagItem.isBlank ∧ ahead.head?.all (!TagItem.isBlank ·) ∧
      ((∃ beyond, ahead = '}' :: '}' :: beyond) ∨
        ∀ (item : TagItem) (rest : List Char), ahead = item.spelling ++ rest →
          ¬item.Fits rest) := by
  induction hlength : within.length using Nat.strongRecOn generalizing place within with
  | ind length ih =>
      subst hlength
      have hwithin : within.takeWhile TagItem.isBlank ++ within.dropWhile TagItem.isBlank =
          within := List.takeWhile_append_dropWhile
      have hblanks : (within.takeWhile TagItem.isBlank).all TagItem.isBlank := by simp
      have hahead := all_head?_dropWhile TagItem.isBlank within
      generalize within.takeWhile TagItem.isBlank = blanks at *
      generalize within.dropWhile TagItem.isBlank = ahead at *
      subst hwithin
      cases hread : TagItem.read ahead with
      | error fault =>
          have hnone := ((TagItem.read_eq_error_iff ..).mp hread).1
          exact ⟨[], place, blanks, ahead, .nil _ _, hblanks, hahead, .inr hnone⟩
      | ok item =>
          obtain ⟨rest, rfl, hfits⟩ := (TagItem.read_eq_ok_iff ..).mp hread
          by_cases hitem : item = .close
          · subst hitem
            exact ⟨[], place, blanks, _, .nil _ _, hblanks, hahead, .inl ⟨rest, rfl⟩⟩
          · have hpos := List.length_pos_iff.mpr (TagItem.spelling_ne_nil_of_read hread)
            obtain ⟨marks, stop, later, ahead, hitems, hlater⟩ :=
              ih rest.length (by simp; omega) ((place.after blanks).after item.spelling) rest rfl
            exact ⟨_ :: marks, stop, later, ahead,
              .cons place blanks item hblanks hitem hfits hitems, hlater⟩

theorem derives_or_stuck (place : Place) (source : List Char) :
    (∃ marks, Derives place source marks) ∨ ∃ error, Stuck place source error := by
  induction hlength : source.length using Nat.strongRecOn generalizing place source with
  | ind length ih =>
      subst hlength
      have htext := (TextRun.read_eq_iff source _).mp rfl
      generalize TextRun.read source = run at htext
      rcases run with ⟨pieces, _ | within⟩
      · exact .inl ⟨_, .text place htext⟩
      · obtain ⟨marks, stop, blanks, ahead, hitems, hblanks, hahead, hend⟩ :=
          items_total (inside place pieces) within
        rcases hend with ⟨beyond, rfl⟩ | hnone
        · have hsource := congrArg List.length htext.source_eq
          have hwithin := hitems.length_le
          simp only [TextRun.rest, List.length_append, List.length_cons] at hsource hwithin
          rcases ih beyond.length (by omega) ((stop.after blanks).after ['}', '}']) beyond rfl with
            ⟨later, hlater⟩ | ⟨error, herror⟩
          · exact .inl ⟨_, .tag place htext hitems hblanks hlater⟩
          · exact .inr ⟨error, .later place htext hitems hblanks herror⟩
        · exact .inr ⟨_, .here place htext hitems hblanks hahead hnone⟩

/-! ## What is derived -/

def Apart (first second : Mark) : Prop :=
  ¬(first.1.kind = .literal ∧ second.1.kind = .literal)

/--
Literals are not empty and never follow each other, and the end of the input
is the last lexeme and no other.
-/
structure Shaped (marks : List Mark) : Prop where
  literal_nonempty : ∀ mark ∈ marks, mark.1 ≠ .literal ""
  literals_apart : marks.IsChain Apart
  ends : ∃ earlier span, marks = earlier ++ [(.endOfInput, span)] ∧
    ∀ mark ∈ earlier, mark.1 ≠ .endOfInput

private theorem mem_literal {place : Place} {pieces : List TextPiece} {mark : Mark}
    (h : mark ∈ literal place pieces) : ∃ text, mark.1 = .literal text ∧ text ≠ "" := by
  unfold literal at h
  split at h
  · cases h
  · rename_i hpieces
    obtain rfl : mark = _ := by simpa using h
    refine ⟨_, rfl, fun htext => hpieces ?_⟩
    have hmeaning : (⟨pieces, none⟩ : TextRun).meaning = [] := by
      simpa [TextRun.meaning] using htext
    exact (TextRun.meaning_eq_nil_iff _).mp hmeaning

private theorem Items.kind_of_mem {place stop : Place} {within rest : List Char}
    {marks : List Mark} (h : Items place within marks stop rest) :
    ∀ mark ∈ marks, mark.1.kind ≠ .literal ∧ mark.1.kind ≠ .endOfInput := by
  induction h with
  | nil => simp
  | cons _ _ item _ _ _ _ ih =>
      intro mark hmark
      rcases List.mem_cons.mp hmark with rfl | hmark
      · cases item <;> simp [TagItem.lexeme, Lexeme.kind]
      · exact ih mark hmark

private theorem isChain_cons {mark : Mark} {marks : List Mark}
    (hmark : mark.1.kind ≠ .literal) (h : marks.IsChain Apart) :
    (mark :: marks).IsChain Apart := by
  cases marks with
  | nil => exact .singleton _
  | cons next marks => exact .cons_cons (fun hboth => hmark hboth.1) h

private theorem isChain_append {first later : List Mark}
    (hfirst : ∀ mark ∈ first, mark.1.kind ≠ .literal) (hlater : later.IsChain Apart) :
    (first ++ later).IsChain Apart := by
  induction first with
  | nil => exact hlater
  | cons mark first ih =>
      have hrest := ih fun other hother => hfirst other (List.mem_cons_of_mem _ hother)
      exact isChain_cons (hfirst mark List.mem_cons_self) hrest

private theorem isChain_literal (place : Place) (pieces : List TextPiece) {next : Mark}
    {marks : List Mark} (hnext : next.1.kind ≠ .literal) (h : (next :: marks).IsChain Apart) :
    (literal place pieces ++ next :: marks).IsChain Apart := by
  unfold literal
  split
  · exact h
  · exact .cons_cons (fun hboth => hnext hboth.2) h

private theorem Derives.literal_nonempty {place : Place} {source : List Char}
    {marks : List Mark} (h : Derives place source marks) :
    ∀ mark ∈ marks, mark.1 ≠ .literal "" := by
  have hliteral {place : Place} {pieces : List TextPiece} {mark : Mark}
      (h : mark ∈ literal place pieces) : mark.1 ≠ .literal "" := by
    obtain ⟨text, htext, hne⟩ := mem_literal h
    simpa [htext] using hne
  induction h with
  | text place htext =>
      intro mark hmark
      rcases List.mem_append.mp hmark with hmark | hmark
      · exact hliteral hmark
      · simp_all
  | tag place htext hitems hblanks _ ih =>
      intro mark hmark
      simp only [List.mem_append, List.mem_cons] at hmark
      rcases hmark with hmark | rfl | hmark | rfl | hmark
      · exact hliteral hmark
      · simp
      · intro hempty
        exact (hitems.kind_of_mem mark hmark).1 (congrArg Lexeme.kind hempty)
      · simp
      · exact ih mark hmark

private theorem Derives.literals_apart {place : Place} {source : List Char}
    {marks : List Mark} (h : Derives place source marks) : marks.IsChain Apart := by
  induction h with
  | text place htext => exact isChain_literal _ _ (by simp [Lexeme.kind]) (.singleton _)
  | tag place htext hitems hblanks _ ih =>
      have hitem mark hmark := (hitems.kind_of_mem mark hmark).1
      refine isChain_literal _ _ (by simp [Lexeme.kind]) (isChain_cons (by simp [Lexeme.kind]) ?_)
      exact isChain_append hitem (isChain_cons (by simp [Lexeme.kind]) ih)

private theorem Derives.ends {place : Place} {source : List Char} {marks : List Mark}
    (h : Derives place source marks) :
    ∃ earlier span, marks = earlier ++ [(.endOfInput, span)] ∧
      ∀ mark ∈ earlier, mark.1 ≠ .endOfInput := by
  have hliteral {place : Place} {pieces : List TextPiece} {mark : Mark}
      (h : mark ∈ literal place pieces) : mark.1 ≠ .endOfInput := by
    obtain ⟨text, htext, -⟩ := mem_literal h
    simp [htext]
  induction h with
  | text place htext => exact ⟨_, _, rfl, fun mark hmark => hliteral hmark⟩
  | @tag place _ _ _ blanks pieces marks _ stop htext hitems hblanks _ ih =>
      obtain ⟨earlier, span, rfl, hearlier⟩ := ih
      refine ⟨literal place pieces ++
        (.scriptBegin, (place.after (pieces.flatMap TextPiece.spelling)).span) ::
          (marks ++ (.scriptEnd, (stop.after blanks).span) :: earlier), span, by simp, ?_⟩
      intro mark hmark
      simp only [List.mem_append, List.mem_cons] at hmark
      rcases hmark with hmark | rfl | hmark | rfl | hmark
      · exact hliteral hmark
      · simp
      · intro hend
        exact (hitems.kind_of_mem mark hmark).2 (congrArg Lexeme.kind hend)
      · simp
      · exact hearlier mark hmark

theorem shaped_of_derives {place : Place} {source : List Char} {marks : List Mark}
    (h : Derives place source marks) : Shaped marks :=
  ⟨h.literal_nonempty, h.literals_apart, h.ends⟩

/-- The tokens of a row of lexemes, every loop being numbered in its turn. -/
def tokens : Nat → List Mark → List Token
  | _, [] => []
  | number, mark :: marks =>
      mark.1.token number mark.2 :: tokens (number + mark.1.loops) marks

theorem tokens_ok (number : Nat) (marks : List Mark) :
    Reading.tokens number (marks.map .ok) = .ok (tokens number marks) := by
  induction marks generalizing number with
  | nil => rfl
  | cons mark marks ih =>
      simp only [List.map_cons, Reading.tokens, ih]
      rfl

theorem tokens_error (number : Nat) (marks : List Mark) (error : ScanError) :
    Reading.tokens number (marks.map .ok ++ [.error error]) = .error error := by
  induction marks generalizing number with
  | nil => rfl
  | cons mark marks ih =>
      simp only [List.map_cons, List.cons_append, Reading.tokens, ih]
      rfl

theorem tokensOf_of_derives {template : String} {marks : List Mark}
    (h : Derives .start template.toList marks) : tokensOf template = .ok (tokens 0 marks) := by
  rw [tokensOf_eq, ← tokens_ok, ← readings_of_derives h]
  rfl

theorem tokensOf_of_stuck {template : String} {error : ScanError}
    (h : Stuck .start template.toList error) : tokensOf template = .error error := by
  obtain ⟨marks, hreadings⟩ := readings_of_isStuck h
  rw [tokensOf_eq, ← tokens_error 0 marks error, ← hreadings]
  rfl

/--
A template has tokens just if it derives lexemes, and then these are the
tokens; otherwise the fault is the leftmost place where a tag cannot go on.
-/
theorem tokensOf_grammar (template : String) :
    (∀ found, tokensOf template = .ok found ↔
      ∃ marks, Derives .start template.toList marks ∧ Shaped marks ∧
        found = tokens 0 marks) ∧
    ∀ error, tokensOf template = .error error ↔ Stuck .start template.toList error := by
  constructor
  · intro found
    constructor
    · intro h
      rcases derives_or_stuck .start template.toList with ⟨marks, hmarks⟩ | ⟨error, herror⟩
      · rw [tokensOf_of_derives hmarks] at h
        exact ⟨marks, hmarks, shaped_of_derives hmarks, (Except.ok.inj h).symm⟩
      · rw [tokensOf_of_stuck herror] at h
        cases h
    · rintro ⟨marks, hmarks, -, rfl⟩
      exact tokensOf_of_derives hmarks
  · intro error
    refine ⟨fun h => ?_, tokensOf_of_stuck⟩
    rcases derives_or_stuck .start template.toList with ⟨marks, hmarks⟩ | ⟨other, hother⟩
    · rw [tokensOf_of_derives hmarks] at h
      cases h
    · rw [tokensOf_of_stuck hother] at h
      exact Except.error.inj h ▸ hother

end Grammar

end Stencil
