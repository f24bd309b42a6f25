import Mathlib.Data.List.Infix
import Stencil.Proofs.Shifts
import Stencil.Proofs.Walks

/-!
# Verbatim text

A template in which no tag and no escape is spelled anywhere is written as it
stands.  Every other template comes to something else when nothing is bound: a
tag has nothing to refer to, and an escape is not what it means.
-/

namespace Stencil

/--
Neither two braces together nor two with a backslash between them.  The other
escape contains two braces together.
-/
def Unmarked (chars : List Char) : Prop :=
  ¬['{', '{'] <:+: chars ∧ ¬['{', '\\', '{'] <:+: chars

instance (chars : List Char) : Decidable (Unmarked chars) :=
  inferInstanceAs (Decidable (_ ∧ _))

namespace TextRun

variable {source rest : List Char} {pieces : List TextPiece}

theorem unmarked_cons_iff (c : Char) (chars : List Char) :
    Unmarked (c :: chars) ↔ (TextPiece.plain c).Fits chars ∧ Unmarked chars := by
  simp only [Unmarked, TextPiece.Fits, List.infix_cons_iff, not_or]
  constructor
  · rintro ⟨⟨hopening, hinside⟩, hsplit, hinside'⟩
    refine ⟨⟨hopening, hsplit, ?_⟩, hinside, hinside'⟩
    rintro ⟨beyond, hguard⟩
    obtain ⟨rfl, rfl⟩ := List.cons.inj hguard
    exact hinside ⟨[], beyond, rfl⟩
  · rintro ⟨⟨hopening, hsplit, -⟩, hinside, hinside'⟩
    exact ⟨⟨hopening, hinside⟩, hsplit, hinside'⟩

theorem spells_of_unmarked (h : Unmarked source) : Spells source (source.map .plain) [] := by
  induction source with
  | nil => exact .nil []
  | cons c source ih =>
      obtain ⟨hfits, h⟩ := (unmarked_cons_iff c source).mp h
      exact .cons (.plain c) hfits (ih h)

/-- An escape and its meaning differ in their first two characters. -/
theorem Spells.unmarked (h : Spells source pieces [])
    (hmeaning : pieces.flatMap TextPiece.meaning = source) : Unmarked source := by
  generalize hend : [] = rest at h
  induction h with
  | nil rest =>
      subst hend
      decide
  | @cons piece ahead rest pieces hfits _ ih =>
      cases piece with
      | plain c =>
          have hahead : pieces.flatMap TextPiece.meaning = ahead := by
            simpa [TextPiece.meaning, TextPiece.spelling] using hmeaning
          exact (unmarked_cons_iff c ahead).mpr ⟨hfits, ih hahead hend⟩
      | splitBraces | guardedBraces =>
          simp [TextPiece.meaning, TextPiece.spelling] at hmeaning

theorem meaning_map_plain (chars : List Char) :
    (chars.map TextPiece.plain).flatMap TextPiece.meaning = chars := by
  simp [List.flatMap_map, TextPiece.meaning]

/-- Text says what is spelled just where nothing in it is marked. -/
theorem meaning_eq_iff (hbeyond : (read source).beyond = none) :
    (read source).meaning = source ↔ Unmarked source := by
  have hspells : Spells source (read source).pieces [] := by
    simpa [rest, hbeyond] using (read_eq_iff source _).mp rfl
  constructor
  · exact hspells.unmarked
  · intro h
    have hread : read source = ⟨source.map .plain, none⟩ :=
      (read_eq_iff ..).mpr (spells_of_unmarked h)
    rw [hread, meaning, meaning_map_plain]

theorem beyond_of_unmarked (h : Unmarked source) : (read source).beyond = none := by
  rw [(read_eq_iff source ⟨source.map .plain, none⟩).mpr (spells_of_unmarked h)]

/-! ## Outlines of text -/

/-- The outline of a template that is text to its end. -/
def outline (run : TextRun) : Body .input :=
  if run.pieces = [] then .endOfInput else .literal (String.ofList run.meaning) .endOfInput

theorem evaluate_outline (run : TextRun) (values : Values) (arrays : Arrays)
    (scope : List (String × String)) :
    run.outline.evaluate values arrays scope =
      if run.pieces = [] then [] else [String.ofList run.meaning] := by
  unfold outline
  split <;> rfl

/-- A cursor with nothing but text ahead reads as the outline of the text. -/
theorem readsAs_outline (names : Names) (items : List String) (place : Place)
    (hbeyond : (read source).beyond = none) :
    ∃ after, (read source).outline.ReadsAs names items ⟨⟨place, .text, none⟩, source⟩ after := by
  have hend (stop : Place) : Block.Reads names items ⟨⟨stop, .text, none⟩, []⟩ .endOfInput
      ⟨⟨stop, .text, none⟩, []⟩ :=
    .endOfInput rfl
  generalize hread : read source = run at hbeyond
  obtain ⟨_ | ⟨piece, pieces⟩, beyond⟩ := run
  · obtain rfl : beyond = none := hbeyond
    have hsource := read_spelling source
    rw [hread] at hsource
    obtain rfl : [] = source := hsource
    exact ⟨_, .endOfInput (hend place)⟩
  · obtain rfl : beyond = none := hbeyond
    have hscan := Cursor.scan_of_read hread (List.cons_ne_nil piece pieces) place
    exact ⟨_, .literal (.literal hscan) (.endOfInput (hend _))⟩

end TextRun

/-! ## Tags with nothing bound -/

namespace Block

variable {cursor next : Cursor} {block : Block} {span : Span}

/-- Where nothing is bound and no loop is open, no tag is whole. -/
theorem ReadsTag.not_isWhole (h : ReadsTag (.ofBindings .empty .empty) [] cursor block next) :
    block.isWhole = false := by
  cases h with
  | value _ hbound => cases hbound
  | @loopBegin header _ _ _ _ _ hheader =>
      have hheads := Cursor.header_heads (.ofBindings .empty .empty) header
      rw [hheader] at hheads
      cases hheads with
      | read _ harray => cases harray
  | loopEnd _ hitems => exact absurd rfl hitems
  | _ => rfl

theorem Reads.not_isWhole {opened : Cursor}
    (h : Reads (.ofBindings .empty .empty) [] cursor block next)
    (hscan : cursor.scan = (.ok (.scriptBegin, span), opened)) : block.isWhole = false := by
  cases h with
  | tag _ htag => exact htag.not_isWhole
  | lexical | unexpected => rfl
  | endOfInput hscan' | literal hscan' => cases hscan.symm.trans hscan'

end Block

namespace Body.ReadsAs

variable {ending : Ending} {body : Body ending} {cursor after opened : Cursor} {span : Span}

/-- A body that no fault ends begins with a whole block. -/
theorem exists_isWhole {names : Names} {items : List String}
    (h : body.ReadsAs names items cursor after) (hwhole : ending ≠ .fault) :
    ∃ block next, Block.Reads names items cursor block next ∧ block.isWhole := by
  cases h with
  | broken | brokenValue => exact absurd rfl hwhole
  | endOfInput hread | loopEnd hread | literal hread | value hread | loop hread
  | openLoop hread => exact ⟨_, _, hread, rfl⟩

theorem fault_of_opening (h : body.ReadsAs (.ofBindings .empty .empty) [] cursor after)
    (hscan : cursor.scan = (.ok (.scriptBegin, span), opened)) : ending = .fault := by
  by_contra hwhole
  obtain ⟨block, next, hread, hblock⟩ := h.exists_isWhole hwhole
  rw [hread.not_isWhole hscan] at hblock
  cases hblock

/-- If nothing is bound then a template that no fault ends is text to its end. -/
theorem beyond_eq_none {place : Place} {source : List Char}
    (h : body.ReadsAs (.ofBindings .empty .empty) [] ⟨⟨place, .text, none⟩, source⟩ after)
    (hwhole : ending ≠ .fault) : (TextRun.read source).beyond = none := by
  by_contra hbeyond
  obtain ⟨beyond, hbeyond⟩ := Option.ne_none_iff_exists'.mp hbeyond
  generalize hread : TextRun.read source = run at hbeyond
  obtain ⟨pieces, _⟩ := run
  obtain rfl := hbeyond
  cases pieces with
  | nil =>
      have hscan : (⟨⟨place, .text, none⟩, source⟩ : Cursor).scan =
          (.ok (.scriptBegin, place.span), ⟨⟨place.after ['{', '{'], .tag, none⟩, beyond⟩) := by
        simp only [Cursor.scan, Cursor.scanText, hread]
      exact hwhole (h.fault_of_opening hscan)
  | cons piece pieces =>
      -- The opening that ends the text is owed, and is scanned next.
      have hscan := Cursor.scan_of_read hread (List.cons_ne_nil piece pieces) place
      cases h with
      | literal hblock hrest =>
          cases hblock with
          | literal hscan' =>
              cases hscan.symm.trans hscan'
              exact hwhole (hrest.fault_of_opening rfl)
          | tag _ htag => cases htag
      | endOfInput hblock | loopEnd hblock | value hblock | loop hblock | openLoop hblock =>
          cases hblock <;> cases hscan.symm.trans ‹_›
      | broken | brokenValue => exact hwhole rfl

end Body.ReadsAs

/-! ## Renderings -/

theorem render_text {template : String}
    (hbeyond : (TextRun.read template.toList).beyond = none) (values : Values) (arrays : Arrays)
    (before : String) :
    let run := TextRun.read template.toList
    let outcome := render values arrays template (.unlimited before)
    outcome.result = .ok () ∧
      outcome.sink.pieces.toList =
        if run.pieces = [] then [] else [String.ofList run.meaning] := by
  intro run outcome
  obtain ⟨after, hreads⟩ :=
    TextRun.readsAs_outline (.ofBindings values arrays) [] .start hbeyond
  obtain ⟨hreports, hpieces, -⟩ := render_of_readsAs hreads before
  refine ⟨hreports.ok_iff.mp (run.outline.verdict_eq_ok_iff.mpr (by decide)), ?_⟩
  exact hpieces.trans (run.evaluate_outline values arrays [])

/-- If nothing is bound and all goes well then there is nothing but text. -/
theorem beyond_of_ok {template before : String}
    (h : (render .empty .empty template (.unlimited before)).result = .ok ()) :
    (TextRun.read template.toList).beyond = none := by
  obtain ⟨ending, outline, after, hreads⟩ :=
    Body.exists_readsAs (.ofBindings .empty .empty) [] (.ofTemplate template)
  obtain ⟨hreports, -⟩ := render_of_readsAs hreads before
  exact hreads.beyond_eq_none (outline.verdict_eq_ok_iff.mp (hreports.ok_iff.mpr h))

theorem text_of_render {template : String}
    (hbeyond : (TextRun.read template.toList).beyond = none) (values : Values) (arrays : Arrays)
    (before : String) :
    (render values arrays template (.unlimited before)).sink.text =
      before ++ String.ofList (TextRun.read template.toList).meaning := by
  obtain ⟨-, hpieces⟩ := render_text hbeyond values arrays before
  have hbefore := render_before values arrays template (.unlimited before)
  rw [Sink.text, ← Array.foldl_toList, hpieces, hbefore]
  split
  · simp [(TextRun.meaning_eq_nil_iff _).mpr ‹_›, Sink.unlimited]
  · rfl

theorem renderText_eq_ok_iff (values : Values) (arrays : Arrays) (template text : String) :
    renderText values arrays template = .ok text ↔
      let outcome := render values arrays template (.unlimited "")
      outcome.result = .ok () ∧ outcome.sink.text = text := by
  simp only [renderText]
  cases (render values arrays template (.unlimited "")).result <;> simp

/--
With nothing bound, the templates that come to themselves are those in which
neither an opening of a tag nor an escape is spelled.  Whatever is bound, each
of these is written in one piece, unless there is nothing to write.
-/
theorem renderText_eq_self_iff (template : String) :
    (renderText .empty .empty template = .ok template ↔ Unmarked template.toList) ∧
      (Unmarked template.toList → ∀ (values : Values) (arrays : Arrays) (before : String),
        let outcome := render values arrays template (.unlimited before)
        outcome.result = .ok () ∧ outcome.sink.text = before ++ template ∧
          outcome.sink.pieces.toList = if template = "" then [] else [template]) := by
  have hmeaning (hbeyond : (TextRun.read template.toList).beyond = none) :
      String.ofList (TextRun.read template.toList).meaning = template ↔
        Unmarked template.toList := by
    rw [← TextRun.meaning_eq_iff hbeyond, ← String.ofList_inj, String.ofList_toList]
  rw [renderText_eq_ok_iff]
  refine ⟨⟨fun ⟨hresult, htext⟩ => ?_, fun h => ?_⟩, fun h values arrays before => ?_⟩
  · have hbeyond := beyond_of_ok hresult
    rwa [text_of_render hbeyond, String.empty_append, hmeaning hbeyond] at htext
  · have hbeyond := TextRun.beyond_of_unmarked h
    refine ⟨(render_text hbeyond .empty .empty "").1, ?_⟩
    rw [text_of_render hbeyond, (hmeaning hbeyond).mpr h, String.empty_append]
  · have hbeyond := TextRun.beyond_of_unmarked h
    have hempty : (TextRun.read template.toList).pieces = [] ↔ template = "" := by
      rw [← TextRun.meaning_eq_nil_iff, (TextRun.meaning_eq_iff hbeyond).mpr h,
        String.toList_eq_nil_iff]
    obtain ⟨hresult, hpieces⟩ := render_text hbeyond values arrays before
    refine ⟨hresult, ?_, ?_⟩
    · rw [text_of_render hbeyond, (hmeaning hbeyond).mpr h]
    · simp only [hpieces, hempty, (hmeaning hbeyond).mpr h]

/-- Braces that never meet, and backslashes that escape nothing. -/
theorem renderText_eq_self_lone_braces :
    let template := "\x7b a\\\\\x7b b\x7b\\\\\x7b \x7d\x7d#loop\x7b"
    Unmarked template.toList ∧ renderText .empty .empty template = .ok template ∧
      (render .empty .empty template (.unlimited "")).sink.pieces.toList = [template] := by
  intro template
  have h : Unmarked template.toList := by decide
  obtain ⟨hself, hpieces⟩ := renderText_eq_self_iff template
  exact ⟨h, hself.mpr h, (hpieces h .empty .empty "").2.2⟩

/-- Without two braces together an escape may still stand in a template. -/
example :
    let template := "\x7b\\\x7b"
    ¬['{', '{'] <:+: template.toList ∧ ¬Unmarked template.toList ∧
      renderText .empty .empty template = .ok "\x7b\x7b" := by
  decide +kernel

end Stencil
