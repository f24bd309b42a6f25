import Stencil.Proofs.Shifts
import Stencil.Proofs.Pairs

/-!
# Twins

A template rendered inside another one goes the same way as on its own, step
by step: what is written, and the faults that are met, are the same, the
shift of its places and numbers aside.
-/

namespace Stencil

/-! ## Loops that are closed -/

namespace Lexeme

/-- How many loops are open behind the lexeme. -/
def opensAfter (opens : Nat) : Lexeme → Nat
  | .loopBegin => opens + 1
  | .loopEnd => opens - 1
  | _ => opens

/-- Every loop is closed, those already open included, and nothing else is. -/
def Close : Nat → List Lexeme → Prop
  | opens, [] => opens = 0
  | opens, lexeme :: more =>
      (lexeme = .loopEnd → 0 < opens) ∧ Close (lexeme.opensAfter opens) more

instance decidableClose : (opens : Nat) → (lexemes : List Lexeme) →
    Decidable (Close opens lexemes)
  | opens, [] => inferInstanceAs (Decidable (opens = 0))
  | opens, lexeme :: more =>
      have := decidableClose (lexeme.opensAfter opens) more
      inferInstanceAs (Decidable (_ ∧ _))

end Lexeme

namespace Cursor

def Closes (opens : Nat) (cursor : Cursor) : Prop :=
  ∃ lexemes, cursor.Spells lexemes ∧ Lexeme.Close opens lexemes

variable {cursor next : Cursor} {opens : Nat} {lexeme : Lexeme} {span : Span}

theorem Closes.exists_scan (h : cursor.Closes opens) :
    ∃ mark, cursor.scan.1 = .ok mark ∧ cursor.scan.2.Closes (mark.1.opensAfter opens) ∧
      (mark.1 = .loopEnd → 0 < opens) ∧ (mark.1 = .endOfInput → opens = 0) := by
  obtain ⟨lexemes, ⟨marks, hreadings, rfl⟩, hclose⟩ := h
  have hhead := cursor.head?_readings
  cases marks with
  | nil => simp [hreadings] at hhead
  | cons mark marks =>
      have hscan : cursor.scan.1 = .ok mark := by simpa [hreadings] using hhead.symm
      obtain ⟨hend, hmore⟩ := hclose
      cases hlast : Reading.isLast cursor.scan.1 with
      | false =>
          rw [readings_of_not_isLast hlast, List.map_cons, List.cons.injEq] at hreadings
          refine ⟨mark, hscan, ⟨_, ⟨marks, hreadings.2, rfl⟩, hmore⟩, hend, fun h => ?_⟩
          simp [hscan, h, Reading.isLast] at hlast
      | true =>
          have hmark : mark.1 = .endOfInput := by simpa [hscan, Reading.isLast] using hlast
          obtain rfl : marks = [] := by simp_all [readings_of_isLast hlast]
          have hopens : opens = 0 := by simpa [hmark, Lexeme.opensAfter, Lexeme.Close] using hmore
          refine ⟨mark, hscan, ⟨_, ⟨[mark], ?_, rfl⟩, ?_⟩, hend, fun _ => hopens⟩
          · rw [readings_scan_of_isLast hlast, hreadings]
          · simp [hmark, hopens, Lexeme.opensAfter, Lexeme.Close]

/-- Text at the end of a template is read in one scan, unless the end is already there. -/
theorem AtLastText.exists_place (h : cursor.AtLastText) :
    ∃ place, cursor = ⟨⟨place, .text, none⟩, cursor.ahead⟩ ∧
      ((TextRun.read cursor.ahead).pieces = [] → cursor.ahead = []) := by
  obtain ⟨⟨place, mode, owed⟩, ahead⟩ := cursor
  obtain ⟨rfl, rfl, hbeyond⟩ := h
  refine ⟨place, rfl, fun hpieces => ?_⟩
  have hspelling := TextRun.read_spelling ahead
  simpa [TextRun.spelling, TextRun.rest, hpieces, hbeyond] using hspelling.symm

theorem Closes.not_atLastText (h : cursor.Closes (opens + 1)) : ¬cursor.AtLastText := by
  have hend (place : Place) : ¬Closes (opens + 1) ⟨⟨place, .text, none⟩, []⟩ := by
    intro h
    obtain ⟨mark, hscan, -, -, hopens⟩ := h.exists_scan
    cases hscan
    cases hopens rfl
  intro hlast
  obtain ⟨place, hcursor, hnil⟩ := hlast.exists_place
  by_cases hpieces : (TextRun.read cursor.ahead).pieces = []
  · rw [hnil hpieces] at hcursor
    exact hend place (hcursor ▸ h)
  · obtain ⟨mark, hscan, hnext, -⟩ := h.exists_scan
    rw [hcursor, scan_of_read rfl hpieces] at hscan hnext
    cases hscan
    simp only [behindText, hlast.2.2] at hnext
    exact hend _ hnext

/-- Lines are counted from one, and an opening is owed inside its tag alone. -/
structure Sound (cursor : Cursor) : Prop where
  line : 1 ≤ cursor.position.place.line
  owed : ∀ span, cursor.position.owed = some span → cursor.position.mode = .tag

theorem Sound.scan (h : cursor.Sound) : cursor.scan.2.Sound where
  line := by
    obtain ⟨passed, -, hplace⟩ := On.passed_of_scans cursor.scan_scans
    rw [hplace]
    exact Shift.line_after h.line passed
  owed span howed := by
    have hscans := cursor.scan_scans
    generalize cursor.scan.1 = reading, cursor.scan.2 = next at hscans howed ⊢
    cases hscans <;> first | rfl | cases howed

theorem Reaches.sound (h : cursor.Reaches next) (hsound : cursor.Sound) : next.Sound := by
  induction h with
  | refl => exact hsound
  | tail _ hscan ih => exact hscan ▸ ih.scan

/-- Behind a lexeme of a tag other than its end there is more of the tag. -/
theorem Sound.not_atLastText_scan (h : cursor.Sound)
    (hscan : cursor.scan.1 = .ok (lexeme, span))
    (hkind : lexeme.kind ∈ [.scriptBegin, .identifier, .loopEnd]) :
    ¬cursor.scan.2.AtLastText := by
  rintro ⟨-, hmode, -⟩
  have howed := h.owed
  have hscans := cursor.scan_scans
  rw [hscan] at hscans
  generalize hreading : (Except.ok (lexeme, span) : Reading) = reading, cursor.scan.2 = next
    at hscans hmode
  cases hscans with
  | owed place mode owed => cases (howed owed rfl).symm.trans hmode
  | opening | text => cases hmode
  | endOfInput | lastText =>
      cases hreading
      simp [Lexeme.kind] at hkind
  | item _ _ _ item =>
      cases hreading
      cases item with
      | close => simp [TagItem.lexeme, Lexeme.kind] at hkind
      | _ => cases hmode
  | stuck => cases hreading

end Cursor

/-! ## Frames without their names -/

namespace Environment

/-- The names of frames tell the numbers of their loops, and nothing else. -/
def unnamed (environment : Environment) : Environment :=
  { environment with loops := environment.loops.map ({ · with id := "" }) }

variable (environment : Environment)

@[simp] theorem value?_unnamed (name : String) :
    environment.unnamed.value? name = environment.value? name := by
  simp [unnamed, value?, frames, List.findSome?_append, List.findSome?_map, Function.comp_def]

@[simp] theorem array?_unnamed (name : String) :
    environment.unnamed.array? name = environment.array? name := by
  simp [unnamed, array?, frames, List.findSome?_append, List.findSome?_map, Function.comp_def]

@[simp] theorem atRoot_unnamed : environment.unnamed.atRoot = environment.atRoot := by
  simp [unnamed, atRoot]

theorem unnamed_enter (id : String) :
    (environment.enter id).unnamed = environment.unnamed.enter "" := by
  simp [unnamed, enter, depth]

theorem unnamed_leave : environment.leave.2.unnamed = environment.unnamed.leave.2 := by
  rcases environment with ⟨_ | ⟨inner, outer⟩, root⟩ <;> rfl

theorem unnamed_define (name value : String) :
    (environment.define name value).unnamed = environment.unnamed.define name value := by
  rcases environment with ⟨_ | ⟨inner, outer⟩, root⟩ <;> rfl

end Environment

/-! ## Runs side by side -/

/--
A rendering inside another one: where the inner one begins on its own, what is
there in front of it, what has been written before, and what follows.  If
nothing follows, the two end together.
-/
structure Setting where
  origin : Cursor
  sound : origin.Sound
  follows : Option (List Char)
  shift : Shift
  written : String

namespace Setting

def tail (setting : Setting) : List Char := setting.follows.getD []

/-- What follows has no part in the next scan. -/
def Clear (setting : Setting) (cursor : Cursor) : Prop :=
  setting.follows = none ∨ ¬cursor.AtLastText

end Setting

/-- The second cursor is where the first is; so many blocks suffice for both. -/
structure Cursor.Twins (setting : Setting) (opens blocks : Nat) (cursor cursor' : Cursor) :
    Prop where
  eq : cursor' = setting.shift.cursor setting.tail cursor
  reaches : setting.origin.Reaches cursor
  closes : setting.follows ≠ none → cursor.Closes opens
  room : cursor.scanBound + setting.tail.length ≤ blocks

structure Run.Twins (setting : Setting) (opens blocks : Nat) (run run' : Run) : Prop where
  cursor : run.cursor.Twins setting opens blocks run'.cursor
  loops : run'.loops = run.loops + setting.shift.loops
  environment : run'.environment.unnamed = run.environment.unnamed
  free : run.sink.capacity = none
  free' : run'.sink.capacity = none
  text : run'.sink.text = setting.written ++ run.sink.text

theorem Run.text_wrote (run : Run) (piece : String) :
    (run.wrote piece).sink.text = run.sink.text ++ piece := by
  simp [wrote, note, Sink.add, Sink.text]

section Twins

variable {setting : Setting} {opens blocks : Nat}

theorem Cursor.Twins.sound {cursor cursor' : Cursor}
    (h : cursor.Twins setting opens blocks cursor') : cursor.Sound :=
  h.reaches.sound setting.sound

theorem Cursor.Twins.clear {cursor cursor' : Cursor}
    (h : cursor.Twins setting (opens + 1) blocks cursor') : setting.Clear cursor :=
  or_iff_not_imp_left.mpr fun hfollows => (h.closes hfollows).not_atLastText

theorem Cursor.Twins.scan {cursor cursor' : Cursor}
    (h : cursor.Twins setting opens blocks cursor') (hclear : setting.Clear cursor) :
    cursor'.scan = (setting.shift.reading cursor.scan.1,
      setting.shift.cursor setting.tail cursor.scan.2) := by
  rw [h.eq]
  apply scan_shift _ _ h.sound.line
  · by_cases hfollows : setting.follows = none
    · exact .inl (by rw [Setting.tail, hfollows, Option.getD_none])
    · obtain ⟨mark, hscan, hnext, -⟩ := (h.closes hfollows).exists_scan
      obtain ⟨mark', hscan', -⟩ := hnext.exists_scan
      exact .inr ⟨hclear.resolve_left hfollows, by rw [hscan]; rfl, by rw [hscan']; rfl⟩

theorem Cursor.Twins.next {cursor cursor' : Cursor} {mark : Mark}
    (h : cursor.Twins setting opens blocks cursor') (hclear : setting.Clear cursor)
    (hscan : cursor.scan.1 = .ok mark) :
    cursor.scan.2.Twins setting (mark.1.opensAfter opens) blocks cursor'.scan.2 where
  eq := by rw [h.scan hclear]
  reaches := h.reaches.tail rfl
  closes hfollows := by
    obtain ⟨mark, hmark, hnext, -⟩ := (h.closes hfollows).exists_scan
    cases hmark.symm.trans hscan
    exact hnext
  room := Nat.le_trans (Nat.add_le_add_right cursor.scanBound_scan_le _) h.room

namespace Run.Twins

variable {run run' : Run}

theorem more (h : run.Twins setting opens blocks run') :
    run.Twins setting opens (blocks + 1) run' :=
  { h with cursor := { h.cursor with room := Nat.le_add_right_of_le h.cursor.room } }

theorem note (h : run.Twins setting opens blocks run') (event event' : Event) :
    (run.note event).Twins setting opens blocks (run'.note event') :=
  ⟨h.cursor, h.loops, h.environment, h.free, h.free', h.text⟩

theorem wrote (h : run.Twins setting opens blocks run') (piece : String) :
    (run.wrote piece).Twins setting opens blocks (run'.wrote piece) := by
  refine ⟨h.cursor, h.loops, h.environment, h.free, h.free', ?_⟩
  rw [text_wrote, text_wrote, h.text, String.append_assoc]

theorem at_environment (h : run.Twins setting opens blocks run')
    {environment environment' : Environment}
    (henvironment : environment'.unnamed = environment.unnamed) :
    Twins setting opens blocks { run with environment := environment }
      { run' with environment := environment' } :=
  { h with environment := henvironment }

theorem scanned {mark : Mark} (h : run.Twins setting opens blocks run')
    (hclear : setting.Clear run.cursor) (hscan : run.cursor.scan.1 = .ok mark) (site : Site) :
    (run.scanned site).Twins setting (mark.1.opensAfter opens) blocks (run'.scanned site) := by
  refine ⟨h.cursor.next hclear hscan, ?_, h.environment, h.free, h.free', h.text⟩
  have hscan' : run'.cursor.scan.1 = .ok (mark.1, setting.shift.span mark.2) := by
    rw [h.cursor.scan hclear, hscan]
    rfl
  simp [Run.scanned, Run.note, hscan, hscan', Reading.loops, h.loops, Nat.add_right_comm]

end Run.Twins

end Twins

/-! ## Results side by side -/

/-- Two results, of which both fail or none does; the texts agree in either case. -/
inductive Tie {α β : Type} (setting : Setting) (values : α → β → Prop)
    (after : Run → Run → Prop) :
    EStateM.Result RenderError Run α → EStateM.Result RenderError Run β → Prop
  | ok {value : α} {value' : β} {run run' : Run} (hvalues : values value value')
      (hafter : after run run') : Tie setting values after (.ok value run) (.ok value' run')
  | error {error error' : RenderError} {run run' : Run}
      (hmoves : setting.shift.Moves error error')
      (htext : run'.sink.text = setting.written ++ run.sink.text) :
      Tie setting values after (.error error run) (.error error' run')

/-- Two steps that come to no value. -/
abbrev Ties (setting : Setting) (opens blocks : Nat) :
    EStateM.Result RenderError Run Unit → EStateM.Result RenderError Run Unit → Prop :=
  Tie setting (fun _ _ => True) (Run.Twins setting opens blocks)

section Tie

variable {setting : Setting} {run run' : Run} {α β α' β' : Type} {values : α → β → Prop}
  {after : Run → Run → Prop} {first : Rendering α} {first' : Rendering β}
  {second : α → Rendering α'} {second' : β → Rendering β'}

theorem tie_iff {result : EStateM.Result RenderError Run α}
    {result' : EStateM.Result RenderError Run β} :
    Tie setting values after result result' ↔
      Rendering.Both values after (fun error error' run run' =>
        setting.shift.Moves error error' ∧ run'.sink.text = setting.written ++ run.sink.text)
        result result' := by
  constructor
  · rintro (⟨hvalues, hafter⟩ | ⟨hmoves, htext⟩)
    · exact .ok hvalues hafter
    · exact .error ⟨hmoves, htext⟩
  · rintro (⟨hvalues, hafter⟩ | ⟨hmoves, htext⟩)
    · exact .ok hvalues hafter
    · exact .error hmoves htext

theorem Tie.bind_to {related : EStateM.Result RenderError Run α' →
      EStateM.Result RenderError Run β' → Prop}
    (h : Tie setting values after (first run) (first' run'))
    (herror : ∀ error error' later later', setting.shift.Moves error error' →
      later'.sink.text = setting.written ++ later.sink.text →
      related (.error error later) (.error error' later'))
    (hnext : ∀ value value' later later', values value value' → after later later' →
      related (second value later) (second' value' later')) :
    related ((first >>= second) run) ((first' >>= second') run') :=
  (tie_iff.mp h).bind_to (fun _ _ _ _ hfailed => herror _ _ _ _ hfailed.1 hfailed.2) hnext

theorem Tie.bind {values' : α' → β' → Prop} {after' : Run → Run → Prop}
    (h : Tie setting values after (first run) (first' run'))
    (hnext : ∀ value value' later later', values value value' → after later later' →
      Tie setting values' after' (second value later) (second' value' later')) :
    Tie setting values' after' ((first >>= second) run) ((first' >>= second') run') :=
  h.bind_to (fun _ _ _ _ => .error) hnext

theorem Tie.discard (h : Tie setting values after (first run) (first' run')) :
    Tie setting (fun _ _ => True) after (discard first run) (discard first' run') :=
  tie_iff.mpr (tie_iff.mp h).discard

theorem Tie.mono {after' : Run → Run → Prop} {result : EStateM.Result RenderError Run α}
    {result' : EStateM.Result RenderError Run β} (h : Tie setting values after result result')
    (hafter : ∀ run run', after run run' → after' run run') :
    Tie setting values after' result result' := by
  cases h with
  | ok hvalues h => exact .ok hvalues (hafter _ _ h)
  | error hmoves htext => exact .error hmoves htext

end Tie

namespace Rendering

variable {setting : Setting} {opens blocks : Nat} {run run' : Run}

/-! ## Steps side by side -/

theorem scan_ties {α β : Type} {second : Token → Rendering α} {second' : Token → Rendering β}
    {related : EStateM.Result RenderError Run α → EStateM.Result RenderError Run β → Prop}
    (h : run.Twins setting opens blocks run') (hclear : setting.Clear run.cursor) (site : Site)
    (herror : ∀ error error' later later', setting.shift.Moves error error' →
      later'.sink.text = setting.written ++ later.sink.text →
      related (.error error later) (.error error' later'))
    (hnext : ∀ lexeme span, run.cursor.scan.1 = .ok (lexeme, span) →
      (run.scanned site).Twins setting (lexeme.opensAfter opens) blocks (run'.scanned site) →
      related (second (lexeme.token run.loops span) (run.scanned site))
        (second' (lexeme.token (run.loops + setting.shift.loops) (setting.shift.span span))
          (run'.scanned site))) :
    related ((scan site >>= second) run) ((scan site >>= second') run') := by
  have hscan := scan_eq site run
  have hscan' := scan_eq site run'
  rw [h.cursor.scan hclear] at hscan'
  cases hreading : run.cursor.scan.1 with
  | error error =>
      rw [hreading] at hscan hscan'
      rw [bind_error hscan, bind_error hscan']
      exact herror _ _ _ _ ⟨.lexical error, 0, rfl, rfl⟩ h.text
  | ok mark =>
      rw [hreading] at hscan hscan'
      rw [bind_ok hscan, bind_ok hscan', h.loops]
      exact hnext mark.1 mark.2 hreading (h.scanned hclear hreading site)

theorem fail_unexpected_ties {α β : Type} {values : α → β → Prop} {after : Run → Run → Prop}
    (lexeme : Lexeme) (number : Nat) (span : Span)
    (htext : run'.sink.text = setting.written ++ run.sink.text) :
    Tie setting values after (fail (.unexpected (lexeme.token number span)) run)
      (fail (.unexpected
        (lexeme.token (number + setting.shift.loops) (setting.shift.span span))) run') :=
  .error ⟨.unexpected (lexeme, span), number, rfl, rfl⟩ htext

theorem demand_ties {wanted : TokenKind} (hwanted : wanted = .identifier ∨ wanted = .scriptEnd)
    (h : run.Twins setting opens blocks run') (hclear : setting.Clear run.cursor) :
    Tie setting (fun token token' => token'.text = token.text)
      (Run.Twins setting opens blocks) (demand wanted run) (demand wanted run') := by
  apply scan_ties h hclear .tag fun _ _ _ _ => .error
  intro lexeme span _ hlater
  by_cases hkind : lexeme.kind = wanted
  · rw [Lexeme.token_kind, Lexeme.token_kind, if_pos hkind, if_pos hkind]
    cases lexeme <;> simp [Lexeme.kind, ← hkind] at hwanted <;> exact .ok rfl hlater
  · rw [Lexeme.token_kind, Lexeme.token_kind, if_neg hkind, if_neg hkind]
    exact .error ⟨.expected wanted (lexeme, span), run.loops, rfl, rfl⟩ hlater.text

theorem close_ties (h : run.Twins setting opens blocks run') (hclear : setting.Clear run.cursor) :
    Ties setting opens blocks (discard (demand .scriptEnd) run)
      (discard (demand .scriptEnd) run') :=
  (demand_ties (.inr rfl) h hclear).discard

theorem write_eq (piece : String) (hfree : run.sink.capacity = none) :
    write piece run = .ok () (run.wrote piece) := by
  have haccepts : run.sink.accepts = true := by simp [Sink.accepts, hfree]
  unfold write
  simp only [bind_get, haccepts, if_true]
  rfl

theorem write_ties (h : run.Twins setting opens blocks run') (piece : String) :
    Tie setting (fun _ _ => True)
      (fun later later' => later.Twins setting opens blocks later' ∧ later.cursor = run.cursor)
      (write piece run) (write piece run') := by
  rw [write_eq piece h.free, write_eq piece h.free']
  exact .ok trivial ⟨h.wrote piece, rfl⟩

theorem resolve_ties {α : Type} (h : run.Twins setting opens blocks run')
    (found : Except NameError α) :
    Tie setting Eq
      (fun later later' => later.Twins setting opens blocks later' ∧ later.cursor = run.cursor)
      (resolve found run) (resolve found run') := by
  cases found with
  | ok value => exact .ok rfl ⟨h, rfl⟩
  | error error => exact .error ⟨.unresolved error, 0, rfl, rfl⟩ h.text

theorem insertValue_ties (h : run.Twins setting opens blocks run')
    (hclear : setting.Clear run.cursor) (name : String) (emit : Bool) :
    Ties setting opens blocks (insertValue name emit run) (insertValue name emit run') := by
  have hvalue : run'.environment.value name = run.environment.value name := by
    unfold Environment.value
    rw [← Environment.value?_unnamed, h.environment, Environment.value?_unnamed]
  unfold insertValue
  rw [bind_get, bind_get, hvalue]
  apply (resolve_ties h _).bind
  rintro value _ later later' rfl ⟨hlater, hcursor⟩
  rw [← hcursor] at hclear
  cases emit with
  | false => exact close_ties hlater hclear
  | true =>
      apply (write_ties hlater value).bind
      rintro _ _ written written' - ⟨hwritten, hcursor⟩
      exact close_ties hwritten (hcursor ▸ hclear)

/-! ## Loops side by side -/

def BodyTies (setting : Setting) (blocks : Nat) : Prop :=
  ∀ (opens : Nat) (emit : Bool) (run run' : Run), run.Twins setting (opens + 1) blocks run' →
    Ties setting opens blocks (body blocks emit run) (body blocks emit run')

theorem round_ties (hbody : BodyTies setting blocks) {start start' : Cursor} {other : Nat}
    (hstart : start.Twins setting (opens + 1) blocks start')
    (h : run.Twins setting other blocks run') (item value : String) (emit : Bool) :
    Ties setting opens blocks (round start item (pass (body blocks) emit) value run)
      (round start' item (pass (body blocks) emit) value run') := by
  have hbegun : (run.begun start item value emit).Twins setting (opens + 1) blocks
      (run'.begun start' item value emit) := by
    refine ⟨hstart, h.loops, ?_, h.free, h.free', h.text⟩
    simp [Run.begun, Run.note, Environment.unnamed_define, h.environment]
  rw [round_eq, round_eq]
  apply (hbody opens emit _ _ hbegun).bind
  exact fun _ _ _ _ _ hlater => .ok trivial (hlater.note .passEnded .passEnded)

theorem forM_ties (hbody : BodyTies setting blocks) {start start' : Cursor}
    (hstart : start.Twins setting (opens + 1) blocks start')
    (h : run.Twins setting opens blocks run') (item : String) (elements : List String) :
    Ties setting opens blocks (elements.forM (round start item (pass (body blocks) true)) run)
      (elements.forM (round start' item (pass (body blocks) true)) run') := by
  induction elements generalizing run run' with
  | nil => exact .ok trivial h
  | cons element elements ih =>
      apply (round_ties hbody hstart h item element true).bind
      exact fun _ _ _ _ _ hlater => ih hlater

theorem passes_ties (hbody : BodyTies setting blocks)
    (h : run.Twins setting (opens + 1) blocks run') (item : String) (elements : List String)
    (emit : Bool) :
    Ties setting opens blocks (passes (pass (body blocks)) item elements emit run)
      (passes (pass (body blocks)) item elements emit run') := by
  have hsilent := round_ties hbody h.cursor h item "" false
  cases emit with
  | false => exact hsilent
  | true =>
      cases elements with
      | nil => exact hsilent
      | cons element elements =>
          apply (round_ties hbody h.cursor h item element true).bind
          exact fun _ _ _ _ _ hlater => forM_ties hbody h.cursor hlater item elements

theorem loop_ties (hbody : BodyTies setting blocks)
    (h : run.Twins setting (opens + 1) blocks run') (frame frame' : String) (emit : Bool) :
    Ties setting opens blocks (loop (pass (body blocks)) frame emit run)
      (loop (pass (body blocks)) frame' emit run') := by
  unfold loop
  apply (demand_ties (.inl rfl) h h.cursor.clear).bind
  intro array array' first first' harray hfirst
  have hhas : first'.environment.hasArray array'.text =
      first.environment.hasArray array.text := by
    unfold Environment.hasArray
    rw [harray, ← Environment.array?_unnamed, hfirst.environment, Environment.array?_unnamed]
  rw [bind_get, bind_get, hhas]
  split
  · rw [harray]
    exact .error ⟨.unresolved (.undefinedArray array.text), 0, rfl, rfl⟩ hfirst.text
  apply (demand_ties (.inl rfl) hfirst hfirst.cursor.clear).bind
  intro item item' second second' hitem hsecond
  apply (close_ties hsecond hsecond.cursor.clear).bind
  intro _ _ third third' _ hthird
  have henter : (third'.environment.enter frame').unnamed =
      (third.environment.enter frame).unnamed := by
    rw [Environment.unnamed_enter, Environment.unnamed_enter, hthird.environment]
  have hfound : (third'.environment.enter frame').array array'.text =
      (third.environment.enter frame).array array.text := by
    unfold Environment.array
    rw [harray, ← Environment.array?_unnamed, henter, Environment.array?_unnamed]
  rw [bind_modify, bind_modify, bind_get, bind_get]
  simp only [hfound, hitem]
  apply (resolve_ties (hthird.at_environment henter) _).bind
  rintro elements _ inside inside' rfl ⟨hinside, -⟩
  apply (passes_ties hbody (hinside.note _ _) item.text elements emit).bind
  intro _ _ later later' _ hlater
  have hleave : later'.environment.leave.2.unnamed = later.environment.leave.2.unnamed := by
    rw [Environment.unnamed_leave, Environment.unnamed_leave, hlater.environment]
  exact .ok trivial ((hlater.at_environment hleave).note _ _)

/-! ## Bodies side by side -/

theorem fewer_twins {site : Site} {later' : Run} {mark : Mark} {other : Nat}
    (h : run.Twins setting opens (blocks + 1) run') (hscan : run.cursor.scan.1 = .ok mark)
    (hend : mark.1 ≠ .endOfInput)
    (hlater : (run.scanned site).Twins setting other (blocks + 1) later') :
    (run.scanned site).Twins setting other blocks later' := by
  have hlt := @Cursor.scanBound_scan_lt run.cursor (by simpa [hscan, Reading.isLast] using hend)
  have hroom := h.cursor.room
  refine { hlater with cursor := { hlater.cursor with room := ?_ } }
  change run.cursor.scan.2.scanBound + setting.tail.length ≤ blocks
  omega

theorem tag_ties (hbody : BodyTies setting blocks)
    (h : run.Twins setting (opens + 1) blocks run') (emit : Bool) :
    Ties setting opens blocks ((scan .tag >>= tag (body blocks) emit) run)
      ((scan .tag >>= tag (body blocks) emit) run') := by
  apply scan_ties h h.cursor.clear .tag fun _ _ _ _ => .error
  intro lexeme span hscan hlater
  cases lexeme with
  | identifier name =>
      apply (insertValue_ties hlater hlater.cursor.clear name emit).bind
      exact fun _ _ _ _ _ h => hbody opens emit _ _ h
  | loopBegin =>
      apply (loop_ties hbody hlater _ _ emit).bind
      exact fun _ _ _ _ _ h => hbody opens emit _ _ h
  | loopEnd =>
      have hroot : (run'.scanned .tag).environment.atRoot =
          (run.scanned .tag).environment.atRoot := by
        rw [← Environment.atRoot_unnamed, hlater.environment, Environment.atRoot_unnamed]
      have hclear : setting.Clear (run.scanned .tag).cursor :=
        .inr (h.cursor.sound.not_atLastText_scan hscan (by simp [Lexeme.kind]))
      simp only [tag, Lexeme.token_kind, Lexeme.kind, bind_get, hroot]
      cases (run.scanned .tag).environment.atRoot with
      | true => exact .error ⟨.unmatchedLoopEnd span, 0, rfl, rfl⟩ hlater.text
      | false => exact close_ties hlater hclear
  | _ => exact fail_unexpected_ties _ _ _ hlater.text

/-- A body from its first block to the end of its loop, or to the end of the input. -/
theorem body_ties (setting : Setting) (blocks : Nat) : BodyTies setting blocks := by
  induction blocks with
  | zero =>
      intro opens emit run run' h
      have hroom := h.cursor.room
      have hpos := run.cursor.scanBound_pos
      omega
  | succ blocks ih =>
      intro opens emit run run' h
      have hrest {later later' : Run} (hlater : later.Twins setting (opens + 1) blocks later') :
          Ties setting opens (blocks + 1) (body blocks emit later) (body blocks emit later') :=
        (ih opens emit _ _ hlater).mono fun _ _ => Run.Twins.more
      rw [body]
      apply scan_ties h h.cursor.clear .body fun _ _ _ _ => .error
      intro lexeme span hscan hlater
      cases lexeme with
      | endOfInput =>
          -- A loop to be closed is closed before the input ends.
          refine .ok trivial { hlater with cursor := { hlater.cursor with closes := ?_ } }
          intro hfollows
          obtain ⟨mark, hmark, -, -, hopens⟩ := (h.cursor.closes hfollows).exists_scan
          cases hscan.symm.trans hmark
          cases hopens rfl
      | literal text =>
          have hlater := fewer_twins h hscan (by simp) hlater
          cases emit with
          | false => exact hrest hlater
          | true =>
              apply (write_ties hlater text).bind
              exact fun _ _ _ _ _ h => hrest h.1
      | scriptBegin =>
          have hlater := fewer_twins h hscan (by simp) hlater
          exact (tag_ties ih hlater emit).mono fun _ _ => Run.Twins.more
      | _ => exact fail_unexpected_ties _ _ _ hlater.text

end Rendering

end Stencil
