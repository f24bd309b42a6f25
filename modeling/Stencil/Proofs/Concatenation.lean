import Mathlib.Data.List.Iterate
import Stencil.Proofs.Cuts
import Stencil.Proofs.Recursion
import Stencil.Proofs.Twins

/-!
# Concatenation

A template that closes its loops, put in front of another one, is rendered as
on its own, and then the other one as on its own.  Only the text at the seam
may run together, which then is one literal instead of two.
-/

namespace Stencil

/-! ## Templates that something may follow -/

/-- The loops that the template begins are closed in it, each by its own end. -/
def ClosesLoops (template : String) : Prop :=
  ∃ tokens, tokensOf template = .ok tokens ∧ Lexeme.Close 0 (tokens.map Token.lexeme)

instance (template : String) : Decidable (ClosesLoops template) :=
  match h : tokensOf template with
  | .ok tokens =>
      decidable_of_iff (Lexeme.Close 0 (tokens.map Token.lexeme)) (by simp [ClosesLoops, h])
  | .error _ => isFalse (by simp [ClosesLoops, h])

theorem ClosesLoops.closes {template : String} (h : ClosesLoops template) :
    (Cursor.ofTemplate template).Closes 0 := by
  obtain ⟨tokens, htokens, hclose⟩ := h
  exact ⟨_, Cursor.spells_ofTemplate htokens, hclose⟩

/--
The template ends, in text, in the character as it stands.  An escape that is
complete is not the character it ends in.
-/
def EndsPlainly (template : String) (c : Char) : Prop :=
  ∃ cursor, (Cursor.ofTemplate template).Reaches cursor ∧ cursor.AtLastText ∧
    (TextRun.read cursor.ahead).pieces.getLast? = some (.plain c)

/-- No more scans are needed than come to the end of the input, or to an error. -/
theorem Cursor.reaches_iff_mem_iterate {cursor next : Cursor} :
    cursor.Reaches next ↔ next ∈ List.iterate (·.scan.2) cursor (cursor.scanBound + 1) := by
  rw [List.mem_iterate]
  constructor
  · intro h
    induction h using Relation.ReflTransGen.head_induction_on with
    | refl => exact ⟨0, Nat.succ_pos _, rfl⟩
    | @head cursor middle hscan _ ih =>
        obtain ⟨scans, hscans, rfl⟩ := ih
        obtain rfl : cursor.scan.2 = middle := hscan
        cases hlast : Reading.isLast cursor.scan.1 with
        | false =>
            have hlt := scanBound_scan_lt hlast
            exact ⟨scans + 1, by omega, rfl⟩
        | true =>
            have hstays : cursor.scan.2.scan.2 = cursor.scan.2 := by
              rw [scan_scan_of_isLast hlast]
            exact ⟨1, Nat.succ_lt_succ cursor.scanBound_pos, Function.iterate_fixed hstays scans⟩
  · rintro ⟨scans, -, rfl⟩
    induction scans with
    | zero => exact .refl
    | succ scans ih =>
        rw [Function.iterate_succ_apply']
        exact ih.tail rfl

instance (cursor : Cursor) : Decidable cursor.AtLastText :=
  inferInstanceAs (Decidable (_ ∧ _ ∧ _))

instance (template : String) (c : Char) : Decidable (EndsPlainly template c) :=
  decidable_of_iff
    (∃ cursor ∈ List.iterate (·.scan.2) (Cursor.ofTemplate template)
      ((Cursor.ofTemplate template).scanBound + 1),
      cursor.AtLastText ∧ (TextRun.read cursor.ahead).pieces.getLast? = some (.plain c))
    (exists_congr fun _ => and_congr_left' Cursor.reaches_iff_mem_iterate.symm)

/-! ## Up to the seam -/

/-- If the first result is a success, both bodies have come to the last text of the first. -/
def Setting.MeetSeam (setting : Setting)
    (result result' : EStateM.Result RenderError Run Unit) : Prop :=
  ∀ last, result = .ok () last → ∃ (blocks : Nat) (seam seam' : Run),
    seam.Twins setting 0 blocks seam' ∧ seam.cursor.AtLastText ∧
      result = Rendering.body blocks true seam ∧ result' = Rendering.body blocks true seam'

theorem Cursor.atLastText_of_endOfInput {cursor : Cursor} {span : Span}
    (hscan : cursor.scan.1 = .ok (.endOfInput, span)) : cursor.AtLastText := by
  have hscans := cursor.scan_scans
  rw [hscan] at hscans
  generalize hreading : (Except.ok (Lexeme.endOfInput, span) : Reading) = reading at hscans
  generalize cursor.scan.2 = next at hscans
  cases hscans with
  | endOfInput => exact ⟨rfl, rfl, rfl⟩
  | item _ _ _ item => cases item <;> cases hreading
  | owed | opening | lastText | text | stuck => cases hreading

/-- Where there is no text the opening is handed out, whether it is owed or ahead. -/
theorem Cursor.scan_behindText {text : TextRun} {ahead : List Char}
    (hread : TextRun.read ahead = text) (hpieces : text.pieces = []) (place : Place) :
    (behindText place text).scan = (⟨⟨place, .text, none⟩, ahead⟩ : Cursor).scan ∧
      (behindText place text).scanBound ≤ ahead.length + 1 := by
  have hspelling := TextRun.read_spelling ahead
  rw [hread] at hspelling
  obtain ⟨pieces, beyond⟩ := text
  obtain rfl : pieces = [] := hpieces
  cases beyond with
  | none =>
      obtain rfl : [] = ahead := hspelling
      exact ⟨rfl, Nat.le_refl 1⟩
  | some beyond =>
      obtain rfl : '{' :: '{' :: beyond = ahead := hspelling
      exact ⟨rfl, Nat.le_add_right (beyond.length + 2) 1⟩

theorem Cursor.Sound.behindText {place : Place} (hline : 1 ≤ place.line) (text : TextRun) :
    (Cursor.behindText place text).Sound := by
  have hstop := Shift.line_after hline text.spelling
  cases hbeyond : text.beyond with
  | none =>
      simp only [Cursor.behindText, hbeyond]
      refine ⟨hstop, fun _ howed => ?_⟩
      cases howed
  | some beyond =>
      simp only [Cursor.behindText, hbeyond]
      exact ⟨Shift.line_after hstop _, fun _ _ => rfl⟩

/-- The run has come past the text that begins at the place, and nothing else is new. -/
structure Run.Passes (run : Run) (place : Place) (text : TextRun) (later : Run) : Prop where
  cursor : later.cursor = .behindText place text
  loops : later.loops = run.loops
  environment : later.environment = run.environment
  free : later.sink.capacity = none
  text : later.sink.text = run.sink.text ++ String.ofList text.meaning

namespace Rendering

theorem body_meets_seam {setting : Setting} (hfollows : setting.follows ≠ none) {blocks : Nat}
    {run run' : Run} (h : run.Twins setting 0 blocks run') :
    setting.MeetSeam (body blocks true run) (body blocks true run') := by
  induction blocks generalizing run run' with
  | zero =>
      have hroom := h.cursor.room
      have hpos := run.cursor.scanBound_pos
      omega
  | succ blocks ih =>
      have hfault (error error' : RenderError) (later later' : Run)
          (_ : setting.shift.Moves error error')
          (_ : later'.sink.text = setting.written ++ later.sink.text) :
          setting.MeetSeam (.error error later) (.error error' later') := by
        intro _ hresult
        cases hresult
      by_cases hlast : run.cursor.AtLastText
      · exact fun _ _ => ⟨blocks + 1, run, run', h, hlast, rfl, rfl⟩
      rw [body]
      apply scan_ties h (.inr hlast) .body hfault
      intro lexeme span hscan hlater
      cases lexeme with
      | endOfInput => exact absurd (Cursor.atLastText_of_endOfInput hscan) hlast
      | literal text =>
          have hlater := fewer_twins h hscan (by simp) hlater
          apply (write_ties hlater text).bind_to hfault
          exact fun _ _ _ _ _ h => ih h.1
      | scriptBegin =>
          have hlater := fewer_twins h hscan (by simp) hlater
          have hclear : setting.Clear (run.scanned .body).cursor :=
            .inr (h.cursor.sound.not_atLastText_scan hscan (by simp [Lexeme.kind]))
          change setting.MeetSeam ((scan .tag >>= tag (body blocks) true) (run.scanned .body))
            ((scan .tag >>= tag (body blocks) true) (run'.scanned .body))
          apply scan_ties hlater hclear .tag hfault
          intro lexeme span hscan hopened
          cases lexeme with
          | identifier name =>
              have hclear : setting.Clear ((run.scanned .body).scanned .tag).cursor :=
                .inr (hlater.cursor.sound.not_atLastText_scan hscan (by simp [Lexeme.kind]))
              apply (insertValue_ties hopened hclear name true).bind_to hfault
              exact fun _ _ _ _ _ h => ih h
          | loopBegin =>
              apply (loop_ties (body_ties setting blocks) hopened _ _ true).bind_to hfault
              exact fun _ _ _ _ _ h => ih h
          | loopEnd =>
              obtain ⟨mark, hmark, -, hopens, -⟩ := (hlater.cursor.closes hfollows).exists_scan
              cases hscan.symm.trans hmark
              exact absurd (hopens rfl) (Nat.lt_irrefl 0)
          | _ =>
              intro _ hresult
              cases hresult
      | _ =>
          intro _ hresult
          cases hresult

/-! ## At the seam -/

theorem body_of_endOfInput {run : Run} {span : Span}
    (hscan : run.cursor.scan.1 = .ok (.endOfInput, span)) (blocks : Nat) :
    body (blocks + 1) true run = .ok () (run.scanned .body) := by
  have hresult := scan_eq .body run
  rw [hscan] at hresult
  rw [body, block, bind_ok hresult]
  rfl

theorem body_of_literal {run : Run} {text : String} {span : Span}
    (hscan : run.cursor.scan.1 = .ok (.literal text, span)) (hfree : run.sink.capacity = none)
    (blocks : Nat) :
    body (blocks + 1) true run = body blocks true ((run.scanned .body).wrote text) := by
  have hresult := scan_eq .body run
  rw [hscan] at hresult
  rw [body, block, bind_ok hresult]
  have hfree : (run.scanned .body).sink.capacity = none := hfree
  exact bind_ok (write_eq text hfree)

theorem body_of_scan_eq {run : Run} {cursor : Cursor} (hscan : cursor.scan = run.cursor.scan)
    (blocks : Nat) :
    body (blocks + 1) true { run with cursor := cursor } = body (blocks + 1) true run := by
  have hresult : scan .body { run with cursor := cursor } = scan .body run := by
    simp only [scan_eq, Run.scanned, hscan]
  simp only [body, block, bind, EStateM.bind, hresult]

theorem exists_passes {run : Run} {place : Place} {ahead : List Char}
    (hcursor : run.cursor = ⟨⟨place, .text, none⟩, ahead⟩) (hfree : run.sink.capacity = none) :
    ∃ later, run.Passes place (TextRun.read ahead) later ∧ ∀ blocks, ahead.length < blocks →
      later.cursor.scanBound ≤ blocks ∧ body blocks true run = body blocks true later := by
  generalize hread : TextRun.read ahead = text
  by_cases hpieces : text.pieces = []
  · -- Without text nothing is written, but an opening that is ahead may as well be owed.
    have hscan := Cursor.scan_behindText hread hpieces place
    rw [← hcursor] at hscan
    have hmeaning : text.meaning = [] := text.meaning_eq_nil_iff.mpr hpieces
    refine ⟨{ run with cursor := .behindText place text }, ⟨rfl, rfl, rfl, hfree, ?_⟩, ?_⟩
    · simp [hmeaning]
    · intro blocks hblocks
      obtain ⟨blocks, rfl⟩ := Nat.exists_eq_add_of_lt hblocks
      exact ⟨Nat.le_trans hscan.2 hblocks, (body_of_scan_eq hscan.1 _).symm⟩
  · have hscan := Cursor.scan_of_read hread hpieces place
    rw [← hcursor] at hscan
    have hreading := congrArg Prod.fst hscan
    let later := (run.scanned .body).wrote (String.ofList text.meaning)
    refine ⟨later, ⟨congrArg Prod.snd hscan, ?_, rfl, hfree, Run.text_wrote _ _⟩, ?_⟩
    · simp [later, Run.scanned, Run.wrote, Run.note, hreading, Reading.loops, Lexeme.loops]
    · intro blocks hblocks
      have hlt := @Cursor.scanBound_scan_lt run.cursor (by simp [hreading, Reading.isLast])
      have hbound : run.cursor.scanBound = ahead.length + 1 := by rw [hcursor]; rfl
      obtain ⟨blocks, rfl⟩ := Nat.exists_eq_add_of_lt hblocks
      have hlater : later.cursor.scanBound ≤ ahead.length + blocks := by
        change run.cursor.scan.2.scanBound ≤ _
        omega
      rw [body_of_literal hreading hfree]
      exact ⟨by omega, body_eq_of_le hlater (by omega) true⟩

/-- The last text of a template is written, and that is all. -/
theorem body_of_atLastText {run last : Run} {blocks : Nat} (hlast : run.cursor.AtLastText)
    (hfree : run.sink.capacity = none) (hblocks : run.cursor.ahead.length < blocks)
    (h : body blocks true run = .ok () last) :
    last.loops = run.loops ∧ last.environment = run.environment ∧
      last.sink.text = run.sink.text ++ String.ofList (TextRun.read run.cursor.ahead).meaning := by
  obtain ⟨place, hcursor, -⟩ := hlast.exists_place
  obtain ⟨final, hfinal, hbody⟩ := exists_passes hcursor hfree
  have hend := hfinal.cursor
  simp only [Cursor.behindText, hlast.2.2] at hend
  have hscan : final.cursor.scan.1 = .ok (.endOfInput, final.cursor.position.place.span) := by
    rw [hend]
    rfl
  obtain ⟨fewer, rfl⟩ := Nat.exists_eq_succ_of_ne_zero (Nat.ne_zero_of_lt hblocks)
  rw [(hbody _ hblocks).2, body_of_endOfInput hscan] at h
  cases h
  have hloops : (final.scanned .body).loops = final.loops := by
    simp [Run.scanned, Run.note, hscan, Reading.loops, Lexeme.loops]
  exact ⟨hloops.trans hfinal.loops, hfinal.environment, hfinal.text⟩

end Rendering

namespace Cursor

variable {first between : String} {cursor : Cursor}

/-- Where the last text of a template ends, the template ends. -/
theorem AtLastText.place_after (hlast : cursor.AtLastText)
    (hreaches : (ofTemplate first).Reaches cursor) :
    cursor.position.place.after (TextRun.read cursor.ahead).spelling =
      Place.start.after first.toList := by
  obtain ⟨before, htemplate, hplace⟩ := hreaches.on (.ofTemplate first)
  have hspelling := TextRun.read_spelling cursor.ahead
  simp only [TextRun.rest, hlast.2.2, List.append_nil] at hspelling
  rw [hspelling, hplace, ← Place.after_append, ← htemplate]

/-- Behind the text at a seam all is as behind the first text of what follows. -/
theorem AtLastText.behindText_seam (hlast : cursor.AtLastText)
    (hreaches : (ofTemplate first).Reaches cursor) (hfirm : (TextRun.read cursor.ahead).Firm)
    (hbetween : (TextRun.read between.toList).Firm) (second : String) (loops : Nat) :
    behindText cursor.position.place (TextRun.read (cursor.ahead ++ (between ++ second).toList)) =
      (Shift.past (first ++ between) loops).cursor []
        (behindText .start (TextRun.read second.toList)) := by
  rw [hfirm.read_append, behindText_append, hlast.place_after hreaches, String.toList_append,
    hbetween.read_append, behindText_append, hbetween.spelling_eq, ← Place.after_append,
    ← String.toList_append, ← Shift.place_past _ loops]
  exact behindText_shift _ (Nat.le_refl 1) _

end Cursor

/-! ## One template behind another -/

/-- A body that is about to be rendered from the beginning of a template. -/
structure Run.Begins (environment : Environment) (template : String) (run : Run) : Prop where
  cursor : run.cursor = .ofTemplate template
  loops : run.loops = 0
  environment : run.environment = environment
  free : run.sink.capacity = none

/-- A body that has come past the text in front of the first tag, behind what was written before. -/
structure Run.IsUnderWay (environment : Environment) (template written : String) (shift : Shift)
    (run : Run) : Prop where
  cursor : run.cursor = shift.cursor [] (.behindText .start (TextRun.read template.toList))
  loops : run.loops = shift.loops
  environment : run.environment.unnamed = environment.unnamed
  free : run.sink.capacity = none
  text : run.sink.text = written ++ String.ofList (TextRun.read template.toList).meaning

namespace Setting

/-- A template with more text behind it. -/
def inFront (template rest written : String) : Setting where
  origin := .ofTemplate template
  sound := ⟨Nat.le_refl 1, nofun⟩
  follows := some rest.toList
  shift := .past "" 0
  written := written

/-- A template behind a text, from where the text that it begins with has been read. -/
def behind (text : String) (loops : Nat) (written template : String) : Setting where
  origin := .behindText .start (TextRun.read template.toList)
  sound := .behindText (Nat.le_refl 1) _
  follows := none
  shift := .past text loops
  written := written

end Setting

namespace Rendering

variable {environment : Environment} {first second : String} {one two both last : Run}

theorem begins_meetSeam {rest : String} (hone : one.Begins environment first)
    (hboth : both.Begins environment (first ++ rest)) (hcloses : ClosesLoops first)
    (htext : one.sink.text = "")
    (hlast : body (first.length + 1) true one = .ok () last) :
    ∃ (blocks : Nat) (seam seam' : Run),
      seam.Twins (.inFront first rest both.sink.text) 0 blocks seam' ∧
        seam.cursor.AtLastText ∧ body blocks true seam = .ok () last ∧
        body ((first ++ rest).length + 1) true both = body blocks true seam' := by
  have hbound : one.cursor.scanBound = first.length + 1 := by
    rw [hone.cursor]
    rfl
  have hstart : one.Twins (.inFront first rest both.sink.text) 0 ((first ++ rest).length + 1)
      both := by
    refine ⟨⟨?_, ?_, ?_, ?_⟩, ?_, ?_, hone.free, hboth.free, ?_⟩
    · rw [hboth.cursor, hone.cursor]
      simp [Setting.inFront, Setting.tail, Shift.cursor_past_empty, Cursor.ofTemplate]
    · rw [hone.cursor]
      exact .refl
    · intro _
      rw [hone.cursor]
      exact hcloses.closes
    · simp [hbound, Setting.inFront, Setting.tail, String.length_toList]
      omega
    · rw [hboth.loops, hone.loops]
      rfl
    · rw [hboth.environment, hone.environment]
    · simp [htext, Setting.inFront]
  have hsame : body ((first ++ rest).length + 1) true one = .ok () last := by
    rw [← hlast]
    apply body_eq_of_le _ (Nat.le_of_eq hbound)
    rw [hbound, String.length_append]
    omega
  obtain ⟨blocks, seam, seam', htwins, hseam, hresult, hresult'⟩ :=
    body_meets_seam (Option.some_ne_none _) hstart last hsame
  exact ⟨blocks, seam, seam', htwins, hseam, hresult ▸ hsame, hresult'⟩

theorem begins_isUnderWay (h : one.Begins environment first) :
    ∃ later, later.IsUnderWay environment first one.sink.text (.past "" 0) ∧
      later.cursor.scanBound ≤ first.length + 1 ∧
      body (first.length + 1) true one = body (first.length + 1) true later := by
  obtain ⟨later, hlater, hbody⟩ := @exists_passes one .start _ h.cursor h.free
  refine ⟨later, ⟨?_, ?_, ?_, hlater.free, hlater.text⟩, hbody _ (Nat.lt_succ_self _)⟩
  · rw [hlater.cursor, Shift.cursor_past_empty, List.append_nil]
  · exact hlater.loops.trans h.loops
  · rw [hlater.environment, h.environment]

/-- Text between the templates runs together with that on its two sides. -/
theorem begins_isUnderWay_behind {between : String} (hone : one.Begins environment first)
    (hboth : both.Begins environment (first ++ (between ++ second)))
    (hcloses : ClosesLoops first) (hplain : ∀ c, EndsPlainly first c → c ≠ '{' ∧ c ≠ '\\')
    (hbetween : (TextRun.read between.toList).Firm) (htext : one.sink.text = "")
    (hlast : body (first.length + 1) true one = .ok () last) :
    ∃ (blocks : Nat) (later : Run),
      later.IsUnderWay environment second
        (both.sink.text ++ last.sink.text ++
          String.ofList (TextRun.read between.toList).meaning)
        (.past (first ++ between) last.loops) ∧
      later.cursor.scanBound ≤ blocks ∧
      body ((first ++ (between ++ second)).length + 1) true both = body blocks true later := by
  obtain ⟨blocks, seam, seam', htwins, hseam, hresult, hresult'⟩ :=
    begins_meetSeam hone hboth hcloses htext hlast
  have hreaches : (Cursor.ofTemplate first).Reaches seam.cursor := htwins.cursor.reaches
  have hfirm : (TextRun.read seam.cursor.ahead).Firm :=
    ⟨hseam.2.2, fun c hc => hplain c ⟨_, hreaches, hseam, hc⟩⟩
  obtain ⟨place, hcursor, -⟩ := hseam.exists_place
  have hcursor' : seam'.cursor =
      ⟨⟨place, .text, none⟩, seam.cursor.ahead ++ (between ++ second).toList⟩ := by
    rw [htwins.cursor.eq]
    change (Shift.past "" 0).cursor (between ++ second).toList seam.cursor = _
    rw [Shift.cursor_past_empty, hcursor]
  have hbound : seam.cursor.scanBound = seam.cursor.ahead.length + 1 := by
    rw [hcursor]
    rfl
  have hroom : seam.cursor.scanBound + (between ++ second).toList.length ≤ blocks :=
    htwins.cursor.room
  obtain ⟨hloops, henvironment, hwritten⟩ :=
    body_of_atLastText hseam htwins.free (by omega) hresult
  have hunchanged := body_walks (first.length + 1) true one []
  rw [hlast] at hunchanged
  obtain ⟨later, hlater, hbody⟩ := exists_passes hcursor' htwins.free'
  have hsame := hbody blocks (by rw [List.length_append]; omega)
  refine ⟨blocks, later, ⟨?_, ?_, ?_, hlater.free, ?_⟩, hsame.1, hresult'.trans hsame.2⟩
  · have hplace : place = seam.cursor.position.place := by rw [hcursor]
    rw [hlater.cursor, hplace, hseam.behindText_seam hreaches hfirm hbetween second last.loops]
  · rw [hlater.loops, htwins.loops]
    exact hloops.symm
  · rw [hlater.environment, htwins.environment, ← henvironment, hunchanged.2.1,
      hone.environment]
  · rw [hlater.text, htwins.text, hwritten, hfirm.read_append, String.toList_append,
      hbetween.read_append]
    simp [Setting.inFront, TextRun.meaning, String.append_assoc]

theorem isUnderWay_twins {template text written : String} {loops blocks : Nat}
    (htwo : two.IsUnderWay environment template "" (.past "" 0))
    (hboth : both.IsUnderWay environment template written (.past text loops))
    (hbound : two.cursor.scanBound ≤ blocks) :
    two.Twins (.behind text loops written template) 1 blocks both := by
  have hcursor := htwo.cursor
  rw [Shift.cursor_past_empty, List.append_nil] at hcursor
  refine ⟨⟨?_, ?_, absurd rfl, hbound⟩, ?_, ?_, htwo.free, hboth.free, ?_⟩
  · rw [hboth.cursor, hcursor]
    rfl
  · rw [hcursor]
    exact .refl
  · rw [hboth.loops, htwo.loops]
    exact (Nat.zero_add loops).symm
  · rw [hboth.environment, htwo.environment]
  · rw [hboth.text, htwo.text, String.empty_append]
    rfl

/--
Behind a template that closes its loops, and some text, another template goes the
same way as on its own, once its own text at the seam is behind it.
-/
theorem begins_ties {between : String} (hone : one.Begins environment first)
    (htwo : two.Begins environment second)
    (hboth : both.Begins environment (first ++ (between ++ second)))
    (hcloses : ClosesLoops first) (hplain : ∀ c, EndsPlainly first c → c ≠ '{' ∧ c ≠ '\\')
    (hbetween : (TextRun.read between.toList).Firm)
    (hone_text : one.sink.text = "") (htwo_text : two.sink.text = "")
    (hlast : body (first.length + 1) true one = .ok () last) :
    ∃ blocks, Ties
      (.behind (first ++ between) last.loops (both.sink.text ++ last.sink.text ++
        String.ofList (TextRun.read between.toList).meaning) second)
      0 blocks (body (second.length + 1) true two)
      (body ((first ++ (between ++ second)).length + 1) true both) := by
  obtain ⟨later, hlater, hbound, hbody⟩ := begins_isUnderWay htwo
  obtain ⟨blocks, later', hlater', hbound', hbody'⟩ :=
    begins_isUnderWay_behind hone hboth hcloses hplain hbetween hone_text hlast
  rw [htwo_text] at hlater
  refine ⟨second.length + 1 + blocks, ?_⟩
  rw [hbody, hbody', body_eq_of_le hbound (Nat.le_add_right_of_le hbound),
    body_eq_of_le hbound' (Nat.le_add_left_of_le hbound')]
  exact body_ties _ _ 0 true _ _
    (isUnderWay_twins hlater hlater' (Nat.le_add_right_of_le hbound))

end Rendering

/-! ## Loops that have been begun -/

/-- A loop that is in the body of another one is begun in each pass over that body. -/
def Journal.loopsBegun (journal : Journal) : Nat :=
  journal.scans.foldl (fun count scan => count + scan.loops) 0

theorem Journal.loopsBegun_push (journal : Journal) (moment : Moment) :
    loopsBegun (journal.push moment) =
      loopsBegun journal + (moment.event.scan?.map Scan.loops).getD 0 := by
  cases hscan : moment.event.scan? <;> simp [loopsBegun, scans_push, hscan]

/-- The next loop has the number of the loops that have been begun. -/
theorem Situation.Walk.loops_eq {situation later : Situation} (h : Walk situation later)
    (hstart : situation.run.loops = situation.run.journal.loopsBegun) :
    later.run.loops = later.run.journal.loopsBegun := by
  apply @Walk.keeps (fun here => here.run.loops = here.run.journal.loopsBegun) _ _ _ h hstart
  intro situation next hstep hloops
  cases hstep with
  | move hmove =>
      cases hmove with
      | scan site =>
          simpa [Run.scanned, Run.note, Journal.loopsBegun_push, Event.scan?_ofReading,
            Scan.loops_scan] using hloops
      | write | refuse =>
          simpa [Run.wrote, Run.note, Journal.loopsBegun_push, Event.scan?] using hloops
  | _ =>
      simpa [Run.started, Run.entered, Run.begun, Run.left, Run.note, Journal.loopsBegun_push,
        Event.scan?] using hloops

/-! ## Outcomes -/

/-- A rendering of a template behind others, which have been written, next to that of it alone. -/
structure Outcome.Behind (written : String) (shift : Shift) (alone outcome : Outcome) : Prop where
  text : outcome.sink.text = written ++ alone.sink.text
  result : match alone.result, outcome.result with
    | .ok _, .ok _ => True
    | .error error, .error error' => shift.Moves error error'
    | .ok _, .error _ | .error _, .ok _ => False

namespace Rendering

theorem outcome_behind {setting : Setting} {opens blocks : Nat} {template template' : String}
    {run run' : Run}
    (h : Ties setting opens blocks
      (body (template.length + 1) true (run.started template.utf8ByteSize))
      (body (template'.length + 1) true (run'.started template'.utf8ByteSize))) :
    (outcomeOf (renderTemplate template run)).Behind setting.written setting.shift
      (outcomeOf (renderTemplate template' run')) := by
  rw [renderTemplate_eq, renderTemplate_eq]
  generalize body (template.length + 1) true _ = alone,
    body (template'.length + 1) true _ = result at h ⊢
  cases h with
  | ok _ hafter => exact ⟨hafter.text, trivial⟩
  | error hmoves htext => exact ⟨htext, hmoves⟩

end Rendering

section Renderings

variable {values : Values} {arrays : Arrays} {first : String}

theorem exists_last (hok : (render values arrays first (.unlimited "")).result = .ok ()) :
    ∃ last, Rendering.body (first.length + 1) true
        (((Session.ofBindings values arrays).start first (.unlimited "")).started
          first.utf8ByteSize) = .ok () last ∧
      (render values arrays first (.unlimited "")).sink = last.sink ∧
      (render values arrays first (.unlimited "")).journal.loopsBegun = last.loops := by
  rw [Rendering.render_eq_outcomeOf, Rendering.renderTemplate_eq] at hok ⊢
  generalize hstart : Session.start _ _ _ = start at hok ⊢
  have hwalks := Rendering.body_walks (first.length + 1) true
    (start.started first.utf8ByteSize) []
  cases hresult : Rendering.body (first.length + 1) true (start.started first.utf8ByteSize) with
  | error error last =>
      rw [hresult] at hok
      cases hok
  | ok _ last =>
      rw [hresult] at hwalks
      refine ⟨last, rfl, rfl, ?_⟩
      have hloops : last.loops = last.journal.loopsBegun := by
        apply hwalks.1.loops_eq
        subst hstart
        rfl
      simp [Rendering.outcomeOf, Run.note, Journal.loopsBegun_push, Event.scan?, hloops]

theorem render_behind {between : String}
    (hok : (render values arrays first (.unlimited "")).result = .ok ())
    (hcloses : ClosesLoops first) (hplain : ∀ c, EndsPlainly first c → c ≠ '{' ∧ c ≠ '\\')
    (hbetween : (TextRun.read between.toList).Firm) (second : String) {sink : Sink}
    (hsink : sink.capacity = none) :
    let one := render values arrays first (.unlimited "")
    (render values arrays second (.unlimited "")).Behind
      (sink.text ++ one.sink.text ++ String.ofList (TextRun.read between.toList).meaning)
      (.past (first ++ between) one.journal.loopsBegun)
      (render values arrays (first ++ (between ++ second)) sink) := by
  obtain ⟨last, hlast, hsinks, hloops⟩ := exists_last hok
  let start (template : String) (sink : Sink) : Run :=
    ((Session.ofBindings values arrays).start template sink).started template.utf8ByteSize
  have hbegins (template : String) (sink : Sink) (hsink : sink.capacity = none) :
      (start template sink).Begins (.ofBindings values arrays) template := ⟨rfl, rfl, rfl, hsink⟩
  obtain ⟨blocks, hties⟩ := Rendering.begins_ties (hbegins first (.unlimited "") rfl)
    (hbegins second (.unlimited "") rfl) (hbegins _ sink hsink) hcloses hplain hbetween
    rfl rfl hlast
  dsimp only
  rw [hloops, hsinks, Rendering.render_eq_outcomeOf, Rendering.render_eq_outcomeOf]
  exact Rendering.outcome_behind hties

/--
A template that renders, closes its loops and does not end in the beginning of
a tag or an escape may stand in front of any other one: what is written, and
how it ends, is what the two come to one after the other.  An escape between
them is rendered as the two braces.
-/
theorem render_append (hok : (render values arrays first (.unlimited "")).result = .ok ())
    (hcloses : ClosesLoops first) (hopen : ¬EndsPlainly first '{')
    (hguard : ¬EndsPlainly first '\\') (second : String) {sink : Sink}
    (hsink : sink.capacity = none) :
    let one := render values arrays first (.unlimited "")
    let two := render values arrays second (.unlimited "")
    two.Behind (sink.text ++ one.sink.text) (.past first one.journal.loopsBegun)
        (render values arrays (first ++ second) sink) ∧
      ∀ escape ∈ ["\x7b\\\x7b", "\\\x7b\x7b"],
        two.Behind (sink.text ++ one.sink.text ++ "\x7b\x7b")
          (.past (first ++ escape) one.journal.loopsBegun)
          (render values arrays (first ++ escape ++ second) sink) := by
  intro one two
  have hplain (c : Char) (h : EndsPlainly first c) : c ≠ '{' ∧ c ≠ '\\' :=
    ⟨fun hc => hopen (hc ▸ h), fun hc => hguard (hc ▸ h)⟩
  constructor
  · have hnone : String.ofList (TextRun.read "".toList).meaning = "" := rfl
    have hbehind := @render_behind _ _ _ "" hok hcloses hplain ⟨rfl, nofun⟩ second _ hsink
    simpa only [hnone, String.append_empty, String.empty_append] using hbehind
  · intro escape hescape
    have hread : ∃ piece, (∀ c, piece ≠ .plain c) ∧ piece.meaning = ['{', '{'] ∧
        TextRun.read escape.toList = ⟨[piece], none⟩ := by
      simp only [List.mem_cons, List.not_mem_nil, or_false] at hescape
      rcases hescape with rfl | rfl
      · exact ⟨.splitBraces, nofun, rfl, rfl⟩
      · exact ⟨.guardedBraces, nofun, rfl, rfl⟩
    obtain ⟨piece, hpiece, hmeaning, hread⟩ := hread
    have hfirm : (TextRun.read escape.toList).Firm := by
      rw [hread]
      exact ⟨rfl, fun c hc => absurd (Option.some.inj hc) (hpiece c)⟩
    have hbehind := render_behind hok hcloses hplain hfirm second hsink
    rw [hread] at hbehind
    rw [@String.append_assoc first]
    simpa [TextRun.meaning, hmeaning] using hbehind

end Renderings

/-- In front the inner loop is begun twice, so that the one out of place is the fourth. -/
theorem render_append_offending_loop :
    let arrays : Arrays := .ofList [("xs", ["1", "2"]), ("ys", ["a"])]
    let inner := "\x7b\x7b#loop ys y\x7d\x7d\x7b\x7bx\x7d\x7d\x7b\x7b/loop\x7d\x7d"
    let first := "\n\x7b\x7b#loop xs x\x7d\x7d" ++ inner ++ "\x7b\x7b/loop\x7d\x7d\x7b\\\x7b"
    let second := "c\x7b\x7b#loop #loop"
    let one := render .empty arrays first (.unlimited "")
    let two := render .empty arrays second (.unlimited "")
    let both := render .empty arrays (first ++ second) (.unlimited "b")
    one.result = .ok () ∧ ClosesLoops first ∧ ¬EndsPlainly first '{' ∧ ¬EndsPlainly first '\\' ∧
      both.sink.text = "b\n12\x7b\x7bc" ∧
      two.result = .error (.grammar ⟨.expected .identifier .loopBegin "loop1", ⟨1, 10⟩⟩) ∧
      both.result = .error (.grammar ⟨.expected .identifier .loopBegin "loop4", ⟨2, 64⟩⟩) ∧
      two.Behind ("b" ++ one.sink.text) (.past first one.journal.loopsBegun) both := by
  intro arrays inner first second one two both
  have hok : one.result = .ok () := by decide +kernel
  have hcloses : ClosesLoops first := by decide +kernel
  have hopen : ¬EndsPlainly first '{' := by decide +kernel
  have hguard : ¬EndsPlainly first '\\' := by decide +kernel
  refine ⟨hok, hcloses, hopen, hguard, ?_, ?_, ?_, ?_⟩
  · decide +kernel
  · decide +kernel
  · decide +kernel
  · exact (@render_append _ _ _ hok hcloses hopen hguard second (.unlimited "b") rfl).1

end Stencil
