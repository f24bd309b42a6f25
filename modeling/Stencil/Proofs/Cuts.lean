import Stencil.Proofs.Bytewise
import Stencil.Proofs.Walks

/-!
# Bad cuts

A scan of bytes cuts its template where it should not in one case only, that
its position is of another template.  A rendering never gets there: it scans
as a scanner does that is taken back now and then to a position of its own.
-/

namespace Stencil

/-! ## The scans of a rendering -/

theorem Event.scan?_ofReading (site : Site) (number : Nat) (reading : Reading) :
    (Event.ofReading site number reading).scan? = some (Reading.scan number reading) := by
  cases reading <;> rfl

namespace Desk

theorem run_append {Device Mark : Type} (reader : Reader Device Mark) (desk : Desk Device Mark)
    (first second : List Command) :
    desk.run reader (first ++ second) =
      ((desk.run reader first).1 ++ ((desk.run reader first).2.run reader second).1,
        ((desk.run reader first).2.run reader second).2) := by
  induction first generalizing desk with
  | nil => rfl
  | cons command first ih => simp [run, ih]

end Desk

/-- Where each body begins is saved, in the slot that is numbered by the loops around it. -/
def Saved (template : List Char) (slots : Nat → Option Position) : List OpenLoop → Prop
  | [] => True
  | loop :: loops =>
      slots loops.length = some loop.start.position ∧ loop.start.On template ∧
        Saved template slots loops

theorem Saved.update {template : List Char} {slots : Nat → Option Position}
    {loops : List OpenLoop} (h : Saved template slots loops) {slot : Nat}
    (hslot : loops.length ≤ slot) (position : Option Position) :
    Saved template (Function.update slots slot position) loops := by
  induction loops with
  | nil => trivial
  | cons loop loops ih =>
      obtain ⟨hsaved, hon, hloops⟩ := h
      rw [List.length_cons] at hslot
      refine ⟨?_, hon, ih hloops (by omega)⟩
      rw [Function.update_of_ne (by omega)]
      exact hsaved

/-- The first scanner on the desk is where the rendering is. -/
structure Situation.Shown (template : List Char) (situation : Situation)
    (desk : Desk Scanner Position) : Prop where
  device : desk.devices 0 = ⟨template, situation.run.cursor.position, situation.run.loops⟩
  on : situation.run.cursor.On template
  saved : Saved template desk.slots situation.loops

namespace Situation

variable {template : List Char} {situation next : Situation} {desk : Desk Scanner Position}

/-- Commands that make the scans, and show what comes next. -/
def ShownBy (template : List Char) (situation next : Situation) (desk : Desk Scanner Position)
    (commands : List Command) : Prop :=
  ∃ found : List Scan,
    (desk.run Scanner.reader commands).1 = found.map some ∧
      next.run.journal.scans = situation.run.journal.scans ++ found ∧
      next.Shown template (desk.run Scanner.reader commands).2

theorem ShownBy.idle (hscans : next.run.journal.scans = situation.run.journal.scans)
    (h : next.Shown template desk) : ShownBy template situation next desk [] :=
  ⟨[], rfl, by rw [hscans, List.append_nil], h⟩

theorem Step.shown (h : Step situation next) (hshown : situation.Shown template desk) :
    ∃ commands, ShownBy template situation next desk commands := by
  obtain ⟨hdevice, hon, hsaved⟩ := hshown
  cases h with
  | start run bytes =>
      refine ⟨[], .idle ?_ ⟨hdevice, hon, hsaved⟩⟩
      simp [Run.started, Run.note, Journal.scans_push, Event.scan?]
  | @move run _ hmove loops =>
      cases hmove with
      | scan site =>
          have hscan : (desk.devices 0).scan = _ :=
            Scanner.scan_eq (by rw [hdevice]; exact hon) (by rw [hdevice])
          rw [hdevice] at hscan
          refine ⟨[.scan 0], [Reading.scan run.loops run.cursor.scan.1], ?_, ?_, ?_, hon.scan,
            hsaved⟩
          · simp [Desk.run, Desk.step, Scanner.reader, hdevice, hscan]
          · simp [Run.scanned, Run.note, Journal.scans_push, Event.scan?_ofReading]
          · simp [Desk.run, Desk.step, Scanner.reader, hdevice, hscan, Run.scanned, Run.note]
      | write piece =>
          refine ⟨[], .idle ?_ ⟨hdevice, hon, hsaved⟩⟩
          simp [Run.note, Run.wrote, Journal.scans_push, Event.scan?]
      | refuse piece =>
          refine ⟨[], .idle ?_ ⟨hdevice, hon, hsaved⟩⟩
          simp [Run.note, Journal.scans_push, Event.scan?]
  | enter run frame array item elements emit _ loops =>
      refine ⟨[.save 0 loops.length], [], rfl, ?_, ?_, hon, ?_, hon, ?_⟩
      · simp [Run.entered, Run.note, Journal.scans_push, Event.scan?]
      · exact hdevice
      · simp [Desk.run, Desk.step, Scanner.reader, hdevice]
      · exact hsaved.update (Nat.le_refl _) _
  | begin run start passes item value emit loops =>
      -- The slot of the loop still has what was saved there when the loop was entered.
      obtain ⟨hslot, hstart, hloops⟩ := hsaved
      have hstep : desk.step Scanner.reader (.restore 0 loops.length) =
          ([], { desk with
            devices := Function.update desk.devices 0
              ((desk.devices 0).seek start.position) }) := by
        simp [Desk.step, hslot, Scanner.reader]
      refine ⟨[.restore 0 loops.length], [], ?_, ?_, ?_, hstart, ?_⟩
      · simp [Desk.run, hstep]
      · simp [Run.begun, Run.note, Journal.scans_push, Event.scan?]
      · simp [Desk.run, hstep, hdevice, Scanner.seek, Run.begun, Run.note]
      · simp only [Desk.run, hstep]
        exact ⟨hslot, hstart, hloops⟩
  | passEnded run loops =>
      refine ⟨[], .idle ?_ ⟨hdevice, hon, hsaved⟩⟩
      simp [Run.note, Journal.scans_push, Event.scan?]
  | leave run frame loop loops =>
      refine ⟨[], .idle ?_ ⟨hdevice, hon, hsaved.2.2⟩⟩
      simp [Run.note, Run.left, Journal.scans_push, Event.scan?]
  | finish run offset =>
      refine ⟨[], .idle ?_ ⟨hdevice, hon, hsaved⟩⟩
      simp [Run.note, Journal.scans_push, Event.scan?]

theorem Walk.shown (h : Walk situation next) (hshown : situation.Shown template desk) :
    ∃ commands, ShownBy template situation next desk commands := by
  induction h with
  | refl => exact ⟨[], .idle rfl hshown⟩
  | tail _ hstep ih =>
      obtain ⟨commands, found, hfound, hscans, hmiddle⟩ := ih
      obtain ⟨more, found', hfound', hscans', hlast⟩ := hstep.shown hmiddle
      refine ⟨commands ++ more, found ++ found', ?_, ?_, ?_⟩
      · rw [Desk.run_append, hfound, hfound', List.map_append]
      · rw [hscans', hscans, List.append_assoc]
      · rw [Desk.run_append]
        exact hlast

end Situation

/-- A rendering makes the scans of a scanner of its template. -/
theorem render_shown (values : Values) (arrays : Arrays) (template : String) (sink : Sink) :
    ∃ commands, ((Desk.ofDevice (Scanner.ofTemplate template)).run Scanner.reader commands).1 =
      (render values arrays template sink).journal.scans.map some := by
  have hstart : Situation.Shown template.toList
      ⟨(Session.ofBindings values arrays).start template sink, []⟩
      (Desk.ofDevice (Scanner.ofTemplate template)) :=
    ⟨rfl, .ofTemplate template, trivial⟩
  obtain ⟨last, loops, hwalk, -, hjournal, -⟩ :=
    (Session.ofBindings values arrays).render_walks template sink
  obtain ⟨commands, found, hfound, hscans, -⟩ := hwalk.shown hstart
  refine ⟨commands, hfound.trans ?_⟩
  change _ = ((Session.ofBindings values arrays).render template sink).1.journal.scans.map some
  rw [hjournal, hscans]
  rfl

/-! ## Where cuts are bad -/

def Desk.ofTemplates (templates : Nat → String) : Desk Scanner Position :=
  ⟨fun index => .ofTemplate (templates index), fun _ => none⟩

theorem template_run (templates : Nat → String) (commands : List Command) (index : Nat) :
    (((Desk.ofTemplates templates).run Bytewise.reader commands).2.devices index).template =
      (templates index).toList := by
  have hkeeps : Bytewise.reader.Keeps
      (fun index (scanner : Scanner) => scanner.template = (templates index).toList)
      (fun _ => True) (fun _ => True) := by
    rw [Bytewise.reader_eq]
    refine ⟨fun {index scanner} h => ⟨trivial, ?_⟩, fun _ => trivial, fun h _ => h⟩
    rw [← h]
    simp only [Scanner.reader, Scanner.scan]
    split
    · rfl
    · split <;> rfl
  have hstart : Desk.Holds (fun index (scanner : Scanner) =>
      scanner.template = (templates index).toList) (fun _ => True) (Desk.ofTemplates templates) :=
    ⟨fun _ => rfl, fun _ _ _ => trivial⟩
  exact (hstart.run hkeeps commands).2.1 index

/--
Scanners of bytes of any templates, whatever positions they are taken to, make
a bad cut just where they stand inside a character, and then stay as they are.
At the end of the template and beyond it they find the end.  With positions of
the template itself no cut is bad, be it by scanners taken back and forth, for
the tokens of a template, or for a rendering.
-/
theorem bad_cut_iff_inside :
    (∀ (templates : Nat → String) (commands : List Command) (index : Nat),
      let desk := ((Desk.ofTemplates templates).run Bytewise.reader commands).2
      let scanner := desk.devices index
      let place := scanner.position.place
      scanner.template = (templates index).toList ∧
        Bytewise.outcome (Bytewise.scan scanner) = scanner.scan ∧
        ((∃ cut later, Bytewise.scan scanner = .error cut later) ↔
          scanner.position.owed = none ∧ place.offset < (templates index).utf8ByteSize ∧
            ¬String.Pos.Raw.IsValid (templates index) ⟨place.offset⟩) ∧
        (∀ cut later, Bytewise.scan scanner = .error cut later → later = scanner) ∧
        (scanner.position.owed = none → (templates index).utf8ByteSize ≤ place.offset →
          Bytewise.scan scanner =
            match scanner.position.mode with
            | .text => .ok (.ok (Lexeme.endOfInput.token scanner.loops place.span)) scanner
            | .tag => .ok (.error ⟨.unterminatedTag, place.span⟩) scanner)) ∧
      ∀ template : String,
        (∀ (commands : List Command) (index : Nat),
          let desk := ((Desk.ofDevice (Scanner.ofTemplate template)).run Bytewise.reader commands).2
          ∃ found later, Bytewise.scan (desk.devices index) = .ok found later) ∧
        (∃ later, Bytewise.tokens (template.length + 1) (.ofTemplate template) =
          .ok (tokensOf template) later) ∧
        ∀ (values : Values) (arrays : Arrays) (sink : Sink), ∃ commands,
          ((Desk.ofDevice (Scanner.ofTemplate template)).run Bytewise.reader commands).1 =
            (render values arrays template sink).journal.scans.map some := by
  constructor
  · intro templates commands index desk scanner place
    have htemplate : scanner.template = (templates index).toList :=
      template_run templates commands index
    refine ⟨htemplate, Bytewise.outcome_scan scanner, ?_, ?_, ?_⟩
    · rw [Bytewise.bad_cut_iff, htemplate, charsAfter_eq_none_iff]
    · intro cut later hcut
      obtain ⟨howed, hinside⟩ := (Bytewise.bad_cut_iff scanner).mp ⟨cut, later, hcut⟩
      rw [Bytewise.scan_inside howed hinside] at hcut
      cases hcut
      rfl
    · intro howed hend
      rw [← utf8Length_toList, ← htemplate] at hend
      exact Bytewise.scan_beyond howed hend
  · intro template
    refine ⟨?_, ?_, ?_⟩
    · intro commands index desk
      have hof := (Scanner.of_run template commands).2 index
      rw [← Bytewise.reader_eq] at hof
      obtain ⟨htemplate, mode, before, cursor, hresumes, hposition⟩ := hof
      exact ⟨_, _, Bytewise.follows_on (htemplate ▸ hresumes.on) hposition⟩
    · have hbound := (Cursor.ofTemplate template).length_readings_le
      rw [tokensOf_eq]
      apply Bytewise.tokens_ok (.ofTemplate template) rfl
      exact Nat.le_trans hbound (Cursor.scanBound_ofTemplate_le template)
    · intro values arrays sink
      rw [Bytewise.reader_eq]
      exact render_shown values arrays template sink

/-- A position behind one byte is inside the one character of another template. -/
theorem bad_cut_in_another_template :
    let templates := fun index => if index = 0 then "a" else "é"
    let commands : List Command := [.scan 0, .save 0 0, .restore 1 0]
    let desk := ((Desk.ofTemplates templates).run Bytewise.reader commands).2
    (∃ cut, Bytewise.scan (desk.devices 1) = .error cut (desk.devices 1)) ∧
      Bytewise.scan (desk.devices 0) =
        .ok (.ok ⟨.endOfInput, "", ⟨1, 2⟩⟩) (desk.devices 0) := by
  intro templates commands desk
  have hdesk : desk = ((Desk.ofTemplates templates).run Scanner.reader commands).2 := by
    rw [← Bytewise.reader_eq]
  have hplaces : (desk.devices 0).position = ⟨⟨1, 1, 2⟩, .text, none⟩ ∧
      (desk.devices 1).position = ⟨⟨1, 1, 2⟩, .text, none⟩ := by
    rw [hdesk]
    subst desk templates commands
    decide
  obtain ⟨hfirst, hsecond⟩ := hplaces
  have hloops : (desk.devices 0).loops = 0 := by
    rw [hdesk]
    subst desk templates commands
    decide
  constructor
  · have hinside := (charsAfter_eq_none_iff "é" 1).mp (by decide)
    obtain ⟨-, -, hcut, hstays, -⟩ := bad_cut_iff_inside.1 templates commands 1
    obtain ⟨cut, later, hscan⟩ := hcut.mpr (by rw [hsecond]; exact ⟨rfl, hinside⟩)
    obtain rfl := hstays cut later hscan
    exact ⟨cut, hscan⟩
  · obtain ⟨-, -, -, -, hend⟩ := bad_cut_iff_inside.1 templates commands 0
    have hscan := hend (by rw [hfirst]) (by rw [hfirst]; decide)
    rw [hfirst, hloops] at hscan
    exact hscan

end Stencil
