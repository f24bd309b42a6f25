import Mathlib.Logic.Function.Basic
import Stencil.Proofs.Readings

/-!
# Rewinding

However scanners of one template are wound back and forth, to positions taken
from any of them, each acts as an index into the row of scans that a fresh
scanner makes.  Only the numbers of loops tell a replay from the first time.
-/

namespace Stencil

/-! ## Cursors of a template -/

def utf8Length : List Char → Nat
  | [] => 0
  | c :: chars => c.utf8Size + utf8Length chars

@[simp] theorem utf8Length_cons (c : Char) (chars : List Char) :
    utf8Length (c :: chars) = c.utf8Size + utf8Length chars := rfl

theorem Place.offset_after (here : Place) (passed : List Char) :
    (here.after passed).offset = here.offset + utf8Length passed := by
  induction passed generalizing here with
  | nil => rfl
  | cons c passed ih =>
      have hadvance : (here.advance c).offset = here.offset + c.utf8Size := by
        unfold advance
        split <;> rfl
      rw [after_cons, ih, hadvance, utf8Length_cons]
      omega

theorem charsAfter_utf8Length (before ahead : List Char) :
    charsAfter (utf8Length before) (before ++ ahead) = some ahead := by
  induction before with
  | nil => cases ahead <;> rfl
  | cons c before ih =>
      have hpos := c.utf8Size_pos
      simp only [List.cons_append, utf8Length_cons, charsAfter]
      rw [if_neg (by omega), if_neg (by omega), Nat.add_sub_cancel_left, ih]

/-- The cursor stands in the template: what is ahead is all that follows its place. -/
def Cursor.On (template : List Char) (cursor : Cursor) : Prop :=
  ∃ before, template = before ++ cursor.ahead ∧
    cursor.position.place = Place.start.after before

namespace Cursor.On

theorem ofTemplate (template : String) :
    (Cursor.ofTemplate template).On template.toList :=
  ⟨[], rfl, rfl⟩

/-- A scan passes over some characters and no others. -/
theorem passed_of_scans {cursor next : Cursor} {reading : Reading}
    (h : Scans cursor reading next) :
    ∃ passed, cursor.ahead = passed ++ next.ahead ∧
      next.position.place = cursor.position.place.after passed := by
  cases h with
  | owed => exact ⟨[], rfl, rfl⟩
  | endOfInput => exact ⟨[], rfl, rfl⟩
  | opening => exact ⟨['{', '{'], rfl, rfl⟩
  | lastText place run => exact ⟨run.spelling, by simp, rfl⟩
  | text place run beyond =>
      exact ⟨run.spelling ++ ['{', '{'], by simp, (Place.after_append ..).symm⟩
  | item place blanks rest item =>
      exact ⟨blanks ++ item.spelling, by simp, (Place.after_append ..).symm⟩
  | stuck place blanks items => exact ⟨blanks, rfl, rfl⟩

theorem scan {template : List Char} {cursor : Cursor} (h : cursor.On template) :
    cursor.scan.2.On template := by
  obtain ⟨before, htemplate, hplace⟩ := h
  obtain ⟨passed, hahead, hnext⟩ := passed_of_scans cursor.scan_scans
  refine ⟨before ++ passed, ?_, ?_⟩
  · rw [htemplate, hahead, List.append_assoc]
  · rw [hnext, hplace, Place.after_append]

theorem charsAfter_eq {template : List Char} {cursor : Cursor} (h : cursor.On template) :
    charsAfter cursor.position.place.offset template = some cursor.ahead := by
  obtain ⟨before, rfl, hplace⟩ := h
  rw [hplace, Place.offset_after]
  simpa [Place.start] using charsAfter_utf8Length before cursor.ahead

/-- The position is all there is to a cursor of a template. -/
theorem eq_of_position {template : List Char} {first second : Cursor}
    (h : first.On template) (h' : second.On template)
    (hposition : first.position = second.position) : first = second := by
  have hahead : some first.ahead = some second.ahead := by
    rw [← h.charsAfter_eq, ← h'.charsAfter_eq, hposition]
  cases first
  cases second
  simp_all

end Cursor.On

theorem Scanner.scan_eq {scanner : Scanner} {cursor : Cursor}
    (hon : cursor.On scanner.template) (hposition : scanner.position = cursor.position) :
    scanner.scan =
      (Reading.scan scanner.loops cursor.scan.1,
        { scanner with
          position := cursor.scan.2.position
          loops := scanner.loops + Reading.loops cursor.scan.1 }) := by
  have hcursor : scanner.cursor? = some cursor := by
    unfold cursor?
    rw [hposition, hon.charsAfter_eq]
  simp only [scan, hcursor, Cursor.next_eq]
  cases cursor.scan.1 <;> rfl

/-! ## The row of scans -/

namespace Scanner

theorem drainFrom_eq (made : List Scan) (bound : Nat) (scanner : Scanner) (cursor : Cursor)
    (hon : cursor.On scanner.template) (hposition : scanner.position = cursor.position)
    (hbound : cursor.readings.length ≤ bound) :
    (scanner.drainFrom made bound).1 =
      made.reverse ++ Reading.numbered scanner.loops cursor.readings := by
  induction bound generalizing made scanner cursor with
  | zero =>
      obtain ⟨earlier, last, hreadings, -, -⟩ := cursor.readings_eq_append
      simp [hreadings] at hbound
  | succ bound ih =>
      rw [drainFrom, scan_eq hon hposition]
      cases hlast : Reading.isLast cursor.scan.1 with
      | true =>
          simp [hlast, Cursor.readings_of_isLast hlast, Reading.numbered]
      | false =>
          rw [Cursor.readings_of_not_isLast hlast] at hbound ⊢
          simp only [Reading.isLast_scan, hlast, Bool.false_eq_true, if_false]
          have hnext := ih (Reading.scan scanner.loops cursor.scan.1 :: made)
            { scanner with
              position := cursor.scan.2.position
              loops := scanner.loops + Reading.loops cursor.scan.1 }
            cursor.scan.2 hon.scan rfl (by simpa using hbound)
          rw [hnext]
          simp [Reading.numbered]

theorem drain_ofTemplate (template : String) :
    (ofTemplate template).drain.1 =
      Reading.numbered 0 (Cursor.ofTemplate template).readings := by
  apply drainFrom_eq [] _ _ (Cursor.ofTemplate template) (.ofTemplate template) rfl
  have hlength := (Cursor.ofTemplate template).length_readings_le
  simp only [Cursor.ofTemplate, Cursor.scanBound, Position.start, ofTemplate] at hlength ⊢
  simp at hlength
  omega

end Scanner

/-! ## Readers at work -/

inductive Command where
  | scan (reader : Nat)
  | save (reader slot : Nat)
  | restore (reader slot : Nat)
  deriving DecidableEq, Repr

/-- What scans, and has a position to be taken and put back. -/
structure Reader (Device Mark : Type) where
  scan : Device → Option Scan × Device
  position : Device → Mark
  seek : Device → Mark → Device

/-- Devices without number, and slots for the positions taken from any of them. -/
structure Desk (Device Mark : Type) where
  devices : Nat → Device
  slots : Nat → Option Mark

namespace Desk

variable {Device Mark : Type}

def ofDevice (device : Device) : Desk Device Mark := ⟨fun _ => device, fun _ => none⟩

/-- To restore from a slot where nothing was saved does nothing. -/
def step (reader : Reader Device Mark) (desk : Desk Device Mark) :
    Command → List (Option Scan) × Desk Device Mark
  | .scan index =>
      let (found, device) := reader.scan (desk.devices index)
      ([found], { desk with devices := Function.update desk.devices index device })
  | .save index slot =>
      let mark := reader.position (desk.devices index)
      ([], { desk with slots := Function.update desk.slots slot (some mark) })
  | .restore index slot =>
      match desk.slots slot with
      | none => ([], desk)
      | some mark =>
          let device := reader.seek (desk.devices index) mark
          ([], { desk with devices := Function.update desk.devices index device })

/-- The scans that a row of commands makes, and the desk it leaves. -/
def run (reader : Reader Device Mark) :
    Desk Device Mark → List Command → List (Option Scan) × Desk Device Mark
  | desk, [] => ([], desk)
  | desk, command :: commands =>
      let (found, desk) := desk.step reader command
      let (later, desk) := desk.run reader commands
      (found ++ later, desk)

end Desk

/-- One reader does what another does, step by step. -/
structure Reader.Simulates {Device Mark Device' Mark' : Type} (reader : Reader Device Mark)
    (other : Reader Device' Mark') (alike : Device → Device' → Prop)
    (same : Mark → Mark' → Prop) : Prop where
  scan {device device'} (h : alike device device') :
    (reader.scan device).1 = (other.scan device').1 ∧
      alike (reader.scan device).2 (other.scan device').2
  position {device device'} (h : alike device device') :
    same (reader.position device) (other.position device')
  seek {device device' mark mark'} (h : alike device device') (hmark : same mark mark') :
    alike (reader.seek device mark) (other.seek device' mark')

namespace Desk

section Simulation

variable {Device Mark Device' Mark' : Type} {reader : Reader Device Mark}
  {other : Reader Device' Mark'} {alike : Device → Device' → Prop}
  {same : Mark → Mark' → Prop}

/-- The devices of two desks are alike, and so are the positions in their slots. -/
def Alike (alike : Device → Device' → Prop) (same : Mark → Mark' → Prop)
    (desk : Desk Device Mark) (desk' : Desk Device' Mark') : Prop :=
  (∀ index, alike (desk.devices index) (desk'.devices index)) ∧
    ∀ slot, Option.Rel same (desk.slots slot) (desk'.slots slot)

private theorem alike_update {α β : Type} {related : α → β → Prop} {first : Nat → α}
    {second : Nat → β} (h : ∀ index, related (first index) (second index)) {a : α} {b : β}
    (hab : related a b) (changed index : Nat) :
    related (Function.update first changed a index) (Function.update second changed b index) := by
  by_cases hindex : index = changed
  · subst hindex
    simpa using hab
  · simpa [hindex] using h index

theorem Alike.step (hsim : reader.Simulates other alike same) {desk : Desk Device Mark}
    {desk' : Desk Device' Mark'} (h : Alike alike same desk desk') (command : Command) :
    (desk.step reader command).1 = (desk'.step other command).1 ∧
      Alike alike same (desk.step reader command).2 (desk'.step other command).2 := by
  obtain ⟨hdevices, hslots⟩ := h
  cases command with
  | scan index =>
      obtain ⟨hfound, hdevice⟩ := hsim.scan (hdevices index)
      exact ⟨congrArg (fun found => [found]) hfound, alike_update hdevices hdevice index, hslots⟩
  | save index slot =>
      have hmark := hsim.position (hdevices index)
      exact ⟨rfl, hdevices, alike_update hslots (.some hmark) slot⟩
  | restore index slot =>
      have hslot := hslots slot
      simp only [Desk.step]
      generalize desk.slots slot = mark, desk'.slots slot = mark' at hslot ⊢
      cases hslot with
      | none => exact ⟨rfl, hdevices, hslots⟩
      | some hmark =>
          have hdevice := hsim.seek (hdevices index) hmark
          exact ⟨rfl, alike_update hdevices hdevice index, hslots⟩

theorem Alike.run (hsim : reader.Simulates other alike same) {desk : Desk Device Mark}
    {desk' : Desk Device' Mark'} (h : Alike alike same desk desk') (commands : List Command) :
    (desk.run reader commands).1 = (desk'.run other commands).1 ∧
      Alike alike same (desk.run reader commands).2 (desk'.run other commands).2 := by
  induction commands generalizing desk desk' with
  | nil => exact ⟨rfl, h⟩
  | cons command commands ih =>
      obtain ⟨hfound, hnext⟩ := h.step hsim command
      obtain ⟨hlater, hend⟩ := ih hnext
      exact ⟨congrArg₂ (· ++ ·) hfound hlater, hend⟩

end Simulation

end Desk

/-- What a reader does keeps a property of devices, each of its own index, and one of marks. -/
structure Reader.Keeps {Device Mark : Type} (reader : Reader Device Mark)
    (device : Nat → Device → Prop) (mark : Mark → Prop) (found : Option Scan → Prop) : Prop where
  scan {index : Nat} {d : Device} (h : device index d) :
    found (reader.scan d).1 ∧ device index (reader.scan d).2
  position {index : Nat} {d : Device} (h : device index d) : mark (reader.position d)
  seek {index : Nat} {d : Device} {m : Mark} (h : device index d) (hmark : mark m) :
    device index (reader.seek d m)

namespace Desk

section Invariant

variable {Device Mark : Type} {reader : Reader Device Mark} {device : Nat → Device → Prop}
  {mark : Mark → Prop} {found : Option Scan → Prop} {desk : Desk Device Mark}

/-- The devices of a desk have a property, and so have the positions in its slots. -/
def Holds (device : Nat → Device → Prop) (mark : Mark → Prop) (desk : Desk Device Mark) : Prop :=
  (∀ index, device index (desk.devices index)) ∧
    ∀ slot m, desk.slots slot = some m → mark m

private theorem holds_update {α : Type} {holds : Nat → α → Prop} {values : Nat → α}
    (h : ∀ index, holds index (values index)) {changed : Nat} {a : α} (ha : holds changed a)
    (index : Nat) : holds index (Function.update values changed a index) := by
  by_cases hindex : index = changed
  · subst hindex
    simpa using ha
  · simpa [hindex] using h index

theorem Holds.step (hkeeps : reader.Keeps device mark found) (h : Holds device mark desk)
    (command : Command) :
    (∀ scan ∈ (desk.step reader command).1, found scan) ∧
      Holds device mark (desk.step reader command).2 := by
  obtain ⟨hdevices, hslots⟩ := h
  cases command with
  | scan index =>
      obtain ⟨hfound, hdevice⟩ := hkeeps.scan (hdevices index)
      exact ⟨by simpa [Desk.step] using hfound, holds_update hdevices hdevice, hslots⟩
  | save index slot =>
      have hmark := hkeeps.position (hdevices index)
      have hslot := @holds_update _ (fun _ saved => ∀ m, saved = some m → mark m) desk.slots
        hslots slot (some (reader.position (desk.devices index))) (by simpa using hmark)
      exact ⟨by simp [Desk.step], hdevices, hslot⟩
  | restore index slot =>
      simp only [Desk.step]
      cases hslot : desk.slots slot with
      | none => exact ⟨by simp, hdevices, hslots⟩
      | some m =>
          have hdevice := hkeeps.seek (hdevices index) (hslots slot m hslot)
          exact ⟨by simp, holds_update hdevices hdevice, hslots⟩

theorem Holds.run (hkeeps : reader.Keeps device mark found) (h : Holds device mark desk)
    (commands : List Command) :
    (∀ scan ∈ (desk.run reader commands).1, found scan) ∧
      Holds device mark (desk.run reader commands).2 := by
  induction commands generalizing desk with
  | nil => exact ⟨by simp [Desk.run], h⟩
  | cons command commands ih =>
      obtain ⟨hfound, hnext⟩ := h.step hkeeps command
      obtain ⟨hlater, hend⟩ := ih hnext
      refine ⟨fun scan hscan => ?_, hend⟩
      rcases List.mem_append.mp hscan with hscan | hscan
      · exact hfound scan hscan
      · exact hlater scan hscan

end Invariant

end Desk

/-! ## Scanners as indices -/

namespace Scan

/-- The same scan, made when the next loop has the given number. -/
def renumber (number : Nat) : Scan → Scan
  | .token found =>
      if found.kind = .loopBegin then .token { found with text := Lexeme.loopTag number }
      else .token found
  | scan => scan

def loops : Scan → Nat
  | .token found => if found.kind = .loopBegin then 1 else 0
  | _ => 0

theorem renumber_scan (number earlier : Nat) (reading : Reading) :
    renumber number (Reading.scan earlier reading) = Reading.scan number reading := by
  rcases reading with error | ⟨lexeme, span⟩
  · rfl
  · cases lexeme <;> rfl

theorem loops_scan (number : Nat) (reading : Reading) :
    loops (Reading.scan number reading) = Reading.loops reading := by
  rcases reading with error | ⟨lexeme, span⟩
  · rfl
  · cases lexeme <;> rfl

end Scan

namespace Reading

@[simp] theorem length_numbered (number : Nat) (readings : List Reading) :
    (numbered number readings).length = readings.length := by
  induction readings generalizing number with
  | nil => rfl
  | cons reading readings ih => simp [numbered, ih]

theorem getElem?_numbered (number index : Nat) (readings : List Reading) :
    ∃ earlier, (numbered number readings)[index]? = readings[index]?.map (scan earlier) := by
  induction readings generalizing number index with
  | nil => exact ⟨0, rfl⟩
  | cons reading readings ih =>
      cases index with
      | zero => exact ⟨number, rfl⟩
      | succ index => simpa [numbered] using ih (number + loops reading) index

theorem mem_numbered {number : Nat} {readings : List Reading} {found : Scan}
    (h : found ∈ numbered number readings) :
    ∃ earlier, ∃ reading ∈ readings, found = scan earlier reading := by
  induction readings generalizing number with
  | nil => simp [numbered] at h
  | cons reading readings ih =>
      rcases List.mem_cons.mp h with rfl | h
      · exact ⟨number, reading, by simp, rfl⟩
      · obtain ⟨earlier, other, hother, hfound⟩ := ih h
        exact ⟨earlier, other, List.mem_cons_of_mem _ hother, hfound⟩

theorem numbered_concat (number : Nat) (readings : List Reading) (last : Reading) :
    ∃ later, numbered number (readings ++ [last]) =
      numbered number readings ++ [scan later last] := by
  induction readings generalizing number with
  | nil => exact ⟨number, rfl⟩
  | cons reading readings ih =>
      obtain ⟨later, h⟩ := ih (number + loops reading)
      exact ⟨later, by simp [numbered, h]⟩

end Reading

/-- An index into a row of scans, and the number of the next loop. -/
structure Pointer where
  index : Nat
  loops : Nat
  deriving DecidableEq, Repr

/-- A pointer stays on the last scan of its row. -/
def Pointer.reader (row : List Scan) : Reader Pointer Nat where
  scan pointer :=
    (row[pointer.index]?.map (Scan.renumber pointer.loops),
      ⟨min (pointer.index + 1) (row.length - 1),
        pointer.loops + row[pointer.index]?.elim 0 Scan.loops⟩)
  position := Pointer.index
  seek pointer index := { pointer with index := index }

def Scanner.reader : Reader Scanner Position where
  scan scanner := (some scanner.scan.1, scanner.scan.2)
  position := Scanner.position
  seek := Scanner.seek

/-- From the position one scans what a fresh cursor scans from the index on. -/
def Position.At (template : String) (position : Position) (index : Nat) : Prop :=
  ∃ cursor : Cursor, cursor.On template.toList ∧ position = cursor.position ∧
    cursor.readings = (Cursor.ofTemplate template).readings.drop index

def Scanner.At (template : String) (scanner : Scanner) (pointer : Pointer) : Prop :=
  scanner.template = template.toList ∧ scanner.loops = pointer.loops ∧
    scanner.position.At template pointer.index

private theorem scan_at {template : String} {scanner : Scanner} {pointer : Pointer}
    (h : scanner.At template pointer) :
    let row := Reading.numbered 0 (Cursor.ofTemplate template).readings
    some scanner.scan.1 = ((Pointer.reader row).scan pointer).1 ∧
      scanner.scan.2.At template ((Pointer.reader row).scan pointer).2 := by
  intro row
  obtain ⟨htemplate, hloops, cursor, hon, hposition, hreadings⟩ := h
  have hscan := Scanner.scan_eq (htemplate ▸ hon) hposition
  have hread : (Cursor.ofTemplate template).readings[pointer.index]? = some cursor.scan.1 := by
    rw [← List.head?_drop, ← hreadings, Cursor.head?_readings]
  obtain ⟨earlier, hrow⟩ :=
    Reading.getElem?_numbered 0 pointer.index (Cursor.ofTemplate template).readings
  rw [hread, Option.map_some] at hrow
  have hlength : row.length = (Cursor.ofTemplate template).readings.length :=
    Reading.length_numbered _ _
  have hlt := (List.getElem?_eq_some_iff.mp hread).1
  simp only [hscan, Pointer.reader, row, hrow, Option.map_some, Option.elim_some,
    Scan.renumber_scan, Scan.loops_scan, hloops]
  refine ⟨trivial, htemplate, rfl, cursor.scan.2, hon.scan, rfl, ?_⟩
  have hdrop : ((Cursor.ofTemplate template).readings.drop pointer.index).length =
      (Cursor.ofTemplate template).readings.length - pointer.index := List.length_drop ..
  cases hlast : Reading.isLast cursor.scan.1 with
  | true =>
      rw [Cursor.readings_scan_of_isLast hlast, hreadings]
      rw [← hreadings, Cursor.readings_of_isLast hlast, List.length_singleton] at hdrop
      congr 1
      simp only [Reading.length_numbered]
      omega
  | false =>
      rw [Cursor.readings_of_not_isLast hlast] at hreadings
      obtain ⟨earlier, last, hnext, -, -⟩ := cursor.scan.2.readings_eq_append
      rw [← hreadings, hnext] at hdrop
      simp at hdrop
      rw [show min (pointer.index + 1) _ = pointer.index + 1 by simp; omega]
      rw [← List.drop_drop, ← hreadings, List.drop_one, List.tail_cons]

private theorem scanner_simulates (template : String) :
    Scanner.reader.Simulates
      (Pointer.reader (Reading.numbered 0 (Cursor.ofTemplate template).readings))
      (Scanner.At template) (Position.At template) where
  scan h := scan_at h
  position h := h.2.2
  seek h hmark := ⟨h.1, h.2.1, hmark⟩

/-- A row of scans ends with the first that is the end of the input or a fault. -/
def Scan.IsRow (row : List Scan) : Prop :=
  .insideCharacter ∉ row ∧
    ∃ earlier last, row = earlier ++ [last] ∧
      (∀ scan ∈ earlier, scan.isLast = false) ∧ last.isLast

private theorem isRow_readings (cursor : Cursor) :
    Scan.IsRow (Reading.numbered 0 cursor.readings) := by
  constructor
  · intro h
    obtain ⟨number, reading, -, hfound⟩ := Reading.mem_numbered h
    cases reading <;> simp [Reading.scan] at hfound
  · obtain ⟨earlier, last, hreadings, hearlier, hlast⟩ := cursor.readings_eq_append
    obtain ⟨number, hnumbered⟩ := Reading.numbered_concat 0 earlier last
    refine ⟨_, _, hreadings ▸ hnumbered, ?_, by simpa using hlast⟩
    intro scan hscan
    obtain ⟨number, reading, hreading, rfl⟩ := Reading.mem_numbered hscan
    simpa using hearlier reading hreading

/-- The scans a fresh scanner of the template makes, up to the first that is the last. -/
def scansOf (template : String) : List Scan := (Scanner.ofTemplate template).drain.1

/--
However scanners of a template are wound, each acts as an index into the row
of scans a fresh one makes, but for the numbers of its loops.
-/
theorem scanners_act_as_pointers (template : String) :
    Scan.IsRow (scansOf template) ∧
      ∀ commands,
        ((Desk.ofDevice (Scanner.ofTemplate template)).run Scanner.reader commands).1 =
          ((Desk.ofDevice ⟨0, 0⟩).run (Pointer.reader (scansOf template)) commands).1 := by
  have hrow : scansOf template = Reading.numbered 0 (Cursor.ofTemplate template).readings :=
    Scanner.drain_ofTemplate template
  rw [hrow]
  refine ⟨isRow_readings _, fun commands => ?_⟩
  have hstart : Desk.Alike (Scanner.At template) (Position.At template)
      (Desk.ofDevice (Scanner.ofTemplate template)) (Desk.ofDevice ⟨0, 0⟩) :=
    ⟨fun _ => ⟨rfl, rfl, _, .ofTemplate template, rfl, rfl⟩, fun _ => .none⟩
  exact (hstart.run (scanner_simulates template) commands).1

end Stencil
