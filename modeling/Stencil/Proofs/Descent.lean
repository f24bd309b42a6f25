import Stencil.Proofs.Contracts
import Stencil.Proofs.Grammar
import Stencil.Proofs.Progress
import Stencil.Proofs.Recursion
import Stencil.Proofs.Unrolling

/-!
# Descent

How deep rendering nests and how far back it goes.  A pass over the body of a
loop begins where the body begins, behind the beginning of the pass around it,
and every loop that is entered leaves one loop less ahead.  A pass in silence
never goes back at all, nor does any pass inside it.
-/

namespace Stencil

/-! ## Passes under way -/

/-- A pass that has begun and not ended, and the tokens scanned since then. -/
structure OpenPass where
  emit : Bool
  start : Position
  scanned : List Token
  deriving DecidableEq, Repr

/--
Where the bodies of the open loops begin, and the passes under way, both from
the innermost outwards; `last` is where reading last stood.
-/
structure Nest where
  bodies : List Position
  passes : List OpenPass
  last : Position
  deriving DecidableEq, Repr

def OpenPass.add (token : Token) (pass : OpenPass) : OpenPass :=
  { pass with scanned := pass.scanned ++ [token] }

def OpenPass.key (pass : OpenPass) : Bool × Position := (pass.emit, pass.start)

namespace Event

def bodies (here : Position) (bodies : List Position) : Event → List Position
  | .loopStarted .. => here :: bodies
  | .loopEnded .. => bodies.tail
  | _ => bodies

/-- The end of the input is not counted: each of several passes may come to it. -/
def passes (here : Position) (passes : List OpenPass) : Event → List OpenPass
  | .passStarted emit => ⟨emit, here, []⟩ :: passes
  | .passEnded => passes.tail
  | .scanned _ token =>
      if token.kind = .endOfInput then passes else passes.map (OpenPass.add token)
  | _ => passes

end Event

namespace Nest

def start : Nest := ⟨[], [], .start⟩

def after (nest : Nest) (moment : Moment) : Nest :=
  ⟨moment.event.bodies moment.position nest.bodies,
    moment.event.passes moment.position nest.passes, moment.position⟩

end Nest

def nestOf (moments : List Moment) : Nest := moments.foldl Nest.after .start

theorem nestOf_concat (moments : List Moment) (moment : Moment) :
    nestOf (moments ++ [moment]) = (nestOf moments).after moment := by
  simp [nestOf]

/--
What has been scanned since the pass began are the tokens of one straight scan
from its beginning to here, each of them once, the loops being numbered on.
-/
def OpenPass.Straight (template : List Char) (here : Position) (pass : OpenPass) : Prop :=
  ∃ (start current : Cursor) (marks : List Mark) (number : Nat),
    start.On template ∧ start.position = pass.start ∧
      current.On template ∧ current.position = here ∧
      start.readings = marks.map .ok ++ current.readings ∧
      pass.scanned = Grammar.tokens number marks

/-! ## Bounds -/

/--
What may happen at a position.  Reading goes back only where a pass begins,
and then to the body of the innermost loop, which lies behind the beginning of
every pass around it.
-/
def Event.Allowed (template : List Char) (nest : Nest) (here : Position) : Event → Prop
  | .passStarted emit =>
      here = nest.bodies.headD .start ∧ nest.passes.length = nest.bodies.length ∧
        (∀ outer ∈ nest.passes, outer.start.place.offset < here.place.offset) ∧
        (emit = true → ∀ outer ∈ nest.passes, outer.emit = true) ∧
        (emit = false → here = nest.last)
  | .passEnded =>
      here = nest.last ∧ ∃ pass outer, nest.passes = pass :: outer ∧
        pass.start.place.offset ≤ here.place.offset ∧
        (pass.emit = false → pass.Straight template here)
  | _ => nest.last.place.offset ≤ here.place.offset

def Position.Exceeds (later earlier : Position) : Prop :=
  earlier.place.offset < later.place.offset

/-- The moment is as it has to be after the passes and loops of the moments before it. -/
structure Moment.Bounded (template : List Char) (bound : Nat) (nest : Nest) (moment : Moment) :
    Prop where
  event : moment.event.Allowed template nest moment.position
  increasing : ((nest.after moment).bodies ++ [Position.start]).Pairwise Position.Exceeds
  depth : moment.environment.depth = (nest.after moment).bodies.length
  depth_le : moment.environment.depth ≤ bound
  passes_le : (nest.after moment).passes.length ≤ bound + 1
  silent : ∀ pass ∈ (nest.after moment).passes, pass.emit = false →
    pass.Straight template moment.position

def InBounds (template : List Char) (bound : Nat) (moments : List Moment) : Prop :=
  ∀ earlier moment later, moments = earlier ++ moment :: later →
    moment.Bounded template bound (nestOf earlier)

theorem InBounds.concat {template : List Char} {bound : Nat} {moments : List Moment}
    (h : InBounds template bound moments) {moment : Moment}
    (hmoment : moment.Bounded template bound (nestOf moments)) :
    InBounds template bound (moments ++ [moment]) := by
  have hall : Throughout (fun earlier moment => moment.Bounded template bound (nestOf earlier))
      moments := h
  exact hall.concat hmoment

/-! ## Reading on -/

namespace Reading

theorem loopsIn_append (first second : List Reading) :
    loopsIn (first ++ second) = loopsIn first + loopsIn second := by
  induction second using List.reverseRecOn with
  | nil => simp [loopsIn]
  | append_singleton second last ih =>
      rw [← List.append_assoc, loopsIn_concat, loopsIn_concat, ih, Nat.add_assoc]

theorem loopsIn_singleton (reading : Reading) : loopsIn [reading] = loops reading := by
  simp [loopsIn]

end Reading

theorem Grammar.tokens_concat (number : Nat) (marks : List Mark) (mark : Mark) :
    tokens number (marks ++ [mark]) = tokens number marks ++
      [mark.1.token (number + Reading.loopsIn (marks.map .ok)) mark.2] := by
  induction marks generalizing number with
  | nil => rfl
  | cons first marks ih =>
      have hloops : Reading.loopsIn ((first :: marks).map .ok) =
          first.1.loops + Reading.loopsIn (marks.map .ok) := by
        rw [List.map_cons, ← List.singleton_append, Reading.loopsIn_append,
          Reading.loopsIn_singleton]
        rfl
      rw [List.cons_append, tokens, ih, tokens, hloops, Nat.add_assoc, List.cons_append]

namespace Cursor

/-- A scan comes to the last reading and leaves it ahead, or takes the first of several. -/
theorem readings_scan (cursor : Cursor) :
    (Reading.isLast cursor.scan.1 ∧ cursor.scan.2.readings = cursor.readings ∧
        Reading.loops cursor.scan.1 = 0) ∨
      ∃ mark : Mark, cursor.scan.1 = .ok mark ∧ mark.1 ≠ .endOfInput ∧
        cursor.readings = .ok mark :: cursor.scan.2.readings := by
  cases hlast : Reading.isLast cursor.scan.1 with
  | true =>
      refine .inl ⟨rfl, readings_scan_of_isLast hlast, ?_⟩
      cases hreading : cursor.scan.1 with
      | error error => rfl
      | ok mark =>
          have hend : mark.1 = .endOfInput := by simpa [hreading, Reading.isLast] using hlast
          simp [Reading.loops, hend, Lexeme.loops]
  | false =>
      cases hreading : cursor.scan.1 with
      | error error => simp [hreading, Reading.isLast] at hlast
      | ok mark =>
          refine .inr ⟨mark, rfl, by simpa [hreading, Reading.isLast] using hlast, ?_⟩
          rw [readings_of_not_isLast hlast, hreading]

theorem loopsIn_readings_scan (cursor : Cursor) :
    Reading.loopsIn cursor.scan.2.readings + Reading.loops cursor.scan.1 =
      Reading.loopsIn cursor.readings := by
  rcases cursor.readings_scan with ⟨-, hreadings, hloops⟩ | ⟨mark, hreading, -, hreadings⟩
  · rw [hreadings, hloops, Nat.add_zero]
  · rw [hreadings, hreading, ← List.singleton_append, Reading.loopsIn_append,
      Reading.loopsIn_singleton, Nat.add_comm]

theorem offset_scan_le (cursor : Cursor) :
    cursor.position.place.offset ≤ cursor.scan.2.position.place.offset := by
  obtain ⟨passed, -, hplace⟩ := On.passed_of_scans cursor.scan_scans
  rw [hplace, Place.offset_after]
  exact Nat.le_add_right _ _

/-- A keyword is not scanned without being passed. -/
theorem offset_lt_of_loopBegin {cursor : Cursor} {span : Span}
    (h : cursor.scan.1 = .ok (.loopBegin, span)) :
    cursor.position.place.offset < cursor.scan.2.position.place.offset := by
  have hscans := cursor.scan_scans
  rw [h] at hscans
  rcases hscans.advances (by simp) with ⟨hbegin, -⟩ | ⟨-, hlt⟩
  · cases hbegin
  · exact hlt

end Cursor

/-! ## Renderings under way -/

/-- The pass has read from its start to the cursor, and straight there if it is in silence. -/
structure OpenPass.ReadsFrom (start cursor : Cursor) (loops : Nat) (pass : OpenPass) : Prop where
  position : start.position = pass.start
  reaches : start.Reaches cursor
  silent : pass.emit = false → ∃ (marks : List Mark) (number : Nat),
    start.readings = marks.map .ok ++ cursor.readings ∧
      pass.scanned = Grammar.tokens number marks ∧
      loops = number + Reading.loopsIn (marks.map .ok)

/--
The run is where the nest says.  A loop that has been scanned and not yet
entered is to spare: there is one more open loop to count for it, and its
keyword lies behind the beginning of every pass.
-/
structure Nest.Fits (template : List Char) (bound : Nat) (bodies : List Position)
    (keys : List (Bool × Position)) (spare : Nat) (run : Run) (nest : Nest) : Prop where
  bodies_eq : nest.bodies = bodies
  keys_eq : nest.passes.map OpenPass.key = keys
  last_eq : nest.last = run.cursor.position
  depth : run.environment.depth = bodies.length
  on : run.cursor.On template
  reads : ∀ pass ∈ nest.passes, ∃ start : Cursor, start.On template ∧
    pass.ReadsFrom start run.cursor run.loops
  offsets : ∀ pass ∈ nest.passes,
    pass.start.place.offset + spare ≤ run.cursor.position.place.offset
  budget : Reading.loopsIn run.cursor.readings + bodies.length + spare ≤ bound
  increasing : (bodies ++ [Position.start]).Pairwise Position.Exceeds
  count : keys.length ≤ bodies.length + 1

structure Run.Placed (template : List Char) (bound : Nat) (bodies : List Position)
    (keys : List (Bool × Position)) (spare : Nat) (run : Run) : Prop where
  journal : InBounds template bound run.journal.toList
  nest : (nestOf run.journal.toList).Fits template bound bodies keys spare run

/-- Neither a token is scanned nor a loop or a pass begun or ended. -/
def Event.isStill : Event → Bool
  | .scanned .. | .loopStarted .. | .loopEnded .. | .passStarted _ | .passEnded => false
  | _ => true

section Placed

variable {template : List Char} {bound spare : Nat} {bodies outer : List Position}
  {keys : List (Bool × Position)} {run : Run} {nest : Nest}

theorem Nest.Fits.mono (h : nest.Fits template bound bodies keys spare run) {less : Nat}
    (hless : less ≤ spare) : nest.Fits template bound bodies keys less run :=
  { h with
    offsets := fun pass hpass => by
      have hoffset := h.offsets pass hpass
      omega
    budget := by
      have hbudget := h.budget
      omega }

theorem Run.Placed.mono (h : run.Placed template bound bodies keys spare) {less : Nat}
    (hless : less ≤ spare) : run.Placed template bound bodies keys less :=
  ⟨h.journal, h.nest.mono hless⟩

theorem Nest.Fits.straight (h : nest.Fits template bound bodies keys spare run)
    {pass : OpenPass} (hpass : pass ∈ nest.passes) (hsilent : pass.emit = false) :
    pass.Straight template run.cursor.position := by
  obtain ⟨start, hon, hreads⟩ := h.reads pass hpass
  obtain ⟨marks, number, hreadings, hscanned, -⟩ := hreads.silent hsilent
  exact ⟨start, run.cursor, marks, number, hon, hreads.position, h.on, rfl, hreadings, hscanned⟩

/-- An event that is allowed is in bounds, if the run is where the nest says after it. -/
theorem Run.placed_of_note {event : Event} (hjournal : InBounds template bound run.journal.toList)
    (hallowed : event.Allowed template (nestOf run.journal.toList) run.cursor.position)
    (hfits : ((nestOf run.journal.toList).after
      ⟨event, run.cursor.position, run.environment⟩).Fits template bound bodies keys spare run) :
    (run.note event).Placed template bound bodies keys spare := by
  have hcount : ((nestOf run.journal.toList).after
      ⟨event, run.cursor.position, run.environment⟩).passes.length = keys.length := by
    rw [← hfits.keys_eq, List.length_map]
  have hbudget := hfits.budget
  have hkeys := hfits.count
  have hbounded : Moment.Bounded template bound (nestOf run.journal.toList)
      ⟨event, run.cursor.position, run.environment⟩ :=
    { event := hallowed
      increasing := by rw [hfits.bodies_eq]; exact hfits.increasing
      depth := by rw [hfits.bodies_eq]; exact hfits.depth
      depth_le := by rw [hfits.depth]; omega
      passes_le := by rw [hcount]; omega
      silent := fun pass hpass => hfits.straight hpass }
  constructor
  · rw [Run.note, Array.toList_push]
    exact hjournal.concat hbounded
  · rw [Run.note, Array.toList_push, nestOf_concat]
    exact { hfits with }

theorem Run.Placed.note (h : run.Placed template bound bodies keys spare) (event : Event)
    (hstill : event.isStill) : (run.note event).Placed template bound bodies keys spare := by
  have hlast := h.nest.last_eq
  have hafter : (nestOf run.journal.toList).after
      ⟨event, run.cursor.position, run.environment⟩ = nestOf run.journal.toList := by
    generalize nestOf run.journal.toList = nest at hlast
    obtain ⟨bodies, passes, last⟩ := nest
    obtain rfl : last = run.cursor.position := hlast
    cases event <;> first | rfl | cases hstill
  apply Run.placed_of_note h.journal
  · have hle := Nat.le_of_eq (congrArg (·.place.offset) hlast)
    cases event <;> first | exact hle | cases hstill
  · rw [hafter]
    exact h.nest

/-! ### Scanning -/

theorem OpenPass.ReadsFrom.scan {start cursor : Cursor} {loops : Nat} {pass : OpenPass}
    (h : pass.ReadsFrom start cursor loops) {mark : Mark} (hreading : cursor.scan.1 = .ok mark)
    (hend : mark.1 ≠ .endOfInput) :
    (pass.add (mark.1.token loops mark.2)).ReadsFrom start cursor.scan.2
      (loops + mark.1.loops) where
  position := h.position
  reaches := h.reaches.tail rfl
  silent hsilent := by
    obtain ⟨marks, number, hreadings, hscanned, rfl⟩ := h.silent hsilent
    have hnext := Cursor.readings_eq_cons (Prod.ext hreading rfl) hend
    refine ⟨marks ++ [mark], number, ?_, ?_, ?_⟩
    · rw [hreadings, hnext, List.map_append, List.append_assoc]
      rfl
    · rw [OpenPass.add, hscanned, Grammar.tokens_concat]
    · rw [List.map_append, Reading.loopsIn_append, ← Nat.add_assoc]
      exact congrArg _ (Reading.loopsIn_singleton (.ok mark)).symm

theorem OpenPass.ReadsFrom.scan_last {start cursor : Cursor} {loops : Nat} {pass : OpenPass}
    (h : pass.ReadsFrom start cursor loops) (hreadings : cursor.scan.2.readings = cursor.readings) :
    pass.ReadsFrom start cursor.scan.2 loops where
  position := h.position
  reaches := h.reaches.tail rfl
  silent hsilent := by rw [hreadings]; exact h.silent hsilent

/-- A scan that meets a loop counts for one more. -/
theorem Cursor.offset_scan_add_le (cursor : Cursor) :
    cursor.position.place.offset + Reading.loops cursor.scan.1 ≤
      cursor.scan.2.position.place.offset := by
  have hle := cursor.offset_scan_le
  rcases hreading : cursor.scan.1 with error | ⟨lexeme, span⟩
  · exact hle
  · cases lexeme <;> first | exact hle | exact Cursor.offset_lt_of_loopBegin hreading

/-- Every pass under way reads the token, unless it is the end of the input. -/
theorem Nest.Fits.scanned_passes (h : nest.Fits template bound bodies keys spare run)
    (site : Site) {passes : List OpenPass}
    (hpasses : (Event.ofReading site run.loops run.cursor.scan.1).passes
      run.cursor.scan.2.position nest.passes = passes) :
    passes.map OpenPass.key = keys ∧
      ∀ pass ∈ passes,
        (∃ start : Cursor, start.On template ∧ pass.ReadsFrom start run.cursor.scan.2
          (run.loops + Reading.loops run.cursor.scan.1)) ∧
        ∃ before ∈ nest.passes, before.start = pass.start := by
  rcases run.cursor.readings_scan with ⟨hlast, hreadings, hnone⟩ | ⟨mark, hreading, hend, -⟩
  · obtain rfl : nest.passes = passes := by
      rw [← hpasses]
      cases hreading : run.cursor.scan.1 with
      | error error => rfl
      | ok mark =>
          have hend : mark.1 = .endOfInput := by simpa [hreading, Reading.isLast] using hlast
          simp [Event.ofReading, Event.passes, hend, Lexeme.kind]
    refine ⟨h.keys_eq, fun pass hpass => ⟨?_, pass, hpass, rfl⟩⟩
    obtain ⟨start, hon, hreads⟩ := h.reads pass hpass
    rw [hnone]
    exact ⟨start, hon, hreads.scan_last hreadings⟩
  · obtain rfl : nest.passes.map (OpenPass.add (mark.1.token run.loops mark.2)) = passes := by
      have hkind : mark.1.kind ≠ .endOfInput := mt mark.1.kind_eq_endOfInput_iff.mp hend
      rw [← hpasses, hreading]
      simp [Event.ofReading, Event.passes, hkind]
    refine ⟨by rw [List.map_map]; exact h.keys_eq, fun later hlater => ?_⟩
    obtain ⟨pass, hpass, rfl⟩ := List.mem_map.mp hlater
    obtain ⟨start, hon, hreads⟩ := h.reads pass hpass
    have hscan := hreads.scan hreading hend
    rw [hreading]
    exact ⟨⟨start, hon, hscan⟩, pass, hpass, rfl⟩

theorem Nest.Fits.scanned (h : nest.Fits template bound bodies keys spare run) (site : Site) :
    (nest.after ⟨.ofReading site run.loops run.cursor.scan.1, run.cursor.scan.2.position,
      run.environment⟩).Fits template bound bodies keys
        (spare + Reading.loops run.cursor.scan.1)
        { run with
          cursor := run.cursor.scan.2
          loops := run.loops + Reading.loops run.cursor.scan.1 } := by
  obtain ⟨hkeys, hpasses⟩ := h.scanned_passes site rfl
  refine ⟨?_, hkeys, rfl, h.depth, h.on.scan, fun pass hpass => (hpasses pass hpass).1,
    fun pass hpass => ?_, ?_, h.increasing, h.count⟩
  · rw [← h.bodies_eq]
    cases run.cursor.scan.1 <;> rfl
  · obtain ⟨-, before, hbefore, hstart⟩ := hpasses pass hpass
    have hoffset := h.offsets before hbefore
    have hscan := run.cursor.offset_scan_add_le
    rw [← hstart]
    dsimp only
    omega
  · have hloops := run.cursor.loopsIn_readings_scan
    have hbudget := h.budget
    dsimp only
    omega

theorem Run.Placed.scanned (h : run.Placed template bound bodies keys spare) (site : Site) :
    (run.scanned site).Placed template bound bodies keys
      (spare + Reading.loops run.cursor.scan.1) := by
  have hle : (nestOf run.journal.toList).last.place.offset ≤
      run.cursor.scan.2.position.place.offset := by
    rw [h.nest.last_eq]
    exact run.cursor.offset_scan_le
  refine Run.placed_of_note h.journal ?_ (h.nest.scanned site)
  cases run.cursor.scan.1 <;> exact hle

/--
What stays so while passes are made over the body that begins at the cursor,
however often reading goes back there.
-/
structure Anchor (template : List Char) (bound : Nat) (outer : List Position)
    (keys : List (Bool × Position)) (start : Cursor) : Prop where
  on : start.On template
  budget : Reading.loopsIn start.readings + (outer.length + 1) ≤ bound
  behind : ∀ key ∈ keys, start.position.Exceeds key.2 ∧
    ∃ first : Cursor, first.On template ∧ first.position = key.2 ∧ first.Reaches start
  starts : keys.map Prod.snd = outer ++ [Position.start]

theorem Run.Placed.anchor (h : run.Placed template bound outer keys 1)
    (hstarts : keys.map Prod.snd = outer ++ [Position.start]) :
    Anchor template bound outer keys run.cursor where
  on := h.nest.on
  budget := h.nest.budget
  behind key hkey := by
    obtain ⟨pass, hpass, rfl⟩ := List.mem_map.mp (h.nest.keys_eq ▸ hkey)
    obtain ⟨first, hon, hreads⟩ := h.nest.reads pass hpass
    exact ⟨h.nest.offsets pass hpass, first, hon, hreads.position, hreads.reaches⟩
  starts := hstarts

theorem Run.Placed.entered (h : run.Placed template bound outer keys 1)
    (hstarts : keys.map Prod.snd = outer ++ [Position.start])
    (frame array item : String) (count : Nat) (emit : Bool) :
    (run.entered frame array item count emit).Placed template bound
      (run.cursor.position :: outer) keys 0 := by
  have hanchor := h.anchor hstarts
  have hincreasing :
      (run.cursor.position :: outer ++ [Position.start]).Pairwise Position.Exceeds := by
    refine List.pairwise_cons.mpr ⟨fun position hposition => ?_, h.nest.increasing⟩
    have hmem : position ∈ keys.map Prod.snd := by
      rw [hstarts]
      exact hposition
    obtain ⟨key, hkey, rfl⟩ := List.mem_map.mp hmem
    exact (hanchor.behind key hkey).1
  have hcount : keys.length ≤ outer.length + 1 + 1 := Nat.le_succ_of_le h.nest.count
  have hle := Nat.le_of_eq (congrArg (·.place.offset) h.nest.last_eq)
  let inside : Run := { run with environment := run.environment.enter frame }
  have hplaced : (inside.note (.loopStarted frame array item count
      inside.environment.depth emit)).Placed template bound
        (run.cursor.position :: outer) keys 0 := by
    refine Run.placed_of_note h.journal hle ⟨?_, h.nest.keys_eq, rfl, ?_, h.nest.on,
      h.nest.reads, (h.nest.mono (Nat.zero_le 1)).offsets, hanchor.budget, hincreasing, hcount⟩
    · exact congrArg (run.cursor.position :: ·) h.nest.bodies_eq
    · exact congrArg (· + 1) h.nest.depth
  exact hplaced

theorem Run.Placed.begun {start : Cursor} (hanchor : Anchor template bound outer keys start)
    (h : run.Placed template bound (start.position :: outer) keys 0) {emit : Bool}
    (hemit : emit = true → ∀ key ∈ keys, key.1 = true)
    (hstart : emit = false → run.cursor = start) (item value : String) :
    (run.begun start item value emit).Placed template bound (start.position :: outer)
      ((emit, start.position) :: keys) 0 := by
  have hkey {pass : OpenPass} (hpass : pass ∈ (nestOf run.journal.toList).passes) :
      pass.key ∈ keys := by
    rw [← h.nest.keys_eq]
    exact List.mem_map_of_mem hpass
  have hlength : keys.length = outer.length + 1 := by
    have hstarts := congrArg List.length hanchor.starts
    simpa using hstarts
  -- A pass in silence is made only once, and there all that was read is still read straight.
  have hreads : ∀ pass ∈ (nestOf run.journal.toList).passes,
      ∃ first : Cursor, first.On template ∧ pass.ReadsFrom first start run.loops := by
    intro pass hpass
    cases emit with
    | false =>
        rw [← hstart rfl]
        exact h.nest.reads pass hpass
    | true =>
        obtain ⟨-, first, hon, hposition, hreaches⟩ := hanchor.behind pass.key (hkey hpass)
        refine ⟨first, hon, hposition, hreaches, fun hsilent => ?_⟩
        have hfull : pass.emit = true := hemit rfl pass.key (hkey hpass)
        simp [hsilent] at hfull
  let ready : Run := { run with
    cursor := start
    environment := run.environment.define item value }
  have hallowed : (Event.passStarted emit).Allowed template (nestOf run.journal.toList)
      start.position := by
    refine ⟨?_, ?_, fun pass hpass => (hanchor.behind _ (hkey hpass)).1,
      fun hfull pass hpass => hemit hfull pass.key (hkey hpass), fun hsilent => ?_⟩
    · rw [h.nest.bodies_eq]
      rfl
    · rw [h.nest.bodies_eq, ← List.length_map OpenPass.key, h.nest.keys_eq, hlength]
      rfl
    · rw [h.nest.last_eq, hstart hsilent]
  have hplaced : (ready.note (.passStarted emit)).Placed template bound
      (start.position :: outer) ((emit, start.position) :: keys) 0 := by
    refine Run.placed_of_note h.journal hallowed ⟨h.nest.bodies_eq, ?_, rfl, ?_, hanchor.on,
      ?_, ?_, hanchor.budget, h.nest.increasing, ?_⟩
    · exact congrArg ((emit, start.position) :: ·) h.nest.keys_eq
    · exact (Environment.depth_define ..).trans h.nest.depth
    · refine List.forall_mem_cons.mpr ⟨⟨start, hanchor.on, rfl, .refl, fun _ => ?_⟩, hreads⟩
      exact ⟨[], run.loops, rfl, rfl, rfl⟩
    · refine List.forall_mem_cons.mpr ⟨Nat.le_refl _, fun pass hpass => ?_⟩
      exact Nat.le_of_lt (hanchor.behind _ (hkey hpass)).1
    · simp [hlength]
  exact hplaced

/-- The pass around all others begins where the template does, in no loop. -/
theorem Run.Placed.started (h : run.Placed template bound [] [] 0)
    (hstart : run.cursor.position = .start) :
    (run.note (.passStarted true)).Placed template bound [] [(true, .start)] 0 := by
  have hnone : (nestOf run.journal.toList).passes = [] := List.map_eq_nil_iff.mp h.nest.keys_eq
  have hallowed : (Event.passStarted true).Allowed template (nestOf run.journal.toList)
      run.cursor.position := by
    unfold Event.Allowed
    rw [hnone, h.nest.bodies_eq, hstart]
    simp
  have hpasses : (Event.passStarted true).passes run.cursor.position
      (nestOf run.journal.toList).passes = [⟨true, .start, []⟩] := by
    rw [hnone, hstart]
    rfl
  have honly {pass : OpenPass} (hpass : pass ∈ (Event.passStarted true).passes
      run.cursor.position (nestOf run.journal.toList).passes) : pass = ⟨true, .start, []⟩ :=
    List.mem_singleton.mp (hpasses ▸ hpass)
  refine Run.placed_of_note h.journal hallowed ⟨h.nest.bodies_eq, ?_, rfl, h.nest.depth,
    h.nest.on, fun pass hpass => ?_, fun pass hpass => ?_, h.nest.budget, h.nest.increasing,
    Nat.le_refl _⟩
  · exact congrArg _ hpasses
  · obtain rfl := honly hpass
    exact ⟨run.cursor, h.nest.on, hstart, .refl, nofun⟩
  · obtain rfl := honly hpass
    exact Nat.le_of_eq (congrArg (·.place.offset) hstart.symm)

theorem Run.Placed.passEnded {key : Bool × Position}
    (h : run.Placed template bound bodies (key :: keys) 0) :
    (run.note .passEnded).Placed template bound bodies keys 0 := by
  obtain ⟨pass, passes, hpasses, rfl, hkeys⟩ := List.map_eq_cons_iff.mp h.nest.keys_eq
  have hfirst : pass ∈ (nestOf run.journal.toList).passes := hpasses ▸ List.mem_cons_self
  have hrest {other : OpenPass} (hother : other ∈ passes) :
      other ∈ (nestOf run.journal.toList).passes := hpasses ▸ List.mem_cons_of_mem _ hother
  have hallowed : Event.passEnded.Allowed template (nestOf run.journal.toList)
      run.cursor.position :=
    ⟨h.nest.last_eq.symm, pass, passes, hpasses, h.nest.offsets pass hfirst,
      h.nest.straight hfirst⟩
  have htail : Event.passEnded.passes run.cursor.position (nestOf run.journal.toList).passes =
      passes := by
    rw [hpasses]
    rfl
  refine Run.placed_of_note h.journal hallowed ⟨h.nest.bodies_eq, ?_, rfl, h.nest.depth,
    h.nest.on, fun other hother => h.nest.reads other (hrest (htail ▸ hother)),
    fun other hother => h.nest.offsets other (hrest (htail ▸ hother)), h.nest.budget,
    h.nest.increasing, Nat.le_of_succ_le h.nest.count⟩
  exact (congrArg _ htail).trans hkeys

theorem Run.Placed.left {body : Position}
    (hstarts : keys.map Prod.snd = outer ++ [Position.start])
    (h : run.Placed template bound (body :: outer) keys 0) (frame : String) :
    (run.left frame).Placed template bound outer keys 0 := by
  have hle := Nat.le_of_eq (congrArg (·.place.offset) h.nest.last_eq)
  have hlength : keys.length = outer.length + 1 := by
    simpa using congrArg List.length hstarts
  have hdepth : run.environment.leave.2.depth = outer.length := by
    have hdepth := h.nest.depth
    rcases hloops : run.environment.loops with _ | ⟨inner, others⟩ <;>
      simp_all [Environment.depth, Environment.leave]
  have hbudget : Reading.loopsIn run.cursor.readings + outer.length + 0 ≤ bound := by
    have hbudget := h.nest.budget
    simp only [List.length_cons] at hbudget
    omega
  let outside : Run := { run with environment := run.environment.leave.2 }
  have hplaced : (outside.note (.loopEnded frame outside.environment.depth)).Placed template bound
      outer keys 0 := by
    refine Run.placed_of_note h.journal hle ⟨?_, h.nest.keys_eq, rfl, hdepth, h.nest.on,
      h.nest.reads, h.nest.offsets, hbudget, h.nest.increasing.tail, Nat.le_of_eq hlength⟩
    exact congrArg List.tail h.nest.bodies_eq
  exact hplaced

end Placed

/-! ## Contracts -/

namespace Rendering

section Contracts

variable {template : List Char} {bound spare : Nat} {bodies outer : List Position}
  {keys : List (Bool × Position)}

variable {body : Bool → Rendering Unit} {start : Cursor}

end Contracts

end Rendering

end Stencil
