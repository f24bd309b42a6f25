import Stencil.Proofs.Contracts
import Stencil.Proofs.Locations
import Stencil.Proofs.Pairs
import Stencil.Proofs.Records
import Stencil.Proofs.Sessions

/-!
# Brackets

The starts and ends of loops in a journal are nested like brackets, and so are
the records of them.  At every moment the frames of the environment are those
of the loops that have started and not ended.
-/

namespace Stencil

/-! ## Brackets in a journal -/

/-- The loops after an event, the innermost first. -/
def Event.brackets (loops : List Bracket) : Event → List Bracket
  | .loopStarted frame _ _ count depth _ => ⟨frame, count, depth⟩ :: loops
  | .loopEnded .. => loops.tail
  | _ => loops

def Event.starts : Event → Nat
  | .loopStarted .. => 1
  | _ => 0

/-- Neither a loop starts or ends, nor the rendering. -/
def Event.isPlain : Event → Bool
  | .loopStarted .. | .loopEnded .. | .renderFinished _ => false
  | _ => true

def bracketsOf (moments : List Moment) : List Bracket :=
  moments.foldl (fun loops moment => moment.event.brackets loops) []

def startsOf (moments : List Moment) : Nat :=
  moments.foldl (fun starts moment => starts + moment.event.starts) 0

/--
The event is in place when so many loops have started before it, of which the
given ones have not ended.
-/
def Event.Fits (arrays : Arrays) (starts : Nat) (loops : List Bracket) : Event → Prop
  | .loopStarted frame array _ count depth emit =>
      frame = Lexeme.loopTag starts ∧ depth = loops.length + 1 ∧
        (arrays.find? array).map List.length = some count ∧ (emit = true ↔ AllFull loops)
  | .loopEnded frame depth =>
      ∃ loop outer, loops = loop :: outer ∧ loop.frame = frame ∧ loop.depth = depth + 1
  | .passStarted emit => emit = true ↔ AllFull loops
  | .wrote _ | .refused _ => AllFull loops
  | .renderFinished _ => loops = []
  | _ => True

def Environment.ids (environment : Environment) : List String :=
  environment.frames.map Frame.id

/-- The event is in place behind the earlier moments, and every loop has its frame. -/
structure Moment.Fits (arrays : Arrays) (earlier : List Moment) (moment : Moment) : Prop where
  event : moment.event.Fits arrays (startsOf earlier) (bracketsOf earlier)
  ids : moment.environment.ids =
    (bracketsOf (earlier ++ [moment])).map Bracket.frame ++ ["root"]

/-- Every moment is in place behind those before it. -/
def InPlace (arrays : Arrays) (moments : List Moment) : Prop :=
  ∀ earlier moment later, moments = earlier ++ moment :: later → moment.Fits arrays earlier

def Unfinished (moments : List Moment) : Prop :=
  ∀ moment ∈ moments, ∀ offset, moment.event ≠ .renderFinished offset

theorem bracketsOf_concat (moments : List Moment) (moment : Moment) :
    bracketsOf (moments ++ [moment]) = moment.event.brackets (bracketsOf moments) := by
  simp [bracketsOf]

theorem startsOf_concat (moments : List Moment) (moment : Moment) :
    startsOf (moments ++ [moment]) = startsOf moments + moment.event.starts := by
  simp [startsOf]

theorem InPlace.concat {arrays : Arrays} {moments : List Moment} (h : InPlace arrays moments)
    {moment : Moment} (hmoment : moment.Fits arrays moments) :
    InPlace arrays (moments ++ [moment]) :=
  Throughout.concat h hmoment

theorem InPlace.of_append {arrays : Arrays} {moments more : List Moment}
    (h : InPlace arrays (moments ++ more)) : InPlace arrays moments :=
  Throughout.of_append h

/-! ## Numbers of loops -/

/-- The loops that have not ended are numbered as they have started, the last one highest. -/
def Numbered (starts : Nat) (loops : List Bracket) : Prop :=
  ∃ numbers : List Nat, loops.map Bracket.frame = numbers.map Lexeme.loopTag ∧
    (starts :: numbers).Pairwise (· > ·)

theorem Numbered.after {arrays : Arrays} {starts : Nat} {loops : List Bracket} {event : Event}
    (h : Numbered starts loops) (hfits : event.Fits arrays starts loops) :
    Numbered (starts + event.starts) (event.brackets loops) := by
  obtain ⟨numbers, hframes, hnumbers⟩ := h
  cases event with
  | loopStarted frame array item count depth emit =>
      obtain ⟨rfl, -⟩ := hfits
      refine ⟨starts :: numbers, by simp [Event.brackets, hframes], ?_⟩
      refine List.pairwise_cons.mpr ⟨fun number hnumber => ?_, hnumbers⟩
      rcases List.mem_cons.mp hnumber with rfl | hnumber
      · exact Nat.lt_succ_self _
      · exact Nat.lt_succ_of_lt ((List.pairwise_cons.mp hnumbers).1 number hnumber)
  | loopEnded frame depth =>
      refine ⟨numbers.tail, by simp [Event.brackets, List.map_tail, hframes], ?_⟩
      exact hnumbers.sublist ((List.tail_sublist numbers).cons_cons starts)
  | _ => exact ⟨numbers, hframes, hnumbers⟩

theorem InPlace.numbered {arrays : Arrays} {moments : List Moment}
    (h : InPlace arrays moments) : Numbered (startsOf moments) (bracketsOf moments) := by
  induction moments using List.reverseRecOn with
  | nil => exact ⟨[], rfl, by simp⟩
  | append_singleton moments moment ih =>
      have hmoment := h moments moment [] rfl
      rw [startsOf_concat, bracketsOf_concat]
      exact (ih h.of_append).after hmoment.event

theorem InPlace.numbered_at {arrays : Arrays} {moments : List Moment}
    (h : InPlace arrays moments) (earlier : List Moment) (moment : Moment) (later : List Moment)
    (hsplit : moments = earlier ++ moment :: later) :
    moment.Fits arrays earlier ∧
      Numbered (startsOf (earlier ++ [moment])) (bracketsOf (earlier ++ [moment])) := by
  have hwhole : InPlace arrays ((earlier ++ [moment]) ++ later) := by simpa [← hsplit] using h
  exact ⟨h earlier moment later hsplit, hwhole.of_append.numbered⟩

/-! ## Brackets in the records -/

/-- What is recorded of an event that is in place is in place among the records. -/
theorem Event.Fits.nested {arrays : Arrays} {starts : Nat} {loops : List Bracket} {event : Event}
    (hfits : event.Fits arrays starts loops) {records : List Record}
    (h : Record.Nested arrays records starts loops) (level : Level) :
    Record.Nested arrays (records ++ event.record?.toList.filter (level.shows ·.level))
      (starts + event.starts) (event.brackets loops) := by
  cases event with
  | loopStarted frame array item count depth emit =>
      obtain ⟨rfl, rfl, hcount, hemit⟩ := hfits
      obtain ⟨elements, harray, rfl⟩ := Option.map_eq_some_iff.mp hcount
      simpa [Event.record?, Event.starts, Event.brackets] using h.concat (.loopStart harray hemit)
  | loopEnded frame depth =>
      obtain ⟨⟨_, count, _⟩, outer, rfl, rfl, rfl⟩ := hfits
      simpa [Event.record?, Event.starts, Event.brackets] using h.concat .loopEnd
  | renderFinished offset =>
      obtain rfl : loops = [] := hfits
      simpa [Event.record?, Event.starts, Event.brackets] using h.concat .renderFinished
  | renderStarted bytes =>
      simpa [Event.record?, Event.starts, Event.brackets] using h.concat (.other (by simp))
  | scanned site token =>
      -- The coarser level does not show the record, which is in place at the finer one.
      cases level with
      | debug => simpa [Event.record?, Event.starts, Event.brackets, Level.shows] using h
      | trace =>
          simpa [Event.record?, Event.starts, Event.brackets, Level.shows] using
            h.concat (.other (by simp))
  | _ => simpa [Event.record?, Event.starts, Event.brackets] using h

theorem InPlace.recorded {arrays : Arrays} {moments : List Moment} (h : InPlace arrays moments)
    (level : Level) :
    Record.Nested arrays (Journal.records moments.toArray level) (startsOf moments)
      (bracketsOf moments) := by
  induction moments using List.reverseRecOn with
  | nil => exact .nil
  | append_singleton moments moment ih =>
      have hmoment := (h moments moment [] rfl).event
      rw [startsOf_concat, bracketsOf_concat, ← List.push_toArray, Journal.records_push]
      exact hmoment.nested (ih h.of_append) level

theorem InPlace.recorded_at {arrays : Arrays} {moments : List Moment} (h : InPlace arrays moments)
    (earlier later : List Moment) (level : Level) (hsplit : moments = earlier ++ later) :
    Record.Nested arrays (Journal.records earlier.toArray level) (startsOf earlier)
      (bracketsOf earlier) :=
  (hsplit ▸ h).of_append.recorded level

theorem Event.eq_renderFinished {event : Event} {record : Record}
    (hrecord : event.record? = some record) (hmessage : record.message = "render finished") :
    ∃ offset, event = .renderFinished offset := by
  cases event with
  | renderFinished offset => exact ⟨offset, rfl⟩
  | renderStarted | scanned | loopStarted | loopEnded =>
      obtain rfl := Option.some.inj hrecord
      simp at hmessage
  | scanFailed | wrote | refused | passStarted | passEnded => cases hrecord

theorem Unfinished.recorded {moments : List Moment} (h : Unfinished moments) (level : Level) :
    Record.Unfinished (Journal.records moments.toArray level) := by
  intro record hrecord hmessage
  obtain ⟨hrecord, -⟩ := List.mem_filter.mp hrecord
  obtain ⟨event, hevent, hrecord⟩ := List.mem_filterMap.mp hrecord
  obtain ⟨moment, hmoment, rfl⟩ := List.mem_map.mp hevent
  obtain ⟨offset, hfinished⟩ := Event.eq_renderFinished hrecord hmessage
  exact h moment hmoment offset hfinished

/-! ## Renderings under way -/

/-- All moments are in place; the given loops have not ended. -/
structure Journal.Nested (arrays : Arrays) (starts : Nat) (loops : List Bracket)
    (journal : Journal) : Prop where
  fits : InPlace arrays journal.toList
  brackets : bracketsOf journal.toList = loops
  starts : startsOf journal.toList = starts

/-- All arrays are the root's. -/
structure Environment.ArraysAtRoot (arrays : Arrays) (environment : Environment) : Prop where
  root : environment.root.arrays = arrays
  frames : ∀ frame ∈ environment.loops, frame.arrays = .empty

/-- The loops have their frames, in which no arrays are bound. -/
structure Environment.Framed (arrays : Arrays) (loops : List Bracket)
    (environment : Environment) : Prop extends environment.ArraysAtRoot arrays where
  ids : environment.ids = loops.map Bracket.frame ++ ["root"]

namespace Environment

section ArraysAtRoot

variable {arrays : Arrays} {environment : Environment}

theorem ArraysAtRoot.ofBindings (values : Values) (arrays : Arrays) :
    (Environment.ofBindings values arrays).ArraysAtRoot arrays :=
  ⟨rfl, by simp [Environment.ofBindings]⟩

theorem ArraysAtRoot.array? (h : environment.ArraysAtRoot arrays) (name : String) :
    environment.array? name = arrays.find? name := by
  have hloops : environment.loops.findSome? (·.arrays.find? name) = none := by
    rw [List.findSome?_eq_none_iff]
    intro frame hframe
    rw [h.frames frame hframe, Bindings.find?_empty]
  unfold Environment.array? Environment.frames
  rw [List.findSome?_append, hloops, Option.none_or, List.findSome?_singleton, h.root]

theorem ArraysAtRoot.enter (h : environment.ArraysAtRoot arrays) (id : String) :
    (environment.enter id).ArraysAtRoot arrays :=
  ⟨h.root, by simpa [Environment.enter] using h.frames⟩

theorem ArraysAtRoot.leave (h : environment.ArraysAtRoot arrays) :
    environment.leave.2.ArraysAtRoot arrays := by
  rcases environment with ⟨_ | ⟨inner, outer⟩, root⟩
  · exact h
  · exact ⟨h.root, fun frame hframe => h.frames frame (List.mem_cons_of_mem _ hframe)⟩

theorem ArraysAtRoot.define (h : environment.ArraysAtRoot arrays) (name value : String) :
    (environment.define name value).ArraysAtRoot arrays := by
  obtain ⟨hroot, hframes⟩ := h
  rcases environment with ⟨_ | ⟨inner, outer⟩, root⟩
  · exact ⟨hroot, hframes⟩
  · exact ⟨hroot, by simpa [Environment.define] using hframes⟩

end ArraysAtRoot

section Framed

variable {arrays : Arrays} {loops : List Bracket} {environment : Environment}

theorem Framed.depth (h : environment.Framed arrays loops) : environment.depth = loops.length := by
  have hlength := congrArg List.length h.ids
  simpa [Environment.ids, Environment.frames, Environment.depth] using hlength

theorem Framed.enter (h : environment.Framed arrays loops) (loop : Bracket) :
    (environment.enter loop.frame).Framed arrays (loop :: loops) where
  toArraysAtRoot := h.toArraysAtRoot.enter loop.frame
  ids := by simpa [Environment.ids, Environment.frames, Environment.enter] using h.ids

theorem Framed.leave {loop : Bracket} (h : environment.Framed arrays (loop :: loops)) :
    environment.leave.2.Framed arrays loops := by
  have hdepth := h.depth
  refine ⟨h.toArraysAtRoot.leave, ?_⟩
  have hids := h.ids
  rcases environment with ⟨_ | ⟨inner, outer⟩, root⟩
  · simp [Environment.depth] at hdepth
  · simp only [Environment.ids, Environment.frames, List.map_cons, List.cons_append] at hids
    exact (List.cons.inj hids).2

theorem Framed.define (h : environment.Framed arrays loops) (name value : String) :
    (environment.define name value).Framed arrays loops where
  toArraysAtRoot := h.toArraysAtRoot.define name value
  ids := by
    rw [← h.ids]
    rcases environment with ⟨_ | ⟨inner, outer⟩, root⟩ <;> rfl

end Framed

end Environment

/--
A rendering under way: so many loops have started in its journal, and the
next loop it scans has the given number.
-/
structure Run.Orderly (arrays : Arrays) (loops : List Bracket) (starts number : Nat)
    (run : Run) : Prop where
  journal : run.journal.Nested arrays starts loops
  unfinished : Unfinished run.journal.toList
  environment : run.environment.Framed arrays loops
  number : run.loops = number

/-- No loop has been scanned that has not started. -/
def Run.Settled (arrays : Arrays) (loops : List Bracket) (run : Run) : Prop :=
  ∃ starts, run.Orderly arrays loops starts starts

/-- A rendering that has failed. -/
def Run.Halted (arrays : Arrays) (run : Run) : Prop :=
  ∃ loops starts number, run.Orderly arrays loops starts number

theorem Journal.Nested.push {arrays : Arrays} {starts : Nat} {loops : List Bracket}
    {journal : Journal} (h : journal.Nested arrays starts loops) (moment : Moment)
    (hevent : moment.event.Fits arrays starts loops)
    (hids : moment.environment.ids =
      (moment.event.brackets loops).map Bracket.frame ++ ["root"]) :
    Journal.Nested arrays (starts + moment.event.starts) (moment.event.brackets loops)
      (journal.push moment) where
  fits := by
    rw [Array.toList_push]
    refine h.fits.concat ⟨?_, ?_⟩
    · rwa [h.starts, h.brackets]
    · rwa [bracketsOf_concat, h.brackets]
  brackets := by rw [Array.toList_push, bracketsOf_concat, h.brackets]
  starts := by rw [Array.toList_push, startsOf_concat, h.starts]

theorem Unfinished.push {journal : Journal} (h : Unfinished journal.toList) {moment : Moment}
    (hmoment : ∀ offset, moment.event ≠ .renderFinished offset) :
    Unfinished (journal.push moment).toList := by
  intro other hother
  rcases List.mem_append.mp (Array.toList_push ▸ hother) with hother | hother
  · exact h other hother
  · rwa [List.mem_singleton.mp hother]

theorem Run.Orderly.note {arrays : Arrays} {loops : List Bracket} {starts number : Nat}
    {run : Run} (h : run.Orderly arrays loops starts number) (event : Event)
    (hevent : event.Fits arrays starts loops) (hplain : event.isPlain) :
    (run.note event).Orderly arrays loops starts number := by
  have hstarts : event.starts = 0 := by cases event <;> trivial
  have hbrackets : event.brackets loops = loops := by cases event <;> trivial
  have hpush := h.journal.push ⟨event, run.cursor.position, run.environment⟩ hevent
    (by rw [hbrackets]; exact h.environment.ids)
  rw [hstarts, hbrackets] at hpush
  refine ⟨hpush, h.unfinished.push ?_, h.environment, h.number⟩
  rintro offset rfl
  cases hplain

theorem Run.Orderly.entered {arrays : Arrays} {loops : List Bracket} {starts number : Nat}
    {run : Run} (h : run.Orderly arrays loops starts number) {array : String} (item : String)
    {elements : List String} (hfound : arrays.find? array = some elements) {emit : Bool}
    (hemit : emit = true ↔ AllFull loops) :
    (run.entered (Lexeme.loopTag starts) array item elements.length emit).Orderly arrays
      (⟨Lexeme.loopTag starts, elements.length, loops.length + 1⟩ :: loops)
      (starts + 1) number := by
  let loop : Bracket := ⟨Lexeme.loopTag starts, elements.length, loops.length + 1⟩
  have hframed := h.environment.enter loop
  have hdepth : (run.environment.enter loop.frame).depth = loops.length + 1 := hframed.depth
  refine ⟨?_, h.unfinished.push (by simp), hframed, h.number⟩
  unfold Run.entered
  rw [hdepth]
  apply h.journal.push ⟨.loopStarted _ array item _ _ emit, _, _⟩
  · exact ⟨rfl, rfl, by simp [hfound], hemit⟩
  · exact hframed.ids

theorem Run.Orderly.left {arrays : Arrays} {loop : Bracket} {outer : List Bracket}
    {starts number : Nat} {run : Run} (h : run.Orderly arrays (loop :: outer) starts number)
    (hdepth : loop.depth = outer.length + 1) :
    (run.left loop.frame).Orderly arrays outer starts number := by
  have hframed := h.environment.leave
  refine ⟨?_, h.unfinished.push (by simp), hframed, h.number⟩
  apply h.journal.push ⟨.loopEnded _ _, _, _⟩
  · exact ⟨loop, outer, rfl, rfl, by rw [hframed.depth, hdepth]⟩
  · exact hframed.ids

theorem Run.Orderly.finished {arrays : Arrays} {starts number : Nat} {run : Run}
    (h : run.Orderly arrays [] starts number) (offset : Nat) :
    Journal.Nested arrays starts [] (run.note (.renderFinished offset)).journal :=
  h.journal.push ⟨.renderFinished offset, run.cursor.position, run.environment⟩ rfl
    h.environment.ids

theorem Run.Orderly.halted {arrays : Arrays} {loops : List Bracket} {starts number : Nat}
    {run : Run} (h : run.Orderly arrays loops starts number) : run.Halted arrays :=
  ⟨loops, starts, number, h⟩

/-! ## Steps in order -/

namespace Rendering

section Steps

variable {arrays : Arrays} {loops : List Bracket} {starts number : Nat}

theorem scan_orderly (site : Site) :
    (scan site).Meets (Run.Orderly arrays loops starts number)
      (fun token run =>
        (token.kind = .loopBegin → token.text = Lexeme.loopTag number) ∧
          run.Orderly arrays loops starts
            (if token.kind = .loopBegin then number + 1 else number))
      (Run.Halted arrays) := by
  have hscanned {run : Run} (h : run.Orderly arrays loops starts number) :
      (run.scanned site).Orderly arrays loops starts
        (number + Reading.loops run.cursor.scan.1) := by
    have hread : Run.Orderly arrays loops starts (number + Reading.loops run.cursor.scan.1)
        { run with
          cursor := run.cursor.scan.2
          loops := run.loops + Reading.loops run.cursor.scan.1 } :=
      ⟨h.journal, h.unfinished, h.environment, congrArg (· + _) h.number⟩
    apply hread.note <;> cases run.cursor.scan.1 <;> trivial
  apply meets_scan
  · intro run mark hrun hreading
    have horderly := hscanned hrun
    obtain ⟨lexeme, span⟩ := mark
    obtain rfl := hrun.number
    rw [hreading] at horderly
    cases lexeme <;> exact ⟨by simp [Lexeme.token, Lexeme.kind, Lexeme.text], horderly⟩
  · intro run error hrun _
    exact (hscanned hrun).halted

theorem demand_orderly {kind : TokenKind} (hkind : kind ≠ .loopBegin) :
    (demand kind).Meets (Run.Orderly arrays loops starts number)
      (fun _ => Run.Orderly arrays loops starts number) (Run.Halted arrays) := by
  apply meets_demand (scan_orderly .tag)
  · intro token run hkind' hrun
    simpa [hkind', hkind] using hrun.2
  · intro token run _ hrun
    exact hrun.2.halted

theorem write_orderly (piece : String) (hfull : AllFull loops) :
    (write piece).Meets (Run.Orderly arrays loops starts number)
      (fun _ => Run.Orderly arrays loops starts number) (Run.Halted arrays) := by
  apply meets_write
  · intro run hrun _
    have hadded : Run.Orderly arrays loops starts number
        { run with sink := run.sink.add piece } :=
      ⟨hrun.journal, hrun.unfinished, hrun.environment, hrun.number⟩
    exact hadded.note (.wrote piece) hfull rfl
  · intro run hrun _
    exact (hrun.note (.refused piece) hfull rfl).halted

theorem insertValue_orderly (name : String) {emit : Bool}
    (hemit : emit = true ↔ AllFull loops) :
    (insertValue name emit).Meets (Run.Orderly arrays loops starts number)
      (fun _ => Run.Orderly arrays loops starts number) (Run.Halted arrays) := by
  have hclose := (@demand_orderly arrays loops starts number .scriptEnd (by decide)).discard
  apply Meets.of_get
  intro run _
  have hvalue : (resolve (run.environment.value name)).Meets
      (Run.Orderly arrays loops starts number)
      (fun _ => Run.Orderly arrays loops starts number) (Run.Halted arrays) :=
    meets_resolve (fun _ _ _ hrun => hrun) fun _ _ _ hrun => hrun.halted
  apply hvalue.bind
  intro value
  cases emit with
  | false => exact hclose
  | true => exact (write_orderly value (hemit.mp rfl)).bind fun _ => hclose

end Steps

/-! ## Loops in order -/

def BodyOrderly (arrays : Arrays) (blocks : Nat) : Prop :=
  ∀ (loops : List Bracket) (emit : Bool), (emit = true ↔ AllFull loops) →
    (body blocks emit).Meets (Run.Settled arrays loops) (fun _ => Run.Settled arrays loops)
      (Run.Halted arrays)

section Loops

variable {arrays : Arrays} {blocks : Nat} {loop : Bracket} {outer : List Bracket}

theorem round_orderly (hbody : BodyOrderly arrays blocks) {emit : Bool}
    (hemit : emit = true ↔ AllFull (loop :: outer)) (start : Cursor) (item value : String) :
    (round start item (pass (body blocks) emit) value).Meets
      (Run.Settled arrays (loop :: outer)) (fun _ => Run.Settled arrays (loop :: outer))
      (Run.Halted arrays) := by
  intro run hrun
  obtain ⟨starts, hrun⟩ := hrun
  have hready : Run.Orderly arrays (loop :: outer) starts starts
      { run with cursor := start, environment := run.environment.define item value } :=
    ⟨hrun.journal, hrun.unfinished, hrun.environment.define item value, hrun.number⟩
  have hbegun : (run.begun start item value emit).Orderly arrays (loop :: outer) starts starts :=
    hready.note (.passStarted emit) hemit rfl
  have hpass : ((body blocks emit) >>= fun _ => note .passEnded).Meets
      (Run.Settled arrays (loop :: outer)) (fun _ => Run.Settled arrays (loop :: outer))
      (Run.Halted arrays) := by
    apply (hbody _ emit hemit).bind
    intro _
    apply meets_note
    rintro later ⟨starts, hlater⟩
    exact ⟨starts, hlater.note .passEnded trivial rfl⟩
  rw [round_eq]
  exact hpass _ ⟨starts, hbegun⟩

theorem close_orderly (hdepth : loop.depth = outer.length + 1) :
    (close loop.frame).Meets (Run.Settled arrays (loop :: outer))
      (fun _ => Run.Settled arrays outer) (Run.Halted arrays) := by
  rintro run ⟨starts, hrun⟩
  exact ⟨starts, hrun.left hdepth⟩

theorem passes_orderly (hbody : BodyOrderly arrays blocks) (item : String)
    {elements : List String} {emit : Bool} (hcount : loop.count = elements.length)
    (hemit : emit = true ↔ AllFull outer) :
    (passes (pass (body blocks)) item elements emit).Meets (Run.Settled arrays (loop :: outer))
      (fun _ => Run.Settled arrays (loop :: outer)) (Run.Halted arrays) := by
  intro run hrun
  have hfull : AllFull (loop :: outer) ↔ 0 < elements.length ∧ AllFull outer := by
    simp [AllFull, hcount]
  have hsilent (hempty : ¬AllFull (loop :: outer)) := by
    have hemit : false = true ↔ AllFull (loop :: outer) := by simpa using hempty
    exact round_orderly hbody hemit run.cursor item "" run hrun
  cases emit with
  | false => exact hsilent fun h => absurd (hemit.mpr (hfull.mp h).2) (by simp)
  | true =>
      cases elements with
      | nil => exact hsilent fun h => absurd (hfull.mp h).1 (by simp)
      | cons element elements =>
          have hall : AllFull (loop :: outer) := hfull.mpr ⟨by simp, hemit.mp rfl⟩
          exact meets_forM (round_orderly hbody (by simpa using hall) run.cursor item)
            (element :: elements) run hrun

theorem loop_orderly (hbody : BodyOrderly arrays blocks) {emit : Bool}
    (hemit : emit = true ↔ AllFull outer) (starts : Nat) :
    (Rendering.loop (pass (body blocks)) (Lexeme.loopTag starts) emit).Meets
      (Run.Orderly arrays outer starts (starts + 1)) (fun _ => Run.Settled arrays outer)
      (Run.Halted arrays) := by
  unfold Rendering.loop
  apply (demand_orderly (by decide)).bind
  intro array
  apply Meets.of_get
  intro run hrun
  unfold Environment.hasArray
  rw [hrun.environment.array?]
  cases hfound : arrays.find? array.text with
  | none => exact meets_throw fun _ hrun => hrun.halted
  | some elements =>
      apply (demand_orderly (by decide)).bind
      intro item
      apply (demand_orderly (by decide)).discard.bind
      intro _ third hthird
      have hresolved : (third.environment.enter (Lexeme.loopTag starts)).array array.text =
          .ok elements := by
        simp [Environment.array, Environment.array?_enter, hthird.environment.array?, hfound]
      simp only [bind_modify, bind_get, hresolved]
      rw [bind_ok (resolve_ok elements)]
      let loop : Bracket := ⟨Lexeme.loopTag starts, elements.length, outer.length + 1⟩
      have hcount : loop.count = elements.length := rfl
      have hpasses := passes_orderly hbody item.text hcount hemit
      have hentered := hthird.entered item.text hfound hemit
      exact (hpasses.bind fun _ => close_orderly rfl) _ ⟨starts + 1, hentered⟩

end Loops

/-! ## Bodies in order -/

theorem tag_orderly {arrays : Arrays} {blocks : Nat} (hbody : BodyOrderly arrays blocks)
    {loops : List Bracket} {emit : Bool} (hemit : emit = true ↔ AllFull loops) {starts : Nat}
    {token : Token} (htext : token.kind = .loopBegin → token.text = Lexeme.loopTag starts) :
    (tag (body blocks) emit token).Meets
      (Run.Orderly arrays loops starts
        (if token.kind = .loopBegin then starts + 1 else starts))
      (fun _ => Run.Settled arrays loops) (Run.Halted arrays) := by
  have hrest : (body blocks emit).Meets (Run.Orderly arrays loops starts starts)
      (fun _ => Run.Settled arrays loops) (Run.Halted arrays) :=
    fun run hrun => hbody loops emit hemit run ⟨starts, hrun⟩
  obtain ⟨kind, text, span⟩ := token
  cases kind with
  | identifier => exact (insertValue_orderly text hemit).bind fun _ => hrest
  | loopBegin =>
      -- The loop is scanned but has not started, and its number is the one it starts with.
      obtain rfl := htext rfl
      exact (loop_orderly hbody hemit starts).bind fun _ => hbody loops emit hemit
  | loopEnd =>
      apply Meets.of_get
      intro run _
      have hclose := (@demand_orderly arrays loops starts starts .scriptEnd (by decide)).discard
      cases run.environment.atRoot with
      | true => exact meets_throw fun _ hrun => hrun.halted
      | false => exact hclose.after_mono fun _ _ hrun => ⟨starts, hrun⟩
  | _ => exact meets_throw fun _ hrun => hrun.halted

theorem body_orderly (arrays : Arrays) (blocks : Nat) : BodyOrderly arrays blocks := by
  induction blocks with
  | zero => exact fun _ _ _ => meets_pure fun _ hrun => hrun
  | succ blocks ih =>
      rintro loops emit hemit run ⟨starts, hrun⟩
      have hrest : (body blocks emit).Meets (Run.Orderly arrays loops starts starts)
          (fun _ => Run.Settled arrays loops) (Run.Halted arrays) :=
        fun run hrun => ih loops emit hemit run ⟨starts, hrun⟩
      refine (scan_orderly .body).bind_fact (fun token _ => ?_) run hrun
      obtain ⟨kind, text, span⟩ := token
      cases kind with
      | endOfInput => exact meets_pure fun _ hrun => ⟨starts, hrun⟩
      | literal =>
          cases emit with
          | false => exact hrest
          | true => exact (write_orderly text (hemit.mp rfl)).bind fun _ => hrest
      | scriptBegin =>
          apply (scan_orderly .tag).bind_fact
          exact fun token htext => tag_orderly ih hemit htext
      | _ => exact meets_throw fun _ hrun => hrun.halted

/-- If a rendering succeeds then the last it does is to note that it has. -/
theorem template_orderly {arrays : Arrays} {run : Run} (hrun : run.Orderly arrays [] 0 0)
    (template : String) :
    match renderTemplate template run with
    | .ok _ last => ∃ before : Run, before.Settled arrays [] ∧
        last = before.note (.renderFinished before.cursor.position.place.offset)
    | .error _ last => last.Halted arrays := by
  have hstarted : (run.started template.utf8ByteSize).Orderly arrays [] 0 0 := by
    have hnoted := hrun.note (.renderStarted template.utf8ByteSize) trivial rfl
    exact hnoted.note (.passStarted true) (by simp [Event.Fits, AllFull]) rfl
  have hbody := body_orderly arrays (template.length + 1) [] true (by simp [AllFull]) _
    ⟨0, hstarted⟩
  rw [renderTemplate_eq]
  cases hresult : body (template.length + 1) true (run.started template.utf8ByteSize) with
  | ok value later =>
      rw [hresult] at hbody
      obtain ⟨starts, hlater⟩ := hbody
      exact ⟨later.note .passEnded, ⟨starts, hlater.note .passEnded trivial rfl⟩, rfl⟩
  | error error later =>
      rw [hresult] at hbody
      exact hbody

end Rendering

/-! ## Renderings in order -/

theorem Cursor.ahead_of_endOfInput {cursor next : Cursor} {span : Span}
    (hscan : cursor.scan = (.ok (.endOfInput, span), next)) : next.ahead = [] := by
  have hscans := cursor.scan_scans
  rw [hscan] at hscans
  generalize hreading : (Except.ok (Lexeme.endOfInput, span) : Reading) = reading at hscans
  cases hscans with
  | endOfInput => rfl
  | item _ _ _ item => cases item <;> cases hreading
  | owed | opening | lastText | text | stuck => cases hreading

theorem Cursor.On.offset_of_ahead {template : String} {cursor : Cursor}
    (hon : cursor.On template.toList) (hahead : cursor.ahead = []) :
    cursor.position.place.offset = template.utf8ByteSize := by
  obtain ⟨before, htemplate, hplace⟩ := hon
  rw [hahead, List.append_nil] at htemplate
  rw [hplace, Place.offset_start_after, ← htemplate, String.ofList_toList]

theorem Session.start_orderly (values : Values) (arrays : Arrays) (template : String)
    (sink : Sink) :
    ((Session.ofBindings values arrays).start template sink).Orderly arrays [] 0 0 where
  journal := ⟨fun earlier _ _ h => absurd h (by simp [start]), rfl, rfl⟩
  unfinished := by simp [start, Unfinished]
  environment := ⟨.ofBindings values arrays, rfl⟩
  number := rfl

theorem render_inPlace (values : Values) (arrays : Arrays) (template : String) (sink : Sink) :
    InPlace arrays (render values arrays template sink).journal.toList := by
  have horderly := Rendering.template_orderly
    (Session.start_orderly values arrays template sink) template
  rw [Rendering.render_eq_outcomeOf, Rendering.journal_outcomeOf]
  cases hresult : Rendering.renderTemplate template
      ((Session.ofBindings values arrays).start template sink) with
  | ok value last =>
      rw [hresult] at horderly
      obtain ⟨before, ⟨starts, hbefore⟩, rfl⟩ := horderly
      exact (hbefore.finished _).fits
  | error error last =>
      rw [hresult] at horderly
      obtain ⟨loops, starts, number, hlast⟩ := horderly
      exact hlast.journal.fits

/--
In every rendering of a session the events are in place: loops are numbered as
they start and end in the opposite order, and at each moment the environment
has the frames of those that have not ended.  The records are nested in the
same way, at either level.  A rendering notes and records that it has finished
just when it succeeds, at the end of the template and as the last of all, with
no loop open; one that fails leaves its open loops in the session.
-/
theorem renderings_nest_loops (values : Values) (arrays : Arrays)
    (requests : List (String × Sink)) (template : String) (sink : Sink) :
    let session := ((Session.ofBindings values arrays).renderAll requests).2
    let outcome := (session.render template sink).1
    let left := (session.render template sink).2.environment
    let moments := outcome.journal.toList
    (∀ earlier moment later, moments = earlier ++ moment :: later →
      moment.Fits arrays earlier ∧
        Numbered (startsOf (earlier ++ [moment])) (bracketsOf (earlier ++ [moment]))) ∧
      (∀ earlier later level, moments = earlier ++ later →
        Record.Nested arrays (Journal.records earlier.toArray level) (startsOf earlier)
          (bracketsOf earlier)) ∧
      left.ids = (bracketsOf moments).map Bracket.frame ++ ["root"] ∧
      left.depth = (bracketsOf moments).length ∧
      match outcome.result with
      | .ok _ =>
          (∃ earlier last, moments = earlier ++ [last] ∧ Unfinished earlier ∧
            last.event = .renderFinished template.utf8ByteSize ∧ bracketsOf moments = []) ∧
          ∀ level, Record.FinishedAt template.utf8ByteSize (outcome.journal.records level)
      | .error _ =>
          Unfinished moments ∧ ∀ level, Record.Unfinished (outcome.journal.records level) := by
  have hroot : ((Session.ofBindings values arrays).renderAll requests).2.environment.root =
      (Session.ofBindings values arrays).environment.root :=
    (Session.renderAll_rooted rfl requests).1
  have horderly := Rendering.template_orderly
    (Session.start_orderly values arrays template sink) template
  dsimp only
  rw [Session.render_eq_of_root hroot, Session.render_start]
  cases hresult : Rendering.renderTemplate template
      ((Session.ofBindings values arrays).start template sink) with
  | error error last =>
      rw [hresult] at horderly
      obtain ⟨loops, starts, number, hlast⟩ := horderly
      refine ⟨hlast.journal.fits.numbered_at, hlast.journal.fits.recorded_at, ?_, ?_,
        hlast.unfinished, hlast.unfinished.recorded⟩
      · rw [hlast.journal.brackets]
        exact hlast.environment.ids
      · rw [hlast.journal.brackets]
        exact hlast.environment.depth
  | ok value last =>
      rw [hresult] at horderly
      obtain ⟨before, ⟨starts, hbefore⟩, rfl⟩ := horderly
      obtain ⟨outline, hreads⟩ :=
        Rendering.readsAs_of_ok rfl (.ofBindings values arrays) hresult
      obtain ⟨span, hscan⟩ := hreads.scan_after rfl
      have hoffset : before.cursor.position.place.offset = template.utf8ByteSize :=
        (hreads.reaches.on (.ofTemplate template)).offset_of_ahead
          (Cursor.ahead_of_endOfInput hscan)
      rw [hoffset]
      have hnested := hbefore.finished template.utf8ByteSize
      refine ⟨hnested.fits.numbered_at, hnested.fits.recorded_at, ?_, ?_,
        ⟨_, _, Array.toList_push, hbefore.unfinished, rfl, hnested.brackets⟩,
        fun level => ⟨_, hbefore.unfinished.recorded level, ?_⟩⟩
      · rw [hnested.brackets]
        exact hbefore.environment.ids
      · rw [hnested.brackets]
        exact hbefore.environment.depth
      · exact (Journal.records_push ..).trans (by simp [Event.record?])

end Stencil
