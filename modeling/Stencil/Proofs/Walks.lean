import Stencil.Proofs.Execution

/-!
# Walks

A rendering, whatever it renders and into whatever sink, is a walk of small
steps: it scans, writes, or is refused; it enters a loop, begins a pass from
where the body of the loop begins, and leaves the loop.  What every step keeps
holds at each moment of each rendering.
-/

namespace Stencil

/-! ## Moments -/

/-- Each of the moments is as it has to be after those before it. -/
def Throughout (holds : List Moment → Moment → Prop) (moments : List Moment) : Prop :=
  ∀ earlier moment later, moments = earlier ++ moment :: later → holds earlier moment

section Throughout

variable {holds : List Moment → Moment → Prop} {moments : List Moment}

theorem throughout_nil : Throughout holds [] :=
  fun earlier _ _ hsplit => absurd hsplit (by simp)

theorem Throughout.concat (h : Throughout holds moments) {moment : Moment}
    (hmoment : holds moments moment) : Throughout holds (moments ++ [moment]) := by
  intro earlier other later hsplit
  rcases later.eq_nil_or_concat with rfl | ⟨between, last, rfl⟩
  · obtain ⟨rfl, hother⟩ := List.append_inj' hsplit rfl
    obtain rfl : moment = other := by simpa using hother
    exact hmoment
  · rw [List.concat_eq_append, ← List.cons_append, ← List.append_assoc] at hsplit
    exact h earlier other between (List.append_inj' hsplit rfl).1

theorem Throughout.of_append {more : List Moment} (h : Throughout holds (moments ++ more)) :
    Throughout holds moments :=
  fun earlier moment later hsplit => h earlier moment (later ++ more) (by simp [hsplit])

end Throughout

/-! ## Steps -/

def Event.ofReading (site : Site) (number : Nat) : Reading → Event
  | .ok mark => .scanned site (mark.1.token number mark.2)
  | .error error => .scanFailed site error

namespace Run

def note (run : Run) (event : Event) : Run :=
  { run with journal := run.journal.push ⟨event, run.cursor.position, run.environment⟩ }

def scanned (run : Run) (site : Site) : Run :=
  { run with
    cursor := run.cursor.scan.2
    loops := run.loops + Reading.loops run.cursor.scan.1 }.note
      (.ofReading site run.loops run.cursor.scan.1)

def wrote (run : Run) (piece : String) : Run :=
  { run with sink := run.sink.add piece }.note (.wrote piece)

def entered (run : Run) (frame array item : String) (count : Nat) (emit : Bool) : Run :=
  { run with environment := run.environment.enter frame }.note
    (.loopStarted frame array item count (run.environment.enter frame).depth emit)

def started (run : Run) (bytes : Nat) : Run :=
  (run.note (.renderStarted bytes)).note (.passStarted true)

/-- A pass has begun where the body begins, the item standing for the value. -/
def begun (run : Run) (start : Cursor) (item value : String) (emit : Bool) : Run :=
  { run with
    cursor := start
    environment := run.environment.define item value }.note (.passStarted emit)

def left (run : Run) (frame : String) : Run :=
  { run with environment := run.environment.leave.2 }.note
    (.loopEnded frame run.environment.leave.2.depth)

/-- The steps that open no loop and close none. -/
inductive Move : Run → Run → Prop
  | scan (run : Run) (site : Site) : Move run (run.scanned site)
  | write (run : Run) (piece : String) (haccepts : run.sink.accepts) : Move run (run.wrote piece)
  | refuse (run : Run) (piece : String) (hrefuses : run.sink.accepts = false) :
      Move run (run.note (.refused piece))

def Moves : Run → Run → Prop := Relation.ReflTransGen Move

end Run

/-- Where the body of a loop under way begins, and how many passes over it have begun. -/
structure OpenLoop where
  start : Cursor
  passes : Nat

/-- A rendering under way, and the loops that it is in, the innermost first. -/
structure Situation where
  run : Run
  loops : List OpenLoop

namespace Situation

inductive Step : Situation → Situation → Prop
  | start (run : Run) (bytes : Nat) :
      Step ⟨run, []⟩ ⟨run.started bytes, []⟩
  | move {run later : Run} (hmove : run.Move later) (loops : List OpenLoop) :
      Step ⟨run, loops⟩ ⟨later, loops⟩
  | enter (run : Run) (frame array item : String) (elements : List String) (emit : Bool)
      (helements : run.environment.array? array = some elements) (loops : List OpenLoop) :
      Step ⟨run, loops⟩
        ⟨run.entered frame array item elements.length emit, ⟨run.cursor, 0⟩ :: loops⟩
  | begin (run : Run) (start : Cursor) (passes : Nat) (item value : String) (emit : Bool)
      (loops : List OpenLoop) :
      Step ⟨run, ⟨start, passes⟩ :: loops⟩
        ⟨run.begun start item value emit, ⟨start, passes + 1⟩ :: loops⟩
  | passEnded (run : Run) (loops : List OpenLoop) :
      Step ⟨run, loops⟩ ⟨run.note .passEnded, loops⟩
  | leave (run : Run) (frame : String) (loop : OpenLoop) (loops : List OpenLoop) :
      Step ⟨run, loop :: loops⟩ ⟨run.left frame, loops⟩
  | finish (run : Run) (offset : Nat) :
      Step ⟨run, []⟩ ⟨run.note (.renderFinished offset), []⟩

def Walk : Situation → Situation → Prop := Relation.ReflTransGen Step

theorem Walk.of_moves {run later : Run} (h : run.Moves later) (loops : List OpenLoop) :
    Walk ⟨run, loops⟩ ⟨later, loops⟩ := by
  induction h with
  | refl => exact .refl
  | tail _ hmove ih => exact ih.tail (.move hmove loops)

theorem Walk.keeps {invariant : Situation → Prop}
    (hstep : ∀ situation next, Step situation next → invariant situation → invariant next)
    {situation later : Situation} (h : Walk situation later) (hstart : invariant situation) :
    invariant later := by
  induction h with
  | refl => exact hstart
  | tail _ hnext ih => exact hstep _ _ hnext ih

end Situation

namespace Run

theorem Move.environment {run later : Run} (h : run.Move later) :
    later.environment = run.environment := by
  cases h <;> rfl

theorem Move.scanBound_le {run later : Run} (h : run.Move later) :
    later.cursor.scanBound ≤ run.cursor.scanBound := by
  cases h with
  | scan site => exact Cursor.scanBound_scan_le _
  | write | refuse => exact Nat.le_refl _

theorem Moves.environment {run later : Run} (h : run.Moves later) :
    later.environment = run.environment := by
  induction h with
  | refl => rfl
  | tail _ hmove ih => exact hmove.environment.trans ih

theorem Moves.scanBound_le {run later : Run} (h : run.Moves later) :
    later.cursor.scanBound ≤ run.cursor.scanBound := by
  induction h with
  | refl => exact Nat.le_refl _
  | tail _ hmove ih => exact Nat.le_trans hmove.scanBound_le ih

/-- The run only moves, and comes to the result. -/
def MovesTo {α : Type} (run : Run) : EStateM.Result RenderError Run α → Prop
  | .ok _ later | .error _ later => run.Moves later

theorem MovesTo.bind {α β : Type} {run : Run} {first : Rendering α}
    {second : α → Rendering β} (h : run.MovesTo (first run))
    (hsecond : ∀ value later, first run = .ok value later → later.MovesTo (second value later)) :
    run.MovesTo ((first >>= second) run) := by
  cases hfirst : first run with
  | ok value later =>
      rw [hfirst] at h
      rw [Rendering.bind_ok hfirst]
      have hlater := hsecond value later hfirst
      cases hresult : second value later with
      | ok result last =>
          rw [hresult] at hlater
          exact h.trans hlater
      | error error last =>
          rw [hresult] at hlater
          exact h.trans hlater
  | error error later =>
      rw [hfirst] at h
      rw [Rendering.bind_error hfirst]
      exact h

end Run

/-- The run walks to the result; unless it fails it has left all loops that it has entered. -/
def Run.WalksTo (run : Run) (loops : List OpenLoop) :
    EStateM.Result RenderError Run Unit → Prop
  | .ok _ later => Situation.Walk ⟨run, loops⟩ ⟨later, loops⟩ ∧
      later.environment = run.environment ∧ later.cursor.scanBound ≤ run.cursor.scanBound
  | .error _ later => ∃ more, Situation.Walk ⟨run, loops⟩ ⟨later, more ++ loops⟩

theorem Run.Moves.walksTo {run later : Run} (h : run.Moves later) (loops : List OpenLoop) :
    run.WalksTo loops (.ok () later) :=
  ⟨.of_moves h loops, h.environment, h.scanBound_le⟩

namespace Rendering

/-! ## Blocks as moves -/

section Moves

variable {run : Run}

theorem scan_eq (site : Site) (run : Run) :
    scan site run =
      match run.cursor.scan.1 with
      | .ok mark => .ok (mark.1.token run.loops mark.2) (run.scanned site)
      | .error error => .error (.lexical error) (run.scanned site) := by
  unfold scan
  simp only [bind_get, bind_set, Cursor.next_eq, Run.scanned]
  cases run.cursor.scan.1 <;> rfl

theorem scan_moves (site : Site) (run : Run) : run.MovesTo (scan site run) := by
  have hmoves : run.Moves (run.scanned site) := .single (.scan run site)
  rw [scan_eq]
  cases run.cursor.scan.1 <;> exact hmoves

theorem write_moves (piece : String) (run : Run) : run.MovesTo (write piece run) := by
  unfold write
  simp only [bind_get]
  cases haccepts : run.sink.accepts with
  | true => exact .single (.write run piece haccepts)
  | false => exact .single (.refuse run piece haccepts)

theorem demand_moves (kind : TokenKind) (run : Run) : run.MovesTo (demand kind run) := by
  apply (scan_moves .tag run).bind
  intro token later _
  split <;> exact .refl

theorem discard_moves {α : Type} {action : Rendering α} (h : run.MovesTo (action run)) :
    run.MovesTo (discard action run) := by
  simp only [discard, Functor.discard, Functor.mapConst, EStateM.map, Function.comp]
  cases hresult : action run <;> rw [hresult] at h <;> exact h

theorem resolve_moves {α : Type} (found : Except NameError α) (run : Run) :
    run.MovesTo (resolve found run) := by
  cases found <;> exact .refl

theorem insertValue_moves (name : String) (emit : Bool) (run : Run) :
    run.MovesTo (insertValue name emit run) := by
  unfold insertValue
  rw [bind_get]
  apply (resolve_moves _ run).bind
  intro value later _
  cases emit with
  | false => exact discard_moves (demand_moves .scriptEnd later)
  | true =>
      apply (write_moves value later).bind
      intro _ written _
      exact discard_moves (demand_moves .scriptEnd written)

end Moves

/-- What a body does with its next block, behind which less than the bound is left to scan. -/
inductive NextBlock (blocks : Nat) (emit : Bool) (bound : Nat) (run : Run) :
    EStateM.Result RenderError Run Unit → Prop
  | ends {result : EStateM.Result RenderError Run Unit} (hmoves : run.MovesTo result) :
      NextBlock blocks emit bound run result
  | goesOn {middle : Run} (hmoves : run.Moves middle) (hlt : middle.cursor.scanBound < bound) :
      NextBlock blocks emit bound run (body blocks emit middle)
  | loops {middle : Run} (frame : String) (hmoves : run.Moves middle)
      (hlt : middle.cursor.scanBound < bound) :
      NextBlock blocks emit bound run
        ((loop (pass (body blocks)) frame emit >>= fun _ => body blocks emit) middle)

section NextBlock

variable {blocks bound : Nat} {emit : Bool} {run scanned : Run}
  {result : EStateM.Result RenderError Run Unit}

theorem NextBlock.after (hmoves : run.Moves scanned)
    (h : NextBlock blocks emit bound scanned result) : NextBlock blocks emit bound run result := by
  cases h with
  | ends hmoves' =>
      apply NextBlock.ends
      cases result <;> exact hmoves.trans hmoves'
  | goesOn hmoves' hlt => exact .goesOn (hmoves.trans hmoves') hlt
  | loops frame hmoves' hlt => exact .loops frame (hmoves.trans hmoves') hlt

theorem goesOn_of_moves {action : Rendering Unit} (hmoves : run.MovesTo (action run))
    (hlt : run.cursor.scanBound < bound) :
    NextBlock blocks emit bound run ((action >>= fun _ => body blocks emit) run) := by
  cases haction : action run with
  | ok value later =>
      rw [haction] at hmoves
      rw [bind_ok haction]
      exact .goesOn hmoves (Nat.lt_of_le_of_lt hmoves.scanBound_le hlt)
  | error error later =>
      rw [haction] at hmoves
      rw [bind_error haction]
      exact .ends hmoves

theorem tag_next (blocks : Nat) (emit : Bool) (token : Token)
    (hlt : run.cursor.scanBound < bound) :
    NextBlock blocks emit bound run (tag (body blocks) emit token run) := by
  obtain ⟨kind, text, span⟩ := token
  cases kind with
  | identifier => exact goesOn_of_moves (insertValue_moves text emit run) hlt
  | loopBegin => exact .loops text .refl hlt
  | loopEnd =>
      apply NextBlock.ends
      cases hroot : run.environment.atRoot with
      | true =>
          simp only [tag, bind_get, hroot]
          exact .refl
      | false =>
          simp only [tag, bind_get, hroot]
          exact discard_moves (demand_moves .scriptEnd run)
  | _ => exact .ends .refl

theorem body_next (blocks : Nat) (emit : Bool) (run : Run) :
    NextBlock blocks emit run.cursor.scanBound run (body (blocks + 1) emit run) := by
  have hscanned : run.Moves (run.scanned .body) := .single (.scan run .body)
  have hscan := scan_eq .body run
  cases hreading : run.cursor.scan.1 with
  | error error =>
      rw [hreading] at hscan
      rw [body, block, bind_error hscan]
      exact .ends hscanned
  | ok mark =>
      rw [hreading] at hscan
      rw [body, block, bind_ok hscan]
      apply NextBlock.after hscanned
      have hlt (hend : mark.1 ≠ .endOfInput) :
          (run.scanned .body).cursor.scanBound < run.cursor.scanBound :=
        Cursor.scanBound_scan_lt (by simpa [hreading, Reading.isLast] using hend)
      generalize run.scanned .body = middle at hlt
      obtain ⟨lexeme, span⟩ := mark
      cases lexeme with
      | literal text =>
          have hlt := hlt (by simp)
          cases emit with
          | false => exact .goesOn .refl hlt
          | true => exact goesOn_of_moves (write_moves text middle) hlt
      | scriptBegin =>
          have hlt := hlt (by simp)
          change NextBlock blocks emit _ middle ((scan .tag >>= tag (body blocks) emit) middle)
          have hopened : middle.Moves (middle.scanned .tag) := .single (.scan middle .tag)
          have hscan := scan_eq .tag middle
          cases hreading : middle.cursor.scan.1 with
          | error error =>
              rw [hreading] at hscan
              rw [bind_error hscan]
              exact .ends hopened
          | ok mark =>
              rw [hreading] at hscan
              rw [bind_ok hscan]
              apply NextBlock.after hopened
              exact tag_next blocks emit _ (Nat.lt_of_le_of_lt hopened.scanBound_le hlt)
      | _ => exact .ends .refl

end NextBlock

/-! ## Loops as walks -/

def close (frame : String) : Rendering Unit := do
  modify fun run => { run with environment := run.environment.leave.2 }
  note (.loopEnded frame (← get).environment.depth)

theorem close_eq (frame : String) (run : Run) : close frame run = .ok () (run.left frame) := rfl

/-- A loop stops in its header, or the passes over its body begin. -/
inductive Header (body : Bool → Rendering Unit) (frame : String) (emit : Bool) (run : Run) :
    EStateM.Result RenderError Run Unit → Prop
  | stops {later : Run} (error : RenderError) (hmoves : run.Moves later) :
      Header body frame emit run (.error error later)
  | opens {middle : Run} (array item : String) (elements : List String)
      (hmoves : run.Moves middle) (helements : middle.environment.array? array = some elements) :
      Header body frame emit run
        ((passes body item elements emit >>= fun _ => close frame)
          (middle.entered frame array item elements.length emit))

section Header

variable {body : Bool → Rendering Unit} {frame : String} {emit : Bool} {run : Run}

theorem Header.bind {α : Type} {first : Rendering α} {second : α → Rendering Unit}
    (hfirst : run.MovesTo (first run))
    (hsecond : ∀ value later, first run = .ok value later →
      Header body frame emit later (second value later)) :
    Header body frame emit run ((first >>= second) run) := by
  cases hresult : first run with
  | ok value later =>
      rw [hresult] at hfirst
      rw [bind_ok hresult]
      have hlater := hsecond value later hresult
      generalize second value later = result at hlater
      cases hlater with
      | stops error hmoves => exact .stops error (hfirst.trans hmoves)
      | opens array item elements hmoves helements =>
          exact .opens array item elements (hfirst.trans hmoves) helements
  | error error later =>
      rw [hresult] at hfirst
      rw [bind_error hresult]
      exact .stops error hfirst

theorem loop_header (body : Bool → Rendering Unit) (frame : String) (emit : Bool) (run : Run) :
    Header body frame emit run (loop body frame emit run) := by
  unfold loop
  apply Header.bind (demand_moves .identifier run)
  intro array first _
  cases harray : first.environment.array? array.text with
  | none =>
      have hhas : first.environment.hasArray array.text = false := by
        simp [Environment.hasArray, harray]
      simp only [bind_get, hhas]
      exact .stops _ .refl
  | some elements =>
      have hhas : first.environment.hasArray array.text = true := by
        simp [Environment.hasArray, harray]
      simp only [bind_get, hhas, Bool.not_true, Bool.false_eq_true, if_false]
      have hsecond := demand_moves .identifier first
      apply Header.bind hsecond
      intro item second hitem
      rw [hitem] at hsecond
      have hthird := discard_moves (demand_moves .scriptEnd second)
      apply Header.bind hthird
      intro _ third hclose
      rw [hclose] at hthird
      -- The tokens that follow bind nothing, and no array is bound in the frame of a loop.
      have hfound : third.environment.array? array.text = some elements := by
        rw [hthird.environment, hsecond.environment, harray]
      have hresolved : (third.environment.enter frame).array array.text = .ok elements := by
        simp [Environment.array, Environment.array?_enter, hfound]
      simp only [bind_modify, bind_get, hresolved]
      rw [bind_ok (resolve_ok elements)]
      exact .opens array.text item.text elements .refl hfound

end Header

def Walks (body : Bool → Rendering Unit) : Prop :=
  ∀ (emit : Bool) (run : Run) (loops : List OpenLoop), run.WalksTo loops (body emit run)

section Walks

variable {run middle : Run} {loops : List OpenLoop} {body : Bool → Rendering Unit}
  {outer : Environment} {item : String}

open Situation (Walk)

theorem walksTo_of_moves {result : EStateM.Result RenderError Run Unit}
    (h : run.MovesTo result) (loops : List OpenLoop) : run.WalksTo loops result := by
  cases result with
  | ok value later => exact Run.Moves.walksTo h loops
  | error error later => exact ⟨[], .of_moves h loops⟩

theorem entered_walk (hmoves : run.Moves middle) {array : String} {elements : List String}
    (helements : middle.environment.array? array = some elements) (frame item : String)
    (emit : Bool) (loops : List OpenLoop) :
    Walk ⟨run, loops⟩ ⟨middle.entered frame array item elements.length emit,
      ⟨middle.cursor, 0⟩ :: loops⟩ :=
  (Walk.of_moves hmoves loops).tail
    (.enter middle frame array item elements emit helements loops)

/-- The loop at whose body the passes are made stays open, with more passes than before. -/
def PassesWalk (run : Run) (start : Cursor) (count : Nat) (loops : List OpenLoop)
    (outer : Environment) (item : String) : EStateM.Result RenderError Run Unit → Prop
  | .ok _ later => ∃ more, Walk ⟨run, ⟨start, count⟩ :: loops⟩ ⟨later, ⟨start, more⟩ :: loops⟩ ∧
      outer.Inside item later.environment ∧ later.cursor.scanBound ≤ start.scanBound
  | .error _ later => ∃ more inner, Walk ⟨run, ⟨start, count⟩ :: loops⟩
      ⟨later, inner ++ ⟨start, more⟩ :: loops⟩

theorem PassesWalk.after {start : Cursor} {count more : Nat}
    {result : EStateM.Result RenderError Run Unit}
    (hwalk : Walk ⟨run, ⟨start, count⟩ :: loops⟩ ⟨middle, ⟨start, more⟩ :: loops⟩)
    (h : PassesWalk middle start more loops outer item result) :
    PassesWalk run start count loops outer item result := by
  cases result with
  | ok value later =>
      obtain ⟨total, hlater, hrest⟩ := h
      exact ⟨total, hwalk.trans hlater, hrest⟩
  | error error later =>
      obtain ⟨total, inner, hlater⟩ := h
      exact ⟨total, inner, hwalk.trans hlater⟩

theorem round_eq (start : Cursor) (item value : String) (emit : Bool) (run : Run) :
    round start item (pass body emit) value run =
      (body emit >>= fun _ => note .passEnded) (run.begun start item value emit) := rfl

theorem round_walks (hbody : Walks body)
    (hinside : outer.Inside item run.environment) (start : Cursor) (value : String) (emit : Bool)
    (count : Nat) (loops : List OpenLoop) :
    PassesWalk run start count loops outer item
      (round start item (pass body emit) value run) := by
  have hbegin := Situation.Step.begin run start count item value emit loops
  have hwalks := hbody emit (run.begun start item value emit) (⟨start, count + 1⟩ :: loops)
  rw [round_eq]
  cases hresult : body emit (run.begun start item value emit) with
  | ok result later =>
      rw [hresult] at hwalks
      obtain ⟨hwalk, henvironment, hle⟩ := hwalks
      rw [bind_ok hresult]
      refine ⟨count + 1, ?_, ?_, hle⟩
      · exact (hwalk.head hbegin).tail (.passEnded later _)
      · change outer.Inside item later.environment
        rw [henvironment]
        exact hinside.define value
  | error error later =>
      rw [hresult] at hwalks
      obtain ⟨inner, hwalk⟩ := hwalks
      rw [bind_error hresult]
      exact ⟨count + 1, inner, hwalk.head hbegin⟩

theorem forM_walks (hbody : Walks body)
    (start : Cursor) (elements : List String) (count : Nat) (loops : List OpenLoop)
    (hinside : outer.Inside item run.environment)
    (hle : elements = [] → run.cursor.scanBound ≤ start.scanBound) :
    PassesWalk run start count loops outer item
      (elements.forM (round start item (pass body true)) run) := by
  induction elements generalizing run count with
  | nil => exact ⟨count, .refl, hinside, hle rfl⟩
  | cons element elements ih =>
      have hround := round_walks hbody hinside start element true count loops
      change PassesWalk run start count loops outer item
        ((round start item (pass body true) element >>= fun _ => elements.forM _) run)
      cases hresult : round start item (pass body true) element run with
      | ok result middle =>
          rw [hresult] at hround
          obtain ⟨more, hwalk, hinside, hle⟩ := hround
          rw [bind_ok hresult]
          exact (ih more hinside fun _ => hle).after hwalk
      | error error later =>
          rw [hresult] at hround
          rw [bind_error hresult]
          exact hround

theorem passes_walks (hbody : Walks body)
    (hinside : outer.Inside item run.environment) (elements : List String) (emit : Bool)
    (loops : List OpenLoop) :
    PassesWalk run run.cursor 0 loops outer item
      (passes (pass body) item elements emit run) := by
  have hsilent := round_walks hbody hinside run.cursor "" false 0 loops
  cases emit with
  | false => exact hsilent
  | true =>
      cases elements with
      | nil => exact hsilent
      | cons element elements =>
          exact forM_walks hbody run.cursor (element :: elements) 0 loops hinside (by simp)

theorem loop_walks (hbody : Walks body)
    (frame : String) (emit : Bool) (run : Run) (loops : List OpenLoop) :
    run.WalksTo loops (loop (pass body) frame emit run) := by
  have hheader := loop_header (pass body) frame emit run
  generalize loop (pass body) frame emit run = result at hheader
  cases hheader with
  | stops error hmoves => exact ⟨[], .of_moves hmoves loops⟩
  | @opens middle array item elements hmoves helements =>
      let inside := middle.entered frame array item elements.length emit
      have hentered := entered_walk hmoves helements frame item emit loops
      have hpasses : PassesWalk inside middle.cursor 0 loops middle.environment item
          (passes (pass body) item elements emit inside) :=
        passes_walks hbody (middle.environment.inside_enter frame item) elements emit loops
      change run.WalksTo loops ((passes (pass body) item elements emit >>= _) inside)
      cases hresult : passes (pass body) item elements emit inside with
      | ok value later =>
          rw [hresult] at hpasses
          obtain ⟨count, hwalk, hinside, hle⟩ := hpasses
          rw [bind_ok hresult, close_eq]
          refine ⟨?_, ?_, ?_⟩
          · exact (hentered.trans hwalk).tail (.leave later frame _ loops)
          · change later.environment.leave.2 = _
            rw [hinside.leave, hmoves.environment]
          · exact Nat.le_trans hle hmoves.scanBound_le
      | error error later =>
          rw [hresult] at hpasses
          obtain ⟨count, inner, hwalk⟩ := hpasses
          rw [bind_error hresult]
          refine ⟨inner ++ [⟨middle.cursor, count⟩], ?_⟩
          rw [List.append_assoc]
          exact hentered.trans hwalk

end Walks

theorem WalksTo.after {run middle : Run} {loops : List OpenLoop}
    {result : EStateM.Result RenderError Run Unit}
    (hmiddle : run.WalksTo loops (.ok () middle)) (h : middle.WalksTo loops result) :
    run.WalksTo loops result := by
  obtain ⟨hwalk, henvironment, hle⟩ := hmiddle
  cases result with
  | ok value later =>
      obtain ⟨hlater, henvironment', hle'⟩ := h
      exact ⟨hwalk.trans hlater, henvironment'.trans henvironment, Nat.le_trans hle' hle⟩
  | error error later =>
      obtain ⟨more, hlater⟩ := h
      exact ⟨more, hwalk.trans hlater⟩

theorem body_walks (blocks : Nat) : Walks (body blocks) := by
  induction blocks with
  | zero => exact fun emit run loops => ⟨.refl, rfl, Nat.le_refl _⟩
  | succ blocks ih =>
      intro emit run loops
      have hnext := body_next blocks emit run
      generalize body (blocks + 1) emit run = result at hnext
      cases hnext with
      | ends hmoves => exact walksTo_of_moves hmoves loops
      | @goesOn middle hmoves _ =>
          exact WalksTo.after (hmoves.walksTo loops) (ih emit middle loops)
      | @loops middle frame hmoves _ =>
          have hloop := loop_walks ih frame emit middle loops
          apply WalksTo.after (hmoves.walksTo loops)
          cases hresult : loop (pass (body blocks)) frame emit middle with
          | ok value later =>
              rw [hresult] at hloop
              rw [bind_ok hresult]
              exact WalksTo.after hloop (ih emit later loops)
          | error error later =>
              rw [hresult] at hloop
              rw [bind_error hresult]
              exact hloop

theorem renderTemplate_eq (template : String) (run : Run) :
    renderTemplate template run =
      match body (template.length + 1) true (run.started template.utf8ByteSize) with
      | .ok _ later =>
          .ok () ((later.note .passEnded).note (.renderFinished later.cursor.position.place.offset))
      | .error error later => .error error later := by
  have hrun : renderTemplate template run =
      (pass (body (template.length + 1)) true >>= fun _ => do
        note (.renderFinished (← get).cursor.position.place.offset))
          (run.note (.renderStarted template.utf8ByteSize)) := rfl
  have hpass : pass (body (template.length + 1)) true
      (run.note (.renderStarted template.utf8ByteSize)) =
        (body (template.length + 1) true >>= fun _ => note .passEnded)
          (run.started template.utf8ByteSize) := rfl
  rw [hrun]
  cases hresult : body (template.length + 1) true (run.started template.utf8ByteSize) with
  | ok value later =>
      rw [bind_ok hresult] at hpass
      exact bind_ok hpass
  | error error later =>
      rw [bind_error hresult] at hpass
      exact bind_error hpass

theorem template_walks (template : String) (run : Run) :
    match renderTemplate template run with
    | .ok _ later => Situation.Walk ⟨run, []⟩ ⟨later, []⟩
    | .error _ later => ∃ loops, Situation.Walk ⟨run, []⟩ ⟨later, loops⟩ := by
  have hstart := Situation.Step.start run template.utf8ByteSize
  have hbody :=
    body_walks (template.length + 1) true (run.started template.utf8ByteSize) []
  rw [renderTemplate_eq]
  cases hresult : body (template.length + 1) true (run.started template.utf8ByteSize) with
  | ok value later =>
      rw [hresult] at hbody
      exact ((hbody.1.head hstart).tail (.passEnded later [])).tail (.finish _ _)
  | error error later =>
      rw [hresult] at hbody
      obtain ⟨loops, hwalk⟩ := hbody
      rw [List.append_nil] at hwalk
      exact ⟨loops, hwalk.head hstart⟩

end Rendering

/-! ## Renderings as walks -/

namespace Session

def start (session : Session) (template : String) (sink : Sink) : Run :=
  ⟨.ofTemplate template, 0, session.environment.reset, sink, #[]⟩

theorem render_start (session : Session) (template : String) (sink : Sink) :
    session.render template sink =
      match Rendering.renderTemplate template (session.start template sink) with
      | .ok _ run => (⟨.ok (), run.sink, run.journal⟩, ⟨run.environment⟩)
      | .error error run => (⟨.error error, run.sink, run.journal⟩, ⟨run.environment⟩) := rfl

/-- A rendering walks to what it leaves, and is in no loop there unless it has failed. -/
theorem render_walks (session : Session) (template : String) (sink : Sink) :
    ∃ last loops, Situation.Walk ⟨session.start template sink, []⟩ ⟨last, loops⟩ ∧
      (session.render template sink).1.sink = last.sink ∧
      (session.render template sink).1.journal = last.journal ∧
      (session.render template sink).2.environment = last.environment ∧
      ((session.render template sink).1.result = .ok () → loops = []) := by
  have hwalks := Rendering.template_walks template (session.start template sink)
  rw [render_start]
  cases hresult : Rendering.renderTemplate template (session.start template sink) with
  | ok value last =>
      rw [hresult] at hwalks
      exact ⟨last, [], hwalks, rfl, rfl, rfl, fun _ => rfl⟩
  | error error last =>
      rw [hresult] at hwalks
      obtain ⟨loops, hwalk⟩ := hwalks
      exact ⟨last, loops, hwalk, rfl, rfl, rfl, nofun⟩

end Session

/-- What a sink held before a rendering it holds after it. -/
theorem render_before (values : Values) (arrays : Arrays) (template : String) (sink : Sink) :
    (render values arrays template sink).sink.before = sink.before := by
  obtain ⟨last, loops, hwalk, hsink, -⟩ :=
    (Session.ofBindings values arrays).render_walks template sink
  have hkeeps (situation next : Situation) (hstep : situation.Step next)
      (hbefore : situation.run.sink.before = sink.before) :
      next.run.sink.before = sink.before := by
    cases hstep with
    | move hmove => cases hmove <;> exact hbefore
    | _ => exact hbefore
  rw [render, hsink]
  exact hwalk.keeps hkeeps rfl

end Stencil
