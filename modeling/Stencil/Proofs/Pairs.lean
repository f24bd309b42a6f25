import Mathlib.Data.List.Forall2
import Stencil.Proofs.Contracts

/-!
# Pairs of renderings

Two renderings of one template, of which the first has a sink that never
refuses, go the same way step by step until the sink of the second refuses a
piece.  What their names stand for may differ, as long as the environments
stay alike and the pieces written are linked.
-/

namespace Stencil

/-! ## What rendering adds -/

/-- The later state has all that was written and noted before. -/
structure Run.Precedes (run later : Run) : Prop where
  pieces : run.sink.pieces.toList <+: later.sink.pieces.toList
  journal : run.journal.toList <+: later.journal.toList

namespace Run

theorem Precedes.refl (run : Run) : run.Precedes run := ⟨List.prefix_rfl, List.prefix_rfl⟩

theorem Precedes.trans {first second third : Run} (h : first.Precedes second)
    (h' : second.Precedes third) : first.Precedes third :=
  ⟨h.pieces.trans h'.pieces, h.journal.trans h'.journal⟩

theorem precedes_note (run : Run) (event : Event) : run.Precedes (run.note event) :=
  ⟨List.prefix_rfl, by simp [note]⟩

theorem precedes_wrote (run : Run) (piece : String) : run.Precedes (run.wrote piece) :=
  ⟨by simp [wrote, note, Sink.add], by simp [wrote, note]⟩

end Run

namespace Situation

theorem Step.precedes {situation next : Situation} (h : Step situation next) :
    situation.run.Precedes next.run := by
  cases h with
  | start run bytes => exact (run.precedes_note _).trans (Run.precedes_note _ _)
  | move hmove loops =>
      cases hmove with
      | scan site => exact ⟨List.prefix_rfl, by simp [Run.scanned, Run.note]⟩
      | write piece => exact Run.precedes_wrote _ piece
      | refuse piece => exact Run.precedes_note _ _
  | enter => exact ⟨List.prefix_rfl, by simp [Run.entered, Run.note]⟩
  | begin => exact ⟨List.prefix_rfl, by simp [Run.begun, Run.note]⟩
  | passEnded run => exact run.precedes_note _
  | leave => exact ⟨List.prefix_rfl, by simp [Run.left, Run.note]⟩
  | finish run => exact run.precedes_note _

theorem Walk.precedes {situation next : Situation} (h : Walk situation next) :
    situation.run.Precedes next.run := by
  induction h with
  | refl => exact .refl _
  | tail _ hstep ih => exact ih.trans hstep.precedes

end Situation

namespace Rendering

/-- The state a step comes to, whether it fails or not. -/
def stateAfter {α : Type} : EStateM.Result RenderError Run α → Run
  | .ok _ run | .error _ run => run

def Grows {α : Type} (step : Rendering α) : Prop :=
  ∀ run : Run, run.Precedes (stateAfter (step run))

section Grows

variable {α β : Type}

theorem Grows.bind {first : Rendering α} {second : α → Rendering β} (h : Grows first)
    (hsecond : ∀ value, Grows (second value)) : Grows (first >>= second) := by
  intro run
  have hfirst := h run
  cases hresult : first run with
  | ok value later =>
      rw [hresult] at hfirst
      rw [bind_ok hresult]
      exact hfirst.trans (hsecond value later)
  | error error later =>
      rw [hresult] at hfirst
      rw [bind_error hresult]
      exact hfirst

theorem grows_note (event : Event) : Grows (note event) := fun run => run.precedes_note event

theorem grows_close (frame : String) : Grows (close frame) :=
  fun _ => ⟨List.prefix_rfl, by simp [close_eq, stateAfter, Run.left, Run.note]⟩

theorem grows_of_moves {step : Rendering α} (h : ∀ run : Run, run.MovesTo (step run)) :
    Grows step := by
  intro run
  have hmoves := h run
  cases hresult : step run with
  | ok value later | error error later =>
      rw [hresult] at hmoves
      exact (Situation.Walk.of_moves hmoves []).precedes

theorem grows_body (blocks : Nat) (emit : Bool) : Grows (body blocks emit) := by
  intro run
  have hwalks := body_walks blocks emit run []
  cases hresult : body blocks emit run with
  | ok value later =>
      rw [hresult] at hwalks
      exact hwalks.1.precedes
  | error error later =>
      rw [hresult] at hwalks
      obtain ⟨more, hwalk⟩ := hwalks
      exact hwalk.precedes

theorem grows_forM (step : String → Rendering Unit) (h : ∀ element, Grows (step element))
    (elements : List String) : Grows (elements.forM step) := by
  induction elements with
  | nil => exact fun run => .refl run
  | cons element elements ih => exact (h element).bind fun _ => ih

theorem grows_round (start : Cursor) (item : String) (blocks : Nat) (emit : Bool)
    (value : String) : Grows (round start item (pass (body blocks) emit) value) := by
  have hpass : Grows (pass (body blocks) emit) :=
    (grows_note _).bind fun _ => (grows_body blocks emit).bind fun _ => grows_note _
  intro run
  obtain ⟨hpieces, hjournal⟩ := hpass { run with
    cursor := start
    environment := run.environment.define item value }
  exact ⟨hpieces, hjournal⟩

end Grows

/-! ## What rendering comes to -/

/-- A rendering into any sink is a walk, also up to where it fails. -/
theorem template_walk (template : String) (run : Run) :
    ∃ loops,
      Situation.Walk ⟨run, []⟩ ⟨stateAfter (renderTemplate template run), loops⟩ := by
  have hwalks := template_walks template run
  cases hresult : renderTemplate template run with
  | ok value last =>
      rw [hresult] at hwalks
      exact ⟨[], hwalks⟩
  | error error last =>
      rw [hresult] at hwalks
      exact hwalks

def outcomeOf : EStateM.Result RenderError Run Unit → Outcome
  | .ok _ run => ⟨.ok (), run.sink, run.journal⟩
  | .error error run => ⟨.error error, run.sink, run.journal⟩

@[simp] theorem sink_outcomeOf (result : EStateM.Result RenderError Run Unit) :
    (outcomeOf result).sink = (stateAfter result).sink := by
  cases result <;> rfl

@[simp] theorem journal_outcomeOf (result : EStateM.Result RenderError Run Unit) :
    (outcomeOf result).journal = (stateAfter result).journal := by
  cases result <;> rfl

theorem render_eq_outcomeOf (values : Values) (arrays : Arrays) (template : String)
    (sink : Sink) :
    render values arrays template sink =
      outcomeOf
        (renderTemplate template ((Session.ofBindings values arrays).start template sink)) := by
  rw [render, Session.render_start]
  cases renderTemplate template _ <;> rfl

end Rendering

/-! ## States alike -/

/--
Environments that are alike bind the same names, and stay alike in all that a
rendering does to them; what a name stands for in one is linked to what it
stands for in the other.
-/
structure Environment.Pairing (link : String → String → Prop)
    (alike : Environment → Environment → Prop) : Prop where
  refl (text : String) : link text text
  value {first second : Environment} (h : alike first second) (name : String) :
    Option.Rel link (first.value? name) (second.value? name)
  array {first second : Environment} (h : alike first second) (name : String) :
    Option.Rel (List.Forall₂ link) (first.array? name) (second.array? name)
  depth {first second : Environment} (h : alike first second) : first.depth = second.depth
  enter {first second : Environment} (h : alike first second) (id : String) :
    alike (first.enter id) (second.enter id)
  leave {first second : Environment} (h : alike first second) :
    alike first.leave.2 second.leave.2
  define {first second : Environment} (h : alike first second) (name : String)
    {value value' : String} (hvalue : link value value') :
    alike (first.define name value) (second.define name value')

theorem Environment.Pairing.hasArray {link : String → String → Prop}
    {alike : Environment → Environment → Prop} (hpairing : Pairing link alike)
    {first second : Environment} (h : alike first second) (name : String) :
    first.hasArray name = second.hasArray name := by
  have harray := hpairing.array h name
  unfold Environment.hasArray
  generalize first.array? name = array, second.array? name = array' at harray
  cases harray <;> rfl

theorem Environment.Pairing.atRoot {link : String → String → Prop}
    {alike : Environment → Environment → Prop} (hpairing : Pairing link alike)
    {first second : Environment} (h : alike first second) : first.atRoot = second.atRoot := by
  have hdepth := hpairing.depth h
  unfold Environment.depth at hdepth
  unfold Environment.atRoot
  rw [Bool.eq_iff_iff, List.isEmpty_iff_length_eq_zero, List.isEmpty_iff_length_eq_zero, hdepth]

section Pairs

variable (link : String → String → Prop) (alike : Environment → Environment → Prop)

/-- The events are the same, but for what is written. -/
inductive Event.Pair : Event → Event → Prop
  | same (event : Event) : Pair event event
  | wrote {piece piece' : String} (h : link piece piece') : Pair (.wrote piece) (.wrote piece')

structure Moment.Pair (first second : Moment) : Prop where
  event : Event.Pair link first.event second.event
  position : first.position = second.position
  environment : alike first.environment second.environment

/-- The runs are at the same point; the sink of the first never refuses. -/
structure Run.Pair (first second : Run) : Prop where
  cursor : first.cursor = second.cursor
  loops : first.loops = second.loops
  environment : alike first.environment second.environment
  free : first.sink.capacity = none
  pieces : List.Forall₂ link first.sink.pieces.toList second.sink.pieces.toList
  journal : List.Forall₂ (Moment.Pair link alike) first.journal.toList second.journal.toList

/-- The second run was refused what the first wrote, and the first has gone on. -/
def Run.Outruns (first second : Run) : Prop :=
  ∃ (run run' : Run) (piece piece' : String), run.Pair link alike run' ∧ link piece piece' ∧
    run'.sink.accepts = false ∧ second = run'.note (.refused piece') ∧
    (run.wrote piece).Precedes first

/-- Two results of steps that write nothing. -/
inductive Agree {α β : Type} (values : α → β → Prop) :
    EStateM.Result RenderError Run α → EStateM.Result RenderError Run β → Prop
  | ok {first second : Run} {value : α} {value' : β} (hvalue : values value value')
      (hpair : first.Pair link alike second) :
      Agree values (.ok value first) (.ok value' second)
  | error {first second : Run} (error : RenderError) (hpair : first.Pair link alike second) :
      Agree values (.error error first) (.error error second)

/-- Two results, of which the second may be that of a refused write. -/
inductive Pairs {α β : Type} (values : α → β → Prop) :
    EStateM.Result RenderError Run α → EStateM.Result RenderError Run β → Prop
  | agree {result : EStateM.Result RenderError Run α} {result' : EStateM.Result RenderError Run β}
      (h : Agree link alike values result result') : Pairs values result result'
  | refused {result : EStateM.Result RenderError Run α} {second : Run}
      (h : (Rendering.stateAfter result).Outruns link alike second) :
      Pairs values result (.error .refusedWrite second)

end Pairs

section Laws

variable {link : String → String → Prop} {alike : Environment → Environment → Prop}
  {run run' : Run}

theorem Run.Pair.note (h : run.Pair link alike run') (event : Event) :
    (run.note event).Pair link alike (run'.note event) where
  cursor := h.cursor
  loops := h.loops
  environment := h.environment
  free := h.free
  pieces := h.pieces
  journal := by
    have hmoment : Moment.Pair link alike ⟨event, run.cursor.position, run.environment⟩
        ⟨event, run'.cursor.position, run'.environment⟩ :=
      ⟨.same event, congrArg Cursor.position h.cursor, h.environment⟩
    simpa [Run.note] using List.rel_append h.journal (.cons hmoment .nil)

theorem Run.Pair.wrote (h : run.Pair link alike run') {piece piece' : String}
    (hpiece : link piece piece') : (run.wrote piece).Pair link alike (run'.wrote piece') where
  cursor := h.cursor
  loops := h.loops
  environment := h.environment
  free := h.free
  pieces := by
    simpa [Run.wrote, Run.note, Sink.add] using List.rel_append h.pieces (.cons hpiece .nil)
  journal := by
    have hmoment : Moment.Pair link alike ⟨.wrote piece, run.cursor.position, run.environment⟩
        ⟨.wrote piece', run'.cursor.position, run'.environment⟩ :=
      ⟨.wrote hpiece, congrArg Cursor.position h.cursor, h.environment⟩
    simpa [Run.wrote, Run.note] using List.rel_append h.journal (.cons hmoment .nil)

theorem Run.Pair.scanned (h : run.Pair link alike run') (site : Site) :
    (run.scanned site).Pair link alike (run'.scanned site) := by
  have hscanned : Run.Pair link alike
      { run with
        cursor := run.cursor.scan.2
        loops := run.loops + Reading.loops run.cursor.scan.1 }
      { run' with
        cursor := run'.cursor.scan.2
        loops := run'.loops + Reading.loops run'.cursor.scan.1 } :=
    { h with
      cursor := by rw [h.cursor]
      loops := by rw [h.cursor, h.loops] }
  have hnoted := hscanned.note (.ofReading site run.loops run.cursor.scan.1)
  unfold Run.scanned
  rw [← h.cursor, ← h.loops] at hnoted ⊢
  exact hnoted

theorem Run.Pair.at_environment (h : run.Pair link alike run')
    {first second : Environment} (henvironment : alike first second) :
    Run.Pair link alike { run with environment := first } { run' with environment := second } :=
  { h with environment := henvironment }

theorem Run.Outruns.later {middle : Run} (h : run.Outruns link alike run')
    (hlater : run.Precedes middle) : middle.Outruns link alike run' := by
  obtain ⟨before, before', piece, piece', hpair, hpiece, hrefuses, hnote, hprecedes⟩ := h
  exact ⟨before, before', piece, piece', hpair, hpiece, hrefuses, hnote, hprecedes.trans hlater⟩

namespace Rendering

section Bind

variable {α β α' β' : Type} {values : α → β → Prop} {later : α' → β' → Prop}
  {first : Rendering α} {first' : Rendering β} {second : α → Rendering α'}
  {second' : β → Rendering β'}

theorem agree_iff {result : EStateM.Result RenderError Run α}
    {result' : EStateM.Result RenderError Run β} :
    Agree link alike values result result' ↔
      Both values (Run.Pair link alike)
        (fun error error' first second => error = error' ∧ first.Pair link alike second)
        result result' := by
  constructor
  · rintro (⟨hvalue, hpair⟩ | ⟨error, hpair⟩)
    · exact .ok hvalue hpair
    · exact .error ⟨rfl, hpair⟩
  · rintro (⟨hvalue, hpair⟩ | ⟨rfl, hpair⟩)
    · exact .ok hvalue hpair
    · exact .error _ hpair

/-- What holds of results after the same fault, and after the next steps, holds of both steps. -/
theorem Agree.bind_to {related : EStateM.Result RenderError Run α' →
      EStateM.Result RenderError Run β' → Prop}
    (h : Agree link alike values (first run) (first' run'))
    (herror : ∀ error middle middle', middle.Pair link alike middle' →
      related (.error error middle) (.error error middle'))
    (hnext : ∀ value value' middle middle', values value value' →
      middle.Pair link alike middle' →
      related (second value middle) (second' value' middle')) :
    related ((first >>= second) run) ((first' >>= second') run') := by
  apply (agree_iff.mp h).bind_to ?_ hnext
  rintro error _ middle middle' ⟨rfl, hpair⟩
  exact herror error middle middle' hpair

theorem Agree.bind (h : Agree link alike values (first run) (first' run'))
    (hnext : ∀ value value' middle middle', values value value' →
      middle.Pair link alike middle' →
      Agree link alike later (second value middle) (second' value' middle')) :
    Agree link alike later ((first >>= second) run) ((first' >>= second') run') :=
  Agree.bind_to h (fun error _ _ hpair => .error error hpair) hnext

theorem Agree.bind_pairs (h : Agree link alike values (first run) (first' run'))
    (hnext : ∀ value value' middle middle', values value value' →
      middle.Pair link alike middle' →
      Pairs link alike later (second value middle) (second' value' middle')) :
    Pairs link alike later ((first >>= second) run) ((first' >>= second') run') :=
  Agree.bind_to h (fun error _ _ hpair => .agree (.error error hpair)) hnext

/-- After a refused write the first goes on alone, and what it adds is of no concern. -/
theorem Pairs.bind (h : Pairs link alike values (first run) (first' run'))
    (hgrows : ∀ value, Grows (second value))
    (hnext : ∀ value value' middle middle', values value value' →
      middle.Pair link alike middle' →
      Pairs link alike later (second value middle) (second' value' middle')) :
    Pairs link alike later ((first >>= second) run) ((first' >>= second') run') := by
  generalize hresult : first run = result, hresult' : first' run' = result' at h
  cases h with
  | agree h =>
      subst hresult hresult'
      exact Agree.bind_pairs h hnext
  | refused h =>
      rw [bind_error hresult']
      cases result with
      | ok value middle =>
          rw [bind_ok hresult]
          exact .refused (h.later (hgrows value middle))
      | error error middle =>
          rw [bind_error hresult]
          exact .refused h

end Bind

/-- A sink that never refuses keeps the second rendering going. -/
theorem Pairs.agree_of_free {α β : Type} {values : α → β → Prop}
    {result : EStateM.Result RenderError Run α} {result' : EStateM.Result RenderError Run β}
    (h : Pairs link alike values result result')
    (hfree : (stateAfter result').sink.capacity = none) :
    Agree link alike values result result' := by
  cases h with
  | agree h => exact h
  | refused h =>
      obtain ⟨run, run', piece, piece', -, -, hrefuses, rfl, -⟩ := h
      have hcapacity : run'.sink.capacity = none := hfree
      simp [Sink.accepts, hcapacity] at hrefuses

/-! ## Steps in pairs -/

section Steps

variable {α : Type}

theorem scan_agree (h : run.Pair link alike run') (site : Site) :
    Agree link alike Eq (scan site run) (scan site run') := by
  have hscanned := h.scanned site
  rw [scan_eq, scan_eq, ← h.cursor, ← h.loops]
  cases run.cursor.scan.1 with
  | ok mark => exact .ok rfl hscanned
  | error error => exact .error _ hscanned

theorem demand_agree (h : run.Pair link alike run') (kind : TokenKind) :
    Agree link alike Eq (demand kind run) (demand kind run') := by
  apply Agree.bind (scan_agree h .tag)
  rintro token _ middle middle' rfl hpair
  split
  · exact .ok rfl hpair
  · exact .error _ hpair

theorem discard_agree {step step' : Rendering α}
    (h : Agree link alike Eq (step run) (step' run')) :
    Agree link alike Eq (discard step run) (discard step' run') := by
  simp only [discard, Functor.discard, Functor.mapConst, EStateM.map, Function.comp]
  generalize step run = result, step' run' = result' at h
  cases h with
  | ok _ hpair => exact .ok rfl hpair
  | error error hpair => exact .error error hpair

theorem write_pairs (h : run.Pair link alike run') {piece piece' : String}
    (hpiece : link piece piece') :
    Pairs link alike Eq (write piece run) (write piece' run') := by
  have haccepts : run.sink.accepts = true := by simp [Sink.accepts, h.free]
  have hwrite : write piece run = .ok () (run.wrote piece) := by
    unfold write
    simp only [bind_get, haccepts, if_true]
    rfl
  rw [hwrite]
  cases haccepts' : run'.sink.accepts with
  | true =>
      have hwrite' : write piece' run' = .ok () (run'.wrote piece') := by
        unfold write
        simp only [bind_get, haccepts', if_true]
        rfl
      rw [hwrite']
      exact .agree (.ok rfl (h.wrote hpiece))
  | false =>
      have hwrite' : write piece' run' = .error .refusedWrite (run'.note (.refused piece')) := by
        unfold write
        simp only [bind_get, haccepts']
        rfl
      rw [hwrite']
      exact .refused ⟨run, run', piece, piece', h, hpiece, haccepts', rfl, .refl _⟩

end Steps

section Tags

variable (hpairing : Environment.Pairing link alike)

include hpairing

theorem resolve_agree (h : run.Pair link alike run') (name : String) :
    Agree link alike link (resolve (run.environment.value name) run)
      (resolve (run'.environment.value name) run') := by
  have hvalue := hpairing.value h.environment name
  unfold Environment.value
  generalize run.environment.value? name = value, run'.environment.value? name = value' at hvalue
  cases hvalue with
  | none => exact .error _ h
  | some hlink => exact .ok hlink h

theorem resolveArray_agree (h : run.Pair link alike run') (name : String) :
    Agree link alike (List.Forall₂ link) (resolve (run.environment.array name) run)
      (resolve (run'.environment.array name) run') := by
  have harray := hpairing.array h.environment name
  unfold Environment.array
  generalize run.environment.array? name = array, run'.environment.array? name = array' at harray
  cases harray with
  | none => exact .error _ h
  | some hlink => exact .ok hlink h

theorem insertValue_pairs (h : run.Pair link alike run') (name : String) (emit : Bool) :
    Pairs link alike Eq (insertValue name emit run) (insertValue name emit run') := by
  unfold insertValue
  rw [bind_get, bind_get]
  apply Agree.bind_pairs (resolve_agree hpairing h name)
  intro value value' middle middle' hlink hpair
  have hclose {middle middle' : Run} (hpair : middle.Pair link alike middle') :
      Pairs link alike Eq (discard (demand .scriptEnd) middle)
        (discard (demand .scriptEnd) middle') :=
    .agree (discard_agree (demand_agree hpair .scriptEnd))
  cases emit with
  | false => exact hclose hpair
  | true =>
      apply Pairs.bind (write_pairs hpair hlink)
      · exact fun _ => grows_of_moves fun run => discard_moves (demand_moves .scriptEnd run)
      · exact fun _ _ _ _ _ hpair => hclose hpair

end Tags

/-! ## Loops in pairs -/

def BodyPairs (link : String → String → Prop) (alike : Environment → Environment → Prop)
    (blocks : Nat) : Prop :=
  ∀ (emit : Bool) (run run' : Run), run.Pair link alike run' →
    Pairs link alike Eq (body blocks emit run) (body blocks emit run')

section Loops

variable (hpairing : Environment.Pairing link alike) {blocks : Nat}

include hpairing

theorem round_pairs (hbody : BodyPairs link alike blocks) (h : run.Pair link alike run')
    (start : Cursor) (item : String) (emit : Bool) {value value' : String}
    (hvalue : link value value') :
    Pairs link alike Eq (round start item (pass (body blocks) emit) value run)
      (round start item (pass (body blocks) emit) value' run') := by
  have hplaced : Run.Pair link alike
      { run with cursor := start, environment := run.environment.define item value }
      { run' with cursor := start, environment := run'.environment.define item value' } :=
    { h with cursor := rfl, environment := hpairing.define h.environment item hvalue }
  rw [round_eq, round_eq]
  apply Pairs.bind (hbody emit _ _ (hplaced.note (.passStarted emit)))
  · exact fun _ => grows_note _
  · exact fun _ _ _ _ _ hpair => .agree (.ok rfl (hpair.note .passEnded))

theorem forM_pairs (hbody : BodyPairs link alike blocks) (h : run.Pair link alike run')
    (start : Cursor) (item : String) {elements elements' : List String}
    (helements : List.Forall₂ link elements elements') :
    Pairs link alike Eq (elements.forM (round start item (pass (body blocks) true)) run)
      (elements'.forM (round start item (pass (body blocks) true)) run') := by
  induction helements generalizing run run' with
  | nil => exact .agree (.ok rfl h)
  | cons helement _ ih =>
      apply Pairs.bind (round_pairs hpairing hbody h start item true helement)
      · exact fun _ => grows_forM _ (grows_round start item blocks true) _
      · exact fun _ _ _ _ _ hpair => ih hpair

theorem passes_pairs (hbody : BodyPairs link alike blocks) (h : run.Pair link alike run')
    (item : String) (emit : Bool) {elements elements' : List String}
    (helements : List.Forall₂ link elements elements') :
    Pairs link alike Eq (passes (pass (body blocks)) item elements emit run)
      (passes (pass (body blocks)) item elements' emit run') := by
  have hsilent : Pairs link alike Eq
      (round run.cursor item (pass (body blocks) false) "" run)
      (round run'.cursor item (pass (body blocks) false) "" run') :=
    h.cursor ▸ round_pairs hpairing hbody h run'.cursor item false (hpairing.refl "")
  have hpasses : Pairs link alike Eq
      (elements.forM (round run.cursor item (pass (body blocks) true)) run)
      (elements'.forM (round run'.cursor item (pass (body blocks) true)) run') :=
    h.cursor ▸ forM_pairs hpairing hbody h run'.cursor item helements
  cases emit with
  | false => exact hsilent
  | true =>
      cases helements with
      | nil => exact hsilent
      | cons => exact hpasses

theorem close_pairs (h : run.Pair link alike run') (frame : String) :
    Agree link alike Eq (close frame run) (close frame run') := by
  have hleft := (h.at_environment (hpairing.leave h.environment)).note
    (.loopEnded frame run.environment.leave.2.depth)
  have hdepth := hpairing.depth (hpairing.leave h.environment)
  rw [close_eq, close_eq]
  unfold Run.left
  rw [hdepth] at hleft ⊢
  exact .ok rfl hleft

theorem loop_pairs (hbody : BodyPairs link alike blocks) (h : run.Pair link alike run')
    (frame : String) (emit : Bool) :
    Pairs link alike Eq (loop (pass (body blocks)) frame emit run)
      (loop (pass (body blocks)) frame emit run') := by
  unfold loop
  apply Agree.bind_pairs (demand_agree h .identifier)
  rintro array _ first first' rfl hfirst
  rw [bind_get, bind_get, hpairing.hasArray hfirst.environment]
  split
  · exact .agree (.error _ hfirst)
  apply Agree.bind_pairs (demand_agree hfirst .identifier)
  rintro item _ second second' rfl hsecond
  apply Agree.bind_pairs (discard_agree (demand_agree hsecond .scriptEnd))
  rintro _ _ third third' - hthird
  rw [bind_modify, bind_modify, bind_get, bind_get]
  have henter := hpairing.enter hthird.environment frame
  apply Agree.bind_pairs (resolveArray_agree hpairing (hthird.at_environment henter) array.text)
  intro elements elements' inside inside' helements hinside
  rw [helements.length_eq, hpairing.depth henter]
  have hstarted := hinside.note (.loopStarted frame array.text item.text elements'.length
    (third'.environment.enter frame).depth emit)
  apply Pairs.bind (passes_pairs hpairing hbody hstarted item.text emit helements)
  · exact fun _ => grows_close frame
  · exact fun _ _ _ _ _ hpair => .agree (close_pairs hpairing hpair frame)

end Loops

/-! ## Bodies in pairs -/

section Bodies

variable (hpairing : Environment.Pairing link alike) {blocks : Nat}

include hpairing

theorem tag_pairs (hbody : BodyPairs link alike blocks) (h : run.Pair link alike run')
    (emit : Bool) (token : Token) :
    Pairs link alike Eq (tag (body blocks) emit token run) (tag (body blocks) emit token run') := by
  have hrest {middle middle' : Run} (hpair : middle.Pair link alike middle') :=
    hbody emit middle middle' hpair
  obtain ⟨kind, text, span⟩ := token
  cases kind with
  | identifier =>
      apply Pairs.bind (insertValue_pairs hpairing h text emit)
      · exact fun _ => grows_body blocks emit
      · exact fun _ _ _ _ _ hpair => hrest hpair
  | loopBegin =>
      apply Pairs.bind (loop_pairs hpairing hbody h text emit)
      · exact fun _ => grows_body blocks emit
      · exact fun _ _ _ _ _ hpair => hrest hpair
  | loopEnd =>
      simp only [tag, bind_get, hpairing.atRoot h.environment]
      cases run'.environment.atRoot with
      | true => exact .agree (.error _ h)
      | false => exact .agree (discard_agree (demand_agree h .scriptEnd))
  | _ => exact .agree (.error _ h)

theorem body_pairs (blocks : Nat) : BodyPairs link alike blocks := by
  induction blocks with
  | zero => exact fun _ _ _ h => .agree (.ok rfl h)
  | succ blocks ih =>
      intro emit run run' h
      rw [body]
      apply Agree.bind_pairs (scan_agree h .body)
      rintro ⟨kind, text, span⟩ _ middle middle' rfl hpair
      cases kind with
      | endOfInput => exact .agree (.ok rfl hpair)
      | literal =>
          cases emit with
          | false => exact ih false middle middle' hpair
          | true =>
              apply Pairs.bind (write_pairs hpair (hpairing.refl text))
              · exact fun _ => grows_body blocks true
              · exact fun _ _ _ _ _ hpair => ih true _ _ hpair
      | scriptBegin =>
          apply Agree.bind_pairs (scan_agree hpair .tag)
          rintro token _ opened opened' rfl hopened
          exact tag_pairs hpairing ih hopened emit token
      | _ => exact .agree (.error _ hpair)

theorem template_pairs (h : run.Pair link alike run') (template : String) :
    Pairs link alike Eq (renderTemplate template run) (renderTemplate template run') := by
  have hstart := (h.note (.renderStarted template.utf8ByteSize)).note (.passStarted true)
  have hbody := body_pairs hpairing (template.length + 1) true _ _ hstart
  rw [renderTemplate_eq, renderTemplate_eq]
  change Pairs link alike Eq (body _ true (run.started template.utf8ByteSize))
    (body _ true (run'.started template.utf8ByteSize)) at hbody
  generalize body (template.length + 1) true (run.started _) = result,
    body (template.length + 1) true (run'.started _) = result' at hbody
  cases hbody with
  | agree hagree =>
      cases hagree with
      | ok _ hpair =>
          simp only [← hpair.cursor]
          exact .agree (.ok rfl ((hpair.note .passEnded).note (.renderFinished _)))
      | error error hpair => exact .agree (.error error hpair)
  | refused hrefused =>
      cases result with
      | ok value later =>
          apply Pairs.refused
          have hended := hrefused.later (later.precedes_note .passEnded)
          exact hended.later (Run.precedes_note _ _)
      | error error later => exact .refused hrefused

end Bodies

end Rendering

end Laws

/-! ## The same rendering, never refused -/

theorem Environment.Pairing.same : Environment.Pairing Eq Eq where
  refl _ := rfl
  value h name := by
    subst h
    cases Environment.value? _ name <;> constructor
    rfl
  array h name := by
    subst h
    cases Environment.array? _ name <;> constructor
    exact List.forall₂_refl _
  depth h := congrArg Environment.depth h
  enter h _ := h ▸ rfl
  leave h := h ▸ rfl
  define h _ _ _ hvalue := h ▸ hvalue ▸ rfl

/-- The same state, but the sink never refuses from here on. -/
def Run.freed (run : Run) : Run :=
  { run with sink := { run.sink with capacity := none } }

theorem Run.pair_freed (run : Run) : run.freed.Pair Eq Eq run where
  cursor := rfl
  loops := rfl
  environment := rfl
  free := rfl
  pieces := List.forall₂_refl _
  journal := by
    have hmoment (moment : Moment) : Moment.Pair Eq Eq moment moment := ⟨.same _, rfl, rfl⟩
    exact List.forall₂_same.mpr fun moment _ => hmoment moment

/-- A rendering that succeeds, into whatever sink, has come to the end of its outline. -/
theorem Rendering.readsAs_of_ok {values : Values} {arrays : Arrays} {template : String}
    {run last : Run} (hcursor : run.cursor = .ofTemplate template)
    (hholds : run.environment.Holds values arrays [])
    (hok : renderTemplate template run = .ok () last) :
    ∃ outline : Body .input,
      outline.ReadsAs (.ofBindings values arrays) [] (.ofTemplate template) last.cursor := by
  obtain ⟨ending, outline, after, hreads⟩ :=
    Body.exists_readsAs (.ofBindings values arrays) [] (.ofTemplate template)
  have hpairs := template_pairs .same run.pair_freed template
  have hends := body_performs hreads (.ofTemplate template) rfl
    (Cursor.scanBound_ofTemplate_le template) true (run.freed.started template.utf8ByteSize)
    hcursor hholds rfl
  rw [hok, renderTemplate_eq] at hpairs
  cases hresult : body (template.length + 1) true (run.freed.started template.utf8ByteSize) with
  | error error later =>
      rw [hresult] at hpairs
      cases hpairs with
      | agree h => cases h
  | ok value later =>
      rw [hresult] at hpairs hends
      obtain ⟨hverdict, harrives, -⟩ := hends
      cases hpairs with
      | agree h =>
          cases h with
          | ok _ hpair =>
              obtain rfl : after = last.cursor := harrives.cursor.symm.trans hpair.cursor
              have hwhole := outline.verdict_eq_ok_iff.mp hverdict
              cases ending with
              | input => exact ⟨outline, hreads⟩
              | loop => exact absurd rfl (hreads.items_ne_nil rfl)
              | fault => exact absurd rfl hwhole

end Stencil
