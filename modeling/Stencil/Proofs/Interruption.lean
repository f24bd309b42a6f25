import Stencil.Proofs.Evaluation
import Stencil.Proofs.Sessions

/-!
# Interruption

A rendering that fails has written what comes before its fault, and of each
loop around the fault the first pass only: a body that is passed over once
without a fault is passed over so for every element.
-/

namespace Stencil

/-! ## Open loops in a journal -/

/-- The passes that have begun over the bodies of the open loops, the innermost first. -/
def Event.openLoops (loops : List Nat) : Event → List Nat
  | .loopStarted .. => 0 :: loops
  | .loopEnded .. => loops.tail
  | .passStarted _ =>
      match loops with
      | [] => []
      | passes :: outer => (passes + 1) :: outer
  | _ => loops

def Journal.openLoops (journal : Journal) : List Nat :=
  journal.foldl (fun loops moment => moment.event.openLoops loops) []

@[simp] theorem Journal.openLoops_push (journal : Journal) (moment : Moment) :
    openLoops (journal.push moment) = moment.event.openLoops (openLoops journal) :=
  Array.foldl_push ..

namespace Situation

variable {situation next : Situation}

/-- The journal tells how many passes over each body have begun. -/
def Counted (situation : Situation) : Prop :=
  situation.run.journal.openLoops = situation.loops.map OpenLoop.passes

theorem Step.counted (h : Step situation next) (hcounted : situation.Counted) : next.Counted := by
  unfold Counted at hcounted ⊢
  cases h with
  | start => simp [Run.started, Run.note, Event.openLoops, hcounted]
  | @move run _ hmove loops =>
      cases hmove with
      | scan site =>
          cases hreading : run.cursor.scan.1 <;>
            simp [Run.scanned, Run.note, Event.ofReading, Event.openLoops, hreading, hcounted]
      | write | refuse => simp [Run.wrote, Run.note, Event.openLoops, hcounted]
  | enter => simp [Run.entered, Run.note, Event.openLoops, hcounted]
  | begin => simp [Run.begun, Run.note, Event.openLoops, hcounted]
  | passEnded => simp [Run.note, Event.openLoops, hcounted]
  | leave => simp [Run.left, Run.note, Event.openLoops, hcounted]
  | finish => simp [Run.note, Event.openLoops, hcounted]

/-- The cursor and the bodies of open loops are in the template, and the sink never refuses. -/
structure Steady (template : List Char) (situation : Situation) : Prop where
  on : situation.run.cursor.On template
  starts : ∀ loop ∈ situation.loops, loop.start.On template
  sink : situation.run.sink.capacity = none

theorem Step.steady {template : List Char} (h : Step situation next)
    (hsteady : Steady template situation) : Steady template next := by
  obtain ⟨hon, hstarts, hsink⟩ := hsteady
  cases h with
  | start | passEnded | finish => exact ⟨hon, hstarts, hsink⟩
  | move hmove loops =>
      cases hmove with
      | scan site => exact ⟨hon.scan, hstarts, hsink⟩
      | write | refuse => exact ⟨hon, hstarts, hsink⟩
  | enter => exact ⟨hon, by simpa using ⟨hon, hstarts⟩, hsink⟩
  | begin => exact ⟨hstarts _ List.mem_cons_self, by simpa using hstarts, hsink⟩
  | leave => exact ⟨hon, fun loop hloop => hstarts loop (by simp [hloop]), hsink⟩

end Situation

/-! ## Faults in a first pass -/

/-- The run is ready for a body of at most so many blocks. -/
structure Run.Ready (template : List Char) (values : Values) (arrays : Arrays) (blocks : Nat)
    (run : Run) : Prop where
  holds : ∃ scope, run.environment.Holds values arrays scope
  on : run.cursor.On template
  sink : run.sink.capacity = none
  bound : run.cursor.scanBound ≤ blocks

/-- If a fault stops the run, then in the first pass over each body that it is in. -/
def Run.StopsFirst (run : Run) (loops : List OpenLoop) :
    EStateM.Result RenderError Run Unit → Prop
  | .ok _ _ => True
  | .error _ later => ∃ more, Situation.Walk ⟨run, loops⟩ ⟨later, more ++ loops⟩ ∧
      ∀ loop ∈ more, loop.passes = 1

section Stops

variable {template : List Char} {values : Values} {arrays : Arrays} {blocks : Nat}
  {run middle : Run} {loops : List OpenLoop} {result : EStateM.Result RenderError Run Unit}

theorem Run.Ready.later (h : run.Ready template values arrays blocks)
    (hmiddle : run.WalksTo [] (.ok () middle)) {fewer : Nat}
    (hbound : middle.cursor.scanBound ≤ fewer) : middle.Ready template values arrays fewer := by
  obtain ⟨hwalk, henvironment, -⟩ := hmiddle
  have hsteady : Situation.Steady template ⟨middle, []⟩ :=
    hwalk.keeps (fun _ _ => Situation.Step.steady) ⟨h.on, by simp, h.sink⟩
  exact ⟨henvironment ▸ h.holds, hsteady.on, hsteady.sink, hbound⟩

theorem Run.StopsFirst.after (hwalk : Situation.Walk ⟨run, loops⟩ ⟨middle, loops⟩)
    (h : middle.StopsFirst loops result) : run.StopsFirst loops result := by
  cases result with
  | ok value later => trivial
  | error error later =>
      obtain ⟨more, hlater, hmore⟩ := h
      exact ⟨more, hwalk.trans hlater, hmore⟩

theorem stopsFirst_of_moves (h : run.MovesTo result) : run.StopsFirst loops result := by
  cases result with
  | ok value later => trivial
  | error error later => exact ⟨[], .of_moves h loops, by simp⟩

end Stops

/-- The run is ready for the passes over a body of at most so many blocks. -/
structure Run.ReadyInside (template : List Char) (values : Values) (arrays : Arrays)
    (blocks : Nat) (item : String) (run : Run) : Prop where
  inside : ∃ (outer : Environment) (scope : List (String × String)),
    outer.Holds values arrays scope ∧ outer.Inside item run.environment
  on : run.cursor.On template
  sink : run.sink.capacity = none
  bound : run.cursor.scanBound ≤ blocks

namespace Rendering

def BodyStops (template : List Char) (values : Values) (arrays : Arrays) (blocks : Nat) : Prop :=
  ∀ (emit : Bool) (run : Run) (loops : List OpenLoop),
    run.Ready template values arrays blocks → run.StopsFirst loops (body blocks emit run)

section Passes

variable {template : List Char} {values : Values} {arrays : Arrays} {blocks : Nat}
  {run later : Run} {item : String} {error : RenderError}

/-- A fault that stops the passes stops the first of them. -/
theorem first_round_error (hready : run.ReadyInside template values arrays blocks item)
    {element : String} {elements : List String}
    (h : passes (pass (body blocks)) item (element :: elements) true run = .error error later) :
    round run.cursor item (pass (body blocks) true) element run = .error error later := by
  obtain ⟨⟨outer, scope, houter, hinside⟩, hon, hsink, hblocks⟩ := hready
  obtain ⟨ending, outline, after, hreads⟩ :=
    Body.exists_readsAs (.ofBindings values arrays) (item :: scope.map Prod.fst) run.cursor
  have hpass (element : String) :
      Performs template values arrays ((item, element) :: scope) run.cursor outline.verdict after
        (outline.evaluate values arrays ((item, element) :: scope)) (pass (body blocks)) := by
    refine pass_performs (fun hverdict => ?_) (body_performs hreads hon (by simp) hblocks)
    exact ⟨_, _, _, outline, _, after, hreads, outline.verdict_eq_ok_iff.mp hverdict, hon, rfl⟩
  have hends (elements : List String) := passes_ends outline.verdict_eq_ok_iff hpass houter
    elements true rfl hinside hsink
  have hall := hends (element :: elements)
  rw [h] at hall
  obtain ⟨fault, -, hverdict, -⟩ := hall
  change (round run.cursor item (pass (body blocks) true) element >>=
    fun _ => elements.forM _) run = .error error later at h
  cases hround : round run.cursor item (pass (body blocks) true) element run with
  | error error' later' =>
      rw [bind_error hround] at h
      exact h
  | ok value middle =>
      -- The first pass alone comes to the verdict that all passes come to.
      have hfirst : passes (pass (body blocks)) item [element] true run = .ok () middle :=
        bind_ok hround
      have hone := hends [element]
      rw [hfirst, Run.Ends, hverdict] at hone
      cases hone.1

/-- The loop whose body begins at the cursor stops in its first pass. -/
def StopsInside (run : Run) (loops : List OpenLoop) (later : Run) : Prop :=
  ∃ inner, Situation.Walk ⟨run, ⟨run.cursor, 0⟩ :: loops⟩
      ⟨later, inner ++ ⟨run.cursor, 1⟩ :: loops⟩ ∧ ∀ loop ∈ inner, loop.passes = 1

theorem round_stops (hbody : BodyStops template values arrays blocks)
    (hready : run.ReadyInside template values arrays blocks item) {value : String} {emit : Bool}
    (h : round run.cursor item (pass (body blocks) emit) value run = .error error later)
    (loops : List OpenLoop) : StopsInside run loops later := by
  obtain ⟨⟨outer, scope, houter, hinside⟩, hon, hsink, hblocks⟩ := hready
  have hbegin := Situation.Step.begin run run.cursor 0 item value emit loops
  have hready : (run.begun run.cursor item value emit).Ready template values arrays blocks :=
    ⟨⟨_, hinside.holds_define houter value⟩, hon, hsink, hblocks⟩
  have hstops := hbody emit _ (⟨run.cursor, 1⟩ :: loops) hready
  rw [round_eq] at h
  cases hresult : body blocks emit (run.begun run.cursor item value emit) with
  | ok result middle =>
      rw [bind_ok hresult] at h
      cases h
  | error error' later' =>
      rw [bind_error hresult] at h
      cases h
      rw [hresult] at hstops
      obtain ⟨inner, hwalk, hinner⟩ := hstops
      exact ⟨inner, hwalk.head hbegin, hinner⟩

theorem passes_stop (hbody : BodyStops template values arrays blocks)
    (hready : run.ReadyInside template values arrays blocks item) {elements : List String}
    {emit : Bool} (h : passes (pass (body blocks)) item elements emit run = .error error later)
    (loops : List OpenLoop) : StopsInside run loops later := by
  cases emit with
  | false => exact round_stops hbody hready h loops
  | true =>
      cases elements with
      | nil => exact round_stops hbody hready h loops
      | cons element elements =>
          exact round_stops hbody hready (first_round_error hready h) loops

theorem loop_stops (hbody : BodyStops template values arrays blocks)
    (hready : run.Ready template values arrays blocks) (frame : String) (emit : Bool)
    (loops : List OpenLoop) :
    run.StopsFirst loops (loop (pass (body blocks)) frame emit run) := by
  have hheader := loop_header (pass (body blocks)) frame emit run
  generalize loop (pass (body blocks)) frame emit run = result at hheader
  cases hheader with
  | stops error hmoves => exact ⟨[], .of_moves hmoves loops, by simp⟩
  | @opens middle array item elements hmoves helements =>
      let inside := middle.entered frame array item elements.length emit
      have hready := hready.later (hmoves.walksTo [])
        (Nat.le_trans hmoves.scanBound_le hready.bound)
      obtain ⟨⟨scope, hholds⟩, hon, hsink, hbound⟩ := hready
      have hinside : inside.ReadyInside template values arrays blocks item :=
        ⟨⟨middle.environment, scope, hholds, middle.environment.inside_enter frame item⟩, hon,
          hsink, hbound⟩
      have hentered := entered_walk hmoves helements frame item emit loops
      change run.StopsFirst loops ((passes (pass (body blocks)) item elements emit >>= _) inside)
      cases hresult : passes (pass (body blocks)) item elements emit inside with
      | ok value later =>
          rw [bind_ok hresult, close_eq]
          trivial
      | error error later =>
          obtain ⟨inner, hwalk, hinner⟩ := passes_stop hbody hinside hresult loops
          rw [bind_error hresult]
          refine ⟨inner ++ [⟨middle.cursor, 1⟩], ?_, ?_⟩
          · rw [List.append_assoc]
            exact hentered.trans hwalk
          · intro loop hloop
            rcases List.mem_append.mp hloop with hloop | hloop
            · exact hinner loop hloop
            · rw [List.mem_singleton.mp hloop]

end Passes

theorem body_stops (template : List Char) (values : Values) (arrays : Arrays) (blocks : Nat) :
    BodyStops template values arrays blocks := by
  induction blocks with
  | zero => exact fun _ _ _ _ => trivial
  -- Each block has less to scan behind it, so that the run stays ready for the blocks left.
  | succ blocks ih =>
      intro emit run loops hready
      have hnext := body_next blocks emit run
      have hbound := hready.bound
      generalize body (blocks + 1) emit run = result at hnext
      cases hnext with
      | ends hmoves => exact stopsFirst_of_moves hmoves
      | @goesOn middle hmoves hlt =>
          have hmiddle : middle.Ready template values arrays blocks :=
            hready.later (hmoves.walksTo []) (by omega)
          exact (ih emit middle loops hmiddle).after (.of_moves hmoves loops)
      | @loops middle frame hmoves hlt =>
          have hmiddle : middle.Ready template values arrays blocks :=
            hready.later (hmoves.walksTo []) (by omega)
          have hstops := loop_stops ih hmiddle frame emit loops
          have hwalks := loop_walks (body_walks blocks) frame emit middle
          apply Run.StopsFirst.after (.of_moves hmoves loops)
          cases hresult : loop (pass (body blocks)) frame emit middle with
          | ok value later =>
              have hlater := hwalks []
              have hwalk := hwalks loops
              rw [hresult] at hlater hwalk
              have hready := hmiddle.later hlater (Nat.le_trans hlater.2.2 hmiddle.bound)
              rw [bind_ok hresult]
              exact (ih emit later loops hready).after hwalk.1
          | error error later =>
              rw [hresult] at hstops
              rw [bind_error hresult]
              exact hstops

end Rendering

/-! ## What comes before a fault -/

/-- The cursor comes to the other by scanning the lexemes. -/
def Cursor.ReadsOff (cursor : Cursor) (lexemes : List Lexeme) (next : Cursor) : Prop :=
  ∃ marks : List Mark, cursor.readings = marks.map .ok ++ next.readings ∧
    marks.map Prod.fst = lexemes

namespace Cursor

variable {cursor middle next : Cursor}

theorem readsOff_of_scan {lexeme : Lexeme} {span : Span}
    (h : cursor.scan = (.ok (lexeme, span), next)) (hend : lexeme ≠ .endOfInput) :
    cursor.ReadsOff [lexeme] next :=
  ⟨[(lexeme, span)], readings_eq_cons h hend, rfl⟩

theorem ReadsOff.trans {first second : List Lexeme} (h : cursor.ReadsOff first middle)
    (h' : middle.ReadsOff second next) : cursor.ReadsOff (first ++ second) next := by
  obtain ⟨marks, hreadings, rfl⟩ := h
  obtain ⟨marks', hreadings', rfl⟩ := h'
  exact ⟨marks ++ marks', by simp [hreadings, hreadings'], List.map_append⟩

theorem readsOff_of_demand_identifier {name : String}
    (h : cursor.demand .identifier = .ok (name, next)) :
    cursor.ReadsOff [.identifier name] next := by
  obtain ⟨span, hscan⟩ := scan_of_demand_identifier h
  exact readsOff_of_scan hscan (by simp)

theorem readsOff_of_demand_scriptEnd {text : String}
    (h : cursor.demand .scriptEnd = .ok (text, next)) : cursor.ReadsOff [.scriptEnd] next := by
  obtain ⟨span, hscan⟩ := scan_of_demand_scriptEnd h
  exact readsOff_of_scan hscan (by simp)

theorem readsOff_of_header {names : Names} {array item : String}
    (h : cursor.header names = .ok (array, item, next)) :
    cursor.ReadsOff [.identifier array, .identifier item, .scriptEnd] next := by
  have hheads := header_heads names cursor
  rw [h] at hheads
  cases hheads with
  | read hfirst _ hsecond hthird =>
      have hnames := (readsOff_of_demand_identifier hfirst).trans
        (readsOff_of_demand_identifier hsecond)
      exact hnames.trans (readsOff_of_demand_scriptEnd hthird)

end Cursor

def Block.lexemes : Block → List Lexeme
  | .endOfInput => [.endOfInput]
  | .loopEnd => [.scriptBegin, .loopEnd, .scriptEnd]
  | .literal text => [.literal text]
  | .value name => [.scriptBegin, .identifier name, .scriptEnd]
  | .loopBegin array item => Body.opening array item
  | .broken _ | .brokenValue .. => []

theorem Block.Reads.readsOff {names : Names} {items : List String} {cursor next : Cursor}
    {block : Block} (h : Block.Reads names items cursor block next) (hwhole : block.isWhole)
    (hend : block ≠ .endOfInput) : cursor.ReadsOff block.lexemes next := by
  cases h with
  | lexical | unexpected => cases hwhole
  | endOfInput => exact absurd rfl hend
  | literal hscan => exact Cursor.readsOff_of_scan hscan (by simp)
  | tag hscan htag =>
      have hopening := Cursor.readsOff_of_scan hscan (by simp)
      cases htag with
      | lexical | unexpected | unbound | brokenValue | brokenHeader | unmatched
      | brokenLoopEnd => cases hwhole
      | value hscan' _ hclose | loopEnd hscan' _ hclose =>
          have htoken := hopening.trans (Cursor.readsOff_of_scan hscan' (by simp))
          exact htoken.trans (Cursor.readsOff_of_demand_scriptEnd hclose)
      | loopBegin hscan' hheader =>
          have htoken := hopening.trans (Cursor.readsOff_of_scan hscan' (by simp))
          exact htoken.trans (Cursor.readsOff_of_header hheader)

def Block.fault? : Block → Option Fault
  | .broken fault | .brokenValue _ fault => some fault
  | _ => none

def Cursor.Breaks (names : Names) (fault : Fault) (cursor : Cursor) : Prop :=
  ∃ items block after, Block.Reads names items cursor block after ∧ block.fault? = some fault

/--
The lexemes of an outline are scanned up to the end of its loop, or up to the
block that breaks it off.
-/
theorem Body.ReadsAs.readsOff {names : Names} {ending : Ending} {items : List String}
    {cursor after : Cursor} {body : Body ending} (h : ReadsAs names items cursor body after)
    (hinput : ending ≠ .input) :
    ∃ last, cursor.ReadsOff body.lexemes last ∧ (ending = .loop → last = after) ∧
      ∀ fault, body.verdict = .error fault → last.Breaks names fault := by
  induction h with
  | endOfInput => exact absurd rfl hinput
  | @loopEnd _ _ next hread => exact ⟨next, hread.readsOff rfl (by simp), fun _ => rfl, nofun⟩
  | @broken _ cursor _ _ hread | @brokenValue _ cursor _ _ _ hread =>
      refine ⟨cursor, ⟨[], rfl, rfl⟩, nofun, fun fault hfault => ?_⟩
      cases hfault
      exact ⟨_, _, _, hread, rfl⟩
  | literal hread _ ih | value hread _ ih =>
      obtain ⟨last, hrest, hlast⟩ := ih hinput
      exact ⟨last, (hread.readsOff rfl (by simp)).trans hrest, hlast⟩
  | loop hread _ _ ihInside ihRest =>
      -- The end of the inner loop has been scanned, and the rest is read from there.
      obtain ⟨middle, hinside, hmiddle, -⟩ := ihInside (by decide)
      obtain rfl := hmiddle rfl
      obtain ⟨last, hrest, hlast⟩ := ihRest hinput
      exact ⟨last, (hread.readsOff rfl (by simp)).trans (hinside.trans hrest), hlast⟩
  | openLoop hread _ _ ih =>
      obtain ⟨last, hinside, hlast⟩ := ih hinput
      exact ⟨last, (hread.readsOff rfl (by simp)).trans hinside, hlast⟩

namespace Body

/-- The body up to the tag at fault. -/
def beforeFault {ending : Ending} : Body ending → Body ending
  | .endOfInput => .endOfInput
  | .loopEnd => .loopEnd
  | .broken fault | .brokenValue _ fault => .broken fault
  | .literal text rest => .literal text rest.beforeFault
  | .value name rest => .value name rest.beforeFault
  | .loop array item inside rest => .loop array item inside rest.beforeFault
  | .openLoop array item inside hopen => .openLoop array item inside.beforeFault hopen

/-- The value in the tag at fault, unless an empty array silences the tag. -/
def lastValue (values : Values) (arrays : Arrays) {ending : Ending} :
    List (String × String) → Body ending → Option String
  | _, .endOfInput | _, .loopEnd | _, .broken _ => none
  | scope, .brokenValue name _ => valueIn values scope name
  | scope, .literal _ rest | scope, .value _ rest | scope, .loop _ _ _ rest =>
      rest.lastValue values arrays scope
  | scope, .openLoop array item inside _ =>
      ((arrays.find? array).getD []).head?.bind fun element =>
        inside.lastValue values arrays ((item, element) :: scope)

theorem evaluate_eq_append {values : Values} {arrays : Arrays} {ending : Ending}
    (body : Body ending) (hfault : ending = .fault) (scope : List (String × String)) :
    body.evaluate values arrays scope = body.beforeFault.evaluate values arrays scope ++
      (body.lastValue values arrays scope).toList := by
  induction body generalizing scope with
  | endOfInput | loopEnd => cases hfault
  | broken | brokenValue => rfl
  | literal text rest ih => simp [evaluate, beforeFault, lastValue, ih hfault]
  | value name rest ih => simp [evaluate, beforeFault, lastValue, ih hfault]
  | loop array item inside rest _ ih => simp [evaluate, beforeFault, lastValue, ih hfault]
  | openLoop array item inside _ ih =>
      subst hfault
      cases helements : (arrays.find? array).getD [] with
      | nil => simp [evaluate, beforeFault, lastValue, Ending.passes, helements]
      | cons element elements =>
          simp [evaluate, beforeFault, lastValue, Ending.passes, helements, ih rfl]

end Body

/-! ## Renderings that stop -/

theorem Rendering.template_stops {template : String} {values : Values} {arrays : Arrays}
    {run : Run}
    (hready : run.Ready template.toList values arrays (template.length + 1)) :
    run.StopsFirst [] (renderTemplate template run) := by
  have hstart := Situation.Step.start run template.utf8ByteSize
  have hstops := body_stops template.toList values arrays (template.length + 1) true
    (run.started template.utf8ByteSize) [] ⟨hready.holds, hready.on, hready.sink, hready.bound⟩
  rw [renderTemplate_eq]
  cases hbody : body (template.length + 1) true (run.started template.utf8ByteSize) with
  | ok value last => trivial
  | error error last =>
      rw [hbody] at hstops
      exact hstops.after (.single hstart)

/-- Each loop that a rendering leaves open has begun one pass over its body. -/
theorem render_openLoops {values : Values} {arrays : Arrays} {template before : String}
    {error : RenderError}
    (hstop : (render values arrays template (.unlimited before)).result = .error error) :
    let rendering := (Session.ofBindings values arrays).render template (.unlimited before)
    rendering.1.journal.openLoops = List.replicate rendering.2.environment.depth 1 := by
  let start := (Session.ofBindings values arrays).start template (.unlimited before)
  have hready : start.Ready template.toList values arrays (template.length + 1) :=
    ⟨⟨[], .ofBindings values arrays⟩, .ofTemplate template, rfl,
      Cursor.scanBound_ofTemplate_le template⟩
  have hstops := Rendering.template_stops hready
  rw [render, Session.render_start] at hstop
  rw [Session.render_start]
  cases hresult : Rendering.renderTemplate template start with
  | ok value last =>
      rw [hresult] at hstop
      cases hstop
  | error error last =>
      rw [hresult] at hstops
      obtain ⟨loops, hwalk, hloops⟩ := hstops
      have hcounted : Situation.Counted ⟨last, loops ++ []⟩ :=
        hwalk.keeps (fun _ _ => Situation.Step.counted) rfl
      have hrooted : Situation.Rooted ⟨"root", none, values, arrays⟩ ⟨last, loops ++ []⟩ :=
        hwalk.rooted ⟨rfl, rfl, by simp [start, Session.start]⟩
      rw [List.append_nil] at hcounted hrooted
      change last.journal.openLoops = List.replicate last.environment.depth 1
      rw [hcounted, hrooted.depth]
      exact List.eq_replicate_iff.mpr ⟨List.length_map .., by simpa using hloops⟩

/--
A rendering that fails into a sink that never refuses stops at a fault of its
outline, with no loop open that has begun a second pass.  It has written what
the outline before the fault is evaluated to, and then the value of the tag
at fault, if that tag is to insert one and is not closed.
-/
theorem render_stops {values : Values} {arrays : Arrays} {template before : String}
    {error : RenderError}
    (hstop : (render values arrays template (.unlimited before)).result = .error error) :
    let names : Names := .ofBindings values arrays
    let rendering := (Session.ofBindings values arrays).render template (.unlimited before)
    rendering.1.journal.openLoops = List.replicate rendering.2.environment.depth 1 ∧
      ∃ (outline : Body .fault) (last after : Cursor) (fault : Fault) (number : Nat),
        outline.ReadsAs names [] (.ofTemplate template) after ∧
        (Cursor.ofTemplate template).ReadsOff outline.lexemes last ∧
        last.Breaks names fault ∧ outline.verdict = .error fault ∧
        error = fault.error number ∧
        rendering.1.sink.pieces.toList =
          outline.beforeFault.evaluate values arrays [] ++
            (outline.lastValue values arrays []).toList := by
  refine ⟨render_openLoops hstop, ?_⟩
  obtain ⟨ending, outline, after, hreads⟩ :=
    Body.exists_readsAs (.ofBindings values arrays) [] (.ofTemplate template)
  obtain ⟨hreports, hpieces, -⟩ := render_of_readsAs hreads before
  rw [hstop] at hreports
  cases hverdict : outline.verdict with
  | ok value =>
      rw [hverdict] at hreports
      exact hreports.elim
  | error fault =>
      rw [hverdict] at hreports
      obtain ⟨number, herror⟩ := hreports
      -- Only the outline of a template with a fault comes to a fault.
      have hfault : ending = .fault := by
        by_contra hwhole
        rw [outline.verdict_eq_ok_iff.mpr hwhole] at hverdict
        cases hverdict
      subst hfault
      obtain ⟨last, hlexemes, -, hbreaks⟩ := hreads.readsOff (by decide)
      refine ⟨outline, last, after, fault, number, hreads, hlexemes, hbreaks fault hverdict,
        hverdict, herror, ?_⟩
      exact hpieces.trans (outline.evaluate_eq_append rfl _)

/-- The inner loop has made all its passes when the outer one stops in its first. -/
theorem render_stops_unclosed_value :
    let arrays : Arrays := .ofList [("xs", ["1", "2"]), ("ys", ["a", "b"])]
    let outer := "\x7b\x7b#loop xs x\x7d\x7d"
    let inner := "\x7b\x7b#loop ys y\x7d\x7d\x7b\x7by\x7d\x7d\x7b\x7b/loop\x7d\x7d"
    let template := outer ++ inner ++ "\x7b\x7bx"
    let rendering := (Session.ofBindings .empty arrays).render template (.unlimited "")
    (∃ error, rendering.1.result = .error error) ∧
      rendering.1.journal.openLoops = [1] ∧
      rendering.1.sink.pieces.toList = ["a", "b", "1"] := by
  intro arrays outer inner template rendering
  have hdepth : rendering.2.environment.depth = 1 := by
    subst rendering template outer inner arrays
    decide +kernel
  have hpieces : rendering.1.sink.pieces.toList = ["a", "b", "1"] := by
    subst rendering template outer inner arrays
    decide +kernel
  have hnone : rendering.1.result.toOption = none := by
    subst rendering template outer inner arrays
    decide +kernel
  cases hresult : rendering.1.result with
  | ok value =>
      rw [hresult] at hnone
      cases hnone
  | error error =>
      have hloops := (@render_stops .empty arrays template "" error hresult).1
      exact ⟨⟨error, rfl⟩, hloops.trans (congrArg (List.replicate · 1) hdepth), hpieces⟩

end Stencil
