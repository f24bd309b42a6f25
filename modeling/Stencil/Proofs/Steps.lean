import Stencil.Session
import Stencil.Proofs.Outline

/-!
# Steps of a rendering

What each step does to a rendering under way into a sink that never refuses:
scanning, writing, the header of a loop, and every kind of block.  Each block
is handled as the outline reads it.
-/

namespace Stencil

/-! ## States of a rendering -/

/-- What stands for a name inside loops whose items stand for the given values. -/
def valueIn (values : Values) (scope : List (String × String)) (name : String) :
    Option String :=
  (scope.lookup name).or (values.find? name)

namespace Sink

def addAll (sink : Sink) (pieces : List String) : Sink := pieces.foldl add sink

theorem addAll_append (sink : Sink) (first second : List String) :
    sink.addAll (first ++ second) = (sink.addAll first).addAll second :=
  List.foldl_append

@[simp] theorem capacity_addAll (sink : Sink) (pieces : List String) :
    (sink.addAll pieces).capacity = sink.capacity := by
  induction pieces generalizing sink with
  | nil => rfl
  | cons piece pieces ih => exact ih (sink.add piece)

theorem pieces_addAll (sink : Sink) (pieces : List String) :
    (sink.addAll pieces).pieces.toList = sink.pieces.toList ++ pieces := by
  induction pieces generalizing sink with
  | nil => exact (List.append_nil _).symm
  | cons piece pieces ih =>
      change ((sink.add piece).addAll pieces).pieces.toList = _
      rw [ih]
      simp [add]

end Sink

/-- The environment binds the root's values and arrays, and the items of loops before them. -/
structure Environment.Holds (values : Values) (arrays : Arrays) (scope : List (String × String))
    (environment : Environment) : Prop where
  value : ∀ name, environment.value? name = valueIn values scope name
  array : ∀ name, environment.array? name = arrays.find? name
  depth : environment.depth = scope.length

/-- The environment is that of a loop with the given item inside the outer one. -/
structure Environment.Inside (outer : Environment) (item : String)
    (environment : Environment) : Prop where
  leave : environment.leave.2 = outer
  value : ∀ name, name ≠ item → environment.value? name = outer.value? name
  array : ∀ name, environment.array? name = outer.array? name
  depth : environment.depth = outer.depth + 1

namespace Environment

variable {values : Values} {arrays : Arrays} {scope : List (String × String)}
  {outer environment : Environment}

theorem Holds.ofBindings (values : Values) (arrays : Arrays) :
    (Environment.ofBindings values arrays).Holds values arrays [] where
  value name := by
    simp only [value?, frames, Environment.ofBindings, valueIn, List.nil_append,
      List.findSome?_cons]
    cases values.find? name <;> rfl
  array name := by
    simp only [array?, frames, Environment.ofBindings, List.nil_append, List.findSome?_cons]
    cases arrays.find? name <;> rfl
  depth := rfl

theorem inside_enter (outer : Environment) (id item : String) :
    Inside outer item (outer.enter id) :=
  ⟨rfl, fun _ _ => rfl, fun _ => rfl, rfl⟩

theorem Inside.define {item : String} (h : Inside outer item environment) (value : String) :
    Inside outer item (environment.define item value) where
  leave := by
    rw [← h.leave]
    have hdepth := h.depth
    rcases environment with ⟨_ | ⟨inner, loops⟩, root⟩
    · simp [Environment.depth] at hdepth
    · rfl
  value name hname := by rw [value?_define, if_neg hname, h.value name hname]
  array name := by rw [array?_define, h.array]
  depth := by rw [depth_define, h.depth]

theorem Inside.holds_define {item : String} (h : Inside outer item environment)
    (houter : outer.Holds values arrays scope) (value : String) :
    (environment.define item value).Holds values arrays ((item, value) :: scope) where
  value name := by
    rw [value?_define]
    by_cases hname : name = item
    · simp [hname, valueIn]
    · have hother : (name == item) = false := by simpa using hname
      rw [if_neg hname, h.value name hname, houter.value]
      simp [valueIn, List.lookup_cons, hother]
  array name := by rw [array?_define, h.array, houter.array]
  depth := by rw [depth_define, h.depth, houter.depth, List.length_cons]

theorem Holds.hasArray (h : environment.Holds values arrays scope) (name : String) :
    environment.hasArray name = (Names.ofBindings values arrays).array name := by
  rw [Environment.hasArray, h.array]
  rfl

theorem Holds.atRoot (h : environment.Holds values arrays scope) :
    environment.atRoot = (scope.map Prod.fst).isEmpty := by
  have hdepth := h.depth
  unfold Environment.depth at hdepth
  unfold Environment.atRoot
  cases hloops : environment.loops <;> cases scope <;> simp_all

end Environment

theorem Names.binds_ofBindings (values : Values) (arrays : Arrays)
    (scope : List (String × String)) (name : String) :
    (Names.ofBindings values arrays).binds (scope.map Prod.fst) name =
      (valueIn values scope name).isSome := by
  have hscope : (scope.map Prod.fst).contains name = (scope.lookup name).isSome := by
    induction scope with
    | nil => rfl
    | cons entry scope ih =>
        obtain ⟨item, element⟩ := entry
        simp only [List.map_cons, List.contains_cons, ih, List.lookup_cons]
        cases name == item <;> rfl
  rw [binds, hscope, valueIn, Option.isSome_or, Bool.or_comm]
  rfl

/-! ### The passes in a journal -/

/-- Passes under way, innermost first, and passes that are over, with where they ended. -/
structure Passes where
  begun : List Position
  ended : List (Position × Position)

def Passes.receive (passes : Passes) (moment : Moment) : Passes :=
  match moment.event, passes.begun with
  | .passStarted _, begun => { passes with begun := moment.position :: begun }
  | .passEnded, start :: begun => ⟨begun, (start, moment.position) :: passes.ended⟩
  | _, _ => passes

def Journal.passes (journal : Journal) : Passes := journal.foldl Passes.receive ⟨[], []⟩

@[simp] theorem Journal.passes_push (journal : Journal) (moment : Moment) :
    Journal.passes (journal.push moment) = (Journal.passes journal).receive moment :=
  Array.foldl_push ..

/-! ### What a step leaves -/

/-- The later state has the pieces written, and no pass has begun or ended since. -/
structure Run.Writes (run : Run) (pieces : List String) (later : Run) : Prop where
  sink : later.sink = run.sink.addAll pieces
  passes : later.journal.passes = run.journal.passes

/-- The later state is that after reading on to the cursor and writing the pieces. -/
structure Run.Follows (run : Run) (cursor : Cursor) (pieces : List String) (later : Run) :
    Prop extends run.Writes pieces later where
  cursor : later.cursor = cursor
  environment : later.environment = run.environment

theorem Run.Writes.trans {first second third : Run} {pieces later : List String}
    (h : first.Writes pieces second) (h' : second.Writes later third) :
    first.Writes (pieces ++ later) third where
  sink := by rw [h'.sink, h.sink, Sink.addAll_append]
  passes := h'.passes.trans h.passes

theorem Run.Follows.refl (run : Run) : run.Follows run.cursor [] run := ⟨⟨rfl, rfl⟩, rfl, rfl⟩

theorem Run.Writes.capacity {run later : Run} {pieces : List String}
    (h : run.Writes pieces later) : later.sink.capacity = run.sink.capacity := by
  rw [h.sink, Sink.capacity_addAll]

theorem Run.Follows.trans {first second third : Run} {cursor next : Cursor}
    {pieces later : List String} (h : first.Follows cursor pieces second)
    (h' : second.Follows next later third) : first.Follows next (pieces ++ later) third where
  toWrites := h.toWrites.trans h'.toWrites
  cursor := h'.cursor
  environment := h'.environment.trans h.environment

namespace Rendering

/-! ## Single steps -/

section Steps

variable {α β : Type} {run later : Run}

theorem bind_ok {first : Rendering α} {second : α → Rendering β} {value : α}
    (h : first run = .ok value later) : (first >>= second) run = second value later := by
  simp only [bind, EStateM.bind, h]

theorem bind_error {first : Rendering α} {second : α → Rendering β} {error : RenderError}
    (h : first run = .error error later) : (first >>= second) run = .error error later := by
  simp only [bind, EStateM.bind, h]

@[simp] theorem bind_get (second : Run → Rendering β) :
    (get >>= second) run = second run run := rfl

@[simp] theorem bind_set (changed : Run) (second : Unit → Rendering β) :
    ((set changed : Rendering Unit) >>= second) run = second () changed := rfl

@[simp] theorem bind_modify (change : Run → Run) (second : Unit → Rendering β) :
    (modify change >>= second) run = second () (change run) := rfl

theorem scan_ok {mark : Mark} {next : Cursor} (site : Site)
    (h : run.cursor.scan = (.ok mark, next)) :
    ∃ later, scan site run = .ok (mark.1.token run.loops mark.2) later ∧
      run.Follows next [] later := by
  have hnext : run.cursor.next run.loops =
      (.ok (mark.1.token run.loops mark.2), run.loops + mark.1.loops, next) := by
    simp [Cursor.next_eq, h, Except.map, Reading.loops]
  let token := mark.1.token run.loops mark.2
  let moment : Moment := ⟨.scanned site token, next.position, run.environment⟩
  refine ⟨{ run with
    cursor := next
    loops := run.loops + mark.1.loops
    journal := run.journal.push moment }, ?_, ⟨rfl, Journal.passes_push ..⟩, rfl, rfl⟩
  unfold scan
  simp only [bind_get, bind_set, hnext]
  rfl

theorem scan_error {error : ScanError} {next : Cursor} (site : Site)
    (h : run.cursor.scan = (.error error, next)) :
    ∃ later, scan site run = .error (.lexical error) later ∧ run.Writes [] later := by
  have hnext : run.cursor.next run.loops = (.error error, run.loops, next) := by
    simp [Cursor.next_eq, h, Except.map, Reading.loops]
  let moment : Moment := ⟨.scanFailed site error, next.position, run.environment⟩
  refine ⟨{ run with cursor := next, journal := run.journal.push moment }, ?_, rfl,
    Journal.passes_push ..⟩
  unfold scan
  simp only [bind_get, bind_set, hnext]
  rfl

theorem write_ok (piece : String) (hsink : run.sink.capacity = none) :
    ∃ later, write piece run = .ok () later ∧ run.Follows run.cursor [piece] later := by
  let moment : Moment := ⟨.wrote piece, run.cursor.position, run.environment⟩
  refine ⟨{ run with sink := run.sink.add piece, journal := run.journal.push moment }, ?_,
    ⟨rfl, Journal.passes_push ..⟩, rfl, rfl⟩
  have haccepts : run.sink.accepts = true := by simp [Sink.accepts, hsink]
  unfold write
  simp only [bind_get, haccepts, if_true]
  rfl

private theorem text_eq {lexeme : Lexeme} (h : lexeme.kind ≠ .loopBegin) (first second : Nat) :
    lexeme.text first = lexeme.text second := by
  cases lexeme <;> simp_all [Lexeme.kind, Lexeme.text]

theorem demand_ok {wanted : TokenKind} {text : String} {next : Cursor}
    (h : run.cursor.demand wanted = .ok (text, next)) (hwanted : wanted ≠ .loopBegin) :
    ∃ token later, demand wanted run = .ok token later ∧ run.Follows next [] later ∧
      token.text = text := by
  obtain ⟨mark, hscan, hkind, rfl⟩ := Cursor.scan_of_demand h
  obtain ⟨later, hlater, hfollows⟩ := scan_ok .tag hscan
  refine ⟨mark.1.token run.loops mark.2, later, ?_, hfollows, text_eq (hkind ▸ hwanted) _ _⟩
  rw [demand, bind_ok hlater, Lexeme.token_kind, if_pos hkind]
  rfl

theorem demand_error {wanted : TokenKind} {fault : Fault}
    (h : run.cursor.demand wanted = .error fault) :
    ∃ number later, demand wanted run = .error (fault.error number) later ∧
      run.Writes [] later := by
  rcases Cursor.scan_of_demand_error h with
    ⟨error, next, hscan, rfl⟩ | ⟨mark, next, hscan, hkind, rfl⟩
  · obtain ⟨later, hlater, hwrites⟩ := scan_error .tag hscan
    exact ⟨0, later, by rw [demand, bind_error hlater]; rfl, hwrites⟩
  · obtain ⟨later, hlater, hfollows⟩ := scan_ok .tag hscan
    refine ⟨run.loops, later, ?_, hfollows.toWrites⟩
    rw [demand, bind_ok hlater, Lexeme.token_kind, if_neg hkind]
    rfl

theorem close_ok {text : String} {next : Cursor}
    (h : run.cursor.demand .scriptEnd = .ok (text, next)) :
    ∃ later, discard (demand .scriptEnd) run = .ok () later ∧ run.Follows next [] later := by
  obtain ⟨token, later, hlater, hfollows, -⟩ := demand_ok h (by decide)
  refine ⟨later, ?_, hfollows⟩
  simp only [discard, Functor.discard, Functor.mapConst, EStateM.map, hlater, Function.comp]

theorem close_error {fault : Fault} (h : run.cursor.demand .scriptEnd = .error fault) :
    ∃ number later, discard (demand .scriptEnd) run = .error (fault.error number) later ∧
      run.Writes [] later := by
  obtain ⟨number, later, hlater, hwrites⟩ := demand_error h
  refine ⟨number, later, ?_, hwrites⟩
  simp only [discard, Functor.discard, Functor.mapConst, EStateM.map, hlater, Function.comp]

theorem resolve_ok (value : α) : resolve (.ok value) run = .ok value run := rfl

end Steps

/-! ## Tags -/

section Tags

variable {run : Run} {names : Names}

/-- The header of a loop is read, and the passes over its body begin. -/
theorem loop_ok (body : Bool → Rendering Unit) (frame : String) (emit : Bool)
    {array item : String} {next : Cursor} {elements : List String}
    (hnames : ∀ name, run.environment.hasArray name = names.array name)
    (hheader : run.cursor.header names = .ok (array, item, next))
    (helements : run.environment.array? array = some elements) :
    ∃ inside, inside.cursor = next ∧ inside.environment = run.environment.enter frame ∧
      run.Writes [] inside ∧
      (∀ later, passes body item elements emit inside = .ok () later →
        ∃ last, loop body frame emit run = .ok () last ∧ last.cursor = later.cursor ∧
          last.environment = later.environment.leave.2 ∧ later.Writes [] last) ∧
      ∀ error later, passes body item elements emit inside = .error error later →
        loop body frame emit run = .error error later := by
  have hheads := Cursor.header_heads names run.cursor
  rw [hheader] at hheads
  cases hheads with
  | read hfirst harray hsecond hthird =>
      obtain ⟨arrayToken, run₁, hrun₁, hfollows₁, rfl⟩ := demand_ok hfirst (by decide)
      rw [← hfollows₁.cursor] at hsecond
      obtain ⟨itemToken, run₂, hrun₂, hfollows₂, rfl⟩ := demand_ok hsecond (by decide)
      rw [← hfollows₂.cursor] at hthird
      obtain ⟨run₃, hrun₃, hfollows₃⟩ := close_ok hthird
      have hfollows := (hfollows₁.trans hfollows₂).trans hfollows₃
      have hhas : run₁.environment.hasArray arrayToken.text = true := by
        rw [hfollows₁.environment, hnames, harray]
      have hfound : (run₃.environment.enter frame).array arrayToken.text = .ok elements := by
        simp [Environment.array, Environment.array?_enter, hfollows.environment, helements]
      let started : Event := .loopStarted frame arrayToken.text itemToken.text elements.length
        (run₃.environment.enter frame).depth emit
      let inside : Run := { run₃ with
        environment := run₃.environment.enter frame
        journal := run₃.journal.push
          ⟨started, run₃.cursor.position, run₃.environment.enter frame⟩ }
      have hloop : loop body frame emit run =
          (passes body itemToken.text elements emit >>= fun _ => do
            modify fun run => { run with environment := run.environment.leave.2 }
            note (.loopEnded frame (← get).environment.depth)) inside := by
        unfold loop
        rw [bind_ok hrun₁]
        simp only [bind_get, hhas, Bool.not_true, Bool.false_eq_true, if_false]
        rw [bind_ok hrun₂, bind_ok hrun₃]
        simp only [bind_modify, bind_get, hfound]
        rw [bind_ok (resolve_ok elements)]
        rfl
      refine ⟨inside, hfollows.cursor, congrArg (·.enter frame) hfollows.environment,
        ⟨hfollows.sink, (Journal.passes_push ..).trans hfollows.passes⟩, ?_, ?_⟩
      · intro later hlater
        rw [hloop, bind_ok hlater]
        exact ⟨_, rfl, rfl, rfl, rfl, Journal.passes_push ..⟩
      · intro error later hlater
        rw [hloop, bind_error hlater]

theorem loop_error (body : Bool → Rendering Unit) (frame : String) (emit : Bool)
    {fault : Fault} (hnames : ∀ name, run.environment.hasArray name = names.array name)
    (hheader : run.cursor.header names = .error fault) :
    ∃ number later, loop body frame emit run = .error (fault.error number) later ∧
      run.Writes [] later := by
  have hheads := Cursor.header_heads names run.cursor
  rw [hheader] at hheads
  cases hheads with
  | brokenArray hfirst =>
      obtain ⟨number, later, hlater, hwrites⟩ := demand_error hfirst
      exact ⟨number, later, by rw [loop, bind_error hlater], hwrites⟩
  | undefined hfirst harray =>
      obtain ⟨arrayToken, run₁, hrun₁, hfollows₁, rfl⟩ := demand_ok hfirst (by decide)
      have hhas : run₁.environment.hasArray arrayToken.text = false := by
        simpa [hfollows₁.environment, hnames] using harray
      refine ⟨0, run₁, ?_, hfollows₁.toWrites⟩
      rw [loop, bind_ok hrun₁]
      simp [hhas]
      rfl
  | brokenItem hfirst harray hsecond =>
      obtain ⟨arrayToken, run₁, hrun₁, hfollows₁, rfl⟩ := demand_ok hfirst (by decide)
      rw [← hfollows₁.cursor] at hsecond
      obtain ⟨number, later, hlater, hwrites⟩ := demand_error hsecond
      refine ⟨number, later, ?_, hfollows₁.toWrites.trans hwrites⟩
      have hhas : run₁.environment.hasArray arrayToken.text = true := by
        rw [hfollows₁.environment, hnames, harray]
      rw [loop, bind_ok hrun₁]
      simp only [bind_get, hhas, Bool.not_true, Bool.false_eq_true, if_false]
      rw [bind_error hlater]
  | brokenClose hfirst harray hsecond hthird =>
      obtain ⟨arrayToken, run₁, hrun₁, hfollows₁, rfl⟩ := demand_ok hfirst (by decide)
      rw [← hfollows₁.cursor] at hsecond
      obtain ⟨itemToken, run₂, hrun₂, hfollows₂, rfl⟩ := demand_ok hsecond (by decide)
      rw [← hfollows₂.cursor] at hthird
      obtain ⟨number, later, hlater, hwrites⟩ := close_error hthird
      refine ⟨number, later, ?_, (hfollows₁.toWrites.trans hfollows₂.toWrites).trans hwrites⟩
      have hhas : run₁.environment.hasArray arrayToken.text = true := by
        rw [hfollows₁.environment, hnames, harray]
      rw [loop, bind_ok hrun₁]
      simp only [bind_get, hhas, Bool.not_true, Bool.false_eq_true, if_false]
      rw [bind_ok hrun₂, bind_error hlater]

/-- The value of a name is written, and the tag remains to be closed. -/
theorem insertValue_eq {name value : String} (emit : Bool) (hsink : run.sink.capacity = none)
    (hvalue : run.environment.value? name = some value) :
    ∃ written, insertValue name emit run = discard (demand .scriptEnd) written ∧
      run.Follows run.cursor (if emit then [value] else []) written := by
  have hfound : run.environment.value name = .ok value := by simp [Environment.value, hvalue]
  obtain ⟨written, hwritten, hfollows⟩ := write_ok value hsink
  unfold insertValue
  simp only [bind_get, hfound]
  rw [bind_ok (resolve_ok value)]
  cases emit with
  | false => exact ⟨run, rfl, .refl run⟩
  | true => exact ⟨written, bind_ok hwritten, hfollows⟩

theorem insertValue_unbound {name : String} (emit : Bool)
    (hvalue : run.environment.value? name = none) :
    insertValue name emit run = .error (.unresolved (.undefinedIdentifier name)) run := by
  have hfound : run.environment.value name = .error (.undefinedIdentifier name) := by
    simp [Environment.value, hvalue]
  unfold insertValue
  simp only [bind_get, hfound]
  rfl

end Tags

/-! ## Blocks -/

section Blocks

variable {run : Run} {values : Values} {arrays : Arrays} {scope : List (String × String)}
  {next : Cursor} (blocks : Nat) (emit : Bool)

theorem body_scriptBegin {span : Span}
    (hscan : run.cursor.scan = (.ok (.scriptBegin, span), next)) :
    ∃ opened, body (blocks + 1) emit run = (scan .tag >>= tag (body blocks) emit) opened ∧
      run.Follows next [] opened := by
  obtain ⟨opened, hopened, hfollows⟩ := scan_ok .body hscan
  refine ⟨opened, ?_, hfollows⟩
  rw [body, block, bind_ok hopened]
  rfl

theorem body_tag {opening : Cursor} {span : Span} {mark : Mark}
    (hscan : run.cursor.scan = (.ok (.scriptBegin, span), opening))
    (htag : opening.scan = (.ok mark, next)) :
    ∃ number later, body (blocks + 1) emit run =
        tag (body blocks) emit (mark.1.token number mark.2) later ∧
      run.Follows next [] later := by
  obtain ⟨opened, hopened, hfollows⟩ := body_scriptBegin blocks emit hscan
  rw [← hfollows.cursor] at htag
  obtain ⟨later, hlater, hfollows'⟩ := scan_ok .tag htag
  exact ⟨opened.loops, later, hopened.trans (bind_ok hlater), hfollows.trans hfollows'⟩

theorem body_literal {text : String} (hsink : run.sink.capacity = none)
    (hreads : Block.Reads (.ofBindings values arrays) (scope.map Prod.fst) run.cursor
      (.literal text) next) :
    ∃ later, body (blocks + 1) emit run = body blocks emit later ∧
      run.Follows next (if emit then [text] else []) later := by
  cases hreads with
  | tag _ htag => cases htag
  | literal hscan =>
      obtain ⟨scanned, hscanned, hfollows⟩ := scan_ok .body hscan
      obtain ⟨written, hwritten, hfollows'⟩ := write_ok text (hfollows.capacity ▸ hsink)
      rw [body, block, bind_ok hscanned]
      cases emit with
      | false => exact ⟨scanned, rfl, hfollows⟩
      | true => exact ⟨written, bind_ok hwritten, hfollows.cursor ▸ hfollows.trans hfollows'⟩

theorem body_endOfInput
    (hreads : Block.Reads (.ofBindings values arrays) (scope.map Prod.fst) run.cursor
      .endOfInput next) :
    ∃ later, body (blocks + 1) emit run = .ok () later ∧ run.Follows next [] later := by
  cases hreads with
  | tag _ htag => cases htag
  | endOfInput hscan =>
      obtain ⟨scanned, hscanned, hfollows⟩ := scan_ok .body hscan
      refine ⟨scanned, ?_, hfollows⟩
      rw [body, block, bind_ok hscanned]
      rfl

theorem body_loopEnd (hholds : run.environment.Holds values arrays scope)
    (hreads : Block.Reads (.ofBindings values arrays) (scope.map Prod.fst) run.cursor
      .loopEnd next) :
    ∃ later, body (blocks + 1) emit run = .ok () later ∧ run.Follows next [] later := by
  cases hreads with
  | tag hscan htag =>
      cases htag with
      | loopEnd hscan' hitems hclose =>
          obtain ⟨number, later, hlater, hfollows⟩ := body_tag blocks emit hscan hscan'
          rw [← hfollows.cursor] at hclose
          obtain ⟨closed, hclosed, hfollows'⟩ := close_ok hclose
          have hroot : later.environment.atRoot = false := by
            simpa [hfollows.environment, hholds.atRoot] using hitems
          refine ⟨closed, ?_, hfollows.trans hfollows'⟩
          rw [hlater, tag]
          simp only [Lexeme.token_kind, Lexeme.kind, bind_get, hroot]
          exact hclosed

/-- The value of a bound name, after which the tag is to be closed. -/
private theorem body_identifier {opening : Cursor} {name : String} {span span' : Span}
    (hsink : run.sink.capacity = none)
    (hholds : run.environment.Holds values arrays scope)
    (hscan : run.cursor.scan = (.ok (.scriptBegin, span), opening))
    (hscan' : opening.scan = (.ok (.identifier name, span'), next))
    (hbound : (Names.ofBindings values arrays).binds (scope.map Prod.fst) name) :
    ∃ written, body (blocks + 1) emit run =
        (discard (demand .scriptEnd) >>= fun _ => body blocks emit) written ∧
      run.Follows next (if emit then (valueIn values scope name).toList else []) written := by
  obtain ⟨number, later, hlater, hfollows⟩ := body_tag blocks emit hscan hscan'
  rw [Names.binds_ofBindings, Option.isSome_iff_exists] at hbound
  obtain ⟨value, hvalue⟩ := hbound
  have hfound : later.environment.value? name = some value := by
    rw [hfollows.environment, hholds.value, hvalue]
  obtain ⟨written, hwritten, hfollows'⟩ :=
    insertValue_eq emit (hfollows.capacity ▸ hsink) hfound
  refine ⟨written, ?_, ?_⟩
  · rw [hlater, tag]
    simp only [Lexeme.token_kind, Lexeme.kind, Lexeme.token_text, Lexeme.text, bind,
      EStateM.bind, hwritten]
  · rw [hvalue]
    exact hfollows.cursor ▸ hfollows.trans hfollows'

theorem body_value {name : String} (hsink : run.sink.capacity = none)
    (hholds : run.environment.Holds values arrays scope)
    (hreads : Block.Reads (.ofBindings values arrays) (scope.map Prod.fst) run.cursor
      (.value name) next) :
    ∃ later, body (blocks + 1) emit run = body blocks emit later ∧
      run.Follows next (if emit then (valueIn values scope name).toList else []) later := by
  cases hreads with
  | tag hscan htag =>
      cases htag with
      | value hscan' hbound hclose =>
          obtain ⟨written, hwritten, hfollows⟩ :=
            body_identifier blocks emit hsink hholds hscan hscan' hbound
          rw [← hfollows.cursor] at hclose
          obtain ⟨closed, hclosed, hfollows'⟩ := close_ok hclose
          refine ⟨closed, hwritten.trans (bind_ok hclosed), ?_⟩
          simpa using hfollows.trans hfollows'

theorem body_brokenValue {name : String} {fault : Fault} (hsink : run.sink.capacity = none)
    (hholds : run.environment.Holds values arrays scope)
    (hreads : Block.Reads (.ofBindings values arrays) (scope.map Prod.fst) run.cursor
      (.brokenValue name fault) next) :
    ∃ number later, body (blocks + 1) emit run = .error (fault.error number) later ∧
      run.Writes (if emit then (valueIn values scope name).toList else []) later := by
  cases hreads with
  | tag hscan htag =>
      cases htag with
      | brokenValue hscan' hbound hclose =>
          obtain ⟨written, hwritten, hfollows⟩ :=
            body_identifier blocks emit hsink hholds hscan hscan' hbound
          rw [← hfollows.cursor] at hclose
          obtain ⟨number, later, hlater, hwrites⟩ := close_error hclose
          refine ⟨number, later, hwritten.trans (bind_error hlater), ?_⟩
          simpa using hfollows.toWrites.trans hwrites

theorem body_loopBegin {array item : String}
    (hreads : Block.Reads (.ofBindings values arrays) (scope.map Prod.fst) run.cursor
      (.loopBegin array item) next) :
    ∃ header frame later, body (blocks + 1) emit run =
        (loop (pass (body blocks)) frame emit >>= fun _ => body blocks emit) later ∧
      run.Follows header [] later ∧
      header.header (.ofBindings values arrays) = .ok (array, item, next) := by
  cases hreads with
  | tag hscan htag =>
      cases htag with
      | loopBegin hscan' hheader =>
          obtain ⟨number, later, hlater, hfollows⟩ := body_tag blocks emit hscan hscan'
          exact ⟨_, Lexeme.loopTag number, later, hlater, hfollows, hheader⟩

theorem body_broken {fault : Fault} (hholds : run.environment.Holds values arrays scope)
    (hreads : Block.Reads (.ofBindings values arrays) (scope.map Prod.fst) run.cursor
      (.broken fault) next) :
    ∃ number later, body (blocks + 1) emit run = .error (fault.error number) later ∧
      run.Writes [] later := by
  cases hreads with
  | lexical hscan =>
      obtain ⟨later, hlater, hwrites⟩ := scan_error .body hscan
      exact ⟨0, later, by rw [body, block, bind_error hlater]; rfl, hwrites⟩
  | @unexpected _ mark hscan hkind =>
      obtain ⟨later, hlater, hfollows⟩ := scan_ok .body hscan
      refine ⟨run.loops, later, ?_, hfollows.toWrites⟩
      rw [body, block, bind_ok hlater]
      obtain ⟨lexeme, span⟩ := mark
      cases lexeme with
      | endOfInput | literal | scriptBegin => simp [Lexeme.kind] at hkind
      | _ => rfl
  | tag hscan htag =>
      cases htag with
      | lexical hscan' =>
          obtain ⟨opened, hopened, hfollows⟩ := body_scriptBegin blocks emit hscan
          rw [← hfollows.cursor] at hscan'
          obtain ⟨later, hlater, hwrites⟩ := scan_error .tag hscan'
          exact ⟨0, later, hopened.trans (bind_error hlater), hfollows.toWrites.trans hwrites⟩
      | @unexpected _ mark hscan' hkind =>
          obtain ⟨number, later, hlater, hfollows⟩ := body_tag blocks emit hscan hscan'
          refine ⟨number, later, ?_, hfollows.toWrites⟩
          rw [hlater]
          obtain ⟨lexeme, span⟩ := mark
          cases lexeme with
          | identifier | loopBegin | loopEnd => simp [Lexeme.kind] at hkind
          | _ => rfl
      | @unbound _ name _ hscan' hbound =>
          obtain ⟨number, later, hlater, hfollows⟩ := body_tag blocks emit hscan hscan'
          have hvalue : later.environment.value? name = none := by
            rw [hfollows.environment, hholds.value]
            simpa [Names.binds_ofBindings] using hbound
          refine ⟨number, later, ?_, hfollows.toWrites⟩
          rw [hlater, tag]
          exact bind_error (insertValue_unbound emit hvalue)
      | brokenHeader hscan' hheader =>
          obtain ⟨number, later, hlater, hfollows⟩ := body_tag blocks emit hscan hscan'
          rw [← hfollows.cursor] at hheader
          obtain ⟨number', last, hlast, hwrites⟩ :=
            loop_error (pass (body blocks)) (Lexeme.loopTag number) emit
              (fun name => by rw [hfollows.environment, hholds.hasArray]) hheader
          refine ⟨number', last, ?_, hfollows.toWrites.trans hwrites⟩
          rw [hlater, tag]
          exact bind_error hlast
      | unmatched hscan' hitems =>
          obtain ⟨number, later, hlater, hfollows⟩ := body_tag blocks emit hscan hscan'
          have hroot : later.environment.atRoot = true := by
            rw [hfollows.environment, hholds.atRoot, hitems]
          refine ⟨number, later, ?_, hfollows.toWrites⟩
          rw [hlater, tag]
          simp only [Lexeme.token_kind, Lexeme.kind, bind_get, hroot]
          rfl
      | brokenLoopEnd hscan' hitems hclose =>
          obtain ⟨number, later, hlater, hfollows⟩ := body_tag blocks emit hscan hscan'
          rw [← hfollows.cursor] at hclose
          obtain ⟨number', last, hlast, hwrites⟩ := close_error hclose
          have hroot : later.environment.atRoot = false := by
            simpa [hfollows.environment, hholds.atRoot] using hitems
          refine ⟨number', last, ?_, hfollows.toWrites.trans hwrites⟩
          rw [hlater, tag]
          simp only [Lexeme.token_kind, Lexeme.kind, bind_get, hroot]
          exact hlast

end Blocks

end Rendering

end Stencil
