import Stencil.Proofs.Execution

/-!
# Verdicts

Whether a template can be rendered, and which fault stops it if it cannot, is
found in one pass over its tokens by a checker that knows no more than which
names are bound.  What the names stand for, and how often the body of a loop
is passed over, makes no difference.
-/

namespace Stencil

/-! ## Checking -/

/-- Where a checker stands: between tags, or before a certain part of a tag. -/
inductive Stage where
  | between
  | opened
  | array
  | item
  | closing
  deriving DecidableEq, Repr

/-- All a checker keeps: its stage, and the items of the open loops from the innermost. -/
structure Checker where
  stage : Stage
  items : List String
  deriving DecidableEq, Repr

/-- The kind of token a stage needs, if there is only one. -/
def Stage.wants : Stage → Option TokenKind
  | .between | .opened => none
  | .array | .item => some .identifier
  | .closing => some .scriptEnd

namespace Checker

def receive (names : Names) : Checker → Mark → Except Fault Checker
  | ⟨.between, items⟩, mark =>
      match mark.1 with
      | .endOfInput | .literal _ => .ok ⟨.between, items⟩
      | .scriptBegin => .ok ⟨.opened, items⟩
      | _ => .error (.unexpected mark)
  | ⟨.opened, items⟩, mark =>
      match mark.1, items with
      | .identifier name, items =>
          if names.binds items name then .ok ⟨.closing, items⟩
          else .error (.unresolved (.undefinedIdentifier name))
      | .loopBegin, items => .ok ⟨.array, items⟩
      | .loopEnd, [] => .error (.unmatchedLoopEnd mark.2)
      | .loopEnd, _ :: outer => .ok ⟨.closing, outer⟩
      | _, _ => .error (.unexpected mark)
  | ⟨.array, items⟩, mark =>
      match mark.1 with
      | .identifier array =>
          if names.array array then .ok ⟨.item, items⟩
          else .error (.unresolved (.undefinedArray array))
      | _ => .error (.expected .identifier mark)
  | ⟨.item, items⟩, mark =>
      match mark.1 with
      | .identifier item => .ok ⟨.closing, item :: items⟩
      | _ => .error (.expected .identifier mark)
  | ⟨.closing, items⟩, mark =>
      match mark.1 with
      | .scriptEnd => .ok ⟨.between, items⟩
      | _ => .error (.expected .scriptEnd mark)

def read (names : Names) (checker : Checker) : Reading → Except Fault Checker
  | .ok mark => checker.receive names mark
  | .error error => .error (.lexical error)

def run (names : Names) (checker : Checker) (readings : List Reading) :
    Except Fault Checker :=
  readings.foldlM (read names) checker

end Checker

/-- The verdict on a template, from its tokens up to the end of the input or a fault. -/
def check (names : Names) (template : String) : Except Fault Unit :=
  (Checker.run names ⟨.between, []⟩ (Cursor.ofTemplate template).readings).map fun _ => ()

namespace Checker

/-! ## Single tokens -/

section Tokens

variable {names : Names} {checker : Checker} {cursor next : Cursor} {mark : Mark}
  {items : List String} {fault : Fault}

private theorem run_cons {reading : Reading} {readings : List Reading} :
    run names checker (reading :: readings) =
      (read names checker reading).bind (run names · readings) := by
  simp only [run, List.foldlM_cons]
  rfl

theorem run_of_scan {later : Checker} (hscan : cursor.scan = (.ok mark, next))
    (hmark : mark.1 ≠ .endOfInput) (hreceive : checker.receive names mark = .ok later) :
    run names checker cursor.readings = run names later next.readings := by
  rw [Cursor.readings_eq_cons hscan hmark, run_cons, read, hreceive]
  rfl

theorem run_of_error (hscan : read names checker cursor.scan.1 = .error fault) :
    run names checker cursor.readings = .error fault := by
  obtain ⟨readings, hreadings⟩ : ∃ readings, cursor.readings = cursor.scan.1 :: readings :=
    List.head?_eq_some_iff.mp cursor.head?_readings
  rw [hreadings, run_cons, hscan]
  rfl

theorem run_lexical {error : ScanError} (hscan : cursor.scan = (.error error, next)) :
    run names checker cursor.readings = .error (.lexical error) :=
  run_of_error (by rw [hscan]; rfl)

theorem run_fault (hscan : cursor.scan = (.ok mark, next))
    (hreceive : checker.receive names mark = .error fault) :
    run names checker cursor.readings = .error fault :=
  run_of_error (by rw [hscan]; exact hreceive)

private theorem receive_of_kind_ne {stage : Stage} {wanted : TokenKind}
    (hstage : stage.wants = some wanted) (hkind : mark.1.kind ≠ wanted) :
    receive names ⟨stage, items⟩ mark = .error (.expected wanted mark) := by
  obtain ⟨lexeme, span⟩ := mark
  cases stage <;> cases hstage <;> cases lexeme <;> first | rfl | exact absurd rfl hkind

theorem run_of_demand_error {stage : Stage} {wanted : TokenKind}
    (hstage : stage.wants = some wanted) (hdemand : cursor.demand wanted = .error fault) :
    run names ⟨stage, items⟩ cursor.readings = .error fault := by
  rcases Cursor.scan_of_demand_error hdemand with
    ⟨error, next, hscan, rfl⟩ | ⟨mark, next, hscan, hkind, rfl⟩
  · exact run_lexical hscan
  · exact run_fault hscan (receive_of_kind_ne hstage hkind)

end Tokens

/-! ## Blocks -/

section Blocks

variable {names : Names} {items : List String} {cursor next : Cursor} {block : Block}

theorem run_closing {text : String} (hclose : cursor.demand .scriptEnd = .ok (text, next)) :
    run names ⟨.closing, items⟩ cursor.readings = run names ⟨.between, items⟩ next.readings := by
  obtain ⟨span, hscan⟩ := Cursor.scan_of_demand_scriptEnd hclose
  exact run_of_scan hscan (by simp) rfl

theorem run_array {array : String} (hfirst : cursor.demand .identifier = .ok (array, next)) :
    run names ⟨.array, items⟩ cursor.readings =
      if names.array array then run names ⟨.item, items⟩ next.readings
      else .error (.unresolved (.undefinedArray array)) := by
  obtain ⟨span, hscan⟩ := Cursor.scan_of_demand_identifier hfirst
  by_cases harray : names.array array
  · rw [if_pos harray]
    exact run_of_scan hscan (by simp) (by simp [receive, harray])
  · rw [if_neg harray]
    exact run_fault hscan (by simp [receive, harray])

theorem run_item {item : String} (hsecond : cursor.demand .identifier = .ok (item, next)) :
    run names ⟨.item, items⟩ cursor.readings =
      run names ⟨.closing, item :: items⟩ next.readings := by
  obtain ⟨span, hscan⟩ := Cursor.scan_of_demand_identifier hsecond
  exact run_of_scan hscan (by simp) rfl

theorem run_header (cursor : Cursor) :
    run names ⟨.array, items⟩ cursor.readings =
      (cursor.header names).bind fun (_, item, next) =>
        run names ⟨.between, item :: items⟩ next.readings := by
  have hheads := Cursor.header_heads names cursor
  generalize cursor.header names = found at hheads ⊢
  cases hheads with
  | brokenArray hfirst => exact run_of_demand_error rfl hfirst
  | undefined hfirst harray => rw [run_array hfirst, if_neg harray]; rfl
  | brokenItem hfirst harray hsecond =>
      rw [run_array hfirst, if_pos harray]
      exact run_of_demand_error rfl hsecond
  | brokenClose hfirst harray hsecond hthird =>
      rw [run_array hfirst, if_pos harray, run_item hsecond]
      exact run_of_demand_error rfl hthird
  | read hfirst harray hsecond hthird =>
      rw [run_array hfirst, if_pos harray, run_item hsecond, run_closing hthird]
      rfl

/-- How a checker goes on that has come past a block. -/
def resume (names : Names) (items : List String) (next : Cursor) : Block → Except Fault Checker
  | .endOfInput => .ok ⟨.between, items⟩
  | .literal _ | .value _ => run names ⟨.between, items⟩ next.readings
  | .loopBegin _ item => run names ⟨.between, item :: items⟩ next.readings
  | .loopEnd => run names ⟨.between, items.tail⟩ next.readings
  | .broken fault | .brokenValue _ fault => .error fault

theorem run_of_readsTag (h : Block.ReadsTag names items cursor block next) :
    run names ⟨.opened, items⟩ cursor.readings = resume names items next block := by
  cases h with
  | lexical hscan => exact run_lexical hscan
  | @unexpected _ mark hscan hkind =>
      apply run_fault hscan
      obtain ⟨lexeme, span⟩ := mark
      cases lexeme with
      | identifier | loopBegin | loopEnd => simp [Lexeme.kind] at hkind
      | _ => rfl
  | unbound hscan hbound => exact run_fault hscan (if_neg hbound)
  | value hscan hbound hclose =>
      refine (run_of_scan hscan (by simp) ?_).trans (run_closing hclose)
      exact if_pos hbound
  | brokenValue hscan hbound hclose =>
      have hname : run names ⟨.opened, items⟩ cursor.readings =
          run names ⟨.closing, items⟩ next.readings :=
        run_of_scan hscan (by simp) (if_pos hbound)
      exact hname.trans (run_of_demand_error rfl hclose)
  | loopBegin hscan hheader | brokenHeader hscan hheader =>
      apply (run_of_scan hscan (by simp) rfl).trans
      rw [run_header, hheader]
      rfl
  | unmatched hscan hitems =>
      obtain rfl := List.isEmpty_iff.mp hitems
      exact run_fault hscan rfl
  | loopEnd hscan hitems hclose =>
      obtain ⟨item, outer, rfl⟩ := List.ne_nil_iff_exists_cons.mp (mt List.isEmpty_iff.mpr hitems)
      apply (run_of_scan hscan (by simp) rfl).trans
      exact run_closing hclose
  | brokenLoopEnd hscan hitems hclose =>
      obtain ⟨item, outer, rfl⟩ := List.ne_nil_iff_exists_cons.mp (mt List.isEmpty_iff.mpr hitems)
      apply (run_of_scan hscan (by simp) rfl).trans
      exact run_of_demand_error rfl hclose

theorem run_of_reads (h : Block.Reads names items cursor block next) :
    run names ⟨.between, items⟩ cursor.readings = resume names items next block := by
  cases h with
  | lexical hscan => exact run_lexical hscan
  | @unexpected _ mark hscan hkind =>
      apply run_fault hscan
      obtain ⟨lexeme, span⟩ := mark
      cases lexeme with
      | endOfInput | literal | scriptBegin => simp [Lexeme.kind] at hkind
      | _ => rfl
  | endOfInput hscan =>
      rw [Cursor.readings_of_isLast (by simp [hscan, Reading.isLast]), hscan]
      rfl
  | literal hscan => exact run_of_scan hscan (by simp) rfl
  | tag hscan htag =>
      apply (run_of_scan hscan (by simp) rfl).trans
      exact run_of_readsTag htag

end Blocks

/-! ## Bodies -/

section Bodies

variable {names : Names} {ending : Ending} {items : List String} {cursor after : Cursor}
  {body : Body ending}

/-- A checker leaves a loop with its body, and any other body with the verdict on it. -/
theorem run_of_readsAs (h : body.ReadsAs names items cursor after) :
    (ending = .loop → run names ⟨.between, items⟩ cursor.readings =
      run names ⟨.between, items.tail⟩ after.readings) ∧
    (ending ≠ .loop → (run names ⟨.between, items⟩ cursor.readings).map (fun _ => ()) =
      body.verdict) := by
  induction h with
  | endOfInput hread | broken hread | brokenValue hread =>
      rw [run_of_reads hread]
      exact ⟨nofun, fun _ => rfl⟩
  | loopEnd hread =>
      rw [run_of_reads hread]
      exact ⟨fun _ => rfl, fun hloop => absurd rfl hloop⟩
  | literal hread _ ih | value hread _ ih =>
      rw [run_of_reads hread]
      exact ih
  | loop hread _ _ ihInside ihRest =>
      rw [run_of_reads hread, resume, ihInside.1 rfl]
      exact ihRest
  | openLoop hread _ hopen ih =>
      rw [run_of_reads hread]
      exact ⟨fun hloop => absurd hloop hopen, ih.2⟩

end Bodies

end Checker

/-- The checker's verdict is that of the outline. -/
theorem check_of_readsAs {names : Names} {template : String} {ending : Ending}
    {body : Body ending} {after : Cursor}
    (h : body.ReadsAs names [] (.ofTemplate template) after) :
    check names template = body.verdict :=
  (Checker.run_of_readsAs h).2 fun hloop => h.items_ne_nil hloop rfl

/--
A rendering comes to the verdict of the checker, whatever is bound to the
names the checker knows.  Of the passes that any two renderings of a template
make, those that begin at one position also end at one.
-/
theorem render_reports_check (values : Values) (arrays : Arrays) (template before : String) :
    Reports (check (.ofBindings values arrays) template)
        (render values arrays template (.unlimited before)).result ∧
      ∀ (values' : Values) (arrays' : Arrays) (before' : String),
        (Names.ofBindings values' arrays' = Names.ofBindings values arrays →
          Reports (check (.ofBindings values arrays) template)
            (render values' arrays' template (.unlimited before')).result) ∧
        ∀ pass ∈ (render values arrays template (.unlimited before)).journal.passes.ended,
          ∀ pass' ∈ (render values' arrays' template (.unlimited before')).journal.passes.ended,
            pass'.1 = pass.1 → pass'.2 = pass.2 := by
  have hrender : ∀ (values : Values) (arrays : Arrays) (before : String),
      let outcome := render values arrays template (.unlimited before)
      Reports (check (.ofBindings values arrays) template) outcome.result ∧
        ∀ pass ∈ outcome.journal.passes.ended, FullPass template.toList pass := by
    intro values arrays before
    obtain ⟨ending, outline, after, hreads⟩ :=
      Body.exists_readsAs (.ofBindings values arrays) [] (.ofTemplate template)
    obtain ⟨hreports, -, hpasses⟩ := render_of_readsAs hreads before
    exact ⟨check_of_readsAs hreads ▸ hreports, hpasses⟩
  refine ⟨(hrender values arrays before).1, fun values' arrays' before' => ⟨?_, ?_⟩⟩
  · intro hnames
    exact hnames ▸ (hrender values' arrays' before').1
  · intro pass hpass pass' hpass' hstart
    have hfull := (hrender values arrays before).2 pass hpass
    have hfull' := (hrender values' arrays' before').2 pass' hpass'
    obtain ⟨start, finish⟩ := pass
    obtain ⟨start', finish'⟩ := pass'
    obtain rfl : start' = start := hstart
    exact hfull.unique hfull'

/-- A loop without elements comes to the verdict that one with elements comes to. -/
theorem render_reports_check_elements :
    let template := "\x7b\x7b#loop xs x\x7d\x7d\x7b\x7b/loop\x7d\x7d\x7b\x7bu\x7d\x7d"
    let none : Arrays := .ofList [("xs", [])]
    let some : Arrays := .ofList [("xs", ["1", "2"])]
    Names.ofBindings .empty none = .ofBindings .empty some ∧
      Reports (check (.ofBindings .empty some) template)
        (render .empty none template (.unlimited "")).result := by
  intro template none some
  have hnames : Names.ofBindings .empty none = .ofBindings .empty some := by
    simp [none, some, Names.ofBindings, Bindings.ofList, Bindings.contains,
      Bindings.find?_put, funext_iff, apply_ite]
  exact ⟨hnames, ((render_reports_check .empty some template "").2 .empty none "").1 hnames⟩

end Stencil
