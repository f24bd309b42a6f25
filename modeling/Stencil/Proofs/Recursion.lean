import Stencil.Proofs.Walks

/-!
# Recursion

The number of blocks that a body is given decides nothing, as long as it is
enough for what is ahead.  A body that renders block after block, and the
bodies of loops like itself, comes to its end before that number does,
whatever would be done after it.
-/

namespace Stencil

namespace Rendering

/-! ## Bodies cut short -/

/-- A body of so many blocks, and what comes in place of those behind them. -/
def bodyUntil (last : Bool → Rendering Unit) : Nat → Bool → Rendering Unit
  | 0, emit => last emit
  | blocks + 1, emit => block (bodyUntil last blocks) emit

section Congruence

variable {α β : Type} {run : Run}

theorem bind_congr_first {first first' : Rendering α} (h : first run = first' run)
    (second : α → Rendering β) : (first >>= second) run = (first' >>= second) run := by
  simp only [bind, EStateM.bind, h]

theorem bind_congr_second {first : Rendering α} {second second' : α → Rendering β}
    (h : ∀ value later, first run = .ok value later →
      second value later = second' value later) :
    (first >>= second) run = (first >>= second') run := by
  cases hresult : first run with
  | ok value later => rw [bind_ok hresult, bind_ok hresult, h value later hresult]
  | error error later => rw [bind_error hresult, bind_error hresult]

/-- A step that only moves leaves no more to scan than there was. -/
theorem scanBound_le_of_ok {step : Rendering α} (h : run.MovesTo (step run)) {value : α}
    {later : Run} (hresult : step run = .ok value later) :
    later.cursor.scanBound ≤ run.cursor.scanBound := by
  rw [hresult] at h
  exact h.scanBound_le

end Congruence

/-- The bodies do the same wherever less than the bound is left to scan. -/
def SameBelow (bound : Nat) (first second : Bool → Rendering Unit) : Prop :=
  ∀ (emit : Bool) (run : Run), run.cursor.scanBound < bound → first emit run = second emit run

section SameBelow

variable {bound : Nat} {first second : Bool → Rendering Unit} {run : Run}

theorem round_same (h : SameBelow bound first second) {start : Cursor}
    (hstart : start.scanBound < bound) (item : String) (emit : Bool) (value : String)
    (run : Run) :
    round start item (pass first emit) value run =
      round start item (pass second emit) value run := by
  rw [round_eq, round_eq]
  exact bind_congr_first (h emit _ hstart) _

theorem passes_same (h : SameBelow bound first second) (hrun : run.cursor.scanBound < bound)
    (item : String) (elements : List String) (emit : Bool) :
    passes (pass first) item elements emit run = passes (pass second) item elements emit run := by
  have hsilent := round_same h hrun item false "" run
  have hrounds (elements : List String) (later : Run) :
      elements.forM (round run.cursor item (pass first true)) later =
        elements.forM (round run.cursor item (pass second true)) later := by
    induction elements generalizing later with
    | nil => rfl
    | cons element elements ih =>
        refine (bind_congr_first (round_same h hrun item true element later) fun _ =>
          elements.forM (round run.cursor item (pass first true))).trans ?_
        exact bind_congr_second fun _ middle _ => ih middle
  cases emit with
  | false => exact hsilent
  | true =>
      cases elements with
      | nil => exact hsilent
      | cons element elements => exact hrounds (element :: elements) run

theorem loop_same (h : SameBelow bound first second) (hrun : run.cursor.scanBound < bound)
    (frame : String) (emit : Bool) :
    loop (pass first) frame emit run = loop (pass second) frame emit run := by
  unfold loop
  refine bind_congr_second fun array named harray => ?_
  have hnamed := scanBound_le_of_ok (demand_moves .identifier run) harray
  rw [bind_get, bind_get]
  cases named.environment.hasArray array.text with
  | false => rfl
  | true =>
      simp only [Bool.not_true, Bool.false_eq_true, if_false]
      refine bind_congr_second fun item itemed hitem => ?_
      have hitemed := scanBound_le_of_ok (demand_moves .identifier named) hitem
      refine bind_congr_second fun _ closed hclosed => ?_
      have hclosed := scanBound_le_of_ok (discard_moves (demand_moves .scriptEnd itemed)) hclosed
      simp only [bind_modify, bind_get]
      refine bind_congr_second fun elements inside hinside => ?_
      have hinside := scanBound_le_of_ok (resolve_moves _ _) hinside
      refine bind_congr_second fun _ started hstarted => ?_
      have hbegun : started.cursor.scanBound < bound := by
        cases hstarted
        have hentered : inside.cursor.scanBound ≤ closed.cursor.scanBound := hinside
        exact Nat.lt_of_le_of_lt hentered (by omega)
      exact bind_congr_first (passes_same h hbegun item.text elements emit) _

/-- What the second body leaves is no more than it was given, so that the first may go on there. -/
theorem tag_same (h : SameBelow bound first second) (hwalks : Walks second)
    (hrun : run.cursor.scanBound < bound) (emit : Bool) (token : Token) :
    tag first emit token run = tag second emit token run := by
  obtain ⟨kind, text, span⟩ := token
  cases kind with
  | identifier =>
      refine bind_congr_second fun _ inserted hinserted => h emit inserted ?_
      exact Nat.lt_of_le_of_lt (scanBound_le_of_ok (insertValue_moves text emit run) hinserted) hrun
  | loopBegin =>
      have hloop := loop_same h hrun text emit
      refine (bind_congr_first hloop _).trans (bind_congr_second fun _ closed hclosed => ?_)
      have hwalk := loop_walks hwalks text emit run []
      rw [hclosed] at hwalk
      have hle : closed.cursor.scanBound ≤ run.cursor.scanBound := hwalk.2.2
      exact h emit closed (Nat.lt_of_le_of_lt hle hrun)
  | _ => rfl

theorem block_same (h : SameBelow run.cursor.scanBound first second) (hwalks : Walks second)
    (emit : Bool) : block first emit run = block second emit run := by
  unfold block
  refine bind_congr_second fun token scanned htoken => ?_
  have hscanned (hkind : token.kind ≠ .endOfInput) :
      scanned.cursor.scanBound < run.cursor.scanBound := by
    rw [scan_eq] at htoken
    cases hreading : run.cursor.scan.1 with
    | error error =>
        rw [hreading] at htoken
        cases htoken
    | ok mark =>
        rw [hreading] at htoken
        cases htoken
        refine Cursor.scanBound_scan_lt ?_
        rw [hreading]
        simpa [Reading.isLast, Lexeme.kind_eq_endOfInput_iff] using hkind
  obtain ⟨kind, text, span⟩ := token
  cases kind with
  | literal =>
      have hlt := hscanned (by simp)
      cases emit with
      | false => exact h false scanned hlt
      | true =>
          refine bind_congr_second fun _ written hwritten => h true written ?_
          have hle := scanBound_le_of_ok (write_moves text scanned) hwritten
          omega
  | scriptBegin =>
      have hlt := hscanned (by simp)
      refine bind_congr_second fun token opened hopened => tag_same h hwalks ?_ emit token
      exact Nat.lt_of_le_of_lt (scanBound_le_of_ok (scan_moves .tag scanned) hopened) hlt
  | _ => rfl

end SameBelow

/-! ## Enough blocks -/

/-- With as many blocks as there may be scans, nothing comes in their place. -/
theorem bodyUntil_eq (last : Bool → Rendering Unit) {blocks blocks' : Nat} {run : Run}
    (h : run.cursor.scanBound ≤ blocks) (h' : run.cursor.scanBound ≤ blocks') (emit : Bool) :
    bodyUntil last blocks emit run = body blocks' emit run := by
  induction blocks generalizing blocks' run emit with
  | zero => exact absurd run.cursor.scanBound_pos (by omega)
  | succ blocks ih =>
      obtain ⟨fewer, rfl⟩ := run.cursor.exists_eq_succ h'
      exact block_same (fun emit later hlt => ih (by omega) (by omega) emit)
        (body_walks fewer) emit

theorem body_eq_of_le {blocks blocks' : Nat} {run : Run} (h : run.cursor.scanBound ≤ blocks)
    (h' : run.cursor.scanBound ≤ blocks') (emit : Bool) :
    body blocks emit run = body blocks' emit run :=
  (bodyUntil_eq (fun _ => pure ()) h h emit).symm.trans (bodyUntil_eq _ h h' emit)

end Rendering

end Stencil
