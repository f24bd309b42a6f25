import Stencil.Proofs.Brackets
import Stencil.Proofs.Cuts
import Stencil.Proofs.Interruption

/-!
# Unrolling

The scans of a rendering that succeeds are the tokens of its template, unrolled
and numbered anew: the body of a loop is scanned once for every pass, together
with the end that each pass comes to.  So are the tokens that it records.
-/

namespace Stencil

/-! ## Rows of tokens unrolled -/

namespace Body

/-- Whether the body of a loop over the array is written when the loop is. -/
def emits (arrays : Arrays) (emit : Bool) (array : String) : Bool :=
  emit && !((arrays.find? array).getD []).isEmpty

/-- The passes over the body of a loop, of which there is one in silence if none is written. -/
def copies (arrays : Arrays) (emit : Bool) (array : String) : Nat :=
  if emits arrays emit array then ((arrays.find? array).getD []).length else 1

/--
The row of a body, in which the body of each loop is repeated for every pass,
up to the end that the pass comes to.  An open loop ends with the last of the
row, the end of the input, which is then there once more for the body around.
-/
def unroll {α : Type} (arrays : Arrays) {ending : Ending} :
    Bool → Body ending → List α → List α
  | _, .endOfInput, row => row.take 1
  | _, .loopEnd, row => row.take 3
  | _, .broken _, _ | _, .brokenValue .., _ => []
  | emit, .literal _ rest, row => row.take 1 ++ rest.unroll arrays emit (row.drop 1)
  | emit, .value _ rest, row => row.take 3 ++ rest.unroll arrays emit (row.drop 3)
  | emit, .loop array _ inside rest, row =>
      row.take 5 ++
        (List.replicate (copies arrays emit array)
          (inside.unroll arrays (emits arrays emit array) (row.drop 5))).flatten ++
        rest.unroll arrays emit ((row.drop 5).drop inside.lexemes.length)
  | emit, .openLoop array _ inside _, row =>
      row.take 5 ++
        (List.replicate (copies arrays emit array)
          (inside.unroll arrays (emits arrays emit array) (row.drop 5))).flatten ++
        row.drop (row.length - 1)

/-- What is left of the row behind a body; the end of the input stays ahead. -/
def left {α : Type} {ending : Ending} (body : Body ending) (row : List α) : List α :=
  match ending with
  | .input => row.drop (row.length - 1)
  | .loop | .fault => row.drop body.lexemes.length

theorem lexemes_ne_nil {ending : Ending} (body : Body ending) (hwhole : ending ≠ .fault) :
    body.lexemes ≠ [] := by
  cases body with
  | broken | brokenValue => exact absurd rfl hwhole
  | _ => simp [lexemes, opening]

theorem endOfInput_suffix {ending : Ending} (body : Body ending) (hinput : ending = .input) :
    [.endOfInput] <:+ body.lexemes := by
  induction body with
  | endOfInput => exact List.suffix_refl _
  | loopEnd | broken | brokenValue => cases hinput
  | literal text rest ih => exact (ih hinput).trans (List.suffix_cons _ _)
  | value text rest ih => exact (ih hinput).trans (List.suffix_append _ _)
  | loop array item inside rest _ ih =>
      exact (ih hinput).trans ((List.suffix_append _ _).trans (List.suffix_append _ _))
  | openLoop array item inside _ ih => exact (ih hinput).trans (List.suffix_append _ _)

theorem left_append {α : Type} {ending : Ending} {body rest : Body ending} {first row : List α}
    (hlexemes : body.lexemes.length = first.length + rest.lexemes.length) (hrow : row ≠ []) :
    body.left (first ++ row) = rest.left row := by
  have hlength := List.length_pos_iff.mpr hrow
  cases ending with
  | input =>
      have hdrop : (first ++ row).length - 1 = first.length + (row.length - 1) := by
        rw [List.length_append]
        omega
      simp only [left]
      rw [hdrop, List.drop_length_add_append]
  | loop | fault =>
      simp only [left]
      rw [hlexemes, List.drop_length_add_append]

end Body

/-! ## Between two scans -/

namespace Reading

/-- The loops that begin in a row of readings. -/
def loopsIn (readings : List Reading) : Nat :=
  readings.foldl (fun count reading => count + loops reading) 0

theorem loopsIn_concat (readings : List Reading) (last : Reading) :
    loopsIn (readings ++ [last]) = loopsIn readings + loops last := by
  simp [loopsIn]

theorem numbered_append_singleton (readings : List Reading) (last : Reading) :
    numbered 0 (readings ++ [last]) =
      numbered 0 readings ++ [scan (loopsIn readings) last] := by
  have hnumbered (number : Nat) : numbered number (readings ++ [last]) =
      numbered number readings ++
        [scan (readings.foldl (fun count reading => count + loops reading) number) last] := by
    induction readings generalizing number with
    | nil => rfl
    | cons reading readings ih =>
        rw [List.cons_append, numbered, ih, numbered, List.cons_append, List.foldl_cons]
  exact hnumbered 0

end Reading

/-- The marks have been scanned, in a rendering whose arrays are all the root's. -/
structure Run.Noted (arrays : Arrays) (marks : List Mark) (run : Run) : Prop where
  scans : run.journal.scans = Reading.numbered 0 (marks.map .ok)
  loops : run.loops = Reading.loopsIn (marks.map .ok)
  arrays : run.environment.ArraysAtRoot arrays

/-- Some marks have been scanned, and others are ahead. -/
structure Run.Between (arrays : Arrays) (marks ahead : List Mark) (run : Run) : Prop
    extends run.Noted arrays marks where
  ahead : run.cursor.readings = ahead.map .ok

section Between

variable {arrays : Arrays} {marks ahead : List Mark} {mark : Mark} {run : Run}

theorem Run.Noted.note (h : run.Noted arrays marks) {event : Event}
    (hscan : event.scan? = none) : (run.note event).Noted arrays marks where
  scans := by
    rw [← h.scans, Run.note, Journal.scans_push, hscan, Option.toList_none, List.append_nil]
  loops := h.loops
  arrays := h.arrays

theorem Run.Between.note (h : run.Between arrays marks ahead) {event : Event}
    (hscan : event.scan? = none) : (run.note event).Between arrays marks ahead where
  toNoted := h.toNoted.note hscan
  ahead := h.ahead

theorem Run.Noted.scanned (h : run.Noted arrays marks) (hscan : run.cursor.scan.1 = .ok mark)
    (site : Site) : (run.scanned site).Noted arrays (marks ++ [mark]) where
  scans := by
    rw [List.map_append, List.map_singleton, Reading.numbered_append_singleton, ← h.scans,
      ← h.loops, Run.scanned, hscan, Run.note, Journal.scans_push, Event.scan?_ofReading]
    rfl
  loops := by
    rw [List.map_append, List.map_singleton, Reading.loopsIn_concat, ← h.loops, ← hscan]
    rfl
  arrays := h.arrays

theorem Run.Between.scan_eq (h : run.Between arrays marks (mark :: ahead)) :
    run.cursor.scan.1 = .ok mark := by
  have hhead := run.cursor.head?_readings
  rw [h.ahead] at hhead
  exact (Option.some.inj hhead).symm

theorem Run.Between.scanned (h : run.Between arrays marks (mark :: ahead))
    (hend : mark.1 ≠ .endOfInput) (site : Site) :
    (run.scanned site).Between arrays (marks ++ [mark]) ahead where
  toNoted := h.toNoted.scanned h.scan_eq site
  ahead := by
    have hreadings := Cursor.readings_eq_cons (Prod.ext h.scan_eq rfl) hend
    rw [h.ahead, List.map_cons] at hreadings
    exact (List.cons.inj hreadings).2.symm

/-- The end of the input stays ahead. -/
theorem Run.Between.scanned_end (h : run.Between arrays marks [mark])
    (hend : mark.1 = .endOfInput) (site : Site) :
    (run.scanned site).Between arrays (marks ++ [mark]) [mark] where
  toNoted := h.toNoted.scanned h.scan_eq site
  ahead := by
    rw [← h.ahead]
    exact Cursor.readings_scan_of_isLast (by simp [h.scan_eq, Reading.isLast, hend])

end Between

theorem Token.kind_eq (token : Token) : token.kind = token.lexeme.kind := by
  obtain ⟨kind, text, span⟩ := token
  cases kind <;> rfl

theorem Token.text_eq {token : Token} {name : String} (h : token.lexeme = .identifier name) :
    token.text = name := by
  obtain ⟨kind, text, span⟩ := token
  cases kind <;> simp_all [Token.lexeme]

namespace Rendering

/-! ## Steps between scans -/

section Steps

variable {arrays : Arrays} {marks ahead : List Mark} {mark : Mark}

theorem scan_between (hend : mark.1 ≠ .endOfInput) (site : Site) :
    (scan site).Meets (Run.Between arrays marks (mark :: ahead))
      (fun token run => token.lexeme = mark.1 ∧ run.Between arrays (marks ++ [mark]) ahead)
      fun _ => True := by
  apply meets_scan
  · intro run found hrun hfound
    obtain rfl : mark = found := Except.ok.inj (hrun.scan_eq.symm.trans hfound)
    exact ⟨Lexeme.lexeme_token .., hrun.scanned hend site⟩
  · exact fun _ _ _ _ => trivial

theorem scan_between_end (hend : mark.1 = .endOfInput) (site : Site) :
    (scan site).Meets (Run.Between arrays marks [mark])
      (fun token run => token.lexeme = mark.1 ∧ run.Between arrays (marks ++ [mark]) [mark])
      fun _ => True := by
  apply meets_scan
  · intro run found hrun hfound
    obtain rfl : mark = found := Except.ok.inj (hrun.scan_eq.symm.trans hfound)
    exact ⟨Lexeme.lexeme_token .., hrun.scanned_end hend site⟩
  · exact fun _ _ _ _ => trivial

theorem demand_between (kind : TokenKind) (hend : mark.1 ≠ .endOfInput) :
    (demand kind).Meets (Run.Between arrays marks (mark :: ahead))
      (fun token run => token.lexeme = mark.1 ∧ run.Between arrays (marks ++ [mark]) ahead)
      fun _ => True := by
  apply meets_demand (scan_between hend .tag)
  · exact fun _ _ _ hrun => hrun
  · exact fun _ _ _ _ => trivial

theorem close_between (hend : mark.1 ≠ .endOfInput) :
    (discard (demand .scriptEnd)).Meets (Run.Between arrays marks (mark :: ahead))
      (fun _ => Run.Between arrays (marks ++ [mark]) ahead) fun _ => True :=
  ((demand_between .scriptEnd hend).after_mono fun _ _ hrun => hrun.2).discard

theorem write_between (piece : String) :
    (write piece).Meets (Run.Between arrays marks ahead)
      (fun _ => Run.Between arrays marks ahead) fun _ => True := by
  apply meets_write
  · intro run hrun _
    have hadded : Run.Between arrays marks ahead { run with sink := run.sink.add piece } :=
      ⟨⟨hrun.scans, hrun.loops, hrun.arrays⟩, hrun.ahead⟩
    exact hadded.note rfl
  · exact fun _ _ _ => trivial

theorem insertValue_between (name : String) (emit : Bool) (hend : mark.1 ≠ .endOfInput) :
    (insertValue name emit).Meets (Run.Between arrays marks (mark :: ahead))
      (fun _ => Run.Between arrays (marks ++ [mark]) ahead) fun _ => True := by
  apply Meets.of_get
  intro run _
  have hvalue : (resolve (run.environment.value name)).Meets
      (Run.Between arrays marks (mark :: ahead))
      (fun _ => Run.Between arrays marks (mark :: ahead)) fun _ => True :=
    meets_resolve (fun _ _ _ hrun => hrun) fun _ _ _ _ => trivial
  apply hvalue.bind
  intro value
  cases emit with
  | false => exact close_between hend
  | true => exact (write_between value).bind fun _ => close_between hend

end Steps

/-! ## Passes between scans -/

/-- From where the row is ahead the body scans the unrolled row, and leaves some of it ahead. -/
def BodyScans (arrays : Arrays) (blocks : Nat) (emit : Bool) (row unrolled left : List Mark) :
    Prop :=
  ∀ marks : List Mark, (body blocks emit).Meets (Run.Between arrays marks row)
    (fun _ => Run.Between arrays (marks ++ unrolled) left) fun _ => True

section Passes

variable {arrays : Arrays} {blocks : Nat} {emit : Bool} {row unrolled left : List Mark}

theorem round_between (marks : List Mark)
    (hbody : BodyScans arrays blocks emit row unrolled left) {start : Cursor}
    (hstart : start.readings = row.map .ok) (item value : String) :
    (round start item (pass (body blocks) emit) value).Meets (Run.Noted arrays marks)
      (fun _ => Run.Between arrays (marks ++ unrolled) left) fun _ => True := by
  intro run hrun
  have hready : Run.Between arrays marks row
      { run with cursor := start, environment := run.environment.define item value } :=
    ⟨⟨hrun.scans, hrun.loops, hrun.arrays.define item value⟩, hstart⟩
  have hpass : ((body blocks emit) >>= fun _ => note .passEnded).Meets
      (Run.Between arrays marks row) (fun _ => Run.Between arrays (marks ++ unrolled) left)
      fun _ => True :=
    (hbody marks).bind fun _ => meets_note fun _ hlater => hlater.note rfl
  rw [round_eq]
  exact hpass _ (hready.note rfl)

theorem forM_between (marks : List Mark)
    (hbody : BodyScans arrays blocks true row unrolled left) {start : Cursor}
    (hstart : start.readings = row.map .ok) (item : String) (elements : List String) :
    (elements.forM (round start item (pass (body blocks) true))).Meets
      (Run.Between arrays marks left)
      (fun _ => Run.Between arrays
        (marks ++ (List.replicate elements.length unrolled).flatten) left)
      fun _ => True := by
  induction elements generalizing marks with
  | nil => exact meets_pure fun run hrun => by simpa using hrun
  | cons element elements ih =>
      have hround := round_between marks hbody hstart item element
      apply Meets.bind (fun run hrun => hround run hrun.toNoted)
      intro _
      simpa [List.replicate_succ] using ih (marks ++ unrolled)

theorem passes_between (marks : List Mark) {elements : List String}
    (hbody : BodyScans arrays blocks (emit && !elements.isEmpty) row unrolled left)
    (item : String) :
    (passes (pass (body blocks)) item elements emit).Meets (Run.Between arrays marks row)
      (fun _ => Run.Between arrays (marks ++
        (List.replicate (if emit && !elements.isEmpty then elements.length else 1)
          unrolled).flatten) left)
      fun _ => True := by
  intro run hrun
  have hpasses : passes (pass (body blocks)) item elements emit run =
      (if emit && !elements.isEmpty then
        elements.forM (round run.cursor item (pass (body blocks) true)) run
      else round run.cursor item (pass (body blocks) false) "" run) := by
    unfold passes
    rw [bind_get]
    split <;> rfl
  rw [hpasses]
  cases hfull : emit && !elements.isEmpty with
  | false =>
      rw [hfull] at hbody
      simpa using round_between marks hbody hrun.ahead item "" run hrun.toNoted
  | true =>
      rw [hfull] at hbody
      cases elements with
      | nil => simp at hfull
      | cons element elements =>
          have hfirst := round_between marks hbody hrun.ahead item element
          have hrest := forM_between (marks ++ unrolled) hbody hrun.ahead item elements
          have hall := hfirst.bind fun _ => hrest
          simpa [List.replicate_succ] using hall run hrun.toNoted

theorem leave_between {marks : List Mark} (frame : String) :
    (close frame).Meets (Run.Between arrays marks row) (fun _ => Run.Between arrays marks row)
      fun _ => True := by
  intro run hrun
  have hleft : Run.Between arrays marks row { run with environment := run.environment.leave.2 } :=
    ⟨⟨hrun.scans, hrun.loops, hrun.arrays.leave⟩, hrun.ahead⟩
  exact hleft.note rfl

theorem loop_between {marks : List Mark} {array item : Mark} {close : Mark} {name : String}
    (harray : array.1 = .identifier name) (hitem : item.1 ≠ .endOfInput)
    (hclose : close.1 ≠ .endOfInput) (frame : String)
    (hbody : BodyScans arrays blocks (Body.emits arrays emit name) row unrolled left) :
    (loop (pass (body blocks)) frame emit).Meets
      (Run.Between arrays marks (array :: item :: close :: row))
      (fun _ => Run.Between arrays (marks ++ [array] ++ [item] ++ [close] ++
        (List.replicate (Body.copies arrays emit name) unrolled).flatten) left)
      fun _ => True := by
  unfold loop
  apply (demand_between .identifier (by simp [harray])).bind_fact
  intro token htoken
  obtain rfl := Token.text_eq (htoken.trans harray)
  apply Meets.of_get
  intro run hrun
  unfold Environment.hasArray
  rw [hrun.arrays.array?]
  cases hfound : arrays.find? token.text with
  | none => exact meets_throw fun _ _ => trivial
  | some elements =>
      apply (demand_between .identifier hitem).bind_fact
      intro item' _
      apply (close_between hclose).bind
      intro _ third hthird
      have hresolved : (third.environment.enter frame).array token.text = .ok elements := by
        simp [Environment.array, Environment.array?_enter, hthird.arrays.array?, hfound]
      simp only [bind_modify, bind_get, hresolved]
      rw [bind_ok (resolve_ok elements)]
      have hinside : Run.Between arrays (marks ++ [array] ++ [item] ++ [close]) row
          { third with environment := third.environment.enter frame } :=
        ⟨⟨hthird.scans, hthird.loops, hthird.arrays.enter frame⟩, hthird.ahead⟩
      have hentered : (third.entered frame token.text item'.text elements.length emit).Between
          arrays (marks ++ [array] ++ [item] ++ [close]) row := hinside.note rfl
      unfold Body.copies
      unfold Body.emits at hbody ⊢
      rw [hfound, Option.getD_some] at hbody ⊢
      have hpasses := passes_between (marks ++ [array] ++ [item] ++ [close]) hbody item'.text
      exact (hpasses.bind fun _ => leave_between frame) _ hentered

end Passes

/-! ## Bodies between scans -/

section Bodies

variable {arrays : Arrays} {blocks : Nat} {emit : Bool} {row unrolled left : List Mark}

theorem endOfInput_scans (arrays : Arrays) (blocks : Nat) (emit : Bool) {mark : Mark}
    (hmark : mark.1 = .endOfInput) :
    BodyScans arrays (blocks + 1) emit [mark] [mark] [mark] := by
  intro marks
  rw [body]
  apply (scan_between_end hmark .body).bind_fact
  intro token htoken
  have hkind : token.kind = .endOfInput := by rw [token.kind_eq, htoken, hmark, Lexeme.kind]
  simp only [hkind]
  exact meets_pure fun _ hrun => hrun

theorem literal_scans {mark : Mark} {text : String} (hmark : mark.1 = .literal text)
    (hrest : BodyScans arrays blocks emit row unrolled left) :
    BodyScans arrays (blocks + 1) emit ([mark] ++ row) ([mark] ++ unrolled) left := by
  intro marks
  have hrest := hrest (marks ++ [mark])
  rw [List.append_assoc] at hrest
  rw [body]
  apply (scan_between (by simp [hmark]) .body).bind_fact
  intro token htoken
  have hkind : token.kind = .literal := by rw [token.kind_eq, htoken, hmark, Lexeme.kind]
  simp only [hkind]
  cases emit with
  | false => exact hrest
  | true => exact (write_between token.text).bind fun _ => hrest

/-- A tag is scanned as far as its second token, and the rest of it as that token requires. -/
theorem tag_scans {opening mark : Mark} (hopening : opening.1 = .scriptBegin)
    (hend : mark.1 ≠ .endOfInput)
    (htag : ∀ (token : Token) (marks : List Mark), token.lexeme = mark.1 →
      (tag (body blocks) emit token).Meets (Run.Between arrays marks row)
        (fun _ => Run.Between arrays (marks ++ unrolled) left) fun _ => True) :
    BodyScans arrays (blocks + 1) emit ([opening, mark] ++ row) ([opening, mark] ++ unrolled)
      left := by
  intro marks
  rw [body]
  apply (scan_between (by simp [hopening]) .body).bind_fact
  intro token htoken
  have hkind : token.kind = .scriptBegin := by rw [token.kind_eq, htoken, hopening, Lexeme.kind]
  simp only [hkind]
  apply (scan_between hend .tag).bind_fact
  intro token htoken
  have happend : marks ++ [opening] ++ [mark] ++ unrolled =
      marks ++ ([opening, mark] ++ unrolled) := by
    simp
  exact happend ▸ htag token (marks ++ [opening] ++ [mark]) htoken

theorem loopEnd_scans {opening mark close : Mark} (hopening : opening.1 = .scriptBegin)
    (hmark : mark.1 = .loopEnd) (hclose : close.1 ≠ .endOfInput) :
    BodyScans arrays (blocks + 1) emit ([opening, mark, close] ++ row) [opening, mark, close]
      row := by
  apply tag_scans hopening (by simp [hmark])
  intro token marks htoken
  have hkind : token.kind = .loopEnd := by rw [token.kind_eq, htoken, hmark, Lexeme.kind]
  simp only [tag, hkind]
  apply Meets.of_get
  intro run _
  cases run.environment.atRoot with
  | true => exact meets_throw fun _ _ => trivial
  | false => exact close_between hclose

theorem value_scans {opening mark close : Mark} {name : String}
    (hopening : opening.1 = .scriptBegin) (hmark : mark.1 = .identifier name)
    (hclose : close.1 ≠ .endOfInput) (hrest : BodyScans arrays blocks emit row unrolled left) :
    BodyScans arrays (blocks + 1) emit ([opening, mark, close] ++ row)
      ([opening, mark, close] ++ unrolled) left := by
  apply tag_scans hopening (by simp [hmark])
  intro token marks htoken
  have hkind : token.kind = .identifier := by rw [token.kind_eq, htoken, hmark, Lexeme.kind]
  have hrest := hrest (marks ++ [close])
  rw [List.append_assoc] at hrest
  simp only [tag, hkind]
  exact (insertValue_between token.text emit hclose).bind fun _ => hrest

theorem loopBegin_scans {opening mark array item close : Mark} {name : String}
    {middle unrolled' : List Mark} (hopening : opening.1 = .scriptBegin)
    (hmark : mark.1 = .loopBegin) (harray : array.1 = .identifier name)
    (hitem : item.1 ≠ .endOfInput) (hclose : close.1 ≠ .endOfInput)
    (hinside : BodyScans arrays blocks (Body.emits arrays emit name) row unrolled middle)
    (hrest : BodyScans arrays blocks emit middle unrolled' left) :
    BodyScans arrays (blocks + 1) emit ([opening, mark, array, item, close] ++ row)
      ([opening, mark, array, item, close] ++
        (List.replicate (Body.copies arrays emit name) unrolled).flatten ++ unrolled') left := by
  apply tag_scans hopening (by simp [hmark])
  intro token marks htoken
  have hkind : token.kind = .loopBegin := by rw [token.kind_eq, htoken, hmark, Lexeme.kind]
  simp only [tag, hkind]
  apply (loop_between harray hitem hclose token.text hinside).bind
  intro _
  simpa using hrest (marks ++ [array] ++ [item] ++ [close] ++
    (List.replicate (Body.copies arrays emit name) unrolled).flatten)

theorem exists_fewer (mark : Mark) (first : List Mark) {row : List Mark} {blocks : Nat}
    (h : ((mark :: first) ++ row).length ≤ blocks) :
    ∃ fewer, blocks = fewer + 1 ∧ row.length ≤ fewer := by
  rw [List.length_append, List.length_cons] at h
  exact ⟨blocks - 1, by omega, by omega⟩

theorem exists_opening {array item : String} {more : List Lexeme}
    (hrow : row.map Prod.fst = Body.opening array item ++ more) :
    ∃ (opening mark first second close : Mark) (inner : List Mark),
      row = [opening, mark, first, second, close] ++ inner ∧ opening.1 = .scriptBegin ∧
        mark.1 = .loopBegin ∧ first.1 = .identifier array ∧ second.1 ≠ .endOfInput ∧
        close.1 ≠ .endOfInput ∧ inner.map Prod.fst = more := by
  obtain ⟨opening, _, rfl, hopening, hrow⟩ := List.map_eq_cons_iff.mp hrow
  obtain ⟨mark, _, rfl, hmark, hrow⟩ := List.map_eq_cons_iff.mp hrow
  obtain ⟨first, _, rfl, hfirst, hrow⟩ := List.map_eq_cons_iff.mp hrow
  obtain ⟨second, _, rfl, hsecond, hrow⟩ := List.map_eq_cons_iff.mp hrow
  obtain ⟨close, inner, rfl, hclose, hrow⟩ := List.map_eq_cons_iff.mp hrow
  exact ⟨opening, mark, first, second, close, inner, rfl, hopening, hmark, hfirst,
    by simp [hsecond], by simp [hclose], hrow⟩

theorem row_ne_nil {ending : Ending} (rest : Body ending) (hwhole : ending ≠ .fault)
    {row : List Mark} {more : List Lexeme} (hrow : row.map Prod.fst = rest.lexemes ++ more) :
    row ≠ [] := by
  rintro rfl
  exact rest.lexemes_ne_nil hwhole (List.append_eq_nil_iff.mp hrow.symm).1

theorem exists_last (outline : Body .input) {row : List Mark}
    (hrow : row.map Prod.fst = outline.lexemes ++ []) :
    ∃ last : Mark, last.1 = .endOfInput ∧ outline.left row = [last] := by
  obtain ⟨earlier, hlexemes⟩ := outline.endOfInput_suffix rfl
  rw [List.append_nil, ← hlexemes] at hrow
  obtain ⟨before, _, rfl, -, hlast⟩ := List.map_eq_append_iff.mp hrow
  obtain ⟨last, _, rfl, hend, hnil⟩ := List.map_eq_cons_iff.mp hlast
  obtain rfl := List.map_eq_nil_iff.mp hnil
  exact ⟨last, hend, by simp [Body.left]⟩

theorem body_scans (arrays : Arrays) {ending : Ending} (outline : Body ending)
    (hwhole : ending ≠ .fault) {row : List Mark} {more : List Lexeme}
    (hrow : row.map Prod.fst = outline.lexemes ++ more) (hmore : ending = .input → more = [])
    {blocks : Nat} (hblocks : row.length ≤ blocks) (emit : Bool) :
    BodyScans arrays blocks emit row (outline.unroll arrays emit row) (outline.left row) := by
  induction outline generalizing row more blocks emit with
  | broken | brokenValue => exact absurd rfl hwhole
  | endOfInput =>
      obtain rfl := hmore rfl
      obtain ⟨mark, _, rfl, hmark, hrest⟩ := List.map_eq_cons_iff.mp hrow
      obtain rfl := List.map_eq_nil_iff.mp hrest
      obtain ⟨blocks, rfl, -⟩ := exists_fewer mark [] hblocks
      exact endOfInput_scans arrays blocks emit hmark
  | loopEnd =>
      obtain ⟨opening, _, rfl, hopening, hrow⟩ := List.map_eq_cons_iff.mp hrow
      obtain ⟨mark, _, rfl, hmark, hrow⟩ := List.map_eq_cons_iff.mp hrow
      obtain ⟨close, row, rfl, hclose, -⟩ := List.map_eq_cons_iff.mp hrow
      obtain ⟨blocks, rfl, -⟩ := exists_fewer opening [mark, close] hblocks
      exact loopEnd_scans hopening hmark (by simp [hclose])
  | literal text rest ih =>
      obtain ⟨mark, row, rfl, hmark, hrow⟩ := List.map_eq_cons_iff.mp hrow
      obtain ⟨blocks, rfl, hfewer⟩ := exists_fewer mark [] hblocks
      have hleft : (Body.literal text rest).left ([mark] ++ row) = rest.left row :=
        Body.left_append (by simp [Body.lexemes, Nat.add_comm]) (row_ne_nil rest hwhole hrow)
      have hrest := ih hwhole hrow hmore hfewer emit
      rw [← hleft] at hrest
      exact literal_scans hmark hrest
  | value name rest ih =>
      obtain ⟨opening, _, rfl, hopening, hrow⟩ := List.map_eq_cons_iff.mp hrow
      obtain ⟨mark, _, rfl, hmark, hrow⟩ := List.map_eq_cons_iff.mp hrow
      obtain ⟨close, row, rfl, hclose, hrow⟩ := List.map_eq_cons_iff.mp hrow
      obtain ⟨blocks, rfl, hfewer⟩ := exists_fewer opening [mark, close] hblocks
      have hleft : (Body.value name rest).left ([opening, mark, close] ++ row) = rest.left row :=
        Body.left_append List.length_append (row_ne_nil rest hwhole hrow)
      have hrest := ih hwhole hrow hmore hfewer emit
      rw [← hleft] at hrest
      exact value_scans hopening hmark (by simp [hclose]) hrest
  | loop array item inside rest ihInside ihRest =>
      rw [Body.lexemes, List.append_assoc, List.append_assoc] at hrow
      obtain ⟨opening, mark, first, second, close, inner, rfl, hopening, hmark, hfirst, hsecond,
        hclose, hrow⟩ := exists_opening hrow
      obtain ⟨blocks, rfl, hinner⟩ := exists_fewer opening [mark, first, second, close] hblocks
      have hinside := ihInside (by decide) hrow (by simp) hinner (Body.emits arrays emit array)
      -- Behind the inner body the row goes on with the blocks that are left.
      obtain ⟨before, row, rfl, hbefore, hrow⟩ := List.map_eq_append_iff.mp hrow
      have hlength : before.length = inside.lexemes.length := by
        rw [← hbefore, List.length_map]
      have hmiddle : inside.left (before ++ row) = row := by
        simp only [Body.left]
        rw [← hlength, List.drop_left]
      have hleft : (Body.loop array item inside rest).left
          ([opening, mark, first, second, close] ++ (before ++ row)) = rest.left row := by
        rw [← List.append_assoc]
        apply Body.left_append _ (row_ne_nil rest hwhole hrow)
        simp [Body.lexemes, Body.opening, hlength, Nat.add_comm, Nat.add_left_comm]
      have hfewer : row.length ≤ blocks := by
        rw [List.length_append] at hinner
        omega
      have hrest := ihRest hwhole hrow hmore hfewer emit
      rw [hmiddle] at hinside
      rw [← hleft] at hrest
      have hunroll : (Body.loop array item inside rest).unroll arrays emit
          ([opening, mark, first, second, close] ++ (before ++ row)) =
          [opening, mark, first, second, close] ++
            (List.replicate (Body.copies arrays emit array)
              (inside.unroll arrays (Body.emits arrays emit array) (before ++ row))).flatten ++
            rest.unroll arrays emit row := by
        rw [Body.unroll, ← hlength]
        simp
      rw [hunroll]
      exact loopBegin_scans hopening hmark hfirst hsecond hclose hinside hrest
  | @openLoop ending array item inside hopen ih =>
      cases ending with
      | loop => exact absurd rfl hopen
      | fault => exact absurd rfl hwhole
      | input =>
          obtain rfl := hmore rfl
          rw [Body.lexemes, List.append_assoc] at hrow
          obtain ⟨opening, mark, first, second, close, inner, rfl, hopening, hmark, hfirst,
            hsecond, hclose, hrow⟩ := exists_opening hrow
          obtain ⟨blocks, rfl, hinner⟩ :=
            exists_fewer opening [mark, first, second, close] hblocks
          have hinside := ih hwhole hrow (fun _ => rfl) hinner (Body.emits arrays emit array)
          obtain ⟨last, hlast, hmiddle⟩ := exists_last inside hrow
          have hleft : (Body.openLoop array item inside hopen).left
              ([opening, mark, first, second, close] ++ inner) = [last] := by
            rw [← hmiddle]
            exact Body.left_append List.length_append (row_ne_nil inside hwhole hrow)
          obtain ⟨fewer, rfl⟩ : ∃ fewer, blocks = fewer + 1 :=
            Nat.exists_eq_add_of_le' (Nat.le_trans
              (List.length_pos_iff.mpr (row_ne_nil inside hwhole hrow)) hinner)
          rw [hmiddle] at hinside
          have hunroll : (Body.openLoop array item inside hopen).unroll arrays emit
              ([opening, mark, first, second, close] ++ inner) =
              [opening, mark, first, second, close] ++
                (List.replicate (Body.copies arrays emit array)
                  (inside.unroll arrays (Body.emits arrays emit array) inner)).flatten ++
                [last] := by
            rw [← hleft]
            rfl
          rw [hunroll, hleft]
          exact loopBegin_scans hopening hmark hfirst hsecond hclose hinside
            (endOfInput_scans arrays fewer emit hlast)

end Bodies

/-- A rendering that succeeds has scanned the row of its template, unrolled. -/
theorem template_scans {arrays : Arrays} {template : String} (tree : Body .input)
    {row : List Mark} (hrow : row.map Prod.fst = tree.lexemes)
    (hlength : row.length ≤ template.length + 1) :
    (renderTemplate template).Meets (Run.Between arrays [] row)
      (fun _ => Run.Noted arrays (tree.unroll arrays true row)) fun _ => True := by
  intro run hrun
  have hstarted : (run.started template.utf8ByteSize).Between arrays [] row :=
    (hrun.note rfl).note rfl
  have hbody := body_scans arrays tree (by decide) (hrow.trans (List.append_nil _).symm)
    (fun _ => rfl) hlength true [] _ hstarted
  rw [renderTemplate_eq]
  cases hresult : body (template.length + 1) true (run.started template.utf8ByteSize) with
  | ok value later =>
      rw [hresult] at hbody
      exact (hbody.toNoted.note rfl).note rfl
  | error error later => trivial

end Rendering

/-! ## Tokens and marks -/

theorem Cursor.ReadsOff.spells {cursor next : Cursor} {lexemes more : List Lexeme}
    (h : cursor.ReadsOff lexemes next) (hmore : next.Spells more) :
    cursor.Spells (lexemes ++ more) := by
  obtain ⟨first, hreadings, rfl⟩ := h
  obtain ⟨rest, hrest, rfl⟩ := hmore
  exact ⟨first ++ rest, by rw [hreadings, hrest, List.map_append], List.map_append⟩

theorem Body.ReadsAs.spells {names : Names} {ending : Ending} {items : List String}
    {cursor after : Cursor} {body : Body ending} (h : body.ReadsAs names items cursor after)
    (hinput : ending = .input) : cursor.Spells body.lexemes := by
  induction h with
  | @endOfInput _ cursor _ hread =>
      cases hread with
      | @endOfInput _ span hscan =>
          have hlast : Reading.isLast cursor.scan.1 := by simp [hscan, Reading.isLast]
          have hreadings : cursor.readings = [.ok (.endOfInput, span)] := by
            rw [Cursor.readings_of_isLast hlast, hscan]
          exact ⟨[(.endOfInput, span)], hreadings, rfl⟩
      | tag _ htag => cases htag
  | loopEnd | broken | brokenValue => cases hinput
  | literal hread _ ih => exact (hread.readsOff rfl (by simp)).spells (ih hinput)
  | value hread _ ih => exact (hread.readsOff rfl (by simp)).spells (ih hinput)
  | loop hread hinside _ _ ih =>
      obtain ⟨middle, hbody, hmiddle, -⟩ := hinside.readsOff (by decide)
      obtain rfl := hmiddle rfl
      exact (hread.readsOff rfl (by simp)).spells (hbody.spells (ih hinput))
  | openLoop hread _ _ ih => exact (hread.readsOff rfl (by simp)).spells (ih hinput)

/-- The token is the mark, with some number if it begins a loop. -/
def Token.Numbers (mark : Mark) (token : Token) : Prop :=
  ∃ number, token = mark.1.token number mark.2

/-- The tokens of a row of marks are the marks, numbered in their turn. -/
theorem Reading.tokens_of_marks (number : Nat) (marks : List Mark) :
    ∃ tokens : List Token, Reading.tokens number (marks.map .ok) = .ok tokens ∧
      tokens.map Scan.token = numbered number (marks.map .ok) ∧
      List.Forall₂ Token.Numbers marks tokens := by
  induction marks generalizing number with
  | nil => exact ⟨[], rfl, rfl, .nil⟩
  | cons mark marks ih =>
      obtain ⟨tokens, htokens, hnumbered, hmarks⟩ := ih (number + mark.1.loops)
      refine ⟨mark.1.token number mark.2 :: tokens, ?_, ?_, .cons ⟨number, rfl⟩ hmarks⟩
      · rw [List.map_cons, Reading.tokens, htokens]
        rfl
      · rw [List.map_cons, List.map_cons, numbered, hnumbered]
        rfl

theorem Token.lexemes_of_numbers {marks : List Mark} {tokens : List Token}
    (h : List.Forall₂ Token.Numbers marks tokens) :
    tokens.map Token.lexeme = marks.map Prod.fst := by
  induction h with
  | nil => rfl
  | cons htoken _ ih =>
      obtain ⟨number, rfl⟩ := htoken
      rw [List.map_cons, List.map_cons, Lexeme.lexeme_token, ih]

/-- The same tokens, every loop being numbered in its turn. -/
def Token.renumbered : Nat → List Token → List Token
  | _, [] => []
  | number, token :: tokens =>
      if token.kind = .loopBegin then
        { token with text := Lexeme.loopTag number } :: renumbered (number + 1) tokens
      else token :: renumbered number tokens

theorem Token.scans_renumbered {marks : List Mark} {tokens : List Token}
    (h : List.Forall₂ Token.Numbers marks tokens) (number : Nat) :
    (renumbered number tokens).map Scan.token = Reading.numbered number (marks.map .ok) := by
  induction h generalizing number with
  | nil => rfl
  | @cons mark token marks tokens htoken _ ih =>
      obtain ⟨earlier, rfl⟩ := htoken
      obtain ⟨lexeme, span⟩ := mark
      cases lexeme with
      | loopBegin => exact congrArg _ (ih (number + 1))
      | _ => exact congrArg _ (ih number)

theorem Token.records_of_scans {journal : Journal} {tokens : List Token}
    (h : journal.scans = tokens.map Scan.token) :
    journal.scannedTokens = tokens.map Token.record := by
  rw [journal.scannedTokens_eq, h, List.filterMap_map]
  exact congrFun (List.filterMap_eq_map (f := Token.record)) tokens

theorem Body.unroll_rel {α β : Type} {related : α → β → Prop} (arrays : Arrays)
    {ending : Ending} (body : Body ending) (emit : Bool) {row : List α} {row' : List β}
    (h : List.Forall₂ related row row') :
    List.Forall₂ related (body.unroll arrays emit row) (body.unroll arrays emit row') := by
  have hcopies (count : Nat) {unrolled : List α} {unrolled' : List β}
      (h : List.Forall₂ related unrolled unrolled') :
      List.Forall₂ related (List.replicate count unrolled).flatten
        (List.replicate count unrolled').flatten := by
    induction count with
    | zero => exact .nil
    | succ count ih => simpa [List.replicate_succ] using List.rel_append h ih
  induction body generalizing emit row row' with
  | endOfInput => exact List.forall₂_take 1 h
  | loopEnd => exact List.forall₂_take 3 h
  | broken | brokenValue => exact .nil
  | literal _ _ ih =>
      exact List.rel_append (List.forall₂_take 1 h) (ih _ (List.forall₂_drop 1 h))
  | value _ _ ih =>
      exact List.rel_append (List.forall₂_take 3 h) (ih _ (List.forall₂_drop 3 h))
  | loop array item inside rest ihInside ihRest =>
      have hinner := List.forall₂_drop 5 h
      have hpasses := hcopies (copies arrays emit array) (ihInside (emits arrays emit array) hinner)
      exact List.rel_append (List.rel_append (List.forall₂_take 5 h) hpasses)
        (ihRest emit (List.forall₂_drop _ hinner))
  | openLoop array item inside _ ih =>
      have hpasses := hcopies (copies arrays emit array)
        (ih (emits arrays emit array) (List.forall₂_drop 5 h))
      have hlast := List.forall₂_drop (row.length - 1) h
      refine List.rel_append (List.rel_append (List.forall₂_take 5 h) hpasses) ?_
      rwa [h.length_eq] at hlast ⊢

/-- Every loop is closed and makes one pass. -/
def Body.Single (arrays : Arrays) {ending : Ending} : Bool → Body ending → Prop
  | _, .endOfInput | _, .loopEnd | _, .broken _ | _, .brokenValue .. => True
  | emit, .literal _ rest | emit, .value _ rest => rest.Single arrays emit
  | emit, .loop array _ inside rest =>
      copies arrays emit array = 1 ∧ inside.Single arrays (emits arrays emit array) ∧
        rest.Single arrays emit
  | _, .openLoop .. => False

theorem Body.unroll_of_single {α : Type} {arrays : Arrays} {ending : Ending}
    (body : Body ending) {emit : Bool} (h : body.Single arrays emit) (row : List α) :
    body.unroll arrays emit row = row.take body.lexemes.length := by
  induction body generalizing emit row with
  | endOfInput | loopEnd => rfl
  | broken | brokenValue => exact List.take_zero.symm
  | literal text rest ih =>
      rw [unroll, ih h, lexemes, List.length_cons, Nat.add_comm, List.take_add]
  | value name rest ih =>
      rw [unroll, ih h, lexemes, List.length_append, List.take_add]
      rfl
  | loop array item inside rest ihInside ihRest =>
      obtain ⟨hcopies, hinside, hrest⟩ := h
      rw [unroll, hcopies, ihInside hinside, ihRest hrest, lexemes, List.length_append,
        List.length_append, List.take_add, List.take_add]
      simp [opening]
  | openLoop => exact h.elim

/-! ## The scans of a rendering -/

/--
The scans of a rendering that succeeds, into whatever sink, are the tokens of
its template unrolled along the one tree that these make up, the loops being
numbered as they are scanned.  If every loop is closed and makes one pass, they
are just the tokens.  What is recorded of scanned tokens is what is to be
recorded of these, one after the other.
-/
theorem render_scans_unrolled {values : Values} {arrays : Arrays} {template : String}
    {sink : Sink} (hok : (render values arrays template sink).result = .ok ()) :
    let journal := (render values arrays template sink).journal
    ∃ tokens : List Token, tokensOf template = .ok tokens ∧
      (∃ tree : Body .input, tokens.map Token.lexeme = tree.lexemes) ∧
      ∀ tree : Body .input, tokens.map Token.lexeme = tree.lexemes →
        let unrolled := Token.renumbered 0 (tree.unroll arrays true tokens)
        journal.scans = unrolled.map .token ∧
        journal.scannedTokens = unrolled.map Token.record ∧
        (tree.Single arrays true →
          journal.scans = tokens.map .token ∧
          journal.scannedTokens = tokens.map Token.record) := by
  let start := (Session.ofBindings values arrays).start template sink
  rw [Rendering.render_eq_outcomeOf] at hok ⊢
  cases hresult : Rendering.renderTemplate template start with
  | error error last =>
      rw [hresult] at hok
      cases hok
  | ok value last =>
      obtain ⟨outline, hreads⟩ :=
        Rendering.readsAs_of_ok rfl (.ofBindings values arrays) hresult
      obtain ⟨marks, hreadings, hlexemes⟩ := hreads.spells rfl
      obtain ⟨tokens, htokens, hnumbered, hnumbers⟩ := Reading.tokens_of_marks 0 marks
      have hmarks := Token.lexemes_of_numbers hnumbers
      refine ⟨tokens, ?_, ⟨outline, hmarks.trans hlexemes⟩, fun tree htree => ?_⟩
      · rw [tokensOf_eq, hreadings, htokens]
      have hlength : marks.length ≤ template.length + 1 := by
        have hle := (Cursor.ofTemplate template).length_readings_le
        rw [hreadings, List.length_map] at hle
        exact Nat.le_trans hle (Cursor.scanBound_ofTemplate_le template)
      have hstart : start.Between arrays [] marks :=
        ⟨⟨rfl, rfl, .ofBindings values arrays⟩, hreadings⟩
      have hnoted := Rendering.template_scans tree (hmarks ▸ htree) hlength start hstart
      rw [hresult] at hnoted
      have hunrolled : last.journal.scans =
          (Token.renumbered 0 (tree.unroll arrays true tokens)).map .token := by
        rw [hnoted.scans, Token.scans_renumbered (tree.unroll_rel arrays true hnumbers)]
      have hsame (hsingle : tree.Single arrays true) :
          last.journal.scans = tokens.map .token := by
        have hrow : marks.length ≤ tree.lexemes.length := by
          rw [← htree, hmarks, List.length_map]
        rw [hnoted.scans, tree.unroll_of_single hsingle, List.take_of_length_le hrow, hnumbered]
      exact ⟨hunrolled, Token.records_of_scans hunrolled, fun hsingle =>
        ⟨hsame hsingle, Token.records_of_scans (hsame hsingle)⟩⟩

/-- Two passes over an open loop each come to the end of the input, and so does the body around. -/
theorem render_scans_unrolled_open_loop :
    let arrays : Arrays := .ofList [("xs", ["1", "2"])]
    let template := "\x7b\x7b#loop xs x\x7d\x7da"
    let tree : Body .input := .openLoop "xs" "x" (.literal "a" .endOfInput) nofun
    let outcome := render .empty arrays template (.unlimited "")
    outcome.result = .ok () ∧ outcome.journal.scannedTokens.length = 10 ∧
      ∃ tokens : List Token, tokensOf template = .ok tokens ∧ tokens.length = 7 ∧
        outcome.journal.scannedTokens =
          (Token.renumbered 0 (tree.unroll arrays true tokens)).map Token.record := by
  intro arrays template tree outcome
  have hok : outcome.result = .ok () := by
    have hsome : outcome.result.toOption = some () := by
      subst outcome template arrays
      decide +kernel
    generalize outcome.result = result at hsome
    cases result with
    | ok value => rfl
    | error error => cases hsome
  have hlength : outcome.journal.scannedTokens.length = 10 := by
    subst outcome template arrays
    decide +kernel
  have hparse : (tokensOf template).toOption.map (·.map Token.lexeme) = some tree.lexemes := by
    subst template tree
    decide +kernel
  obtain ⟨tokens, htokens, -, hscans⟩ := render_scans_unrolled hok
  rw [htokens] at hparse
  have hlexemes : tokens.map Token.lexeme = tree.lexemes := by
    simpa [Except.toOption] using hparse
  have hseven : tokens.length = 7 := by
    rw [← List.length_map (f := Token.lexeme), hlexemes]
    rfl
  exact ⟨hok, hlength, tokens, htokens, hseven, (hscans tree hlexemes).2.1⟩

end Stencil
