import Stencil.Proofs.Execution

/-!
# Evaluation

The tokens of a template without faults make up a tree of blocks.  Rendering
the template, which goes back for every pass over the body of a loop, writes
what evaluating the tree writes, which never goes back.
-/

namespace Stencil

/-! ## Trees and their tokens -/

/-- What a token says, the number of a loop aside. -/
def Token.lexeme (token : Token) : Lexeme :=
  match token.kind with
  | .endOfInput => .endOfInput
  | .literal => .literal token.text
  | .scriptBegin => .scriptBegin
  | .scriptEnd => .scriptEnd
  | .identifier => .identifier token.text
  | .loopBegin => .loopBegin
  | .loopEnd => .loopEnd

@[simp] theorem Lexeme.lexeme_token (lexeme : Lexeme) (number : Nat) (span : Span) :
    (lexeme.token number span).lexeme = lexeme := by
  cases lexeme <;> rfl

namespace Body

def opening (array item : String) : List Lexeme :=
  [.scriptBegin, .loopBegin, .identifier array, .identifier item, .scriptEnd]

def lexemes {ending : Ending} : Body ending → List Lexeme
  | .endOfInput => [.endOfInput]
  | .loopEnd => [.scriptBegin, .loopEnd, .scriptEnd]
  | .broken _ | .brokenValue .. => []
  | .literal text rest => .literal text :: rest.lexemes
  | .value name rest => [.scriptBegin, .identifier name, .scriptEnd] ++ rest.lexemes
  | .loop array item inside rest => opening array item ++ (inside.lexemes ++ rest.lexemes)
  | .openLoop array item inside _ => opening array item ++ inside.lexemes

/-- Every value is that of a bound name or of an item around it, and every array is bound. -/
def Scoped (names : Names) {ending : Ending} : List String → Body ending → Prop
  | _, .endOfInput | _, .loopEnd | _, .broken _ | _, .brokenValue .. => True
  | items, .literal _ rest => rest.Scoped names items
  | items, .value name rest => names.binds items name ∧ rest.Scoped names items
  | items, .loop array item inside rest =>
      names.array array ∧ inside.Scoped names (item :: items) ∧ rest.Scoped names items
  | items, .openLoop array item inside _ =>
      names.array array ∧ inside.Scoped names (item :: items)

end Body

/-! ## Cursors ahead of given tokens -/

/-- What is ahead of the cursor is scanned as the lexemes, with no fault. -/
def Cursor.Spells (cursor : Cursor) (lexemes : List Lexeme) : Prop :=
  ∃ marks : List Mark, cursor.readings = marks.map Except.ok ∧ marks.map Prod.fst = lexemes

namespace Cursor

variable {cursor : Cursor} {lexeme : Lexeme} {more : List Lexeme}

theorem Spells.scan (h : cursor.Spells (lexeme :: more)) :
    ∃ span next, cursor.scan = (.ok (lexeme, span), next) ∧
      (lexeme ≠ .endOfInput → next.Spells more) := by
  rcases h with ⟨_ | ⟨⟨found, span⟩, marks⟩, hreadings, hmarks⟩
  · cases hmarks
  · obtain ⟨rfl, hmore⟩ := List.cons.inj hmarks
    have hhead := cursor.head?_readings
    rw [hreadings, List.map_cons, List.head?_cons, Option.some.injEq] at hhead
    have hscan : cursor.scan = (.ok (found, span), cursor.scan.2) := Prod.ext hhead.symm rfl
    refine ⟨span, cursor.scan.2, hscan, fun hend => ⟨marks, ?_, hmore⟩⟩
    rw [readings_eq_cons hscan hend, List.map_cons] at hreadings
    exact (List.cons.inj hreadings).2

theorem Spells.demand_identifier {name : String} (h : cursor.Spells (.identifier name :: more)) :
    ∃ next, cursor.demand .identifier = .ok (name, next) ∧ next.Spells more := by
  obtain ⟨span, next, hscan, hnext⟩ := h.scan
  exact ⟨next, by simp [demand, hscan, Lexeme.kind, Lexeme.text], hnext (by simp)⟩

theorem Spells.demand_scriptEnd (h : cursor.Spells (.scriptEnd :: more)) :
    ∃ text next, cursor.demand .scriptEnd = .ok (text, next) ∧ next.Spells more := by
  obtain ⟨span, next, hscan, hnext⟩ := h.scan
  exact ⟨_, next, by simp [demand, hscan, Lexeme.kind]; rfl, hnext (by simp)⟩

theorem Spells.header {names : Names} {array item : String} (harray : names.array array)
    (h : cursor.Spells (.identifier array :: .identifier item :: .scriptEnd :: more)) :
    ∃ next, cursor.header names = .ok (array, item, next) ∧ next.Spells more := by
  obtain ⟨second, hfirst, hspells⟩ := h.demand_identifier
  obtain ⟨third, hsecond, hspells⟩ := hspells.demand_identifier
  obtain ⟨text, next, hthird, hspells⟩ := hspells.demand_scriptEnd
  refine ⟨next, ?_, hspells⟩
  simp [Cursor.header, hfirst, hsecond, hthird, harray, bind, Except.bind, pure, Except.pure]

private theorem marks_of_tokens {number : Nat} {readings : List Reading} {tokens : List Token}
    (h : Reading.tokens number readings = .ok tokens) :
    ∃ marks : List Mark, readings = marks.map Except.ok ∧
      marks.map Prod.fst = tokens.map Token.lexeme := by
  induction readings generalizing number tokens with
  | nil =>
      cases h
      exact ⟨[], rfl, rfl⟩
  | cons reading readings ih =>
      cases reading with
      | error error => cases h
      | ok mark =>
          rw [Reading.tokens] at h
          cases hrest : Reading.tokens (number + mark.1.loops) readings with
          | error error => simp [hrest, Except.map] at h
          | ok rest =>
              obtain ⟨marks, rfl, hmarks⟩ := ih hrest
              obtain rfl : mark.1.token number mark.2 :: rest = tokens := by
                simpa [hrest, Except.map] using h
              exact ⟨mark :: marks, rfl, by simp [hmarks]⟩

theorem spells_ofTemplate {template : String} {tokens : List Token}
    (h : tokensOf template = .ok tokens) :
    (ofTemplate template).Spells (tokens.map Token.lexeme) := by
  rw [tokensOf_eq] at h
  exact marks_of_tokens h

end Cursor

/-! ## Reading a tree -/

theorem Cursor.Spells.reads_opening {names : Names} {items : List String} {cursor : Cursor}
    {array item : String} {more : List Lexeme} (harray : names.array array)
    (h : cursor.Spells (Body.opening array item ++ more)) :
    ∃ next, Block.Reads names items cursor (.loopBegin array item) next ∧ next.Spells more := by
  obtain ⟨span, tag, hscan, hspells⟩ := h.scan
  obtain ⟨span', header, hscan', hspells⟩ := (hspells (by simp)).scan
  obtain ⟨next, hheader, hspells⟩ := (hspells (by simp)).header harray
  exact ⟨next, .tag hscan (.loopBegin hscan' hheader), hspells⟩

namespace Body

/-- A cursor ahead of the tokens of a scoped body reads as the body. -/
theorem readsAs_of_spells {names : Names} {ending : Ending} {items : List String}
    {cursor : Cursor} (body : Body ending) {more : List Lexeme}
    (hspells : cursor.Spells (body.lexemes ++ more)) (hscoped : body.Scoped names items)
    (hwhole : ending ≠ .fault) (hitems : ending = .loop → items ≠ []) :
    ∃ after, body.ReadsAs names items cursor after ∧ (ending = .loop → after.Spells more) := by
  induction body generalizing items cursor more with
  | endOfInput =>
      obtain ⟨span, next, hscan, -⟩ := hspells.scan
      exact ⟨next, .endOfInput (.endOfInput hscan), nofun⟩
  | loopEnd =>
      obtain ⟨span, tag, hscan, hspells⟩ := hspells.scan
      obtain ⟨span', close, hscan', hspells⟩ := (hspells (by simp)).scan
      obtain ⟨text, next, hclose, hspells⟩ := (hspells (by simp)).demand_scriptEnd
      have hnonempty : ¬items.isEmpty := by simpa using hitems rfl
      exact ⟨next, .loopEnd (.tag hscan (.loopEnd hscan' hnonempty hclose)), fun _ => hspells⟩
  | broken | brokenValue => exact absurd rfl hwhole
  | literal text rest ih =>
      obtain ⟨span, next, hscan, hspells⟩ := hspells.scan
      obtain ⟨after, hrest, hafter⟩ := ih (hspells (by simp)) hscoped hwhole hitems
      exact ⟨after, .literal (.literal hscan) hrest, hafter⟩
  | value name rest ih =>
      obtain ⟨hbound, hscoped⟩ := hscoped
      obtain ⟨span, tag, hscan, hspells⟩ := hspells.scan
      obtain ⟨span', close, hscan', hspells⟩ := (hspells (by simp)).scan
      obtain ⟨text, next, hclose, hspells⟩ := (hspells (by simp)).demand_scriptEnd
      obtain ⟨after, hrest, hafter⟩ := ih hspells hscoped hwhole hitems
      exact ⟨after, .value (.tag hscan (.value hscan' hbound hclose)) hrest, hafter⟩
  | loop array item inside rest ihInside ihRest =>
      obtain ⟨harray, hscopedInside, hscopedRest⟩ := hscoped
      rw [lexemes, List.append_assoc, List.append_assoc] at hspells
      obtain ⟨next, hread, hspells⟩ := hspells.reads_opening harray
      obtain ⟨middle, hinside, hmiddle⟩ :=
        ihInside hspells hscopedInside (by decide) (by simp)
      obtain ⟨after, hrest, hafter⟩ := ihRest (hmiddle rfl) hscopedRest hwhole hitems
      exact ⟨after, .loop hread hinside hrest, hafter⟩
  | openLoop array item inside hopen ih =>
      obtain ⟨harray, hscopedInside⟩ := hscoped
      rw [lexemes, List.append_assoc] at hspells
      obtain ⟨next, hread, hspells⟩ := hspells.reads_opening harray
      obtain ⟨after, hinside, hafter⟩ := ih hspells hscopedInside hwhole (by simp)
      exact ⟨after, .openLoop hread hinside hopen, hafter⟩

end Body

/--
A template whose tokens make up a tree, every name of which is bound, is
rendered into any sink that never refuses, and the strings written are those
the tree is evaluated to.
-/
theorem render_eq_evaluate {values : Values} {arrays : Arrays} {template : String}
    {tree : Body .input}
    (hparse : (tokensOf template).map (·.map Token.lexeme) = .ok tree.lexemes)
    (hscoped : tree.Scoped (.ofBindings values arrays) []) (before : String) :
    let outcome := render values arrays template (.unlimited before)
    outcome.result = .ok () ∧ outcome.sink.pieces.toList = tree.evaluate values arrays [] := by
  have hspells : (Cursor.ofTemplate template).Spells (tree.lexemes ++ []) := by
    cases htokens : tokensOf template with
    | error error => simp [htokens, Except.map] at hparse
    | ok tokens =>
        have hlexemes : tokens.map Token.lexeme = tree.lexemes := by
          simpa [htokens, Except.map] using hparse
        rw [List.append_nil, ← hlexemes]
        exact Cursor.spells_ofTemplate htokens
  obtain ⟨after, hreads, -⟩ := tree.readsAs_of_spells hspells hscoped (by decide) nofun
  obtain ⟨hreports, hpieces, -⟩ := render_of_readsAs hreads before
  exact ⟨hreports.ok_iff.mp (tree.verdict_eq_ok_iff.mpr (by decide)), hpieces⟩

/-- An open loop around a closed one, of which the inner one varies faster. -/
theorem render_open_loop :
    let arrays : Arrays := .ofList [("xs", ["1", "2"]), ("ys", ["a", "b"])]
    let loops := "\x7b\x7b#loop xs x\x7d\x7d\x7b\x7b#loop ys y\x7d\x7d"
    let template := loops ++ "\x7b\x7bx\x7d\x7d\x7b\x7by\x7d\x7d\x7b\x7b/loop\x7d\x7d."
    let outcome := render .empty arrays template (.unlimited "")
    outcome.result = .ok () ∧
      outcome.sink.pieces.toList = ["1", "a", "1", "b", ".", "2", "a", "2", "b", "."] := by
  let inner : Body .loop := .value "x" (.value "y" .loopEnd)
  let tree : Body .input :=
    .openLoop "xs" "x" (.loop "ys" "y" inner (.literal "." .endOfInput)) nofun
  refine @render_eq_evaluate _ _ _ tree ?_ ?_ ""
  · rfl
  · exact ⟨by decide, by decide, ⟨by decide, by decide, trivial⟩, trivial⟩

end Stencil
