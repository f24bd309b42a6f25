import Stencil.Proofs.Steps

/-!
# Execution

A rendering into a sink that never refuses does what the outline of its
template says: it writes what the outline evaluates to, although it scans the
body of a loop once for every element, and ends as the outline ends.
-/

namespace Stencil

/-! ## Evaluating an outline -/

/-- The passes over a body: one for each element, but none after a pass that a fault stops. -/
def Ending.passes : Ending → List String → List String
  | .input, elements | .loop, elements => elements
  | .fault, elements => elements.take 1

theorem Ending.passes_of_ne {ending : Ending} (h : ending ≠ .fault) (elements : List String) :
    ending.passes elements = elements := by
  cases ending with
  | input | loop => rfl
  | fault => exact absurd rfl h

/--
What a body writes.  The blocks inside a loop are evaluated for each element
of its array, in order, the item standing for the element.
-/
def Body.evaluate (values : Values) (arrays : Arrays) {ending : Ending} :
    List (String × String) → Body ending → List String
  | _, .endOfInput | _, .loopEnd | _, .broken _ => []
  | scope, .brokenValue name _ => (valueIn values scope name).toList
  | scope, .literal text rest => text :: rest.evaluate values arrays scope
  | scope, .value name rest =>
      (valueIn values scope name).toList ++ rest.evaluate values arrays scope
  | scope, .loop array item inside rest =>
      (((arrays.find? array).getD []).flatMap fun element =>
        inside.evaluate values arrays ((item, element) :: scope)) ++
        rest.evaluate values arrays scope
  | scope, .openLoop array item inside _ =>
      (ending.passes ((arrays.find? array).getD [])).flatMap fun element =>
        inside.evaluate values arrays ((item, element) :: scope)

/-! ## Full passes -/

/-- A body of the template begins at one position and ends, by no fault, at another. -/
def FullPass (template : List Char) (pass : Position × Position) : Prop :=
  ∃ (names : Names) (items : List String) (ending : Ending) (body : Body ending)
    (cursor after : Cursor), Body.ReadsAs names items cursor body after ∧ ending ≠ .fault ∧
      cursor.On template ∧ pass = (cursor.position, after.position)

theorem FullPass.unique {template : List Char} {start finish finish' : Position}
    (h : FullPass template (start, finish)) (h' : FullPass template (start, finish')) :
    finish' = finish := by
  obtain ⟨names, items, ending, body, cursor, after, hreads, hwhole, hon, hpass⟩ := h
  obtain ⟨names', items', ending', body', cursor', after', hreads', hwhole', hon', hpass'⟩ := h'
  obtain ⟨rfl, rfl⟩ := Prod.mk.inj hpass
  obtain ⟨hstart, rfl⟩ := Prod.mk.inj hpass'
  obtain rfl := hon.eq_of_position hon' hstart
  rw [(hreads.unique hreads' hwhole hwhole').2]

/-! ## Bodies -/

/-- The pieces are written since, and the passes that have ended since are full ones. -/
structure Run.Adds (template : List Char) (run : Run) (pieces : List String) (later : Run) :
    Prop where
  sink : later.sink = run.sink.addAll pieces
  ended : ∀ pass ∈ later.journal.passes.ended,
    pass ∈ run.journal.passes.ended ∨ FullPass template pass

/-- Reading has come to the cursor, and no pass is under way that was not before. -/
structure Run.Arrives (template : List Char) (run : Run) (cursor : Cursor)
    (pieces : List String) (later : Run) : Prop extends run.Adds template pieces later where
  cursor : later.cursor = cursor
  begun : later.journal.passes.begun = run.journal.passes.begun

/--
A result that agrees with a verdict.  On success the cursor has arrived and
the environment is as required; on a fault the pieces are written even so.
-/
def Run.Ends (template : List Char) (run : Run) (verdict : Except Fault Unit)
    (after : Cursor) (pieces : List String) (leaves : Environment → Prop) :
    EStateM.Result RenderError Run Unit → Prop
  | .ok _ later => verdict = .ok () ∧ run.Arrives template after pieces later ∧
      leaves later.environment
  | .error error later => ∃ fault number, verdict = .error fault ∧
      error = fault.error number ∧ run.Adds template pieces later

namespace Run

variable {template : List Char} {run middle later : Run} {cursor after : Cursor}
  {first rest : List String} {verdict : Except Fault Unit} {leaves : Environment → Prop}

theorem Writes.adds (h : run.Writes first later) : run.Adds template first later where
  sink := h.sink
  ended _ hpass := .inl (h.passes ▸ hpass)

theorem Adds.capacity (h : run.Adds template first later) :
    later.sink.capacity = run.sink.capacity := by
  rw [h.sink, Sink.capacity_addAll]

theorem Follows.arrives (h : run.Follows cursor first later) :
    run.Arrives template cursor first later where
  toAdds := h.adds
  cursor := h.cursor
  begun := by rw [h.passes]

theorem Adds.trans (h : run.Adds template first middle) (h' : middle.Adds template rest later) :
    run.Adds template (first ++ rest) later where
  sink := by rw [h'.sink, h.sink, Sink.addAll_append]
  ended pass hpass := (h'.ended pass hpass).elim (h.ended pass) .inr

theorem Arrives.trans (h : run.Arrives template cursor first middle)
    (h' : middle.Arrives template after rest later) :
    run.Arrives template after (first ++ rest) later where
  toAdds := h.toAdds.trans h'.toAdds
  cursor := h'.cursor
  begun := h'.begun.trans h.begun

theorem Arrives.ends {result : EStateM.Result RenderError Run Unit}
    (hbefore : run.Arrives template cursor first middle)
    (h : middle.Ends template verdict after rest leaves result) :
    run.Ends template verdict after (first ++ rest) leaves result := by
  cases result with
  | ok value later =>
      obtain ⟨hverdict, harrives, hleaves⟩ := h
      exact ⟨hverdict, hbefore.trans harrives, hleaves⟩
  | error error later =>
      obtain ⟨fault, number, hverdict, herror, hadds⟩ := h
      exact ⟨fault, number, hverdict, herror, hbefore.toAdds.trans hadds⟩

/-- What comes second ends the whole, unless a fault ends it before. -/
theorem Ends.bind {one two : Rendering Unit} {verdict' : Except Fault Unit} {after' : Cursor}
    {pieces : List String} {leaves' : Environment → Prop}
    (h : run.Ends template verdict after first leaves (one run))
    (hok : ∀ middle, verdict = .ok () → run.Arrives template after first middle →
      leaves middle.environment → run.Ends template verdict' after' pieces leaves' (two middle))
    (herror : verdict ≠ .ok () → verdict' = verdict ∧ pieces = first) :
    run.Ends template verdict' after' pieces leaves' ((one >>= fun _ => two) run) := by
  cases hresult : one run with
  | ok value middle =>
      rw [hresult] at h
      obtain ⟨hverdict, harrives, hleaves⟩ := h
      rw [Rendering.bind_ok hresult]
      exact hok middle hverdict harrives hleaves
  | error error later =>
      rw [hresult] at h
      obtain ⟨fault, number, hverdict, hfault, hadds⟩ := h
      obtain ⟨rfl, rfl⟩ := herror (by simp [hverdict])
      rw [Rendering.bind_error hresult]
      exact ⟨fault, number, hverdict, hfault, hadds⟩

end Run

namespace Rendering

/--
From the cursor on, the items of the loops around it standing for the given
values, the body ends with the verdict.  It writes the pieces, unless it is
silent, and leaves no binding behind.
-/
def Performs (template : List Char) (values : Values) (arrays : Arrays)
    (scope : List (String × String)) (cursor : Cursor) (verdict : Except Fault Unit)
    (after : Cursor) (pieces : List String) (body : Bool → Rendering Unit) : Prop :=
  ∀ (emit : Bool) (run : Run), run.cursor = cursor →
    run.environment.Holds values arrays scope → run.sink.capacity = none →
    run.Ends template verdict after (if emit then pieces else []) (· = run.environment)
      (body emit run)

section Passes

variable {template : List Char} {values : Values} {arrays : Arrays}
  {scope : List (String × String)} {start after : Cursor} {verdict : Except Fault Unit}
  {body : Bool → Rendering Unit}

/-- A pass that ends has been a full one if its body was. -/
theorem pass_performs {pieces : List String}
    (hfull : verdict = .ok () → FullPass template (start.position, after.position))
    (hbody : Performs template values arrays scope start verdict after pieces body) :
    Performs template values arrays scope start verdict after pieces (pass body) := by
  intro emit run hcursor hholds hsink
  let begun : Run := { run with
    journal := run.journal.push ⟨.passStarted emit, run.cursor.position, run.environment⟩ }
  have hends := hbody emit begun hcursor hholds hsink
  have hbegun : begun.journal.passes =
      ⟨run.cursor.position :: run.journal.passes.begun, run.journal.passes.ended⟩ :=
    Journal.passes_push ..
  have hpass : pass body emit run = (body emit >>= fun _ => note .passEnded) begun := rfl
  rw [hpass]
  cases hresult : body emit begun with
  | ok value later =>
      rw [hresult] at hends
      obtain ⟨hverdict, harrives, hleaves⟩ := hends
      have hpasses : Journal.passes (later.journal.push
          ⟨.passEnded, later.cursor.position, later.environment⟩) =
            ⟨run.journal.passes.begun, (run.cursor.position, later.cursor.position) ::
              later.journal.passes.ended⟩ := by
        rw [Journal.passes_push, Passes.receive, harrives.begun, hbegun]
      have hpassesBegun := congrArg Passes.begun hpasses
      rw [bind_ok hresult]
      refine ⟨hverdict, ⟨⟨harrives.sink, ?_⟩, harrives.cursor, hpassesBegun⟩, hleaves⟩
      intro pass hmem
      change pass ∈ (Journal.passes (later.journal.push _)).ended at hmem
      rw [hpasses, List.mem_cons] at hmem
      rcases hmem with rfl | hmem
      · rw [hcursor, harrives.cursor]
        exact .inr (hfull hverdict)
      · simpa [hbegun] using harrives.ended pass hmem
  | error error later =>
      rw [hresult] at hends
      obtain ⟨fault, number, hverdict, herror, hadds⟩ := hends
      rw [bind_error hresult]
      refine ⟨fault, number, hverdict, herror, hadds.sink, ?_⟩
      simpa [hbegun] using hadds.ended

/-- The item is bound, and one pass is made from where the body begins. -/
def round (start : Cursor) (item : String) (body : Rendering Unit) (element : String) :
    Rendering Unit := do
  seek start
  setItem item element
  body

variable {run : Run} {item : String} {pieces : String → List String} {outer : Environment}
  {ending : Ending}

private theorem round_ends {element : String} {pieces : List String}
    (hpass : Performs template values arrays ((item, element) :: scope) start verdict after
      pieces body)
    (houter : outer.Holds values arrays scope) (hinside : outer.Inside item run.environment)
    (hsink : run.sink.capacity = none) (emit : Bool) :
    run.Ends template verdict after (if emit then pieces else []) (outer.Inside item)
      (round start item (body emit) element run) := by
  let ready : Run := { run with
    cursor := start
    environment := run.environment.define item element }
  have hends := hpass emit ready rfl (hinside.holds_define houter element) hsink
  change run.Ends template verdict after _ _ (body emit ready)
  cases hresult : body emit ready with
  | ok value later =>
      rw [hresult] at hends
      obtain ⟨hverdict, harrives, hleaves⟩ := hends
      refine ⟨hverdict, ⟨⟨harrives.sink, harrives.ended⟩, harrives.cursor, harrives.begun⟩, ?_⟩
      rw [hleaves]
      exact hinside.define element
  | error error later =>
      rw [hresult] at hends
      obtain ⟨fault, number, hverdict, herror, hadds⟩ := hends
      exact ⟨fault, number, hverdict, herror, hadds.sink, hadds.ended⟩

private theorem forM_ends (hending : verdict = .ok () ↔ ending ≠ .fault)
    (hpass : ∀ element, Performs template values arrays ((item, element) :: scope) start
      verdict after (pieces element) body)
    (houter : outer.Holds values arrays scope) (elements : List String)
    (hinside : outer.Inside item run.environment) (hsink : run.sink.capacity = none)
    (hdone : elements = [] → verdict = .ok () ∧ run.cursor = after) :
    run.Ends template verdict after ((ending.passes elements).flatMap pieces)
      (outer.Inside item) (elements.forM (round start item (body true)) run) := by
  induction elements generalizing run with
  | nil =>
      obtain ⟨hverdict, hcursor⟩ := hdone rfl
      rw [ending.passes_of_ne (hending.mp hverdict)]
      exact ⟨hverdict, hcursor ▸ (Run.Follows.refl run).arrives, hinside⟩
  | cons element elements ih =>
      apply (round_ends (hpass element) houter hinside hsink true).bind
      · intro middle hverdict harrives hleaves
        have hrest := ih hleaves (harrives.capacity ▸ hsink)
          (fun _ => ⟨hverdict, harrives.cursor⟩)
        have hne := hending.mp hverdict
        rw [ending.passes_of_ne hne] at hrest ⊢
        exact harrives.ends hrest
      · -- All passes come to one verdict, so that a fault can only stop the first.
        intro hverdict
        obtain rfl : ending = .fault := by
          by_contra hne
          exact hverdict (hending.mpr hne)
        exact ⟨rfl, by simp [Ending.passes]⟩

theorem passes_ends (hending : verdict = .ok () ↔ ending ≠ .fault)
    (hpass : ∀ element, Performs template values arrays ((item, element) :: scope) start
      verdict after (pieces element) body)
    (houter : outer.Holds values arrays scope) (elements : List String) (emit : Bool)
    (hcursor : run.cursor = start) (hinside : outer.Inside item run.environment)
    (hsink : run.sink.capacity = none) :
    run.Ends template verdict after
      (if emit then (ending.passes elements).flatMap pieces else []) (outer.Inside item)
      (passes body item elements emit run) := by
  subst hcursor
  have hsilent := round_ends (hpass "") houter hinside hsink false
  cases emit with
  | false => exact hsilent
  | true =>
      cases elements with
      | nil =>
          have hnil : (ending.passes []).flatMap pieces = [] := by cases ending <;> rfl
          rw [if_pos rfl, hnil]
          exact hsilent
      | cons element elements =>
          exact forM_ends hending hpass houter (element :: elements) hinside hsink (by simp)

theorem loop_performs (hending : verdict = .ok () ↔ ending ≠ .fault)
    (hpass : ∀ element, Performs template values arrays ((item, element) :: scope) start
      verdict after (pieces element) body)
    {header : Cursor} {array : String} (frame : String)
    (hheader : header.header (.ofBindings values arrays) = .ok (array, item, start)) :
    Performs template values arrays scope header verdict after
      ((ending.passes ((arrays.find? array).getD [])).flatMap pieces) (loop body frame) := by
  intro emit run hcursor hholds hsink
  subst hcursor
  obtain ⟨elements, helements⟩ : ∃ elements, arrays.find? array = some elements := by
    have hheads := Cursor.header_heads (.ofBindings values arrays) run.cursor
    rw [hheader] at hheads
    cases hheads with
    | read _ harray => exact Option.isSome_iff_exists.mp harray
  obtain ⟨inside, hcursor, henvironment, hwrites, hok, herror⟩ :=
    loop_ok body frame emit hholds.hasArray hheader ((hholds.array array).trans helements)
  have hinside : run.environment.Inside item inside.environment :=
    henvironment ▸ run.environment.inside_enter frame item
  have hends := passes_ends hending hpass hholds elements emit hcursor hinside
    (hwrites.capacity ▸ hsink)
  rw [helements, Option.getD_some]
  cases hresult : passes body item elements emit inside with
  | ok value later =>
      rw [hresult] at hends
      obtain ⟨hverdict, harrives, hleaves⟩ := hends
      obtain ⟨last, hlast, hcursor', henvironment', hwrites'⟩ := hok later hresult
      rw [hlast]
      refine ⟨hverdict, ⟨?_, hcursor'.trans harrives.cursor, ?_⟩, ?_⟩
      · simpa using (hwrites.adds.trans harrives.toAdds).trans hwrites'.adds
      · rw [hwrites'.passes, harrives.begun, hwrites.passes]
      · rw [henvironment', hleaves.leave]
  | error error later =>
      rw [hresult] at hends
      obtain ⟨fault, number, hverdict, hfault, hadds⟩ := hends
      rw [herror error later hresult]
      exact ⟨fault, number, hverdict, hfault, hwrites.adds.trans hadds⟩

end Passes

section Blocks

variable {template : List Char} {values : Values} {arrays : Arrays}
  {scope : List (String × String)} {cursor next after : Cursor}
  {verdict : Except Fault Unit} {rest : List String} {blocks : Nat}

private theorem ite_append (emit : Bool) (first rest : List String) :
    (if emit then first ++ rest else []) =
      (if emit then first else []) ++ (if emit then rest else []) := by
  cases emit <;> rfl

private theorem performs_of_follows {first : List String}
    (hnext : ∀ (emit : Bool) (run : Run), run.cursor = cursor →
      run.environment.Holds values arrays scope → run.sink.capacity = none →
      ∃ later, body (blocks + 1) emit run = body blocks emit later ∧
        run.Follows next (if emit then first else []) later)
    (hrest : Performs template values arrays scope next verdict after rest (body blocks)) :
    Performs template values arrays scope cursor verdict after (first ++ rest)
      (body (blocks + 1)) := by
  intro emit run hcursor hholds hsink
  obtain ⟨later, hlater, hfollows⟩ := hnext emit run hcursor hholds hsink
  have hends := hrest emit later hfollows.cursor (hfollows.environment ▸ hholds)
    (hfollows.capacity ▸ hsink)
  rw [hfollows.environment] at hends
  rw [hlater, ite_append]
  exact hfollows.arrives.ends hends

theorem literal_performs {text : String}
    (hread : Block.Reads (.ofBindings values arrays) (scope.map Prod.fst) cursor (.literal text)
      next)
    (hrest : Performs template values arrays scope next verdict after rest (body blocks)) :
    Performs template values arrays scope cursor verdict after ([text] ++ rest)
      (body (blocks + 1)) :=
  performs_of_follows (fun emit _ hcursor _ hsink =>
    body_literal blocks emit hsink (hcursor ▸ hread)) hrest

theorem value_performs {name : String}
    (hread : Block.Reads (.ofBindings values arrays) (scope.map Prod.fst) cursor (.value name)
      next)
    (hrest : Performs template values arrays scope next verdict after rest (body blocks)) :
    Performs template values arrays scope cursor verdict after
      ((valueIn values scope name).toList ++ rest) (body (blocks + 1)) :=
  performs_of_follows (fun emit _ hcursor hholds hsink =>
    body_value blocks emit hsink hholds (hcursor ▸ hread)) hrest

theorem endOfInput_performs
    (hread : Block.Reads (.ofBindings values arrays) (scope.map Prod.fst) cursor .endOfInput
      next) :
    Performs template values arrays scope cursor (.ok ()) next [] (body (blocks + 1)) := by
  intro emit run hcursor _ _
  obtain ⟨later, hlater, hfollows⟩ := body_endOfInput blocks emit (hcursor ▸ hread)
  rw [hlater, ite_self]
  exact ⟨rfl, hfollows.arrives, hfollows.environment⟩

theorem loopEnd_performs
    (hread : Block.Reads (.ofBindings values arrays) (scope.map Prod.fst) cursor .loopEnd
      next) :
    Performs template values arrays scope cursor (.ok ()) next [] (body (blocks + 1)) := by
  intro emit run hcursor hholds _
  obtain ⟨later, hlater, hfollows⟩ := body_loopEnd blocks emit hholds (hcursor ▸ hread)
  rw [hlater, ite_self]
  exact ⟨rfl, hfollows.arrives, hfollows.environment⟩

theorem broken_performs {fault : Fault}
    (hread : Block.Reads (.ofBindings values arrays) (scope.map Prod.fst) cursor (.broken fault)
      next) :
    Performs template values arrays scope cursor (.error fault) next [] (body (blocks + 1)) := by
  intro emit run hcursor hholds _
  obtain ⟨number, later, hlater, hwrites⟩ := body_broken blocks emit hholds (hcursor ▸ hread)
  rw [hlater, ite_self]
  exact ⟨fault, number, rfl, rfl, hwrites.adds⟩

theorem brokenValue_performs {name : String} {fault : Fault}
    (hread : Block.Reads (.ofBindings values arrays) (scope.map Prod.fst) cursor
      (.brokenValue name fault) next) :
    Performs template values arrays scope cursor (.error fault) next
      (valueIn values scope name).toList (body (blocks + 1)) := by
  intro emit run hcursor hholds hsink
  obtain ⟨number, later, hlater, hwrites⟩ :=
    body_brokenValue blocks emit hsink hholds (hcursor ▸ hread)
  rw [hlater]
  exact ⟨fault, number, rfl, rfl, hwrites.adds⟩

/-- A loop, and after it the blocks that are left for the body around it, if there are any. -/
theorem loopBegin_performs {array item : String} {ending : Ending} {inner : Except Fault Unit}
    {middle : Cursor} {pieces : String → List String}
    (hread : Block.Reads (.ofBindings values arrays) (scope.map Prod.fst) cursor
      (.loopBegin array item) next)
    (hending : inner = .ok () ↔ ending ≠ .fault)
    (hpass : ∀ element, Performs template values arrays ((item, element) :: scope) next inner
      middle (pieces element) (pass (body blocks)))
    (hrest : inner = .ok () →
      Performs template values arrays scope middle verdict after rest (body blocks))
    (hfault : inner ≠ .ok () → verdict = inner ∧ rest = []) :
    Performs template values arrays scope cursor verdict after
      ((ending.passes ((arrays.find? array).getD [])).flatMap pieces ++ rest)
      (body (blocks + 1)) := by
  intro emit run hcursor hholds hsink
  subst hcursor
  obtain ⟨header, frame, later, hlater, hfollows, hheader⟩ := body_loopBegin blocks emit hread
  have hloop := loop_performs hending hpass frame hheader emit later hfollows.cursor
    (hfollows.environment ▸ hholds) (hfollows.capacity ▸ hsink)
  have hends : later.Ends template verdict after
      ((if emit then (ending.passes ((arrays.find? array).getD [])).flatMap pieces else []) ++
        (if emit then rest else [])) (· = later.environment)
      ((loop (pass (body blocks)) frame emit >>= fun _ => body blocks emit) later) := by
    apply hloop.bind
    · intro last hinner harrives hleaves
      have hlast := hrest hinner emit last harrives.cursor
        (hleaves ▸ hfollows.environment ▸ hholds)
        (harrives.capacity.trans hfollows.capacity ▸ hsink)
      rw [hleaves] at hlast
      exact harrives.ends hlast
    · intro hinner
      obtain ⟨rfl, rfl⟩ := hfault hinner
      exact ⟨rfl, by simp⟩
  rw [hfollows.environment] at hends
  rw [hlater, ite_append]
  simpa using hfollows.arrives.ends hends

end Blocks

/--
A body of a template, run where its outline is read, ends as the outline does
and writes what the outline evaluates to.
-/
theorem body_performs {template : List Char} {values : Values} {arrays : Arrays}
    {ending : Ending} {items : List String} {cursor after : Cursor} {outline : Body ending}
    (hreads : outline.ReadsAs (.ofBindings values arrays) items cursor after)
    (hon : cursor.On template) {scope : List (String × String)}
    (hitems : items = scope.map Prod.fst) {blocks : Nat}
    (hblocks : cursor.scanBound ≤ blocks) :
    Performs template values arrays scope cursor outline.verdict after
      (outline.evaluate values arrays scope) (body blocks) := by
  obtain ⟨blocks, rfl⟩ := cursor.exists_eq_succ hblocks
  -- What is left to scan bounds the blocks, also for the pass that begins a loop's body anew.
  induction hreads generalizing scope blocks with
  | endOfInput hread => exact endOfInput_performs (hitems ▸ hread)
  | loopEnd hread => exact loopEnd_performs (hitems ▸ hread)
  | broken hread => exact broken_performs (hitems ▸ hread)
  | brokenValue hread => exact brokenValue_performs (hitems ▸ hread)
  | @literal _ _ cursor next _ _ _ hread _ ih =>
      have hlt := hread.scanBound_lt (by simp) (by simp)
      obtain ⟨fewer, rfl⟩ : ∃ fewer, blocks = fewer + 1 := next.exists_eq_succ (by omega)
      have hrest := ih (hread.reaches.on hon) hitems fewer (by omega)
      exact literal_performs (hitems ▸ hread) hrest
  | @value _ _ cursor next _ _ _ hread _ ih =>
      have hlt := hread.scanBound_lt (by simp) (by simp)
      obtain ⟨fewer, rfl⟩ : ∃ fewer, blocks = fewer + 1 := next.exists_eq_succ (by omega)
      have hrest := ih (hread.reaches.on hon) hitems fewer (by omega)
      exact value_performs (hitems ▸ hread) hrest
  | @loop _ _ cursor next middle _ _ item inside _ hread hinside _ ihInside ihRest =>
      have hlt := hread.scanBound_lt (by simp) (by simp)
      have hle := hinside.reaches.scanBound_le
      have hstart := hread.reaches.on hon
      obtain ⟨fewer, rfl⟩ : ∃ fewer, blocks = fewer + 1 := next.exists_eq_succ (by omega)
      have hpass (element : String) := pass_performs
        (fun _ => ⟨_, _, _, inside, next, middle, hinside, by decide, hstart, rfl⟩)
        (@ihInside hstart ((item, element) :: scope) (by simp [hitems]) fewer (by omega))
      have hrest := ihRest (hinside.reaches.on hstart) hitems fewer (by omega)
      refine loopBegin_performs (hitems ▸ hread) inside.verdict_eq_ok_iff hpass
        (fun _ => hrest) fun hfault => absurd (inside.verdict_eq_ok_iff.mpr (by decide)) hfault
  | @openLoop ending _ cursor next after _ item inside hread hinside hopen ih =>
      have hlt := hread.scanBound_lt (by simp) (by simp)
      have hstart := hread.reaches.on hon
      obtain ⟨fewer, rfl⟩ : ∃ fewer, blocks = fewer + 1 := next.exists_eq_succ (by omega)
      have hpass (element : String) := pass_performs
        (fun hverdict => ⟨_, _, _, inside, next, after, hinside,
          inside.verdict_eq_ok_iff.mp hverdict, hstart, rfl⟩)
        (@ih hstart ((item, element) :: scope) (by simp [hitems]) fewer (by omega))
      -- The end of the input that ended the loop is met again by the body around it.
      have hend (hverdict : inside.verdict = .ok ()) :
          Performs template values arrays scope after inside.verdict after []
            (body (fewer + 1)) := by
        have hinput : ending = .input := by
          have hwhole := inside.verdict_eq_ok_iff.mp hverdict
          cases ending <;> simp_all
        obtain ⟨span, hscan⟩ := hinside.scan_after hinput
        rw [hverdict]
        exact endOfInput_performs (.endOfInput hscan)
      rw [Body.evaluate, ← List.append_nil (List.flatMap ..)]
      exact loopBegin_performs (hitems ▸ hread) inside.verdict_eq_ok_iff hpass hend
        fun _ => ⟨rfl, rfl⟩

theorem template_performs {values : Values} {arrays : Arrays} {template : String}
    {ending : Ending} {outline : Body ending} {after : Cursor}
    (hreads : outline.ReadsAs (.ofBindings values arrays) [] (.ofTemplate template) after) :
    Performs template.toList values arrays [] (.ofTemplate template) outline.verdict after
      (outline.evaluate values arrays []) (pass (body (template.length + 1))) := by
  have hon := Cursor.On.ofTemplate template
  have hblocks := Cursor.scanBound_ofTemplate_le template
  refine pass_performs (fun hverdict => ?_) (body_performs hreads hon rfl hblocks)
  exact ⟨_, _, _, outline, _, after, hreads, outline.verdict_eq_ok_iff.mp hverdict, hon, rfl⟩

end Rendering

/-! ## Renderings -/

/-- The verdict on a template is what a rendering of it comes to, the numbers of loops aside. -/
def Reports : Except Fault Unit → Except RenderError Unit → Prop
  | .ok _, .ok _ => True
  | .error fault, .error error => ∃ number, error = fault.error number
  | _, _ => False

theorem Reports.ok_iff {verdict : Except Fault Unit} {result : Except RenderError Unit}
    (h : Reports verdict result) : verdict = .ok () ↔ result = .ok () := by
  cases verdict <;> cases result <;> simp_all [Reports]

theorem render_eq (values : Values) (arrays : Arrays) (template : String) (sink : Sink) :
    render values arrays template sink =
      match Rendering.renderTemplate template
        ⟨.ofTemplate template, 0, .ofBindings values arrays, sink, #[]⟩ with
      | .ok _ run => ⟨.ok (), run.sink, run.journal⟩
      | .error error run => ⟨.error error, run.sink, run.journal⟩ := by
  have hstart : (Session.ofBindings values arrays).environment.reset =
      .ofBindings values arrays := rfl
  simp only [render, Session.render, hstart, EStateM.run]
  split <;> simp_all

/-- A rendering comes to what the outline of its template does. -/
theorem render_of_readsAs {values : Values} {arrays : Arrays} {template : String}
    {ending : Ending} {outline : Body ending} {after : Cursor}
    (hreads : outline.ReadsAs (.ofBindings values arrays) [] (.ofTemplate template) after)
    (before : String) :
    let outcome := render values arrays template (.unlimited before)
    Reports outline.verdict outcome.result ∧
      outcome.sink.pieces.toList = outline.evaluate values arrays [] ∧
      ∀ pass ∈ outcome.journal.passes.ended, FullPass template.toList pass := by
  let environment : Environment := .ofBindings values arrays
  let started : Run := ⟨.ofTemplate template, 0, environment, .unlimited before,
    #[⟨.renderStarted template.utf8ByteSize, .start, environment⟩]⟩
  let firstPass : Rendering Unit :=
    Rendering.pass (Rendering.body (template.length + 1)) true
  have hstart : started.journal.passes = ⟨[], []⟩ := Journal.passes_push #[] _
  have hends : started.Ends template.toList outline.verdict after
      (outline.evaluate values arrays []) (· = environment) (firstPass started) :=
    Rendering.template_performs hreads true started rfl (.ofBindings values arrays) rfl
  have hrun : Rendering.renderTemplate template
      ⟨.ofTemplate template, 0, environment, .unlimited before, #[]⟩ =
        (firstPass >>= fun _ => do
          Rendering.note (.renderFinished (← get).cursor.position.place.offset)) started := rfl
  rw [render_eq, hrun]
  cases hresult : firstPass started with
  | ok value later =>
      rw [hresult] at hends
      obtain ⟨hverdict, harrives, hleaves⟩ := hends
      rw [Rendering.bind_ok hresult, hverdict]
      refine ⟨trivial, ?_, fun pass hpass => ?_⟩
      · exact (congrArg (·.pieces.toList) harrives.sink).trans (Sink.pieces_addAll ..)
      · change pass ∈ (Journal.passes (later.journal.push _)).ended at hpass
        rw [Journal.passes_push] at hpass
        exact (harrives.ended pass hpass).resolve_left (by simp [hstart])
  | error error later =>
      rw [hresult] at hends
      obtain ⟨fault, number, hverdict, herror, hadds⟩ := hends
      rw [Rendering.bind_error hresult, hverdict]
      refine ⟨⟨number, herror⟩, ?_, fun pass hpass => ?_⟩
      · exact (congrArg (·.pieces.toList) hadds.sink).trans (Sink.pieces_addAll ..)
      · exact (hadds.ended pass hpass).resolve_left (by simp [hstart])

end Stencil
