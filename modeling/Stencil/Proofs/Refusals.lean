import Stencil.Proofs.Brackets
import Stencil.Proofs.Evaluation

/-!
# Refusals

A sink that refuses every piece after a given number cuts a rendering short
where it would write one piece too many, and changes nothing before.
-/

namespace Stencil

/-! ## Cutting a journal short -/

def Event.written? : Event → Option String
  | .wrote piece => some piece
  | _ => none

def Event.refusal? : Event → Option String
  | .refused piece => some piece
  | _ => none

def writesOf (moments : List Moment) : List String := moments.filterMap (·.event.written?)

def refusalsOf (moments : List Moment) : List String := moments.filterMap (·.event.refusal?)

/-- The moments up to the first write that is one too many, which is refused instead. -/
def truncate : Nat → List Moment → List Moment
  | _, [] => []
  | 0, ⟨.wrote piece, position, environment⟩ :: _ =>
      [⟨.refused piece, position, environment⟩]
  | room + 1, ⟨.wrote piece, position, environment⟩ :: moments =>
      ⟨.wrote piece, position, environment⟩ :: truncate room moments
  | room, moment :: moments => moment :: truncate room moments

theorem truncate_append (room : Nat) (earlier later : List Moment) :
    truncate ((writesOf earlier).length + room) (earlier ++ later) =
      earlier ++ truncate room later := by
  induction earlier with
  | nil => simp [writesOf]
  | cons moment earlier ih =>
      obtain ⟨event, position, environment⟩ := moment
      cases event with
      | wrote piece =>
          have hlength : (writesOf (⟨.wrote piece, position, environment⟩ :: earlier)).length +
              room = (writesOf earlier).length + room + 1 := by
            simp [writesOf, Event.written?, Nat.add_right_comm]
          rw [hlength, List.cons_append, truncate, ih, List.cons_append]
      | _ => simpa [writesOf, Event.written?, truncate] using ih

theorem truncate_of_le {room : Nat} {moments : List Moment}
    (h : (writesOf moments).length ≤ room) : truncate room moments = moments := by
  obtain ⟨rest, rfl⟩ := Nat.exists_eq_add_of_le h
  simpa [truncate] using truncate_append rest moments []

theorem refusalsOf_truncate (room : Nat) {moments : List Moment} (h : refusalsOf moments = []) :
    refusalsOf (truncate room moments) = (writesOf moments)[room]?.toList := by
  induction moments generalizing room with
  | nil => rfl
  | cons moment moments ih =>
      obtain ⟨event, position, environment⟩ := moment
      cases event with
      | wrote piece =>
          cases room with
          | zero => rfl
          | succ room => exact ih room h
      | refused piece => cases h
      | _ => exact ih room h

/-! ## Writes and refusals of a walk -/

/-- The writes in the journal are the pieces in the sink, which holds no more than it accepts. -/
structure Run.Tallied (limit : Option Nat) (run : Run) : Prop where
  capacity : run.sink.capacity = limit
  room : limit.all (run.sink.pieces.size ≤ ·)
  writes : writesOf run.journal.toList = run.sink.pieces.toList
  refusals : limit = none → refusalsOf run.journal.toList = []

section Tally

variable {limit : Option Nat} {run : Run}

theorem Run.Tallied.note (h : run.Tallied limit) (event : Event)
    (hwritten : event.written? = none) (hrefusal : event.refusal? = none) :
    (run.note event).Tallied limit where
  capacity := h.capacity
  room := h.room
  writes := by simpa [Run.note, writesOf, hwritten] using h.writes
  refusals hnone := by simpa [Run.note, refusalsOf, hrefusal] using h.refusals hnone

theorem Run.Tallied.of_refused {piece : String} {limit : Nat}
    (h : (run.note (.refused piece)).Tallied (some limit)) : run.Tallied (some limit) where
  capacity := h.capacity
  room := h.room
  writes := by simpa [Run.note, writesOf, Event.written?] using h.writes
  refusals := nofun

theorem Run.Move.tallied {later : Run} (hmove : run.Move later) (h : run.Tallied limit) :
    later.Tallied limit := by
  cases hmove with
  | scan site =>
      have hread : Run.Tallied limit
          { run with
            cursor := run.cursor.scan.2
            loops := run.loops + Reading.loops run.cursor.scan.1 } :=
        ⟨h.capacity, h.room, h.writes, h.refusals⟩
      apply hread.note <;> cases run.cursor.scan.1 <;> rfl
  | write piece haccepts =>
      have hwrites := h.writes
      have hrefusals := h.refusals
      refine ⟨h.capacity, ?_, ?_, fun hnone => ?_⟩
      · rw [Sink.accepts, h.capacity] at haccepts
        cases limit with
        | none => rfl
        | some limit => simpa [Run.wrote, Run.note, Sink.add, Nat.add_one_le_iff] using haccepts
      · simpa [Run.wrote, Run.note, Sink.add, writesOf, Event.written?] using hwrites
      · simpa [Run.wrote, Run.note, refusalsOf, Event.refusal?] using hrefusals hnone
  | refuse piece hrefuses =>
      have hwrites := h.writes
      refine ⟨h.capacity, h.room, ?_, fun hnone => ?_⟩
      · simpa [Run.note, writesOf, Event.written?] using hwrites
      · simp [Sink.accepts, h.capacity, hnone] at hrefuses

theorem Situation.Step.tallied {situation next : Situation} (hstep : Step situation next)
    (h : situation.run.Tallied limit) : next.run.Tallied limit := by
  cases hstep with
  | start run bytes => exact (h.note _ rfl rfl).note _ rfl rfl
  | move hmove loops => exact hmove.tallied h
  | enter | begin | leave =>
      apply Run.Tallied.note _ _ rfl rfl
      exact ⟨h.capacity, h.room, h.writes, h.refusals⟩
  | passEnded | finish => exact h.note _ rfl rfl

theorem Rendering.template_tallied (template : String) (h : run.Tallied limit) :
    (stateAfter (renderTemplate template run)).Tallied limit := by
  obtain ⟨loops, hwalk⟩ := template_walk template run
  exact hwalk.keeps (fun _ _ => Situation.Step.tallied) h

end Tally

/-! ## Two renderings, one of them refused -/

theorem Run.Pair.journal_eq {run run' : Run} (h : run.Pair Eq Eq run') :
    run.journal.toList = run'.journal.toList := by
  rw [← List.forall₂_eq_eq_eq]
  refine h.journal.imp fun first second hpair => ?_
  obtain ⟨event, position, environment⟩ := first
  obtain ⟨event', position', environment'⟩ := second
  obtain ⟨hevent, rfl, rfl⟩ := hpair
  cases hevent with
  | same => rfl
  | wrote hpiece => rw [hpiece]

theorem Run.Pair.pieces_eq {run run' : Run} (h : run.Pair Eq Eq run') :
    run.sink.pieces.toList = run'.sink.pieces.toList := by
  rw [← List.forall₂_eq_eq_eq]
  exact h.pieces

/-- The second outcome is what becomes of the first if all pieces after so many are refused. -/
structure Outcome.Truncates (room : Nat) (free limited : Outcome) : Prop where
  pieces : limited.sink.pieces.toList = free.sink.pieces.toList.take room
  result : limited.result =
    if free.sink.pieces.toList.length ≤ room then free.result else .error .refusedWrite
  journal : limited.journal.toList = truncate room free.journal.toList

namespace Rendering

variable {limit : Nat} {first second : Run}

theorem agree_truncates {result result' : EStateM.Result RenderError Run Unit}
    (h : Agree Eq Eq Eq result result') (hlimited : (stateAfter result').Tallied (some limit)) :
    (outcomeOf result).Truncates limit (outcomeOf result') := by
  have htruncates {run run' : Run} (hpair : run.Pair Eq Eq run')
      (hlimited : run'.Tallied (some limit)) (result : Except RenderError Unit) :
      Outcome.Truncates limit ⟨result, run.sink, run.journal⟩
        ⟨result, run'.sink, run'.journal⟩ := by
    have hpieces := hpair.pieces_eq
    have hroom : run'.sink.pieces.toList.length ≤ limit := by simpa using hlimited.room
    refine ⟨?_, ?_, ?_⟩
    · rw [hpieces, List.take_of_length_le hroom]
    · rw [if_pos]
      rwa [hpieces]
    · rw [hpair.journal_eq, truncate_of_le]
      rwa [hlimited.writes]
  cases h with
  | ok _ hpair => exact htruncates hpair hlimited (.ok ())
  | error error hpair => exact htruncates hpair hlimited (.error error)

theorem outruns_truncates {result : EStateM.Result RenderError Run Unit}
    (h : (stateAfter result).Outruns Eq Eq second) (hlimited : second.Tallied (some limit)) :
    (outcomeOf result).Truncates limit ⟨.error .refusedWrite, second.sink, second.journal⟩ := by
  obtain ⟨run, run', piece, _, hpair, rfl, hrefuses, rfl, hprecedes⟩ := h
  have htallied := hlimited.of_refused
  -- A sink that refuses is full, and so the piece is the first that is one too many.
  have hfull : run'.sink.pieces.toList.length = limit := by
    have hle : run'.sink.pieces.size ≤ limit := by simpa using htallied.room
    have hge : ¬run'.sink.pieces.size < limit := by
      simpa [Sink.accepts, htallied.capacity] using hrefuses
    rw [Array.length_toList]
    omega
  have hearlier : (writesOf run'.journal.toList).length = limit := by
    rw [htallied.writes, hfull]
  obtain ⟨more, hmore⟩ := hprecedes.pieces
  obtain ⟨later, hlater⟩ := hprecedes.journal
  have hpieces : (stateAfter result).sink.pieces.toList =
      run'.sink.pieces.toList ++ (piece :: more) := by
    rw [← hmore, ← hpair.pieces_eq]
    simp [Run.wrote, Run.note, Sink.add]
  have hjournal : (stateAfter result).journal.toList = run'.journal.toList ++
      (⟨.wrote piece, run'.cursor.position, run'.environment⟩ :: later) := by
    rw [← hlater, ← hpair.journal_eq, ← hpair.cursor, ← hpair.environment]
    simp [Run.wrote, Run.note]
  refine ⟨?_, ?_, ?_⟩
  · rw [sink_outcomeOf, hpieces, ← hfull, List.take_left]
    rfl
  · rw [sink_outcomeOf, hpieces, if_neg]
    simp [← hfull]
  · have htruncate := truncate_append 0 run'.journal.toList
      (⟨.wrote piece, run'.cursor.position, run'.environment⟩ :: later)
    rw [Nat.add_zero, hearlier] at htruncate
    rw [journal_outcomeOf, hjournal, htruncate]
    simp [Run.note, truncate]

end Rendering

/-- Only the capacity of its sink tells a rendering from one that is not refused. -/
theorem render_truncates (values : Values) (arrays : Arrays) (template before before' : String)
    (limit : Nat) :
    (render values arrays template (.unlimited before)).Truncates limit
      (render values arrays template (.limited before' limit)) := by
  let free := (Session.ofBindings values arrays).start template (.unlimited before)
  let limited := (Session.ofBindings values arrays).start template (.limited before' limit)
  have hstart : free.Pair Eq Eq limited := ⟨rfl, rfl, rfl, rfl, .nil, .nil⟩
  have hlimited : (Rendering.stateAfter (Rendering.renderTemplate template limited)).Tallied
      (some limit) :=
    Rendering.template_tallied template
      ⟨rfl, by simp [limited, Session.start, Sink.limited], rfl, nofun⟩
  have hpairs := Rendering.template_pairs .same hstart template
  rw [Rendering.render_eq_outcomeOf, Rendering.render_eq_outcomeOf]
  change (Rendering.outcomeOf (Rendering.renderTemplate template free)).Truncates limit
    (Rendering.outcomeOf (Rendering.renderTemplate template limited))
  generalize Rendering.renderTemplate template free = result,
    Rendering.renderTemplate template limited = result' at hpairs hlimited ⊢
  cases hpairs with
  | agree h => exact Rendering.agree_truncates h hlimited
  | refused h => exact Rendering.outruns_truncates h hlimited

/-! ## Templates that write nothing -/

/-- All text and all values are inside loops over empty arrays. -/
def Body.Mute (arrays : Arrays) {ending : Ending} : Body ending → Prop
  | .endOfInput | .loopEnd | .broken _ => True
  | .brokenValue .. | .literal .. | .value .. => False
  | .loop array _ inside rest =>
      (arrays.find? array = some [] ∨ inside.Mute arrays) ∧ rest.Mute arrays
  | .openLoop array _ inside _ => arrays.find? array = some [] ∨ inside.Mute arrays

theorem Body.Mute.evaluate {values : Values} {arrays : Arrays} {ending : Ending}
    {body : Body ending} (h : body.Mute arrays) (scope : List (String × String)) :
    body.evaluate values arrays scope = [] := by
  induction body generalizing scope with
  | endOfInput | loopEnd | broken => rfl
  | brokenValue | literal | value => exact h.elim
  | loop array item inside rest ihInside ihRest =>
      obtain ⟨hinside, hrest⟩ := h
      rw [Body.evaluate, ihRest hrest, List.append_nil]
      rcases hinside with hempty | hinside
      · rw [hempty, Option.getD_some, List.flatMap_nil]
      · exact List.flatMap_eq_nil_iff.mpr fun element _ => ihInside hinside _
  | @openLoop ending array item inside _ ih =>
      rw [Body.evaluate]
      rcases h with hempty | hinside
      · rw [hempty]
        cases ending <;> rfl
      · exact List.flatMap_eq_nil_iff.mpr fun element _ => ih hinside _

theorem Reports.ne_refusedWrite {verdict : Except Fault Unit} {result : Except RenderError Unit}
    (h : Reports verdict result) : result ≠ .error .refusedWrite := by
  rintro rfl
  cases verdict with
  | ok value => exact h
  | error fault =>
      obtain ⟨number, herror⟩ := h
      cases fault <;> cases herror

/--
Into a sink that refuses every piece after a given number a rendering goes as
into one that never refuses, up to the first piece too many; that piece is
refused, and nothing follows.  Nothing is written or refused inside a loop
over an empty array, so that a template all of whose text is in such loops is
never refused.
-/
theorem render_limited (values : Values) (arrays : Arrays) (template before before' : String)
    (limit : Nat) :
    let free := render values arrays template (.unlimited before)
    let limited := render values arrays template (.limited before' limit)
    let written := free.sink.pieces.toList
    writesOf free.journal.toList = written ∧
      limited.sink.pieces.toList = written.take limit ∧
      refusalsOf limited.journal.toList = written[limit]?.toList ∧
      limited.journal.toList = truncate limit free.journal.toList ∧
      limited.result =
        (if written.length ≤ limit then free.result else .error .refusedWrite) ∧
      (∀ earlier moment later, limited.journal.toList = earlier ++ moment :: later →
        (∃ piece, moment.event = .wrote piece ∨ moment.event = .refused piece) →
          AllFull (bracketsOf earlier)) ∧
      ∀ (ending : Ending) (outline : Body ending) (after : Cursor),
        outline.ReadsAs (.ofBindings values arrays) [] (.ofTemplate template) after →
        outline.Mute arrays →
          limited.result ≠ .error .refusedWrite ∧ limited.sink.pieces.toList = [] := by
  intro free limited written
  obtain ⟨hpieces, hresult, hjournal⟩ :=
    render_truncates values arrays template before before' limit
  have hfree : writesOf free.journal.toList = written ∧ refusalsOf free.journal.toList = [] := by
    have hstart : ((Session.ofBindings values arrays).start template
        (.unlimited before)).Tallied none := ⟨rfl, rfl, rfl, fun _ => rfl⟩
    have htallied := Rendering.template_tallied template hstart
    have hrender := Rendering.render_eq_outcomeOf values arrays template (.unlimited before)
    subst written free
    rw [hrender, Rendering.journal_outcomeOf, Rendering.sink_outcomeOf]
    exact ⟨htallied.writes, htallied.refusals rfl⟩
  refine ⟨hfree.1, hpieces, ?_, hjournal, hresult, ?_, ?_⟩
  · rw [hjournal, refusalsOf_truncate limit hfree.2, hfree.1]
  · intro earlier moment later hsplit hattempt
    have hfits := (render_inPlace values arrays template _ earlier moment later hsplit).event
    obtain ⟨piece, hevent | hevent⟩ := hattempt <;> rwa [hevent] at hfits
  · intro ending outline after hreads hmute
    obtain ⟨hreports, hevaluate, -⟩ := render_of_readsAs hreads before
    rw [hmute.evaluate] at hevaluate
    rw [hevaluate] at hpieces hresult
    rw [List.length_nil] at hresult
    rw [hresult, if_pos (Nat.zero_le limit)]
    exact ⟨hreports.ne_refusedWrite, hpieces.trans List.take_nil⟩

/-- Text in an empty loop is not refused; before a fault it is, and the fault is not met. -/
theorem render_limited_to_nothing :
    let arrays : Arrays := .ofList [("xs", [])]
    let quiet := "\x7b\x7b#loop xs x\x7d\x7da\x7b\x7b/loop\x7d\x7d"
    let loud := "a\x7b\x7by\x7d\x7d"
    (render .empty arrays quiet (.limited "" 0)).result ≠ .error .refusedWrite ∧
      (render .empty arrays loud (.unlimited "")).result.toOption = none ∧
      (render .empty arrays loud (.limited "" 0)).result = .error .refusedWrite := by
  intro arrays quiet loud
  let tree : Body .input := .loop "xs" "x" (.literal "a" .loopEnd) .endOfInput
  have hspells : (Cursor.ofTemplate quiet).Spells (tree.lexemes ++ []) := by
    have hparse : (tokensOf quiet).toOption.map (·.map Token.lexeme) = some tree.lexemes := by
      decide +kernel
    cases htokens : tokensOf quiet with
    | error error => simp [htokens, Except.toOption] at hparse
    | ok tokens =>
        have hlexemes : tokens.map Token.lexeme = tree.lexemes ++ [] := by
          simpa [htokens, Except.toOption] using hparse
        exact hlexemes ▸ Cursor.spells_ofTemplate htokens
  have hscoped : tree.Scoped (.ofBindings .empty arrays) [] := ⟨by decide, trivial, trivial⟩
  obtain ⟨after, hreads, -⟩ := tree.readsAs_of_spells hspells hscoped (by decide) nofun
  have hmute : tree.Mute arrays := ⟨.inl (by decide), trivial⟩
  obtain ⟨-, -, -, -, -, -, hquiet⟩ := render_limited .empty arrays quiet "" "" 0
  obtain ⟨-, -, -, -, hloud, -⟩ := render_limited .empty arrays loud "" "" 0
  refine ⟨(hquiet _ tree after hreads hmute).1, ?_, ?_⟩
  · decide +kernel
  · rw [hloud, if_neg]
    decide +kernel

end Stencil
