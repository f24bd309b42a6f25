import Mathlib.Data.List.TakeWhile
import Stencil.Proofs.Brackets

/-!
# Sites

A body asks for a token only where text or an opening can follow, and a tag
only inside a tag.  Each can be given few kinds of token, so that of the faults
a rendering can name many never occur.  What a loop opens is what it closes.
-/

namespace Stencil

/-! ## What a site is given -/

def Site.kinds : Site → List TokenKind
  | .body => [.endOfInput, .literal, .scriptBegin]
  | .tag => [.identifier, .loopBegin, .loopEnd, .scriptEnd]

/-- The site of the scan behind a token. -/
def TokenKind.site : TokenKind → Site
  | .endOfInput | .literal | .scriptEnd => .body
  | .scriptBegin | .identifier | .loopBegin | .loopEnd => .tag

/-- A body stands in text, or where an opening is owed that has been read already. -/
def Position.Suits (position : Position) : Site → Prop
  | .body => position.mode = .text ∧ position.owed = none ∨
      position.mode = .tag ∧ position.owed.isSome
  | .tag => position.mode = .tag ∧ position.owed = none

namespace Cursor

variable {cursor : Cursor} {site : Site}

theorem scan_of_suits (h : cursor.position.Suits site) :
    match cursor.scan.1 with
    | .ok mark => mark.1.kind ∈ site.kinds ∧ cursor.scan.2.position.Suits mark.1.kind.site
    | .error _ => site = .tag := by
  have hscans := cursor.scan_scans
  generalize cursor.scan.1 = reading, cursor.scan.2 = next at hscans ⊢
  cases site with
  | body =>
      cases hscans with
      | owed place mode => simp_all [Position.Suits, Site.kinds, Lexeme.kind, TokenKind.site]
      | item | stuck => simp [Position.Suits] at h
      | endOfInput | opening | lastText | text =>
          simp [Position.Suits, Site.kinds, Lexeme.kind, TokenKind.site]
  | tag =>
      cases hscans with
      | owed | endOfInput | opening | lastText | text => simp [Position.Suits] at h
      | item place blanks rest item =>
          cases item <;> simp [Position.Suits, Site.kinds, Lexeme.kind, TokenKind.site,
            TagItem.lexeme, TagItem.modeAfter]
      | stuck => rfl

end Cursor

theorem TagItem.read_eq_unterminated_iff (source : List Char) :
    read source = .error .unterminatedTag ↔ source = [] := by
  constructor
  · intro h
    have hfault := ((read_eq_error_iff source _).mp h).2
    unfold faultAt at hfault
    split at hfault <;> first | rfl | cases hfault
  · rintro rfl
    rfl

/-- Inside a tag nothing but blanks is ahead when the input is found to end. -/
theorem Cursor.scan_eq_unterminated_iff {cursor : Cursor} (h : cursor.position.Suits .tag) :
    (∃ span, cursor.scan.1 = .error ⟨.unterminatedTag, span⟩) ↔
      cursor.ahead.all TagItem.isBlank := by
  obtain ⟨⟨place, mode, owed⟩, ahead⟩ := cursor
  obtain ⟨rfl, rfl⟩ : mode = .tag ∧ owed = none := h
  have hblanks : ahead.dropWhile TagItem.isBlank = [] ↔ ahead.all TagItem.isBlank := by
    rw [List.dropWhile_eq_nil_iff, List.all_eq_true]
  rw [← hblanks, ← TagItem.read_eq_unterminated_iff]
  simp only [scan, scanTag]
  cases TagItem.read (ahead.dropWhile TagItem.isBlank) <;> simp

/-! ## Answers -/

def Event.site? : Event → Option Site
  | .scanned site _ | .scanFailed site _ => some site
  | _ => none

/-- The moment is what a scan for the site comes to from where the one before it stands. -/
def Moment.Answers (template : List Char) (earlier : List Moment) (site : Site)
    (moment : Moment) : Prop :=
  ∃ (initial : List Moment) (before : Moment) (cursor : Cursor) (number : Nat),
    earlier = initial ++ [before] ∧
    cursor.On template ∧ before.position = cursor.position ∧ cursor.position.Suits site ∧
    moment.event = .ofReading site number cursor.scan.1

/-- Whatever has been asked for has been asked for where it suits. -/
def Answered (template : List Char) : List Moment → Prop :=
  Throughout fun earlier moment =>
    ∀ site, moment.event.site? = some site → moment.Answers template earlier site

/-- What the last events are when a rendering stops with the error. -/
def RenderError.Follows (events : List Event) : RenderError → Prop
  | .lexical error => [.scanFailed .tag error] <:+ events
  | .grammar ⟨.expected wanted found text, span⟩ =>
      wanted ∈ [.identifier, .scriptEnd] ∧ found ∈ Site.tag.kinds ∧ found ≠ wanted ∧
        [.scanned .tag ⟨found, text, span⟩] <:+ events
  | .grammar ⟨.unexpected found text, span⟩ =>
      found = .scriptEnd ∧ text = "\x7d\x7d" ∧
        ∃ opening, [.scanned .body ⟨.scriptBegin, "\x7b\x7b", opening⟩,
          .scanned .tag ⟨found, text, span⟩] <:+ events
  | .grammar ⟨.unmatchedLoopEnd, span⟩ => [.scanned .tag ⟨.loopEnd, "/loop", span⟩] <:+ events
  | .unresolved (.undefinedIdentifier name) =>
      ∃ span, [.scanned .tag ⟨.identifier, name, span⟩] <:+ events
  | .unresolved (.undefinedArray name) =>
      ∃ frame opening span, [.scanned .tag ⟨.loopBegin, frame, opening⟩,
        .scanned .tag ⟨.identifier, name, span⟩] <:+ events
  | .refusedWrite => ∃ piece, [.refused piece] <:+ events

namespace Run

/-- A rendering under way that stands where the site may ask. -/
structure Stands (template : String) (arrays : Arrays) (site : Site) (run : Run) : Prop where
  answered : Answered template.toList run.journal.toList
  unfailed : ∀ site error, .scanFailed site error ∉ run.journal.events
  on : run.cursor.On template.toList
  suits : run.cursor.position.Suits site
  arrays : run.environment.ArraysAtRoot arrays

/-- The last moment is where the rendering stands, and the last events are known. -/
structure Asks (template : String) (arrays : Arrays) (recent : List Event) (site : Site)
    (run : Run) : Prop extends run.Stands template arrays site where
  last : ∃ initial before, run.journal.toList = initial ++ [before] ∧
    before.position = run.cursor.position
  recent : recent <:+ run.journal.events

structure Stopped (template : String) (error : RenderError) (run : Run) : Prop where
  answered : Answered template.toList run.journal.toList
  failed : ∀ site fault, .scanFailed site fault ∈ run.journal.events → error = .lexical fault
  follows : error.Follows run.journal.events

section Asks

variable {template : String} {arrays : Arrays} {recent : List Event} {site : Site} {run : Run}

theorem events_note (run : Run) (event : Event) :
    (run.note event).journal.events = run.journal.events ++ [event] :=
  Journal.events_push ..

theorem Stands.note (h : run.Stands template arrays site) (event : Event)
    (hevent : event.site? = none) : (run.note event).Asks template arrays [event] site where
  answered := by
    rw [Run.note, Array.toList_push]
    exact h.answered.concat fun site hsite => by simp [hevent] at hsite
  unfailed site error := by
    rw [events_note, List.mem_append, List.mem_singleton, not_or]
    refine ⟨h.unfailed site error, ?_⟩
    rintro rfl
    cases hevent
  on := h.on
  suits := h.suits
  arrays := h.arrays
  last := ⟨_, _, Array.toList_push, rfl⟩
  recent := by
    rw [events_note]
    exact List.suffix_append _ _

theorem Asks.forget (h : run.Asks template arrays recent site) :
    run.Asks template arrays [] site :=
  ⟨h.toStands, h.last, List.nil_suffix⟩

theorem Asks.stopped (h : run.Asks template arrays recent site) {error : RenderError}
    (herror : error.Follows run.journal.events) : run.Stopped template error :=
  ⟨h.answered, fun site fault hmem => absurd hmem (h.unfailed site fault), herror⟩

theorem Asks.answered_scanned (h : run.Asks template arrays recent site) :
    Answered template.toList (run.scanned site).journal.toList := by
  obtain ⟨initial, before, hjournal, hposition⟩ := h.last
  rw [scanned, Run.note, Array.toList_push]
  apply h.answered.concat
  intro other hother
  have hsite : other = site := by
    cases hreading : run.cursor.scan.1 <;> simp_all [Event.ofReading, Event.site?]
  subst hsite
  exact ⟨initial, before, run.cursor, run.loops, hjournal, h.on, hposition, h.suits, rfl⟩

theorem events_scanned (run : Run) (site : Site) :
    (run.scanned site).journal.events =
      run.journal.events ++ [.ofReading site run.loops run.cursor.scan.1] := by
  rw [scanned, events_note]

theorem Asks.scanned {mark : Mark} (h : run.Asks template arrays recent site)
    (hscan : run.cursor.scan.1 = .ok mark) :
    (run.scanned site).Asks template arrays
      (recent ++ [.scanned site (mark.1.token run.loops mark.2)]) mark.1.kind.site where
  answered := h.answered_scanned
  unfailed other error := by
    rw [events_scanned, hscan]
    simpa [Event.ofReading] using h.unfailed other error
  on := h.on.scan
  suits := by
    have hsuits := Cursor.scan_of_suits h.suits
    rw [hscan] at hsuits
    exact hsuits.2
  arrays := h.arrays
  last := ⟨_, _, Array.toList_push, rfl⟩
  recent := by
    rw [events_scanned, hscan]
    obtain ⟨old, hold⟩ := h.recent
    exact ⟨old, by rw [← List.append_assoc, hold]; rfl⟩

theorem Asks.stopped_scanned {error : ScanError} (h : run.Asks template arrays recent site)
    (hscan : run.cursor.scan.1 = .error error) :
    (run.scanned site).Stopped template (.lexical error) where
  answered := h.answered_scanned
  failed other fault := by
    rw [events_scanned, hscan]
    simpa [Event.ofReading, h.unfailed other fault] using fun _ => Eq.symm
  follows := by
    have hsite := Cursor.scan_of_suits h.suits
    rw [hscan] at hsite
    rw [events_scanned, hscan, show site = .tag from hsite]
    exact List.suffix_append _ _

end Asks

end Run

/-! ## Steps that ask -/

/-- The text of a token belongs to its kind. -/
def Token.IsFound (token : Token) : Prop :=
  ∃ lexeme number span, token = Lexeme.token lexeme number span

namespace Rendering

section Steps

variable {template : String} {arrays : Arrays} {recent : List Event} {site : Site}

theorem scan_asks (site : Site) :
    (scan site).Fulfils (Run.Asks template arrays recent site)
      (fun token run => (token.kind ∈ site.kinds ∧ token.IsFound) ∧
        run.Asks template arrays (recent ++ [.scanned site token]) token.kind.site)
      (Run.Stopped template) := by
  apply fulfils_scan
  · intro run mark hrun hscan
    have hkind := Cursor.scan_of_suits hrun.suits
    rw [hscan] at hkind
    exact ⟨⟨hkind.1, mark.1, run.loops, mark.2, rfl⟩, hrun.scanned hscan⟩
  · exact fun run error hrun hscan => hrun.stopped_scanned hscan

theorem demand_asks {kind : TokenKind} (hkind : kind ∈ [TokenKind.identifier, .scriptEnd]) :
    (demand kind).Fulfils (Run.Asks template arrays recent .tag)
      (fun token run => token.kind = kind ∧
        run.Asks template arrays (recent ++ [.scanned .tag token]) kind.site)
      (Run.Stopped template) := by
  apply fulfils_demand (scan_asks .tag)
  · rintro token run rfl ⟨-, hrun⟩
    exact ⟨rfl, hrun⟩
  · rintro token run hne ⟨⟨hmem, -⟩, hrun⟩
    exact hrun.stopped ⟨hkind, hmem, hne, (List.suffix_append _ _).trans hrun.recent⟩

theorem close_asks :
    (discard (demand .scriptEnd)).Fulfils (Run.Asks template arrays recent .tag)
      (fun _ => Run.Asks template arrays [] .body) (Run.Stopped template) :=
  ((demand_asks (by decide)).mono (fun _ => id) fun _ _ hrun => hrun.2.forget).discard

theorem write_asks (piece : String) :
    (write piece).Fulfils (Run.Asks template arrays recent site)
      (fun _ => Run.Asks template arrays [] site) (Run.Stopped template) := by
  apply fulfils_write
  · intro run hrun _
    have hadded : Run.Stands template arrays site { run with sink := run.sink.add piece } :=
      ⟨hrun.answered, hrun.unfailed, hrun.on, hrun.suits, hrun.arrays⟩
    exact (hadded.note _ rfl).forget
  · intro run hrun _
    have hnoted := hrun.toStands.note (.refused piece) rfl
    exact hnoted.stopped ⟨piece, hnoted.recent⟩

theorem insertValue_asks (recent : List Event) (name : String) (span : Span) (emit : Bool) :
    (insertValue name emit).Fulfils
      (Run.Asks template arrays (recent ++ [.scanned .tag ⟨.identifier, name, span⟩]) .tag)
      (fun _ => Run.Asks template arrays [] .body) (Run.Stopped template) := by
  apply Fulfils.of_get
  intro run _
  have hvalue : (resolve (run.environment.value name)).Fulfils
      (Run.Asks template arrays (recent ++ [.scanned .tag ⟨.identifier, name, span⟩]) .tag)
      (fun _ => Run.Asks template arrays [] .tag) (Run.Stopped template) := by
    apply fulfils_resolve
    · exact fun _ _ _ hrun => hrun.forget
    · intro error later herror hlater
      obtain ⟨rfl, -⟩ := Environment.value_eq_error_iff.mp herror
      exact hlater.stopped ⟨span, (List.suffix_append _ _).trans hlater.recent⟩
  apply hvalue.bind
  intro value
  cases emit with
  | false => exact close_asks
  | true => exact (write_asks value).bind fun _ => close_asks

end Steps

/-! ## Loops that ask -/

def BodyAsks (template : String) (arrays : Arrays) (blocks : Nat) : Prop :=
  ∀ emit : Bool, (body blocks emit).Fulfils (Run.Asks template arrays [] .body)
    (fun _ => Run.Asks template arrays [] .body) (Run.Stopped template)

section Loops

variable {template : String} {arrays : Arrays} {blocks : Nat} {recent : List Event}

theorem round_asks (hbody : BodyAsks template arrays blocks) {start : Cursor}
    (hon : start.On template.toList) (hsuits : start.position.Suits .body) (item value : String)
    (emit : Bool) :
    (round start item (pass (body blocks) emit) value).Fulfils
      (Run.Asks template arrays [] .body) (fun _ => Run.Asks template arrays [] .body)
      (Run.Stopped template) := by
  intro run hrun
  have hready : Run.Stands template arrays .body
      { run with cursor := start, environment := run.environment.define item value } :=
    ⟨hrun.answered, hrun.unfailed, hon, hsuits, hrun.arrays.define item value⟩
  have hbegun : (run.begun start item value emit).Asks template arrays [] .body :=
    (hready.note _ rfl).forget
  have hended : (note .passEnded).Fulfils (Run.Asks template arrays [] .body)
      (fun _ => Run.Asks template arrays [] .body) (Run.Stopped template) :=
    fulfils_note fun later hlater => (hlater.toStands.note _ rfl).forget
  have hpass := (hbody emit).bind fun _ => hended
  rw [round_eq]
  exact hpass _ hbegun

theorem passes_asks (hbody : BodyAsks template arrays blocks) (item : String)
    (elements : List String) (emit : Bool) :
    (passes (pass (body blocks)) item elements emit).Fulfils
      (Run.Asks template arrays recent .body) (fun _ => Run.Asks template arrays [] .body)
      (Run.Stopped template) := by
  intro run hrun
  have hrounds := round_asks hbody hrun.on hrun.suits item
  have hsilent := hrounds "" false run hrun.forget
  cases emit with
  | false => exact hsilent
  | true =>
      cases elements with
      | nil => exact hsilent
      | cons element elements =>
          exact fulfils_forM (hrounds · true) (element :: elements) run hrun.forget

theorem loop_asks (recent : List Event) (hbody : BodyAsks template arrays blocks)
    (frame : String) (opening : Span) (emit : Bool) :
    (Rendering.loop (pass (body blocks)) frame emit).Fulfils
      (Run.Asks template arrays (recent ++ [.scanned .tag ⟨.loopBegin, frame, opening⟩]) .tag)
      (fun _ => Run.Asks template arrays [] .body) (Run.Stopped template) := by
  unfold Rendering.loop
  apply (demand_asks (by decide)).bind_fact
  rintro ⟨kind, array, span⟩ rfl
  apply Fulfils.of_get
  intro run hrun
  unfold Environment.hasArray
  rw [hrun.arrays.array?]
  cases hfound : arrays.find? array with
  | none =>
      refine fulfils_throw fun later hlater => hlater.stopped ⟨frame, opening, span, ?_⟩
      have hrecent := hlater.recent
      rw [List.append_assoc] at hrecent
      exact (List.suffix_append _ _).trans hrecent
  | some elements =>
      apply (demand_asks (by decide)).bind
      intro item
      apply (close_asks.mono (fun _ h => h.2) fun _ _ => id).bind
      intro _ third hthird
      have hresolved : (third.environment.enter frame).array array = .ok elements := by
        simp [Environment.array, Environment.array?_enter, hthird.arrays.array?, hfound]
      simp only [bind_modify, bind_get, hresolved]
      rw [bind_ok (resolve_ok elements)]
      have hentered : Run.Stands template arrays .body
          { third with environment := third.environment.enter frame } :=
        ⟨hthird.answered, hthird.unfailed, hthird.on, hthird.suits, hthird.arrays.enter frame⟩
      have hclose : (close frame).Fulfils (Run.Asks template arrays [] .body)
          (fun _ => Run.Asks template arrays [] .body) (Run.Stopped template) := by
        intro run hrun
        have hleft : Run.Stands template arrays .body
            { run with environment := run.environment.leave.2 } :=
          ⟨hrun.answered, hrun.unfailed, hrun.on, hrun.suits, hrun.arrays.leave⟩
        exact (hleft.note _ rfl).forget
      have hstarted := hentered.note (.loopStarted frame array item.text elements.length
        (third.environment.enter frame).depth emit) rfl
      exact ((passes_asks hbody item.text elements emit).bind fun _ => hclose) _ hstarted

end Loops

/-! ## Bodies that ask -/

theorem tag_asks {template : String} {arrays : Arrays} {blocks : Nat}
    (hbody : BodyAsks template arrays blocks) (opening : Span) (emit : Bool) {token : Token}
    (hmem : token.kind ∈ Site.tag.kinds) (hfound : token.IsFound) :
    (tag (body blocks) emit token).Fulfils
      (Run.Asks template arrays [.scanned .body ⟨.scriptBegin, "\x7b\x7b", opening⟩,
        .scanned .tag token] token.kind.site)
      (fun _ => Run.Asks template arrays [] .body) (Run.Stopped template) := by
  obtain ⟨lexeme, number, span, rfl⟩ := hfound
  cases lexeme with
  | endOfInput | literal | scriptBegin => simp [Site.kinds, Lexeme.token, Lexeme.kind] at hmem
  | identifier name =>
      exact (insertValue_asks [.scanned .body _] name span emit).bind fun _ => hbody emit
  | loopBegin =>
      exact (loop_asks [.scanned .body _] hbody _ span emit).bind fun _ => hbody emit
  | loopEnd =>
      apply Fulfils.of_get
      intro run _
      cases run.environment.atRoot with
      | true =>
          refine fulfils_throw fun later hlater => hlater.stopped ?_
          exact (List.suffix_append [_] _).trans hlater.recent
      | false => exact close_asks
  | scriptEnd =>
      exact fulfils_throw fun later hlater => hlater.stopped ⟨rfl, rfl, opening, hlater.recent⟩

theorem body_asks (template : String) (arrays : Arrays) (blocks : Nat) :
    BodyAsks template arrays blocks := by
  induction blocks with
  | zero => exact fun _ => fulfils_pure fun _ hrun => hrun
  | succ blocks ih =>
      intro emit
      apply (scan_asks .body).bind_fact
      rintro _ ⟨hmem, lexeme, number, span, rfl⟩
      cases lexeme with
      | endOfInput => exact fulfils_pure fun _ hrun => hrun.forget
      | literal text =>
          cases emit with
          | false => exact (ih false).mono (fun _ hrun => hrun.forget) fun _ _ => id
          | true => exact (write_asks text).bind fun _ => ih true
      | scriptBegin =>
          apply (scan_asks .tag).bind_fact
          exact fun token htoken => tag_asks ih span emit htoken.1 htoken.2
      | identifier | loopBegin | loopEnd | scriptEnd =>
          simp [Site.kinds, Lexeme.token, Lexeme.kind] at hmem

theorem template_asks {template : String} {arrays : Arrays} {run : Run}
    (hcursor : run.cursor = .ofTemplate template) (hjournal : run.journal = #[])
    (harrays : run.environment.ArraysAtRoot arrays) :
    match renderTemplate template run with
    | .ok _ last => last.Stands template arrays .body
    | .error error last => last.Stopped template error := by
  have hanswered : Answered template.toList run.journal.toList := by
    rw [hjournal]
    exact throughout_nil
  have hsuits : run.cursor.position.Suits .body := .inl (by rw [hcursor]; exact ⟨rfl, rfl⟩)
  have hbegins : run.Stands template arrays .body :=
    ⟨hanswered, by simp [hjournal, Journal.events], hcursor ▸ .ofTemplate template, hsuits,
      harrays⟩
  have hnoted := hbegins.note (.renderStarted template.utf8ByteSize) rfl
  have hstarted := hnoted.toStands.note (.passStarted true) rfl
  have hbody := body_asks template arrays (template.length + 1) true
    (run.started template.utf8ByteSize) hstarted.forget
  rw [renderTemplate_eq]
  cases hresult : body (template.length + 1) true (run.started template.utf8ByteSize) with
  | ok value later =>
      rw [hresult] at hbody
      exact ((hbody.toStands.note .passEnded rfl).toStands.note _ rfl).toStands
  | error error later =>
      rw [hresult] at hbody
      exact hbody

end Rendering

/-! ## What a loop closes -/

/-- The frame of the name lies on those of the outer environment. -/
def Environment.Covers (environment : Environment) (id : String) (outer : Environment) : Prop :=
  ∃ inner frame, environment.loops = inner ++ frame :: outer.loops ∧
    environment.root = outer.root ∧ frame.id = id ∧ frame.parent = some outer.depth

/-- The frame has been opened on those of the outer environment, and stayed there. -/
def Opened (moments : List Moment) (id : String) (outer : Environment) : Prop :=
  ∃ earlier start later array item count emit, moments = earlier ++ start :: later ∧
    start.event = .loopStarted id array item count (outer.depth + 1) emit ∧
    start.environment = outer.enter id ∧ ∀ moment ∈ later, moment.environment.Covers id outer

/-- Every loop's frame is one that has been opened, and knows the frames that it lies on. -/
def AllOpened (moments : List Moment) (environment : Environment) : Prop :=
  ∀ inner frame outer, environment.loops = inner ++ frame :: outer →
    Opened moments frame.id ⟨outer, environment.root⟩ ∧ frame.parent = some outer.length

/-- The moment closes the frame of the name, and leaves what there was before it was opened. -/
def Moment.Closes (earlier : List Moment) (id : String) (moment : Moment) : Prop :=
  Opened earlier id moment.environment ∧
    ∃ initial before closed, earlier = initial ++ [before] ∧
      before.environment.leave = (some closed, moment.environment) ∧ closed.id = id ∧
      closed.parent = some moment.environment.depth

section Opened

variable {moments : List Moment} {environment outer : Environment} {id : String}

theorem Opened.concat (h : Opened moments id outer) {moment : Moment}
    (hmoment : moment.environment.Covers id outer) : Opened (moments ++ [moment]) id outer := by
  obtain ⟨earlier, start, later, array, item, count, emit, rfl, hevent, hstart, hlater⟩ := h
  refine ⟨earlier, start, later ++ [moment], array, item, count, emit, by simp, hevent, hstart, ?_⟩
  intro other hother
  rcases List.mem_append.mp hother with hother | hother
  · exact hlater other hother
  · rwa [List.mem_singleton.mp hother]

theorem AllOpened.concat (h : AllOpened moments environment) {moment : Moment}
    (hmoment : moment.environment = environment) : AllOpened (moments ++ [moment]) environment := by
  intro inner frame outer hloops
  obtain ⟨hopened, hparent⟩ := h inner frame outer hloops
  exact ⟨hopened.concat ⟨inner, frame, hmoment ▸ hloops, by rw [hmoment], rfl, hparent⟩, hparent⟩

theorem AllOpened.define (h : AllOpened moments environment) (name value : String) :
    AllOpened moments (environment.define name value) := by
  rcases environment with ⟨_ | ⟨top, rest⟩, root⟩
  · exact fun inner frame outer hloops => absurd hloops (by simp [Environment.define])
  · intro inner frame outer hloops
    rcases inner with _ | ⟨_, inner⟩
    · obtain ⟨rfl, rfl⟩ := List.cons.inj hloops
      exact h [] top rest rfl
    · exact h (top :: inner) frame outer (congrArg (top :: ·) (List.cons.inj hloops).2)

theorem AllOpened.leave (h : AllOpened moments environment) :
    AllOpened moments environment.leave.2 := by
  rcases environment with ⟨_ | ⟨top, rest⟩, root⟩
  · exact h
  · exact fun inner frame outer hloops =>
      h (top :: inner) frame outer (congrArg (top :: ·) hloops)

theorem AllOpened.enter (h : AllOpened moments environment) {moment : Moment}
    {array item : String} {count : Nat} {emit : Bool}
    (hevent : moment.event =
      .loopStarted id array item count (environment.enter id).depth emit)
    (hmoment : moment.environment = environment.enter id) :
    AllOpened (moments ++ [moment]) (environment.enter id) := by
  intro inner frame outer hloops
  rcases inner with _ | ⟨_, inner⟩
  · obtain ⟨rfl, rfl⟩ := List.cons.inj hloops
    exact ⟨⟨moments, moment, [], array, item, count, emit, rfl, hevent, hmoment, by simp⟩, rfl⟩
  · obtain ⟨hopened, hparent⟩ := h inner frame outer (List.cons.inj hloops).2
    exact ⟨hopened.concat ⟨_, frame, hmoment ▸ hloops, by rw [hmoment]; rfl, rfl, hparent⟩, hparent⟩

end Opened

/-- The frames of a rendering under way have all been opened, and closed as they were opened. -/
structure Situation.Framed (situation : Situation) : Prop where
  opened : AllOpened situation.run.journal.toList situation.run.environment
  last : ∀ initial before, situation.run.journal.toList = initial ++ [before] →
    before.environment = situation.run.environment
  depth : situation.run.environment.depth = situation.loops.length
  closed : Throughout
    (fun earlier moment => ∀ id depth, moment.event = .loopEnded id depth →
      depth = moment.environment.depth ∧ ∃ frame, moment.Closes earlier frame)
    situation.run.journal.toList

namespace Situation

variable {run : Run} {loops : List OpenLoop}

theorem Framed.push {situation : Situation} (h : situation.Framed) {later : Run} {moment : Moment}
    (hjournal : later.journal = situation.run.journal.push moment)
    (hmoment : moment.environment = later.environment)
    (hopened : AllOpened (situation.run.journal.toList ++ [moment]) later.environment)
    (hdepth : later.environment.depth = loops.length)
    (hclosed : ∀ id depth, moment.event = .loopEnded id depth →
      depth = moment.environment.depth ∧
        ∃ frame, moment.Closes situation.run.journal.toList frame) :
    Framed ⟨later, loops⟩ where
  opened := by
    rw [hjournal, Array.toList_push]
    exact hopened
  last initial before hsplit := by
    rw [hjournal, Array.toList_push] at hsplit
    obtain ⟨-, hbefore⟩ := List.append_inj' hsplit rfl
    obtain rfl : moment = before := by simpa using hbefore
    exact hmoment
  depth := hdepth
  closed := by
    rw [hjournal, Array.toList_push]
    exact h.closed.concat hclosed

theorem Framed.note (h : Framed ⟨run, loops⟩) (event : Event)
    (hevent : ∀ id depth, event ≠ .loopEnded id depth) : Framed ⟨run.note event, loops⟩ :=
  h.push rfl rfl (h.opened.concat rfl) h.depth fun id depth heq => absurd heq (hevent id depth)

theorem Framed.left {loop : OpenLoop} (h : Framed ⟨run, loop :: loops⟩) (frame : String) :
    Framed ⟨run.left frame, loops⟩ := by
  obtain ⟨top, rest, hloops⟩ := List.exists_cons_of_length_eq_add_one h.depth
  have hleave : run.environment.leave = (some top, ⟨rest, run.environment.root⟩) := by
    unfold Environment.leave
    rw [hloops]
  obtain ⟨hopened, hparent⟩ := h.opened [] top rest hloops
  have hdepth : run.environment.leave.2.depth = loops.length := by
    have hwhole := h.depth
    rw [Environment.depth, hloops] at hwhole
    rw [hleave]
    exact Nat.succ.inj hwhole
  refine h.push rfl rfl (h.opened.leave.concat rfl) hdepth ?_
  rintro id depth heq
  obtain ⟨rfl, rfl⟩ := Event.loopEnded.inj heq
  refine ⟨rfl, top.id, ?_, ?_⟩
  · rw [hleave]
    exact hopened
  · obtain ⟨earlier, start, later, array, item, count, emit, hjournal, -⟩ := hopened
    have hne : run.journal.toList ≠ [] := by
      rw [hjournal]
      simp
    obtain ⟨initial, before, hlast⟩ := (List.eq_nil_or_concat' _).resolve_left hne
    refine ⟨initial, before, top, hlast, ?_, rfl, ?_⟩
    · rw [h.last initial before hlast, hleave]
    · rw [hleave]
      exact hparent

theorem Framed.next {situation next : Situation} (hstep : situation.Step next)
    (h : situation.Framed) : next.Framed := by
  cases hstep with
  | start run bytes =>
      exact (h.note (.renderStarted bytes) nofun).note _ nofun
  | @move run later hmove loops =>
      cases hmove with
      | scan site =>
          refine h.push rfl rfl (h.opened.concat rfl) h.depth fun id depth heq => ?_
          cases hreading : run.cursor.scan.1 <;> simp [hreading, Event.ofReading] at heq
      | write piece => exact h.push rfl rfl (h.opened.concat rfl) h.depth nofun
      | refuse piece => exact h.note _ nofun
  | enter run frame array item elements emit helements loops =>
      exact h.push rfl rfl (h.opened.enter rfl rfl) (congrArg (· + 1) h.depth) nofun
  | begin run start passes item value emit loops =>
      refine h.push rfl rfl ((h.opened.define item value).concat rfl) ?_ nofun
      exact (Environment.depth_define _ item value).trans h.depth
  | passEnded run loops => exact h.note _ nofun
  | leave run frame loop loops => exact h.left frame
  | finish run offset => exact h.note _ nofun

end Situation

theorem Environment.ids_of_leave {environment outer : Environment} {closed : Frame}
    (h : environment.leave = (some closed, outer)) : environment.ids = closed.id :: outer.ids := by
  rcases environment with ⟨_ | ⟨top, rest⟩, root⟩
  · simp [Environment.leave] at h
  · obtain ⟨htop, rfl⟩ := Prod.mk.inj h
    obtain rfl := Option.some.inj htop
    rfl

/-- Every loop closes the frame of its own name. -/
theorem render_closes (values : Values) (arrays : Arrays) (template : String) (sink : Sink) :
    Throughout (fun earlier moment => ∀ id depth, moment.event = .loopEnded id depth →
      depth = moment.environment.depth ∧ moment.Closes earlier id)
      (render values arrays template sink).journal.toList := by
  obtain ⟨last, loops, hwalk, -, hjournal, -⟩ :=
    (Session.ofBindings values arrays).render_walks template sink
  have hbegins : Situation.Framed ⟨(Session.ofBindings values arrays).start template sink, []⟩ :=
    ⟨fun inner frame outer h => by simp [Session.start, Environment.reset] at h,
      fun initial before h => by simp [Session.start] at h, rfl, throughout_nil⟩
  have hframed := hwalk.keeps (fun _ _ => Situation.Framed.next) hbegins
  have hplace := render_inPlace values arrays template sink
  intro earlier moment later hsplit id depth hevent
  have hlast : last.journal.toList = earlier ++ moment :: later := by
    rw [← hjournal]
    exact hsplit
  obtain ⟨hdepth, frame, hcloses⟩ := hframed.closed earlier moment later hlast id depth hevent
  refine ⟨hdepth, ?_⟩
  obtain ⟨initial, before, closed, rfl, hleave, rfl, -⟩ := hcloses.2
  -- The names of the frames are those of the loops under way, of which the last one ends.
  have hfits := (hplace _ moment later hsplit).event
  rw [hevent] at hfits
  obtain ⟨loop, outer, hloops, rfl, -⟩ := hfits
  have hids := (hplace initial before (moment :: later) (by simpa using hsplit)).ids
  rw [Environment.ids_of_leave hleave, hloops, List.map_cons, List.cons_append] at hids
  obtain ⟨hid, -⟩ := List.cons.inj hids
  exact hid ▸ hcloses

/-! ## Renderings -/

/-- How a site asks in a rendering with the given result, and what it is given. -/
structure Moment.Sited (template : String) (result : Except RenderError Unit)
    (earlier : List Moment) (site : Site) (moment : Moment) : Prop where
  asked : ∃ initial before ahead, earlier = initial ++ [before] ∧ before.position.Suits site ∧
    charsAfter before.position.place.offset template.toList = some ahead ∧
      (site = .tag → (ahead.all TagItem.isBlank ↔
        ∃ span, moment.event = .scanFailed site ⟨.unterminatedTag, span⟩))
  given : ∀ token, moment.event = .scanned site token → token.kind ∈ site.kinds
  failed : ∀ error, moment.event = .scanFailed site error →
    site = .tag ∧ result = .error (.lexical error)

theorem Moment.Answers.sited {template : String} {result : Except RenderError Unit}
    {earlier : List Moment} {site : Site} {moment : Moment}
    (h : moment.Answers template.toList earlier site)
    (hfailed : ∀ error, moment.event = .scanFailed site error →
      result = .error (.lexical error)) : moment.Sited template result earlier site := by
  obtain ⟨initial, before, cursor, number, rfl, hon, hposition, hsuits, hevent⟩ := h
  have hscan := Cursor.scan_of_suits hsuits
  refine ⟨⟨initial, before, cursor.ahead, rfl, hposition ▸ hsuits, hposition ▸ hon.charsAfter_eq,
    ?_⟩, fun token htoken => ?_, fun error herror => ⟨?_, hfailed error herror⟩⟩
  · rintro rfl
    rw [← Cursor.scan_eq_unterminated_iff hsuits, hevent]
    cases cursor.scan.1 <;> simp [Event.ofReading]
  · rw [hevent] at htoken
    cases hreading : cursor.scan.1 <;> rw [hreading] at htoken hscan <;> cases htoken
    exact hscan.1
  · rw [hevent] at herror
    cases hreading : cursor.scan.1 <;> rw [hreading] at herror hscan <;> cases herror
    exact hscan

theorem render_asks (values : Values) (arrays : Arrays) (template : String) (sink : Sink) :
    let outcome := render values arrays template sink
    Answered template.toList outcome.journal.toList ∧
      (∀ site fault, .scanFailed site fault ∈ outcome.journal.events →
        outcome.result = .error (.lexical fault)) ∧
      ∀ error, outcome.result = .error error → error.Follows outcome.journal.events := by
  let start := (Session.ofBindings values arrays).start template sink
  have hcursor : start.cursor = .ofTemplate template := rfl
  have hasks := Rendering.template_asks hcursor rfl (.ofBindings values arrays)
  rw [Rendering.render_eq_outcomeOf]
  cases hresult : Rendering.renderTemplate template
      ((Session.ofBindings values arrays).start template sink) with
  | ok value last =>
      rw [hresult] at hasks
      exact ⟨hasks.answered, fun site fault hmem => absurd hmem (hasks.unfailed site fault), nofun⟩
  | error error last =>
      rw [hresult] at hasks
      refine ⟨hasks.answered, fun site fault hmem => ?_, ?_⟩
      · exact congrArg Except.error (hasks.failed site fault hmem)
      · rintro _ ⟨⟩
        exact hasks.follows

/--
Whatever asks for a token stands where it can only be given tokens of few
kinds, and nothing but a tag meets a fault of scanning.  So few errors are
possible, and each of them tells what was scanned last.  A loop closes the
frame that it has opened.
-/
theorem renderings_ask_in_place (values : Values) (arrays : Arrays) (template : String)
    (sink : Sink) :
    let outcome := render values arrays template sink
    (∀ earlier moment later, outcome.journal.toList = earlier ++ moment :: later →
      (∀ site, moment.event.site? = some site →
        moment.Sited template outcome.result earlier site) ∧
      ∀ id depth, moment.event = .loopEnded id depth →
        depth = moment.environment.depth ∧ moment.Closes earlier id) ∧
      ∀ error, outcome.result = .error error → error.Follows outcome.journal.events := by
  intro outcome
  obtain ⟨hanswered, hfailed, hfollows⟩ := render_asks values arrays template sink
  refine ⟨fun earlier moment later hsplit => ⟨fun site hsite => ?_, ?_⟩, hfollows⟩
  · apply (hanswered earlier moment later hsplit site hsite).sited
    intro error herror
    apply hfailed site error
    rw [← herror, Journal.events, hsplit]
    exact List.mem_map_of_mem (by simp)
  · exact render_closes values arrays template sink earlier moment later hsplit

end Stencil
