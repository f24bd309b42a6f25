import Stencil.Proofs.Refusals

/-!
# Contents

What a name stands for never decides how a rendering goes.  Two renderings of
one template, against bindings that differ in nothing but the contents of
values and of the elements of arrays, take the same steps and come to the same
end, and each piece that they write has the same origin in both.
-/

namespace Stencil

/-! ## Contents apart -/

/-- Texts of which nothing is known. -/
def Unrelated : String → String → Prop := fun _ _ => True

structure Frame.Alike (first second : Frame) : Prop where
  value (name : String) :
    Option.Rel Unrelated (first.values.find? name) (second.values.find? name)
  array (name : String) :
    Option.Rel (List.Forall₂ Unrelated) (first.arrays.find? name) (second.arrays.find? name)

/-- The same names are bound in frame after frame, and their arrays are of the same lengths. -/
structure Environment.Alike (first second : Environment) : Prop where
  loops : List.Forall₂ Frame.Alike first.loops second.loops
  root : first.root.Alike second.root

/-- Both bindings have the same names, and arrays of the same lengths. -/
structure SameShape (values values' : Values) (arrays arrays' : Arrays) : Prop where
  value (name : String) : values.contains name = values'.contains name
  array (name : String) :
    (arrays.find? name).map List.length = (arrays'.find? name).map List.length

theorem forall₂_unrelated {first second : List String} (h : first.length = second.length) :
    List.Forall₂ Unrelated first second :=
  List.forall₂_iff_get.mpr ⟨h, fun _ _ _ => trivial⟩

namespace Environment

variable {values values' : Values} {arrays arrays' : Arrays} {first second : Environment}

theorem alike_ofBindings (h : SameShape values values' arrays arrays') :
    (ofBindings values arrays).Alike (ofBindings values' arrays') where
  loops := .nil
  root := by
    refine ⟨fun name => ?_, fun name => ?_⟩
    · have hvalue := h.value name
      unfold Bindings.contains at hvalue
      unfold ofBindings
      generalize values.find? name = value, values'.find? name = value' at hvalue
      cases value <;> cases value' <;> first | constructor | cases hvalue
      trivial
    · have harray := h.array name
      unfold ofBindings
      generalize arrays.find? name = array, arrays'.find? name = array' at harray
      cases array <;> cases array' <;> first | constructor | cases harray
      exact forall₂_unrelated (Option.some.inj harray)

theorem Alike.frames (h : first.Alike second) :
    List.Forall₂ Frame.Alike first.frames second.frames :=
  List.rel_append h.loops (.cons h.root .nil)

private theorem findSome?_alike {α β : Type} {related : α → β → Prop}
    {find : Frame → Option α} {find' : Frame → Option β} {frames frames' : List Frame}
    (h : List.Forall₂ Frame.Alike frames frames')
    (hfind : ∀ frame frame' : Frame, frame.Alike frame' →
      Option.Rel related (find frame) (find' frame')) :
    Option.Rel related (frames.findSome? find) (frames'.findSome? find') := by
  induction h with
  | nil => exact .none
  | @cons frame frame' frames frames' hframe _ ih =>
      have hhead := hfind frame frame' hframe
      rw [List.findSome?_cons, List.findSome?_cons]
      generalize find frame = found, find' frame' = found' at hhead
      cases hhead with
      | none => exact ih
      | some hfound => exact .some hfound

theorem Pairing.alike : Pairing Unrelated Alike where
  refl _ := trivial
  value h name := findSome?_alike h.frames fun _ _ hframe => hframe.value name
  array h name := findSome?_alike h.frames fun _ _ hframe => hframe.array name
  depth h := h.loops.length_eq
  enter h id := ⟨.cons ⟨fun _ => .none, fun _ => .none⟩ h.loops, h.root⟩
  leave {first second} h := by
    obtain ⟨hloops, hroot⟩ := h
    obtain ⟨loops, root⟩ := first
    obtain ⟨loops', root'⟩ := second
    cases hloops with
    | nil => exact ⟨.nil, hroot⟩
    | cons _ houter => exact ⟨houter, hroot⟩
  define {first second} h name value value' _ := by
    have hput {frame frame' : Frame} (hframe : frame.Alike frame') :
        Frame.Alike { frame with values := frame.values.put name value }
          { frame' with values := frame'.values.put name value' } := by
      refine ⟨fun other => ?_, hframe.array⟩
      simp only [Bindings.find?_put]
      split
      · exact .some trivial
      · exact hframe.value other
    obtain ⟨hloops, hroot⟩ := h
    obtain ⟨loops, root⟩ := first
    obtain ⟨loops', root'⟩ := second
    cases hloops with
    | nil => exact ⟨.nil, hput hroot⟩
    | cons hinner houter => exact ⟨.cons (hput hinner) houter, hroot⟩

end Environment

/-! ## Renderings alike -/

section Alike

variable {link : String → String → Prop} {alike : Environment → Environment → Prop}

theorem Event.Pair.record?_eq {first second : Event} (h : Event.Pair link first second) :
    first.record? = second.record? := by
  cases h <;> rfl

theorem Journal.records_eq {first second : Journal}
    (h : List.Forall₂ (Moment.Pair link alike) first.toList second.toList) (level : Level) :
    first.records level = second.records level := by
  have hrecords : first.toList.filterMap (·.event.record?) =
      second.toList.filterMap (·.event.record?) := by
    generalize first.toList = moments, second.toList = moments' at h
    induction h with
    | nil => rfl
    | cons hmoment _ ih =>
        rw [List.filterMap_cons, List.filterMap_cons, hmoment.event.record?_eq, ih]
  unfold Journal.records Journal.events
  rw [List.filterMap_map, List.filterMap_map]
  exact congrArg _ hrecords

theorem Rendering.Agree.outcome {result result' : EStateM.Result RenderError Run Unit}
    (h : Agree link alike Eq result result') (level : Level) :
    (outcomeOf result).journal.records level = (outcomeOf result').journal.records level ∧
      (outcomeOf result).result = (outcomeOf result').result := by
  cases h with
  | ok _ hpair => exact ⟨Journal.records_eq hpair.journal level, rfl⟩
  | error error hpair => exact ⟨Journal.records_eq hpair.journal level, rfl⟩

end Alike

theorem render_alike {values values' : Values} {arrays arrays' : Arrays}
    (h : SameShape values values' arrays arrays') (template before before' : String)
    (level : Level) :
    let first := render values arrays template (.unlimited before)
    let second := render values' arrays' template (.unlimited before')
    first.journal.records level = second.journal.records level ∧
      first.result = second.result := by
  let first := (Session.ofBindings values arrays).start template (.unlimited before)
  let second := (Session.ofBindings values' arrays').start template (.unlimited before')
  have hstart : first.Pair Unrelated Environment.Alike second :=
    ⟨rfl, rfl, Environment.alike_ofBindings h, rfl, .nil, .nil⟩
  have hfree : second.Tallied none := ⟨rfl, rfl, rfl, fun _ => rfl⟩
  have htallied := Rendering.template_tallied template hfree
  have hpairs := Rendering.template_pairs .alike hstart template
  rw [Rendering.render_eq_outcomeOf, Rendering.render_eq_outcomeOf]
  exact Rendering.Agree.outcome (Rendering.Pairs.agree_of_free hpairs htallied.capacity) level

/-! ## Origins -/

/-- Where a piece comes from. -/
inductive Origin where
  | literal (text : String)
  | value (name : String)
  | element (array : String) (index : Nat)
  deriving DecidableEq, Repr

def Origin.text? (values : Values) (arrays : Arrays) : Origin → Option String
  | .literal text => some text
  | .value name => values.find? name
  | .element array index => (arrays.find? array).bind (·[index]?)

/-- The names that are bound and the sizes of arrays, and none of their contents. -/
structure Shape extends Names where
  size : String → Nat

def Shape.ofBindings (values : Values) (arrays : Arrays) : Shape :=
  ⟨.ofBindings values arrays, fun name => ((arrays.find? name).getD []).length⟩

/-- The origin of what stands for a name inside loops whose items have the given origins. -/
def Shape.originIn (shape : Shape) (scope : List (String × Origin)) (name : String) :
    Option Origin :=
  (scope.lookup name).or (if shape.value name then some (.value name) else none)

/-- The indices of the passes over a body, as in `passes`. -/
def Ending.indices : Ending → Nat → List Nat
  | .input, count | .loop, count => List.range count
  | .fault, count => (List.range count).take 1

/-- The origins of what a body writes, in order. -/
def Body.origins (shape : Shape) {ending : Ending} :
    List (String × Origin) → Body ending → List Origin
  | _, .endOfInput | _, .loopEnd | _, .broken _ => []
  | scope, .brokenValue name _ => (shape.originIn scope name).toList
  | scope, .literal text rest => .literal text :: rest.origins shape scope
  | scope, .value name rest =>
      (shape.originIn scope name).toList ++ rest.origins shape scope
  | scope, .loop array item inside rest =>
      ((List.range (shape.size array)).flatMap fun index =>
        inside.origins shape ((item, .element array index) :: scope)) ++
        rest.origins shape scope
  | scope, .openLoop array item inside _ =>
      (ending.indices (shape.size array)).flatMap fun index =>
        inside.origins shape ((item, .element array index) :: scope)

theorem SameShape.shape_eq {values values' : Values} {arrays arrays' : Arrays}
    (h : SameShape values values' arrays arrays') :
    Shape.ofBindings values arrays = Shape.ofBindings values' arrays' := by
  have hvalues : values.contains = values'.contains := funext h.value
  have harrays : arrays.contains = arrays'.contains := by
    funext name
    simpa [Bindings.contains] using congrArg Option.isSome (h.array name)
  have hsizes : (fun name => ((arrays.find? name).getD []).length) =
      fun name => ((arrays'.find? name).getD []).length := by
    funext name
    have harray := h.array name
    cases hfirst : arrays.find? name <;> cases hsecond : arrays'.find? name <;>
      simp_all
  unfold Shape.ofBindings Names.ofBindings
  rw [hvalues, harrays, hsizes]

/-- The piece is what its origin stands for. -/
def Origin.Gives (values : Values) (arrays : Arrays) (piece : String) (origin : Origin) : Prop :=
  origin.text? values arrays = some piece

section Origins

variable {values : Values} {arrays : Arrays} {texts : List (String × String)}
  {scope : List (String × Origin)}

def Origin.GivesItems (values : Values) (arrays : Arrays) (texts : List (String × String))
    (scope : List (String × Origin)) : Prop :=
  List.Forall₂ (fun item origin => item.1 = origin.1 ∧ origin.2.Gives values arrays item.2)
    texts scope

theorem originIn_gives (h : Origin.GivesItems values arrays texts scope) (name : String) :
    List.Forall₂ (Origin.Gives values arrays) (valueIn values texts name).toList
      ((Shape.ofBindings values arrays).originIn scope name).toList := by
  induction h with
  | nil =>
      simp only [valueIn, Shape.originIn, List.lookup_nil, Option.none_or]
      by_cases hbound : (Shape.ofBindings values arrays).value name
      · obtain ⟨value, hvalue⟩ := Option.isSome_iff_exists.mp hbound
        rw [if_pos hbound, hvalue]
        exact .cons hvalue .nil
      · have hvalue : values.find? name = none :=
          Option.not_isSome_iff_eq_none.mp hbound
        rw [if_neg hbound, hvalue]
        exact .nil
  | @cons item origin texts scope hitem _ ih =>
      obtain ⟨other, text⟩ := item
      obtain ⟨_, origin⟩ := origin
      obtain ⟨rfl, hgives⟩ := hitem
      simp only [valueIn, Shape.originIn, List.lookup_cons] at ih ⊢
      cases name == other with
      | true => exact .cons hgives .nil
      | false => exact ih

theorem range_gives (values : Values) {array : String} {elements : List String}
    (h : arrays.find? array = some elements) :
    List.Forall₂ (fun element index => (Origin.element array index).Gives values arrays element)
      elements (List.range elements.length) := by
  refine List.forall₂_iff_get.mpr ⟨List.length_range.symm, fun index hindex _ => ?_⟩
  simp [Origin.Gives, Origin.text?, h]

theorem passes_give (ending : Ending) (array : String) :
    List.Forall₂ (fun element index => (Origin.element array index).Gives values arrays element)
      (ending.passes ((arrays.find? array).getD []))
      (ending.indices ((Shape.ofBindings values arrays).size array)) := by
  have hsize : (Shape.ofBindings values arrays).size array =
      ((arrays.find? array).getD []).length := rfl
  rw [hsize]
  cases harray : arrays.find? array with
  | none => cases ending <;> exact .nil
  | some elements =>
      have hrange := range_gives values harray
      cases ending with
      | input | loop => exact hrange
      | fault => exact List.forall₂_take 1 hrange

theorem Body.origins_give {ending : Ending} (body : Body ending)
    (h : Origin.GivesItems values arrays texts scope) :
    List.Forall₂ (Origin.Gives values arrays) (body.evaluate values arrays texts)
      (body.origins (.ofBindings values arrays) scope) := by
  have hpasses {ending : Ending} {array item : String} {inside : Body ending}
      (passes : Ending) {texts : List (String × String)} {scope : List (String × Origin)}
      (h : Origin.GivesItems values arrays texts scope)
      (ih : ∀ {texts scope}, Origin.GivesItems values arrays texts scope →
        List.Forall₂ (Origin.Gives values arrays) (inside.evaluate values arrays texts)
          (inside.origins (.ofBindings values arrays) scope)) :
      List.Forall₂ (Origin.Gives values arrays)
        ((passes.passes ((arrays.find? array).getD [])).flatMap fun element =>
          inside.evaluate values arrays ((item, element) :: texts))
        ((passes.indices ((Shape.ofBindings values arrays).size array)).flatMap fun index =>
          inside.origins (.ofBindings values arrays) ((item, .element array index) :: scope)) :=
    List.rel_flatMap (passes_give passes array) fun _ _ hgives => ih (.cons ⟨rfl, hgives⟩ h)
  induction body generalizing texts scope with
  | endOfInput | loopEnd | broken => exact .nil
  | brokenValue name => exact originIn_gives h name
  | literal text rest ih => exact .cons rfl (ih h)
  | value name rest ih => exact List.rel_append (originIn_gives h name) (ih h)
  | loop array item inside rest ihInside ihRest =>
      exact List.rel_append (hpasses .loop h ihInside) (ihRest h)
  | @openLoop ending array item inside _ ih => exact hpasses ending h ih

end Origins

/-! ## Literals -/

namespace Cursor

theorem mem_readings_of_scan {cursor next : Cursor} {reading : Reading}
    (hscan : cursor.scan = (reading, next)) : reading ∈ cursor.readings := by
  apply List.mem_of_mem_head?
  rw [head?_readings, hscan]
  rfl

theorem Reaches.readings_subset {cursor next : Cursor} (h : cursor.Reaches next) :
    next.readings ⊆ cursor.readings := by
  induction h with
  | refl => exact List.Subset.refl _
  | @tail middle _ _ hscan ih =>
      refine List.Subset.trans ?_ ih
      rw [← hscan]
      cases hlast : Reading.isLast middle.scan.1 with
      | true => rw [readings_scan_of_isLast hlast]; exact List.Subset.refl _
      | false =>
          rw [readings_of_not_isLast hlast]
          exact List.subset_cons_self _ _

end Cursor

/-- None of the items is a text of the template. -/
def Origin.AreItems (scope : List (String × Origin)) : Prop :=
  ∀ entry ∈ scope, ∀ text, entry.2 ≠ .literal text

theorem Shape.originIn_ne_literal {shape : Shape} {scope : List (String × Origin)}
    (hscope : Origin.AreItems scope) (name text : String) :
    Origin.literal text ∉ (shape.originIn scope name).toList := by
  rw [Option.mem_toList, Shape.originIn]
  intro horigin
  rcases Option.or_eq_some_iff.mp horigin with hitem | ⟨-, hvalue⟩
  · obtain ⟨before, after, rfl, -⟩ := List.lookup_eq_some_iff.mp hitem
    exact hscope (name, .literal text) (by simp) text rfl
  · split at hvalue <;> cases hvalue

/-- Only what the template has as text is written as text. -/
theorem Body.ReadsAs.literal_mem {names : Names} {shape : Shape} {ending : Ending}
    {items : List String} {cursor after : Cursor} {outline : Body ending}
    (hreads : outline.ReadsAs names items cursor after) {scope : List (String × Origin)}
    (hscope : Origin.AreItems scope) {text : String}
    (h : .literal text ∈ outline.origins shape scope) :
    ∃ span, .ok (.literal text, span) ∈ cursor.readings := by
  have hinner {array item : String} {index : Nat} {scope : List (String × Origin)}
      (hscope : Origin.AreItems scope) :
      Origin.AreItems ((item, .element array index) :: scope) := by
    simpa [Origin.AreItems] using hscope
  induction hreads generalizing scope with
  | endOfInput | loopEnd | broken => cases h
  | brokenValue => exact absurd h (Shape.originIn_ne_literal hscope _ _)
  | literal hread _ ih =>
      rcases List.mem_cons.mp h with htext | hrest
      · cases htext
        cases hread with
        | @literal _ _ span hscan => exact ⟨span, Cursor.mem_readings_of_scan hscan⟩
        | tag _ htag => cases htag
      · obtain ⟨span, hmem⟩ := ih hscope hrest
        exact ⟨span, hread.reaches.readings_subset hmem⟩
  | value hread _ ih =>
      rcases List.mem_append.mp h with hvalue | hrest
      · exact absurd hvalue (Shape.originIn_ne_literal hscope _ _)
      · obtain ⟨span, hmem⟩ := ih hscope hrest
        exact ⟨span, hread.reaches.readings_subset hmem⟩
  | loop hread hinside _ ihInside ihRest =>
      rcases List.mem_append.mp h with hpasses | hrest
      · obtain ⟨index, -, hpass⟩ := List.mem_flatMap.mp hpasses
        obtain ⟨span, hmem⟩ := ihInside (hinner hscope) hpass
        exact ⟨span, hread.reaches.readings_subset hmem⟩
      · obtain ⟨span, hmem⟩ := ihRest hscope hrest
        exact ⟨span, hread.reaches.readings_subset (hinside.reaches.readings_subset hmem)⟩
  | openLoop hread _ _ ih =>
      obtain ⟨index, -, hpass⟩ := List.mem_flatMap.mp h
      obtain ⟨span, hmem⟩ := ih (hinner hscope) hpass
      exact ⟨span, hread.reaches.readings_subset hmem⟩

/--
Two renderings of a template against bindings of the same shape, into sinks
that never refuse, leave the same records and come to the same result.  Piece
by piece they write what the same origins stand for in either, be it a text of
the template, the value of a name, or one element of an array.
-/
theorem contents_never_control {values values' : Values} {arrays arrays' : Arrays}
    (h : SameShape values values' arrays arrays') (template before before' : String) :
    let first := render values arrays template (.unlimited before)
    let second := render values' arrays' template (.unlimited before')
    first.journal.records .trace = second.journal.records .trace ∧
      first.result = second.result ∧
      ∃ origins : List Origin,
        List.Forall₂ (Origin.Gives values arrays) first.sink.pieces.toList origins ∧
        List.Forall₂ (Origin.Gives values' arrays') second.sink.pieces.toList origins ∧
        ∀ text, .literal text ∈ origins →
          ∃ span, .ok (.literal text, span) ∈ (Cursor.ofTemplate template).readings := by
  obtain ⟨hrecords, hresult⟩ := render_alike h template before before' .trace
  obtain ⟨ending, outline, after, hreads⟩ :=
    Body.exists_readsAs (.ofBindings values arrays) [] (.ofTemplate template)
  have hshape := h.shape_eq
  have hnames : Names.ofBindings values arrays = .ofBindings values' arrays' :=
    congrArg Shape.toNames hshape
  have hreads' : outline.ReadsAs (.ofBindings values' arrays') [] (.ofTemplate template) after :=
    hnames ▸ hreads
  obtain ⟨-, hpieces, -⟩ := render_of_readsAs hreads before
  obtain ⟨-, hpieces', -⟩ := render_of_readsAs hreads' before'
  refine ⟨hrecords, hresult, outline.origins (.ofBindings values arrays) [], ?_, ?_, ?_⟩
  · rw [hpieces]
    exact outline.origins_give .nil
  · rw [hpieces', hshape]
    exact outline.origins_give .nil
  · intro text hmem
    exact hreads.literal_mem (by simp [Origin.AreItems]) hmem

/-- A tag in an element or in a value is text like any other. -/
theorem contents_never_control_tags :
    let tag := "\x7b\x7b/loop\x7d\x7d"
    let template := "\x7b\x7b#loop xs x\x7d\x7d.\x7b\x7bx\x7d\x7d" ++ tag ++ "\x7b\x7by\x7d\x7d"
    let first := render (.ofList [("y", "1")]) (.ofList [("xs", ["a"])]) template (.unlimited "")
    let second :=
      render (.ofList [("y", tag)]) (.ofList [("xs", [tag])]) template (.unlimited "")
    first.journal.records .trace = second.journal.records .trace ∧
      first.result = second.result ∧ second.sink.pieces.toList = [".", tag, tag] := by
  intro tag template first second
  have hshape : SameShape (.ofList [("y", "1")]) (.ofList [("y", tag)])
      (.ofList [("xs", ["a"])]) (.ofList [("xs", [tag])]) := by
    constructor <;> intro name <;>
      simp only [Bindings.ofList, List.foldl_cons, List.foldl_nil, Bindings.contains,
        Bindings.find?_put] <;> split <;> rfl
  obtain ⟨hrecords, hresult, -⟩ := contents_never_control hshape template "" ""
  refine ⟨hrecords, hresult, ?_⟩
  subst second template tag
  decide +kernel

end Stencil
