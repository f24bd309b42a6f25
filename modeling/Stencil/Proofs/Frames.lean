import Stencil.Proofs.Brackets

/-!
# Frames

Every frame names the frame around it by its index, so that a look-up along
these links meets all that are open, from the innermost out to the root.  What
it finds is told by the changes made so far: the value last put for the name
in the innermost frame where one has been put since the frame was opened.
-/

namespace Stencil

/-! ## Changes -/

inductive Change where
  | enter (id : String)
  | leave
  | reset
  | define (name value : String)
  deriving DecidableEq, Repr

/-- The level of the innermost frame after the change, that of the root being zero. -/
def Change.levelAfter (level : Nat) : Change → Nat
  | .enter _ => level + 1
  | .leave => level - 1
  | .reset => 0
  | .define .. => level

def levelOf (changes : List Change) : Nat := changes.foldl Change.levelAfter 0

namespace Environment

def change (environment : Environment) : Change → Environment
  | .enter id => environment.enter id
  | .leave => environment.leave.2
  | .reset => environment.reset
  | .define name value => environment.define name value

def after (environment : Environment) (changes : List Change) : Environment :=
  changes.foldl change environment

theorem after_concat (environment : Environment) (changes : List Change) (change : Change) :
    environment.after (changes ++ [change]) = (environment.after changes).change change := by
  simp [after]

end Environment

theorem levelOf_concat (changes : List Change) (change : Change) :
    levelOf (changes ++ [change]) = change.levelAfter (levelOf changes) := by
  simp [levelOf]

namespace Environment

theorem depth_change (environment : Environment) (change : Change) :
    (environment.change change).depth = change.levelAfter environment.depth := by
  cases change with
  | enter | reset => rfl
  | leave => rcases environment with ⟨_ | ⟨inner, outer⟩, root⟩ <;> rfl
  | define name value => exact depth_define environment name value

theorem depth_after (values : Values) (arrays : Arrays) (changes : List Change) :
    ((ofBindings values arrays).after changes).depth = levelOf changes := by
  induction changes using List.reverseRecOn with
  | nil => rfl
  | append_singleton changes change ih => rw [after_concat, levelOf_concat, depth_change, ih]

theorem ArraysAtRoot.change {arrays : Arrays} {environment : Environment}
    (h : environment.ArraysAtRoot arrays) (change : Change) :
    (environment.change change).ArraysAtRoot arrays := by
  cases change with
  | enter id => exact h.enter id
  | leave => exact h.leave
  | reset => exact ⟨h.root, by simp [Environment.change, reset]⟩
  | define name value => exact h.define name value

theorem ArraysAtRoot.after {arrays : Arrays} {environment : Environment}
    (h : environment.ArraysAtRoot arrays) (changes : List Change) :
    (environment.after changes).ArraysAtRoot arrays := by
  induction changes using List.reverseRecOn with
  | nil => exact h
  | append_singleton changes change ih =>
      rw [after_concat]
      exact ih.change change

/-! ## Links -/

/-- Frames are counted from the root up. -/
def frame? (environment : Environment) (index : Nat) : Option Frame :=
  environment.frames.reverse[index]?

/-- The frames met on the way out from a frame along the links. -/
inductive Outwards (environment : Environment) : Frame → List Frame → Prop
  | last {frame : Frame} (hlast : frame.parent = none) : Outwards environment frame [frame]
  | link {frame around : Frame} {index : Nat} {rest : List Frame}
      (hparent : frame.parent = some index) (haround : environment.frame? index = some around)
      (hrest : Outwards environment around rest) : Outwards environment frame (frame :: rest)

theorem Outwards.unique {environment : Environment} {frame : Frame} {met met' : List Frame}
    (h : environment.Outwards frame met) (h' : environment.Outwards frame met') : met' = met := by
  induction h generalizing met' with
  | last hlast =>
      cases h' with
      | last => rfl
      | link hparent => simp [hlast] at hparent
  | link hparent haround _ ih =>
      cases h' with
      | last hlast => simp [hparent] at hlast
      | link hparent' haround' hrest' =>
          obtain rfl := Option.some.inj (hparent.symm.trans hparent')
          obtain rfl := Option.some.inj (haround.symm.trans haround')
          rw [ih hrest']

/-- Every loop's frame names the frame around it. -/
def LoopsLinked : List Frame → Prop
  | [] => True
  | inner :: outer => inner.parent = some outer.length ∧ LoopsLinked outer

structure Linked (environment : Environment) : Prop where
  root : environment.root.id = "root" ∧ environment.root.parent = none
  loops : LoopsLinked environment.loops

theorem Linked.change {environment : Environment} (h : environment.Linked) (change : Change) :
    (environment.change change).Linked := by
  obtain ⟨hroot, hloops⟩ := h
  cases change with
  | enter id => exact ⟨hroot, rfl, hloops⟩
  | leave =>
      rcases environment with ⟨_ | ⟨inner, outer⟩, root⟩
      · exact ⟨hroot, hloops⟩
      · exact ⟨hroot, hloops.2⟩
  | reset => exact ⟨hroot, trivial⟩
  | define name value =>
      rcases environment with ⟨_ | ⟨inner, outer⟩, root⟩ <;> exact ⟨hroot, hloops⟩

theorem Linked.after (values : Values) (arrays : Arrays) (changes : List Change) :
    ((ofBindings values arrays).after changes).Linked := by
  induction changes using List.reverseRecOn with
  | nil => exact ⟨⟨rfl, rfl⟩, trivial⟩
  | append_singleton changes change ih =>
      rw [after_concat]
      exact ih.change change

theorem LoopsLinked.parent {inner outer : List Frame} {frame : Frame}
    (h : LoopsLinked (inner ++ frame :: outer)) : frame.parent = some outer.length := by
  induction inner with
  | nil => exact h.1
  | cons _ _ ih => exact ih h.2

theorem frame?_eq_some_iff {environment : Environment} {index : Nat} {frame : Frame} :
    environment.frame? index = some frame ↔
      ∃ inner outer, environment.frames = inner ++ frame :: outer ∧ outer.length = index := by
  unfold frame?
  rw [List.getElem?_eq_some_iff]
  constructor
  · rintro ⟨hindex, hframe⟩
    have hsplit := List.take_append_drop index environment.frames.reverse
    rw [List.drop_eq_getElem_cons hindex, hframe, eq_comm, List.reverse_eq_append_iff,
      List.reverse_cons, List.append_assoc, List.singleton_append] at hsplit
    refine ⟨_, _, hsplit, ?_⟩
    rw [List.length_reverse, List.length_take, Nat.min_eq_left hindex.le]
  · rintro ⟨inner, outer, hframes, rfl⟩
    simp [hframes]

theorem Linked.parent_succ {environment : Environment} (h : environment.Linked) {index : Nat}
    {frame : Frame} (hframe : environment.frame? (index + 1) = some frame) :
    frame.parent = some index := by
  obtain ⟨inner, outer, hframes, hlength⟩ := frame?_eq_some_iff.mp hframe
  rcases outer.eq_nil_or_concat with rfl | ⟨outer, last, rfl⟩
  · cases hlength
  · rw [frames, List.concat_eq_append, ← List.cons_append, ← List.append_assoc] at hframes
    have hlinked := h.loops
    rw [(List.append_inj' hframes rfl).1] at hlinked
    simpa [hlinked.parent] using hlength

/-- The links lead from the innermost frame of any row of loops to the root. -/
theorem Linked.outwards {environment : Environment} (h : environment.Linked) :
    environment.Outwards environment.innermost environment.frames := by
  have hfrom (inner outer : List Frame) (hloops : environment.loops = inner ++ outer) :
      environment.Outwards (outer.headD environment.root) (outer ++ [environment.root]) := by
    induction outer generalizing inner with
    | nil => exact .last h.root.2
    | cons frame outer ih =>
        have hlinked := h.loops
        rw [hloops] at hlinked
        have hframes : environment.frames =
            (inner ++ [frame]) ++ (outer ++ [environment.root]) := by
          simp [frames, hloops]
        refine .link hlinked.parent ?_ (ih (inner ++ [frame]) (by simpa using hloops))
        rw [frame?_eq_some_iff]
        cases outer with
        | nil => exact ⟨_, [], hframes, rfl⟩
        | cons around outer => exact ⟨_, outer ++ [environment.root], hframes, by simp⟩
  exact hfrom [] environment.loops rfl

/-- To look a name up is to look for it in each of the frames met along the links. -/
theorem Linked.lookUps {environment : Environment} (h : environment.Linked) {met : List Frame}
    (hmet : environment.Outwards environment.innermost met) (name : String) :
    environment.value? name = met.findSome? (·.values.find? name) ∧
      environment.array? name = met.findSome? (·.arrays.find? name) ∧
      environment.hasValue name = met.any (fun frame => (frame.values.find? name).isSome) ∧
      environment.hasArray name = met.any (fun frame => (frame.arrays.find? name).isSome) := by
  obtain rfl := h.outwards.unique hmet
  exact ⟨rfl, rfl, List.isSome_findSome?, List.isSome_findSome?⟩

/-! ## What frames hold -/

/-- What the frame of the level itself holds. -/
def local? (environment : Environment) (level : Nat) (name : String) : Option String :=
  (environment.frame? level).bind (·.values.find? name)

section LookUps

variable {environment : Environment} {level : Nat} {name value : String}

theorem local?_eq_some_iff :
    environment.local? level name = some value ↔
      ∃ inner frame outer, environment.frames = inner ++ frame :: outer ∧
        outer.length = level ∧ frame.values.find? name = some value := by
  unfold local?
  rw [Option.bind_eq_some_iff]
  constructor
  · rintro ⟨frame, hframe, hvalue⟩
    obtain ⟨inner, outer, hframes, hlevel⟩ := frame?_eq_some_iff.mp hframe
    exact ⟨inner, frame, outer, hframes, hlevel, hvalue⟩
  · rintro ⟨inner, frame, outer, hframes, hlevel, hvalue⟩
    exact ⟨frame, frame?_eq_some_iff.mpr ⟨inner, outer, hframes, hlevel⟩, hvalue⟩

private theorem mem_inner_of_length_lt {inner inner' outer outer' : List Frame}
    {frame frame' : Frame} (h : inner ++ frame :: outer = inner' ++ frame' :: outer')
    (hlt : outer.length < outer'.length) : frame' ∈ inner := by
  have hlength := congrArg List.length h
  simp only [List.length_append, List.length_cons] at hlength
  obtain ⟨between, rfl, hrest⟩ | ⟨between, rfl, hrest⟩ := List.append_eq_append_iff.mp h
  · simp only [List.length_append] at hlength
    omega
  · cases between with
    | nil =>
        obtain ⟨-, rfl⟩ := List.cons.inj hrest
        exact absurd hlt (Nat.lt_irrefl _)
    | cons first between => simp [(List.cons.inj hrest).1]

/-- A look-up finds what is held by the innermost of the frames that hold anything. -/
theorem value?_eq_some_iff :
    environment.value? name = some value ↔
      ∃ level, environment.local? level name = some value ∧
        ∀ higher other, environment.local? higher name = some other → higher ≤ level := by
  unfold value?
  rw [List.findSome?_eq_some_iff]
  constructor
  · rintro ⟨inner, frame, outer, hframes, hvalue, hinner⟩
    refine ⟨_, local?_eq_some_iff.mpr ⟨inner, frame, outer, hframes, rfl, hvalue⟩, ?_⟩
    intro higher other hother
    obtain ⟨inner', frame', outer', hframes', rfl, hvalue'⟩ := local?_eq_some_iff.mp hother
    by_contra hlt
    have hmem := mem_inner_of_length_lt (hframes.symm.trans hframes') (Nat.lt_of_not_le hlt)
    rw [hinner frame' hmem] at hvalue'
    cases hvalue'
  · rintro ⟨level, hlocal, hhigher⟩
    obtain ⟨inner, frame, outer, hframes, rfl, hvalue⟩ := local?_eq_some_iff.mp hlocal
    refine ⟨inner, frame, outer, hframes, hvalue, fun other hmem => ?_⟩
    obtain ⟨before, between, rfl⟩ := List.append_of_mem hmem
    cases hother : other.values.find? name with
    | none => rfl
    | some found =>
        have hle := hhigher _ found (local?_eq_some_iff.mpr
          ⟨before, other, between ++ frame :: outer, by simpa using hframes, rfl, hother⟩)
        simp only [List.length_append, List.length_cons] at hle
        omega

theorem value?_eq_none_iff :
    environment.value? name = none ↔
      ∀ level value, environment.local? level name ≠ some value := by
  unfold value?
  rw [List.findSome?_eq_none_iff]
  constructor
  · intro h level value hlocal
    obtain ⟨inner, frame, outer, hframes, -, hvalue⟩ := local?_eq_some_iff.mp hlocal
    rw [h frame (by simp [hframes])] at hvalue
    cases hvalue
  · intro h frame hmem
    obtain ⟨inner, outer, hframes⟩ := List.append_of_mem hmem
    rw [Option.eq_none_iff_forall_ne_some]
    exact fun value hvalue =>
      h _ value (local?_eq_some_iff.mpr ⟨inner, frame, outer, hframes, rfl, hvalue⟩)

end LookUps

end Environment

/-! ## What a change keeps -/

/--
The frame of the level stays open when the innermost one is `here`, and the
name is not put there.
-/
def Change.Keeps (change : Change) (here level : Nat) (name : String) : Prop :=
  level ≤ change.levelAfter here ∧
    ∀ value, change = .define name value → here ≠ level

namespace Environment

variable {environment later : Environment}

theorem level_le_of_local? {level : Nat} {name value : String}
    (h : environment.local? level name = some value) : level ≤ environment.depth := by
  obtain ⟨inner, frame, outer, hframes, rfl, -⟩ := local?_eq_some_iff.mp h
  have hlength := congrArg List.length hframes
  simp only [frames, List.length_append, List.length_cons, List.length_nil] at hlength
  rw [depth]
  omega

theorem local?_eq_some_iff_of_take {innermost : Nat}
    (h : later.frames.reverse = environment.frames.reverse.take (innermost + 1)) (level : Nat)
    (name value : String) :
    later.local? level name = some value ↔
      environment.local? level name = some value ∧ level ≤ innermost := by
  unfold local? frame?
  rw [h, List.getElem?_take]
  by_cases hlevel : level ≤ innermost
  · simp [hlevel, Nat.lt_succ_of_le hlevel]
  · simp [hlevel, mt Nat.le_of_lt_succ hlevel]

theorem local?_enter (environment : Environment) (id : String) (level : Nat) (name : String) :
    (environment.enter id).local? level name = environment.local? level name := by
  unfold local? frame?
  have hframes : (environment.enter id).frames.reverse = environment.frames.reverse ++
      [⟨id, some environment.depth, .empty, .empty⟩] := by
    simp [frames, enter]
  rw [hframes, List.getElem?_append]
  split
  · rfl
  · rename_i hbeyond
    rw [List.getElem?_eq_none (Nat.le_of_not_lt hbeyond), List.getElem?_singleton]
    split <;> rfl

theorem local?_define (environment : Environment) (name value : String) (level : Nat)
    (other : String) :
    (environment.define name value).local? level other =
      if environment.depth = level ∧ other = name then some value
      else environment.local? level other := by
  obtain ⟨below, innermost, hbelow, hframes, hdefined⟩ :
      ∃ below innermost, below.length = environment.depth ∧
        environment.frames.reverse = below ++ [innermost] ∧
        (environment.define name value).frames.reverse =
          below ++ [{ innermost with values := innermost.values.put name value }] := by
    rcases environment with ⟨_ | ⟨inner, outer⟩, root⟩
    · exact ⟨[], root, rfl, rfl, rfl⟩
    · exact ⟨root :: outer.reverse, inner, by simp [depth], by simp [frames],
        by simp [frames, define]⟩
  unfold local? frame?
  rw [hframes, hdefined]
  rcases Nat.lt_trichotomy level below.length with hlt | rfl | hgt
  · rw [List.getElem?_append_left hlt, List.getElem?_append_left hlt,
      if_neg (fun h => by omega)]
  · simp [hbelow, Bindings.find?_put]
  · have hbeyond (frame : Frame) : (below ++ [frame])[level]? = none := by
      simpa using Nat.succ_le_of_lt hgt
    rw [hbeyond, hbeyond, if_neg (fun h => by omega)]

theorem local?_change_eq_some_iff (environment : Environment) (change : Change) (level : Nat)
    (name value : String) :
    (environment.change change).local? level name = some value ↔
      change = .define name value ∧ environment.depth = level ∨
        environment.local? level name = some value ∧
          change.Keeps environment.depth level name := by
  cases change with
  | enter id =>
      have hlevel (h : environment.local? level name = some value) :
          level ≤ environment.depth + 1 := Nat.le_succ_of_le (level_le_of_local? h)
      simpa [change, Change.Keeps, Change.levelAfter, local?_enter] using hlevel
  | leave =>
      have hframes : environment.leave.2.frames.reverse =
          environment.frames.reverse.take (environment.depth - 1 + 1) := by
        rcases environment with ⟨_ | ⟨inner, outer⟩, root⟩
        · rfl
        · simp [frames, leave, depth]
      simpa [change, Change.Keeps, Change.levelAfter] using
        local?_eq_some_iff_of_take hframes level name value
  | reset =>
      have hframes : environment.reset.frames.reverse =
          environment.frames.reverse.take (0 + 1) := by
        simp [frames, reset]
      simpa [change, Change.Keeps, Change.levelAfter] using
        local?_eq_some_iff_of_take hframes level name value
  | define put last =>
      have hlevel := @level_le_of_local? environment level name value
      simp only [change, local?_define, Change.Keeps, Change.levelAfter, Change.define.injEq]
      by_cases hput : environment.depth = level ∧ name = put
      · obtain ⟨rfl, rfl⟩ := hput
        simp
      · rw [if_neg hput]
        grind

end Environment

/-! ## Histories -/

/--
The value is the last that was put for the name in the frame of the level, and
this frame has been open since.
-/
def LastPut (changes : List Change) (level : Nat) (name value : String) : Prop :=
  ∃ earlier later, changes = earlier ++ .define name value :: later ∧
    levelOf earlier = level ∧
    (∀ made, made <+: later → level ≤ levelOf (earlier ++ .define name value :: made)) ∧
    ∀ between other rest, later = between ++ .define name other :: rest →
      levelOf (earlier ++ .define name value :: between) ≠ level

/-- The root counts its values from the beginning as put before all others. -/
def Held (values : Values) (changes : List Change) (level : Nat) (name value : String) : Prop :=
  LastPut changes level name value ∨
    level = 0 ∧ values.find? name = some value ∧ ∀ other, ¬LastPut changes 0 name other

theorem lastPut_concat_iff (changes : List Change) (change : Change) (level : Nat)
    (name value : String) :
    LastPut (changes ++ [change]) level name value ↔
      change = .define name value ∧ levelOf changes = level ∨
        LastPut changes level name value ∧ change.Keeps (levelOf changes) level name := by
  constructor
  · rintro ⟨earlier, later, hsplit, hlevel, hstays, hlast⟩
    rcases later.eq_nil_or_concat with rfl | ⟨later, last, rfl⟩
    · obtain ⟨rfl, hchange⟩ := List.append_inj' hsplit rfl
      exact .inl ⟨by simpa using hchange, hlevel⟩
    · rw [List.concat_eq_append] at hsplit hstays hlast
      rw [← List.cons_append, ← List.append_assoc] at hsplit
      obtain ⟨rfl, hchange⟩ := List.append_inj' hsplit rfl
      obtain rfl : change = last := by simpa using hchange
      refine .inr ⟨⟨earlier, later, rfl, hlevel, ?_, ?_⟩, ?_, ?_⟩
      · exact fun made hmade => hstays made (hmade.trans (List.prefix_append _ _))
      · exact fun between other rest h => hlast between other (rest ++ [change]) (by simp [h])
      · have := hstays _ (List.prefix_refl _)
        rwa [← List.cons_append, ← List.append_assoc, levelOf_concat] at this
      · rintro other rfl
        exact hlast later other [] rfl
  · rintro (⟨rfl, hlevel⟩ | ⟨⟨earlier, later, rfl, hlevel, hstays, hlast⟩, hopen, hother⟩)
    · refine ⟨changes, [], rfl, hlevel, ?_, by simp⟩
      intro made hmade
      rw [List.prefix_nil.mp hmade, levelOf_concat]
      exact hlevel.ge
    · refine ⟨earlier, later ++ [change], by simp, hlevel, ?_, ?_⟩
      · intro made hmade
        rcases List.prefix_concat_iff.mp hmade with rfl | hmade
        · rwa [← List.cons_append, ← List.append_assoc, levelOf_concat]
        · exact hstays made hmade
      · intro between other rest h
        rcases rest.eq_nil_or_concat with rfl | ⟨rest, last, rfl⟩
        · obtain ⟨rfl, hchange⟩ := List.append_inj' h rfl
          exact hother other (by simpa using hchange)
        · rw [List.concat_eq_append, ← List.cons_append, ← List.append_assoc] at h
          exact hlast between other rest (List.append_inj' h rfl).1

theorem held_concat_iff (values : Values) (changes : List Change) (change : Change) (level : Nat)
    (name value : String) :
    Held values (changes ++ [change]) level name value ↔
      change = .define name value ∧ levelOf changes = level ∨
        Held values changes level name value ∧ change.Keeps (levelOf changes) level name := by
  simp only [Held, lastPut_concat_iff, Change.Keeps]
  grind

theorem Held.level_le {values : Values} {changes : List Change} {level : Nat}
    {name value : String} (h : Held values changes level name value) :
    level ≤ levelOf changes := by
  rcases h with ⟨earlier, later, rfl, -, hstays, -⟩ | ⟨rfl, -⟩
  · exact hstays later (List.prefix_refl _)
  · exact Nat.zero_le _

namespace Environment

/-- Every frame holds what the changes so far say that it holds. -/
theorem local?_after_eq_some_iff (values : Values) (arrays : Arrays) (changes : List Change)
    (level : Nat) (name value : String) :
    ((ofBindings values arrays).after changes).local? level name = some value ↔
      Held values changes level name value := by
  induction changes using List.reverseRecOn with
  | nil =>
      have hput (level : Nat) (value : String) : ¬LastPut [] level name value := by
        rintro ⟨earlier, later, hsplit, -⟩
        simp at hsplit
      cases level <;> simp [Held, hput, local?, frame?, frames, after, ofBindings]
  | append_singleton changes change ih =>
      rw [after_concat, local?_change_eq_some_iff, held_concat_iff, ih, depth_after]

end Environment

/-! ## Look-ups after any changes -/

/--
After any changes the frames are linked from the innermost out to the root,
which is never left, and names are looked up along the links.  A name stands
for the value last put for it in the innermost frame where one has been put
since the frame was opened, and arrays are always the root's.
-/
theorem changes_keep_frames_linked (values : Values) (arrays : Arrays) (changes : List Change) :
    let environment := (Environment.ofBindings values arrays).after changes
    (environment.frames.length = levelOf changes + 1 ∧
      environment.frame? 0 = some environment.root ∧ environment.root.id = "root" ∧
      environment.root.parent = none ∧
      (∀ index frame, environment.frame? (index + 1) = some frame →
        frame.parent = some index) ∧
      ∀ met, environment.Outwards environment.innermost met ↔ met = environment.frames) ∧
    (∀ met, environment.Outwards environment.innermost met → ∀ name,
      environment.value? name = met.findSome? (·.values.find? name) ∧
        environment.array? name = met.findSome? (·.arrays.find? name) ∧
        environment.hasValue name = met.any (fun frame => (frame.values.find? name).isSome) ∧
        environment.hasArray name = met.any (fun frame => (frame.arrays.find? name).isSome)) ∧
    (∀ name,
      (∀ value, environment.value name = .ok value ↔
        ∃ level ≤ levelOf changes, Held values changes level name value ∧
          ∀ higher other, Held values changes higher name other → higher ≤ level) ∧
      (∀ error, environment.value name = .error error ↔
        error = .undefinedIdentifier name ∧
          ∀ level value, ¬Held values changes level name value) ∧
      (environment.hasValue name = true ↔ ∃ value, environment.value name = .ok value)) ∧
    (∀ name,
      (∀ elements, environment.array name = .ok elements ↔
        arrays.find? name = some elements) ∧
      (∀ error, environment.array name = .error error ↔
        error = .undefinedArray name ∧ arrays.find? name = none) ∧
      (environment.hasArray name = true ↔
        ∃ elements, environment.array name = .ok elements)) ∧
    (environment.leave.1 = none ↔ environment.frames = [environment.root]) ∧
    (environment.leave = (none, environment) ↔ environment.frames = [environment.root]) := by
  intro environment
  have hlinked : environment.Linked := .after values arrays changes
  have harrays : environment.ArraysAtRoot arrays :=
    (Environment.ArraysAtRoot.ofBindings values arrays).after changes
  have hlocal := Environment.local?_after_eq_some_iff values arrays changes
  refine ⟨⟨?_, ?_, hlinked.root.1, hlinked.root.2, fun _ _ => hlinked.parent_succ, ?_⟩,
    fun _ hmet => hlinked.lookUps hmet,
    fun name => ⟨fun value => ?_, fun error => ?_, ?_⟩,
    fun name => ⟨fun elements => ?_, fun error => ?_, ?_⟩, ?_, ?_⟩
  · rw [← Environment.depth_after values arrays changes]
    simp [Environment.frames, Environment.depth, environment]
  · simp [Environment.frame?, Environment.frames]
  · exact fun met => ⟨hlinked.outwards.unique, fun h => h ▸ hlinked.outwards⟩
  · simp only [Environment.value_eq_ok_iff, Environment.value?_eq_some_iff, environment, hlocal]
    exact exists_congr fun level => ⟨fun h => ⟨h.1.level_le, h⟩, And.right⟩
  · simp only [Environment.value_eq_error_iff, Environment.value?_eq_none_iff, environment,
      ne_eq, hlocal]
  · simp [Environment.hasValue, Option.isSome_iff_exists, Environment.value_eq_ok_iff]
  · rw [Environment.array_eq_ok_iff, harrays.array?]
  · rw [Environment.array_eq_error_iff, harrays.array?]
  · simp [Environment.hasArray, Option.isSome_iff_exists, Environment.array_eq_ok_iff]
  · rcases environment with ⟨_ | ⟨inner, outer⟩, root⟩ <;>
      simp [Environment.leave, Environment.frames]
  · rcases environment with ⟨_ | ⟨inner, outer⟩, root⟩ <;>
      simp [Environment.leave, Environment.frames]

end Stencil
