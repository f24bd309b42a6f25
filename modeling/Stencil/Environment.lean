import Stencil.Bindings
import Stencil.Error

/-!
# Environments

Every loop under way has a frame of its own on top of the frames around it.
At the bottom lies the root with the bindings a template was given.  A name is
looked up from the top down, so that a loop's item hides what is bound outside
the loop until the loop is over.
-/

namespace Stencil

/-- The bindings of one loop; `parent` is the index of the frame around it, from the root up. -/
structure Frame where
  id : String
  parent : Option Nat
  values : Values
  arrays : Arrays
  deriving Repr

def Frame.Same (first second : Frame) : Prop :=
  first.id = second.id ∧ first.parent = second.parent ∧
    first.values.Same second.values ∧ first.arrays.Same second.arrays

instance (first second : Frame) : Decidable (first.Same second) :=
  inferInstanceAs (Decidable (_ ∧ _ ∧ _ ∧ _))

/-- The frames of loops are listed from the innermost outwards. -/
structure Environment where
  loops : List Frame
  root : Frame
  deriving Repr

namespace Environment

def ofBindings (values : Values) (arrays : Arrays) : Environment :=
  ⟨[], ⟨"root", none, values, arrays⟩⟩

def frames (environment : Environment) : List Frame :=
  environment.loops ++ [environment.root]

def innermost (environment : Environment) : Frame :=
  environment.loops.headD environment.root

def depth (environment : Environment) : Nat := environment.loops.length

def atRoot (environment : Environment) : Bool := environment.loops.isEmpty

def enter (environment : Environment) (id : String) : Environment :=
  { environment with
    loops := ⟨id, some environment.depth, .empty, .empty⟩ :: environment.loops }

/-- Close the innermost frame and return it; the root stays open. -/
def leave (environment : Environment) : Option Frame × Environment :=
  match environment.loops with
  | [] => (none, environment)
  | closed :: outer => (some closed, { environment with loops := outer })

def reset (environment : Environment) : Environment := { environment with loops := [] }

def define (environment : Environment) (name value : String) : Environment :=
  match environment.loops with
  | [] => { environment with root.values := environment.root.values.put name value }
  | inner :: outer =>
      { environment with
        loops := { inner with values := inner.values.put name value } :: outer }

def value? (environment : Environment) (name : String) : Option String :=
  environment.frames.findSome? (·.values.find? name)

def array? (environment : Environment) (name : String) : Option (List String) :=
  environment.frames.findSome? (·.arrays.find? name)

def hasValue (environment : Environment) (name : String) : Bool :=
  (environment.value? name).isSome

def hasArray (environment : Environment) (name : String) : Bool :=
  (environment.array? name).isSome

def value (environment : Environment) (name : String) : Except NameError String :=
  match environment.value? name with
  | some value => .ok value
  | none => .error (.undefinedIdentifier name)

def array (environment : Environment) (name : String) : Except NameError (List String) :=
  match environment.array? name with
  | some elements => .ok elements
  | none => .error (.undefinedArray name)

/-- Equality frame by frame, bindings being compared as maps. -/
def Same (first second : Environment) : Prop :=
  first.depth = second.depth ∧
    ∀ pair ∈ first.frames.zip second.frames, pair.1.Same pair.2

instance (first second : Environment) : Decidable (first.Same second) :=
  inferInstanceAs (Decidable (_ ∧ _))

@[simp] theorem depth_enter (environment : Environment) (id : String) :
    (environment.enter id).depth = environment.depth + 1 := rfl

@[simp] theorem depth_define (environment : Environment) (name value : String) :
    (environment.define name value).depth = environment.depth := by
  rcases environment with ⟨_ | ⟨inner, outer⟩, root⟩ <;> rfl

theorem value?_define (environment : Environment) (name other value : String) :
    (environment.define name value).value? other =
      if other = name then some value else environment.value? other := by
  rcases environment with ⟨_ | ⟨inner, outer⟩, root⟩ <;> by_cases h : other = name <;>
    simp [define, value?, frames, List.findSome?_cons, Bindings.find?_put, h]

theorem array?_define (environment : Environment) (name other value : String) :
    (environment.define name value).array? other = environment.array? other := by
  rcases environment with ⟨_ | ⟨inner, outer⟩, root⟩ <;>
    simp [define, array?, frames, List.findSome?_cons]

theorem array?_enter (environment : Environment) (id name : String) :
    (environment.enter id).array? name = environment.array? name := rfl

section Verdicts

variable {environment : Environment} {name : String}

theorem value_eq_ok_iff {value : String} :
    environment.value name = .ok value ↔ environment.value? name = some value := by
  unfold Environment.value
  cases environment.value? name <;> simp

theorem value_eq_error_iff {error : NameError} :
    environment.value name = .error error ↔
      error = .undefinedIdentifier name ∧ environment.value? name = none := by
  unfold Environment.value
  cases environment.value? name <;> simp [eq_comm]

theorem array_eq_ok_iff {elements : List String} :
    environment.array name = .ok elements ↔ environment.array? name = some elements := by
  unfold Environment.array
  cases environment.array? name <;> simp

theorem array_eq_error_iff {error : NameError} :
    environment.array name = .error error ↔
      error = .undefinedArray name ∧ environment.array? name = none := by
  unfold Environment.array
  cases environment.array? name <;> simp [eq_comm]

end Verdicts

end Environment

end Stencil
