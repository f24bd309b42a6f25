import Mathlib.Data.List.TakeWhile
import Stencil.Proofs.Exits

/-!
# Texts of bindings

Which bindings can be written as arguments, and which maps the arguments of a
command can make.  A binding is read back from its text, and elements from
what lists them, with one exception: a list of one empty element is written
like the list of none.
-/

namespace Stencil.CommandLine

/-! ## Bindings -/

/-- The names that a binding can give a value to. -/
def Nameable (name : String) : Prop := name ≠ "" ∧ '=' ∉ name.toList

namespace Binding

theorem toList_text (binding : Binding) :
    binding.text.toList = binding.name.toList ++ '=' :: binding.value.toList := by
  simp [text, String.toList_append]

theorem exists_text {raw : String} (h : '=' ∈ raw.toList) :
    ∃ binding : Binding, binding.text = raw ∧ '=' ∉ binding.name.toList := by
  obtain ⟨name, value, hraw, hname⟩ := List.eq_append_cons_of_mem h
  refine ⟨⟨String.ofList name, String.ofList value⟩, ?_, by simpa using hname⟩
  rw [← String.toList_inj, toList_text, hraw]
  simp

theorem parse_of_not_mem {raw : String} (h : '=' ∉ raw.toList) :
    parse raw = .error (.noSeparator raw) := by
  have hnone : raw.toList.dropWhile (· ≠ '=') = [] :=
    List.dropWhile_eq_nil_iff.mpr fun c hc => decide_eq_true fun heq => h (heq ▸ hc)
  simp only [parse, hnone]

/-- The name ends at the first equals sign. -/
theorem parse_text {binding : Binding} (h : '=' ∉ binding.name.toList) :
    parse binding.text =
      if binding.name = "" then .error (.noName binding.text) else .ok binding := by
  have hpass (c : Char) (hc : c ∈ binding.name.toList) : decide (c ≠ '=') = true :=
    decide_eq_true fun heq => h (heq ▸ hc)
  rw [parse, toList_text, List.takeWhile_append_of_pos hpass, List.dropWhile_append_of_pos hpass]
  simp

theorem parse_eq_ok_iff (raw : String) (binding : Binding) :
    parse raw = .ok binding ↔ binding.text = raw ∧ Nameable binding.name := by
  constructor
  · intro hparse
    by_cases h : '=' ∈ raw.toList
    · obtain ⟨found, rfl, hname⟩ := exists_text h
      rw [parse_text hname] at hparse
      split at hparse
      · cases hparse
      · obtain rfl := Except.ok.inj hparse
        exact ⟨rfl, ‹_›, hname⟩
    · rw [parse_of_not_mem h] at hparse
      cases hparse
  · rintro ⟨rfl, hne, hname⟩
    rw [parse_text hname, if_neg hne]

theorem exists_parse_iff (raw : String) :
    (∃ binding, parse raw = .ok binding) ↔
      '=' ∈ raw.toList ∧ raw.toList.head? ≠ some '=' := by
  have hhead (binding : Binding) (hname : '=' ∉ binding.name.toList) :
      binding.text.toList.head? ≠ some '=' ↔ binding.name ≠ "" := by
    rw [toList_text, ne_eq, ne_eq, ← String.toList_eq_nil_iff]
    cases hchars : binding.name.toList with
    | nil => simp
    | cons c name =>
        rw [hchars] at hname
        simpa using fun heq => hname (by simp [heq])
  constructor
  · rintro ⟨binding, hparse⟩
    obtain ⟨rfl, hne, hname⟩ := (parse_eq_ok_iff ..).mp hparse
    exact ⟨by simp [toList_text], (hhead binding hname).mpr hne⟩
  · rintro ⟨hmem, hne⟩
    obtain ⟨binding, rfl, hname⟩ := exists_text hmem
    exact ⟨binding, (parse_eq_ok_iff ..).mpr ⟨rfl, (hhead binding hname).mp hne, hname⟩⟩

end Binding

/-! ## Elements -/

/-- The arrays that have a text: elements are told apart by the commas between them. -/
def Listable (elements : List String) : Prop :=
  (∀ element ∈ elements, ',' ∉ element.toList) ∧ elements ≠ [""]

theorem not_mem_of_mem_piecesBetween {separator : Char} {text : String} :
    ∀ piece ∈ piecesBetween separator text, separator ∉ piece.toList := by
  unfold piecesBetween
  generalize text.toList = chars
  induction chars with
  | nil => simp
  | cons c chars ih =>
      rw [List.splitOn_cons_eq_if_modifyHead]
      by_cases hc : c = separator
      · simpa [hc] using ih
      · cases hsplit : chars.splitOn separator with
        | nil => exact absurd hsplit (List.splitOn_ne_nil separator chars)
        | cons piece others =>
            rw [hsplit] at ih
            simpa [hc, Ne.symm hc] using ih

theorem elementsOf_of_ne {value : String} (h : value ≠ "") :
    elementsOf value = piecesBetween ',' value := by
  have hempty : value.isEmpty = false := by simpa using h
  rw [elementsOf, hempty, if_neg Bool.false_ne_true]

theorem joinElements_elementsOf (value : String) : joinElements (elementsOf value) = value := by
  by_cases h : value = ""
  · subst h
    rfl
  · rw [elementsOf_of_ne h, piecesBetween, joinElements, ← String.toList_inj,
      String.toList_intercalate, List.map_map]
    simp [Function.comp_def, List.intercalate_splitOn]

theorem joinElements_eq_empty_iff (elements : List String) :
    joinElements elements = "" ↔ elements = [] ∨ elements = [""] := by
  rw [joinElements, ← String.toList_inj, String.toList_intercalate]
  rcases elements with - | ⟨element, - | ⟨other, others⟩⟩
  · simp
  · simp
  · simp

theorem elementsOf_joinElements {elements : List String} (h : Listable elements) :
    elementsOf (joinElements elements) = elements := by
  obtain ⟨hfree, hne⟩ := h
  by_cases hnil : elements = []
  · subst hnil
    rfl
  · have hjoin : joinElements elements ≠ "" := by
      simp [joinElements_eq_empty_iff, hnil, hne]
    have hfree' : ∀ chars ∈ elements.map String.toList, ',' ∉ chars := by simpa using hfree
    have hsplit := List.splitOn_intercalate ',' hfree' (by simpa using hnil)
    have hcomma : ",".toList = [','] := by decide
    rw [elementsOf_of_ne hjoin, piecesBetween, joinElements, String.toList_intercalate, hcomma,
      hsplit, List.map_map]
    simp [Function.comp_def]

theorem listable_elementsOf (value : String) : Listable (elementsOf value) := by
  constructor
  · unfold elementsOf
    split
    · simp
    · exact not_mem_of_mem_piecesBetween
  -- The text of the exception is empty, and the empty text lists no elements.
  · intro h
    have hvalue := joinElements_elementsOf value
    rw [h] at hvalue
    obtain rfl : "" = value := hvalue
    exact List.cons_ne_nil _ _ h.symm

/-! ## Arguments of a binding -/

/-- A binding and the option that it is given with. -/
structure Occurrence where
  option : BindingOption
  binding : Binding
  deriving DecidableEq, Repr

namespace BindingOption

def name : BindingOption → String
  | .value => "var"
  | .array => "array"

def letter : BindingOption → Char
  | .value => 'v'
  | .array => 'a'

def long (option : BindingOption) : String := "--" ++ option.name

def short (option : BindingOption) : String := "-" ++ String.singleton option.letter

/--
The arguments that give an option its text.  In an argument of its own the text
does not begin with a hyphen, and behind the letter not with an equals sign.
-/
inductive Gives (option : BindingOption) (raw : String) : List String → Prop
  | longAttached : Gives option raw [option.long ++ "=" ++ raw]
  | longApart (h : raw.toList.head? ≠ some '-') : Gives option raw [option.long, raw]
  | shortAttached (h : raw.toList.head? ≠ some '=') : Gives option raw [option.short ++ raw]
  | shortEquals : Gives option raw [option.short ++ "=" ++ raw]
  | shortApart (h : raw.toList.head? ≠ some '-') : Gives option raw [option.short, raw]

end BindingOption

/-- The arguments that give bindings, one after the other. -/
inductive Spelled : List Occurrence → List String → Prop
  | nil : Spelled [] []
  | cons {option : BindingOption} {binding : Binding} {given : List Occurrence}
      {words arguments : List String} (hname : Nameable binding.name)
      (hword : option.Gives binding.text words) (hrest : Spelled given arguments) :
      Spelled (⟨option, binding⟩ :: given) (words ++ arguments)

/-- What was given with one option. -/
def bindingsOf (option : BindingOption) (given : List Occurrence) : List Binding :=
  (given.filter (·.option = option)).map (·.binding)

namespace Invocation

def add (invocation : Invocation) (given : List Occurrence) : Invocation where
  values := invocation.values ++ bindingsOf .value given
  arrays := invocation.arrays ++ bindingsOf .array given
  template := invocation.template

@[simp] theorem add_nil (invocation : Invocation) : invocation.add [] = invocation := by
  simp [add, bindingsOf]

theorem add_cons (invocation : Invocation) (occurrence : Occurrence) (given : List Occurrence) :
    invocation.add (occurrence :: given) = (invocation.add [occurrence]).add given := by
  obtain ⟨option, binding⟩ := occurrence
  cases option <;> simp [add, bindingsOf]

end Invocation

namespace Argument

theorem ofString_long (option : BindingOption) : ofString option.long = .long option.name none := by
  cases option <;> decide

theorem ofString_longAttached (option : BindingOption) (raw : String) :
    ofString (option.long ++ "=" ++ raw) = .long option.name (some raw) := by
  cases option <;> simp [ofString, BindingOption.long, BindingOption.name, String.toList_append]

theorem ofString_short (option : BindingOption) :
    ofString option.short = .short option.letter none := by
  cases option <;> decide

theorem ofString_shortAttached (option : BindingOption) (raw : String) :
    ofString (option.short ++ raw) = .short option.letter (attachedTo raw.toList) := by
  cases option <;> simp [ofString, BindingOption.short, BindingOption.letter, String.toList_append]

theorem attachedTo_of_ne {raw : String} (hne : raw ≠ "") (h : raw.toList.head? ≠ some '=') :
    attachedTo raw.toList = some raw := by
  unfold attachedTo
  split
  · simp_all
  · simp_all
  · simp

theorem attachedTo_equals (raw : String) : attachedTo ("=" ++ raw).toList = some raw := by
  simp [attachedTo, String.toList_append]

theorem ofString_plain {raw : String} (h : raw.toList.head? ≠ some '-') :
    ofString raw = .plain raw := by
  unfold ofString
  split <;> simp_all

end Argument

/-- The argument asks for the option, under its name or its letter. -/
def BindingOption.AskedBy (option : BindingOption) (attached : Option String)
    (argument : String) : Prop :=
  Argument.ofString argument = .long option.name attached ∨
    Argument.ofString argument = .short option.letter attached

namespace Reading

/-- After the words reading goes on as from a reading that comes to the invocation. -/
def ComesTo (reading : Reading) (words : List String) (invocation : Invocation) : Prop :=
  ∀ rest, ∃ next : Reading, next.settle = .ok invocation ∧
    reading.readAll (words ++ rest) = next.readAll rest

theorem addBinding_text (invocation : Invocation) (option : BindingOption) {binding : Binding}
    (hname : Nameable binding.name) :
    addBinding invocation option binding.text = .ok (invocation.add [⟨option, binding⟩]) := by
  unfold addBinding
  rw [(Binding.parse_eq_ok_iff ..).mpr ⟨rfl, hname⟩]
  cases option <;> simp [Invocation.add, bindingsOf]

theorem readAll_askedBy {reading next : Reading} {option : BindingOption}
    {attached : Option String} {argument : String} (hasks : option.AskedBy attached argument)
    (hoption : reading.readOption option attached = .ok (.more next)) (rest : List String) :
    reading.readAll (argument :: rest) = next.readAll rest := by
  rcases hasks with hlong | hshort
  · have hread : reading.readLong option.name attached = .ok (.more next) := by
      cases option <;> exact hoption
    simp only [readAll, hlong, hread]
    rfl
  · have hread : reading.readShort option.letter attached = .ok (.more next) := by
      cases option <;> exact hoption
    simp only [readAll, hshort, hread]
    rfl

section

variable {reading : Reading} {invocation : Invocation} {option : BindingOption}
  {binding : Binding} (hsettle : reading.settle = .ok invocation) (hname : Nameable binding.name)
include hsettle hname

theorem attached_comesTo {argument : String} (hasks : option.AskedBy (some binding.text) argument) :
    reading.ComesTo [argument] (invocation.add [⟨option, binding⟩]) := by
  intro rest
  have hoption : reading.readOption option (some binding.text) =
      .ok (.more ⟨invocation.add [⟨option, binding⟩], .nothing⟩) := by
    unfold readOption
    rw [hsettle]
    change (addBinding invocation option binding.text >>= _) = _
    rw [addBinding_text invocation option hname]
    rfl
  exact ⟨_, rfl, readAll_askedBy hasks hoption rest⟩

theorem apart_comesTo {argument : String} (hasks : option.AskedBy none argument)
    (h : binding.text.toList.head? ≠ some '-') :
    reading.ComesTo [argument, binding.text] (invocation.add [⟨option, binding⟩]) := by
  intro rest
  have hoption : reading.readOption option none = .ok (.more ⟨invocation, .option option⟩) := by
    unfold readOption
    rw [hsettle]
    rfl
  refine ⟨⟨invocation, .value option binding.text⟩, addBinding_text invocation option hname, ?_⟩
  change reading.readAll (argument :: binding.text :: rest) = _
  rw [readAll_askedBy hasks hoption, readAll, Argument.ofString_plain h]
  rfl

/-- Words that give a binding add it, and nothing else. -/
theorem gives_comesTo {words : List String} (h : option.Gives binding.text words) :
    reading.ComesTo words (invocation.add [⟨option, binding⟩]) := by
  cases h with
  | longAttached =>
      exact attached_comesTo hsettle hname (.inl (Argument.ofString_longAttached ..))
  | longApart h => exact apart_comesTo hsettle hname (.inl (Argument.ofString_long option)) h
  | shortAttached h =>
      refine attached_comesTo hsettle hname (.inr ?_)
      rw [Argument.ofString_shortAttached, Argument.attachedTo_of_ne (by simp [Binding.text]) h]
  | shortEquals =>
      refine attached_comesTo hsettle hname (.inr ?_)
      rw [String.append_assoc, Argument.ofString_shortAttached, Argument.attachedTo_equals]
  | shortApart h => exact apart_comesTo hsettle hname (.inr (Argument.ofString_short option)) h

end

theorem readAll_spelled {given : List Occurrence} {arguments : List String}
    (h : Spelled given arguments) {reading : Reading} {invocation : Invocation}
    (hsettle : reading.settle = .ok invocation) :
    reading.readAll arguments = .ok (.render (invocation.add given)) := by
  induction h generalizing reading invocation with
  | nil =>
      rw [readAll, hsettle, Invocation.add_nil]
      rfl
  | @cons option binding given words arguments hname hword hrest ih =>
      obtain ⟨next, hnext, hread⟩ := gives_comesTo hsettle hname hword arguments
      rw [hread, ih hnext, ← Invocation.add_cons]

end Reading

theorem parse_spelled {given : List Occurrence} {arguments : List String}
    (h : Spelled given arguments) : parse arguments = .ok (.render (.add .empty given)) :=
  Reading.readAll_spelled h rfl

/-! ## Names that come out of arguments -/

/-- If the reading goes on, it does so with a result of which the fact holds. -/
def Yields {α : Type} (fact : α → Prop) (result : Except UsageError α) : Prop :=
  ∀ value, result = .ok value → fact value

namespace Yields

variable {α β : Type} {fact : α → Prop}

theorem ok {value : α} (h : fact value) : Yields fact (.ok value) :=
  fun _ heq => Except.ok.inj heq ▸ h

theorem error (error : UsageError) : Yields fact (.error error) := fun _ heq => nomatch heq

theorem bind {result : Except UsageError α} {next : α → Except UsageError β} {fact' : β → Prop}
    (h : Yields fact result) (hnext : ∀ value, fact value → Yields fact' (next value)) :
    Yields fact' (result >>= next) := by
  cases result with
  | error error => exact Yields.error error
  | ok value => exact hnext value (h value rfl)

end Yields

structure Invocation.Nameable (invocation : Invocation) : Prop where
  values : ∀ binding ∈ invocation.values, CommandLine.Nameable binding.name
  arrays : ∀ binding ∈ invocation.arrays, CommandLine.Nameable binding.name

def Request.Nameable : Request → Prop
  | .help | .version => True
  | .render invocation => invocation.Nameable

def Progress.Nameable : Progress → Prop
  | .more reading => reading.invocation.Nameable
  | .done request => request.Nameable

namespace Reading

theorem addBinding_nameable {invocation : Invocation} (h : invocation.Nameable)
    (option : BindingOption) (raw : String) :
    Yields Invocation.Nameable (addBinding invocation option raw) := by
  unfold addBinding
  cases hparse : Binding.parse raw with
  | error fault => exact .error _
  | ok binding =>
      have hname := ((Binding.parse_eq_ok_iff ..).mp hparse).2
      have hadded {bindings : List Binding} (hbindings : ∀ other ∈ bindings, Nameable other.name) :
          ∀ other ∈ bindings ++ [binding], Nameable other.name :=
        List.forall_mem_append.mpr ⟨hbindings, by simpa using hname⟩
      cases option with
      | value => exact .ok ⟨hadded h.values, h.arrays⟩
      | array => exact .ok ⟨h.values, hadded h.arrays⟩

theorem readFlag_nameable (reading : Reading) (flag : Flag) :
    Yields Progress.Nameable (reading.readFlag flag) := by
  unfold readFlag
  cases reading.settle with
  | error error => exact .error error
  | ok invocation => cases flag <;> exact .ok trivial

variable {reading : Reading} (h : reading.invocation.Nameable)
include h

theorem settle_nameable : Yields Invocation.Nameable reading.settle := by
  unfold settle
  split
  · exact .ok h
  · exact .error _
  · exact addBinding_nameable h _ _
  · split
    · exact .error _
    · exact .ok ⟨h.values, h.arrays⟩

theorem readTemplate_nameable (path : String) :
    Yields (·.invocation.Nameable) (reading.readTemplate path) := by
  unfold readTemplate
  split
  · exact .error _
  · exact (settle_nameable h).bind fun invocation hinvocation => .ok hinvocation

theorem readPlain_nameable (text : String) :
    Yields (·.invocation.Nameable) (reading.readPlain text) := by
  unfold readPlain
  split
  · exact .ok h
  · exact readTemplate_nameable h text

theorem readOption_nameable (option : BindingOption) (attached : Option String) :
    Yields Progress.Nameable (reading.readOption option attached) := by
  refine (settle_nameable h).bind fun invocation hinvocation => ?_
  cases attached with
  | some raw => exact (addBinding_nameable hinvocation option raw).bind fun _ hadded => .ok hadded
  | none => exact .ok hinvocation

theorem readLong_nameable (name : String) (value : Option String) :
    Yields Progress.Nameable (reading.readLong name value) := by
  unfold readLong
  split
  · exact readOption_nameable h _ _
  · exact readFlag_nameable _ _
  · exact .error _
  · exact .error _

theorem readShort_nameable (letter : Char) (attached : Option String) :
    Yields Progress.Nameable (reading.readShort letter attached) := by
  unfold readShort
  split
  · exact readOption_nameable h _ _
  · exact readFlag_nameable _ _
  · exact .error _

theorem readTemplates_nameable (paths : List String) :
    Yields Request.Nameable (reading.readTemplates paths) := by
  induction paths generalizing reading with
  | nil => exact (settle_nameable h).bind fun invocation hinvocation => .ok hinvocation
  | cons path paths ih =>
      exact (readTemplate_nameable h path).bind fun next hnext => ih hnext

theorem readAll_nameable (arguments : List String) :
    Yields Request.Nameable (reading.readAll arguments) := by
  induction arguments generalizing reading with
  | nil => exact (settle_nameable h).bind fun invocation hinvocation => .ok hinvocation
  | cons argument rest ih =>
      have hproceed : ∀ progress : Progress, progress.Nameable →
          Yields Request.Nameable
            (match progress with
              | .more next => next.readAll rest
              | .done request => return request) := by
        rintro (next | request) hprogress
        · exact ih hprogress
        · exact .ok hprogress
      unfold readAll
      split
      · exact readTemplates_nameable h rest
      · exact (readPlain_nameable h _).bind fun next hnext => ih hnext
      · exact (readLong_nameable h _ _).bind hproceed
      · exact (readShort_nameable h _ _).bind hproceed

end Reading

theorem nameable_of_parse {arguments : List String} {invocation : Invocation}
    (h : parse arguments = .ok (.render invocation)) : invocation.Nameable :=
  @Reading.readAll_nameable .start ⟨nofun, nofun⟩ arguments _ h

/-! ## Maps that arguments make -/

def Invocation.Makes (invocation : Invocation) (values : Values) (arrays : Arrays) : Prop :=
  (valuesOf invocation.values).Same values ∧ (arraysOf invocation.arrays).Same arrays

/-- The maps whose bindings all have a text. -/
structure Writable (values : Values) (arrays : Arrays) : Prop where
  value (name : String) (h : values.contains name) : Nameable name
  array (name : String) (h : arrays.contains name) : Nameable name
  elements (name : String) (elements : List String) (h : arrays.find? name = some elements) :
    Listable elements

theorem Writable.of_same {values values' : Values} {arrays arrays' : Arrays}
    (h : Writable values arrays) (hvalues : values.Same values') (harrays : arrays.Same arrays') :
    Writable values' arrays' where
  value name hname := h.value name (by rwa [Bindings.contains, hvalues name])
  array name hname := h.array name (by rwa [Bindings.contains, harrays name])
  elements name elements helements := h.elements name elements ((harrays name).trans helements)

theorem nameable_of_occurrences_ne {bindings : List Binding} {name : String}
    (h : ∀ binding ∈ bindings, Nameable binding.name)
    (hname : (occurrences bindings name).getLast?.isSome) : Nameable name := by
  obtain ⟨value, hvalue⟩ := Option.isSome_iff_exists.mp hname
  obtain ⟨binding, hbinding, -⟩ := List.mem_map.mp (List.mem_of_getLast? hvalue)
  obtain ⟨hmem, heq⟩ := List.mem_filter.mp hbinding
  exact of_decide_eq_true heq ▸ h binding hmem

theorem Invocation.Nameable.writable {invocation : Invocation} (h : invocation.Nameable) :
    Writable (valuesOf invocation.values) (arraysOf invocation.arrays) where
  value name hname := by
    rw [Bindings.contains, find?_valuesOf] at hname
    exact nameable_of_occurrences_ne h.values hname
  array name hname := by
    rw [Bindings.contains, find?_arraysOf, Option.isSome_map] at hname
    exact nameable_of_occurrences_ne h.arrays hname
  elements name elements helements := by
    rw [find?_arraysOf] at helements
    obtain ⟨value, -, rfl⟩ := Option.map_eq_some_iff.mp helements
    exact listable_elementsOf value

/-- What the last occurrence of a name with an option says. -/
def lastGiven (given : List Occurrence) (option : BindingOption) (name : String) :
    Option String :=
  (given.reverse.find? fun occurrence =>
    occurrence.binding.name = name ∧ occurrence.option = option).map (·.binding.value)

theorem getLast?_occurrences_bindingsOf (given : List Occurrence) (option : BindingOption)
    (name : String) :
    (occurrences (bindingsOf option given) name).getLast? = lastGiven given option name := by
  simp [occurrences, bindingsOf, lastGiven, List.filter_map, List.filter_filter,
    Function.comp_def]

/--
The occurrences are those of the bindings in the maps, in any order and with
each of them as often as it may be.
-/
structure Lists (given : List Occurrence) (values : Values) (arrays : Arrays) : Prop where
  value (binding : Binding) :
    ⟨.value, binding⟩ ∈ given ↔ values.find? binding.name = some binding.value
  array (binding : Binding) :
    ⟨.array, binding⟩ ∈ given ↔
      (arrays.find? binding.name).map joinElements = some binding.value

theorem lastGiven_eq {given : List Occurrence} {option : BindingOption}
    {text? : String → Option String}
    (h : ∀ binding : Binding, ⟨option, binding⟩ ∈ given ↔ text? binding.name = some binding.value)
    (name : String) : lastGiven given option name = text? name := by
  -- All occurrences of one name say the same, so that it does not matter which is the last.
  unfold lastGiven
  cases hfind : given.reverse.find? fun occurrence =>
      occurrence.binding.name = name ∧ occurrence.option = option with
  | some last =>
      obtain ⟨found, binding⟩ := last
      obtain ⟨rfl, rfl⟩ : binding.name = name ∧ found = option := by
        simpa using List.find?_some hfind
      exact ((h binding).mp (List.mem_reverse.mp (List.mem_of_find?_eq_some hfind))).symm
  | none =>
      cases htext : text? name with
      | none => rfl
      | some value =>
          have hmem := List.mem_reverse.mpr ((h ⟨name, value⟩).mpr htext)
          simpa using List.find?_eq_none.mp hfind _ hmem

theorem Lists.makes {given : List Occurrence} {values : Values} {arrays : Arrays}
    (h : Lists given values arrays) (hwritable : Writable values arrays) :
    (Invocation.add .empty given).Makes values arrays := by
  constructor
  · intro name
    change (valuesOf ([] ++ bindingsOf .value given)).find? name = _
    rw [List.nil_append, find?_valuesOf, getLast?_occurrences_bindingsOf, lastGiven_eq h.value]
  · intro name
    change (arraysOf ([] ++ bindingsOf .array given)).find? name = _
    rw [List.nil_append, find?_arraysOf, getLast?_occurrences_bindingsOf,
      @lastGiven_eq given .array (fun name => (arrays.find? name).map joinElements) h.array]
    cases harray : arrays.find? name with
    | none => rfl
    | some elements =>
        exact congrArg some (elementsOf_joinElements (hwritable.elements name elements harray))

theorem Lists.nameable {given : List Occurrence} {values : Values} {arrays : Arrays}
    (h : Lists given values arrays) (hwritable : Writable values arrays) :
    ∀ occurrence ∈ given, Nameable occurrence.binding.name := by
  rintro ⟨option, binding⟩ hmem
  cases option with
  | value =>
      exact hwritable.value _ (Option.isSome_of_eq_some ((h.value binding).mp hmem))
  | array =>
      have hname := Option.isSome_of_eq_some ((h.array binding).mp hmem)
      exact hwritable.array _ (by rwa [Option.isSome_map] at hname)

/-- One occurrence for each of the names that has a text. -/
def listed (option : BindingOption) (names : List String) (text? : String → Option String) :
    List Occurrence :=
  names.filterMap fun name => (text? name).map fun text => ⟨option, ⟨name, text⟩⟩

theorem mem_listed_iff {option : BindingOption} {names : List String}
    {text? : String → Option String} (hnames : ∀ name, (text? name).isSome → name ∈ names)
    (occurrence : Occurrence) :
    occurrence ∈ listed option names text? ↔
      occurrence.option = option ∧
        text? occurrence.binding.name = some occurrence.binding.value := by
  simp only [listed, List.mem_filterMap, Option.map_eq_some_iff]
  constructor
  · rintro ⟨name, -, text, htext, rfl⟩
    exact ⟨rfl, htext⟩
  · rintro ⟨rfl, htext⟩
    exact ⟨_, hnames _ (Option.isSome_of_eq_some htext), _, htext, rfl⟩

theorem exists_lists (values : Values) (arrays : Arrays) :
    ∃ given, Lists given values arrays := by
  let texts (name : String) := (arrays.find? name).map joinElements
  have hvalue := @mem_listed_iff .value _ _ fun name => (values.mem_names_iff name).mpr
  have harray := @mem_listed_iff .array _ _ fun name (hname : (texts name).isSome) =>
    (arrays.mem_names_iff name).mpr (by rwa [Option.isSome_map] at hname)
  refine ⟨listed .value values.names values.find? ++ listed .array arrays.names texts,
    fun binding => ?_, fun binding => ?_⟩
  · simp only [List.mem_append, hvalue, harray, reduceCtorEq, true_and, false_and, or_false]
  · simp only [List.mem_append, hvalue, harray, reduceCtorEq, true_and, false_and, false_or, texts]

theorem exists_spelled {given : List Occurrence}
    (h : ∀ occurrence ∈ given, Nameable occurrence.binding.name) :
    ∃ arguments, Spelled given arguments := by
  induction given with
  | nil => exact ⟨_, .nil⟩
  | cons occurrence given ih =>
      obtain ⟨hname, hgiven⟩ := List.forall_mem_cons.mp h
      obtain ⟨arguments, harguments⟩ := ih hgiven
      exact ⟨_, .cons hname .longAttached harguments⟩

/--
Bindings and their texts.  A text is a binding if it has an equals sign behind
a name, and elements are read back from what lists them.  So arguments make
those maps whose bindings all have a text, each of them from any list of the
bindings, in any order; of several bindings of one name the last decides.
-/
theorem arguments_make_writable :
    (∀ raw : String,
      ((∃ binding, Binding.parse raw = .ok binding) ↔
        '=' ∈ raw.toList ∧ raw.toList.head? ≠ some '=') ∧
      ∀ binding, Binding.parse raw = .ok binding → binding.name ++ "=" ++ binding.value = raw) ∧
    (∀ name value : String, name ≠ "" → '=' ∉ name.toList →
      Binding.parse (name ++ "=" ++ value) = .ok ⟨name, value⟩) ∧
    (∀ value : String, String.intercalate "," (elementsOf value) = value) ∧
    (∀ elements : List String, (∀ element ∈ elements, ',' ∉ element.toList) → elements ≠ [""] →
      elementsOf (String.intercalate "," elements) = elements) ∧
    (∀ (values : Values) (arrays : Arrays),
      (Writable values arrays ↔
        ∃ arguments invocation, parse arguments = .ok (.render invocation) ∧
          invocation.Makes values arrays) ∧
      (Writable values arrays →
        (∃ given, Lists given values arrays) ∧
        ∀ given, Lists given values arrays →
          (∃ arguments, Spelled given arguments) ∧
          ∀ arguments, Spelled given arguments →
            ∃ invocation, parse arguments = .ok (.render invocation) ∧
              invocation.Makes values arrays)) ∧
    ∀ given arguments, Spelled given arguments →
      ∃ invocation, parse arguments = .ok (.render invocation) ∧
        ∀ name, (valuesOf invocation.values).find? name = lastGiven given .value name ∧
          (arraysOf invocation.arrays).find? name =
            (lastGiven given .array name).map elementsOf := by
  have hlists {values : Values} {arrays : Arrays} (hwritable : Writable values arrays)
      {given : List Occurrence} (hgiven : Lists given values arrays) {arguments : List String}
      (hspelled : Spelled given arguments) :
      ∃ invocation, parse arguments = .ok (.render invocation) ∧ invocation.Makes values arrays :=
    ⟨_, parse_spelled hspelled, hgiven.makes hwritable⟩
  refine ⟨fun raw => ⟨Binding.exists_parse_iff raw, fun binding hparse => ?_⟩, ?_,
    joinElements_elementsOf, fun elements hfree hne => elementsOf_joinElements ⟨hfree, hne⟩,
    fun values arrays => ⟨⟨fun hwritable => ?_, ?_⟩, fun hwritable => ⟨exists_lists values arrays,
      fun given hgiven => ⟨exists_spelled (hgiven.nameable hwritable),
        fun arguments => hlists hwritable hgiven⟩⟩⟩, ?_⟩
  · exact ((Binding.parse_eq_ok_iff ..).mp hparse).1
  · intro name value hne hname
    exact (Binding.parse_eq_ok_iff _ ⟨name, value⟩).mpr ⟨rfl, hne, hname⟩
  · obtain ⟨given, hgiven⟩ := exists_lists values arrays
    obtain ⟨arguments, hspelled⟩ := exists_spelled (hgiven.nameable hwritable)
    exact ⟨arguments, hlists hwritable hgiven hspelled⟩
  · rintro ⟨arguments, invocation, hparse, hvalues, harrays⟩
    exact (nameable_of_parse hparse).writable.of_same hvalues harrays
  · intro given arguments hspelled
    refine ⟨_, parse_spelled hspelled, fun name => ?_⟩
    rw [find?_valuesOf, find?_arraysOf]
    exact ⟨getLast?_occurrences_bindingsOf given .value name,
      congrArg (Option.map elementsOf) (getLast?_occurrences_bindingsOf given .array name)⟩

/-- A value with an equals sign, an array with an empty element, a name given twice. -/
theorem arguments_make_writable_repeated :
    let arguments := ["--array=x=a,,b", "-v", "x=1=1"]
    let values : Values := .ofList [("x", "1=1")]
    let arrays : Arrays := .ofList [("x", ["a", "", "b"])]
    Binding.parse ("x" ++ "=" ++ "1=1") = .ok ⟨"x", "1=1"⟩ ∧
      elementsOf (String.intercalate "," ["a", "", "b"]) = ["a", "", "b"] ∧
      (∃ invocation, parse arguments = .ok (.render invocation) ∧
        invocation.Makes values arrays) ∧
      ∃ invocation, parse ("-vx=0" :: arguments) = .ok (.render invocation) ∧
        (valuesOf invocation.values).find? "x" = some "1=1" := by
  intro arguments values arrays
  obtain ⟨-, hparse, -, hsplit, hmake, hlast⟩ := arguments_make_writable
  let given : List Occurrence := [⟨.array, ⟨"x", "a,,b"⟩⟩, ⟨.value, ⟨"x", "1=1"⟩⟩]
  have hx : Nameable "x" := ⟨by decide, by decide⟩
  have hspelled : Spelled given arguments :=
    .cons hx .longAttached (.cons hx (.shortApart (by decide)) .nil)
  have hvalues (name : String) : values.find? name = if name = "x" then some "1=1" else none :=
    Bindings.find?_put ..
  have harrays (name : String) :
      arrays.find? name = if name = "x" then some ["a", "", "b"] else none :=
    Bindings.find?_put ..
  have hwritable : Writable values arrays := by
    refine ⟨fun name h => ?_, fun name h => ?_, fun name elements h => ?_⟩
    · rw [Bindings.contains, hvalues] at h
      split at h <;> simp_all
    · rw [Bindings.contains, harrays] at h
      split at h <;> simp_all
    · rw [harrays] at h
      split at h <;> cases h
      exact ⟨by decide, by decide⟩
  have hlists : Lists given values arrays := by
    have hjoin : joinElements ["a", "", "b"] = "a,,b" := by decide
    refine ⟨fun binding => ?_, fun binding => ?_⟩
    · obtain ⟨name, value⟩ := binding
      rw [hvalues]
      by_cases hname : name = "x" <;> simp [given, hname, eq_comm]
    · obtain ⟨name, value⟩ := binding
      rw [harrays]
      by_cases hname : name = "x" <;> simp [given, hname, hjoin, eq_comm]
  refine ⟨hparse "x" "1=1" (by decide) (by decide), hsplit _ (by decide) (by decide),
    ((hmake values arrays).2 hwritable).2 given hlists |>.2 arguments hspelled, ?_⟩
  obtain ⟨invocation, hinvocation, hfind⟩ :=
    hlast (⟨.value, ⟨"x", "0"⟩⟩ :: given) _ (.cons hx (.shortAttached (by decide)) hspelled)
  exact ⟨invocation, hinvocation, (hfind "x").1⟩

end Stencil.CommandLine
