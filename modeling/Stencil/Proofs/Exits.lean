import Stencil.CommandLine.Run
import Stencil.Proofs.Contents

/-!
# Exits

What the command does when its arguments ask for a rendering.  The exit is
decided by what the source reads as and by the rendering alone: bindings count
as the maps that they make, in which the last of several for one name stays.
-/

namespace Stencil

/-! ## Renderings against the same maps -/

section Same

variable {values values' : Values} {arrays arrays' : Arrays}

theorem sameShape_of_same (hvalues : values.Same values') (harrays : arrays.Same arrays') :
    SameShape values values' arrays arrays' where
  value name := by rw [Bindings.contains, hvalues name, Bindings.contains]
  array name := by rw [harrays name]

theorem valueIn_of_same (hvalues : values.Same values') (scope : List (String × String))
    (name : String) : valueIn values scope name = valueIn values' scope name := by
  simp only [valueIn, hvalues name]

theorem Body.evaluate_of_same (hvalues : values.Same values') (harrays : arrays.Same arrays')
    {ending : Ending} (body : Body ending) (scope : List (String × String)) :
    body.evaluate values arrays scope = body.evaluate values' arrays' scope := by
  induction body generalizing scope with
  | endOfInput | loopEnd | broken => rfl
  | brokenValue name => simp only [evaluate, valueIn_of_same hvalues]
  | literal text rest ih => simp only [evaluate, ih]
  | value name rest ih => simp only [evaluate, valueIn_of_same hvalues, ih]
  | loop array item inside rest ihInside ihRest =>
      simp only [evaluate, harrays array, ihInside, ihRest]
  | openLoop array item inside _ ih => simp only [evaluate, harrays array, ih]

/-- A rendering depends on its bindings as maps, and not on the order of their entries. -/
theorem render_of_same (hvalues : values.Same values') (harrays : arrays.Same arrays')
    (template before : String) :
    let first := render values arrays template (.unlimited before)
    let second := render values' arrays' template (.unlimited before)
    first.result = second.result ∧ first.sink.text = second.sink.text := by
  have hshape := sameShape_of_same hvalues harrays
  obtain ⟨-, hresult⟩ := render_alike hshape template before before .trace
  obtain ⟨ending, outline, after, hreads⟩ :=
    Body.exists_readsAs (.ofBindings values arrays) [] (.ofTemplate template)
  have hnames : Names.ofBindings values arrays = .ofBindings values' arrays' :=
    congrArg Shape.toNames hshape.shape_eq
  obtain ⟨-, hpieces, -⟩ := render_of_readsAs hreads before
  obtain ⟨-, hpieces', -⟩ := render_of_readsAs (hnames ▸ hreads) before
  refine ⟨hresult, ?_⟩
  unfold Sink.text
  rw [← Array.foldl_toList, ← Array.foldl_toList, hpieces, hpieces', render_before, render_before,
    outline.evaluate_of_same hvalues harrays]

end Same

namespace CommandLine

/-! ## Bindings as maps -/

/-- What the bindings of one name say, in the order given. -/
def occurrences (bindings : List Binding) (name : String) : List String :=
  (bindings.filter (·.name = name)).map (·.value)

theorem find?_ofList {α : Type} (pairs : List (String × α)) (name : String) :
    (Bindings.ofList pairs).find? name =
      ((pairs.filter (·.1 = name)).map Prod.snd).getLast? := by
  induction pairs using List.reverseRecOn with
  | nil => rfl
  | append_singleton pairs pair ih =>
      obtain ⟨other, value⟩ := pair
      rw [Bindings.ofList_append, Bindings.find?_put, ih, List.filter_append, List.map_append]
      by_cases h : name = other
      · simp [h]
      · simp [h, Ne.symm h]

theorem find?_valuesOf (bindings : List Binding) (name : String) :
    (valuesOf bindings).find? name = (occurrences bindings name).getLast? := by
  simp [valuesOf, occurrences, find?_ofList, List.filter_map, Function.comp_def]

theorem find?_arraysOf (bindings : List Binding) (name : String) :
    (arraysOf bindings).find? name = (occurrences bindings name).getLast?.map elementsOf := by
  simp [arraysOf, occurrences, find?_ofList, List.filter_map, Function.comp_def,
    List.getLast?_map]

/-- The bindings of each kind and name are the same and in the same order. -/
structure Invocation.Reorders (first second : Invocation) : Prop where
  template : first.template = second.template
  values (name : String) : occurrences first.values name = occurrences second.values name
  arrays (name : String) : occurrences first.arrays name = occurrences second.arrays name

/-! ## Reading the source -/

/-- Why no template can be read from a source. -/
inductive Unreadable : Except ReadFailure ByteArray → ReadFailure → Prop
  | failed (failure : ReadFailure) : Unreadable (.error failure) failure
  | undecodable (bytes : ByteArray) (h : ∀ template : String, bytes ≠ template.toUTF8) :
      Unreadable (.ok bytes) .notUtf8

theorem decode_eq_ok_iff (bytes : ByteArray) (template : String) :
    decode bytes = .ok template ↔ bytes = template.toUTF8 := by
  unfold decode String.fromUTF8?
  by_cases hvalid : bytes.IsValidUTF8
  · rw [dif_pos hvalid]
    exact ⟨fun h => by cases h; rfl, fun h => by subst h; rfl⟩
  · rw [dif_neg hvalid]
    refine ⟨nofun, fun h => ?_⟩
    subst h
    exact absurd template.isValidUTF8 hvalid

theorem bind_decode_of_unreadable {content : Except ReadFailure ByteArray} {failure : ReadFailure}
    (h : Unreadable content failure) : content >>= decode = .error failure := by
  cases h with
  | failed failure => rfl
  | undecodable bytes h =>
      change decode bytes = .error .notUtf8
      have hnone : String.fromUTF8? bytes = none := by
        cases hdecode : String.fromUTF8? bytes with
        | none => rfl
        | some template =>
            refine absurd ((decode_eq_ok_iff bytes template).mp ?_) (h template)
            rw [decode, hdecode]
      rw [decode, hnone]

/-! ## The exit -/

theorem run_of_parse {arguments : List String} {invocation : Invocation}
    (hparse : parse arguments = .ok (.render invocation))
    (read : Source → Except ReadFailure ByteArray) :
    run arguments read = invocation.exit (read invocation.source) := by
  rw [run, hparse]

theorem source_eq_file_iff (invocation : Invocation) (path : String) :
    invocation.source = .file path ↔ invocation.template = some path ∧ path ≠ "-" := by
  unfold Invocation.source
  split <;> simp_all
  rintro rfl
  assumption

theorem Invocation.Reorders.exit_eq {first second : Invocation} (h : first.Reorders second)
    (content : Except ReadFailure ByteArray) : first.exit content = second.exit content := by
  have hsource : first.source = second.source := by
    rw [Invocation.source, h.template, Invocation.source]
  have hvalues : (valuesOf first.values).Same (valuesOf second.values) := fun name => by
    rw [find?_valuesOf, find?_valuesOf, h.values]
  have harrays : (arraysOf first.arrays).Same (arraysOf second.arrays) := fun name => by
    rw [find?_arraysOf, find?_arraysOf, h.arrays]
  unfold Invocation.exit
  cases content >>= decode with
  | error failure => simp only [Exit.ofReadFailure, h.template]
  | ok template =>
      obtain ⟨hresult, htext⟩ := render_of_same hvalues harrays template ""
      simp only [Exit.ofOutcome, hsource, hresult, htext]

/--
The command and the library.  A source that is not readable as text ends the
command with code 2 and is named as the argument named it.  Otherwise the
output is the text that the rendering left in its sink, whether it succeeded
or not, and the code and the report tell which; the last binding of a name
counts, and no more than that of the order in which bindings were given.
-/
theorem run_renders {arguments : List String} {invocation : Invocation}
    (hparse : parse arguments = .ok (.render invocation))
    (read : Source → Except ReadFailure ByteArray) :
    let exit := run arguments read
    let source := invocation.source
    (∀ path, source = .file path ↔ invocation.template = some path ∧ path ≠ "-") ∧
    (∀ failure, Unreadable (read source) failure →
      exit = ⟨2, "", invocation.template.getD "<stdin>" ++ ": " ++ failure.message ++ "\n"⟩) ∧
    (∀ template : String, read source = .ok template.toUTF8 →
      ∀ (values : Values) (arrays : Arrays),
        (∀ name, values.find? name = (occurrences invocation.values name).getLast?) →
        (∀ name, arrays.find? name =
          (occurrences invocation.arrays name).getLast?.map elementsOf) →
        let outcome := render values arrays template (.unlimited "")
        exit.stdout = outcome.sink.text ∧
          (exit.code = 0 ∧ exit.stderr = "" ↔ outcome.result = .ok ()) ∧
          ∀ error, outcome.result = .error error →
            exit.code = 1 ∧ exit.stderr = source.label ++ ": " ++ error.message ++ "\n") ∧
    ∀ (arguments' : List String) (invocation' : Invocation),
      parse arguments' = .ok (.render invocation') → invocation.Reorders invocation' →
      run arguments' read = exit := by
  intro exit source
  have hexit : exit = invocation.exit (read source) := run_of_parse hparse read
  refine ⟨source_eq_file_iff invocation, ?_, ?_, ?_⟩
  · intro failure hfailure
    rw [hexit, Invocation.exit, bind_decode_of_unreadable hfailure]
    rfl
  · intro template hread values arrays hvalues harrays outcome
    have hdecode : read source >>= decode = .ok template := by
      rw [hread]
      exact (decode_eq_ok_iff ..).mpr rfl
    obtain ⟨hresult, htext⟩ := render_of_same
      (fun name => (find?_valuesOf invocation.values name).trans (hvalues name).symm)
      (fun name => (find?_arraysOf invocation.arrays name).trans (harrays name).symm)
      template ""
    rw [hexit, Invocation.exit, hdecode]
    simp only [Exit.ofOutcome, hresult, htext]
    change _ ∧ (_ ↔ outcome.result = _) ∧ ∀ error, outcome.result = _ → _
    cases houtcome : outcome.result with
    | ok value => simp [outcome]
    | error error =>
        refine ⟨rfl, by simp, fun other hother => ?_⟩
        obtain rfl := Except.error.inj hother
        exact ⟨rfl, rfl⟩
  · intro arguments' invocation' hparse' hreorders
    rw [hexit, run_of_parse hparse' read]
    have htemplate : invocation'.source = source := by
      rw [Invocation.source, ← hreorders.template]
      rfl
    rw [htemplate, hreorders.exit_eq]

/-- Of two values for one name the last counts, also with an array between them. -/
theorem run_renders_last_value :
    let arguments := ["--var", "x=1", "--array", "x=a,b", "-vx=2", "-"]
    let reordered := ["--array=x=a,b", "-v", "x=1", "-", "-v", "x=2"]
    let read : Source → Except ReadFailure ByteArray :=
      fun _ => .ok "\x7b\x7bx\x7d\x7d\x7b\x7by\x7d\x7d".toUTF8
    run reordered read = run arguments read ∧
      run arguments read = ⟨1, "2", "<stdin>: Identifier 'y' is undefined\n"⟩ := by
  intro arguments reordered read
  let invocation : Invocation := ⟨[⟨"x", "1"⟩, ⟨"x", "2"⟩], [⟨"x", "a,b"⟩], some "-"⟩
  have hparse : parse arguments = .ok (.render invocation) := by decide +kernel
  have hparse' : parse reordered = .ok (.render invocation) := by decide +kernel
  obtain ⟨-, -, hrenders, hreorders⟩ := run_renders hparse read
  refine ⟨hreorders reordered invocation hparse' ⟨rfl, fun _ => rfl, fun _ => rfl⟩, ?_⟩
  have hvalues (name : String) : (Bindings.ofList [("x", "2")]).find? name =
      (occurrences invocation.values name).getLast? := by
    rw [find?_ofList]
    by_cases h : "x" = name <;> simp [invocation, occurrences, h]
  have harrays (name : String) : (Bindings.ofList [("x", ["a", "b"])]).find? name =
      (occurrences invocation.arrays name).getLast?.map elementsOf := by
    rw [find?_ofList]
    by_cases h : "x" = name <;> simp [invocation, occurrences, h]
    rfl
  obtain ⟨hstdout, -, herror⟩ := hrenders _ rfl _ _ hvalues harrays
  obtain ⟨hcode, hstderr⟩ := herror (.unresolved (.undefinedIdentifier "y")) (by decide +kernel)
  generalize run arguments read = exit at hstdout hcode hstderr ⊢
  obtain ⟨code, stdout, stderr⟩ := exit
  obtain rfl : code = 1 := hcode
  obtain rfl : stdout = "2" := hstdout.trans (by decide +kernel)
  obtain rfl : stderr = "<stdin>: Identifier 'y' is undefined\n" := hstderr
  rfl

end CommandLine

end Stencil
