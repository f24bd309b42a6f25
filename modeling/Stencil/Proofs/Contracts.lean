import Stencil.Proofs.Walks

/-!
# Contracts

A step meets a contract if it comes from every state of one kind to a state of
another, or else fails in a state of a third.  What the steps of a rendering
meet, one behind the other, makes up what the whole rendering meets.  A step
fulfils a contract that also says with which errors it may fail.
-/

namespace Stencil

namespace Rendering

/-! ## Contracts about errors -/

section Fulfils

variable {α β : Type} {before : Run → Prop} {between : α → Run → Prop}
  {after : β → Run → Prop} {failed : RenderError → Run → Prop}

def Fulfils (step : Rendering α) (before : Run → Prop) (after : α → Run → Prop)
    (failed : RenderError → Run → Prop) : Prop :=
  ∀ run : Run, before run →
    match step run with
    | .ok value later => after value later
    | .error error later => failed error later

theorem Fulfils.bind {first : Rendering α} {second : α → Rendering β}
    (h : first.Fulfils before between failed)
    (hsecond : ∀ value, (second value).Fulfils (between value) after failed) :
    (first >>= second).Fulfils before after failed := by
  intro run hrun
  have hfirst := h run hrun
  cases hresult : first run with
  | ok value later =>
      rw [hresult] at hfirst
      rw [bind_ok hresult]
      exact hsecond value later hfirst
  | error error later =>
      rw [hresult] at hfirst
      rw [bind_error hresult]
      exact hfirst

/-- What is known of the value of the first step does not depend on the state. -/
theorem Fulfils.bind_fact {first : Rendering α} {second : α → Rendering β} {fact : α → Prop}
    (h : first.Fulfils before (fun value run => fact value ∧ between value run) failed)
    (hsecond : ∀ value, fact value → (second value).Fulfils (between value) after failed) :
    (first >>= second).Fulfils before after failed :=
  h.bind fun value run hrun => hsecond value hrun.1 run hrun.2

theorem Fulfils.mono {step : Rendering α} {before' : Run → Prop} {after' : α → Run → Prop}
    (h : step.Fulfils before between failed) (hbefore : ∀ run, before' run → before run)
    (hafter : ∀ value run, between value run → after' value run) :
    step.Fulfils before' after' failed := by
  intro run hrun
  have hstep := h run (hbefore run hrun)
  cases hresult : step run with
  | ok value later =>
      rw [hresult] at hstep
      exact hafter value later hstep
  | error error later =>
      rw [hresult] at hstep
      exact hstep

theorem Fulfils.discard {step : Rendering α} {after : Run → Prop}
    (h : step.Fulfils before (fun _ => after) failed) :
    (discard step).Fulfils before (fun _ => after) failed := by
  intro run hrun
  have hstep := h run hrun
  simp only [Functor.discard, Functor.mapConst, EStateM.map, Function.comp]
  cases hresult : step run <;> rw [hresult] at hstep <;> exact hstep

theorem Fulfils.of_get {second : Run → Rendering β}
    (h : ∀ run, before run → (second run).Fulfils before after failed) :
    (get >>= second).Fulfils before after failed :=
  fun run hrun => h run hrun run hrun

theorem fulfils_pure {value : α} (h : ∀ run, before run → between value run) :
    (pure value : Rendering α).Fulfils before between failed := h

theorem fulfils_throw {error : RenderError} (h : ∀ run, before run → failed error run) :
    (throw error : Rendering α).Fulfils before between failed := h

theorem fulfils_note {event : Event} {after : Run → Prop}
    (h : ∀ run, before run → after (run.note event)) :
    (note event).Fulfils before (fun _ => after) failed := h

theorem fulfils_scan {site : Site} {after : Token → Run → Prop}
    (hok : ∀ run mark, before run → run.cursor.scan.1 = .ok mark →
      after (mark.1.token run.loops mark.2) (run.scanned site))
    (herror : ∀ run error, before run → run.cursor.scan.1 = .error error →
      failed (.lexical error) (run.scanned site)) :
    (scan site).Fulfils before after failed := by
  intro run hrun
  rw [scan_eq]
  cases hreading : run.cursor.scan.1 with
  | ok mark => exact hok run mark hrun hreading
  | error error => exact herror run error hrun hreading

theorem fulfils_write {piece : String} {after : Run → Prop}
    (hok : ∀ run, before run → run.sink.accepts = true → after (run.wrote piece))
    (herror : ∀ run, before run → run.sink.accepts = false →
      failed .refusedWrite (run.note (.refused piece))) :
    (write piece).Fulfils before (fun _ => after) failed := by
  intro run hrun
  unfold write
  rw [bind_get]
  cases haccepts : run.sink.accepts with
  | true => exact hok run hrun haccepts
  | false => exact herror run hrun haccepts

theorem fulfils_demand {kind : TokenKind} {scanned after : Token → Run → Prop}
    (hscan : (scan .tag).Fulfils before scanned failed)
    (hok : ∀ token run, token.kind = kind → scanned token run → after token run)
    (herror : ∀ token run, token.kind ≠ kind → scanned token run →
      failed (.grammar (.expected kind token)) run) :
    (demand kind).Fulfils before after failed := by
  apply Fulfils.bind hscan
  intro token run hrun
  by_cases hkind : token.kind = kind
  · rw [if_pos hkind]
    exact hok token run hkind hrun
  · rw [if_neg hkind]
    exact herror token run hkind hrun

theorem fulfils_resolve {found : Except NameError α}
    (hok : ∀ value run, found = .ok value → before run → between value run)
    (herror : ∀ error run, found = .error error → before run → failed (.unresolved error) run) :
    (resolve found).Fulfils before between failed := by
  intro run hrun
  cases found with
  | ok value => exact hok value run rfl hrun
  | error error => exact herror error run rfl hrun

theorem fulfils_forM {step : String → Rendering Unit} {steady : Run → Prop}
    (h : ∀ element, (step element).Fulfils steady (fun _ => steady) failed)
    (elements : List String) :
    (elements.forM step).Fulfils steady (fun _ => steady) failed := by
  induction elements with
  | nil => exact fulfils_pure fun _ hrun => hrun
  | cons element elements ih => exact (h element).bind fun _ => ih

end Fulfils

/-! ## Contracts whatever the error -/

section Meets

variable {α β : Type} {before failed : Run → Prop} {between : α → Run → Prop}
  {after : β → Run → Prop}

def Meets (step : Rendering α) (before : Run → Prop) (after : α → Run → Prop)
    (failed : Run → Prop) : Prop :=
  ∀ run : Run, before run →
    match step run with
    | .ok value later => after value later
    | .error _ later => failed later

theorem meets_iff (step : Rendering α) :
    step.Meets before between failed ↔ step.Fulfils before between fun _ => failed := .rfl

theorem Meets.bind {first : Rendering α} {second : α → Rendering β}
    (h : first.Meets before between failed)
    (hsecond : ∀ value, (second value).Meets (between value) after failed) :
    (first >>= second).Meets before after failed :=
  Fulfils.bind ((meets_iff _).mp h) hsecond

theorem Meets.bind_fact {first : Rendering α} {second : α → Rendering β} {fact : α → Prop}
    (h : first.Meets before (fun value run => fact value ∧ between value run) failed)
    (hsecond : ∀ value, fact value → (second value).Meets (between value) after failed) :
    (first >>= second).Meets before after failed :=
  h.bind fun value run hrun => hsecond value hrun.1 run hrun.2

theorem Meets.after_mono {step : Rendering α} {after' : α → Run → Prop}
    (h : step.Meets before between failed)
    (hafter : ∀ value run, between value run → after' value run) :
    step.Meets before after' failed :=
  ((meets_iff _).mp h).mono (fun _ => id) hafter

theorem Meets.discard {step : Rendering α} {after : Run → Prop}
    (h : step.Meets before (fun _ => after) failed) :
    (discard step).Meets before (fun _ => after) failed :=
  ((meets_iff _).mp h).discard

theorem Meets.of_get {second : Run → Rendering β}
    (h : ∀ run, before run → (second run).Meets before after failed) :
    (get >>= second).Meets before after failed :=
  fun run hrun => h run hrun run hrun

theorem meets_pure {value : α} (h : ∀ run, before run → between value run) :
    (pure value : Rendering α).Meets before between failed := h

theorem meets_throw {error : RenderError} (h : ∀ run, before run → failed run) :
    (throw error : Rendering α).Meets before between failed := h

theorem meets_note {event : Event} {after : Run → Prop}
    (h : ∀ run, before run → after (run.note event)) :
    (note event).Meets before (fun _ => after) failed := h

theorem meets_scan {site : Site} {after : Token → Run → Prop}
    (hok : ∀ run mark, before run → run.cursor.scan.1 = .ok mark →
      after (mark.1.token run.loops mark.2) (run.scanned site))
    (herror : ∀ run error, before run → run.cursor.scan.1 = .error error →
      failed (run.scanned site)) :
    (scan site).Meets before after failed :=
  fulfils_scan hok herror

theorem meets_write {piece : String} {after : Run → Prop}
    (hok : ∀ run, before run → run.sink.accepts = true → after (run.wrote piece))
    (herror : ∀ run, before run → run.sink.accepts = false →
      failed (run.note (.refused piece))) :
    (write piece).Meets before (fun _ => after) failed :=
  fulfils_write hok herror

theorem meets_demand {kind : TokenKind} {scanned after : Token → Run → Prop}
    (hscan : (scan .tag).Meets before scanned failed)
    (hok : ∀ token run, token.kind = kind → scanned token run → after token run)
    (herror : ∀ token run, token.kind ≠ kind → scanned token run → failed run) :
    (demand kind).Meets before after failed :=
  fulfils_demand ((meets_iff _).mp hscan) hok herror

theorem meets_resolve {found : Except NameError α}
    (hok : ∀ value run, found = .ok value → before run → between value run)
    (herror : ∀ error run, found = .error error → before run → failed run) :
    (resolve found).Meets before between failed :=
  fulfils_resolve hok herror

theorem meets_forM {step : String → Rendering Unit} {steady : Run → Prop}
    (h : ∀ element, (step element).Meets steady (fun _ => steady) failed)
    (elements : List String) :
    (elements.forM step).Meets steady (fun _ => steady) failed :=
  fulfils_forM (fun element => (meets_iff _).mp (h element)) elements

end Meets

/-! ## Two steps side by side -/

/-- Two results, of which both fail or none does. -/
inductive Both {α β : Type} (values : α → β → Prop) (after : Run → Run → Prop)
    (failed : RenderError → RenderError → Run → Run → Prop) :
    EStateM.Result RenderError Run α → EStateM.Result RenderError Run β → Prop
  | ok {value : α} {value' : β} {run run' : Run} (hvalues : values value value')
      (hafter : after run run') : Both values after failed (.ok value run) (.ok value' run')
  | error {error error' : RenderError} {run run' : Run} (hfailed : failed error error' run run') :
      Both values after failed (.error error run) (.error error' run')

section Both

variable {α β α' β' : Type} {values : α → β → Prop} {values' : α' → β' → Prop}
  {after after' : Run → Run → Prop} {failed : RenderError → RenderError → Run → Run → Prop}
  {first : Rendering α} {first' : Rendering β} {second : α → Rendering α'}
  {second' : β → Rendering β'} {run run' : Run}

/-- What holds of results after two faults, and after the next steps, holds of both steps. -/
theorem Both.bind_to {related : EStateM.Result RenderError Run α' →
      EStateM.Result RenderError Run β' → Prop}
    (h : Both values after failed (first run) (first' run'))
    (herror : ∀ error error' later later', failed error error' later later' →
      related (.error error later) (.error error' later'))
    (hnext : ∀ value value' later later', values value value' → after later later' →
      related (second value later) (second' value' later')) :
    related ((first >>= second) run) ((first' >>= second') run') := by
  generalize hresult : first run = result, hresult' : first' run' = result' at h
  cases h with
  | ok hvalues hafter =>
      rw [bind_ok hresult, bind_ok hresult']
      exact hnext _ _ _ _ hvalues hafter
  | error hfailed =>
      rw [bind_error hresult, bind_error hresult']
      exact herror _ _ _ _ hfailed

theorem Both.bind (h : Both values after failed (first run) (first' run'))
    (hnext : ∀ value value' later later', values value value' → after later later' →
      Both values' after' failed (second value later) (second' value' later')) :
    Both values' after' failed ((first >>= second) run) ((first' >>= second') run') :=
  h.bind_to (fun _ _ _ _ => .error) hnext

theorem Both.discard (h : Both values after failed (first run) (first' run')) :
    Both (fun _ _ => True) after failed (discard first run) (discard first' run') := by
  simp only [Functor.discard, Functor.mapConst, EStateM.map, Function.comp]
  generalize first run = result, first' run' = result' at h
  cases h with
  | ok _ hafter => exact .ok trivial hafter
  | error hfailed => exact .error hfailed

end Both

end Rendering

end Stencil
