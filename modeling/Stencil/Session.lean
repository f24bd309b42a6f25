import Stencil.Rendering

/-!
# Sessions

A session renders templates one after the other against the same bindings.  A
rendering that fails leaves the frames of its open loops behind; they are
closed when the next one begins, so that no rendering sees what another did.
-/

namespace Stencil

structure Outcome where
  result : Except RenderError Unit
  sink : Sink
  journal : Journal

structure Session where
  environment : Environment

namespace Session

def ofBindings (values : Values) (arrays : Arrays) : Session := ⟨.ofBindings values arrays⟩

def render (session : Session) (template : String) (sink : Sink) : Outcome × Session :=
  let start : Run := ⟨.ofTemplate template, 0, session.environment.reset, sink, #[]⟩
  match (Rendering.renderTemplate template).run start with
  | .ok _ run => (⟨.ok (), run.sink, run.journal⟩, ⟨run.environment⟩)
  | .error error run => (⟨.error error, run.sink, run.journal⟩, ⟨run.environment⟩)

def renderAll (session : Session) : List (String × Sink) → List Outcome × Session
  | [] => ([], session)
  | (template, sink) :: rest =>
      let (outcome, session) := session.render template sink
      let (outcomes, session) := session.renderAll rest
      (outcome :: outcomes, session)

end Session

def render (values : Values) (arrays : Arrays) (template : String) (sink : Sink) : Outcome :=
  ((Session.ofBindings values arrays).render template sink).1

/-- The text a template comes to, all of it or none. -/
def renderText (values : Values) (arrays : Arrays) (template : String) :
    Except RenderError String :=
  let outcome := render values arrays template (.unlimited "")
  match outcome.result with
  | .ok _ => .ok outcome.sink.text
  | .error error => .error error

end Stencil
