import Stencil.Proofs.Walks

/-!
# Sessions

What one rendering of a session does is no concern of the next.  Items of
loops are bound in the frames of their loops only, so that the root stays as
it was, and whatever frames a rendering leaves are closed when another begins.
-/

namespace Stencil

namespace Environment

theorem root_leave (environment : Environment) : environment.leave.2.root = environment.root := by
  rcases environment with ⟨_ | ⟨inner, outer⟩, root⟩ <;> rfl

theorem depth_leave (environment : Environment) :
    environment.leave.2.depth = environment.depth - 1 := by
  rcases environment with ⟨_ | ⟨inner, outer⟩, root⟩ <;> rfl

theorem root_define {environment : Environment} (h : 0 < environment.depth)
    (name value : String) : (environment.define name value).root = environment.root := by
  rcases environment with ⟨_ | ⟨inner, outer⟩, root⟩
  · cases h
  · rfl

theorem eq_of_depth {environment : Environment} (h : environment.depth = 0) :
    environment = ⟨[], environment.root⟩ := by
  rcases environment with ⟨_ | ⟨inner, outer⟩, root⟩
  · rfl
  · cases h

end Environment

/-! ## The root of a rendering -/

/-- There is a frame for each open loop, and at the bottom the same frame as ever. -/
structure Situation.Rooted (bottom : Frame) (situation : Situation) : Prop where
  root : situation.run.environment.root = bottom
  depth : situation.run.environment.depth = situation.loops.length
  moments : ∀ moment ∈ situation.run.journal, moment.environment.root = bottom

namespace Situation

variable {bottom : Frame} {run : Run} {loops : List OpenLoop} {situation next : Situation}

theorem Rooted.note (h : Rooted bottom ⟨run, loops⟩) (event : Event) :
    Rooted bottom ⟨run.note event, loops⟩ where
  root := h.root
  depth := h.depth
  moments moment hmoment := by
    rcases Array.mem_push.mp hmoment with hmoment | rfl
    · exact h.moments moment hmoment
    · exact h.root

theorem Step.rooted (h : Step situation next) (hrooted : Rooted bottom situation) :
    Rooted bottom next := by
  obtain ⟨hroot, hdepth, hmoments⟩ := hrooted
  cases h with
  | start run bytes => exact (Rooted.note ⟨hroot, hdepth, hmoments⟩ _).note _
  | move hmove loops =>
      cases hmove with
      | scan site | write piece | refuse piece =>
          apply Rooted.note
          exact ⟨hroot, hdepth, hmoments⟩
  | enter run frame array item elements emit _ loops =>
      apply Rooted.note
      refine ⟨hroot, ?_, hmoments⟩
      rw [Environment.depth_enter, hdepth, List.length_cons]
  | begin run start passes item value emit loops =>
      -- The loop whose pass begins has a frame, so that its item is bound there.
      have hinside : 0 < run.environment.depth := hdepth ▸ Nat.succ_pos _
      apply Rooted.note
      refine ⟨?_, ?_, hmoments⟩
      · rw [Environment.root_define hinside, hroot]
      · rw [Environment.depth_define, hdepth]
        rfl
  | passEnded run loops => exact Rooted.note ⟨hroot, hdepth, hmoments⟩ _
  | leave run frame loop loops =>
      apply Rooted.note
      refine ⟨?_, ?_, hmoments⟩
      · rw [Environment.root_leave, hroot]
      · rw [Environment.depth_leave, hdepth]
        rfl
  | finish run offset => exact Rooted.note ⟨hroot, hdepth, hmoments⟩ _

theorem Walk.rooted (h : Walk situation next) (hrooted : Rooted bottom situation) :
    Rooted bottom next :=
  h.keeps (fun _ _ => Step.rooted) hrooted

end Situation

/-! ## One rendering after the other -/

namespace Session

variable {bottom : Frame} {session : Session}

/-- A rendering leaves the root alone, and leaves nothing else unless it fails. -/
theorem render_rooted (hroot : session.environment.root = bottom) (template : String)
    (sink : Sink) :
    let (outcome, later) := session.render template sink
    later.environment.root = bottom ∧
      (∀ moment ∈ outcome.journal, moment.environment.root = bottom) ∧
      (outcome.result = .ok () → later.environment = ⟨[], bottom⟩) := by
  obtain ⟨last, loops, hwalk, -, hjournal, henvironment, hok⟩ :=
    session.render_walks template sink
  have hstart : Situation.Rooted bottom ⟨session.start template sink, []⟩ :=
    ⟨hroot, rfl, by simp [start]⟩
  obtain ⟨hlast, hdepth, hmoments⟩ := hwalk.rooted hstart
  dsimp only
  rw [henvironment, hjournal]
  refine ⟨hlast, hmoments, fun hresult => ?_⟩
  obtain rfl := hok hresult
  rw [Environment.eq_of_depth hdepth, hlast]

/-- Only the root of a session bears on what a rendering comes to. -/
theorem render_eq_of_root {other : Session}
    (hroot : session.environment.root = other.environment.root) (template : String)
    (sink : Sink) : session.render template sink = other.render template sink := by
  have hreset : session.environment.reset = other.environment.reset := by
    simp only [Environment.reset, hroot]
  simp only [render, hreset]

theorem renderAll_rooted (hroot : session.environment.root = bottom)
    (requests : List (String × Sink)) :
    (session.renderAll requests).2.environment.root = bottom ∧
      ∀ outcome ∈ (session.renderAll requests).1, ∀ moment ∈ outcome.journal,
        moment.environment.root = bottom := by
  induction requests generalizing session with
  | nil => exact ⟨hroot, by simp [renderAll]⟩
  | cons request requests ih =>
      obtain ⟨template, sink⟩ := request
      obtain ⟨hlater, hmoments, -⟩ := render_rooted hroot template sink
      obtain ⟨hlast, hrest⟩ := ih hlater
      refine ⟨hlast, fun outcome houtcome => ?_⟩
      rcases List.mem_cons.mp houtcome with rfl | houtcome
      · exact hmoments
      · exact hrest outcome houtcome

theorem renderAll_eq_map {other : Session}
    (hroot : session.environment.root = other.environment.root)
    (requests : List (String × Sink)) :
    (session.renderAll requests).1 =
      requests.map fun request => (other.render request.1 request.2).1 := by
  induction requests generalizing session with
  | nil => rfl
  | cons request requests ih =>
      obtain ⟨template, sink⟩ := request
      obtain ⟨hlater, -⟩ := render_rooted hroot template sink
      rw [List.map_cons, ← ih hlater, ← render_eq_of_root hroot]
      rfl

end Session

/--
Renderings of one session do not bear on each other, be it that they fail or
that their sinks refuse.  The root is the same at every moment of each, and a
rendering that succeeds leaves the session as it was at first.
-/
theorem renderings_apart (values : Values) (arrays : Arrays)
    (requests : List (String × Sink)) :
    let first := Session.ofBindings values arrays
    let outcomes := (first.renderAll requests).1
    let session := (first.renderAll requests).2
    outcomes = requests.map (fun request => render values arrays request.1 request.2) ∧
      (∀ outcome ∈ outcomes, ∀ moment ∈ outcome.journal,
        moment.environment.root = ⟨"root", none, values, arrays⟩) ∧
      session.environment.root = ⟨"root", none, values, arrays⟩ ∧
      ∀ template sink, (session.render template sink).1.result = .ok () →
        (session.render template sink).2 = first := by
  intro first outcomes session
  have hroot : first.environment.root = ⟨"root", none, values, arrays⟩ := rfl
  obtain ⟨hlast, hmoments⟩ := Session.renderAll_rooted hroot requests
  refine ⟨Session.renderAll_eq_map rfl requests, hmoments, hlast, ?_⟩
  intro template sink hresult
  obtain ⟨-, -, hok⟩ := Session.render_rooted hlast template sink
  exact congrArg Session.mk (hok hresult)

/-- A fault leaves a loop open, and the next rendering closes it. -/
theorem session_closes_open_loop :
    let first := Session.ofBindings .empty (.ofList [("xs", ["1"])])
    let failing := "\x7b\x7b#loop xs x\x7d\x7d\x7b\x7by\x7d\x7d"
    let session := (first.renderAll [(failing, .unlimited "")]).2
    session.environment.depth = 1 ∧ (session.render "." (.unlimited "")).2 = first := by
  intro first failing session
  have hdepth : session.environment.depth = 1 := by
    subst session failing first
    decide +kernel
  have hok : (session.render "." (.unlimited "")).1.result.toOption = some () := by
    subst session failing first
    decide +kernel
  have hresult : (session.render "." (.unlimited "")).1.result = .ok () := by
    generalize (session.render "." (.unlimited "")).1.result = result at hok
    cases result with
    | ok value => rfl
    | error error => cases hok
  obtain ⟨-, -, -, hleaves⟩ :=
    renderings_apart .empty (.ofList [("xs", ["1"])]) [(failing, .unlimited "")]
  exact ⟨hdepth, hleaves "." (.unlimited "") hresult⟩

end Stencil
