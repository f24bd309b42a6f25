import Mathlib.Data.List.Infix
import Stencil.Proofs.Frames

/-!
# Nesting

A frame keeps what is around it safe for as long as it is open.  Whatever is
entered, put and left meanwhile, to leave the frame brings back the environment
in which it was entered.
-/

namespace Stencil.Environment

/--
In the later environment a frame of the given id is open right inside the
frames of the outer one, which are as they were.
-/
def Encloses (outer : Environment) (id : String) (later : Environment) : Prop :=
  ∃ (inner : List Frame) (opened : Frame),
    later = ⟨inner ++ opened :: outer.loops, outer.root⟩ ∧
      opened.id = id ∧ opened.parent = some outer.depth

namespace Encloses

variable {outer later : Environment} {id : String}

theorem enter (outer : Environment) (id : String) : outer.Encloses id (outer.enter id) :=
  ⟨[], _, rfl, rfl, rfl⟩

/-- A change that does not close the frame reaches none of the frames around it. -/
theorem change (h : outer.Encloses id later) (change : Change)
    (hopen : outer.depth < (later.change change).depth) :
    outer.Encloses id (later.change change) := by
  obtain ⟨inner, opened, rfl, hid, hparent⟩ := h
  cases change with
  | enter other => exact ⟨_ :: inner, opened, rfl, hid, hparent⟩
  | leave =>
      cases inner with
      | nil => exact absurd hopen (Nat.lt_irrefl _)
      | cons closed inner => exact ⟨inner, opened, rfl, hid, hparent⟩
  | reset => exact absurd hopen (Nat.not_lt_zero _)
  | define name value =>
      cases inner with
      | nil => exact ⟨[], _, rfl, hid, hparent⟩
      | cons innermost inner => exact ⟨_ :: inner, opened, rfl, hid, hparent⟩

theorem after {changes : List Change}
    (hopen : ∀ made, made <+: changes → outer.depth < ((outer.enter id).after made).depth) :
    outer.Encloses id ((outer.enter id).after changes) := by
  induction changes using List.reverseRecOn with
  | nil => exact enter outer id
  | append_singleton changes last ih =>
      have hbefore := ih fun made hmade => hopen made (hmade.trans (List.prefix_append _ _))
      have hlast := hopen _ (List.prefix_refl _)
      rw [after_concat] at hlast ⊢
      exact hbefore.change last hlast

theorem frame?_eq (h : outer.Encloses id later) {index : Nat} (hindex : index ≤ outer.depth) :
    later.frame? index = outer.frame? index := by
  obtain ⟨inner, opened, rfl, -⟩ := h
  have hframes : frames ⟨inner ++ opened :: outer.loops, outer.root⟩ =
      (inner ++ [opened]) ++ outer.frames := by
    simp [frames]
  have hlt : index < outer.frames.reverse.length := by
    simpa [frames, depth] using Nat.lt_succ_of_le hindex
  rw [frame?, hframes, List.reverse_append, List.getElem?_append_left hlt, frame?]

theorem leave (h : outer.Encloses id later) (hdepth : later.depth = outer.depth + 1) :
    ∃ closed, closed.id = id ∧ closed.parent = some outer.depth ∧
      later.leave = (some closed, outer) := by
  obtain ⟨inner, opened, rfl, hid, hparent⟩ := h
  obtain rfl : inner = [] := by
    simp only [depth, List.length_append, List.length_cons] at hdepth
    exact List.length_eq_zero_iff.mp (by omega)
  exact ⟨opened, hid, hparent, rfl⟩

end Encloses

/--
As long as the frame that was entered stays open, all frames around it are as
they were.  Once it is the innermost again, to leave it gives it back and
brings back the environment in which it was entered.
-/
theorem leave_undoes_changes (environment : Environment) (id : String) (changes : List Change)
    (hopen : ∀ made, made <+: changes →
      environment.depth + 1 ≤ ((environment.enter id).after made).depth) :
    (∀ made, made <+: changes → ∀ index ≤ environment.depth,
      ((environment.enter id).after made).frame? index = environment.frame? index) ∧
    (((environment.enter id).after changes).depth = environment.depth + 1 →
      ∃ closed, closed.id = id ∧ closed.parent = some environment.depth ∧
        ((environment.enter id).after changes).leave = (some closed, environment)) := by
  have hencloses (made : List Change) (hmade : made <+: changes) :
      environment.Encloses id ((environment.enter id).after made) :=
    .after fun earlier hearlier => hopen earlier (hearlier.trans hmade)
  refine ⟨fun made hmade index hindex => ?_, fun hdepth => ?_⟩
  · exact (hencloses made hmade).frame?_eq hindex
  · exact (hencloses changes (List.prefix_refl _)).leave hdepth

/-- A name is put at three levels, and stands for its first value after the loops again. -/
theorem leave_undoes_changes_shadowed :
    let environment := ofBindings (.ofList [("x", "a")]) .empty
    let changes : List Change :=
      [.define "x" "b", .enter "loop1", .define "x" "c", .leave, .define "x" "d"]
    let inside := (environment.enter "loop0").after changes
    inside.value? "x" = some "d" ∧ inside.leave.2.value? "x" = some "a" ∧
      ∃ closed, closed.id = "loop0" ∧ closed.parent = some 0 ∧
        inside.leave = (some closed, environment) := by
  intro environment changes inside
  have hopen : ∀ made ∈ changes.inits,
      environment.depth + 1 ≤ ((environment.enter "loop0").after made).depth := by
    decide
  obtain ⟨-, hleave⟩ := leave_undoes_changes environment "loop0" changes
    fun made hmade => hopen made ((List.mem_inits made changes).mpr hmade)
  exact ⟨by decide, by decide, hleave (by decide)⟩

end Stencil.Environment
