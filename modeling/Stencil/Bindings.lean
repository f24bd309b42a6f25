/-!
# Bindings

Finite maps from names to what the names stand for.  A name has at most one
value, the last that was put for it; the order of the entries has no meaning.
-/

namespace Stencil

structure Bindings (α : Type) where
  entries : List (String × α)
  deriving Repr

namespace Bindings

variable {α : Type}

def empty : Bindings α := ⟨[]⟩

def find? (bindings : Bindings α) (name : String) : Option α :=
  bindings.entries.lookup name

def contains (bindings : Bindings α) (name : String) : Bool :=
  (bindings.find? name).isSome

def put (bindings : Bindings α) (name : String) (value : α) : Bindings α :=
  ⟨(name, value) :: bindings.entries.filter (·.1 ≠ name)⟩

/-- Of several pairs with one name the last counts. -/
def ofList (pairs : List (String × α)) : Bindings α :=
  pairs.foldl (fun bindings pair => bindings.put pair.1 pair.2) empty

def names (bindings : Bindings α) : List String := bindings.entries.map Prod.fst

@[simp] theorem find?_empty (name : String) : (empty : Bindings α).find? name = none := rfl

private theorem lookup_filter_of_ne {name other : String} (h : other ≠ name)
    (entries : List (String × α)) :
    (entries.filter (·.1 ≠ name)).lookup other = entries.lookup other := by
  induction entries with
  | nil => rfl
  | cons entry entries ih =>
      obtain ⟨key, value⟩ := entry
      by_cases hkey : key = name
      · have hother : (other == key) = false := by simpa [hkey] using h
        rw [List.filter_cons_of_neg (by simpa using hkey), ih]
        simp [List.lookup_cons, hother]
      · rw [List.filter_cons_of_pos (by simpa using hkey)]
        simp only [List.lookup_cons, ih]

theorem find?_put (bindings : Bindings α) (name other : String) (value : α) :
    (bindings.put name value).find? other =
      if other = name then some value else bindings.find? other := by
  by_cases h : other = name
  · simp [find?, put, h]
  · have hother : (other == name) = false := by simpa using h
    simpa [find?, put, List.lookup_cons, h, hother] using
      lookup_filter_of_ne h bindings.entries

theorem ofList_append (pairs : List (String × α)) (name : String) (value : α) :
    ofList (pairs ++ [(name, value)]) = (ofList pairs).put name value := by
  simp [ofList]

theorem mem_names_iff (bindings : Bindings α) (name : String) :
    name ∈ bindings.names ↔ bindings.contains name = true := by
  simp only [names, contains, find?, List.mem_map, List.lookup_isSome_iff, beq_iff_eq]
  exact exists_congr fun entry => and_congr_right fun _ => eq_comm

/-! ## Equality as maps -/

def Same (first second : Bindings α) : Prop :=
  ∀ name, first.find? name = second.find? name

theorem same_iff (first second : Bindings α) :
    first.Same second ↔
      ∀ name ∈ first.names ++ second.names, first.find? name = second.find? name := by
  refine ⟨fun h name _ => h name, fun h name => ?_⟩
  by_cases hmem : name ∈ first.names ++ second.names
  · exact h name hmem
  · simp only [List.mem_append, mem_names_iff, contains, not_or, Bool.not_eq_true,
      Option.isSome_eq_false_iff, Option.isNone_iff_eq_none] at hmem
    rw [hmem.1, hmem.2]

instance [DecidableEq α] (first second : Bindings α) : Decidable (first.Same second) :=
  decidable_of_iff _ (same_iff first second).symm

end Bindings

abbrev Values := Bindings String

abbrev Arrays := Bindings (List String)

end Stencil
