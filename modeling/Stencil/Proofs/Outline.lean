import Mathlib.Logic.Relation
import Stencil.Rendering
import Stencil.Proofs.Rewinding

/-!
# Outlines

A body is a row of blocks up to the end of its loop, the end of the input, or
a fault.  Which blocks a cursor reads depends on the template and on the names
that are bound, and on nothing the names stand for.
-/

namespace Stencil

/-! ## Faults -/

/-- Why a rendering stops; only the number of a loop is left open. -/
inductive Fault where
  | lexical (error : ScanError)
  | expected (wanted : TokenKind) (found : Mark)
  | unexpected (found : Mark)
  | unmatchedLoopEnd (span : Span)
  | unresolved (error : NameError)
  deriving DecidableEq, Repr

/-- The error of a fault that is met when the next loop has the given number. -/
def Fault.error (number : Nat) : Fault → RenderError
  | .lexical error => .lexical error
  | .expected wanted found => .grammar (.expected wanted (found.1.token number found.2))
  | .unexpected found => .grammar (.unexpected (found.1.token number found.2))
  | .unmatchedLoopEnd span => .grammar ⟨.unmatchedLoopEnd, span⟩
  | .unresolved error => .unresolved error

/-! ## Blocks -/

structure Names where
  value : String → Bool
  array : String → Bool

namespace Names

def ofBindings (values : Values) (arrays : Arrays) : Names :=
  ⟨values.contains, arrays.contains⟩

/-- Whether a name is bound inside loops with the given items. -/
def binds (names : Names) (items : List String) (name : String) : Bool :=
  names.value name || items.contains name

end Names

namespace Cursor

def Reaches : Cursor → Cursor → Prop :=
  Relation.ReflTransGen fun cursor next => cursor.scan.2 = next

theorem reaches_of_scan {cursor next : Cursor} {reading : Reading}
    (h : cursor.scan = (reading, next)) : cursor.Reaches next :=
  .single (by rw [h])

theorem Reaches.scanBound_le {cursor next : Cursor} (h : cursor.Reaches next) :
    next.scanBound ≤ cursor.scanBound := by
  induction h with
  | refl => exact Nat.le_refl _
  | tail _ hscan ih => exact Nat.le_trans (hscan ▸ scanBound_scan_le _) ih

theorem Reaches.on {template : List Char} {cursor next : Cursor} (h : cursor.Reaches next)
    (hon : cursor.On template) : next.On template := by
  induction h with
  | refl => exact hon
  | tail _ hscan ih => exact hscan ▸ ih.scan

/-- The text of the next lexeme, which has to be of one kind. -/
def demand (wanted : TokenKind) (cursor : Cursor) : Except Fault (String × Cursor) :=
  match cursor.scan with
  | (.error error, _) => .error (.lexical error)
  | (.ok mark, next) =>
      if mark.1.kind = wanted then .ok (mark.1.text 0, next)
      else .error (.expected wanted mark)

def header (names : Names) (cursor : Cursor) : Except Fault (String × String × Cursor) := do
  let (array, cursor) ← cursor.demand .identifier
  if names.array array then
    let (item, cursor) ← cursor.demand .identifier
    let (_, cursor) ← cursor.demand .scriptEnd
    return (array, item, cursor)
  else throw (.unresolved (.undefinedArray array))

theorem scan_of_demand {wanted : TokenKind} {cursor next : Cursor} {text : String}
    (h : cursor.demand wanted = .ok (text, next)) :
    ∃ mark, cursor.scan = (.ok mark, next) ∧ mark.1.kind = wanted ∧ text = mark.1.text 0 := by
  unfold demand at h
  split at h
  · cases h
  · split at h <;> cases h
    exact ⟨_, ‹_›, ‹_›, rfl⟩

theorem scan_of_demand_identifier {cursor next : Cursor} {name : String}
    (h : cursor.demand .identifier = .ok (name, next)) :
    ∃ span, cursor.scan = (.ok (.identifier name, span), next) := by
  obtain ⟨⟨lexeme, span⟩, hscan, hkind, rfl⟩ := scan_of_demand h
  cases lexeme with
  | identifier name => exact ⟨span, hscan⟩
  | _ => cases hkind

theorem scan_of_demand_scriptEnd {cursor next : Cursor} {text : String}
    (h : cursor.demand .scriptEnd = .ok (text, next)) :
    ∃ span, cursor.scan = (.ok (.scriptEnd, span), next) := by
  obtain ⟨⟨lexeme, span⟩, hscan, hkind, rfl⟩ := scan_of_demand h
  cases lexeme with
  | scriptEnd => exact ⟨span, hscan⟩
  | _ => cases hkind

theorem scan_of_demand_error {wanted : TokenKind} {cursor : Cursor} {fault : Fault}
    (h : cursor.demand wanted = .error fault) :
    (∃ error next, cursor.scan = (.error error, next) ∧ fault = .lexical error) ∨
      ∃ mark next, cursor.scan = (.ok mark, next) ∧ mark.1.kind ≠ wanted ∧
        fault = .expected wanted mark := by
  unfold demand at h
  split at h
  · cases h
    exact .inl ⟨_, _, ‹_›, rfl⟩
  · split at h <;> cases h
    exact .inr ⟨_, _, ‹_›, ‹_›, rfl⟩

section Heads

variable (names : Names)

inductive Heads : Cursor → Except Fault (String × String × Cursor) → Prop
  | brokenArray {cursor fault} (hfirst : cursor.demand .identifier = .error fault) :
      Heads cursor (.error fault)
  | undefined {cursor second array}
      (hfirst : cursor.demand .identifier = .ok (array, second)) (harray : ¬names.array array) :
      Heads cursor (.error (.unresolved (.undefinedArray array)))
  | brokenItem {cursor second array fault}
      (hfirst : cursor.demand .identifier = .ok (array, second)) (harray : names.array array)
      (hsecond : second.demand .identifier = .error fault) :
      Heads cursor (.error fault)
  | brokenClose {cursor second third array item fault}
      (hfirst : cursor.demand .identifier = .ok (array, second)) (harray : names.array array)
      (hsecond : second.demand .identifier = .ok (item, third))
      (hthird : third.demand .scriptEnd = .error fault) :
      Heads cursor (.error fault)
  | read {cursor second third next array item text}
      (hfirst : cursor.demand .identifier = .ok (array, second)) (harray : names.array array)
      (hsecond : second.demand .identifier = .ok (item, third))
      (hthird : third.demand .scriptEnd = .ok (text, next)) :
      Heads cursor (.ok (array, item, next))

theorem header_heads (cursor : Cursor) : Heads names cursor (cursor.header names) := by
  unfold header
  simp only [bind, Except.bind]
  cases hfirst : cursor.demand .identifier with
  | error fault => exact .brokenArray hfirst
  | ok found =>
      obtain ⟨array, second⟩ := found
      by_cases harray : names.array array
      · simp only [harray, if_true]
        cases hsecond : second.demand .identifier with
        | error fault => exact .brokenItem hfirst harray hsecond
        | ok found =>
            obtain ⟨item, third⟩ := found
            cases hthird : third.demand .scriptEnd with
            | error fault => simpa [hthird] using .brokenClose hfirst harray hsecond hthird
            | ok found => simpa [hthird] using .read hfirst harray hsecond hthird
      · simp only [harray]
        exact .undefined hfirst harray

end Heads

theorem reaches_of_demand {wanted : TokenKind} {cursor next : Cursor} {text : String}
    (h : cursor.demand wanted = .ok (text, next)) : cursor.Reaches next := by
  obtain ⟨mark, hscan, -⟩ := scan_of_demand h
  exact reaches_of_scan hscan

theorem reaches_of_header {names : Names} {cursor next : Cursor} {array item : String}
    (h : cursor.header names = .ok (array, item, next)) : cursor.Reaches next := by
  have hheads := header_heads names cursor
  rw [h] at hheads
  cases hheads with
  | read hfirst _ hsecond hthird =>
      have hreaches := (reaches_of_demand hfirst).trans (reaches_of_demand hsecond)
      exact hreaches.trans (reaches_of_demand hthird)

theorem header_unique {names names' : Names} {cursor : Cursor}
    {found found' : String × String × Cursor} (h : cursor.header names = .ok found)
    (h' : cursor.header names' = .ok found') : found' = found := by
  have hheads := header_heads names cursor
  have hheads' := header_heads names' cursor
  rw [h] at hheads
  rw [h'] at hheads'
  cases hheads with
  | read hfirst _ hsecond hthird =>
      cases hheads' with
      | read hfirst' _ hsecond' hthird' => simp_all

end Cursor

inductive Block where
  | endOfInput
  | loopEnd
  | literal (text : String)
  | value (name : String)
  | loopBegin (array item : String)
  | broken (fault : Fault)
  | brokenValue (name : String) (fault : Fault)
  deriving DecidableEq, Repr

namespace Block

def isWhole : Block → Bool
  | .broken _ | .brokenValue .. => false
  | _ => true

section Reads

variable (names : Names) (items : List String)

inductive ReadsTag : Cursor → Block → Cursor → Prop
  | lexical {cursor next error} (hscan : cursor.scan = (.error error, next)) :
      ReadsTag cursor (.broken (.lexical error)) next
  | unexpected {cursor next mark} (hscan : cursor.scan = (.ok mark, next))
      (hkind : mark.1.kind ∉ [.identifier, .loopBegin, .loopEnd]) :
      ReadsTag cursor (.broken (.unexpected mark)) next
  | unbound {cursor next name span}
      (hscan : cursor.scan = (.ok (.identifier name, span), next))
      (hbound : ¬names.binds items name) :
      ReadsTag cursor (.broken (.unresolved (.undefinedIdentifier name))) next
  | value {cursor close next name span text}
      (hscan : cursor.scan = (.ok (.identifier name, span), close))
      (hbound : names.binds items name) (hclose : close.demand .scriptEnd = .ok (text, next)) :
      ReadsTag cursor (.value name) next
  | brokenValue {cursor close name span fault}
      (hscan : cursor.scan = (.ok (.identifier name, span), close))
      (hbound : names.binds items name) (hclose : close.demand .scriptEnd = .error fault) :
      ReadsTag cursor (.brokenValue name fault) close
  | loopBegin {cursor header next span array item}
      (hscan : cursor.scan = (.ok (.loopBegin, span), header))
      (hheader : header.header names = .ok (array, item, next)) :
      ReadsTag cursor (.loopBegin array item) next
  | brokenHeader {cursor header span fault}
      (hscan : cursor.scan = (.ok (.loopBegin, span), header))
      (hheader : header.header names = .error fault) :
      ReadsTag cursor (.broken fault) header
  | unmatched {cursor next span} (hscan : cursor.scan = (.ok (.loopEnd, span), next))
      (hitems : items.isEmpty) :
      ReadsTag cursor (.broken (.unmatchedLoopEnd span)) next
  | loopEnd {cursor close next span text}
      (hscan : cursor.scan = (.ok (.loopEnd, span), close)) (hitems : ¬items.isEmpty)
      (hclose : close.demand .scriptEnd = .ok (text, next)) :
      ReadsTag cursor .loopEnd next
  | brokenLoopEnd {cursor close span fault}
      (hscan : cursor.scan = (.ok (.loopEnd, span), close)) (hitems : ¬items.isEmpty)
      (hclose : close.demand .scriptEnd = .error fault) :
      ReadsTag cursor (.broken fault) close

inductive Reads : Cursor → Block → Cursor → Prop
  | lexical {cursor next error} (hscan : cursor.scan = (.error error, next)) :
      Reads cursor (.broken (.lexical error)) next
  | unexpected {cursor next mark} (hscan : cursor.scan = (.ok mark, next))
      (hkind : mark.1.kind ∉ [.endOfInput, .literal, .scriptBegin]) :
      Reads cursor (.broken (.unexpected mark)) next
  | endOfInput {cursor next span} (hscan : cursor.scan = (.ok (.endOfInput, span), next)) :
      Reads cursor .endOfInput next
  | literal {cursor next text span}
      (hscan : cursor.scan = (.ok (.literal text, span), next)) :
      Reads cursor (.literal text) next
  | tag {cursor tag next span block}
      (hscan : cursor.scan = (.ok (.scriptBegin, span), tag))
      (htag : ReadsTag names items tag block next) :
      Reads cursor block next

theorem exists_readsTag (cursor : Cursor) :
    ∃ block next, ReadsTag names items cursor block next := by
  rcases hscan : cursor.scan with ⟨error | ⟨lexeme, span⟩, next⟩
  · exact ⟨_, _, .lexical hscan⟩
  · cases lexeme with
    | identifier name =>
        by_cases hbound : names.binds items name
        · cases hclose : next.demand .scriptEnd with
          | error fault => exact ⟨_, _, .brokenValue hscan hbound hclose⟩
          | ok found => exact ⟨_, _, .value hscan hbound hclose⟩
        · exact ⟨_, _, .unbound hscan hbound⟩
    | loopBegin =>
        cases hheader : next.header names with
        | error fault => exact ⟨_, _, .brokenHeader hscan hheader⟩
        | ok found => exact ⟨_, _, .loopBegin hscan hheader⟩
    | loopEnd =>
        by_cases hitems : items.isEmpty
        · exact ⟨_, _, .unmatched hscan hitems⟩
        · cases hclose : next.demand .scriptEnd with
          | error fault => exact ⟨_, _, .brokenLoopEnd hscan hitems hclose⟩
          | ok found => exact ⟨_, _, .loopEnd hscan hitems hclose⟩
    | endOfInput | literal | scriptBegin | scriptEnd =>
        exact ⟨_, _, .unexpected hscan (by simp [Lexeme.kind])⟩

theorem exists_reads (cursor : Cursor) : ∃ block next, Reads names items cursor block next := by
  rcases hscan : cursor.scan with ⟨error | ⟨lexeme, span⟩, next⟩
  · exact ⟨_, _, .lexical hscan⟩
  · cases lexeme with
    | endOfInput => exact ⟨_, _, .endOfInput hscan⟩
    | literal text => exact ⟨_, _, .literal hscan⟩
    | scriptBegin =>
        obtain ⟨block, last, htag⟩ := exists_readsTag names items next
        exact ⟨block, last, .tag hscan htag⟩
    | identifier | loopBegin | loopEnd | scriptEnd =>
        exact ⟨_, _, .unexpected hscan (by simp [Lexeme.kind])⟩

variable {names items}

theorem ReadsTag.reaches {cursor next : Cursor} {block : Block}
    (h : ReadsTag names items cursor block next) : cursor.Reaches next := by
  cases h with
  | value hscan _ hclose | loopEnd hscan _ hclose =>
      exact (Cursor.reaches_of_scan hscan).trans (Cursor.reaches_of_demand hclose)
  | loopBegin hscan hheader =>
      exact (Cursor.reaches_of_scan hscan).trans (Cursor.reaches_of_header hheader)
  | lexical hscan | unexpected hscan | unbound hscan | brokenValue hscan
  | brokenHeader hscan | unmatched hscan | brokenLoopEnd hscan =>
      exact Cursor.reaches_of_scan hscan

theorem Reads.reaches {cursor next : Cursor} {block : Block}
    (h : Reads names items cursor block next) : cursor.Reaches next := by
  cases h with
  | tag hscan htag => exact (Cursor.reaches_of_scan hscan).trans htag.reaches
  | lexical hscan | unexpected hscan | endOfInput hscan | literal hscan =>
      exact Cursor.reaches_of_scan hscan

/-- Every block that does not end the body reads on. -/
theorem Reads.scanBound_lt {cursor next : Cursor} {block : Block}
    (h : Reads names items cursor block next) (hend : block ≠ .endOfInput)
    (hbroken : ∀ fault, block ≠ .broken fault) : next.scanBound < cursor.scanBound := by
  cases h with
  | lexical => exact absurd rfl (hbroken _)
  | unexpected => exact absurd rfl (hbroken _)
  | endOfInput => exact absurd rfl hend
  | literal hscan =>
      have hlt := @Cursor.scanBound_scan_lt cursor (by simp [hscan, Reading.isLast])
      simpa [hscan] using hlt
  | tag hscan htag =>
      have hlt := @Cursor.scanBound_scan_lt cursor (by simp [hscan, Reading.isLast])
      rw [hscan] at hlt
      exact Nat.lt_of_le_of_lt htag.reaches.scanBound_le hlt

/-- Names decide whether a block is broken, and nothing else. -/
theorem ReadsTag.unique {names' : Names} {items' : List String} {cursor next next' : Cursor}
    {block block' : Block} (h : ReadsTag names items cursor block next)
    (h' : ReadsTag names' items' cursor block' next') (hwhole : block.isWhole)
    (hwhole' : block'.isWhole) : block' = block ∧ next' = next := by
  cases h with
  | lexical | unexpected | unbound | brokenValue | brokenHeader | unmatched | brokenLoopEnd =>
      cases hwhole
  | value hscan _ hclose =>
      cases h' <;> simp_all [isWhole]
  | loopBegin hscan hheader =>
      cases h' with
      | loopBegin hscan' hheader' =>
          obtain ⟨-, rfl⟩ := Prod.mk.inj (hscan.symm.trans hscan')
          simpa [and_assoc] using Cursor.header_unique hheader hheader'
      | _ => simp_all [isWhole]
  | loopEnd hscan _ hclose =>
      cases h' <;> simp_all [isWhole]

theorem Reads.unique {names' : Names} {items' : List String} {cursor next next' : Cursor}
    {block block' : Block} (h : Reads names items cursor block next)
    (h' : Reads names' items' cursor block' next') (hwhole : block.isWhole)
    (hwhole' : block'.isWhole) : block' = block ∧ next' = next := by
  cases h with
  | lexical | unexpected => cases hwhole
  | endOfInput hscan | literal hscan => cases h' <;> simp_all [isWhole]
  | tag hscan htag =>
      cases h' with
      | tag hscan' htag' =>
          obtain ⟨-, rfl⟩ := Prod.mk.inj (hscan.symm.trans hscan')
          exact htag.unique htag' hwhole hwhole'
      | _ => simp_all [isWhole]

end Reads

end Block

/-! ## Bodies -/

inductive Ending where
  | input
  | loop
  | fault
  deriving DecidableEq, Repr

/--
The blocks of a body.  A loop is open when its own body does not end with the
end of the loop; nothing is then left for the blocks after it.
-/
inductive Body : Ending → Type where
  | endOfInput : Body .input
  | loopEnd : Body .loop
  | broken (fault : Fault) : Body .fault
  | brokenValue (name : String) (fault : Fault) : Body .fault
  | literal {ending : Ending} (text : String) (rest : Body ending) : Body ending
  | value {ending : Ending} (name : String) (rest : Body ending) : Body ending
  | loop {ending : Ending} (array item : String) (inside : Body .loop)
      (rest : Body ending) : Body ending
  | openLoop {ending : Ending} (array item : String) (inside : Body ending)
      (hopen : ending ≠ .loop) : Body ending

namespace Body

def verdict {ending : Ending} : Body ending → Except Fault Unit
  | .endOfInput | .loopEnd => .ok ()
  | .broken fault | .brokenValue _ fault => .error fault
  | .literal _ rest | .value _ rest | .loop _ _ _ rest => rest.verdict
  | .openLoop _ _ inside _ => inside.verdict

/-- The cursor reads as the body inside loops with the given items, and comes to another. -/
inductive ReadsAs (names : Names) :
    {ending : Ending} → List String → Cursor → Body ending → Cursor → Prop
  | endOfInput {items cursor next} (hread : Block.Reads names items cursor .endOfInput next) :
      ReadsAs names items cursor .endOfInput next
  | loopEnd {items cursor next} (hread : Block.Reads names items cursor .loopEnd next) :
      ReadsAs names items cursor .loopEnd next
  | broken {items cursor next fault}
      (hread : Block.Reads names items cursor (.broken fault) next) :
      ReadsAs names items cursor (.broken fault) next
  | brokenValue {items cursor next name fault}
      (hread : Block.Reads names items cursor (.brokenValue name fault) next) :
      ReadsAs names items cursor (.brokenValue name fault) next
  | literal {ending items cursor next after text} {rest : Body ending}
      (hread : Block.Reads names items cursor (.literal text) next)
      (hrest : ReadsAs names items next rest after) :
      ReadsAs names items cursor (.literal text rest) after
  | value {ending items cursor next after name} {rest : Body ending}
      (hread : Block.Reads names items cursor (.value name) next)
      (hrest : ReadsAs names items next rest after) :
      ReadsAs names items cursor (.value name rest) after
  | loop {ending items cursor next middle after array item} {inside : Body .loop}
      {rest : Body ending}
      (hread : Block.Reads names items cursor (.loopBegin array item) next)
      (hinside : ReadsAs names (item :: items) next inside middle)
      (hrest : ReadsAs names items middle rest after) :
      ReadsAs names items cursor (.loop array item inside rest) after
  | openLoop {ending items cursor next after array item} {inside : Body ending}
      (hread : Block.Reads names items cursor (.loopBegin array item) next)
      (hinside : ReadsAs names (item :: items) next inside after) (hopen : ending ≠ .loop) :
      ReadsAs names items cursor (.openLoop array item inside hopen) after

variable {names : Names}

theorem ReadsAs.reaches {ending : Ending} {items : List String} {cursor after : Cursor}
    {body : Body ending} (h : ReadsAs names items cursor body after) : cursor.Reaches after := by
  induction h with
  | endOfInput hread | loopEnd hread | broken hread | brokenValue hread =>
      exact hread.reaches
  | literal hread _ ih | value hread _ ih | openLoop hread _ _ ih =>
      exact hread.reaches.trans ih
  | loop hread _ _ ihInside ihRest =>
      exact (hread.reaches.trans ihInside).trans ihRest

theorem verdict_eq_ok_iff {ending : Ending} (body : Body ending) :
    body.verdict = .ok () ↔ ending ≠ .fault := by
  induction body with
  | endOfInput | loopEnd | broken | brokenValue => simp [verdict]
  | literal _ _ ih | value _ _ ih | loop _ _ _ _ _ ih | openLoop _ _ _ _ ih => exact ih

theorem ReadsAs.items_ne_nil {ending : Ending} {items : List String} {cursor after : Cursor}
    {body : Body ending} (h : ReadsAs names items cursor body after) (hloop : ending = .loop) :
    items ≠ [] := by
  induction h with
  | loopEnd hread =>
      cases hread with
      | tag _ htag =>
          cases htag with
          | loopEnd _ hitems => simpa using hitems
  | endOfInput | broken | brokenValue => cases hloop
  | literal _ _ ih | value _ _ ih | loop _ _ _ _ ih => exact ih hloop
  | openLoop _ _ hopen => exact absurd hloop hopen

/-- A body that ends with the input leaves the cursor at the end of the input. -/
theorem ReadsAs.scan_after {ending : Ending} {items : List String} {cursor after : Cursor}
    {body : Body ending} (h : ReadsAs names items cursor body after)
    (hinput : ending = .input) : ∃ span, after.scan = (.ok (.endOfInput, span), after) := by
  induction h with
  | @endOfInput items cursor next hread =>
      cases hread with
      | @endOfInput _ span hscan =>
          have hlast : Reading.isLast cursor.scan.1 := by simp [hscan, Reading.isLast]
          refine ⟨span, ?_⟩
          simpa [hscan] using Cursor.scan_scan_of_isLast hlast
      | tag _ htag => cases htag
  | loopEnd | broken | brokenValue => cases hinput
  | literal _ _ ih | value _ _ ih | loop _ _ _ _ ih | openLoop _ _ _ ih => exact ih hinput

/-- Where a body ends does not depend on the names, as long as no fault ends it. -/
theorem ReadsAs.unique {names' : Names} {ending ending' : Ending} {items items' : List String}
    {cursor after after' : Cursor} {body : Body ending} {body' : Body ending'}
    (h : ReadsAs names items cursor body after) (h' : ReadsAs names' items' cursor body' after')
    (hwhole : ending ≠ .fault) (hwhole' : ending' ≠ .fault) :
    ending' = ending ∧ after' = after := by
  induction h generalizing ending' items' after' with
  | endOfInput hread =>
      cases h' with
      | endOfInput hread' => exact ⟨rfl, (hread.unique hread' rfl rfl).2⟩
      | broken | brokenValue => exact absurd rfl hwhole'
      | loopEnd hread' | literal hread' | value hread' | loop hread' | openLoop hread' =>
          cases (hread.unique hread' rfl rfl).1
  | loopEnd hread =>
      cases h' with
      | loopEnd hread' => exact ⟨rfl, (hread.unique hread' rfl rfl).2⟩
      | broken | brokenValue => exact absurd rfl hwhole'
      | endOfInput hread' | literal hread' | value hread' | loop hread' | openLoop hread' =>
          cases (hread.unique hread' rfl rfl).1
  | broken | brokenValue => exact absurd rfl hwhole
  | literal hread _ ih =>
      cases h' with
      | literal hread' hrest' =>
          obtain rfl := (hread.unique hread' rfl rfl).2
          exact ih hrest' hwhole hwhole'
      | broken | brokenValue => exact absurd rfl hwhole'
      | endOfInput hread' | loopEnd hread' | value hread' | loop hread' | openLoop hread' =>
          cases (hread.unique hread' rfl rfl).1
  | value hread _ ih =>
      cases h' with
      | value hread' hrest' =>
          obtain rfl := (hread.unique hread' rfl rfl).2
          exact ih hrest' hwhole hwhole'
      | broken | brokenValue => exact absurd rfl hwhole'
      | endOfInput hread' | loopEnd hread' | literal hread' | loop hread' | openLoop hread' =>
          cases (hread.unique hread' rfl rfl).1
  | loop hread _ _ ihInside ihRest =>
      cases h' with
      | loop hread' hinside' hrest' =>
          obtain rfl := (hread.unique hread' rfl rfl).2
          obtain ⟨-, rfl⟩ := ihInside hinside' (by decide) (by decide)
          exact ihRest hrest' hwhole hwhole'
      -- The loop cannot be closed in the one reading and open in the other.
      | openLoop hread' hinside' hopen' =>
          obtain rfl := (hread.unique hread' rfl rfl).2
          exact absurd (ihInside hinside' (by decide) hwhole').1 hopen'
      | broken | brokenValue => exact absurd rfl hwhole'
      | endOfInput hread' | loopEnd hread' | literal hread' | value hread' =>
          cases (hread.unique hread' rfl rfl).1
  | openLoop hread _ hopen ih =>
      cases h' with
      | loop hread' hinside' _ =>
          obtain rfl := (hread.unique hread' rfl rfl).2
          exact absurd (ih hinside' hwhole (by decide)).1.symm hopen
      | openLoop hread' hinside' _ =>
          obtain rfl := (hread.unique hread' rfl rfl).2
          exact ih hinside' hwhole hwhole'
      | broken | brokenValue => exact absurd rfl hwhole'
      | endOfInput hread' | loopEnd hread' | literal hread' | value hread' =>
          cases (hread.unique hread' rfl rfl).1

theorem exists_readsAs (names : Names) (items : List String) (cursor : Cursor) :
    ∃ (ending : Ending) (body : Body ending) (after : Cursor),
      ReadsAs names items cursor body after := by
  induction hbound : cursor.scanBound using Nat.strongRecOn generalizing items cursor with
  | ind bound ih =>
      subst hbound
      obtain ⟨block, next, hread⟩ := Block.exists_reads names items cursor
      cases block with
      | endOfInput => exact ⟨_, _, next, .endOfInput hread⟩
      | loopEnd => exact ⟨_, _, next, .loopEnd hread⟩
      | broken fault => exact ⟨_, _, next, .broken hread⟩
      | brokenValue name fault => exact ⟨_, _, next, .brokenValue hread⟩
      | literal text =>
          have hlt := hread.scanBound_lt (by simp) (by simp)
          obtain ⟨ending, rest, after, hrest⟩ := ih _ hlt items next rfl
          exact ⟨ending, _, after, .literal hread hrest⟩
      | value name =>
          have hlt := hread.scanBound_lt (by simp) (by simp)
          obtain ⟨ending, rest, after, hrest⟩ := ih _ hlt items next rfl
          exact ⟨ending, _, after, .value hread hrest⟩
      | loopBegin array item =>
          have hlt := hread.scanBound_lt (by simp) (by simp)
          obtain ⟨ending, inside, middle, hinside⟩ := ih _ hlt (item :: items) next rfl
          -- Blocks are left only where the inner body ends with the end of its own loop.
          by_cases hopen : ending = .loop
          · subst hopen
            obtain ⟨ending, rest, after, hrest⟩ :=
              ih _ (Nat.lt_of_le_of_lt hinside.reaches.scanBound_le hlt) items middle rfl
            exact ⟨ending, _, after, .loop hread hinside hrest⟩
          · exact ⟨ending, _, middle, .openLoop hread hinside hopen⟩

end Body

end Stencil
