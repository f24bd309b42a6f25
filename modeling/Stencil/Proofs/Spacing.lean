import Stencil.Proofs.Contracts
import Stencil.Proofs.Pairs
import Stencil.Proofs.Recursion
import Stencil.Proofs.Shifts

/-!
# Spacing

Blanks may be put into a template wherever its scanner stands inside a tag,
between two tokens.  The looser template has the same tokens and renders the
same, and what stands at a character of the one stands at that character in
the other.
-/

namespace Stencil

/-! ## Looser templates -/

/-- Scanning on from the one cursor yields tokens and comes to the other. -/
def Cursor.ReadsTo : Cursor → Cursor → Prop :=
  Relation.ReflTransGen fun cursor next => ∃ mark, cursor.scan = (.ok mark, next)

/-- What is put in front of each character, or at the end, of a template. -/
structure Loosening (template : String) where
  inserted : Nat → List Char
  blank : ∀ index, (inserted index).all TagItem.isBlank
  inTag : ∀ index, inserted index ≠ [] →
    ∃ passed cursor, template.toList = passed ++ cursor.ahead ∧ passed.length = index ∧
      (Cursor.ofTemplate template).ReadsTo cursor ∧ cursor.position.mode = .tag

namespace Loosening

variable {template : String} (loosening : Loosening template)

/-- The characters from the index on, each behind what is put in front of it. -/
def spread : Nat → List Char → List Char
  | _, [] => []
  | index, c :: chars => loosening.inserted index ++ c :: spread (index + 1) chars

/-- The characters from the index on, with what is put in front of each and behind the last. -/
def onwards (index : Nat) (chars : List Char) : List Char :=
  loosening.spread index chars ++ loosening.inserted (index + chars.length)

def looser : String := String.ofList (loosening.onwards 0 template.toList)

/-- The spans are those of a character of the template, or of its end, in the two templates. -/
def Corresponds (span span' : Span) : Prop :=
  ∃ before, before <+: template.toList ∧ span = spanAfter before ∧
    span' = spanAfter (loosening.onwards 0 before)

theorem spread_append (index : Nat) (first second : List Char) :
    loosening.spread index (first ++ second) =
      loosening.spread index first ++ loosening.spread (index + first.length) second := by
  induction first generalizing index with
  | nil => rfl
  | cons c first ih =>
      simp [spread, ih, Nat.add_assoc, Nat.add_comm 1]

theorem onwards_append (index : Nat) (first second : List Char) :
    loosening.onwards index (first ++ second) =
      loosening.spread index first ++ loosening.onwards (index + first.length) second := by
  simp [onwards, spread_append, Nat.add_assoc]

/-- Nothing is put between the characters. -/
def Quiet (index : Nat) (chars : List Char) : Prop :=
  ∀ between, index < between → between < index + chars.length → loosening.inserted between = []

variable {loosening}

theorem Quiet.of_append {index : Nat} {first second : List Char}
    (h : loosening.Quiet index (first ++ second)) : loosening.Quiet index first := by
  intro between hlt hlt'
  apply h between hlt
  rw [List.length_append]
  omega

theorem Quiet.between {index : Nat} {first second : List Char}
    (h : loosening.Quiet index (first ++ second)) (hsecond : second ≠ []) (hfirst : first ≠ []) :
    loosening.inserted (index + first.length) = [] := by
  have hpos := List.length_pos_iff.mpr hfirst
  have hpos' := List.length_pos_iff.mpr hsecond
  apply h _ (Nat.lt_add_of_pos_right hpos)
  rw [List.length_append]
  omega

theorem Quiet.spread {index : Nat} {chars : List Char} (h : loosening.Quiet index chars)
    (hne : chars ≠ []) :
    loosening.spread index chars = loosening.inserted index ++ chars := by
  induction chars generalizing index with
  | nil => exact absurd rfl hne
  | cons c chars ih =>
      cases chars with
      | nil => rfl
      | cons d chars =>
          have hnext : loosening.inserted (index + 1) = [] :=
            h (index + 1) (Nat.lt_succ_self _) (by simp)
          have hrest : loosening.Quiet (index + 1) (d :: chars) := by
            intro between hlt hlt'
            apply h between (Nat.lt_of_succ_lt hlt)
            simpa [Nat.add_assoc, Nat.add_comm 1] using hlt'
          rw [Loosening.spread, ih hrest (by simp), hnext, List.nil_append]

/-- Not even behind the last of them. -/
theorem Quiet.onwards {index : Nat} {chars : List Char} (h : loosening.Quiet index chars)
    (hlast : chars ≠ [] → loosening.inserted (index + chars.length) = []) :
    loosening.onwards index chars = loosening.inserted index ++ chars := by
  unfold Loosening.onwards
  cases chars with
  | nil => simp [Loosening.spread]
  | cons c chars => rw [h.spread (by simp), hlast (by simp), List.append_nil]

/-- Blanks put in at one place. -/
def one {passed blanks : List Char} {cursor : Cursor}
    (hsplit : template.toList = passed ++ cursor.ahead)
    (hreads : (Cursor.ofTemplate template).ReadsTo cursor) (htag : cursor.position.mode = .tag)
    (hblanks : blanks.all TagItem.isBlank) : Loosening template where
  inserted index := if index = passed.length then blanks else []
  blank index := by
    split
    · exact hblanks
    · rfl
  inTag index hne := by
    have hindex : index = passed.length := by
      by_contra hother
      exact hne (if_neg hother)
    exact ⟨passed, cursor, hsplit, hindex.symm, hreads, htag⟩

theorem looser_one {passed blanks : List Char} {cursor : Cursor}
    (hsplit : template.toList = passed ++ cursor.ahead)
    (hreads : (Cursor.ofTemplate template).ReadsTo cursor) (htag : cursor.position.mode = .tag)
    (hblanks : blanks.all TagItem.isBlank) :
    (one hsplit hreads htag hblanks).looser = String.ofList (passed ++ blanks ++ cursor.ahead) := by
  let loosening := one hsplit hreads htag hblanks
  have hnone {index : Nat} (hother : index ≠ passed.length) : loosening.inserted index = [] :=
    if_neg hother
  have hbefore : loosening.spread 0 passed = passed := by
    cases passed with
    | nil => rfl
    | cons c passed =>
        have hquiet : loosening.Quiet 0 (c :: passed) := fun _ _ hlt => hnone (by omega)
        rw [hquiet.spread (by simp), hnone (by simp), List.nil_append]
  have hquiet : loosening.Quiet passed.length cursor.ahead := fun _ hlt _ => hnone (by omega)
  have hbehind : loosening.onwards passed.length cursor.ahead = blanks ++ cursor.ahead := by
    rw [hquiet.onwards fun hne => hnone (by simpa using hne)]
    exact congrArg (· ++ cursor.ahead) (if_pos rfl)
  change String.ofList (loosening.onwards 0 template.toList) = _
  rw [hsplit, onwards_append, Nat.zero_add, hbefore, hbehind, List.append_assoc]

end Loosening

/-! ## Where the scanner stands -/

namespace Cursor

variable {template : String} {cursor next other : Cursor}

theorem length_scan_le (cursor : Cursor) : cursor.scan.2.ahead.length ≤ cursor.ahead.length := by
  obtain ⟨passed, hahead, -⟩ := On.passed_of_scans cursor.scan_scans
  rw [hahead, List.length_append]
  exact Nat.le_add_left _ _

theorem ReadsTo.length_le (h : cursor.ReadsTo next) :
    next.ahead.length ≤ cursor.ahead.length := by
  induction h with
  | refl => exact Nat.le_refl _
  | @tail middle _ _ hscan ih =>
      obtain ⟨mark, hscan⟩ := hscan
      have hle := middle.length_scan_le
      rw [hscan] at hle
      exact Nat.le_trans hle ih

/-- Scanning goes one way, so that of two places it comes to one lies behind the other. -/
theorem ReadsTo.total (h : cursor.ReadsTo next) (h' : cursor.ReadsTo other) :
    next.ReadsTo other ∨ other.ReadsTo next := by
  refine Relation.ReflTransGen.total_of_right_unique ?_ h h'
  rintro cursor next other ⟨mark, hscan⟩ ⟨mark', hscan'⟩
  exact (Prod.mk.inj (hscan.symm.trans hscan')).2

/-- Between text and a tag there is something to be read. -/
theorem ReadsTo.length_lt_of_mode (h : cursor.ReadsTo next)
    (hmode : cursor.position.mode ≠ next.position.mode) :
    next.ahead.length < cursor.ahead.length := by
  induction h using Relation.ReflTransGen.head_induction_on with
  | refl => exact absurd rfl hmode
  | @head cursor middle hscan hrest ih =>
      obtain ⟨mark, hscan⟩ := hscan
      have hle := ReadsTo.length_le hrest
      have hscans := cursor.scan_scans
      rw [hscan] at hscans
      generalize hreading : (Except.ok mark : Reading) = reading at hscans
      cases hscans with
      | owed | endOfInput => exact ih hmode
      | opening =>
          simp only [List.length_cons] at hle ⊢
          omega
      | lastText place run hpieces =>
          simp only [List.length_nil] at hle
          have hpos := List.length_pos_iff.mpr (mt run.spelling_eq_nil_iff.mp hpieces)
          exact Nat.lt_of_le_of_lt hle hpos
      | text =>
          simp only [List.length_append, List.length_cons] at hle ⊢
          omega
      | item place blanks rest item _ hread =>
          have hpos := List.length_pos_iff.mpr (TagItem.spelling_ne_nil_of_read hread)
          simp only [List.length_append] at hle ⊢
          omega
      | stuck => cases hreading

end Cursor

namespace Loosening

variable {template : String} (loosening : Loosening template) {cursor next : Cursor}
  {before : List Char}

theorem quiet_of_scan {passed : List Char} {mark : Mark}
    (hreads : (Cursor.ofTemplate template).ReadsTo cursor)
    (hsplit : template.toList = before ++ cursor.ahead) (hscan : cursor.scan = (.ok mark, next))
    (hahead : cursor.ahead = passed ++ next.ahead) : loosening.Quiet before.length passed := by
  intro between hlt hlt'
  by_contra hne
  obtain ⟨earlier, other, hsplit', rfl, hother, -⟩ := loosening.inTag between hne
  have hlength := congrArg List.length (hsplit.symm.trans hsplit')
  have hpassed := congrArg List.length hahead
  simp only [List.length_append] at hlength hpassed
  rcases hreads.total hother with hbehind | hbefore
  · rcases hbehind.cases_head with rfl | ⟨middle, ⟨mark', hscan'⟩, hrest⟩
    · omega
    · obtain ⟨-, rfl⟩ := Prod.mk.inj (hscan.symm.trans hscan')
      have hle := Cursor.ReadsTo.length_le hrest
      omega
  · have hle := hbefore.length_le
    omega

theorem inserted_of_text (hreads : (Cursor.ofTemplate template).ReadsTo cursor)
    (hsplit : template.toList = before ++ cursor.ahead) (htext : cursor.position.mode = .text) :
    loosening.inserted before.length = [] := by
  by_contra hne
  obtain ⟨earlier, other, hsplit', hearlier, hother, htag⟩ := loosening.inTag _ hne
  have hlength := congrArg List.length (hsplit.symm.trans hsplit')
  simp only [List.length_append] at hlength
  rcases hreads.total hother with hbehind | hbefore
  · have hlt := hbehind.length_lt_of_mode (by simp [htext, htag])
    omega
  · have hlt := hbefore.length_lt_of_mode (by simp [htext, htag])
    omega

theorem inserted_of_stuck {error : ScanError}
    (hreads : (Cursor.ofTemplate template).ReadsTo cursor)
    (hsplit : template.toList = before ++ cursor.ahead) (hscan : cursor.scan = (.error error, next))
    {between : Nat} (hlt : before.length < between) : loosening.inserted between = [] := by
  by_contra hne
  obtain ⟨earlier, other, hsplit', rfl, hother, -⟩ := loosening.inTag between hne
  have hlength := congrArg List.length (hsplit.symm.trans hsplit')
  simp only [List.length_append] at hlength
  rcases hreads.total hother with hbehind | hbefore
  · rcases hbehind.cases_head with rfl | ⟨middle, ⟨mark, hscan'⟩, -⟩
    · omega
    · cases (Prod.mk.inj (hscan.symm.trans hscan')).1
  · have hle := hbefore.length_le
    omega

/-! ## Scanning side by side -/

variable {loosening}

/-- The second cursor stands in the looser template where the first one stands. -/
structure Alike (loosening : Loosening template) (before : List Char) (cursor cursor' : Cursor) :
    Prop where
  reads : (Cursor.ofTemplate template).ReadsTo cursor
  split : template.toList = before ++ cursor.ahead
  place : cursor.position.place = Place.start.after before
  place' : cursor'.position.place = Place.start.after (loosening.spread 0 before)
  ahead : cursor'.ahead = loosening.onwards before.length cursor.ahead
  mode : cursor'.position.mode = cursor.position.mode
  owed : Option.Rel loosening.Corresponds cursor.position.owed cursor'.position.owed

/-- The readings are the same, each at its place. -/
inductive Reads (loosening : Loosening template) : Reading → Reading → Prop
  | token {lexeme : Lexeme} {span span' : Span} (hspan : loosening.Corresponds span span') :
      Reads loosening (.ok (lexeme, span)) (.ok (lexeme, span'))
  | failure {fault : ScanFault} {span span' : Span} (hspan : loosening.Corresponds span span') :
      Reads loosening (.error ⟨fault, span⟩) (.error ⟨fault, span'⟩)

theorem Quiet.ahead {passed : List Char} (h : loosening.Quiet before.length passed)
    (hne : passed ≠ []) (rest : List Char) :
    loosening.onwards before.length (passed ++ rest) =
      loosening.inserted before.length ++
        (passed ++ loosening.onwards (before ++ passed).length rest) := by
  rw [Loosening.onwards_append, h.spread hne, List.append_assoc, List.length_append]

/-- What has been passed has been passed in the looser template, with the blanks before it. -/
theorem Quiet.alike {passed : List Char} (h : loosening.Quiet before.length passed)
    (hne : passed ≠ []) (hreads : (Cursor.ofTemplate template).ReadsTo next)
    (hsplit : template.toList = before ++ (passed ++ next.ahead))
    (hplace : next.position.place = (Place.start.after before).after passed) {owed : Option Span}
    (howed : Option.Rel loosening.Corresponds next.position.owed owed) :
    loosening.Alike (before ++ passed) next
      ⟨⟨(Place.start.after (loosening.spread 0 before)).after
          (loosening.inserted before.length ++ passed), next.position.mode, owed⟩,
        loosening.onwards (before ++ passed).length next.ahead⟩ where
  reads := hreads
  split := by rw [hsplit, List.append_assoc]
  place := by rw [hplace, Place.after_append]
  place' := by rw [← Place.after_append, spread_append, Nat.zero_add, h.spread hne]
  ahead := rfl
  mode := rfl
  owed := howed

theorem Quiet.corresponds {passed rest : List Char} (h : loosening.Quiet before.length passed)
    (hlast : passed ≠ [] → loosening.inserted (before.length + passed.length) = [])
    (hsplit : template.toList = before ++ (passed ++ rest)) :
    loosening.Corresponds ((Place.start.after before).after passed).span
      ((Place.start.after (loosening.spread 0 before)).after
        (loosening.inserted before.length ++ passed)).span := by
  refine ⟨before ++ passed, ⟨rest, by rw [hsplit, List.append_assoc]⟩, ?_, ?_⟩
  · rw [← Place.after_append, Place.span_start_after]
  · rw [← Place.after_append, Place.span_start_after, Loosening.onwards_append, Nat.zero_add,
      h.onwards hlast]

theorem corresponds_of_text {rest : List Char} (hsplit : template.toList = before ++ rest)
    (htext : loosening.inserted before.length = []) :
    loosening.Corresponds (Place.start.after before).span
      (Place.start.after (loosening.spread 0 before)).span := by
  have hquiet : loosening.Quiet before.length [] := fun between hlt hlt' => by
    simp only [List.length_nil] at hlt'
    omega
  have hcorresponds := hquiet.corresponds (by simp) hsplit
  rwa [htext] at hcorresponds

theorem fits_onwards {item : TagItem} {rest : List Char} (h : item.Fits rest) (index : Nat) :
    item.Fits (loosening.onwards index rest) := by
  have hhead (hrest : rest.head?.all (!·.isAlphanum)) :
      (loosening.onwards index rest).head?.all (!·.isAlphanum) := by
    have hinserted := loosening.blank index
    cases hblanks : loosening.inserted index with
    | nil => cases rest <;> simp_all [onwards, spread]
    | cons c blanks =>
        rw [hblanks, List.all_cons, Bool.and_eq_true] at hinserted
        have hc := TagItem.isAlphanum_of_isBlank hinserted.1
        cases rest <;> simp [onwards, spread, hblanks, hc]
  cases item with
  | name text => exact ⟨h.1, hhead h.2⟩
  | loopBegin | loopEnd => exact hhead h
  | close => trivial

/-- A scan of the looser template goes the same way, each place being that of its character. -/
def ScansAlike (loosening : Loosening template) (cursor cursor' : Cursor) : Prop :=
  loosening.Reads cursor.scan.1 cursor'.scan.1 ∧
    (cursor.scan.1.isOk → ∃ before', loosening.Alike before' cursor.scan.2 cursor'.scan.2)

theorem scansAlike_iff {cursor' : Cursor} {reading : Reading} (h : cursor.scan = (reading, next)) :
    loosening.ScansAlike cursor cursor' ↔
      loosening.Reads reading cursor'.scan.1 ∧
        (reading.isOk → ∃ before', loosening.Alike before' next cursor'.scan.2) := by
  rw [ScansAlike, h]

/-- Standing behind what has been passed, with nothing owed. -/
def standing (passed : List Char) (mode : Mode) (ahead : List Char) : Cursor :=
  ⟨⟨Place.start.after passed, mode, none⟩, ahead⟩

theorem scans_lastText {run : TextRun} (hpieces : run.pieces ≠ []) (hbeyond : run.beyond = none)
    (hread : TextRun.read run.spelling = run)
    (hreads : (Cursor.ofTemplate template).ReadsTo (standing before .text run.spelling))
    (hsplit : template.toList = before ++ run.spelling) :
    loosening.ScansAlike (standing before .text run.spelling)
      (standing (loosening.spread 0 before) .text
        (loosening.onwards before.length run.spelling)) := by
  have hscan : (standing before .text run.spelling).scan = _ :=
    Cursor.scan_of_read hread hpieces _
  rw [Cursor.behindText, hbeyond] at hscan
  rw [scansAlike_iff hscan]
  have hnext := hreads.tail ⟨_, hscan⟩
  have hrun : loosening.Quiet before.length run.spelling :=
    loosening.quiet_of_scan hreads hsplit hscan (List.append_nil _).symm
  have hfirst := loosening.inserted_of_text hreads hsplit rfl
  have hlast : loosening.inserted (before ++ run.spelling).length = [] :=
    loosening.inserted_of_text hnext (by simpa using hsplit) rfl
  have hahead := hrun.onwards fun _ => by rw [← List.length_append, hlast]
  have halike := hrun.alike (mt run.spelling_eq_nil_iff.mp hpieces) hnext
    (by simpa using hsplit) rfl .none
  rw [hfirst, List.nil_append] at hahead halike
  have hend : loosening.onwards (before ++ run.spelling).length [] = [] := hlast
  simp only [standing, hahead, Cursor.scan_of_read hread hpieces, Cursor.behindText, hbeyond]
  exact ⟨.token (corresponds_of_text hsplit hfirst), fun _ => ⟨_, hend ▸ halike⟩⟩

theorem scans_text {run : TextRun} {beyond : List Char} (hpieces : run.pieces ≠ [])
    (hbeyond : run.beyond = some beyond)
    (hread : TextRun.read (run.spelling ++ '{' :: '{' :: beyond) = run)
    (hreads : (Cursor.ofTemplate template).ReadsTo
      (standing before .text (run.spelling ++ '{' :: '{' :: beyond)))
    (hsplit : template.toList = before ++ (run.spelling ++ '{' :: '{' :: beyond)) :
    loosening.ScansAlike (standing before .text (run.spelling ++ '{' :: '{' :: beyond))
      (standing (loosening.spread 0 before) .text
        (loosening.onwards before.length (run.spelling ++ '{' :: '{' :: beyond))) := by
  have hscan : (standing before .text (run.spelling ++ '{' :: '{' :: beyond)).scan = _ :=
    Cursor.scan_of_read hread hpieces _
  rw [Cursor.behindText, hbeyond] at hscan
  rw [scansAlike_iff hscan]
  have hpassed : loosening.Quiet before.length (run.spelling ++ ['{', '{']) :=
    loosening.quiet_of_scan hreads hsplit hscan (by simp [standing])
  have hfirst := loosening.inserted_of_text hreads hsplit rfl
  -- Of the text and the braces behind it, the text alone is what the tag begins behind.
  have hstop := hpassed.of_append.corresponds (hpassed.between (by simp)) hsplit
  have hahead := hpassed.ahead (by simp) beyond
  have halike := hpassed.alike (by simp) (hreads.tail ⟨_, hscan⟩) (by simpa using hsplit)
    (Place.after_append ..).symm (.some hstop)
  rw [hfirst, List.nil_append] at hahead halike hstop
  rw [Place.after_append] at halike
  simp only [List.append_assoc, List.cons_append, List.nil_append] at hahead
  have hread := TextRun.read_redirect hread hbeyond
    (loosening.onwards (before ++ (run.spelling ++ ['{', '{'])).length beyond)
  simp only [standing, hahead, Cursor.scan_of_read hread hpieces, Cursor.behindText]
  exact ⟨.token (corresponds_of_text hsplit hfirst), fun _ => ⟨_, halike⟩⟩

theorem scans_item {blanks rest : List Char} {item : TagItem}
    (hblanks : blanks.all TagItem.isBlank) (hfits : item.Fits rest)
    (hreads : (Cursor.ofTemplate template).ReadsTo
      (standing before .tag (blanks ++ (item.spelling ++ rest))))
    (hsplit : template.toList = before ++ (blanks ++ (item.spelling ++ rest))) :
    loosening.ScansAlike (standing before .tag (blanks ++ (item.spelling ++ rest)))
      (standing (loosening.spread 0 before) .tag
        (loosening.onwards before.length (blanks ++ (item.spelling ++ rest)))) := by
  have hscan : (standing before .tag (blanks ++ (item.spelling ++ rest))).scan = _ :=
    Grammar.scan_item _ hblanks hfits
  rw [scansAlike_iff hscan]
  have hpassed : loosening.Quiet before.length (blanks ++ item.spelling) :=
    loosening.quiet_of_scan hreads hsplit hscan (by simp [standing])
  have hitem := TagItem.spelling_ne_nil_of_read
    ((TagItem.read_eq_ok_iff ..).mpr ⟨rest, rfl, hfits⟩)
  have hspan := hpassed.of_append.corresponds (hpassed.between hitem) hsplit
  have hahead := hpassed.ahead (by simp [hitem]) rest
  have halike := hpassed.alike (by simp [hitem]) (hreads.tail ⟨_, hscan⟩) (by simpa using hsplit)
    (Place.after_append ..).symm .none
  have hblanks' : (loosening.inserted before.length ++ blanks).all TagItem.isBlank := by
    rw [List.all_append, loosening.blank, hblanks, Bool.and_self]
  rw [List.append_assoc, List.append_assoc, ← List.append_assoc (loosening.inserted _)] at hahead
  rw [← List.append_assoc (loosening.inserted _), Place.after_append] at halike
  simp only [standing, hahead, Grammar.scan_item _ hblanks' (fits_onwards hfits _)]
  exact ⟨.token hspan, fun _ => ⟨_, halike⟩⟩

theorem scans_stuck {blanks items : List Char} {fault : ScanFault}
    (hblanks : blanks.all TagItem.isBlank) (hitems : items.head?.all (!TagItem.isBlank ·))
    (hread : TagItem.read items = .error fault)
    (hreads : (Cursor.ofTemplate template).ReadsTo (standing before .tag (blanks ++ items)))
    (hsplit : template.toList = before ++ (blanks ++ items)) :
    loosening.ScansAlike (standing before .tag (blanks ++ items))
      (standing (loosening.spread 0 before) .tag
        (loosening.onwards before.length (blanks ++ items))) := by
  have hscan : (standing before .tag (blanks ++ items)).scan = _ :=
    Grammar.scanTag_skip _ hblanks hitems
  rw [hread] at hscan
  rw [scansAlike_iff hscan]
  have hnone {between : Nat} (hlt : before.length < between) :=
    loosening.inserted_of_stuck hreads hsplit hscan hlt
  have hbehind (passed : List Char) (hne : passed ≠ []) :
      loosening.inserted (before.length + passed.length) = [] :=
    hnone (Nat.lt_add_of_pos_right (List.length_pos_iff.mpr hne))
  have hquiet (chars : List Char) : loosening.Quiet before.length chars :=
    fun between hlt _ => hnone hlt
  have hahead := (hquiet (blanks ++ items)).onwards (hbehind _)
  have hspan := (hquiet blanks).corresponds (hbehind _) hsplit
  have hblanks' : (loosening.inserted before.length ++ blanks).all TagItem.isBlank := by
    rw [List.all_append, loosening.blank, hblanks, Bool.and_self]
  rw [← List.append_assoc] at hahead
  refine ⟨?_, nofun⟩
  change loosening.Reads _ (Cursor.scanTag _ (loosening.onwards _ _)).1
  rw [hahead, Grammar.scanTag_skip _ hblanks' hitems, hread]
  exact .failure hspan

theorem Alike.scan {cursor' : Cursor} (h : loosening.Alike before cursor cursor') :
    loosening.ScansAlike cursor cursor' := by
  obtain ⟨⟨place', mode', owed'⟩, ahead'⟩ := cursor'
  obtain ⟨hreads, hsplit, hplace, hplace', hahead, hmode, howed⟩ := h
  dsimp only at hplace' hahead hmode howed
  subst hplace' hahead hmode
  have hscans := cursor.scan_scans
  rcases hscan : cursor.scan with ⟨reading, next⟩
  rw [hscan] at hscans
  cases hscans with
  | owed place mode span ahead =>
      cases howed with
      | some hspan =>
          have hnext := hreads.tail ⟨_, hscan⟩
          exact ⟨.token hspan, fun _ => ⟨before, hnext, hsplit, hplace, rfl, rfl, rfl, .none⟩⟩
  | endOfInput place =>
      cases howed
      obtain rfl : place = _ := hplace
      have hend := loosening.inserted_of_text hreads hsplit rfl
      have hahead : loosening.onwards before.length [] = [] := hend
      simp only [hahead]
      exact ⟨.token (corresponds_of_text hsplit hend), fun _ =>
        ⟨before, hreads, hsplit, rfl, rfl, hahead.symm, rfl, .none⟩⟩
  | opening place beyond =>
      cases howed
      obtain rfl : place = _ := hplace
      have hfirst := loosening.inserted_of_text hreads hsplit rfl
      have hopening : loosening.Quiet before.length ['{', '{'] :=
        loosening.quiet_of_scan hreads hsplit hscan rfl
      have hahead := hopening.ahead (by simp) beyond
      have halike := hopening.alike (by simp) (hreads.tail ⟨_, hscan⟩) hsplit rfl .none
      rw [hfirst] at hahead halike
      change loosening.onwards before.length ('{' :: '{' :: beyond) = _ at hahead
      simp only [hahead]
      exact ⟨.token (corresponds_of_text hsplit hfirst), fun _ => ⟨_, halike⟩⟩
  | lastText place run hpieces hbeyond hread =>
      cases howed
      obtain rfl : place = _ := hplace
      exact scans_lastText hpieces hbeyond hread hreads hsplit
  | text place run beyond hpieces hbeyond hread =>
      cases howed
      obtain rfl : place = _ := hplace
      exact scans_text hpieces hbeyond hread hreads hsplit
  | item place blanks rest item hblanks hread =>
      cases howed
      obtain rfl : place = _ := hplace
      obtain ⟨_, hrest, hfits⟩ := (TagItem.read_eq_ok_iff ..).mp hread
      obtain rfl := List.append_cancel_left hrest
      exact scans_item hblanks hfits hreads hsplit
  | stuck place blanks items fault hblanks hitems hread =>
      cases howed
      obtain rfl : place = _ := hplace
      exact scans_stuck hblanks hitems hread hreads hsplit

theorem alike_ofTemplate (loosening : Loosening template) :
    loosening.Alike [] (.ofTemplate template) (.ofTemplate loosening.looser) where
  reads := .refl
  split := rfl
  place := rfl
  place' := rfl
  ahead := String.toList_ofList
  mode := rfl
  owed := .none

/-! ## Tokens side by side -/

variable {reading reading' : Reading}

theorem Reads.isLast (h : loosening.Reads reading reading') :
    Reading.isLast reading' = Reading.isLast reading := by
  cases h <;> rfl

theorem Reads.loops (h : loosening.Reads reading reading') :
    Reading.loops reading' = Reading.loops reading := by
  cases h <;> rfl

theorem Alike.readings {cursor' : Cursor} (h : loosening.Alike before cursor cursor') :
    List.Forall₂ loosening.Reads cursor.readings cursor'.readings := by
  induction cursor using Cursor.readings.induct generalizing before cursor' with
  | case1 cursor hlast =>
      obtain ⟨hreads, -⟩ := h.scan
      rw [Cursor.readings_of_isLast hlast, Cursor.readings_of_isLast (hreads.isLast ▸ hlast)]
      exact .cons hreads .nil
  | case2 cursor hlast ih =>
      obtain ⟨hreads, hnext⟩ := h.scan
      have hok : cursor.scan.1.isOk := by
        cases hscan : cursor.scan.1 with
        | ok mark => rfl
        | error error => simp [hscan, Reading.isLast] at hlast
      obtain ⟨before', hnext⟩ := hnext hok
      have hlast : Reading.isLast cursor.scan.1 = false := by simpa using hlast
      rw [Cursor.readings_of_not_isLast hlast,
        Cursor.readings_of_not_isLast (hreads.isLast.trans hlast)]
      exact .cons hreads (ih hnext)

/-- The tokens say the same, each at its place. -/
def Tokens (loosening : Loosening template) (token token' : Token) : Prop :=
  token.Agrees token' ∧ loosening.Corresponds token.span token'.span

/-- The errors are the same, each at its place. -/
inductive Errors (loosening : Loosening template) : RenderError → RenderError → Prop
  | lexical {error error' : ScanError} (hfault : error'.fault = error.fault)
      (hspan : loosening.Corresponds error.span error'.span) :
      Errors loosening (.lexical error) (.lexical error')
  | grammar {error error' : GrammarError} (hfault : error'.fault = error.fault)
      (hspan : loosening.Corresponds error.span error'.span) :
      Errors loosening (.grammar error) (.grammar error')
  | unresolved (error : NameError) : Errors loosening (.unresolved error) (.unresolved error)
  | refusedWrite : Errors loosening .refusedWrite .refusedWrite

end Loosening

/-- Two verdicts, of which both or none is an error. -/
inductive Verdicts {ε α : Type} (errors : ε → ε → Prop) (values : α → α → Prop) :
    Except ε α → Except ε α → Prop
  | ok {value value' : α} (h : values value value') :
      Verdicts errors values (.ok value) (.ok value')
  | error {error error' : ε} (h : errors error error') :
      Verdicts errors values (.error error) (.error error')

theorem Verdicts.map {ε α : Type} {errors : ε → ε → Prop} {values values' : α → α → Prop}
    {verdict verdict' : Except ε α} (h : Verdicts errors values verdict verdict') {f f' : α → α}
    (hvalues : ∀ value value', values value value' → values' (f value) (f' value')) :
    Verdicts errors values' (verdict.map f) (verdict'.map f') := by
  cases h with
  | ok h => exact .ok (hvalues _ _ h)
  | error h => exact .error h

namespace Loosening

variable {template : String} {loosening : Loosening template}

theorem tokens_of_reads {readings readings' : List Reading}
    (h : List.Forall₂ loosening.Reads readings readings') (number : Nat) :
    Verdicts (fun error error' => loosening.Errors (.lexical error) (.lexical error'))
      (List.Forall₂ loosening.Tokens) (Reading.tokens number readings)
      (Reading.tokens number readings') := by
  induction h generalizing number with
  | nil => exact .ok .nil
  | cons hreads _ ih =>
      cases hreads with
      | failure hspan => exact .error (.lexical rfl hspan)
      | @token lexeme _ _ hspan =>
          simp only [Reading.tokens]
          exact (ih (number + lexeme.loops)).map fun _ _ => .cons ⟨⟨rfl, rfl⟩, hspan⟩

/-! ## Renderings side by side -/

structure Runs (loosening : Loosening template) (run run' : Run) : Prop where
  cursor : ∃ before, loosening.Alike before run.cursor run'.cursor
  loops : run'.loops = run.loops
  environment : run'.environment = run.environment
  sink : run'.sink = run.sink

def Failures (loosening : Loosening template) (error error' : RenderError) (run run' : Run) :
    Prop :=
  loosening.Errors error error' ∧ run'.sink = run.sink

end Loosening

namespace Rendering

variable {template : String} {loosening : Loosening template} {run run' : Run}

/-- Two steps that come to no value. -/
abbrev Follow (loosening : Loosening template) :
    EStateM.Result RenderError Run Unit → EStateM.Result RenderError Run Unit → Prop :=
  Both (fun _ _ => True) loosening.Runs loosening.Failures

theorem runs_note (h : loosening.Runs run run') (event event' : Event) :
    loosening.Runs (run.note event) (run'.note event') :=
  ⟨h.cursor, h.loops, h.environment, h.sink⟩

theorem scan_follows (h : loosening.Runs run run') (site : Site) :
    Both loosening.Tokens loosening.Runs loosening.Failures (scan site run) (scan site run') := by
  obtain ⟨before, halike⟩ := h.cursor
  obtain ⟨hreads, hnext⟩ := halike.scan
  have hsink : (run'.scanned site).sink = (run.scanned site).sink := h.sink
  have hruns (hok : run.cursor.scan.1.isOk) :
      loosening.Runs (run.scanned site) (run'.scanned site) :=
    ⟨hnext hok, congrArg₂ (· + ·) h.loops hreads.loops, h.environment, h.sink⟩
  rw [scan_eq, scan_eq, h.loops]
  generalize run.cursor.scan.1 = reading, run'.cursor.scan.1 = reading' at hreads hruns
  cases hreads with
  | token hspan => exact .ok ⟨⟨rfl, rfl⟩, hspan⟩ (hruns rfl)
  | failure hspan => exact .error ⟨.lexical rfl hspan, hsink⟩

theorem demand_follows (h : loosening.Runs run run') (kind : TokenKind) :
    Both loosening.Tokens loosening.Runs loosening.Failures (demand kind run)
      (demand kind run') := by
  apply (scan_follows h .tag).bind
  rintro ⟨found, text, span⟩ ⟨found', text', span'⟩ later later' ⟨⟨hfound, htext⟩, hspan⟩ hlater
  obtain rfl : found = found' := hfound
  obtain rfl : text = text' := htext
  dsimp only
  split
  · exact .ok ⟨⟨rfl, rfl⟩, hspan⟩ hlater
  · exact .error ⟨.grammar rfl hspan, hlater.sink⟩

theorem write_follows (h : loosening.Runs run run') (piece : String) :
    Follow loosening (write piece run) (write piece run') := by
  unfold write
  simp only [bind_get, h.sink]
  split
  · exact .ok trivial ⟨h.cursor, h.loops, h.environment, congrArg (·.add piece) h.sink⟩
  · exact .error ⟨.refusedWrite, h.sink⟩

theorem resolve_follows {α : Type} (h : loosening.Runs run run') (found : Except NameError α) :
    Both Eq loosening.Runs loosening.Failures (resolve found run) (resolve found run') := by
  cases found with
  | ok value => exact .ok rfl h
  | error error => exact .error ⟨.unresolved error, h.sink⟩

theorem insertValue_follows (h : loosening.Runs run run') (name : String) (emit : Bool) :
    Follow loosening (insertValue name emit run) (insertValue name emit run') := by
  unfold insertValue
  rw [bind_get, bind_get, h.environment]
  apply (resolve_follows h _).bind
  rintro value _ later later' rfl hlater
  cases emit with
  | false => exact (demand_follows hlater .scriptEnd).discard
  | true =>
      apply (write_follows hlater value).bind
      exact fun _ _ _ _ _ hwritten => (demand_follows hwritten .scriptEnd).discard

def BodyFollows (loosening : Loosening template) (blocks : Nat) : Prop :=
  ∀ (emit : Bool) (run run' : Run), loosening.Runs run run' →
    Follow loosening (body blocks emit run) (body blocks emit run')

section Loops

variable {blocks : Nat} {start start' : Cursor} {before : List Char}

theorem round_follows (hbody : BodyFollows loosening blocks)
    (hstart : loosening.Alike before start start') (h : loosening.Runs run run')
    (item value : String) (emit : Bool) :
    Follow loosening (round start item (pass (body blocks) emit) value run)
      (round start' item (pass (body blocks) emit) value run') := by
  have hbegun : loosening.Runs (run.begun start item value emit)
      (run'.begun start' item value emit) :=
    ⟨⟨before, hstart⟩, h.loops, congrArg (·.define item value) h.environment, h.sink⟩
  rw [round_eq, round_eq]
  apply (hbody emit _ _ hbegun).bind
  exact fun _ _ _ _ _ hlater => .ok trivial (runs_note hlater .passEnded .passEnded)

theorem forM_follows (hbody : BodyFollows loosening blocks)
    (hstart : loosening.Alike before start start') (h : loosening.Runs run run') (item : String)
    (elements : List String) :
    Follow loosening (elements.forM (round start item (pass (body blocks) true)) run)
      (elements.forM (round start' item (pass (body blocks) true)) run') := by
  induction elements generalizing run run' with
  | nil => exact .ok trivial h
  | cons element elements ih =>
      apply (round_follows hbody hstart h item element true).bind
      exact fun _ _ _ _ _ hlater => ih hlater

theorem passes_follow (hbody : BodyFollows loosening blocks) (h : loosening.Runs run run')
    (item : String) (elements : List String) (emit : Bool) :
    Follow loosening (passes (pass (body blocks)) item elements emit run)
      (passes (pass (body blocks)) item elements emit run') := by
  obtain ⟨before, hstart⟩ := h.cursor
  have hsilent := round_follows hbody hstart h item "" false
  cases emit with
  | false => exact hsilent
  | true =>
      cases elements with
      | nil => exact hsilent
      | cons element elements => exact forM_follows hbody hstart h item (element :: elements)

theorem loop_follows (hbody : BodyFollows loosening blocks) (h : loosening.Runs run run')
    (frame : String) (emit : Bool) :
    Follow loosening (loop (pass (body blocks)) frame emit run)
      (loop (pass (body blocks)) frame emit run') := by
  unfold loop
  apply (demand_follows h .identifier).bind
  rintro array array' first first' ⟨⟨-, harray⟩, -⟩ hfirst
  rw [bind_get, bind_get, hfirst.environment, harray]
  split
  · exact .error ⟨.unresolved _, hfirst.sink⟩
  apply (demand_follows hfirst .identifier).bind
  rintro item item' second second' ⟨⟨-, hitem⟩, -⟩ hsecond
  apply (demand_follows hsecond .scriptEnd).discard.bind
  intro _ _ third third' _ hthird
  have hentered : loosening.Runs { third with environment := third.environment.enter frame }
      { third' with environment := third'.environment.enter frame } :=
    ⟨hthird.cursor, hthird.loops, congrArg (·.enter frame) hthird.environment, hthird.sink⟩
  rw [bind_modify, bind_modify, bind_get, bind_get]
  simp only [hthird.environment, hitem]
  rw [hthird.environment] at hentered
  apply (resolve_follows hentered _).bind
  rintro elements _ inside inside' rfl hinside
  apply (passes_follow hbody (runs_note hinside _ _) item'.text elements emit).bind
  intro _ _ later later' _ hlater
  exact .ok trivial
    ⟨hlater.cursor, hlater.loops, congrArg (·.leave.2) hlater.environment, hlater.sink⟩

end Loops

theorem tag_follows {blocks : Nat} (hbody : BodyFollows loosening blocks)
    (h : loosening.Runs run run') (emit : Bool) {token token' : Token}
    (htoken : loosening.Tokens token token') :
    Follow loosening (tag (body blocks) emit token run) (tag (body blocks) emit token' run') := by
  obtain ⟨kind, text, span⟩ := token
  obtain ⟨kind', text', span'⟩ := token'
  obtain ⟨⟨hkind, htext⟩, hspan⟩ := htoken
  obtain rfl : kind = kind' := hkind
  obtain rfl : text = text' := htext
  cases kind with
  | identifier =>
      apply (insertValue_follows h text emit).bind
      exact fun _ _ _ _ _ hlater => hbody emit _ _ hlater
  | loopBegin =>
      apply (loop_follows hbody h text emit).bind
      exact fun _ _ _ _ _ hlater => hbody emit _ _ hlater
  | loopEnd =>
      simp only [tag, bind_get, h.environment]
      cases run.environment.atRoot with
      | true => exact .error ⟨.grammar rfl hspan, h.sink⟩
      | false => exact (demand_follows h .scriptEnd).discard
  | _ => exact .error ⟨.grammar rfl hspan, h.sink⟩

theorem body_follows (loosening : Loosening template) (blocks : Nat) :
    BodyFollows loosening blocks := by
  induction blocks with
  | zero => exact fun _ _ _ h => .ok trivial h
  | succ blocks ih =>
      intro emit run run' h
      apply (scan_follows h .body).bind
      rintro ⟨kind, text, span⟩ ⟨kind', text', span'⟩ later later' ⟨⟨hkind, htext⟩, hspan⟩ hlater
      obtain rfl : kind = kind' := hkind
      obtain rfl : text = text' := htext
      cases kind with
      | endOfInput => exact .ok trivial hlater
      | literal =>
          cases emit with
          | false => exact ih false _ _ hlater
          | true =>
              apply (write_follows hlater text).bind
              exact fun _ _ _ _ _ hwritten => ih true _ _ hwritten
      | scriptBegin =>
          apply (scan_follows hlater .tag).bind
          exact fun _ _ _ _ htoken hopened => tag_follows ih hopened emit htoken
      | _ => exact .error ⟨.grammar rfl hspan, hlater.sink⟩

theorem template_follows (h : loosening.Runs run run') (hcursor : run.cursor = .ofTemplate template)
    (hcursor' : run'.cursor = .ofTemplate loosening.looser) :
    Follow loosening (renderTemplate template run) (renderTemplate loosening.looser run') := by
  generalize hstart : run.started template.utf8ByteSize = start,
    hstart' : run'.started loosening.looser.utf8ByteSize = start'
  have hstarts : loosening.Runs start start' :=
    hstart ▸ hstart' ▸ runs_note (runs_note h _ _) _ _
  have hbound : start.cursor.scanBound ≤ template.length + 1 := by
    subst hstart
    exact hcursor ▸ Cursor.scanBound_ofTemplate_le template
  have hbound' : start'.cursor.scanBound ≤ loosening.looser.length + 1 := by
    subst hstart'
    exact hcursor' ▸ Cursor.scanBound_ofTemplate_le loosening.looser
  -- The two have as many blocks to spend as they have characters, but neither spends them all.
  have hfollow := body_follows loosening (template.length + 1 + (loosening.looser.length + 1))
    true start start' hstarts
  rw [← body_eq_of_le hbound (Nat.le_add_right_of_le hbound),
    ← body_eq_of_le hbound' (Nat.le_add_left_of_le hbound')] at hfollow
  rw [renderTemplate_eq, renderTemplate_eq, hstart, hstart']
  generalize body (template.length + 1) true start = result,
    body (loosening.looser.length + 1) true start' = result' at hfollow ⊢
  cases hfollow with
  | ok _ hlater => exact .ok trivial (runs_note (runs_note hlater _ _) _ _)
  | error hfailed => exact .error hfailed

end Rendering

/--
Blanks between the tokens of tags say nothing.  The tokens of the looser
template are the same, or it is refused for the same reason, and rendering it
writes the same pieces and comes to the same result; every place told is that
of the same character.
-/
theorem loosened_template_renders_alike {template : String} (loosening : Loosening template) :
    Verdicts (fun error error' => loosening.Errors (.lexical error) (.lexical error'))
        (List.Forall₂ loosening.Tokens) (tokensOf template) (tokensOf loosening.looser) ∧
      ∀ (values : Values) (arrays : Arrays) (sink : Sink),
        let outcome := render values arrays template sink
        let outcome' := render values arrays loosening.looser sink
        outcome'.sink = outcome.sink ∧
          Verdicts loosening.Errors Eq outcome.result outcome'.result := by
  constructor
  · rw [tokensOf_eq, tokensOf_eq]
    exact loosening.tokens_of_reads (loosening.alike_ofTemplate.readings) 0
  · intro values arrays sink
    dsimp only
    let start := (Session.ofBindings values arrays).start template sink
    let start' := (Session.ofBindings values arrays).start loosening.looser sink
    have hstart : loosening.Runs start start' :=
      ⟨⟨[], loosening.alike_ofTemplate⟩, rfl, rfl, rfl⟩
    have hfollow := Rendering.template_follows hstart rfl rfl
    rw [Rendering.render_eq_outcomeOf, Rendering.render_eq_outcomeOf]
    change Rendering.Follow loosening (Rendering.renderTemplate template start)
      (Rendering.renderTemplate loosening.looser start') at hfollow
    generalize Rendering.renderTemplate template start = result,
      Rendering.renderTemplate loosening.looser start' = result' at hfollow ⊢
    cases hfollow with
    | ok _ hlater => exact ⟨hlater.sink, .ok rfl⟩
    | error hfailed => exact ⟨hfailed.2, .error hfailed.1⟩

/-- A line break behind the name of a tag. -/
theorem loosened_template_renders_alike_behind_name :
    ∃ loosening : Loosening "\x7b\x7ba\x7d\x7d", loosening.looser = "\x7b\x7ba\n\x7d\x7d" ∧
      ∀ (values : Values) (arrays : Arrays) (sink : Sink),
        (render values arrays "\x7b\x7ba\n\x7d\x7d" sink).sink =
          (render values arrays "\x7b\x7ba\x7d\x7d" sink).sink := by
  let opened : Cursor := ⟨⟨⟨2, 1, 3⟩, .tag, none⟩, ['a', '}', '}']⟩
  let named : Cursor := ⟨⟨⟨3, 1, 4⟩, .tag, none⟩, ['}', '}']⟩
  have hreads : (Cursor.ofTemplate "\x7b\x7ba\x7d\x7d").ReadsTo named :=
    .tail (.single ⟨_, (rfl : _ = (_, opened))⟩) ⟨_, (rfl : _ = (_, named))⟩
  have hsplit : "\x7b\x7ba\x7d\x7d".toList = ['{', '{', 'a'] ++ named.ahead := by decide
  have hblanks : ['\n'].all TagItem.isBlank := by decide
  let loosening := Loosening.one hsplit hreads rfl hblanks
  have hlooser : loosening.looser = "\x7b\x7ba\n\x7d\x7d" := Loosening.looser_one ..
  refine ⟨loosening, hlooser, fun values arrays sink => ?_⟩
  have halike := (loosened_template_renders_alike loosening).2 values arrays sink
  exact hlooser ▸ halike.1

end Stencil
