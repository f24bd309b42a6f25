import Stencil.Proofs.Grammar

/-!
# What templates can say

The rows of kinds and texts that are the tokens of some template.  Tags can
be put together freely, and so can names.  Texts cannot: two spellings of a
pair of braces are not enough to keep every text apart from a tag or from an
escape.  Which texts are lost depends on the runs of braces in them alone,
since a run is read as pairs from its left end.
-/

namespace Stencil

/-- What a token says, apart from where it stands. -/
def Token.said (token : Token) : TokenKind × String := (token.kind, token.text)

/-! ## Runs of opening braces -/

/-- A maximal run of opening braces, odd in number, stands right before the rest. -/
def OddRun (text rest : List Char) : Prop :=
  ∃ before half, text = before ++ (List.replicate (2 * half + 1) '{' ++ rest) ∧
    before.getLast? ≠ some '{' ∧ rest.head? ≠ some '{'

/-- The last brace of an odd run, a backslash and a lone brace would be read as a pair. -/
def FormsEscape (text : List Char) : Prop :=
  ∃ after, after.head? ≠ some '{' ∧ OddRun text ('\\' :: '{' :: after)

/-- The end of the text and a tag behind it would be read otherwise. -/
def SpoilsOpening (text : List Char) : Prop :=
  text.getLast? = some '\\' ∨ OddRun text []

theorem not_oddRun_nil (rest : List Char) : ¬OddRun [] rest := by
  rintro ⟨before, half, htext, -, -⟩
  simp at htext

theorem oddRun_pair (text rest : List Char) :
    OddRun ('{' :: '{' :: text) rest ↔ OddRun text rest := by
  constructor
  · rintro ⟨before, half, htext, hbefore, hrest⟩
    match before, half with
    | [], 0 =>
        obtain rfl : '{' :: text = rest := by simpa using htext
        simp at hrest
    | [], half + 1 =>
        refine ⟨[], half, ?_, by simp, hrest⟩
        simpa [Nat.mul_add, List.replicate_succ] using htext
    | [c], _ =>
        obtain ⟨rfl, -⟩ := List.cons.inj htext
        simp at hbefore
    | _ :: _ :: before, half =>
        refine ⟨before, half, by simp_all, fun hlast => hbefore ?_, hrest⟩
        simp [List.getLast?_cons, hlast]
  · rintro ⟨before, half, rfl, hbefore, hrest⟩
    match before with
    | [] => exact ⟨[], half + 1, by simp [Nat.mul_add, List.replicate_succ], by simp, hrest⟩
    | c :: before =>
        refine ⟨'{' :: '{' :: c :: before, half, rfl, ?_, hrest⟩
        simpa [List.getLast?_cons_cons] using hbefore

theorem oddRun_cons {c : Char} (hc : c ≠ '{') (text rest : List Char) :
    OddRun (c :: text) rest ↔ OddRun text rest := by
  constructor
  · rintro ⟨before, half, htext, hbefore, hrest⟩
    match before with
    | [] => simp [List.replicate_succ, hc] at htext
    | [_] => exact ⟨[], half, by simp_all, by simp, hrest⟩
    | _ :: d :: before =>
        refine ⟨d :: before, half, by simp_all, ?_, hrest⟩
        simpa [List.getLast?_cons_cons] using hbefore
  · rintro ⟨before, half, rfl, hbefore, hrest⟩
    refine ⟨c :: before, half, rfl, ?_, hrest⟩
    cases before with
    | nil => simpa using hc
    | cons d before => simpa [List.getLast?_cons_cons] using hbefore

theorem oddRun_brace {text : List Char} (hhead : text.head? ≠ some '{') (rest : List Char) :
    OddRun ('{' :: text) rest ↔ text = rest ∨ OddRun text rest := by
  constructor
  · rintro ⟨before, half, htext, hbefore, hrest⟩
    match before, half with
    | [], 0 => exact .inl (by simpa using htext)
    | [], half + 1 =>
        obtain ⟨-, rfl⟩ := List.cons.inj htext
        simp [Nat.mul_add, List.replicate_succ] at hhead
    | [c], _ =>
        obtain ⟨rfl, -⟩ := List.cons.inj htext
        simp at hbefore
    | _ :: d :: before, half =>
        refine .inr ⟨d :: before, half, by simp_all, ?_, hrest⟩
        simpa [List.getLast?_cons_cons] using hbefore
  · rintro (rfl | ⟨before, half, rfl, hbefore, hrest⟩)
    · exact ⟨[], 0, rfl, by simp, hhead⟩
    · match before with
      | [] => simp [List.replicate_succ] at hhead
      | c :: before =>
          refine ⟨'{' :: c :: before, half, rfl, ?_, hrest⟩
          simpa [List.getLast?_cons_cons] using hbefore

theorem formsEscape_pair (text : List Char) :
    FormsEscape ('{' :: '{' :: text) ↔ FormsEscape text := by
  simp only [FormsEscape, oddRun_pair]

theorem formsEscape_cons {c : Char} (hc : c ≠ '{') (text : List Char) :
    FormsEscape (c :: text) ↔ FormsEscape text := by
  simp only [FormsEscape, oddRun_cons hc]

theorem formsEscape_brace {text : List Char} (hhead : text.head? ≠ some '{') :
    FormsEscape ('{' :: text) ↔
      (∃ after, after.head? ≠ some '{' ∧ text = '\\' :: '{' :: after) ∨ FormsEscape text := by
  simp only [FormsEscape, oddRun_brace hhead, and_or_left, exists_or]

theorem getLast?_cons_eq_backslash (c : Char) (text : List Char) :
    (c :: text).getLast? = some '\\' ↔
      c = '\\' ∧ text = [] ∨ text.getLast? = some '\\' := by
  cases text with
  | nil => simp
  | cons d text => simp [List.getLast?_cons_cons]

theorem spoilsOpening_pair (text : List Char) :
    SpoilsOpening ('{' :: '{' :: text) ↔ SpoilsOpening text := by
  simp [SpoilsOpening, oddRun_pair, getLast?_cons_eq_backslash]

theorem spoilsOpening_cons {c : Char} (hc : c ≠ '{') (text : List Char) :
    SpoilsOpening (c :: text) ↔ c = '\\' ∧ text = [] ∨ SpoilsOpening text := by
  simp only [SpoilsOpening, oddRun_cons hc, getLast?_cons_eq_backslash, or_assoc]

theorem spoilsOpening_brace {text : List Char} (hhead : text.head? ≠ some '{') :
    SpoilsOpening ('{' :: text) ↔ text = [] ∨ SpoilsOpening text := by
  simp [SpoilsOpening, oddRun_brace hhead, getLast?_cons_eq_backslash, or_left_comm]

/-! ## Texts that are read -/

namespace TextRun

private abbrev meaningOf (pieces : List TextPiece) : List Char :=
  pieces.flatMap TextPiece.meaning

private theorem meaningOf_eq_nil {pieces : List TextPiece} (h : meaningOf pieces = []) :
    pieces = [] :=
  (meaning_eq_nil_iff ⟨pieces, none⟩).mp h

variable {source rest : List Char} {pieces : List TextPiece}

/-- Nothing that can stand behind a lone brace means a brace. -/
private theorem Spells.head_ne (h : Spells source pieces rest)
    (hfits : (TextPiece.plain '{').Fits source) : (meaningOf pieces).head? ≠ some '{' := by
  obtain ⟨hopening, hsplit, -⟩ := hfits
  cases h with
  | nil => simp
  | @cons piece ahead _ _ _ _ =>
      cases piece with
      | plain c =>
          rintro hhead
          obtain rfl : c = '{' := by simpa [TextPiece.meaning] using hhead
          exact hopening ⟨ahead, rfl⟩
      | splitBraces => exact absurd ⟨_, rfl⟩ hopening
      | guardedBraces => exact absurd ⟨_, rfl⟩ hsplit

/-- A backslash and a lone brace are spelled as they are. -/
private theorem Spells.starts_escape {after : List Char} (h : Spells source pieces rest)
    (hmeaning : meaningOf pieces = '\\' :: '{' :: after) (hafter : after.head? ≠ some '{') :
    ['\\', '{'] <+: source := by
  cases h with
  | nil => cases hmeaning
  | cons piece _ h =>
      cases piece <;> simp [TextPiece.meaning] at hmeaning
      obtain ⟨rfl, hmeaning⟩ := hmeaning
      cases h with
      | nil => cases hmeaning
      | cons piece _ h =>
          cases piece <;> simp [TextPiece.meaning] at hmeaning
          · obtain ⟨rfl, -⟩ := hmeaning
            exact ⟨_, rfl⟩
          all_goals simp [← hmeaning] at hafter

/-- No text that is read forms an escape. -/
theorem Spells.not_formsEscape (h : Spells source pieces rest) :
    ¬FormsEscape (pieces.flatMap TextPiece.meaning) := by
  induction h with
  | nil =>
      rintro ⟨after, -, hrun⟩
      exact not_oddRun_nil _ hrun
  | cons piece hfits h ih =>
      simp only [List.flatMap_cons]
      cases piece with
      | splitBraces | guardedBraces => simpa [TextPiece.meaning, formsEscape_pair] using ih
      | plain c =>
          by_cases hc : c = '{'
          · subst hc
            simp only [TextPiece.meaning, List.singleton_append,
              formsEscape_brace (h.head_ne hfits)]
            rintro (⟨after, hafter, hmeaning⟩ | hforms)
            · obtain ⟨later, rfl⟩ := h.starts_escape hmeaning hafter
              exact hfits.2.1 ⟨later, rfl⟩
            · exact ih hforms
          · simpa [TextPiece.meaning, formsEscape_cons hc] using ih

/-- No text that is read before a tag spoils its opening. -/
theorem Spells.not_spoilsOpening {within : List Char}
    (h : Spells source pieces ('{' :: '{' :: within)) :
    ¬SpoilsOpening (pieces.flatMap TextPiece.meaning) := by
  generalize hrest : '{' :: '{' :: within = rest at h
  induction h with
  | nil => simp [SpoilsOpening, not_oddRun_nil]
  | @cons piece ahead rest pieces hfits h ih =>
      subst hrest
      have hlast (hmeaning : meaningOf pieces = []) : ['{', '{'] <+: ahead := by
        obtain rfl := meaningOf_eq_nil hmeaning
        exact ⟨within, h.source_eq.symm⟩
      simp only [List.flatMap_cons]
      cases piece with
      | splitBraces | guardedBraces => simpa [TextPiece.meaning, spoilsOpening_pair] using ih rfl
      | plain c =>
          by_cases hc : c = '{'
          · subst hc
            simp only [TextPiece.meaning, List.singleton_append,
              spoilsOpening_brace (h.head_ne hfits)]
            rintro (hmeaning | hspoils)
            · obtain ⟨later, rfl⟩ := hlast hmeaning
              exact hfits.1 ⟨_, rfl⟩
            · exact ih rfl hspoils
          · simp only [TextPiece.meaning, List.singleton_append, spoilsOpening_cons hc]
            rintro (⟨rfl, hmeaning⟩ | hspoils)
            · obtain ⟨later, rfl⟩ := hlast hmeaning
              exact hfits.2.2 ⟨later, rfl⟩
            · exact ih rfl hspoils

/-! ## Spelling a text -/

/-- Braces are taken in pairs from the left, and every pair is guarded. -/
def encode : List Char → List TextPiece
  | '{' :: '{' :: text => .guardedBraces :: encode text
  | c :: text => .plain c :: encode text
  | [] => []

theorem meaning_encode (text : List Char) :
    (encode text).flatMap TextPiece.meaning = text := by
  fun_induction encode text with
  | case1 text ih => simp [TextPiece.meaning, ih]
  | case2 c text _ ih => simp [TextPiece.meaning, ih]
  | case3 => rfl

private theorem encode_cons {c : Char} {text : List Char}
    (h : ¬(c = '{' ∧ text.head? = some '{')) : encode (c :: text) = .plain c :: encode text := by
  rw [encode]
  rintro later rfl rfl
  exact h ⟨rfl, rfl⟩

private def spelled (text rest : List Char) : List Char :=
  (encode text).flatMap TextPiece.spelling ++ rest

private theorem spelled_cons {c : Char} {text : List Char}
    (h : ¬(c = '{' ∧ text.head? = some '{')) (rest : List Char) :
    spelled (c :: text) rest = c :: spelled text rest := by
  simp [spelled, encode_cons h, TextPiece.spelling]

/-- Only a lone brace is spelled with a brace in front. -/
private theorem brace_spelled {text rest later : List Char}
    (h : spelled text rest = '{' :: later) :
    text = [] ∧ rest = '{' :: later ∨
      ∃ alone, text = '{' :: alone ∧ alone.head? ≠ some '{' ∧ later = spelled alone rest := by
  cases text with
  | nil => exact .inl ⟨rfl, h⟩
  | cons c alone =>
      by_cases hpair : c = '{' ∧ alone.head? = some '{'
      · obtain ⟨rfl, hhead⟩ := hpair
        obtain ⟨alone, rfl⟩ := List.head?_eq_some_iff.mp hhead
        simp [spelled, encode, TextPiece.spelling] at h
      · obtain ⟨rfl, hlater⟩ := List.cons.inj ((spelled_cons hpair rest).symm.trans h)
        exact .inr ⟨alone, rfl, by simpa using hpair, hlater.symm⟩

private theorem fits_spelled {c : Char} {text rest : List Char}
    (hpair : ¬(c = '{' ∧ text.head? = some '{')) (hforms : ¬FormsEscape (c :: text))
    (hrest : rest.head? ≠ some '\\') (hspoils : rest ≠ [] → ¬SpoilsOpening (c :: text)) :
    (TextPiece.plain c).Fits (spelled text rest) := by
  refine ⟨?_, ?_, ?_⟩ <;> rintro ⟨later, hlater⟩ <;> obtain ⟨rfl, hahead⟩ := List.cons.inj hlater
  · have hhead : text.head? ≠ some '{' := by simpa using hpair
    rcases brace_spelled hahead.symm with ⟨rfl, rfl⟩ | ⟨alone, rfl, -, -⟩
    · exact hspoils (by simp) ((spoilsOpening_brace (by simp)).mpr (.inl rfl))
    · simp at hhead
  · have hhead : text.head? ≠ some '{' := by simpa using hpair
    cases text with
    | nil =>
        obtain rfl : rest = '\\' :: '{' :: later := hahead.symm
        simp at hrest
    | cons d text =>
        have hlone : ¬(d = '{' ∧ text.head? = some '{') := by simp_all
        rw [spelled_cons hlone] at hahead
        obtain ⟨rfl, hbrace⟩ := List.cons.inj hahead
        rcases brace_spelled hbrace.symm with ⟨rfl, rfl⟩ | ⟨alone, rfl, halone, -⟩
        · exact hspoils (by simp) (.inl rfl)
        · exact hforms ((formsEscape_brace hhead).mpr (.inl ⟨alone, halone, rfl⟩))
  · rcases brace_spelled hahead.symm with ⟨rfl, rfl⟩ | ⟨alone, rfl, halone, hnext⟩
    · exact hspoils (by simp) (.inl rfl)
    · rcases brace_spelled hnext.symm with ⟨rfl, rfl⟩ | ⟨_, rfl, -, -⟩
      · refine hspoils (by simp) ((spoilsOpening_cons (by decide) _).mpr (.inr ?_))
        exact (spoilsOpening_brace (by simp)).mpr (.inl rfl)
      · simp at halone

private theorem formsEscape_of_later {c : Char} {text : List Char}
    (hpair : ¬(c = '{' ∧ text.head? = some '{')) (h : FormsEscape text) :
    FormsEscape (c :: text) := by
  by_cases hc : c = '{'
  · subst hc
    exact (formsEscape_brace (by simpa using hpair)).mpr (.inr h)
  · exact (formsEscape_cons hc text).mpr h

private theorem spoilsOpening_of_later {c : Char} {text : List Char}
    (hpair : ¬(c = '{' ∧ text.head? = some '{')) (h : SpoilsOpening text) :
    SpoilsOpening (c :: text) := by
  by_cases hc : c = '{'
  · subst hc
    exact (spoilsOpening_brace (by simpa using hpair)).mpr (.inr h)
  · exact (spoilsOpening_cons hc text).mpr (.inr h)

/-- A text with neither defect is read back, at the end of a template and before a tag. -/
theorem spells_encode {text rest : List Char} (hforms : ¬FormsEscape text)
    (hrest : rest.head? ≠ some '\\') (hspoils : rest ≠ [] → ¬SpoilsOpening text) :
    Spells ((encode text).flatMap TextPiece.spelling ++ rest) (encode text) rest := by
  fun_induction encode text with
  | case1 text ih =>
      rw [formsEscape_pair] at hforms
      rw [spoilsOpening_pair] at hspoils
      exact .cons .guardedBraces trivial (ih hforms hspoils)
  | case2 c text hnot ih =>
      have hpair : ¬(c = '{' ∧ text.head? = some '{') := by
        rintro ⟨rfl, hhead⟩
        obtain ⟨later, rfl⟩ := List.head?_eq_some_iff.mp hhead
        exact hnot later rfl rfl
      have hlater := ih (fun h => hforms (formsEscape_of_later hpair h))
        fun hne h => hspoils hne (spoilsOpening_of_later hpair h)
      exact .cons (.plain c) (fits_spelled hpair hforms hrest hspoils) hlater
  | case3 => exact .nil rest

end TextRun

/-! ## Rows of tokens -/

/-- A letter of ASCII and then letters and digits of ASCII. -/
def IsName (text : String) : Prop :=
  ∃ first later, text.toList = first :: later ∧ first.isAlpha ∧ later.all Char.isAlphanum

/--
What can stand between the braces of a tag.  Loops are numbered as they
begin, and the row takes the next number from the first to the last.
-/
inductive Row : Nat → List (TokenKind × String) → Nat → Prop
  | nil (number : Nat) : Row number [] number
  | name {number past : Nat} {later : List (TokenKind × String)} (text : String)
      (htext : IsName text) (h : Row number later past) :
      Row number ((.identifier, text) :: later) past
  | loopBegin {number past : Nat} {later : List (TokenKind × String)}
      (h : Row (number + 1) later past) :
      Row number ((.loopBegin, Lexeme.loopTag number) :: later) past
  | loopEnd {number past : Nat} {later : List (TokenKind × String)}
      (h : Row number later past) : Row number ((.loopEnd, "/loop") :: later) past

/-- There is no literal where there is no text. -/
def wording (text : List Char) : List (TokenKind × String) :=
  if text = [] then [] else [(.literal, String.ofList text)]

/-- The rows that templates can say, the next loop having the given number. -/
inductive Expressible : Nat → List (TokenKind × String) → Prop
  | text (number : Nat) (text : List Char) (hforms : ¬FormsEscape text) :
      Expressible number (wording text ++ [(.endOfInput, "")])
  | tag {number past : Nat} (text : List Char) {row later : List (TokenKind × String)}
      (hforms : ¬FormsEscape text) (hspoils : ¬SpoilsOpening text)
      (hrow : Row number row past) (h : Expressible past later) :
      Expressible number
        (wording text ++ (.scriptBegin, "\x7b\x7b") :: (row ++ (.scriptEnd, "\x7d\x7d") :: later))

namespace Grammar

/-- What the tokens of a row of lexemes say. -/
def saying (number : Nat) (marks : List Mark) : List (TokenKind × String) :=
  (tokens number marks).map Token.said

theorem saying_cons (number : Nat) (mark : Mark) (marks : List Mark) :
    saying number (mark :: marks) =
      (mark.1.kind, mark.1.text number) :: saying (number + mark.1.loops) marks := rfl

theorem saying_literal (number : Nat) (place : Place) (pieces : List TextPiece)
    (marks : List Mark) :
    saying number (literal place pieces ++ marks) =
      wording (pieces.flatMap TextPiece.meaning) ++ saying number marks := by
  have hnil : pieces.flatMap TextPiece.meaning = [] ↔ pieces = [] :=
    TextRun.meaning_eq_nil_iff ⟨pieces, none⟩
  by_cases hpieces : pieces = []
  · simp [literal, wording, hpieces]
  · rw [literal, if_neg hpieces, wording, if_neg (mt hnil.mp hpieces)]
    rfl

/-! ### What is derived can be said -/

theorem Items.row {place stop : Place} {within rest : List Char} {marks : List Mark}
    (h : Items place within marks stop rest) (number : Nat) :
    ∃ row past, Row number row past ∧
      ∀ later, saying number (marks ++ later) = row ++ saying past later := by
  induction h generalizing number with
  | nil => exact ⟨[], number, .nil number, fun _ => rfl⟩
  | cons place blanks item hblanks hitem hfits h ih =>
      obtain ⟨row, past, hrow, hsaying⟩ := ih (number + item.lexeme.loops)
      refine ⟨(item.lexeme.kind, item.lexeme.text number) :: row, past, ?_, fun later => ?_⟩
      · cases item with
        | name text => exact .name text hfits.1 hrow
        | loopBegin => exact .loopBegin hrow
        | loopEnd => exact .loopEnd hrow
        | close => contradiction
      · rw [List.cons_append, saying_cons, hsaying, List.cons_append]

theorem Derives.expressible {place : Place} {source : List Char} {marks : List Mark}
    (h : Derives place source marks) (number : Nat) :
    Expressible number (saying number marks) := by
  induction h generalizing number with
  | text place htext =>
      rw [saying_literal]
      exact .text number _ htext.not_formsEscape
  | tag place htext hitems hblanks h ih =>
      obtain ⟨row, past, hrow, hsaying⟩ := hitems.row number
      rw [saying_literal, saying_cons]
      simp only [Lexeme.loops, Nat.add_zero]
      rw [hsaying, saying_cons]
      exact .tag _ htext.not_formsEscape htext.not_spoilsOpening hrow (ih past)

/-! ### What can be said is derived -/

/-- The characters derive the row wherever no letter or digit follows them. -/
private def SpellsRow (number : Nat) (row : List (TokenKind × String)) (past : Nat)
    (within : List Char) : Prop :=
  ∀ (place : Place) (rest : List Char), rest.head?.all (!·.isAlphanum) →
    (within ++ rest).head?.all (!·.isAlphanum) ∧
      ∃ marks stop, Items place (within ++ rest) marks stop rest ∧
        ∀ later, saying number (marks ++ later) = row ++ saying past later

/-- A blank before the item keeps it apart from what stands before. -/
private theorem SpellsRow.cons {number past : Nat} {row : List (TokenKind × String)}
    {within : List Char} (item : TagItem) (hitem : item ≠ .close)
    (hfits : ∀ ahead : List Char, ahead.head?.all (!·.isAlphanum) → item.Fits ahead)
    (h : SpellsRow (number + item.lexeme.loops) row past within) :
    SpellsRow number ((item.lexeme.kind, item.lexeme.text number) :: row) past
      ([' '] ++ (item.spelling ++ within)) := by
  intro place rest hrest
  obtain ⟨hhead, marks, stop, hitems, hsaying⟩ :=
    h ((place.after [' ']).after item.spelling) rest hrest
  refine ⟨rfl, (item.lexeme, (place.after [' ']).span) :: marks, stop, ?_, fun later => ?_⟩
  · simpa using hitems.cons place [' '] item rfl hitem (hfits _ hhead)
  · rw [List.cons_append, saying_cons, hsaying, List.cons_append]

private theorem exists_spellsRow {number past : Nat} {row : List (TokenKind × String)}
    (h : Row number row past) : ∃ within, SpellsRow number row past within := by
  induction h with
  | nil => exact ⟨[], fun place rest hrest => ⟨hrest, [], place, .nil place rest, fun _ => rfl⟩⟩
  | name text htext _ ih =>
      obtain ⟨within, hwithin⟩ := ih
      exact ⟨_, hwithin.cons (.name text) (by simp) fun ahead hahead => ⟨htext, hahead⟩⟩
  | loopBegin _ ih =>
      obtain ⟨within, hwithin⟩ := ih
      exact ⟨_, hwithin.cons .loopBegin (by simp) fun ahead hahead => hahead⟩
  | loopEnd _ ih =>
      obtain ⟨within, hwithin⟩ := ih
      exact ⟨_, hwithin.cons .loopEnd (by simp) fun ahead hahead => hahead⟩

theorem exists_derives_of_expressible {number : Nat} {said : List (TokenKind × String)}
    (h : Expressible number said) :
    ∃ source, ∀ place, ∃ marks, Derives place source marks ∧ saying number marks = said := by
  induction h with
  | text number text hforms =>
      have htext : TextRun.Spells ((TextRun.encode text).flatMap TextPiece.spelling ++ [])
          (TextRun.encode text) [] :=
        TextRun.spells_encode hforms (by simp) (by simp)
      refine ⟨_, fun place => ⟨_, .text place htext, ?_⟩⟩
      rw [saying_literal, TextRun.meaning_encode]
      rfl
  | tag text hforms hspoils hrow h ih =>
      obtain ⟨beyond, hbeyond⟩ := ih
      obtain ⟨within, hwithin⟩ := exists_spellsRow hrow
      -- a blank also stands before the closing braces
      let closing := [' '] ++ '}' :: '}' :: beyond
      let source :=
        (TextRun.encode text).flatMap TextPiece.spelling ++ '{' :: '{' :: (within ++ closing)
      have htext : TextRun.Spells source (TextRun.encode text)
          ('{' :: '{' :: (within ++ closing)) :=
        TextRun.spells_encode hforms (by simp) fun _ => hspoils
      refine ⟨source, fun place => ?_⟩
      obtain ⟨-, marks, stop, hitems, hsaying⟩ :=
        hwithin (inside place (TextRun.encode text)) closing rfl
      obtain ⟨marksBeyond, hderives, hsaid⟩ := hbeyond ((stop.after [' ']).after ['}', '}'])
      refine ⟨_, .tag place htext hitems rfl hderives, ?_⟩
      rw [saying_literal, saying_cons, TextRun.meaning_encode]
      simp only [Lexeme.loops, Nat.add_zero]
      rw [hsaying, saying_cons]
      simp only [Lexeme.loops, Nat.add_zero, hsaid]
      rfl

end Grammar

/--
The image of scanning: a row of kinds and texts is said by the tokens of some
template just if it is put together from texts, tags and the end of the input
in their places, and no text in it forms an escape or spoils the tag behind it.
-/
theorem said_iff_expressible (said : List (TokenKind × String)) :
    (∃ template found, tokensOf template = .ok found ∧ found.map Token.said = said) ↔
      Expressible 0 said := by
  constructor
  · rintro ⟨template, found, hfound, rfl⟩
    rcases Grammar.derives_or_stuck .start template.toList with ⟨marks, hmarks⟩ | ⟨error, herror⟩
    · rw [Grammar.tokensOf_of_derives hmarks] at hfound
      obtain rfl := Except.ok.inj hfound
      exact hmarks.expressible 0
    · rw [Grammar.tokensOf_of_stuck herror] at hfound
      cases hfound
  · intro h
    obtain ⟨source, hsource⟩ := Grammar.exists_derives_of_expressible h
    obtain ⟨marks, hmarks, hsaid⟩ := hsource .start
    refine ⟨String.ofList source, Grammar.tokens 0 marks, ?_, hsaid⟩
    exact Grammar.tokensOf_of_derives (by rwa [String.toList_ofList])

end Stencil
