import Stencil.Proofs.Locations

/-!
# Bytes of a template

A template is kept as bytes of UTF-8.  An ASCII character is one byte, which
occurs in no other character, so that single bytes tell where texts of ASCII
begin; an offset tells the characters ahead only where a character begins.
-/

namespace Stencil

/-! ## Bytes -/

def utf8Bytes (chars : List Char) : List UInt8 := chars.flatMap String.utf8EncodeChar

/-- The byte is an ASCII character with the property. -/
def isAscii (p : Char → Bool) (byte : UInt8) : Bool :=
  decide (byte.toNat < 128) && p (Char.ofNat byte.toNat)

theorem utf8Bytes_cons (c : Char) (chars : List Char) :
    utf8Bytes (c :: chars) = String.utf8EncodeChar c ++ utf8Bytes chars := rfl

@[simp] theorem isEmpty_utf8Bytes (chars : List Char) :
    (utf8Bytes chars).isEmpty = chars.isEmpty := by
  cases chars with
  | nil => rfl
  | cons c chars =>
      have hpos : String.utf8EncodeChar c ≠ [] := by
        rw [← List.length_pos_iff, String.length_utf8EncodeChar]
        exact c.utf8Size_pos
      simp [utf8Bytes_cons, hpos]

theorem length_le_length_utf8Bytes (chars : List Char) :
    chars.length ≤ (utf8Bytes chars).length := by
  induction chars with
  | nil => exact Nat.le_refl 0
  | cons c chars ih =>
      have hpos := c.utf8Size_pos
      rw [utf8Bytes_cons, List.length_append, String.length_utf8EncodeChar, List.length_cons]
      omega

theorem utf8EncodeChar_of_lt {c : Char} (hc : c.toNat < 128) :
    String.utf8EncodeChar c = [UInt8.ofNat c.toNat] := by
  have hle : c.val.toNat ≤ 127 := Nat.le_of_lt_succ hc
  unfold String.utf8EncodeChar
  exact if_pos hle

theorem le_of_mem_utf8EncodeChar {c : Char} (hc : 128 ≤ c.toNat) {byte : UInt8}
    (h : byte ∈ String.utf8EncodeChar c) : 128 ≤ byte.toNat := by
  have hgt : ¬c.val.toNat ≤ 127 := Nat.not_le_of_lt hc
  unfold String.utf8EncodeChar at h
  simp only [if_neg hgt] at h
  split at h
  · simp only [List.mem_cons, List.not_mem_nil, or_false] at h
    rcases h with rfl | rfl <;> simp <;> omega
  · split at h
    · simp only [List.mem_cons, List.not_mem_nil, or_false] at h
      rcases h with rfl | rfl | rfl <;> simp <;> omega
    · simp only [List.mem_cons, List.not_mem_nil, or_false] at h
      rcases h with rfl | rfl | rfl | rfl <;> simp <;> omega

/-- A character is one byte below 128, or some bytes that are all above. -/
theorem utf8EncodeChar_cases (c : Char) :
    (c.toNat < 128 ∧ String.utf8EncodeChar c = [UInt8.ofNat c.toNat]) ∨
      (128 ≤ c.toNat ∧ ∃ byte bytes, String.utf8EncodeChar c = byte :: bytes ∧
        ∀ other ∈ byte :: bytes, 128 ≤ other.toNat) := by
  by_cases hc : c.toNat < 128
  · exact .inl ⟨hc, utf8EncodeChar_of_lt hc⟩
  · have hge : 128 ≤ c.toNat := Nat.le_of_not_lt hc
    have hpos : 0 < (String.utf8EncodeChar c).length := by
      rw [String.length_utf8EncodeChar]
      exact c.utf8Size_pos
    obtain ⟨byte, bytes, hbytes⟩ := List.exists_cons_of_length_pos hpos
    refine .inr ⟨hge, byte, bytes, hbytes, ?_⟩
    intro other hother
    exact le_of_mem_utf8EncodeChar hge (hbytes ▸ hother)

theorem toNat_ofNat_of_lt {c : Char} (hc : c.toNat < 128) :
    (UInt8.ofNat c.toNat).toNat = c.toNat := by
  simp
  omega

theorem isAscii_of_le {p : Char → Bool} {byte : UInt8} (h : 128 ≤ byte.toNat) :
    isAscii p byte = false := by
  simp [isAscii, Nat.not_lt_of_le h]

/-- Whether characters begin with an ASCII character of a kind is seen from their first byte. -/
theorem any_isAscii_head? {p : Char → Bool} (hp : ∀ c, p c → c.toNat < 128)
    (chars : List Char) :
    (utf8Bytes chars).head?.any (isAscii p) = chars.head?.any p := by
  cases chars with
  | nil => rfl
  | cons c chars =>
      rw [utf8Bytes_cons]
      rcases utf8EncodeChar_cases c with ⟨hlt, hencode⟩ | ⟨hge, byte, bytes, hencode, hbytes⟩
      · simp [hencode, isAscii, toNat_ofNat_of_lt hlt, hlt]
      · have hpc : p c = false := by
          by_contra hne
          exact Nat.not_lt_of_le hge (hp c (by simpa using hne))
        simp [hencode, isAscii_of_le (hbytes byte (by simp)), hpc]

/-- Whether characters begin with an ASCII text is seen from their bytes. -/
theorem isPrefixOf_utf8Bytes {text : List Char} (htext : text.all (·.toNat < 128))
    (chars : List Char) :
    (utf8Bytes text).isPrefixOf (utf8Bytes chars) = text.isPrefixOf chars := by
  induction text generalizing chars with
  | nil => rfl
  | cons t text ih =>
      obtain ⟨ht, htext⟩ : t.toNat < 128 ∧ text.all (·.toNat < 128) := by simpa using htext
      have ih := ih htext
      rw [utf8Bytes_cons, utf8EncodeChar_of_lt ht, List.singleton_append]
      cases chars with
      | nil => rfl
      | cons c chars =>
          rw [utf8Bytes_cons]
          rcases utf8EncodeChar_cases c with ⟨hlt, hencode⟩ | ⟨hge, byte, bytes, hencode, hbytes⟩
          · have hbyte : (UInt8.ofNat t.toNat == UInt8.ofNat c.toNat) = (t == c) := by
              rw [Bool.eq_iff_iff, beq_iff_eq, beq_iff_eq, ← UInt8.toNat_inj,
                toNat_ofNat_of_lt ht, toNat_ofNat_of_lt hlt, Char.toNat_inj]
            rw [hencode, List.singleton_append, List.isPrefixOf, List.isPrefixOf, hbyte, ih]
          · have hbyte : (UInt8.ofNat t.toNat == byte) = false := by
              rw [beq_eq_false_iff_ne, ne_eq, ← UInt8.toNat_inj, toNat_ofNat_of_lt ht]
              have := hbytes byte (by simp)
              omega
            have hc : (t == c) = false := by
              rw [beq_eq_false_iff_ne]
              rintro rfl
              omega
            rw [hencode, List.cons_append, List.isPrefixOf, List.isPrefixOf, hbyte, hc]
            rfl

/-! ### Characters behind an offset -/

theorem utf8Length_toList (template : String) :
    utf8Length template.toList = template.utf8ByteSize := by
  rw [utf8Length_eq_utf8ByteSize, String.ofList_toList]

theorem utf8Length_append (first second : List Char) :
    utf8Length (first ++ second) = utf8Length first + utf8Length second := by
  induction first with
  | nil => exact (Nat.zero_add _).symm
  | cons c first ih =>
      rw [List.cons_append, utf8Length_cons, utf8Length_cons, ih]
      omega

theorem charsAfter_of_le {offset : Nat} {chars : List Char} (h : utf8Length chars ≤ offset) :
    charsAfter offset chars = some [] := by
  induction chars generalizing offset with
  | nil => rfl
  | cons c chars ih =>
      have hpos := c.utf8Size_pos
      rw [utf8Length_cons] at h
      rw [charsAfter, if_neg (by omega), if_neg (by omega)]
      exact ih (by omega)

theorem exists_of_charsAfter {offset : Nat} {chars ahead : List Char}
    (h : charsAfter offset chars = some ahead) (hoffset : offset ≤ utf8Length chars) :
    ∃ before, chars = before ++ ahead ∧ offset = utf8Length before := by
  induction chars generalizing offset with
  | nil =>
      obtain rfl : [] = ahead := by simpa [charsAfter] using h
      exact ⟨[], rfl, Nat.le_zero.mp hoffset⟩
  | cons c chars ih =>
      rw [utf8Length_cons] at hoffset
      rw [charsAfter] at h
      split at h
      · cases h
        exact ⟨[], rfl, ‹_›⟩
      · split at h
        · cases h
        · obtain ⟨before, rfl, hbefore⟩ := ih h (by omega)
          refine ⟨c :: before, rfl, ?_⟩
          rw [utf8Length_cons]
          omega

/-- An offset is inside a character if no character begins there and the template goes on. -/
theorem charsAfter_eq_none_iff (template : String) (offset : Nat) :
    charsAfter offset template.toList = none ↔
      offset < template.utf8ByteSize ∧ ¬String.Pos.Raw.IsValid template ⟨offset⟩ := by
  have hsize := utf8Length_toList template
  constructor
  · intro h
    constructor
    · by_contra hle
      rw [charsAfter_of_le (by omega)] at h
      cases h
    · intro hvalid
      obtain ⟨first, second, rfl, hoffset⟩ := String.Pos.Raw.isValid_iff_exists_append.mp hvalid
      have hfirst : offset = utf8Length first.toList := by
        rw [utf8Length_toList]
        exact congrArg String.Pos.Raw.byteIdx hoffset
      rw [hfirst, String.toList_append, charsAfter_utf8Length] at h
      cases h
  · rintro ⟨hlt, hvalid⟩
    cases h : charsAfter offset template.toList with
    | none => rfl
    | some ahead =>
        obtain ⟨before, hbefore, hoffset⟩ := exists_of_charsAfter h (by omega)
        apply absurd _ hvalid
        apply String.Pos.Raw.isValid_iff_exists_append.mpr
        refine ⟨String.ofList before, String.ofList ahead, ?_, ?_⟩
        · rw [← String.ofList_append, ← hbefore, String.ofList_toList]
        · rw [hoffset, utf8Length_eq_utf8ByteSize]
          rfl

/-! ### Bytes behind an offset -/

/-- Between characters the bytes ahead are those of the characters ahead. -/
theorem drop_utf8Bytes {offset : Nat} {chars ahead : List Char}
    (h : charsAfter offset chars = some ahead) :
    (utf8Bytes chars).drop offset = utf8Bytes ahead := by
  induction chars generalizing offset with
  | nil =>
      obtain rfl : [] = ahead := by simpa [charsAfter] using h
      simp [utf8Bytes]
  | cons c chars ih =>
      rw [charsAfter] at h
      split at h
      · cases h
        simp_all
      · split at h
        · cases h
        · rw [utf8Bytes_cons, List.drop_append, String.length_utf8EncodeChar, ih h,
            List.drop_eq_nil_of_le (by rw [String.length_utf8EncodeChar]; omega)]
          rfl

/-- Inside a character the next byte is no ASCII character. -/
theorem drop_utf8Bytes_of_none {offset : Nat} {chars : List Char}
    (h : charsAfter offset chars = none) :
    ∃ byte bytes, (utf8Bytes chars).drop offset = byte :: bytes ∧ 128 ≤ byte.toNat := by
  induction chars generalizing offset with
  | nil => simp [charsAfter] at h
  | cons c chars ih =>
      rw [charsAfter] at h
      split at h
      · cases h
      · have hlength := String.length_utf8EncodeChar c
        split at h
        -- The offset is inside this character, which has more than one byte then.
        · have hlt : offset < (String.utf8EncodeChar c).length := by omega
          rw [utf8Bytes_cons, List.drop_append_of_le_length (by omega),
            List.drop_eq_getElem_cons hlt]
          refine ⟨_, _, rfl, ?_⟩
          rcases utf8EncodeChar_cases c with ⟨-, hencode⟩ | ⟨-, byte, bytes, hencode, hbytes⟩
          · rw [hencode, List.length_singleton] at hlt
            omega
          · exact hbytes _ (hencode ▸ List.getElem_mem hlt)
        · obtain ⟨byte, bytes, hdrop, hbyte⟩ := ih h
          refine ⟨byte, bytes, ?_, hbyte⟩
          rw [utf8Bytes_cons, List.drop_append, hlength,
            List.drop_eq_nil_of_le (by omega), hdrop]
          rfl

end Stencil
