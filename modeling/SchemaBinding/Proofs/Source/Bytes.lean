import SchemaBinding.Source.Characters

/-!
Contract: the bytes of a text in UTF-8, and the characters that they belong to.

Owns:
- `getElem?_toUTF8`, by which the bytes of a text are those of its characters; and
- `exists_append_of_byte`, by which a byte that stands for a whole character is found
  where that character stands.

Does not own: the encoding, which is that of the standard library.

No byte of a longer character is a character by itself, so a text may be searched for a
character of one byte without knowing where its characters start.
-/

set_option autoImplicit false

namespace SchemaBinding

/-- The bytes of a text are those of its characters, one after another. -/
theorem getElem?_toUTF8 (source : String) (offset : Nat) :
    source.toUTF8[offset]?
      = (source.toList.flatMap String.utf8EncodeChar)[offset]? := by
  have encoded : source.toUTF8 = (source.toList.flatMap String.utf8EncodeChar).toByteArray :=
    String.utf8Encode_toList.symm
  rw [encoded]
  by_cases inside : offset < (source.toList.flatMap String.utf8EncodeChar).length
  · rw [getElem?_pos _ offset (by rwa [List.size_toByteArray]),
      getElem?_pos _ offset inside, List.getElem_toByteArray]
  · rw [getElem?_neg _ offset (by rwa [List.size_toByteArray]),
      getElem?_neg _ offset inside]

/-! ## Characters of one byte -/

/-- The bytes of a longer character start with one from 192 on. -/
theorem head_byte_of_long {character : Char} (long : 127 < character.val.toNat) :
    ∃ head rest, String.utf8EncodeChar character = head :: rest ∧ 192 ≤ head.toNat := by
  rw [String.utf8EncodeChar, if_neg (by omega)]
  split
  · refine ⟨_, _, rfl, ?_⟩
    rw [UInt8.toNat_ofNat']
    omega
  · split
    · refine ⟨_, _, rfl, ?_⟩
      rw [UInt8.toNat_ofNat']
      omega
    · refine ⟨_, _, rfl, ?_⟩
      rw [UInt8.toNat_ofNat']
      omega

theorem val_le_of_short {character : Char} (short : character.utf8Size = 1) :
    character.val.toNat ≤ 127 :=
  UInt32.le_iff_toNat_le.1 (Char.utf8Size_eq_one_iff.1 short)

theorem toNat_toUInt8_of_short {character : Char} (short : character.utf8Size = 1) :
    character.toUInt8.toNat = character.val.toNat := by
  have small := val_le_of_short short
  rw [Char.toUInt8, UInt32.toNat_toUInt8]
  omega

/-- Where the only byte of one character stands among the bytes of another, the two
characters are the same. -/
theorem eq_of_shared_byte {character single : Char} {index : Nat}
    (short : single.utf8Size = 1)
    (here : (String.utf8EncodeChar character)[index]? = some single.toUInt8) :
    index = 0 ∧ character = single := by
  have atHead : index = 0 := by
    have alone : String.utf8EncodeChar single = [single.toUInt8] :=
      String.utf8EncodeChar_eq_singleton short
    have starts : single.toUInt8.IsUTF8FirstByte := by
      have first := UInt8.isUTF8FirstByte_getElem_zero_utf8EncodeChar (c := single)
      simpa only [alone, List.getElem_cons_zero] using first
    obtain ⟨_, same⟩ := List.getElem?_eq_some_iff.1 here
    rw [← same] at starts
    exact UInt8.isUTF8FirstByte_getElem_utf8EncodeChar.1 starts
  subst atHead
  refine ⟨rfl, ?_⟩
  have singleValue := toNat_toUInt8_of_short short
  by_cases long : 127 < character.val.toNat
  · obtain ⟨head, rest, bytes, high⟩ := head_byte_of_long long
    have small := val_le_of_short short
    rw [bytes] at here
    have same : head = single.toUInt8 := Option.some.inj here
    rw [same] at high
    omega
  · have alsoShort : character.utf8Size = 1 :=
      Char.utf8Size_eq_one_iff.2 (UInt32.le_iff_toNat_le.2 (Nat.not_lt.1 long))
    have value := toNat_toUInt8_of_short alsoShort
    rw [String.utf8EncodeChar_eq_singleton alsoShort] at here
    have same : character.toUInt8 = single.toUInt8 := Option.some.inj here
    rw [same, singleValue] at value
    exact Char.ext (UInt32.toNat_inj.1 value.symm)

/-- A byte of a text that is a whole character stands where the text has that
character. -/
theorem exists_append_of_byte {single : Char} (short : single.utf8Size = 1) :
    ∀ (text : List Char) (offset : Nat),
      (text.flatMap String.utf8EncodeChar)[offset]? = some single.toUInt8 →
      ∃ before rest, text = before ++ single :: rest ∧ byteLength before = offset
  | [], _, here => by simp at here
  | character :: rest, offset, here => by
      rw [List.flatMap_cons] at here
      by_cases inside : offset < character.utf8Size
      · rw [List.getElem?_append_left (by rwa [String.length_utf8EncodeChar])] at here
        obtain ⟨rfl, rfl⟩ := eq_of_shared_byte short here
        exact ⟨[], rest, rfl, rfl⟩
      · rw [List.getElem?_append_right (by rw [String.length_utf8EncodeChar]; omega),
          String.length_utf8EncodeChar] at here
        obtain ⟨before, later, split, length⟩ := exists_append_of_byte short rest _ here
        refine ⟨character :: before, later, by rw [split, List.cons_append], ?_⟩
        rw [byteLength_cons, length]
        omega

end SchemaBinding
