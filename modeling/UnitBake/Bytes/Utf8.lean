/-
# Texts as bytes

Names are hashed (specification, section 3) and unit files hold text (section 6) by their UTF-8
bytes.  Decoding accepts exactly the byte strings that encoding produces.
-/
namespace UnitBake

/-- The bytes of a text in UTF-8. -/
def utf8 (s : String) : List UInt8 := s.toUTF8.data.toList

/-- The text that a byte string holds in UTF-8. -/
def ofUtf8? (bytes : List UInt8) : Option String := String.fromUTF8? ⟨bytes.toArray⟩

/-- How many bytes characters have in UTF-8. -/
def utf8Sizes : List Char → Nat
  | [] => 0
  | c :: cs => c.utf8Size + utf8Sizes cs

/-- How many bytes a text has in UTF-8. -/
def utf8Size (s : String) : Nat := utf8Sizes s.toList

/-- The bytes of a text are those of its characters, one after the other. -/
theorem utf8_eq_flatMap (s : String) : utf8 s = s.toList.flatMap String.utf8EncodeChar := by
  have h : s.toUTF8 = s.toList.utf8Encode := by simp
  rw [utf8, h]
  simp [List.utf8Encode]

/-- A text reads back from its bytes. -/
@[simp] theorem ofUtf8?_utf8 (s : String) : ofUtf8? (utf8 s) = some s := by
  have hdata : (⟨s.toUTF8.data.toList.toArray⟩ : ByteArray) = s.toUTF8 := by simp
  have hvalid : s.toByteArray.IsValidUTF8 := s.isValidUTF8
  rw [ofUtf8?, utf8, hdata, String.fromUTF8?]
  simpa [String.fromUTF8] using hvalid

end UnitBake
