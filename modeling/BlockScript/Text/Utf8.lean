/-!
# Texts as bytes

The UTF-8 bytes of a text, and the text of a row of bytes if there is one.
-/

namespace BlockScript

/-- The UTF-8 bytes of a text. -/
def Chars.utf8 (cs : List Char) : List UInt8 :=
  cs.flatMap String.utf8EncodeChar

/-- The UTF-8 bytes of a text. -/
def Text.utf8 (s : String) : List UInt8 :=
  Chars.utf8 s.toList

/-- The text whose UTF-8 bytes are given, if there is one. -/
def Text.ofUtf8? (bytes : List UInt8) : Option String :=
  String.fromUTF8? bytes.toByteArray

/-- No characters take no bytes. -/
@[simp]
theorem Chars.utf8_nil : Chars.utf8 [] = [] := rfl

/-- The bytes of a text are those of its characters, one after the other. -/
@[simp]
theorem Chars.utf8_cons (c : Char) (cs : List Char) :
    Chars.utf8 (c :: cs) = String.utf8EncodeChar c ++ Chars.utf8 cs :=
  List.flatMap_cons

/-- The bytes here are the bytes of the string itself. -/
theorem Text.toByteArray_utf8 (s : String) : (Text.utf8 s).toByteArray = s.toByteArray := by
  conv => rhs; rw [← String.ofList_toList (s := s), String.toByteArray_ofList]
  rfl

/-- The bytes of a text read back as the text. -/
theorem Text.ofUtf8?_utf8 (s : String) : Text.ofUtf8? (Text.utf8 s) = some s := by
  rw [Text.ofUtf8?, Text.toByteArray_utf8, String.fromUTF8?, dif_pos s.isValidUTF8]
  rfl

end BlockScript
