/-!
Texts as bytes: the UTF-8 encoding of a text, and the texts that bytes encode.
Main statement: bytes are read as a text exactly when they are its encoding.
-/

namespace PackageConfig.Text

/-- The UTF-8 encoding of a text. -/
def utf8 (s : String) : List UInt8 :=
  s.toByteArray.data.toList

/-- The text that bytes encode, if they are well-formed UTF-8. -/
def ofUtf8? (bytes : List UInt8) : Option String :=
  if h : (ByteArray.mk bytes.toArray).IsValidUTF8 then
    some (String.ofByteArray (ByteArray.mk bytes.toArray) h)
  else none

@[simp]
theorem ofUtf8?_utf8 (s : String) : ofUtf8? (utf8 s) = some s := by
  have h : ByteArray.mk (utf8 s).toArray = s.toByteArray := by simp [utf8]
  rw [ofUtf8?, dif_pos (h ▸ s.isValidUTF8)]
  cases s
  simp [utf8]

theorem utf8_injective {s t : String} (h : utf8 s = utf8 t) : s = t := by
  have same := congrArg ofUtf8? h
  rw [ofUtf8?_utf8, ofUtf8?_utf8] at same
  exact Option.some.inj same

/-- Bytes are read as a text exactly when they are its encoding. -/
theorem ofUtf8?_eq_some_iff {bytes : List UInt8} {s : String} :
    ofUtf8? bytes = some s ↔ bytes = utf8 s := by
  constructor
  · intro read
    rw [ofUtf8?] at read
    split at read
    next =>
      cases read
      simp [utf8]
    next => cases read
  · intro encoded
    rw [encoded, ofUtf8?_utf8]

end PackageConfig.Text
