import CredentialCeremony.Binary.Base64

set_option autoImplicit false

/-!
# Texts as bytes

`utf8` is the byte sequence that encodes a text, `ofUtf8?` the text that a byte sequence encodes.
Not every byte sequence encodes a text, and none encodes two.

Main statement: `ofUtf8?_eq_some_iff` (a text is read from exactly its own bytes).
-/

namespace CredentialCeremony

/-- The bytes of a text. -/
def utf8 (s : String) : Bytes := s.toByteArray.data.toList

/-- The text that bytes encode, if they encode one. -/
def ofUtf8? (bytes : Bytes) : Option String := String.fromUTF8? ⟨bytes.toArray⟩

theorem utf8_append (s t : String) : utf8 (s ++ t) = utf8 s ++ utf8 t := by
  simp [utf8]

/-- The bytes of a text encode the text. -/
theorem ofUtf8?_utf8 (s : String) : ofUtf8? (utf8 s) = some s := by
  have valid : (⟨s.toByteArray.data⟩ : ByteArray).IsValidUTF8 := s.isValidUTF8
  simp [ofUtf8?, utf8, String.fromUTF8?, String.fromUTF8, valid]

theorem ofUtf8?_eq_some_iff {bytes : Bytes} {s : String} :
    ofUtf8? bytes = some s ↔ bytes = utf8 s := by
  constructor
  · intro h
    simp only [ofUtf8?, String.fromUTF8?, String.fromUTF8] at h
    split at h
    · obtain rfl := Option.some.inj h
      simp [utf8]
    · cases h
  · rintro rfl
    exact ofUtf8?_utf8 s

end CredentialCeremony
