import ChainGovernance.Bytes.Basic

/-!
Texts as UTF-8 byte strings.
-/

namespace ChainGovernance.Text

/-- The UTF-8 form of a text. -/
def utf8 (text : String) : Bytes := text.toByteArray.data.toList

/-- The text whose UTF-8 form the bytes are, if they are one. -/
def ofUtf8? (b : Bytes) : Option String := String.fromUTF8? ⟨b.toArray⟩

theorem ofUtf8?_utf8 (text : String) : ofUtf8? (utf8 text) = some text := by
  have h : (⟨text.toByteArray.data.toList.toArray⟩ : ByteArray) = text.toByteArray := by
    simp
  unfold ofUtf8? utf8
  rw [h]
  simp [String.fromUTF8?, String.fromUTF8, text.isValidUTF8]

theorem utf8_injective {s t : String} (h : utf8 s = utf8 t) : s = t := by
  have hs := ofUtf8?_utf8 s
  rw [h, ofUtf8?_utf8] at hs
  exact (Option.some.inj hs).symm

theorem utf8_of_ofUtf8? {b : Bytes} {text : String} (h : ofUtf8? b = some text) :
    utf8 text = b := by
  unfold ofUtf8? String.fromUTF8? at h
  split at h
  · cases h; simp [utf8, String.fromUTF8]
  · cases h

end ChainGovernance.Text
