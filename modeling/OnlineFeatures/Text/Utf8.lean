import OnlineFeatures.Wire.Varint

/-!
# UTF-8

Text as bytes and back. `decode?_encode` and `eq_encode_of_decode?` say that reading accepts exactly
what writing produces.
-/

namespace OnlineFeatures.Utf8

/-- The bytes of a text. -/
def encode (s : String) : Bytes := s.toByteArray.data.toList

/-- The text of bytes, if they are one. -/
def decode? (bs : Bytes) : Option String := String.fromUTF8? ⟨bs.toArray⟩

theorem decode?_encode (s : String) : decode? (encode s) = some s := by
  have : (⟨s.toByteArray.data.toList.toArray⟩ : ByteArray) = s.toByteArray := by simp
  rw [decode?, encode, this, String.fromUTF8?]
  simp [String.fromUTF8, s.isValidUTF8]

theorem eq_encode_of_decode? {bs : Bytes} {s : String} (h : decode? bs = some s) :
    bs = encode s := by
  rw [decode?, String.fromUTF8?] at h
  split at h
  · simp at h
    subst h
    simp [encode, String.fromUTF8]
  · simp at h

end OnlineFeatures.Utf8
