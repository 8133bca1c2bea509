/-!
# `Stencil/Value/Bytes.lean` — strings in the order of their bytes

Strings are ordered by code point. It is what the ordering operators go by, and the order that the
keys of a map are kept in. As bytes in UTF-8 they have an order as well, by the first byte that
differs, and this file shows that it is the same one:

> **`s < t` just when the bytes of `s` come before the bytes of `t`.**

The reason is in how the encoding is made. The first byte of a character says how many there are,
more of them for greater code points, and the bits of the code point follow from the highest on. So
the first characters that differ decide about the bytes too, whatever comes after them
(`encode_lt_encode`).
-/

set_option autoImplicit false

namespace Stencil

/-- The bytes of a string in UTF-8. -/
def bytes (s : String) : List UInt8 := s.toByteArray.data.toList

theorem bytes_eq (s : String) : bytes s = s.toList.flatMap String.utf8EncodeChar := by
  rw [bytes, ← String.utf8Encode_toList, List.utf8Encode]
  simp

theorem ofNat_cons_lt_ofNat_cons {a b : Nat} {xs ys : List UInt8} (byte : b < 256) (le : a ≤ b)
    (rest : a = b → xs < ys) : UInt8.ofNat a :: xs < UInt8.ofNat b :: ys := by
  have value {n : Nat} (byte : n < 256) : (UInt8.ofNat n).toNat = n :=
    UInt8.toNat_ofNat_of_lt' byte
  rw [List.cons_lt_cons_iff]
  obtain less | rfl := Nat.lt_or_eq_of_le le
  · refine .inl (UInt8.lt_iff_toNat_lt.2 ?_)
    rw [value (by omega), value byte]
    exact less
  · exact .inr ⟨rfl, rest rfl⟩

/-- Of two encodings that start with different characters the one of the lesser comes first. -/
theorem encode_lt_encode {c d : Char} (h : c < d) (xs ys : List UInt8) :
    String.utf8EncodeChar c ++ xs < String.utf8EncodeChar d ++ ys := by
  have less : c.val.toNat < d.val.toNat := UInt32.lt_iff_toNat_lt.1 h
  have valid : d.val.toNat < 0xd800 ∨ 0xdfff < d.val.toNat ∧ d.val.toNat < 0x110000 := d.valid
  simp only [String.utf8EncodeChar]
  generalize c.val.toNat = v at *
  generalize d.val.toNat = w at *
  repeat' split
  -- Each byte is at most the other, and if all of them were the same the characters would be.
  all_goals first
    | omega
    | simp only [List.cons_append, List.nil_append]
      repeat refine ofNat_cons_lt_ofNat_cons (by omega) (by omega) fun _ => ?_
      omega

theorem bytes_lt_bytes {s t : String} (h : s < t) : bytes s < bytes t := by
  have listed (cs ds : List Char) (h : cs < ds) :
      cs.flatMap String.utf8EncodeChar < ds.flatMap String.utf8EncodeChar := by
    induction h with
    | @nil d ds =>
      rw [List.flatMap_nil, List.flatMap_cons]
      cases code : String.utf8EncodeChar d with
      | nil => exact absurd code String.utf8EncodeChar_ne_nil
      | cons b bs => exact List.nil_lt_cons _ _
    | rel less =>
      rw [List.flatMap_cons, List.flatMap_cons]
      exact encode_lt_encode less _ _
    | cons _ ih =>
      rw [List.flatMap_cons, List.flatMap_cons]
      exact List.append_left_lt ih
  rw [bytes_eq, bytes_eq]
  exact listed _ _ h

/-- **The order of strings is the order of their bytes.** -/
theorem lt_iff_bytes_lt {s t : String} : s < t ↔ bytes s < bytes t := by
  refine ⟨bytes_lt_bytes, fun less => Decidable.byContradiction fun notLess => ?_⟩
  by_cases same : s = t
  · subst same
    exact List.lt_irrefl _ less
  · have greater : t < s := Decidable.byContradiction fun notGreater =>
      same (String.le_antisymm notGreater notLess)
    exact List.lt_irrefl _ (List.lt_trans less (bytes_lt_bytes greater))

end Stencil
