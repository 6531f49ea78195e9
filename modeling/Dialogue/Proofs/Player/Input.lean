import Dialogue.Player
import Mathlib.Data.List.Basic
namespace Dialogue

namespace Text

def encoded (cs : List Char) : List UInt8 :=
  cs.flatMap String.utf8EncodeChar

theorem ne_break_of_mem_encodeChar {c : Char} (hc : c ≠ '\n') :
    ∀ b ∈ String.utf8EncodeChar c, b ≠ 10 := by
  intro b hb he
  have hn : b.toNat = 10 := by rw [he]; rfl
  have hv : c.val.toNat ≠ 10 := by
    intro h
    exact hc (Char.ext (UInt32.toNat.inj h))
  simp only [String.utf8EncodeChar] at hb
  split at hb
  · rw [List.mem_singleton] at hb
    rw [hb, UInt8.toNat_ofNat'] at hn
    omega
  · -- All bytes of a longer code are 128 or more.
    have hhigh : ∃ n, 128 ≤ n ∧ n < 256 ∧ b = UInt8.ofNat n := by
      split at hb
      · simp only [List.mem_cons, List.not_mem_nil, or_false] at hb
        rcases hb with rfl | rfl <;> exact ⟨_, by omega, by omega, rfl⟩
      · split at hb
        · simp only [List.mem_cons, List.not_mem_nil, or_false] at hb
          rcases hb with rfl | rfl | rfl <;> exact ⟨_, by omega, by omega, rfl⟩
        · simp only [List.mem_cons, List.not_mem_nil, or_false] at hb
          rcases hb with rfl | rfl | rfl | rfl <;> exact ⟨_, by omega, by omega, rfl⟩
    obtain ⟨n, hlo, hhi, rfl⟩ := hhigh
    rw [UInt8.toNat_ofNat'] at hn
    omega

theorem fromUTF8?_encoded (cs : List Char) :
    String.fromUTF8? ⟨(encoded cs).toArray⟩ = some (String.ofList cs) := by
  have he : (⟨(encoded cs).toArray⟩ : ByteArray) = cs.utf8Encode := by
    apply ByteArray.ext
    rw [List.utf8Encode, List.data_toByteArray]
    rfl
  rw [he, String.fromUTF8?, dif_pos ByteArray.isValidUTF8_utf8Encode]
  rfl

end Text

theorem split_append {line bs r : List UInt8} (h : ∀ b ∈ bs, b ≠ 10) :
    inputLines.split line (bs ++ r) = inputLines.split (bs.reverse ++ line) r := by
  induction bs generalizing line with
  | nil => rfl
  | cons b bs ih =>
    obtain ⟨hb, hbs⟩ := List.forall_mem_cons.mp h
    rw [List.cons_append, inputLines.split, if_neg hb, ih hbs, List.reverse_cons,
      List.append_assoc]
    rfl

theorem encoded_of_mem_split {cs : List Char} {l : List UInt8} (ds : List Char)
    (h : l ∈ inputLines.split (Text.encoded ds).reverse (Text.encoded cs)) :
    ∃ es, l = Text.encoded es := by
  induction cs generalizing ds with
  | nil =>
    have hn : Text.encoded [] = [] := rfl
    rw [hn, inputLines.split] at h
    split at h
    · cases h
    · rw [List.mem_singleton, List.reverse_reverse] at h
      exact ⟨ds, h⟩
  | cons c cs ih =>
    have hd : Text.encoded (ds ++ [c]) = Text.encoded ds ++ String.utf8EncodeChar c := by
      simp [Text.encoded]
    have hc : Text.encoded (c :: cs) = String.utf8EncodeChar c ++ Text.encoded cs := rfl
    rw [hc] at h
    by_cases hb : c = '\n'
    · subst hb
      have hbreak : String.utf8EncodeChar '\n' = [10] := rfl
      rw [hbreak, List.singleton_append, inputLines.split, if_pos rfl, List.reverse_cons,
        List.reverse_reverse, List.mem_cons] at h
      rcases h with h | h
      · exact ⟨ds ++ ['\n'], by rw [h, hd, hbreak]⟩
      · exact ih [] h
    · rw [split_append (Text.ne_break_of_mem_encodeChar hb), ← List.reverse_append, ← hd] at h
      exact ih _ h

theorem loop_bytes (bytes : ByteArray) (i : Nat) (r : List UInt8) :
    ByteArray.toList.loop bytes i r = r.reverse ++ bytes.data.toList.drop i := by
  induction i, r using ByteArray.toList.loop.induct bytes with
  | case1 i r hi ih =>
    have hlt : i < bytes.data.toList.length := by simpa using hi
    rw [ByteArray.toList.loop, if_pos hi, ih, List.drop_eq_getElem_cons hlt]
    simp [ByteArray.get!, hi]
  | case2 i r hi =>
    rw [ByteArray.toList.loop, if_neg hi, List.drop_eq_nil_of_le (by simpa using hi)]
    exact (List.append_nil _).symm

theorem toList_toUTF8 (text : String) : text.toUTF8.toList = Text.encoded text.toList := by
  rw [ByteArray.toList, loop_bytes, String.toUTF8_eq_toByteArray, ← String.utf8Encode_toList,
    List.utf8Encode, List.toList_data_toByteArray]
  rfl

/-- What is read of a text are texts. -/
theorem isSome_of_mem_inputLines {text : String} {line : InputLine}
    (h : line ∈ inputLines text.toUTF8) : line.isSome = true := by
  rw [inputLines] at h
  obtain ⟨l, hl, rfl⟩ := List.mem_map.mp h
  rw [toList_toUTF8] at hl
  obtain ⟨es, rfl⟩ := encoded_of_mem_split [] hl
  rw [Text.fromUTF8?_encoded]
  rfl

end Dialogue
