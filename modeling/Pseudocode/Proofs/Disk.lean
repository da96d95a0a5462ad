import Pseudocode.Disk
import Pseudocode.Proofs.Json.Leaves

set_option autoImplicit false

namespace Pseudocode

namespace Text

open Json (IsPlain)

theorem toList_eq_data (bytes : ByteArray) : bytes.toList = bytes.data.toList := by
  have loop (i : Nat) (read : List UInt8) :
      ByteArray.toList.loop bytes i read = read.reverse ++ bytes.data.toList.drop i := by
    fun_induction ByteArray.toList.loop bytes i read with
    | case1 i read inside ih =>
      have within : i < bytes.data.size := inside
      have next : bytes.data.toList.drop i = bytes.get! i :: bytes.data.toList.drop (i + 1) := by
        rw [List.drop_eq_getElem_cons (by simpa using within)]
        simpa [ByteArray.get!] using (getElem!_pos bytes.data i within).symm
      rw [ih, next]
      simp
    | case2 i read outside =>
      have beyond : bytes.data.toList.length ≤ i := Nat.le_of_not_lt outside
      simp [List.drop_eq_nil_of_le beyond]
  exact loop 0 []

theorem encode_eq (s : String) : encode s = s.toList.flatMap String.utf8EncodeChar := by
  rw [encode, toList_eq_data, String.toUTF8_eq_toByteArray, ← String.utf8Encode_toList, List.utf8Encode,
    List.toList_data_toByteArray]

theorem encode_of_plain {s : String} (plain : ∀ c ∈ s.toList, IsPlain c) :
    encode s = s.toList.map (·.val.toUInt8) := by
  rw [encode_eq]
  generalize s.toList = chars at plain
  induction chars with
  | nil => rfl
  | cons c chars ih =>
    rw [List.forall_mem_cons] at plain
    have single : String.utf8EncodeChar c = [c.val.toUInt8] := by
      apply String.utf8EncodeChar_eq_singleton
      rw [Char.utf8Size_eq_one_iff, UInt32.le_iff_toNat_le]
      exact Nat.le_of_lt_succ plain.1.1
    rw [List.flatMap_cons, single, ih plain.2]
    rfl

theorem decodeChar_of_plain {c : Char} (plain : IsPlain c) (rest : List UInt8) :
    decodeChar c.val.toUInt8 rest = .ok (c, rest) := by
  have small : c.toNat < 0x80 := plain.1
  have same : c.val.toUInt8.toNat = c.toNat := by
    rw [UInt32.toNat_toUInt8]
    exact Nat.mod_eq_of_lt (Nat.lt_trans small (by decide))
  have first : following? c.val.toUInt8 = some 0 := by
    have below : c.val.toUInt8 < 0x80 := by
      rw [UInt8.lt_iff_toNat_lt, same]
      exact small
    rw [following?, if_pos below]
  simp only [decodeChar, first, same, Char.ofNat_toNat]

theorem decodeFrom_plain {chars : List Char} (plain : ∀ c ∈ chars, IsPlain c) (position : Nat)
    (done : List Char) : decodeFrom chars.length position done (chars.map (·.val.toUInt8)) =
      .ok (String.ofList (done.reverse ++ chars)) := by
  -- Over the characters, each of which takes a byte.
  induction chars generalizing position done with
  | nil => simp [decodeFrom]
  | cons c chars ih =>
    rw [List.forall_mem_cons] at plain
    simp only [List.map_cons, List.length_cons, decodeFrom, decodeChar_of_plain plain.1]
    rw [ih plain.2]
    simp

theorem decode_encode_of_plain {s : String} (plain : ∀ c ∈ s.toList, IsPlain c) :
    decode (encode s) = .ok s := by
  rw [decode, encode_of_plain plain, List.length_map, decodeFrom_plain plain]
  simp

theorem unifyLines_of_plain {chars : List Char} (plain : ∀ c ∈ chars, IsPlain c) :
    unifyLines chars = chars := by
  induction chars with
  | nil => rfl
  | cons c chars ih =>
    rw [List.forall_mem_cons] at plain
    rw [unifyLines, ih plain.2]
    · rintro rest rfl
      exact absurd rfl plain.1.2
    · rintro rfl
      exact absurd rfl plain.1.2

end Text

theorem Path.parts_eq (path : String) : Path.parts path = (path.toList.splitOn '/').map String.ofList :=
  String.toList_split_char

namespace Disk

variable {disk after : Disk} {path text : String} {place here : Place} {entry : Entry} {names : List String}

theorem hasNull_eq_false_iff : hasNull path = false ↔ '\x00' ∉ path.toList := by
  simp [hasNull]

theorem readBytes_of_find? {bytes : List UInt8} (noNull : hasNull path = false)
    (leads : disk.locate path = .ok place) (found : disk.find? place = some (.file bytes)) :
    disk.readBytes path = .ok bytes := by
  simp only [readBytes, noNull, Bool.false_eq_true, if_false, leads, found]

theorem readText_of_readBytes (plain : ∀ c ∈ text.toList, Json.IsPlain c)
    (bytes : disk.readBytes path = .ok (Text.encode text)) : disk.readText path = .ok text := by
  simp [readText, readExact, bytes, Text.decode_encode_of_plain plain, Text.unifyLines_of_plain plain, bind,
    Except.bind, Except.map]

end Disk

end Pseudocode
