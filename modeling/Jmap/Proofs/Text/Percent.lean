import Jmap.Json.Literal
import Jmap.Proofs.Language
import Jmap.Text.Percent

/-! Percent-encoded texts and the bytes that they stand for. A decoder that knows nothing of the
encoder reads each escape as its byte and any other character as its UTF-8 bytes. -/
namespace Jmap.Text
open scoped Computability

/-- The characters that have no meaning of their own in a URL. -/
def IsUnreserved (c : Char) : Prop :=
  ('A' ≤ c ∧ c ≤ 'Z') ∨ ('a' ≤ c ∧ c ≤ 'z') ∨ ('0' ≤ c ∧ c ≤ '9') ∨ c = '-' ∨ c = '.' ∨ c = '_' ∨ c = '~'

def IsUpperHex (c : Char) : Prop := ('0' ≤ c ∧ c ≤ '9') ∨ ('A' ≤ c ∧ c ≤ 'F')

/-- Texts of unreserved characters and escapes. -/
def escapedText : Language Char :=
  (single IsUnreserved + {['%']} * single IsUpperHex * single IsUpperHex)∗

def percentDecode : List Char → List UInt8
  | '%' :: high :: low :: rest =>
    match Json.hexValue? high,Json.hexValue? low with
    | some first,some second => UInt8.ofNat (16 * first + second) :: percentDecode rest
    | _,_ => String.utf8EncodeChar '%' ++ percentDecode (high :: low :: rest)
  | c :: rest => String.utf8EncodeChar c ++ percentDecode rest
  | [] => []

theorem isUpperHex_upperHexDigit : ∀ n : Fin 16, IsUpperHex (upperHexDigit n) := by
  unfold IsUpperHex
  decide

theorem hexValue?_upperHexDigit : ∀ n : Fin 16, Json.hexValue? (upperHexDigit n) = some n.val := by decide

theorem unreserved_ofNat : ∀ n : Fin 256, isUnreserved (UInt8.ofNat n) →
    IsUnreserved (Char.ofNat n) ∧ Char.ofNat n ≠ '%' ∧ String.utf8EncodeChar (Char.ofNat n) = [UInt8.ofNat n] := by
  unfold IsUnreserved
  decide +kernel

/-- An unreserved byte is a character of one byte, and not the percent sign. -/
theorem unreserved_byte {byte : UInt8} (plain : isUnreserved byte) : ∃ c, percentByte byte = [c] ∧
    IsUnreserved c ∧ c ≠ '%' ∧ String.utf8EncodeChar c = [byte] := by
  have listed := unreserved_ofNat ⟨byte.toNat,byte.toNat_lt⟩
  rw [UInt8.ofNat_toNat] at listed
  exact ⟨Char.ofNat byte.toNat,if_pos plain,listed plain⟩

theorem escaped_byte {byte : UInt8} (reserved : ¬ isUnreserved byte) : ∃ high low : Fin 16,
    percentByte byte = ['%',upperHexDigit high,upperHexDigit low] ∧ UInt8.ofNat (16 * high + low) = byte := by
  have bound := byte.toNat_lt
  refine ⟨⟨byte.toNat / 16,by omega⟩,⟨byte.toNat % 16,by omega⟩,if_neg reserved,?_⟩
  rw [Nat.div_add_mod,UInt8.ofNat_toNat]

theorem percentByte_mem (byte : UInt8) :
    percentByte byte ∈ single IsUnreserved + {['%']} * single IsUpperHex * single IsUpperHex := by
  by_cases plain : isUnreserved byte
  · obtain ⟨c,same,unreserved,_⟩ := unreserved_byte plain
    rw [same]
    exact .inl ⟨c,unreserved,rfl⟩
  · obtain ⟨high,low,same,_⟩ := escaped_byte plain
    have percent : ['%'] ∈ ({['%']} : Language Char) := rfl
    have digit (n : Fin 16) : [upperHexDigit n] ∈ single IsUpperHex := ⟨_,isUpperHex_upperHexDigit n,rfl⟩
    rw [same]
    exact .inr (Language.append_mem_mul (Language.append_mem_mul percent (digit high)) (digit low))

theorem percentEncode_mem (text : String) : percentEncode text ∈ escapedText := by
  rw [escapedText,Language.mem_kstar]
  refine ⟨text.toUTF8.toList.map percentByte,List.flatMap_def,fun piece member => ?_⟩
  obtain ⟨byte,_,rfl⟩ := List.mem_map.mp member
  exact percentByte_mem byte

theorem percentDecode_percentByte (byte : UInt8) (rest : List Char) :
    percentDecode (percentByte byte ++ rest) = byte :: percentDecode rest := by
  by_cases plain : isUnreserved byte
  · obtain ⟨c,same,_,different,bytes⟩ := unreserved_byte plain
    rw [same,List.singleton_append,percentDecode,bytes,List.singleton_append]
    exact fun _ _ _ percent => absurd percent different
  · obtain ⟨high,low,same,bytes⟩ := escaped_byte plain
    rw [same]
    change percentDecode ('%' :: upperHexDigit high :: upperHexDigit low :: rest) = _
    rw [percentDecode,hexValue?_upperHexDigit,hexValue?_upperHexDigit]
    simp only [bytes]

theorem percentDecode_bytes (bytes : List UInt8) : percentDecode (bytes.flatMap percentByte) = bytes := by
  induction bytes with
  | nil => rfl
  | cons byte bytes ih => rw [List.flatMap_cons,percentDecode_percentByte,ih]

theorem percentDecode_percentEncode (text : String) : percentDecode (percentEncode text) = text.toUTF8.toList :=
  percentDecode_bytes _

theorem toList_loop (bytes : ByteArray) (start : Nat) (read : List UInt8) :
    ByteArray.toList.loop bytes start read = read.reverse ++ bytes.data.toList.drop start := by
  fun_induction ByteArray.toList.loop bytes start read with
  | case1 start read inside ih =>
    have within : start < bytes.data.toList.length := inside
    have byte : bytes.get! start = bytes.data.toList[start] := getElem!_pos bytes.data start inside
    rw [ih,List.reverse_cons,List.append_assoc,List.singleton_append,List.drop_eq_getElem_cons within,byte]
  | case2 start read outside =>
    have within : bytes.data.toList.length ≤ start := Nat.le_of_not_lt outside
    rw [List.drop_eq_nil_of_le within,List.append_nil]

theorem toList_eq (bytes : ByteArray) : bytes.toList = bytes.data.toList := toList_loop bytes 0 []

theorem percentEncode_injective : Function.Injective percentEncode := by
  intro text other same
  have bytes : text.toUTF8.toList = other.toUTF8.toList := by
    rw [← percentDecode_percentEncode,same,percentDecode_percentEncode]
  rw [toList_eq,toList_eq] at bytes
  exact String.toByteArray_inj.mp (ByteArray.ext (Array.toList_inj.mp bytes))

end Jmap.Text
