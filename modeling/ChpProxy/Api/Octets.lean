import ChpProxy.Api.Request
import ChpProxy.Lib.Utf8

/-! Texts as octets, and the octets of a percent-encoded text. -/
namespace ChpProxy.Api

theorem asBytes_eq_encode (s : String) : asBytes s = Utf8.encode s.toList := by
  have hbytes : s.toByteArray = s.toList.utf8Encode := by
    conv_lhs => rw [← String.ofList_toList (s := s), String.toByteArray_ofList]
  change s.toByteArray.data.toList = _
  rw [hbytes, List.utf8Encode, List.data_toByteArray, List.toList_toArray]
  rfl

theorem fromUtf8_asBytes (s : String) : fromUtf8 (asBytes s) = some s.toList :=
  Utf8.decode_eq_some_iff.mpr (asBytes_eq_encode s)

theorem percentDecodeBytes_cons_of_ne {byte : UInt8} (h : byte ≠ 0x25) (rest : List UInt8) :
    percentDecodeBytes (byte :: rest) = (percentDecodeBytes rest).map (byte :: ·) := by
  rw [percentDecodeBytes.eq_def]
  exact if_neg h

theorem percentDecodeBytes_of_not_mem {bytes : List UInt8} (h : (0x25 : UInt8) ∉ bytes) :
    percentDecodeBytes bytes = some bytes := by
  induction bytes with
  | nil => rfl
  | cons byte bytes ih =>
    rw [List.mem_cons, not_or] at h
    rw [percentDecodeBytes_cons_of_ne (Ne.symm h.1), ih h.2]
    rfl

end ChpProxy.Api
