import FrameScope.Cbor.Reader
import Mathlib.Tactic.Ring

/-!
# Heads of binary items

A number of fixed width is read back (`ofBigEndian_bigEndian`), and bytes are written again as the
number they hold (`bigEndian_ofBigEndian`). An argument of 64 bits is read back from its head
(`exists_head`).
-/

namespace FrameScope

theorem Text.ofBytes?_toBytes (s : String) : Text.ofBytes? (Text.toBytes s) = some s := by
  simp [Text.ofBytes?, Text.toBytes, String.fromUTF8?, String.fromUTF8, s.isValidUTF8]

theorem Text.ofBytes_toBytes (s : String) : Text.ofBytes (Text.toBytes s) = s.toList := by
  rw [Text.ofBytes, Text.ofBytes?_toBytes]

namespace Cbor

@[simp] theorem length_bigEndian (count n : Nat) : (bigEndian count n).length = count := by
  induction count with
  | zero => rfl
  | succ count ih => simp [bigEndian, ih]

theorem foldl_bigEndian (count n m : Nat) :
    (bigEndian count n).foldl (fun n b => n * 256 + b.toNat) m =
      m * Nat.pow 256 count + n % Nat.pow 256 count := by
  induction count generalizing m with
  | zero => simp [bigEndian, Nat.mod_one]
  | succ count ih =>
    have hbyte : (UInt8.ofNat (n / Nat.pow 256 count)).toNat = n / Nat.pow 256 count % 256 := by
      simp [UInt8.toNat_ofNat']
    rw [bigEndian, List.foldl_cons, ih, hbyte]
    simp only [Nat.pow_eq, Nat.pow_succ, Nat.mod_mul]
    ring

theorem ofBigEndian_bigEndian {count n : Nat} (h : n < Nat.pow 256 count) :
    ofBigEndian (bigEndian count n) = n := by
  rw [ofBigEndian, foldl_bigEndian, Nat.zero_mul, Nat.zero_add, Nat.mod_eq_of_lt h]

theorem foldl_ofBigEndian (bytes : Bytes) (m : Nat) :
    bytes.foldl (fun n b => n * 256 + b.toNat) m =
      m * Nat.pow 256 bytes.length + ofBigEndian bytes := by
  induction bytes generalizing m with
  | nil => simp [ofBigEndian]
  | cons b bytes ih =>
    rw [ofBigEndian, List.foldl_cons, List.foldl_cons, ih, ih, List.length_cons]
    simp only [Nat.pow_eq, Nat.pow_succ]
    ring

theorem ofBigEndian_cons (b : UInt8) (bytes : Bytes) :
    ofBigEndian (b :: bytes) = b.toNat * Nat.pow 256 bytes.length + ofBigEndian bytes := by
  rw [ofBigEndian, List.foldl_cons, foldl_ofBigEndian, Nat.zero_mul, Nat.zero_add]

theorem ofBigEndian_lt (bytes : Bytes) : ofBigEndian bytes < Nat.pow 256 bytes.length := by
  induction bytes with
  | nil => decide
  | cons b bytes ih =>
    have hb : b.toNat < 256 := b.toNat_lt
    rw [ofBigEndian_cons, List.length_cons]
    calc b.toNat * Nat.pow 256 bytes.length + ofBigEndian bytes
      _ < b.toNat * Nat.pow 256 bytes.length + Nat.pow 256 bytes.length := Nat.add_lt_add_left ih _
      _ = (b.toNat + 1) * Nat.pow 256 bytes.length := (Nat.succ_mul _ _).symm
      _ ≤ 256 * Nat.pow 256 bytes.length := Nat.mul_le_mul_right _ hb
      _ = Nat.pow 256 (bytes.length + 1) := Nat.mul_comm _ _

theorem bigEndian_add (count m n : Nat) :
    bigEndian count (m * Nat.pow 256 count + n) = bigEndian count n := by
  induction count generalizing m with
  | zero => rfl
  | succ count ih =>
    have hsplit : m * Nat.pow 256 (count + 1) + n = n + m * 256 * Nat.pow 256 count := by
      simp only [Nat.pow_eq, Nat.pow_succ]
      ring
    have hpos : 0 < Nat.pow 256 count := Nat.pow_pos (by decide)
    have hbyte : UInt8.ofNat ((n + m * 256 * Nat.pow 256 count) / Nat.pow 256 count) =
        UInt8.ofNat (n / Nat.pow 256 count) := by
      rw [Nat.add_mul_div_right _ _ hpos, ← UInt8.toNat_inj]
      simp [UInt8.toNat_ofNat']
    rw [bigEndian, bigEndian, hsplit, hbyte, Nat.add_comm n, ih]

theorem bigEndian_ofBigEndian (bytes : Bytes) :
    bigEndian bytes.length (ofBigEndian bytes) = bytes := by
  induction bytes with
  | nil => rfl
  | cons b bytes ih =>
    have hhead : (b.toNat * Nat.pow 256 bytes.length + ofBigEndian bytes)
        / Nat.pow 256 bytes.length = b.toNat := by
      have hpos : 0 < Nat.pow 256 bytes.length := Nat.pow_pos (by decide)
      rw [Nat.add_comm, Nat.add_mul_div_right _ _ hpos, Nat.div_eq_of_lt (ofBigEndian_lt bytes),
        Nat.zero_add]
    rw [List.length_cons, bigEndian, ofBigEndian_cons, hhead, bigEndian_add, ih]
    simp

theorem take?_append {count : Nat} {front : Bytes} (h : front.length = count) (rest : Bytes) :
    take? count (front ++ rest) = some (front, rest) := by
  simp [take?, ← h]

theorem readArgument_wide {width argument : Nat} (hwidth : width < 4)
    (h : argument < Nat.pow 256 (Nat.pow 2 width)) (rest : Bytes) :
    readArgument (24 + width) (bigEndian (Nat.pow 2 width) argument ++ rest) =
      some (argument, rest) := by
  rw [readArgument, if_neg (by omega), if_pos (by omega), Nat.add_sub_cancel_left,
    take?_append (length_bigEndian _ _), Option.map_some]
  simp only [ofBigEndian_bigEndian h]

/-- A head is one byte that tells the major type and how the argument stands behind it, and what is
read there is the argument. -/
theorem exists_head {major argument : Nat} (hmajor : major < 8) (harg : argument < Word.size) :
    ∃ b more, head major argument = b :: more ∧ b.toNat / 32 = major ∧ b.toNat % 32 ≠ indefinite ∧
      ∀ rest, readArgument (b.toNat % 32) (more ++ rest) = some (argument, rest) := by
  have hsize : Word.size = 18446744073709551616 := by decide
  have hbyte (info : Nat) (hinfo : info < 31) :
      (UInt8.ofNat (major * 32 + info)).toNat / 32 = major ∧
        (UInt8.ofNat (major * 32 + info)).toNat % 32 = info := by
    rw [UInt8.toNat_ofNat']
    omega
  have hwide (width : Nat) (hwidth : width < 4) (h : argument < Nat.pow 256 (Nat.pow 2 width)) :
      ∃ b more, UInt8.ofNat (major * 32 + (24 + width)) :: bigEndian (Nat.pow 2 width) argument =
        b :: more ∧ b.toNat / 32 = major ∧ b.toNat % 32 ≠ indefinite ∧
        ∀ rest, readArgument (b.toNat % 32) (more ++ rest) = some (argument, rest) := by
    obtain ⟨hdiv, hmod⟩ := hbyte (24 + width) (by omega)
    refine ⟨_, _, rfl, hdiv, by rw [hmod, indefinite]; omega, fun rest => ?_⟩
    rw [hmod]
    exact readArgument_wide hwidth h rest
  unfold head
  split_ifs with h24 h256 h65536 hnarrow
  · obtain ⟨hdiv, hmod⟩ := hbyte argument (by omega)
    exact ⟨_, _, rfl, hdiv, by rw [hmod, indefinite]; omega,
      fun rest => by rw [hmod]; simp [readArgument, h24]⟩
  · exact hwide 0 (by decide) h256
  · exact hwide 1 (by decide) h65536
  · exact hwide 2 (by decide) hnarrow
  · exact hwide 3 (by decide) (by rw [hsize] at harg; exact harg)

theorem head_length_pos (major argument : Nat) : 0 < (head major argument).length := by
  unfold head
  split_ifs <;> simp

end Cbor

end FrameScope
