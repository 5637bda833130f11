import BitSerial.Proofs.Arithmetic.Words
import Mathlib.Data.Int.ModEq
import Mathlib.Data.Nat.Digits.Defs

/-!
# Streams as numbers

A list of bits, long or short, is worth the number whose binary digits are the first forty of
them.  Both orders build that number without cutting anything off, so what they build streams
as the list it was built from, with zeros where the list was short.  As a signed number a word
is the one number of its residue in a window of 2^40, and the stream tells its sign.
-/

namespace BitSerial

namespace StreamOrder

variable {bits : List Bit}

/-! ## Numbers of collected bits -/

theorem fromLow_eq_ofDigits (bits : List Bit) :
    fromLow bits = Nat.ofDigits 2 (bits.map Bool.toNat) := by
  induction bits with
  | nil => rfl
  | cons bit rest ih => rw [fromLow_cons, ih, List.map_cons, Nat.ofDigits_cons]

/-- Forty bits are no more than a word has room for. -/
theorem toNat_ofNat_fromLow (short : bits.length ≤ 40) :
    (BitVec.ofNat 40 (fromLow bits)).toNat = fromLow bits := by
  have bounded : fromLow bits < 2 ^ 40 :=
    Nat.lt_of_lt_of_le (fromLow_lt bits) (Nat.pow_le_pow_right (by decide) short)
  rw [BitVec.toNat_ofNat, Nat.mod_eq_of_lt bounded]

theorem toNat_collect_lowFirst (bits : List Bit) :
    (lowFirst.collect bits).toNat = Nat.ofDigits 2 ((bits.take 40).map Bool.toNat) := by
  rw [collect, toNat_ofNat_fromLow (List.length_take_le 40 bits), fromLow_eq_ofDigits]

theorem toNat_collect_highFirst (bits : List Bit) :
    (highFirst.collect bits).toNat = Nat.ofDigits 2 ((bits.take 40).reverse.map Bool.toNat) := by
  have short : (bits.take 40).reverse.length ≤ 40 := by
    rw [List.length_reverse]
    exact List.length_take_le 40 bits
  rw [collect, fromHigh_eq_fromLow_reverse, toNat_ofNat_fromLow short, fromLow_eq_ofDigits]

/-- Bits behind the fortieth do not count. -/
theorem collect_take (order : StreamOrder) (bits : List Bit) :
    order.collect (bits.take 40) = order.collect bits := by
  cases order <;> simp only [collect, List.take_take, Nat.min_self]

/-- A short list in one order is the reversed list in the other. -/
theorem collect_highFirst_of_short (short : bits.length ≤ 40) :
    highFirst.collect bits = lowFirst.collect bits.reverse := by
  have shortReverse : bits.reverse.length ≤ 40 := by rwa [List.length_reverse]
  rw [collect, collect, List.take_of_length_le short, List.take_of_length_le shortReverse,
    fromHigh_eq_fromLow_reverse]

/-! ## Streams of collected bits -/

/-- Zeros behind the last bit change no number that is read lowest bit first. -/
theorem fromLow_append_zeros (bits : List Bit) (count : Nat) :
    fromLow (bits ++ List.replicate count false) = fromLow bits := by
  rw [fromLow_append, fromLow_replicate_false, Nat.mul_zero, Nat.add_zero]

/-- What is collected lowest bit first streams as the list, filled up with zeros behind it. -/
theorem bits_collect_lowFirst (bits : List Bit) :
    lowFirst.bits (lowFirst.collect bits) =
      bits.take 40 ++ List.replicate (40 - bits.length) false := by
  have full : (bits.take 40 ++ List.replicate (40 - bits.length) false).length = 40 := by
    rw [List.length_append, List.length_take, List.length_replicate]
    omega
  have same : lowFirst.collect (bits.take 40 ++ List.replicate (40 - bits.length) false) =
      lowFirst.collect bits := by
    rw [collect, collect, List.take_of_length_le full.le, fromLow_append_zeros]
  rw [← same, bits_collect lowFirst full]

/-- What is collected highest bit first has its zeros in front. -/
theorem bits_collect_highFirst (bits : List Bit) :
    highFirst.bits (highFirst.collect bits) =
      List.replicate (40 - bits.length) false ++ bits.take 40 := by
  have taken : (bits.take 40).length = min 40 bits.length := List.length_take
  have missing : 40 - (bits.take 40).reverse.length = 40 - bits.length := by
    rw [List.length_reverse, taken]
    omega
  rw [← collect_take, collect_highFirst_of_short (by omega), bits_highFirst,
    bits_collect_lowFirst, List.take_of_length_le (by rw [List.length_reverse]; omega), missing,
    List.reverse_append, List.reverse_replicate, List.reverse_reverse]

end StreamOrder

/-! ## Signed numbers -/

namespace Word

/-- Pushed to the top of sixty-four bits and back down with its sign, a word is extended by it. -/
theorem sshiftRight_shiftLeft (word : Word) :
    (word.setWidth 64 <<< 24).sshiftRight 24 = word.signExtend 64 := by
  apply BitVec.eq_of_getLsbD_eq
  intro place inside
  rw [BitVec.getLsbD_sshiftRight, BitVec.getLsbD_signExtend, decide_eq_false (by omega),
    decide_eq_true inside]
  by_cases low : place < 40
  · rw [if_pos (by omega), if_pos low, BitVec.getLsbD_shiftLeft, BitVec.getLsbD_setWidth,
      Nat.add_sub_cancel_left]
    simp [low, inside]
    omega
  · have top : (word.setWidth 64 <<< 24).msb = word.msb := by
      rw [BitVec.msb_eq_getLsbD_last, BitVec.msb_eq_getLsbD_last]
      simp
    rw [if_neg (by omega), if_neg low, top]
    rfl

/-- The pair of shifts on sixty-four bits gives the signed number. -/
theorem signed_eq_shifts (word : Word) :
    signed word = ((word.setWidth 64 <<< 24).sshiftRight 24).toInt := by
  rw [sshiftRight_shiftLeft, BitVec.toInt_signExtend_of_le (by decide), signed]

/-- The signed number of a word is the only one of its residue from -2^39 up to 2^39. -/
theorem eq_signed_iff (word : Word) (value : Int) :
    value = signed word ↔
      -2 ^ 39 ≤ value ∧ value < 2 ^ 39 ∧ value ≡ word.toNat [ZMOD 2 ^ 40] := by
  have bounded := word.isLt
  rw [signed, BitVec.toInt_eq_toNat_cond, Int.ModEq]
  omega

theorem msb_eq_true_iff (word : Word) : word.msb = true ↔ signed word < 0 := by
  rw [signed, BitVec.msb_eq_toInt, decide_eq_true_iff]

theorem eq_zero_iff (word : Word) : word = 0 ↔ signed word = 0 := by
  rw [signed, ← BitVec.toInt_zero, BitVec.toInt_inj]
  rfl

end Word

namespace Arithmetic

open StreamOrder

/-- Of forty bits a scan reports the signed number, and sign and zero as the number has them. -/
theorem scan_ofBits_bits (word : Word) :
    (Scan.ofBits (lowFirst.bits word)).value = Word.signed word ∧
      ((Scan.ofBits (lowFirst.bits word)).negative = true ↔ Word.signed word < 0) ∧
      ((Scan.ofBits (lowFirst.bits word)).zero = true ↔ Word.signed word = 0) := by
  rw [scan_bits, decide_eq_true_iff]
  exact ⟨rfl, Word.msb_eq_true_iff word, Word.eq_zero_iff word⟩

/-- Whatever state line A is in, a scan reports on the word that stands in its cells. -/
theorem scan_eq_ofBits (registers : Registers) :
    (scan registers).result.1 = Scan.ofBits (lowFirst.bits (registers.peek .a)) := by
  have cells : lowFirst.bits (registers.peek .a) = registers.a.bits :=
    bits_collect lowFirst registers.a.length_bits
  rw [cells, scan, DelayLine.emit_eq _ (Nat.le_refl 40),
    List.take_of_length_le (Nat.le_of_eq registers.a.length_bits)]

end Arithmetic

namespace StreamOrder

theorem getElem?_bits (order : StreamOrder) (word : Word) {place : Nat} (inside : place < 40) :
    (order.bits word)[place]? = some (word.getLsbD (order.index place)) := by
  rw [List.getElem?_eq_getElem (by rwa [length_bits]), getElem_bits]

/-- A word and its stream determine each other in both orders, and the bit streamed at a place is
the one that the order names.  Of a list of any length the first forty bits count, and all of
them do: they are the digits of the number that is collected, and that number streams as they
stand, with zeros where there were less than forty.  A list that is not too long is worth in one
order what it is worth backwards in the other.  The signed number of a word is the only one of
its residue from -2^39 up to 2^39 and comes out of a pair of shifts; it is negative if the last
bit of forty is one and zero if none is, which is what a scan of register A reports. -/
theorem streams_exact :
    (∀ (order : StreamOrder) (word : Word),
      order.collect (order.bits word) = word ∧
        ∀ place < 40, (order.bits word)[place]? = some (word.getLsbD (order.index place))) ∧
    (∀ (order : StreamOrder) (bits : List Bit),
      (bits.length = 40 → order.bits (order.collect bits) = bits) ∧
        order.collect (bits.take 40) = order.collect bits ∧
        (order.collect bits).toNat < 2 ^ 40) ∧
    (∀ bits : List Bit,
      (lowFirst.collect bits).toNat = Nat.ofDigits 2 ((bits.take 40).map Bool.toNat) ∧
        (highFirst.collect bits).toNat =
          Nat.ofDigits 2 ((bits.take 40).reverse.map Bool.toNat) ∧
        lowFirst.bits (lowFirst.collect bits) =
          bits.take 40 ++ List.replicate (40 - bits.length) false ∧
        highFirst.bits (highFirst.collect bits) =
          List.replicate (40 - bits.length) false ++ bits.take 40 ∧
        (bits.length ≤ 40 → highFirst.collect bits = lowFirst.collect bits.reverse)) ∧
    (∀ (word : Word) (value : Int),
      value = Word.signed word ↔
        -2 ^ 39 ≤ value ∧ value < 2 ^ 39 ∧ value ≡ word.toNat [ZMOD 2 ^ 40]) ∧
    (∀ word : Word,
      Word.signed word = ((word.setWidth 64 <<< 24).sshiftRight 24).toInt ∧
        (Word.signed word < 0 ↔ (lowFirst.bits word)[39]? = some true) ∧
        (Word.signed word = 0 ↔ ∀ bit ∈ lowFirst.bits word, bit = false)) ∧
    ∀ registers : Registers,
      let report := (Arithmetic.scan registers).result.1
      report.value = Word.signed (registers.peek .a) ∧
        (report.negative = true ↔ report.value < 0) ∧ (report.zero = true ↔ report.value = 0) := by
  refine ⟨?_, ?_, ?_, Word.eq_signed_iff, ?_, ?_⟩
  · intro order word
    exact ⟨collect_bits order word, fun place => getElem?_bits order word⟩
  · intro order bits
    exact ⟨bits_collect order, collect_take order bits, (order.collect bits).isLt⟩
  · intro bits
    exact ⟨toNat_collect_lowFirst bits, toNat_collect_highFirst bits, bits_collect_lowFirst bits,
      bits_collect_highFirst bits, collect_highFirst_of_short⟩
  · intro word
    refine ⟨Word.signed_eq_shifts word, ?_, ?_⟩
    · rw [getElem?_bits lowFirst word (by decide), Option.some.injEq, ← Word.msb_eq_true_iff,
        BitVec.msb_eq_getLsbD_last]
      rfl
    · rw [← (Arithmetic.scan_ofBits_bits word).2.2]
      simp [Arithmetic.Scan.ofBits]
  · intro registers report
    obtain ⟨value, negative, zero⟩ := Arithmetic.scan_ofBits_bits (registers.peek .a)
    rw [← Arithmetic.scan_eq_ofBits registers] at value negative zero
    exact ⟨value, value ▸ negative, value ▸ zero⟩

/-- Three bits are worth three highest bit first and, backwards, lowest bit first.  Of forty-two
bits the last two do not count, and the forty before them come back.  The word that they make
lowest bit first has its sign from the fortieth. -/
theorem streams_exact_long :
    highFirst.collect [false, true, true] = lowFirst.collect [true, true, false] ∧
      lowFirst.bits (lowFirst.collect (List.replicate 39 false ++ [true])) =
        List.replicate 39 false ++ [true] ∧
      lowFirst.collect (List.replicate 39 false ++ [true, true, false]) = 0x8000000000 ∧
      Word.signed 0x8000000000 < 0 := by
  obtain ⟨streamed, collected, worth, -, signs, -⟩ := streams_exact
  refine ⟨(worth [false, true, true]).2.2.2.2 (by decide),
    (collected lowFirst (List.replicate 39 false ++ [true])).1 (by decide), ?_, ?_⟩
  · rw [← (collected lowFirst _).2.1]
    decide
  · rw [(signs 0x8000000000).2.1, (streamed lowFirst 0x8000000000).2 39 (by decide)]
    decide

end StreamOrder

end BitSerial
