import CommandScript.Proofs.Text
import CommandScript.Text.Utf8

set_option autoImplicit false

namespace CommandScript.Text

def bytes (s : String) : List UInt8 :=
  s.toUTF8.data.toList

-- The bytes of a text, character by character.
def encode (s : List Char) : List UInt8 :=
  s.flatMap String.utf8EncodeChar

theorem bytes_encoded (s : String) : bytes s = encode s.toList := by
  have spelled : s.toUTF8 = s.toList.utf8Encode := by
    rw [← String.toByteArray_ofList, String.ofList_toList, String.toUTF8]
  rw [bytes, spelled, List.utf8Encode, List.data_toByteArray, encode]

theorem encode_cons (c : Char) (s : List Char) : encode (c :: s) = String.utf8EncodeChar c ++ encode s :=
  List.flatMap_cons

theorem encode_append (s t : List Char) : encode (s ++ t) = encode s ++ encode t :=
  List.flatMap_append

theorem encode_nil_iff (s : List Char) : encode s = [] ↔ s = [] := by
  cases s with
  | nil => exact ⟨fun _ => rfl, fun _ => rfl⟩
  | cons c rest => simp [encode_cons]

namespace Utf8

theorem between_iff (low high : Nat) (a : UInt8) (fits : low < 256 ∧ high < 256) :
    (UInt8.ofNat low ≤ a && a ≤ UInt8.ofNat high) = true ↔ low ≤ a.toNat ∧ a.toNat ≤ high := by
  rw [Bool.and_eq_true, decide_eq_true_iff, decide_eq_true_iff, UInt8.le_iff_toNat_le, UInt8.le_iff_toNat_le,
    UInt8.toNat_ofNat_of_lt' fits.1, UInt8.toNat_ofNat_of_lt' fits.2]

theorem ascii_iff (a : UInt8) : a < 0x80 ↔ a.toNat ≤ 127 :=
  UInt8.lt_iff_toNat_lt.trans Nat.lt_succ_iff

section Sequences

-- A sequence of any length is read as one character, whatever follows it.
variable (index : Nat) (rest : List UInt8) (a b c d : UInt8)

theorem decode_one (low : a.toNat ≤ 127) :
    decodeFrom index (a :: rest) = (Char.ofNat a.toNat :: ·) <$> decodeFrom (index + 1) rest := by
  have one : a < 0x80 := (ascii_iff a).mpr low
  rw [decodeFrom.eq_def]
  dsimp only
  rw [if_pos one]

theorem decode_two (lead : 194 ≤ a.toNat ∧ a.toNat ≤ 223) (tail : isTail b = true) :
    decodeFrom index (a :: b :: rest) = (Char.ofNat (a.toNat % 32 * 64 + tailBits b) :: ·) <$> decodeFrom (index + 2) rest := by
  have noOne : ¬ a < 0x80 := mt (ascii_iff a).mp (by omega)
  have two : (0xC2 ≤ a && a ≤ 0xDF) = true := (between_iff 194 223 a (by decide)).mpr lead
  rw [decodeFrom.eq_def]
  dsimp only
  rw [if_neg noOne, if_pos two, if_pos tail]

theorem decode_three (lead : 224 ≤ a.toNat ∧ a.toNat ≤ 239) (second : isSecondOfThree a b = true) (tail : isTail c = true) :
    decodeFrom index (a :: b :: c :: rest) =
      (Char.ofNat ((a.toNat % 16 * 64 + tailBits b) * 64 + tailBits c) :: ·) <$> decodeFrom (index + 3) rest := by
  have noOne : ¬ a < 0x80 := mt (ascii_iff a).mp (by omega)
  have noTwo : ¬ (0xC2 ≤ a && a ≤ 0xDF) = true := mt (between_iff 194 223 a (by decide)).mp (by omega)
  have three : (0xE0 ≤ a && a ≤ 0xEF) = true := (between_iff 224 239 a (by decide)).mpr lead
  rw [decodeFrom.eq_def]
  dsimp only
  rw [if_neg noOne, if_neg noTwo, if_pos three, second, tail]
  rfl

theorem decode_four (lead : 240 ≤ a.toNat ∧ a.toNat ≤ 244) (second : isSecondOfFour a b = true) (third : isTail c = true)
    (fourth : isTail d = true) :
    decodeFrom index (a :: b :: c :: d :: rest) =
      (Char.ofNat (((a.toNat % 8 * 64 + tailBits b) * 64 + tailBits c) * 64 + tailBits d) :: ·) <$>
        decodeFrom (index + 4) rest := by
  have noOne : ¬ a < 0x80 := mt (ascii_iff a).mp (by omega)
  have noTwo : ¬ (0xC2 ≤ a && a ≤ 0xDF) = true := mt (between_iff 194 223 a (by decide)).mp (by omega)
  have noThree : ¬ (0xE0 ≤ a && a ≤ 0xEF) = true := mt (between_iff 224 239 a (by decide)).mp (by omega)
  have four : (0xF0 ≤ a && a ≤ 0xF4) = true := (between_iff 240 244 a (by decide)).mpr lead
  rw [decodeFrom.eq_def]
  dsimp only
  rw [if_neg noOne, if_neg noTwo, if_neg noThree, if_pos four, second, third, fourth]
  rfl

end Sequences

theorem byte_value (n : Nat) (small : n < 256) : (UInt8.ofNat n).toNat = n :=
  UInt8.toNat_ofNat_of_lt' small

-- The later bytes of a character hold six bits each.
theorem tail_of_bits (n : Nat) (small : n < 64) :
    isTail (UInt8.ofNat (n + 128)) = true ∧ tailBits (UInt8.ofNat (n + 128)) = n := by
  have value := byte_value (n + 128) (by omega)
  constructor
  · exact (between_iff 128 191 _ (by decide)).mpr (by omega)
  · rw [tailBits, value]
    omega

theorem byte_inj (m n : Nat) (fits : m < 256 ∧ n < 256) (same : UInt8.ofNat m = UInt8.ofNat n) : m = n := by
  rw [← byte_value m fits.1, same, byte_value n fits.2]

theorem byte_le (m n : Nat) (fits : n < 256) (le : m ≤ n) : UInt8.ofNat m ≤ UInt8.ofNat n := by
  rw [UInt8.le_iff_toNat_le, byte_value m (by omega), byte_value n fits]
  exact le

-- After the first and the last lead byte of its length, the second byte is bound more tightly than others.
theorem second_between (a b first last low high : UInt8) (tail : isTail b = true) (above : a = first → low ≤ b)
    (below : a = last → b ≤ high) :
    ((if a = first then decide (low ≤ b) else decide (0x80 ≤ b)) && (if a = last then decide (b ≤ high) else decide (b ≤ 0xBF))) =
      true := by
  rw [isTail, Bool.and_eq_true] at tail
  rw [Bool.and_eq_true]
  constructor
  · split
    · rename_i same
      exact decide_eq_true (above same)
    · exact tail.1
  · split
    · rename_i same
      exact decide_eq_true (below same)
    · exact tail.2

-- No character is written in more bytes than it needs, and a surrogate is no character.
theorem second_of_three (lead second : Nat) (fits : lead < 16 ∧ second < 64) (shortest : lead = 0 → 32 ≤ second)
    (noSurrogate : lead = 13 → second < 32) :
    isSecondOfThree (UInt8.ofNat (lead + 224)) (UInt8.ofNat (second + 128)) = true := by
  refine second_between _ _ 0xE0 0xED 0xA0 0x9F (tail_of_bits second fits.2).1 (fun same => ?above) fun same => ?below
  case above =>
    have none := shortest (by have own := byte_inj (lead + 224) 224 (by omega) same; omega)
    exact byte_le 160 _ (by omega) (by omega)
  case below =>
    have surrogate := noSurrogate (by have own := byte_inj (lead + 224) 237 (by omega) same; omega)
    exact byte_le _ 159 (by decide) (by omega)

theorem second_of_four (lead second : Nat) (fits : lead < 5 ∧ second < 64) (shortest : lead = 0 → 16 ≤ second)
    (known : lead = 4 → second < 16) :
    isSecondOfFour (UInt8.ofNat (lead + 240)) (UInt8.ofNat (second + 128)) = true := by
  refine second_between _ _ 0xF0 0xF4 0x90 0x8F (tail_of_bits second fits.2).1 (fun same => ?above) fun same => ?below
  case above =>
    have none := shortest (by have own := byte_inj (lead + 240) 240 (by omega) same; omega)
    exact byte_le 144 _ (by omega) (by omega)
  case below =>
    have last := known (by have own := byte_inj (lead + 240) 244 (by omega) same; omega)
    exact byte_le _ 143 (by decide) (by omega)

theorem decode_character (index : Nat) (c : Char) (rest : List UInt8) :
    decodeFrom index (String.utf8EncodeChar c ++ rest) =
      (c :: ·) <$> decodeFrom (index + (String.utf8EncodeChar c).length) rest := by
  have valid : c.val.toNat < 0xD800 ∨ 0xDFFF < c.val.toNat ∧ c.val.toNat < 0x110000 := c.valid
  have whole (n : Nat) (same : n = c.val.toNat) : Char.ofNat n = c := by
    rw [same]
    exact Char.ofNat_toNat c
  rw [String.utf8EncodeChar]
  generalize c.val.toNat = v at whole valid
  -- The code alone decides the length. In each length the lead byte and the later ones share its bits out, so they add up to it.
  by_cases one : v ≤ 127
  · have value := byte_value v (by omega)
    rw [if_pos one, List.singleton_append, decode_one _ _ _ (by omega), whole _ value]
    rfl
  · by_cases two : v ≤ 2047
    · have lead := byte_value (v / 64 % 32 + 192) (by omega)
      obtain ⟨tail, bits⟩ := tail_of_bits (v % 64) (by omega)
      rw [if_neg one, if_pos two, List.cons_append, List.singleton_append, decode_two _ _ _ _ (by omega) tail, lead, bits,
        whole _ (by omega)]
      rfl
    · by_cases three : v ≤ 65535
      · have lead := byte_value (v / 4096 % 16 + 224) (by omega)
        have second := second_of_three (v / 4096 % 16) (v / 64 % 64) (by omega) (by omega) (by omega)
        obtain ⟨_, secondBits⟩ := tail_of_bits (v / 64 % 64) (by omega)
        obtain ⟨tail, bits⟩ := tail_of_bits (v % 64) (by omega)
        rw [if_neg one, if_neg two, if_pos three, List.cons_append, List.cons_append, List.singleton_append,
          decode_three _ _ _ _ _ (by omega) second tail, lead, secondBits, bits, whole _ (by omega)]
        rfl
      · have lead := byte_value (v / 262144 % 8 + 240) (by omega)
        have second := second_of_four (v / 262144 % 8) (v / 4096 % 64) (by omega) (by omega) (by omega)
        obtain ⟨_, secondBits⟩ := tail_of_bits (v / 4096 % 64) (by omega)
        obtain ⟨third, thirdBits⟩ := tail_of_bits (v / 64 % 64) (by omega)
        obtain ⟨tail, bits⟩ := tail_of_bits (v % 64) (by omega)
        rw [if_neg one, if_neg two, if_neg three, List.cons_append, List.cons_append, List.cons_append, List.singleton_append,
          decode_four _ _ _ _ _ _ (by omega) second third tail, lead, secondBits, thirdBits, bits, whole _ (by omega)]
        rfl

theorem decode_encoded (s : List Char) : decode (encode s) = .ok s := by
  have from_any (index : Nat) : decodeFrom index (encode s) = .ok s := by
    induction s generalizing index with
    | nil => rfl
    | cons c rest ih =>
      rw [encode_cons, decode_character, ih]
      rfl
  exact from_any 0

end Utf8

theorem encoded_ascii (c : Char) (ascii : c.toNat ≤ 127) : String.utf8EncodeChar c = [UInt8.ofNat c.toNat] := by
  rw [String.utf8EncodeChar]
  exact if_pos ascii

theorem encoded_beyond (c : Char) (beyond : 127 < c.toNat) : ∀ b ∈ String.utf8EncodeChar c, 127 < b.toNat := by
  have high (n : Nat) (fits : n < 256) (above : 127 < n) : 127 < (UInt8.ofNat n).toNat := by rwa [Utf8.byte_value n fits]
  have later (n : Nat) : 127 < (UInt8.ofNat (n % 64 + 128)).toNat := high _ (by omega) (by omega)
  have long : ¬ c.val.toNat ≤ 127 := Nat.not_le.mpr beyond
  rw [String.utf8EncodeChar, if_neg long]
  generalize c.val.toNat = v
  split
  · exact List.forall_mem_cons.mpr ⟨high _ (by omega) (by omega), List.forall_mem_singleton.mpr (later _)⟩
  · split
    · exact List.forall_mem_cons.mpr ⟨high _ (by omega) (by omega), List.forall_mem_cons.mpr ⟨later _,
        List.forall_mem_singleton.mpr (later _)⟩⟩
    · exact List.forall_mem_cons.mpr ⟨high _ (by omega) (by omega), List.forall_mem_cons.mpr ⟨later _,
        List.forall_mem_cons.mpr ⟨later _, List.forall_mem_singleton.mpr (later _)⟩⟩⟩

-- The byte of a character of ASCII belongs to no other character.
theorem mem_encoded (mark c : Char) (ascii : mark.toNat ≤ 127) (member : UInt8.ofNat mark.toNat ∈ String.utf8EncodeChar c) :
    c = mark := by
  have value := Utf8.byte_value mark.toNat (by omega)
  by_cases low : c.toNat ≤ 127
  · rw [encoded_ascii c low] at member
    have same := Utf8.byte_inj mark.toNat c.toNat (by omega) (List.mem_singleton.mp member)
    exact Char.toNat_inj.mp same.symm
  · have high := encoded_beyond c (by omega) _ member
    omega

-- Cutting bytes at line feeds is cutting the text at line feeds.
theorem pieces_encoded (s : List Char) : pieces 10 (encode s) = (pieces '\n' s).map encode := by
  induction s with
  | nil => rfl
  | cons c rest ih =>
    obtain ⟨piece, others, cut⟩ := List.exists_cons_of_ne_nil (pieces_ne_nil '\n' rest)
    rw [encode_cons, pieces]
    by_cases feed : c = '\n'
    · subst feed
      rw [encoded_ascii '\n' (by decide), if_pos rfl, List.map_cons, ← ih]
      exact if_pos rfl
    · have absent : (10 : UInt8) ∉ String.utf8EncodeChar c := fun member => feed (mem_encoded '\n' c (by decide) member)
      rw [cut] at ih
      rw [pieces_prepend 10 _ _ _ _ absent ih, if_neg feed, cut, List.map_cons, encode_cons]

theorem drop_return_last {α : Type} [DecidableEq α] (mark : α) (front : List α) : dropReturn mark (front ++ [mark]) = front := by
  rw [dropReturn, if_pos (List.getLast?_concat), List.dropLast_concat]

theorem drop_return_other {α : Type} [DecidableEq α] (mark : α) (line : List α) (other : line.getLast? ≠ some mark) :
    dropReturn mark line = line :=
  if_neg other

theorem drop_return_encoded (line : List Char) : dropReturn 13 (encode line) = encode (dropReturn '\r' line) := by
  by_cases ends : line.getLast? = some '\r'
  · obtain ⟨front, rfl⟩ := List.getLast?_eq_some_iff.mp ends
    rw [drop_return_last, encode_append]
    exact drop_return_last 13 (encode front)
  · rw [drop_return_other '\r' line ends]
    refine drop_return_other 13 _ fun last => ends ?_
    rcases List.eq_nil_or_concat line with rfl | ⟨front, c, rfl⟩
    · cases last
    · rw [List.concat_eq_append, encode_append] at last
      have member : (13 : UInt8) ∈ encode [c] := by
        have filled : encode [c] ≠ [] := mt (encode_nil_iff [c]).mp (List.cons_ne_nil c [])
        rw [List.getLast?_append_of_ne_nil _ filled] at last
        exact List.mem_of_getLast? last
      rw [encode, List.flatMap_singleton] at member
      rw [List.concat_eq_append, List.getLast?_concat, mem_encoded '\r' c (by decide) member]

theorem byte_lines_encoded (s : List Char) : byteLines (encode s) = (lines s).map encode := by
  rw [byteLines, linesWith, pieces_encoded, lines, linesWith]
  generalize pieces '\n' s = pieces
  induction pieces with
  | nil => rfl
  | cons piece rest ih =>
    cases rest with
    | nil =>
      rw [List.map_singleton, linesOfPieces, linesOfPieces]
      by_cases empty : piece = []
      · subst empty
        rfl
      · have filled : encode piece ≠ [] := mt (encode_nil_iff piece).mp empty
        rw [if_neg (by simpa using filled), if_neg (by simpa using empty), List.map_singleton]
    | cons next others =>
      rw [List.map_cons] at ih
      rw [List.map_cons, linesOfPieces, linesOfPieces, List.map_cons, List.map_cons, drop_return_encoded, ih]
      · exact List.cons_ne_nil next others
      · exact List.cons_ne_nil (encode next) _

theorem decode_lines (lines : List (List Char)) : (lines.map encode).mapM Utf8.decode = .ok lines := by
  induction lines with
  | nil => rfl
  | cons line rest ih =>
    rw [List.map_cons, List.mapM_cons, Utf8.decode_encoded, ih]
    rfl

end CommandScript.Text
