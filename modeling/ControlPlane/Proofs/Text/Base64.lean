import ControlPlane.Text.Base64
import Mathlib.Tactic

/-! # Base64 reads back

Encoding writes whole groups of four digits, of which the last may end in padding, and decoding
takes each group apart again: `decode_encode`. -/

namespace ControlPlane.Text.Base64

/-! ### Digits -/

/-- An ASCII character as a byte. -/
def asciiByte (c : Char) : UInt8 := UInt8.ofNat c.toNat

theorem isAscii_digit {n : ℕ} (h : n < 64) : (digit n).toNat < 128 := by
  have hall : ∀ k : Fin 64, (digit k).toNat < 128 := by decide
  exact hall ⟨n, h⟩

theorem readDigit_asciiByte {n : ℕ} (h : n < 64) (place : ℕ) :
    readDigit place (asciiByte (digit n)) = .ok n := by
  have hall : ∀ k : Fin 64, value? (asciiByte (digit k)) = some k.val := by decide
  rw [readDigit, hall ⟨n, h⟩]

theorem asciiByte_ne_pad {n : ℕ} (h : n < 64) : asciiByte (digit n) ≠ pad := by
  have hall : ∀ k : Fin 64, asciiByte (digit k) ≠ pad := by decide
  exact hall ⟨n, h⟩

/-- What encoding writes is a digit or the padding character. -/
theorem mem_encodeChars {bytes : Bytes} {c : Char} (h : c ∈ encodeChars bytes) :
    c = '=' ∨ ∃ n < 64, c = digit n := by
  induction bytes using encodeChars.induct with
  | case1 => cases h
  | case2 a =>
      have ha := a.toNat_lt
      simp only [encodeChars, List.mem_cons, List.not_mem_nil, or_false] at h
      rcases h with h | h | h | h
      · exact .inr ⟨_, by omega, h⟩
      · exact .inr ⟨_, by omega, h⟩
      · exact .inl h
      · exact .inl h
  | case3 a b =>
      have ha := a.toNat_lt
      have hb := b.toNat_lt
      simp only [encodeChars, List.mem_cons, List.not_mem_nil, or_false] at h
      rcases h with h | h | h | h
      · exact .inr ⟨_, by omega, h⟩
      · exact .inr ⟨_, by omega, h⟩
      · exact .inr ⟨_, by omega, h⟩
      · exact .inl h
  | case4 a b c rest ih =>
      have ha := a.toNat_lt
      have hb := b.toNat_lt
      have hc := c.toNat_lt
      simp only [encodeChars, List.mem_cons] at h
      rcases h with h | h | h | h | h
      · exact .inr ⟨_, by omega, h⟩
      · exact .inr ⟨_, by omega, h⟩
      · exact .inr ⟨_, by omega, h⟩
      · exact .inr ⟨_, by omega, h⟩
      · exact ih h

/-! ### Text as bytes -/

theorem toList_loop (bytes : ByteArray) (i : ℕ) (read : List UInt8) :
    ByteArray.toList.loop bytes i read = read.reverse ++ bytes.data.toList.drop i := by
  induction i, read using ByteArray.toList.loop.induct bytes with
  | case1 i read hi ih =>
      have hdrop : bytes.data.toList.drop i
          = bytes.get! i :: bytes.data.toList.drop (i + 1) := by
        have hlen : i < bytes.data.toList.length := by simpa using hi
        rw [List.drop_eq_getElem_cons hlen]
        congr 1
        have hi' : i < bytes.data.size := hi
        show bytes.data[i] = bytes.data[i]!
        rw [getElem!_pos bytes.data i hi']
      rw [ByteArray.toList.loop, if_pos hi, ih, hdrop]
      simp
  | case2 i read hi =>
      have hlen : bytes.data.toList.length ≤ i := by simpa using hi
      rw [ByteArray.toList.loop, if_neg hi, List.drop_eq_nil_of_le hlen, List.append_nil]

theorem ofText_eq (text : String) : Bytes.ofText text = text.toByteArray.data.toList := by
  show ByteArray.toList.loop text.toByteArray 0 [] = _
  rw [toList_loop]
  rfl

/-- The bytes of a text are the UTF-8 form of it. -/
theorem toText?_ofText (text : String) : (Bytes.ofText text).toText? = some text := by
  rw [Bytes.toText?, ofText_eq, Array.toArray_toList]
  show String.fromUTF8? text.toByteArray = _
  rw [String.fromUTF8?, dif_pos text.isValidUTF8]
  rfl

theorem ofText_ofList {chars : List Char} (h : ∀ c ∈ chars, c.toNat < 128) :
    Bytes.ofText (String.ofList chars) = chars.map asciiByte := by
  have hchar : ∀ c ∈ chars, String.utf8EncodeChar c = [asciiByte c] := by
    intro c hc
    have := h c hc
    rw [String.utf8EncodeChar.eq_def]
    exact if_pos (by show c.toNat ≤ 127; omega)
  have hflat : chars.flatMap String.utf8EncodeChar = chars.map asciiByte := by
    rw [List.flatMap_congr hchar, List.map_eq_flatMap]
  rw [ofText_eq]
  show chars.utf8Encode.data.toList = _
  rw [List.utf8Encode.eq_1, hflat, List.toList_data_toByteArray]

/-- The bytes of an encoded text. -/
def encodedBytes (bytes : Bytes) : Bytes := (encodeChars bytes).map asciiByte

theorem ofText_encode (bytes : Bytes) : Bytes.ofText (encode bytes) = encodedBytes bytes := by
  apply ofText_ofList
  intro c hc
  rcases mem_encodeChars hc with rfl | ⟨n, hn, rfl⟩
  · decide
  · exact isAscii_digit hn

/-! ### Groups -/

theorem encodedBytes_ne_nil {bytes : Bytes} (h : bytes ≠ []) : encodedBytes bytes ≠ [] := by
  match bytes, h with
  | [a], _ => simp [encodedBytes, encodeChars]
  | [a, b], _ => simp [encodedBytes, encodeChars]
  | a :: b :: c :: rest, _ => simp [encodedBytes, encodeChars]

/-- Groups are whole. -/
theorem length_encodedBytes_mod (bytes : Bytes) : (encodedBytes bytes).length % 4 = 0 := by
  rw [encodedBytes, List.length_map]
  induction bytes using encodeChars.induct with
  | case1 => rfl
  | case2 a => simp [encodeChars]
  | case3 a b => simp [encodeChars]
  | case4 a b c rest ih =>
      rw [encodeChars]
      simp only [List.length_cons]
      omega

/-- A last group with two bytes of padding. -/
theorem decodeLast_one (start : ℕ) {w x : ℕ} (hw : w < 64) (hx : x < 64) (hrest : x % 16 = 0) :
    decodeLast start [asciiByte (digit w), asciiByte (digit x), pad, pad]
      = .ok [UInt8.ofNat ((64 * w + x) / 16)] := by
  have hmod : (64 * w + x) % 16 = 0 := by omega
  simp [decodeLast, readLast, asciiByte_ne_pad, readDigit_asciiByte, hw, hx, hmod, bind,
    Except.bind, pure, Except.pure]

/-- A last group with one byte of padding. -/
theorem decodeLast_two (start : ℕ) {w x y : ℕ} (hw : w < 64) (hx : x < 64) (hy : y < 64)
    (hrest : y % 4 = 0) :
    decodeLast start [asciiByte (digit w), asciiByte (digit x), asciiByte (digit y), pad]
      = .ok [UInt8.ofNat ((64 * (64 * w + x) + y) / 1024),
          UInt8.ofNat ((64 * (64 * w + x) + y) / 4 % 256)] := by
  have hmod : (64 * (64 * w + x) + y) % 4 = 0 := by omega
  simp [decodeLast, readLast, asciiByte_ne_pad, readDigit_asciiByte, hw, hx, hy, hmod, bind,
    Except.bind, pure, Except.pure]

/-- A last group without padding. -/
theorem decodeLast_three (start : ℕ) {w x y z : ℕ} (hw : w < 64) (hx : x < 64) (hy : y < 64)
    (hz : z < 64) :
    decodeLast start [asciiByte (digit w), asciiByte (digit x), asciiByte (digit y),
        asciiByte (digit z)]
      = .ok [UInt8.ofNat ((64 * (64 * (64 * w + x) + y) + z) / 65536),
          UInt8.ofNat ((64 * (64 * (64 * w + x) + y) + z) / 256 % 256),
          UInt8.ofNat ((64 * (64 * (64 * w + x) + y) + z) % 256)] := by
  simp [decodeLast, readLast, asciiByte_ne_pad, readDigit_asciiByte, hw, hx, hy, hz, bind,
    Except.bind, pure, Except.pure]

/-- A group that is not the last. -/
theorem decodeFrom_group (start : ℕ) {w x y z : ℕ} (hw : w < 64) (hx : x < 64) (hy : y < 64)
    (hz : z < 64) {rest tail : Bytes} (hrest : rest ≠ [])
    (htail : decodeFrom (start + 4) rest = .ok tail) :
    decodeFrom start (asciiByte (digit w) :: asciiByte (digit x) :: asciiByte (digit y)
        :: asciiByte (digit z) :: rest)
      = .ok (UInt8.ofNat ((((w * 64 + x) * 64 + y) * 64 + z) / 65536)
          :: UInt8.ofNat ((((w * 64 + x) * 64 + y) * 64 + z) / 256 % 256)
          :: UInt8.ofNat ((((w * 64 + x) * 64 + y) * 64 + z) % 256) :: tail) := by
  obtain ⟨e, more, rfl⟩ := List.exists_cons_of_ne_nil hrest
  rw [decodeFrom, readDigit_asciiByte hw, readDigit_asciiByte hx, readDigit_asciiByte hy,
    readDigit_asciiByte hz, htail]
  rfl

/-! ### The round trip -/

theorem ofNat_eq_of_toNat {n : ℕ} {b : UInt8} (h : n = b.toNat) : UInt8.ofNat n = b := by
  rw [h, UInt8.ofNat_toNat]

theorem decodeFrom_encodedBytes (start : ℕ) (bytes : Bytes) :
    decodeFrom start (encodedBytes bytes) = .ok bytes := by
  induction bytes using encodeChars.induct generalizing start with
  | case1 => simp [encodedBytes, encodeChars, decodeFrom, decodeLast, readLast, bind, Except.bind,
      pure, Except.pure]
  | case2 a =>
      have ha := a.toNat_lt
      have hone := decodeLast_one start (w := a.toNat / 4) (x := a.toNat % 4 * 16)
        (by omega) (by omega) (by omega)
      have ha' : UInt8.ofNat ((64 * (a.toNat / 4) + a.toNat % 4 * 16) / 16) = a :=
        ofNat_eq_of_toNat (by omega)
      rw [ha'] at hone
      have htext : encodedBytes [a] = [asciiByte (digit (a.toNat / 4)),
          asciiByte (digit (a.toNat % 4 * 16)), pad, pad] := rfl
      rw [htext]
      simpa [decodeFrom] using hone
  | case3 a b =>
      have ha := a.toNat_lt
      have hb := b.toNat_lt
      have htwo := decodeLast_two start (w := (a.toNat * 256 + b.toNat) / 1024)
        (x := (a.toNat * 256 + b.toNat) / 16 % 64) (y := (a.toNat * 256 + b.toNat) % 16 * 4)
        (by omega) (by omega) (by omega) (by omega)
      have hn : ∀ n < 65536, 64 * (64 * (n / 1024) + n / 16 % 64) + n % 16 * 4 = 4 * n := by
        intro n hlt
        omega
      rw [hn _ (by omega)] at htwo
      have ha' : UInt8.ofNat (4 * (a.toNat * 256 + b.toNat) / 1024) = a :=
        ofNat_eq_of_toNat (by omega)
      have hb' : UInt8.ofNat (4 * (a.toNat * 256 + b.toNat) / 4 % 256) = b :=
        ofNat_eq_of_toNat (by omega)
      rw [ha', hb'] at htwo
      have htext : encodedBytes [a, b] =
          [asciiByte (digit ((a.toNat * 256 + b.toNat) / 1024)),
            asciiByte (digit ((a.toNat * 256 + b.toNat) / 16 % 64)),
            asciiByte (digit ((a.toNat * 256 + b.toNat) % 16 * 4)), pad] := rfl
      rw [htext]
      simpa [decodeFrom] using htwo
  | case4 a b c rest ih =>
      have ha := a.toNat_lt
      have hb := b.toNat_lt
      have hc := c.toNat_lt
      generalize hn : (a.toNat * 256 + b.toNat) * 256 + c.toNat = n
      have ha' : UInt8.ofNat (n / 65536) = a := ofNat_eq_of_toNat (by omega)
      have hb' : UInt8.ofNat (n / 256 % 256) = b := ofNat_eq_of_toNat (by omega)
      have hc' : UInt8.ofNat (n % 256) = c := ofNat_eq_of_toNat (by omega)
      have hsplit : encodedBytes (a :: b :: c :: rest) = asciiByte (digit (n / 262144))
          :: asciiByte (digit (n / 4096 % 64)) :: asciiByte (digit (n / 64 % 64))
          :: asciiByte (digit (n % 64)) :: encodedBytes rest := by
        rw [encodedBytes, encodeChars, ← hn]
        rfl
      have hw : n / 262144 < 64 := by omega
      have hx : n / 4096 % 64 < 64 := by omega
      have hy : n / 64 % 64 < 64 := by omega
      have hz : n % 64 < 64 := by omega
      rw [hsplit]
      by_cases hrest : rest = []
      · have hthree := decodeLast_three start hw hx hy hz
        have hjoin : 64 * (64 * (64 * (n / 262144) + n / 4096 % 64) + n / 64 % 64) + n % 64
            = n := by omega
        rw [hjoin, ha', hb', hc'] at hthree
        rw [hrest]
        simpa [encodedBytes, encodeChars, decodeFrom] using hthree
      · have hjoin : ((n / 262144 * 64 + n / 4096 % 64) * 64 + n / 64 % 64) * 64 + n % 64 = n := by
          omega
        rw [decodeFrom_group start hw hx hy hz (encodedBytes_ne_nil hrest) (ih (start + 4)), hjoin,
          ha', hb', hc']

theorem decode_encode (bytes : Bytes) : decode (encode bytes) = .ok bytes := by
  rw [decode, ofText_encode]
  cases hlast : (encodedBytes bytes).getLast? with
  | none =>
      have hnil : encodedBytes bytes = [] := List.getLast?_eq_none_iff.1 hlast
      have : bytes = [] := by
        by_contra h
        exact encodedBytes_ne_nil h hnil
      rw [this]
  | some last =>
      have hmod := length_encodedBytes_mod bytes
      dsimp only
      rw [if_neg (by omega), decodeFrom_encodedBytes]

end ControlPlane.Text.Base64
