import ControlPlane.Data.Document
import ControlPlane.Yaml.Node
import ControlPlane.Yaml.Render
import Mathlib.Tactic

/-! # Outlines

An outline is a document of records, nested to some depth, whose texts are words: each fits on a
line and needs no escape in any style.  This module says what an outline is and what its data are,
and what the writers make of a word: in block form it stands as it is or between single quotes
(`textLine_of_isWord`), and as it is only if it is not empty, would not be taken for anything but a
text, and keeps to itself any mark that means something outside quotes (`PlainWord`); in JSON it
stands between double quotes (`quoted_of_isWord`). -/

namespace ControlPlane

namespace Yaml

/-! ### Words -/

/-- A visible ASCII character that is no quote and no backslash. -/
def isWordChar (c : Char) : Bool :=
  0x21 ≤ c.toNat && c.toNat ≤ 0x7e && c != '"' && c != '\'' && c != '\\'

def IsWord (text : String) : Prop := ∀ c ∈ text.toList, isWordChar c = true

theorem isWord_of_all {text : String} (h : text.toList.all isWordChar = true) : IsWord text :=
  fun c hc => List.all_eq_true.1 h c hc

theorem isWord_append {text more : String} (htext : IsWord text) (hmore : IsWord more) :
    IsWord (text ++ more) := by
  unfold IsWord
  rw [String.toList_append]
  exact List.forall_mem_append.2 ⟨htext, hmore⟩

/-- A word that may name a field: letters and digits, short enough for a key even with quotes, and
written without them in block form. -/
structure IsName (name : String) : Prop where
  isAlphanum : ∀ c ∈ name.toList, c.isAlphanum = true
  length_le : name.length + 2 ≤ Scanner.maxKeyLength
  style_eq : style name = .plain

variable {c : Char}

theorem isWordChar_iff : isWordChar c = true ↔
    (0x21 ≤ c.toNat ∧ c.toNat ≤ 0x7e) ∧ c ≠ '"' ∧ c ≠ '\'' ∧ c ≠ '\\' := by
  unfold isWordChar
  simp [and_assoc]

/-- A property of the visible ASCII characters can be checked one by one. -/
theorem of_isWordChar {p : Char → Bool}
    (hall : ∀ n : Fin 0x7f, isWordChar (Char.ofNat n) = true → p (Char.ofNat n) = true)
    (h : isWordChar c = true) : p c = true := by
  have hlt : c.toNat < 0x7f := by
    have := (isWordChar_iff.1 h).1.2
    omega
  have := hall ⟨c.toNat, hlt⟩
  simp only [Char.ofNat_toNat] at this
  exact this h

/-- Visible characters are neither blanks nor breaks. -/
theorem not_gap_of_visible (hlow : 0x21 ≤ c.toNat) (hhigh : c.toNat ≤ 0x7e) :
    isBlank c = false ∧ isBreak c = false := by
  unfold isBlank isBreak
  simp only [Bool.or_eq_false_iff, beq_eq_false_iff_ne]
  refine ⟨⟨?_, ?_⟩, ⟨?_, ?_⟩, ?_⟩ <;> rintro rfl <;> revert hlow hhigh <;> decide

theorem isBlank_of_isWordChar (h : isWordChar c = true) : isBlank c = false :=
  (not_gap_of_visible (isWordChar_iff.1 h).1.1 (isWordChar_iff.1 h).1.2).1

theorem isBreak_of_isWordChar (h : isWordChar c = true) : isBreak c = false :=
  (not_gap_of_visible (isWordChar_iff.1 h).1.1 (isWordChar_iff.1 h).1.2).2

theorem isWritable_of_isWordChar (h : isWordChar c = true) : isWritable c = true :=
  of_isWordChar (by decide) h

theorem isWordChar_of_isAlphanum (h : c.isAlphanum = true) : isWordChar c = true := by
  have hrange : (65 ≤ c.toNat ∧ c.toNat ≤ 90 ∨ 97 ≤ c.toNat ∧ c.toNat ≤ 122) ∨
      48 ≤ c.toNat ∧ c.toNat ≤ 57 := by
    delta Char.isAlphanum Char.isAlpha Char.isUpper Char.isLower Char.isDigit at h
    simpa [UInt32.le_iff_toNat_le] using h
  refine isWordChar_iff.2 ⟨by omega, ?_, ?_, ?_⟩
  all_goals
    rintro rfl
    revert hrange
    decide

theorem IsName.isWord {name : String} (h : IsName name) : IsWord name :=
  fun c hc => isWordChar_of_isAlphanum (h.isAlphanum c hc)

/-! ### Words in block form -/

theorem mem_windows {a b : Char} {next : Option Char} {text : List Char}
    (h : (a, b, next) ∈ windows text) : a ∈ text ∧ b ∈ text := by
  induction text using windows.induct with
  | case1 x y rest ih =>
      rw [windows] at h
      rcases List.mem_cons.1 h with heq | hmem
      · cases heq
        exact ⟨List.mem_cons_self, List.mem_cons_of_mem _ List.mem_cons_self⟩
      · exact ⟨List.mem_cons_of_mem x (ih hmem).1, List.mem_cons_of_mem x (ih hmem).2⟩
  | case2 text hshort =>
      rw [windows] at h
      · cases h
      · exact hshort

/-- The last of two characters or more has a window with nothing after it. -/
theorem exists_window_getLast {a b : Char} {rest : List Char} {last : Char}
    (h : (a :: b :: rest).getLast? = some last) :
    ∃ before, (before, last, none) ∈ windows (a :: b :: rest) := by
  induction rest generalizing a b with
  | nil =>
      cases h
      exact ⟨a, by simp [windows]⟩
  | cons c rest ih =>
      obtain ⟨before, hmem⟩ := ih (a := b) (b := c) h
      exact ⟨before, by rw [windows]; exact List.mem_cons_of_mem _ hmem⟩

variable {text : String}

theorem allowsSingle_of_isWord (h : IsWord text) : (analyse text.toList).allowsSingle = true := by
  have hspecial : (analyse text.toList).hasSpecial = false := by
    show List.any _ _ = false
    rw [List.any_eq_false]
    intro c hc
    simp [isWritable_of_isWordChar (h c hc)]
  have hpairs : ∀ p ∈ windows text.toList, isBreak p.1 = false ∧ isBreak p.2.1 = false := by
    rintro ⟨a, b, next⟩ hp
    obtain ⟨ha, hb⟩ := mem_windows hp
    exact ⟨isBreak_of_isWordChar (h a ha), isBreak_of_isWordChar (h b hb)⟩
  have hbreakSpace : (analyse text.toList).hasBreakSpace = false := by
    show List.any _ _ = false
    rw [List.any_eq_false]
    intro p hp
    simp [(hpairs p hp).1]
  have hspaceBreak : (analyse text.toList).hasSpaceBreak = false := by
    show List.any _ _ = false
    rw [List.any_eq_false]
    intro p hp
    simp [(hpairs p hp).2]
  rw [Analysis.allowsSingle, hspecial, hbreakSpace, hspaceBreak]
  rfl

theorem style_of_isWord (h : IsWord text) : style text = .plain ∨ style text = .single := by
  have hbreak : text.toList.contains '\n' = false := by
    rw [Bool.eq_false_iff]
    intro hmem
    exact absurd (h '\n' (by simpa using hmem)) (by decide)
  unfold style
  dsimp only
  rw [hbreak, allowsSingle_of_isWord h]
  split
  · exact absurd ‹false = true› (by decide)
  · split
    · exact .inl rfl
    · exact .inr rfl

/-- What lets a word stand without quotes. -/
structure PlainWord (text : String) : Prop where
  isPlainText : Scalar.isPlainText text = true
  first : ∃ c rest, text.toList = c :: rest ∧ isFirstIndicator c rest.head? = false
  getLast?_ne : text.toList.getLast? ≠ some ':'

theorem plainWord_of_style (h : style text = .plain) : PlainWord text := by
  have hplain : Scalar.isPlainText text = true ∧ (analyse text.toList).allowsPlain = true := by
    unfold style at h
    dsimp only at h
    split_ifs at h with hbreak hliteral hplain hsingle
    simpa using hplain
  obtain ⟨hmeaning, hallows⟩ := hplain
  have hindicator : (analyse text.toList).hasIndicator = false := by
    unfold Analysis.allowsPlain at hallows
    simp only [Bool.not_eq_true', Bool.or_eq_false_iff] at hallows
    exact hallows.1.1.1.1.1
  unfold analyse at hindicator
  simp only [Bool.or_eq_false_iff] at hindicator
  obtain ⟨⟨-, hfirst⟩, hlater⟩ := hindicator
  have hne : text.toList ≠ [] := by
    intro hnil
    rw [String.toList_eq_nil_iff.1 hnil] at hmeaning
    exact absurd hmeaning (by decide)
  obtain ⟨c, rest, heq⟩ := List.exists_cons_of_ne_nil hne
  have hc : isFirstIndicator c rest.head? = false := by
    simpa [heq] using hfirst
  refine ⟨hmeaning, ⟨c, rest, heq, hc⟩, ?_⟩
  intro hcolon
  cases rest with
  | nil =>
      rw [heq] at hcolon
      cases hcolon
      exact absurd hc (by decide)
  | cons d rest =>
      rw [heq] at hcolon hlater
      obtain ⟨before, hmem⟩ := exists_window_getLast hcolon
      have := List.any_eq_false.1 hlater _ hmem
      exact this (by simp [isLaterIndicator, isGap])

/-- A word as it stands in block form. -/
def shown (text : String) : List Char :=
  if style text = .plain then text.toList else '\'' :: text.toList ++ ['\'']

theorem indentAfterBreaks_of_isWord (indent : ℕ) {chars : List Char}
    (h : ∀ c ∈ chars, isWordChar c = true) : indentAfterBreaks indent chars = chars := by
  induction chars with
  | nil => rfl
  | cons c rest ih =>
      rw [indentAfterBreaks, isBreak_of_isWordChar (h c List.mem_cons_self), Bool.false_and,
        if_neg (by decide), ih fun d hd => h d (List.mem_cons_of_mem c hd)]

theorem single_of_isWord (indent : ℕ) {chars : List Char}
    (h : ∀ c ∈ chars, isWordChar c = true) : single indent chars = '\'' :: chars ++ ['\''] := by
  have hquotes : (chars.flatMap fun c => if c = '\'' then ['\'', '\''] else [c]) = chars := by
    rw [List.flatMap_congr (g := fun c => [c]) fun c hc => if_neg (isWordChar_iff.1 (h c hc)).2.2.1]
    exact List.flatMap_singleton' chars
  unfold single
  rw [hquotes, indentAfterBreaks_of_isWord indent h]

theorem textLine_of_isWord (indent : ℕ) (h : IsWord text) :
    textLine indent text = shown text ++ ['\n'] := by
  unfold textLine shown
  rcases style_of_isWord h with hstyle | hstyle
  · rw [hstyle, if_pos rfl]
  · rw [hstyle, if_neg (by decide)]
    dsimp only
    rw [single_of_isWord indent h]

theorem nameText_of_isName {name : String} (h : IsName name) : nameText name = name.toList := by
  rw [nameText, h.style_eq]

/-! ### Words in JSON -/

theorem quoted_of_isWord (h : IsWord text) :
    Json.quoted text = '"' :: text.toList ++ ['"'] := by
  have hescape : ∀ c ∈ text.toList, Json.escapeChar c = [c] := by
    intro c hc
    have hchar : (Json.escapeChar c == [c]) = true :=
      of_isWordChar (p := fun c => Json.escapeChar c == [c]) (by decide) (h c hc)
    simpa using hchar
  unfold Json.quoted
  rw [List.flatMap_congr hescape, List.flatMap_singleton']

end Yaml

/-! ### Documents -/

namespace Document

mutual

/-- What a document says, whatever it is written in. -/
def datum : Document → Datum
  | .null => .null
  | .bool value => .bool value
  | .int value => .int value
  | .text value => .text value
  | .list items => .list (data items)
  | .record fields => .dict (entries fields)

def data : List Document → List Datum
  | [] => []
  | item :: rest => item.datum :: data rest

def entries : List (String × Document) → List (Datum × Datum)
  | [] => []
  | (name, value) :: rest => (.text name, value.datum) :: entries rest

end

/-- Records of words, nested at most so deep. A list in an outline is empty. -/
inductive IsOutline : ℕ → Document → Prop where
  | text {depth : ℕ} {value : String} : Yaml.IsWord value → IsOutline depth (.text value)
  | list {depth : ℕ} : IsOutline (depth + 1) (.list [])
  | record {depth : ℕ} {fields : List (String × Document)} : fields ≠ [] →
      (fields.map (·.1)).Nodup → (∀ f ∈ fields, Yaml.IsName f.1) →
      (∀ f ∈ fields, IsOutline depth f.2) → IsOutline (depth + 1) (.record fields)

end Document

end ControlPlane
