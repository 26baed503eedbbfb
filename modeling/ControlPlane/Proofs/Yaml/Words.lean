import ControlPlane.Proofs.Yaml.Outline

/-! # Reading words

What the readers of scalars make of a word.  Without quotes a word is read to its last character
(`Plain.read_word`), and it ends with its line (`Plain.read_newline`) or in front of a colon
(`Plain.read_colon`); between quotes it ends with the quote. -/

namespace ControlPlane.Yaml

theorem after_of_isWordChar {c : Char} (h : isWordChar c = true) (p : Place) :
    p.after c = ⟨p.line, p.column + 1⟩ := by
  rw [Place.after, isBreak_of_isWordChar h, if_neg (by decide)]

theorem gap_text_none : Gap.none.text = [] := rfl

/-- Outside brackets a word without quotes goes on to its last character, if a colon is not the
last. -/
theorem Plain.read_word {setting : Plain.Setting} {began place : Place} {read word rest : List Char}
    (hflow : setting.inFlow = false) (hword : ∀ c ∈ word, isWordChar c = true)
    (hcolon : word.getLast? ≠ some ':') :
    Plain.read setting began place read .none (word ++ rest)
      = Plain.read setting began ⟨place.line, place.column + word.length⟩ (word.reverse ++ read)
          .none rest := by
  induction word generalizing place read with
  | nil => rfl
  | cons c word ih =>
      have hc := hword c List.mem_cons_self
      have hgap : (isBlank c || isBreak c) = false := by
        rw [isBlank_of_isWordChar hc, isBreak_of_isWordChar hc]
        rfl
      have hstray : Plain.isStrayColon setting c (word ++ rest).head? = false := by
        rw [Plain.isStrayColon, hflow]
        rfl
      have hend : Plain.endsAt setting c (word ++ rest).head? = false := by
        rw [Plain.endsAt, hflow, Bool.false_and, Bool.or_false, Bool.and_eq_false_iff]
        cases word with
        | nil =>
            refine .inl ?_
            simpa using hcolon
        | cons d word =>
            have hd := hword d (List.mem_cons_of_mem _ List.mem_cons_self)
            refine .inr ?_
            simp [isBlank_of_isWordChar hd, isBreak_of_isWordChar hd]
      have hcolon' : word.getLast? ≠ some ':' := by
        cases word with
        | nil => simp
        | cons d word => simpa using hcolon
      rw [List.cons_append, Plain.read, hgap, if_neg (by decide), if_neg (by simp), hstray,
        if_neg (by decide), hend, if_neg (by decide), after_of_isWordChar hc, gap_text_none,
        ih (fun d hd => hword d (List.mem_cons_of_mem c hd)) hcolon']
      simp only [List.length_cons, List.reverse_cons, List.append_assoc, List.reverse_nil,
        List.nil_append, List.singleton_append]
      congr 2
      omega

/-- A colon in front of a blank or a break ends a word without quotes. -/
theorem Plain.read_colon {setting : Plain.Setting} {began place : Place} {read rest : List Char}
    (hflow : setting.inFlow = false) (hgap : isGap rest.head? = true) :
    Plain.read setting began place read .none (':' :: rest)
      = .ok (read.reverse, false, ⟨':' :: rest, place⟩) := by
  have hstray : Plain.isStrayColon setting ':' rest.head? = false := by
    rw [Plain.isStrayColon, hflow]
    rfl
  have hend : Plain.endsAt setting ':' rest.head? = true := by
    unfold Plain.endsAt
    cases hhead : rest.head? with
    | none => rfl
    | some x =>
        have hx : isBlank x = true ∨ isBreak x = true := by
          rw [hhead] at hgap
          simpa [isGap] using hgap
        simp [hx]
  rw [Plain.read, if_neg (by decide), if_neg (by simp), hstray, if_neg (by decide), hend,
    if_pos rfl]
  rfl

theorem Plain.read_spaces {setting : Plain.Setting} {began place : Place} {read rest : List Char}
    {first : Option Char} {more : List Char} (n : ℕ) :
    Plain.read setting began place read (.breaks first more) (spaces n ++ rest)
      = Plain.read setting began ⟨place.line, place.column + n⟩ read (.breaks first more) rest := by
  induction n generalizing place with
  | zero => rfl
  | succ n ih =>
      have hcons : spaces (n + 1) ++ rest = ' ' :: (spaces n ++ rest) := rfl
      have hafter : place.after ' ' = ⟨place.line, place.column + 1⟩ := rfl
      have hadd : (Gap.breaks first more).add ' ' = .breaks first more := rfl
      have hsum : place.column + 1 + n = place.column + (n + 1) := by omega
      rw [hcons, Plain.read, if_pos (by decide), if_neg (by simp), hafter, hadd, ih]
      dsimp only
      rw [hsum]

/-- So does the end of the line, if the next line does not stand deeper than what holds the word.
-/
theorem Plain.read_newline {setting : Plain.Setting} {began place : Place} {read rest : List Char}
    {n : ℕ} (hflow : setting.inFlow = false) (hn : n < setting.indent)
    (hrest : ∀ c ∈ rest.head?, isBlank c = false ∧ isBreak c = false) :
    Plain.read setting began place read .none ('\n' :: spaces n ++ rest)
      = .ok (read.reverse, true, ⟨rest, ⟨place.line + 1, n⟩⟩) := by
  have hafter : place.after '\n' = ⟨place.line + 1, 0⟩ := rfl
  have hadd : Gap.none.add '\n' = .breaks (some '\n') [] := rfl
  rw [List.cons_append, Plain.read, if_pos (by decide), if_neg (by simp), hafter, hadd,
    Plain.read_spaces, Nat.zero_add]
  cases rest with
  | nil => rw [Plain.read]; rfl
  | cons c rest =>
      have hgap : (isBlank c || isBreak c) = false := by
        rw [(hrest c rfl).1, (hrest c rfl).2]
        rfl
      rw [Plain.read, hgap, if_neg (by decide), if_pos (by simp [hflow, hn, Gap.none])]
      rfl

theorem isMarker_of_column {c : Cursor} (h : c.place.column ≠ 0) : c.isMarker = false := by
  unfold Cursor.isMarker Cursor.column
  simp [h]

theorem SingleQuoted.read_word {began place : Place} {read word rest : List Char}
    (hplace : place.column ≠ 0) (hword : ∀ c ∈ word, isWordChar c = true)
    (hrest : rest.head? ≠ some '\'') :
    SingleQuoted.read began place read .none (word ++ '\'' :: rest)
      = .ok (read.reverse ++ word, ⟨rest, ⟨place.line, place.column + word.length + 1⟩⟩) := by
  induction word generalizing place read with
  | nil =>
      rw [List.nil_append, SingleQuoted.read]
      · rw [if_pos rfl, gap_text_none, List.append_nil]
        rfl
      · rintro tail - rfl
        exact hrest rfl
  | cons c word ih =>
      have hc := hword c List.mem_cons_self
      have hquote : c ≠ '\'' := (isWordChar_iff.1 hc).2.2.1
      have hgap : (isBlank c || isBreak c) = false := by
        rw [isBlank_of_isWordChar hc, isBreak_of_isWordChar hc]
        rfl
      have hmarker : Cursor.isMarker ⟨c :: (word ++ '\'' :: rest), place⟩ = false :=
        isMarker_of_column hplace
      rw [List.cons_append, SingleQuoted.read]
      · rw [if_neg hquote, hgap, if_neg (by decide), hmarker, if_neg (by decide),
          after_of_isWordChar hc, gap_text_none,
          ih (by simp) fun d hd => hword d (List.mem_cons_of_mem c hd)]
        have hsum : place.column + 1 + word.length + 1
            = place.column + (c :: word).length + 1 := by
          rw [List.length_cons]
          omega
        dsimp only
        rw [hsum]
        simp
      · rintro tail rfl -
        exact hquote rfl

theorem DoubleQuoted.read_word {began place : Place} {read word rest : List Char}
    (hplace : place.column ≠ 0) (hword : ∀ c ∈ word, isWordChar c = true) :
    DoubleQuoted.read began place read (.text .none) (word ++ '"' :: rest)
      = .ok (read.reverse ++ word, ⟨rest, ⟨place.line, place.column + word.length + 1⟩⟩) := by
  induction word generalizing place read with
  | nil =>
      rw [List.nil_append, DoubleQuoted.read, if_pos rfl, gap_text_none, List.append_nil]
      rfl
  | cons c word ih =>
      have hc := hword c List.mem_cons_self
      obtain ⟨-, hquote, -, hslash⟩ := isWordChar_iff.1 hc
      have hgap : (isBlank c || isBreak c) = false := by
        rw [isBlank_of_isWordChar hc, isBreak_of_isWordChar hc]
        rfl
      have hmarker : Cursor.isMarker ⟨c :: (word ++ '"' :: rest), place⟩ = false :=
        isMarker_of_column hplace
      rw [List.cons_append, DoubleQuoted.read, if_neg hquote, hgap, if_neg (by decide), hmarker,
        if_neg (by decide), if_neg hslash, after_of_isWordChar hc, gap_text_none,
        ih (by simp) fun d hd => hword d (List.mem_cons_of_mem c hd)]
      have hsum : place.column + 1 + word.length + 1 = place.column + (c :: word).length + 1 := by
        rw [List.length_cons]
        omega
      dsimp only
      rw [hsum]
      simp

end ControlPlane.Yaml
