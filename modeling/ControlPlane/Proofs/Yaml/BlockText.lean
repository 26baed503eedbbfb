import ControlPlane.Proofs.Yaml.Tokens

/-! # Outlines in block form

The tokens of an outline that is written as YAML.  A field is read up to its colon, then its value
up to the next line that stands no deeper than the field; the fields of a record follow one
another by induction (`scans_fields`), and the records inside by induction over the outline
(`scans_blockValue`).  A whole document leaves the scanner as it was in front of it
(`scans_blockDocument`). -/

namespace ControlPlane

open Yaml

namespace Document

mutual

/-- The tokens of an outline in block form. -/
def blockKinds : Document → List TokenKind
  | .text value => [.scalar value (style value == .plain)]
  | .list _ => [.flowSequence, .flowSequenceEnd]
  | .record fields => .blockMapping :: blockFieldKinds fields ++ [.blockEnd]
  | .null | .bool _ | .int _ => []

def blockFieldKinds : List (String × Document) → List TokenKind
  | [] => []
  | (name, value) :: rest =>
    .key :: .scalar name true :: .value :: value.blockKinds ++ blockFieldKinds rest

end

end Document

namespace Yaml.Scanner

open Document (blockKinds blockFieldKinds)

variable {s : Scanner} {rest : List Char} {column m j : ℕ} {outer : List ℤ}

/-! ### Values -/

theorem begins_shown {word : String} (hword : IsWord word) (rest : List Char) :
    Begins (shown word ++ rest) := by
  unfold shown
  split
  · exact begins_of_plainWord hword (plainWord_of_style ‹_›) rest
  · exact begins_cons (by decide) _

/-- A word as a value, up to the next line. -/
theorem IsAt.scans_shown {word : String}
    (hs : s.IsAt (shown word ++ '\n' :: (spaces j ++ rest)) column 0 m outer false)
    (hword : IsWord word) (hcolumn : m < column) (hj : j ≤ m) (hbegins : Begins rest) :
    ∃ t : Scanner, t.IsAt rest j 0 m outer true ∧
      Scans (blockKinds (.text word)) s t := by
  rw [blockKinds]
  unfold shown at hs
  by_cases hstyle : style word = .plain
  · rw [if_pos hstyle] at hs
    have htext : word.toList ++ '\n' :: (spaces j ++ rest)
        = word.toList ++ '\n' :: spaces j ++ rest := by simp
    rw [htext] at hs
    obtain ⟨t, ht, hscans⟩ := hs.scans_plainWord hword (plainWord_of_style hstyle) (by omega)
      (by omega) (by omega) hbegins
    refine ⟨t, ht, ?_⟩
    rw [hstyle]
    exact hscans
  · rw [if_neg hstyle] at hs
    have htext : '\'' :: word.toList ++ ['\''] ++ '\n' :: (spaces j ++ rest)
        = '\'' :: (word.toList ++ '\'' :: ('\n' :: spaces j ++ rest)) := by simp
    rw [htext] at hs
    obtain ⟨t, ht, hst⟩ := hs.scans_singleWord hword (by simp) (by omega)
    obtain ⟨u, hu, htu⟩ := ht.scans_newline hbegins
    refine ⟨u, hu, ?_⟩
    have hquoted : (style word == .plain) = false := by simpa using hstyle
    rw [hquoted]
    exact hst.trans htu

/-- An empty list as a value, up to the next line. -/
theorem IsAt.scans_brackets
    (hs : s.IsAt ('[' :: ']' :: '\n' :: (spaces j ++ rest)) column 0 m outer false)
    (hcolumn : m < column) (hbegins : Begins rest) :
    ∃ t : Scanner, t.IsAt rest j 0 m outer true ∧
      Scans [.flowSequence, .flowSequenceEnd] s t := by
  obtain ⟨t, ht, hst⟩ := hs.scans_open (begins_cons (by decide) []) (by decide)
    (token_openSequence hs.rest_eq) (.inr (by omega))
  obtain ⟨u, hu, htu⟩ := ht.scans_close (begins_cons (by decide) []) (by decide)
    (token_closeSequence ht.rest_eq)
  have hline : u.IsAt ('\n' :: spaces j ++ rest) (column + 1 + 1) 0 m outer false := hu
  obtain ⟨v, hv, huv⟩ := hline.scans_newline hbegins
  exact ⟨v, hv, hst.trans (htu.trans huv)⟩

/-! ### Fields -/

theorem begins_name {name : String} (hname : IsName name) (rest : List Char) :
    Begins (name.toList ++ rest) :=
  begins_of_plainWord hname.isWord (plainWord_of_style hname.style_eq) rest

/-- What holds of a value in block form: it is read up to the next line that stands no deeper than
its field. -/
def ReadsBlock (d : Document) : Prop :=
  (∀ (m : ℕ) (rest : List Char), isGap (valueLines m d ++ rest).head? = true) ∧
    ∀ {s : Scanner} {rest : List Char} {column m j : ℕ} {outer : List ℤ},
      s.IsAt (valueLines m d ++ (spaces j ++ rest)) column 0 m outer false → m < column → j ≤ m →
      Begins rest → ∃ t : Scanner, t.IsAt rest j 0 m outer true ∧ Scans d.blockKinds s t

/-- The value of a field and the fields after it, with the block open. -/
theorem IsAt.scans_fields {d : Document} {fields : List (String × Document)}
    (hs : s.IsAt (valueLines m d ++ (fieldsLines m fields ++ (spaces j ++ rest))) column 0 m outer
      false)
    (hd : ReadsBlock d) (hnames : ∀ f ∈ fields, IsName f.1) (hfields : ∀ f ∈ fields, ReadsBlock f.2)
    (hcolumn : m < column) (hj : j ≤ m) (hbegins : Begins rest) :
    ∃ t : Scanner, t.IsAt rest j 0 m outer true ∧
      Scans (d.blockKinds ++ blockFieldKinds fields) s t := by
  induction fields generalizing s d column with
  | nil =>
      rw [fieldsLines, List.nil_append] at hs
      obtain ⟨t, ht, hst⟩ := hd.2 hs hcolumn hj hbegins
      refine ⟨t, ht, ?_⟩
      rw [blockFieldKinds, List.append_nil]
      exact hst
  | cons f fields ih =>
      obtain ⟨name, value⟩ := f
      have hname : IsName name := hnames _ List.mem_cons_self
      have hvalue : ReadsBlock value := hfields _ List.mem_cons_self
      have htext : fieldsLines m ((name, value) :: fields) ++ (spaces j ++ rest)
          = spaces m ++ (name.toList ++ ':' :: (valueLines m value
            ++ (fieldsLines m fields ++ (spaces j ++ rest)))) := by
        rw [fieldsLines, fieldLines, nameText_of_isName hname]
        simp
      rw [htext] at hs
      obtain ⟨t, ht, hst⟩ := hd.2 hs hcolumn le_rfl (begins_name hname _)
      have hgap := hvalue.1 m (fieldsLines m fields ++ (spaces j ++ rest))
      obtain ⟨u, hu, htu⟩ := ht.scans_nextKey (by have := hname.length_le; omega)
        (.inr ⟨hgap, rfl⟩) (ht.leadsTo_name hname hgap le_rfl)
      obtain ⟨v, hv, huv⟩ := ih hu hvalue (fun f hf => hnames f (List.mem_cons_of_mem _ hf))
        (fun f hf => hfields f (List.mem_cons_of_mem _ hf)) (by omega)
      refine ⟨v, hv, ?_⟩
      rw [blockFieldKinds]
      exact hst.trans (htu.trans huv)

/-- The fields of a record, of which the first opens the block. -/
theorem IsAt.scans_record {name : String} {value : Document} {fields : List (String × Document)}
    {indent : ℤ}
    (hs : s.IsAt (fieldLines m (name, value) ++ (fieldsLines m fields ++ (spaces j ++ rest))) m 0
      indent outer true)
    (hindent : indent < m) (hnames : ∀ f ∈ (name, value) :: fields, IsName f.1)
    (hfields : ∀ f ∈ (name, value) :: fields, ReadsBlock f.2) (hj : j ≤ m)
    (hbegins : Begins rest) :
    ∃ t : Scanner, t.IsAt rest j 0 m (indent :: outer) true ∧
      Scans (.blockMapping :: blockFieldKinds ((name, value) :: fields)) s t := by
  have hname : IsName name := hnames _ List.mem_cons_self
  have hvalue : ReadsBlock value := hfields _ List.mem_cons_self
  have htext : fieldLines m (name, value) ++ (fieldsLines m fields ++ (spaces j ++ rest))
      = name.toList ++ ':' :: (valueLines m value
        ++ (fieldsLines m fields ++ (spaces j ++ rest))) := by
    rw [fieldLines, nameText_of_isName hname]
    simp
  rw [htext] at hs
  have hgap := hvalue.1 m (fieldsLines m fields ++ (spaces j ++ rest))
  obtain ⟨t, ht, hst⟩ := hs.scans_firstKey (by have := hname.length_le; omega) hgap hindent
    (hs.leadsTo_name hname hgap hindent.le)
  obtain ⟨u, hu, htu⟩ := ht.scans_fields hvalue (fun f hf => hnames f (List.mem_cons_of_mem _ hf))
    (fun f hf => hfields f (List.mem_cons_of_mem _ hf)) (by omega) hj hbegins
  refine ⟨u, hu, ?_⟩
  rw [blockFieldKinds]
  exact hst.trans htu

/-! ### Outlines -/

theorem readsBlock {depth : ℕ} {d : Document} (h : d.IsOutline depth) : ReadsBlock d := by
  induction h with
  | @text depth word hword =>
      refine ⟨fun m rest => by rw [valueLines]; rfl, ?_⟩
      intro s rest column m j outer hs hcolumn hj hbegins
      have htext : valueLines m (.text word) ++ (spaces j ++ rest)
          = ' ' :: (shown word ++ '\n' :: (spaces j ++ rest)) := by
        rw [valueLines, textLine_of_isWord _ hword]
        simp
      rw [htext] at hs
      obtain ⟨t, ht, hst⟩ := hs.scans_space (begins_shown hword _)
      obtain ⟨u, hu, htu⟩ := ht.scans_shown hword (by omega) hj hbegins
      exact ⟨u, hu, hst.trans htu⟩
  | list =>
      refine ⟨fun m rest => by rw [valueLines]; rfl, ?_⟩
      intro s rest column m j outer hs hcolumn hj hbegins
      have htext : valueLines m (.list []) ++ (spaces j ++ rest)
          = ' ' :: '[' :: ']' :: '\n' :: (spaces j ++ rest) := by
        rw [valueLines]
        rfl
      rw [htext] at hs
      obtain ⟨t, ht, hst⟩ := hs.scans_space (begins_cons (by decide) _)
      obtain ⟨u, hu, htu⟩ := ht.scans_brackets (by omega) hbegins
      refine ⟨u, hu, ?_⟩
      rw [blockKinds]
      exact hst.trans htu
  | @record depth fields hne hnodup hnames hfields ih =>
      obtain ⟨⟨name, value⟩, fields, rfl⟩ := List.exists_cons_of_ne_nil hne
      refine ⟨fun m rest => by rw [valueLines]; rfl, ?_⟩
      intro s rest column m j outer hs hcolumn hj hbegins
      have htext : valueLines m (.record ((name, value) :: fields)) ++ (spaces j ++ rest)
          = '\n' :: spaces (m + 2) ++ (fieldLines (m + 2) (name, value)
            ++ (fieldsLines (m + 2) fields ++ (spaces j ++ rest))) := by
        rw [valueLines]
        simp
      rw [htext] at hs
      have hfirst : Begins (fieldLines (m + 2) (name, value)
          ++ (fieldsLines (m + 2) fields ++ (spaces j ++ rest))) := by
        have hname : IsName name := hnames _ List.mem_cons_self
        rw [fieldLines, nameText_of_isName hname, List.append_assoc]
        exact begins_name hname _
      obtain ⟨t, ht, hst⟩ := hs.scans_newline hfirst
      have ht' : t.IsAt (fieldLines (m + 2) (name, value)
          ++ (fieldsLines (m + 2) fields ++ (spaces j ++ rest))) (m + 2) 0 m outer true := ht
      obtain ⟨u, hu, htu⟩ := ht'.scans_record (by omega) hnames ih (by omega) hbegins
      obtain ⟨v, hv, huv⟩ := hu.scans_blockEnd hbegins (by omega)
      refine ⟨v, hv, ?_⟩
      rw [blockKinds]
      exact hst.trans (htu.trans huv)

/-- A whole document in block form. -/
theorem IsAt.scans_blockDocument {depth : ℕ} {fields : List (String × Document)}
    (hd : (Document.record fields).IsOutline depth)
    (hs : s.IsAt ((Yaml.render (.record fields)).toList ++ rest) 0 0 (-1) [] true)
    (hend : EndsDocument rest) :
    ∃ t : Scanner, t.IsAt rest 0 0 (-1) [] true ∧
      Scans (blockKinds (.record fields)) s t := by
  cases hd with
  | record hne hnodup hnames hfields =>
      obtain ⟨⟨name, value⟩, fields, rfl⟩ := List.exists_cons_of_ne_nil hne
      have htext : (Yaml.render (.record ((name, value) :: fields))).toList ++ rest
          = fieldLines 0 (name, value) ++ (fieldsLines 0 fields ++ (spaces 0 ++ rest)) := by
        rw [Yaml.render, String.toList_ofList, itemLines, List.append_assoc]
        rfl
      rw [htext] at hs
      obtain ⟨t, ht, hst⟩ := hs.scans_record (by decide) hnames
        (fun f hf => readsBlock (hfields f hf)) le_rfl hend.begins
      obtain ⟨u, hu, htu⟩ := ht.scans_documentEnd hend
      refine ⟨u, hu, ?_⟩
      rw [blockKinds]
      exact hst.trans htu

end Yaml.Scanner

end ControlPlane
