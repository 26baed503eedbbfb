import ControlPlane.Proofs.Yaml.Tokens

/-! # Outlines as JSON

The tokens of an outline that is written as JSON, which the scanner takes for braces, quotes and
commas of YAML.  As in block form a field is read up to its colon and then its value; the fields of
a record follow by induction (`scans_members`), and the records inside by induction over the outline
(`readsFlow`).  A whole document leaves the scanner as it was in front of it
(`scans_flowDocument`). -/

namespace ControlPlane

open Yaml

namespace Document

mutual

/-- The tokens of an outline between braces. -/
def flowKinds : Document → List TokenKind
  | .text value => [.scalar value false]
  | .list _ => [.flowSequence, .flowSequenceEnd]
  | .record [] => [.flowMapping, .flowMappingEnd]
  | .record ((name, value) :: rest) =>
    .flowMapping :: .key :: .scalar name false :: .value
      :: (value.flowKinds ++ moreFlowKinds rest ++ [.flowMappingEnd])
  | .null | .bool _ | .int _ => []

/-- The tokens of the fields after the first. -/
def moreFlowKinds : List (String × Document) → List TokenKind
  | [] => []
  | (name, value) :: rest =>
    .flowEntry :: .key :: .scalar name false :: .value :: (value.flowKinds ++ moreFlowKinds rest)

end

end Document

namespace Yaml.Scanner

open Document (flowKinds moreFlowKinds)

variable {s : Scanner} {rest : List Char} {column depth m : ℕ}

/-! ### Fields -/

theorem newline_eq (m : ℕ) : Json.newline m = '\n' :: spaces (2 * m) := rfl

theorem begins_quote (rest : List Char) : Begins ('"' :: rest) := begins_cons (by decide) rest

/-- A name on a line of its own, up to the value. -/
theorem IsAt.scans_member {name : String} {value : List Char}
    (hs : s.IsAt (Json.newline m ++ (Json.quoted name ++ ':' :: ' ' :: value)) column
      (depth + 1) (-1) [] true)
    (hname : IsName name) (hvalue : Begins value) :
    ∃ (t : Scanner) (column' : ℕ), t.IsAt value column' (depth + 1) (-1) [] false ∧
      Scans [.key, .scalar name false, .value] s t := by
  have htext : Json.newline m ++ (Json.quoted name ++ ':' :: ' ' :: value)
      = '\n' :: spaces (2 * m) ++ ('"' :: (name.toList ++ '"' :: ':' :: ' ' :: value)) := by
    rw [newline_eq, quoted_of_isWord hname.isWord]
    simp
  rw [htext] at hs
  obtain ⟨t, ht, hst⟩ := hs.scans_newline (begins_quote _)
  have ht' : t.IsAt ('"' :: (name.toList ++ '"' :: ':' :: ' ' :: value)) (2 * m) (depth + 1) (-1)
      [] true := by simpa using ht
  obtain ⟨u, hu, htu⟩ := ht'.scans_nextKey hname.length_le (.inl (Nat.succ_ne_zero depth))
    (ht'.leadsTo_quotedName hname)
  obtain ⟨v, hv, huv⟩ := hu.scans_space hvalue
  refine ⟨v, _, hv, ?_⟩
  have := hst.trans (htu.trans huv)
  simpa using this

/-- What holds of a value between braces. -/
def ReadsFlow (d : Document) : Prop :=
  (∀ (m : ℕ) (rest : List Char), Begins (Json.write m d ++ rest)) ∧
    ∀ {s : Scanner} {rest : List Char} {column depth m : ℕ},
      s.IsAt (Json.write m d ++ rest) column (depth + 1) (-1) [] false →
      ∃ (t : Scanner) (column' : ℕ), t.IsAt rest column' (depth + 1) (-1) [] false ∧
        Scans d.flowKinds s t

/-- The value of a field, the fields after it and the brace that ends them. -/
theorem IsAt.scans_members {d : Document} {fields : List (String × Document)} {n : ℕ}
    (hs : s.IsAt (Json.write m d ++ (Json.writeFields m fields
      ++ (Json.newline n ++ '\x7d' :: rest))) column (depth + 1) (-1) [] false)
    (hd : ReadsFlow d) (hnames : ∀ f ∈ fields, IsName f.1)
    (hfields : ∀ f ∈ fields, ReadsFlow f.2) :
    ∃ (t : Scanner) (column' : ℕ), t.IsAt rest column' depth (-1) [] false ∧
      Scans (d.flowKinds ++ moreFlowKinds fields ++ [.flowMappingEnd]) s t := by
  induction fields generalizing s d column with
  | nil =>
      rw [Json.writeFields, List.nil_append] at hs
      obtain ⟨t, c, ht, hst⟩ := hd.2 hs
      have hline : t.IsAt ('\n' :: spaces (2 * n) ++ '\x7d' :: rest) c (depth + 1) (-1) [] false :=
        ht
      obtain ⟨u, hu, htu⟩ := hline.scans_newline (begins_cons (by decide) rest)
      obtain ⟨v, hv, huv⟩ := hu.scans_close (begins_cons (by decide) []) (by decide)
        (token_closeMapping hu.rest_eq)
      refine ⟨v, _, hv, ?_⟩
      rw [moreFlowKinds, List.append_nil]
      exact hst.trans (htu.trans huv)
  | cons f fields ih =>
      obtain ⟨name, value⟩ := f
      have hname : IsName name := hnames _ List.mem_cons_self
      have hvalue : ReadsFlow value := hfields _ List.mem_cons_self
      have htext : Json.writeFields m ((name, value) :: fields)
            ++ (Json.newline n ++ '\x7d' :: rest)
          = ',' :: (Json.newline m ++ (Json.quoted name ++ ':' :: ' ' :: (Json.write m value
            ++ (Json.writeFields m fields ++ (Json.newline n ++ '\x7d' :: rest))))) := by
        rw [Json.writeFields, Json.writeField]
        simp
      rw [htext] at hs
      obtain ⟨t, c, ht, hst⟩ := hd.2 hs
      obtain ⟨u, hu, htu⟩ := ht.scans_comma
      obtain ⟨v, c', hv, huv⟩ := hu.scans_member hname (hvalue.1 m _)
      obtain ⟨w, c'', hw, hvw⟩ := ih hv hvalue (fun f hf => hnames f (List.mem_cons_of_mem _ hf))
        (fun f hf => hfields f (List.mem_cons_of_mem _ hf))
      refine ⟨w, c'', hw, ?_⟩
      have hscans := hst.trans (htu.trans (huv.trans hvw))
      rw [moreFlowKinds]
      simpa using hscans

/-- The fields of a record after its brace. -/
theorem IsAt.scans_object {name : String} {value : Document} {fields : List (String × Document)}
    {n : ℕ}
    (hs : s.IsAt (Json.writeField m (name, value) ++ (Json.writeFields m fields
      ++ (Json.newline n ++ '\x7d' :: rest))) column (depth + 1) (-1) [] true)
    (hnames : ∀ f ∈ (name, value) :: fields, IsName f.1)
    (hfields : ∀ f ∈ (name, value) :: fields, ReadsFlow f.2) :
    ∃ (t : Scanner) (column' : ℕ), t.IsAt rest column' depth (-1) [] false ∧
      Scans (.key :: .scalar name false :: .value
        :: (value.flowKinds ++ moreFlowKinds fields ++ [.flowMappingEnd])) s t := by
  have hname : IsName name := hnames _ List.mem_cons_self
  have hvalue : ReadsFlow value := hfields _ List.mem_cons_self
  have htext : Json.writeField m (name, value) ++ (Json.writeFields m fields
        ++ (Json.newline n ++ '\x7d' :: rest))
      = Json.newline m ++ (Json.quoted name ++ ':' :: ' ' :: (Json.write m value
        ++ (Json.writeFields m fields ++ (Json.newline n ++ '\x7d' :: rest)))) := by
    rw [Json.writeField]
    simp
  rw [htext] at hs
  obtain ⟨t, c, ht, hst⟩ := hs.scans_member hname (hvalue.1 m _)
  obtain ⟨u, c', hu, htu⟩ := ht.scans_members hvalue
    (fun f hf => hnames f (List.mem_cons_of_mem _ hf))
    (fun f hf => hfields f (List.mem_cons_of_mem _ hf))
  exact ⟨u, c', hu, hst.trans htu⟩

/-! ### Outlines -/

theorem readsFlow {n : ℕ} {d : Document} (h : d.IsOutline n) : ReadsFlow d := by
  induction h with
  | @text n word hword =>
      refine ⟨fun m rest => ?_, ?_⟩
      · rw [Json.write]
        exact begins_quote _
      · intro s rest column depth m hs
        have htext : Json.write m (.text word) ++ rest = '"' :: (word.toList ++ '"' :: rest) := by
          rw [Json.write, quoted_of_isWord hword]
          simp
        rw [htext] at hs
        obtain ⟨t, ht, hst⟩ := hs.scans_doubleWord hword (.inl (Nat.succ_ne_zero depth))
        exact ⟨t, _, ht, hst⟩
  | list =>
      refine ⟨fun m rest => ?_, ?_⟩
      · rw [Json.write]
        exact begins_cons (by decide) _
      · intro s rest column depth m hs
        rw [Json.write] at hs
        obtain ⟨t, ht, hst⟩ := hs.scans_open (begins_cons (by decide) []) (by decide)
          (token_openSequence hs.rest_eq) (.inl (Nat.succ_ne_zero depth))
        obtain ⟨u, hu, htu⟩ := ht.scans_close (begins_cons (by decide) []) (by decide)
          (token_closeSequence ht.rest_eq)
        refine ⟨u, _, hu, ?_⟩
        rw [flowKinds]
        exact hst.trans htu
  | @record n fields hne hnodup hnames hfields ih =>
      obtain ⟨⟨name, value⟩, fields, rfl⟩ := List.exists_cons_of_ne_nil hne
      refine ⟨fun m rest => ?_, ?_⟩
      · rw [Json.write]
        exact begins_cons (by decide) _
      · intro s rest column depth m hs
        have htext : Json.write m (.record ((name, value) :: fields)) ++ rest
            = '\x7b' :: (Json.writeField (m + 1) (name, value) ++ (Json.writeFields (m + 1) fields
              ++ (Json.newline m ++ '\x7d' :: rest))) := by
          rw [Json.write]
          simp
        rw [htext] at hs
        obtain ⟨t, ht, hst⟩ := hs.scans_open (begins_cons (by decide) []) (by decide)
          (token_openMapping hs.rest_eq) (.inl (Nat.succ_ne_zero depth))
        obtain ⟨u, c, hu, htu⟩ := ht.scans_object hnames ih
        refine ⟨u, c, hu, ?_⟩
        rw [flowKinds]
        exact hst.trans htu

/-- A whole document as JSON, with its last line ended. -/
theorem IsAt.scans_flowDocument {n : ℕ} {fields : List (String × Document)}
    (hd : (Document.record fields).IsOutline n)
    (hs : s.IsAt ((Json.render (.record fields)).toList ++ '\n' :: rest) 0 0 (-1) [] true)
    (hend : EndsDocument rest) :
    ∃ t : Scanner, t.IsAt rest 0 0 (-1) [] true ∧
      Scans (flowKinds (.record fields)) s t := by
  cases hd with
  | record hne hnodup hnames hfields =>
      obtain ⟨⟨name, value⟩, fields, rfl⟩ := List.exists_cons_of_ne_nil hne
      have hname : IsName name := hnames _ List.mem_cons_self
      have hvalue := readsFlow (hfields _ List.mem_cons_self)
      have htext : (Json.render (.record ((name, value) :: fields))).toList ++ '\n' :: rest
          = '\x7b' :: '\n' :: spaces 2 ++ ('"' :: (name.toList ++ '"' :: ':' :: ' '
            :: (Json.write 1 value ++ (Json.writeFields 1 fields
              ++ (Json.newline 0 ++ '\x7d' :: '\n' :: rest))))) := by
        rw [Json.render, String.toList_ofList, Json.write, Json.writeField, newline_eq 1,
          quoted_of_isWord hname.isWord]
        simp
      rw [htext] at hs
      obtain ⟨t, ht, hst⟩ := hs.scans_openDocument (begins_quote _)
      obtain ⟨u, hu, htu⟩ := ht.scans_nextKey hname.length_le (.inl (Nat.succ_ne_zero 0))
        (ht.leadsTo_quotedName hname)
      obtain ⟨v, hv, huv⟩ := hu.scans_space (hvalue.1 1 _)
      obtain ⟨w, c, hw, hvw⟩ := hv.scans_members hvalue
        (fun f hf => hnames f (List.mem_cons_of_mem _ hf))
        (fun f hf => readsFlow (hfields f (List.mem_cons_of_mem _ hf)))
      have hline : w.IsAt ('\n' :: spaces 0 ++ rest) c 0 (-1) [] false := hw
      obtain ⟨x, hx, hwx⟩ := hline.scans_newline hend.begins
      refine ⟨x, hx, ?_⟩
      have hscans := hst.trans (htu.trans (huv.trans (hvw.trans hwx)))
      rw [flowKinds]
      simpa using hscans

end Yaml.Scanner

end ControlPlane
