import ControlPlane.Object.Key
import Mathlib.Tactic

/-! # The grammar of valid keys

Which texts are DNS-1123 subdomains, said without an algorithm: `IsSubdomain` asks for labels that
give the text when they are joined with dots, where `isSubdomain` cuts the text at its dots.  The
cut finds those labels again because no label holds a dot (`isSubdomain_iff`), so a key is valid
exactly when both of its parts are subdomains of at most 253 characters (`isValid_iff`). -/

namespace ControlPlane.ObjectKey

/-- A lower-case letter or a digit. -/
def IsAlphanumeric (c : Char) : Prop := ('a' ≤ c ∧ c ≤ 'z') ∨ ('0' ≤ c ∧ c ≤ '9')

/-- A label: letters, digits and dashes, of which neither the first nor the last is a dash. -/
structure IsLabel (label : List Char) : Prop where
  ne_nil : label ≠ []
  chars : ∀ c ∈ label, IsAlphanumeric c ∨ c = '-'
  first : IsAlphanumeric (label.head ne_nil)
  last : IsAlphanumeric (label.getLast ne_nil)

/-- One label or more with a dot between each two. -/
def IsSubdomain (text : List Char) : Prop :=
  ∃ parts, parts ≠ [] ∧ (∀ label ∈ parts, IsLabel label) ∧ text = ['.'].intercalate parts

/-- What the namespace and the name of a valid key are. -/
structure IsPart (text : String) : Prop where
  length_pos : 1 ≤ text.length
  length_le : text.length ≤ 253
  subdomain : IsSubdomain text.toList

/-! ### Labels -/

section labels
variable {c : Char} {label text : List Char}

theorem isLabelEdge_iff : isLabelEdge c = true ↔ IsAlphanumeric c := by
  delta isLabelEdge Char.isLower Char.isDigit
  rw [Bool.or_eq_true, Bool.and_eq_true, Bool.and_eq_true, decide_eq_true_iff, decide_eq_true_iff,
    decide_eq_true_iff, decide_eq_true_iff]
  exact Iff.rfl

theorem isLabel_iff : isLabel label = true ↔ IsLabel label := by
  unfold isLabel
  simp only [Bool.and_eq_true, List.all_eq_true, Bool.or_eq_true, beq_iff_eq, isLabelEdge_iff]
  cases label with
  | nil =>
      constructor
      · intro h
        exact absurd h.1.2 (by decide)
      · intro h
        exact absurd rfl h.ne_nil
  | cons c rest =>
      have hne : c :: rest ≠ [] := List.cons_ne_nil c rest
      rw [List.head?_eq_some_head hne, List.getLast?_eq_some_getLast hne]
      simp only [Option.map_some, Option.getD_some, isLabelEdge_iff]
      constructor
      · rintro ⟨⟨hchars, hfirst⟩, hlast⟩
        exact ⟨hne, hchars, hfirst, hlast⟩
      · intro h
        exact ⟨⟨h.chars, h.first⟩, h.last⟩

theorem IsLabel.dot_notMem (h : IsLabel label) : '.' ∉ label := by
  intro hdot
  rcases h.chars '.' hdot with halphanumeric | hdash
  · exact absurd (isLabelEdge_iff.mpr halphanumeric) (by decide)
  · exact absurd hdash (by decide)

theorem labels_eq_splitOn : labels text = text.splitOn '.' := by
  induction text with
  | nil => rfl
  | cons c rest ih =>
      rw [labels, List.splitOn_cons_eq_if_modifyHead, ih]
      by_cases hdot : c = '.'
      · rw [if_pos hdot, if_pos (beq_iff_eq.mpr hdot)]
      · rw [if_neg hdot, if_neg (mt beq_iff_eq.mp hdot)]
        cases hparts : rest.splitOn '.' with
        | nil => exact absurd hparts (List.splitOn_ne_nil '.' rest)
        | cons label more => rfl

end labels

/-! ### Valid keys -/

/-- Cutting at the dots finds the labels that a text is made of. -/
theorem isSubdomain_iff {text : List Char} : isSubdomain text = true ↔ IsSubdomain text := by
  rw [isSubdomain, labels_eq_splitOn, List.all_eq_true]
  constructor
  · intro h
    have hlabels : ∀ label ∈ text.splitOn '.', IsLabel label := fun label hlabel =>
      isLabel_iff.mp (h label hlabel)
    exact ⟨text.splitOn '.', List.splitOn_ne_nil '.' text, hlabels,
      (List.intercalate_splitOn '.').symm⟩
  · rintro ⟨parts, hne, hlabels, rfl⟩
    rw [List.splitOn_intercalate '.' (fun label hlabel => (hlabels label hlabel).dot_notMem) hne]
    intro label hlabel
    exact isLabel_iff.mpr (hlabels label hlabel)

theorem partFaults_eq_nil_iff {text : String} : partFaults text = [] ↔ IsPart text := by
  rw [partFaults, List.append_eq_nil_iff]
  constructor
  · rintro ⟨hlength, hsubdomain⟩
    split at hlength
    · rename_i hbounds
      split at hsubdomain
      · rename_i h
        exact ⟨hbounds.1, hbounds.2, isSubdomain_iff.mp h⟩
      · cases hsubdomain
    · cases hlength
  · intro h
    rw [if_pos ⟨h.length_pos, h.length_le⟩, if_pos (isSubdomain_iff.mpr h.subdomain)]
    exact ⟨rfl, rfl⟩

theorem isValid_iff {k : ObjectKey} : k.isValid = true ↔ IsPart k.space ∧ IsPart k.name := by
  rw [← partFaults_eq_nil_iff, ← partFaults_eq_nil_iff, isValid, faults, List.isEmpty_iff,
    List.filter_eq_nil_iff]
  simp [and_comm]

end ControlPlane.ObjectKey
