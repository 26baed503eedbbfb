import ControlPlane.Proofs.Object.Subdomain

/-! # Names and version tokens

The name of a stored resource forgets the case of the letters it was made from, and nothing else as
long as no slash stands in the namespace (`parts?_of`).  On valid keys nothing is lost: the key can
be read back from the name (`ofResourceName?_resourceName`), so two valid keys never share a name
(`resourceName_injective`).

The object store writes its revisions in decimal.  A version is older than another one of this
form only when it is of the same object and of an earlier revision (`lt_of_isOlderThan`). -/

namespace ControlPlane

/-! ### Decimal tokens -/

namespace Text.Integer

theorem digit?_eq_some {c : Char} {d : ℕ} (h : digit? c = some d) : d = c.toNat - 48 := by
  unfold digit? at h
  split at h
  · exact (Option.some.inj h).symm
  · cases h

theorem readDigits_ok {bound v w : ℕ} {cs : List Char} (h : readDigits bound v cs = .ok w) :
    w = Nat.ofDigitChars 10 cs v := by
  induction cs generalizing v with
  | nil =>
      rw [readDigits] at h
      simpa using (Except.ok.inj h).symm
  | cons c rest ih =>
      rw [readDigits] at h
      cases hd : digit? c with
      | none => rw [hd] at h; cases h
      | some d =>
          rw [hd] at h
          dsimp only at h
          split at h
          · rw [ih h, Nat.ofDigitChars_cons, digit?_eq_some hd]
            rfl
          · cases h

theorem parse64_toString {n w : ℕ} (h : parse64 (toString n) = .ok w) : w = n := by
  unfold parse64 at h
  rw [Nat.toString_eq_repr, Nat.toList_repr] at h
  have hplus : '+' ∉ Nat.toDigits 10 n := fun hmem =>
    absurd (Nat.isDigit_of_mem_toDigits (by decide) (by decide) hmem) (by decide)
  unfold parseUnsigned at h
  split at h
  · cases h
  · cases h
  · rename_i heq
    rw [heq] at hplus
    exact absurd List.mem_cons_self hplus
  · rw [readDigits_ok h, Nat.ofDigitChars_ten_toDigits]

theorem toString_injective {m n : ℕ} (h : toString m = toString n) : m = n := by
  rw [Nat.toString_eq_repr, Nat.toString_eq_repr] at h
  rw [← Nat.ofDigitChars_ten_toDigits (n := m), ← Nat.toList_repr, h, Nat.toList_repr,
    Nat.ofDigitChars_ten_toDigits]

end Text.Integer

theorem ResourceVersion.lt_of_isOlderThan {u v : String} {m n : ℕ}
    (h : isOlderThan ⟨u, toString m⟩ ⟨v, toString n⟩ = true) : u = v ∧ m < n := by
  unfold isOlderThan at h
  rw [Bool.and_eq_true, beq_iff_eq] at h
  refine ⟨h.1, ?_⟩
  have hlt := h.2
  split at hlt
  · rename_i hm hn
    rw [← Text.Integer.parse64_toString hm, ← Text.Integer.parse64_toString hn]
    exact of_decide_eq_true hlt
  · cases hlt

/-! ### Characters of valid keys -/

namespace ObjectKey

/-- The characters of a DNS-1123 subdomain. -/
def isNameChar (c : Char) : Bool := isLabelEdge c || c == '-' || c == '.'

theorem isNameChar_toLower {c : Char} (h : isNameChar c = true) : c.toLower = c := by
  unfold isNameChar isLabelEdge at h
  delta Char.toLower
  rw [dif_neg]
  intro hupper
  delta Char.isLower Char.isDigit at h
  simp only [Bool.or_eq_true, Bool.and_eq_true, decide_eq_true_eq, beq_iff_eq] at h
  simp only [UInt32.le_iff_toNat_le] at hupper h
  rcases h with ((h | h) | rfl) | rfl
  · have := h.1; have := hupper.2
    simp at *
    omega
  · have := h.2; have := hupper.1
    simp at *
    omega
  · exact absurd hupper.1 (by decide)
  · exact absurd hupper.1 (by decide)

theorem isNameChar_ne_slash {c : Char} (h : isNameChar c = true) : c ≠ '/' := by
  rintro rfl
  exact absurd h (by decide)

/-- Every character stands in a label or is a dot between two. -/
theorem mem_of_mem_intercalate {labels : List (List Char)} {c : Char}
    (h : c ∈ ['.'].intercalate labels) : c = '.' ∨ ∃ label ∈ labels, c ∈ label := by
  induction labels with
  | nil => cases h
  | cons first rest ih =>
      cases rest with
      | nil =>
          rw [List.intercalate_singleton] at h
          exact Or.inr ⟨first, List.mem_cons_self, h⟩
      | cons second more =>
          rw [List.intercalate_cons_cons, List.append_assoc, List.mem_append, List.mem_append] at h
          rcases h with hfirst | hdot | hrest
          · exact Or.inr ⟨first, List.mem_cons_self, hfirst⟩
          · exact Or.inl (List.mem_singleton.mp hdot)
          · refine (ih hrest).imp_right ?_
            rintro ⟨label, hl, hc⟩
            exact ⟨label, List.mem_cons_of_mem _ hl, hc⟩

theorem isNameChar_of_isSubdomain {text : List Char} (h : isSubdomain text = true) {c : Char}
    (hc : c ∈ text) : isNameChar c = true := by
  obtain ⟨labels, -, hlabels, rfl⟩ := isSubdomain_iff.mp h
  unfold isNameChar
  rw [Bool.or_eq_true, Bool.or_eq_true, beq_iff_eq, beq_iff_eq, isLabelEdge_iff]
  rcases mem_of_mem_intercalate hc with hdot | ⟨label, hl, hcl⟩
  · exact Or.inr hdot
  · exact Or.inl ((hlabels label hl).chars c hcl)

theorem parts_of_isValid {k : ObjectKey} (h : k.isValid = true) :
    isSubdomain k.space.toList = true ∧ isSubdomain k.name.toList = true := by
  obtain ⟨hspace, hname⟩ := isValid_iff.mp h
  exact ⟨isSubdomain_iff.mpr hspace.subdomain, isSubdomain_iff.mpr hname.subdomain⟩

/-! ### The way back from a name to its key -/

theorem map_toLower_of_isSubdomain {text : String} (h : isSubdomain text.toList = true) :
    text.map Char.toLower = text := by
  rw [← String.toList_inj, String.toList_map]
  conv_rhs => rw [← List.map_id text.toList]
  exact List.map_congr_left fun c hc => isNameChar_toLower (isNameChar_of_isSubdomain h hc)

theorem cutAtSlash_append {a b : List Char} (h : ∀ c ∈ a, c ≠ '/') :
    ResourceName.cutAtSlash (a ++ '/' :: b) = some (a, b) := by
  have hall : ∀ c ∈ a, (c != '/') = true := fun c hc => bne_iff_ne.mpr (h c hc)
  unfold ResourceName.cutAtSlash
  rw [List.dropWhile_append_of_pos hall, List.takeWhile_append_of_pos hall]
  simp

/-- A kind's name in lower case. -/
def kindText (kind : Kind) : List Char := kind.name.toList.map Char.toLower

theorem kindText_ne_slash (kind : Kind) : ∀ c ∈ kindText kind, c ≠ '/' := by
  have hall : (kindText kind).all (fun c => c != '/') = true := by
    cases kind <;> decide +kernel
  intro c hc
  exact bne_iff_ne.mp (List.all_eq_true.mp hall c hc)

theorem parse?_ofList (text : List Char) :
    Kind.parse? (String.ofList text)
      = Kind.all.find? (fun k => decide (kindText k = text.map Char.toLower)) := by
  unfold Kind.parse?
  congr 1
  funext k
  rw [Bool.eq_iff_iff, beq_iff_eq, decide_eq_true_iff, ← String.toList_inj, String.toList_map,
    String.toList_map, String.toList_ofList]
  rfl

theorem parse?_kindText (kind : Kind) :
    Kind.parse? (String.ofList (kindText kind)) = some kind := by
  rw [parse?_ofList]
  cases kind <;> decide +kernel

theorem toLower_ne_slash {c : Char} (h : c ≠ '/') : c.toLower ≠ '/' := by
  delta Char.toLower
  split
  · rename_i hupper
    intro hslash
    have hval : (c.val + 32).toNat = 47 := congrArg Char.toNat hslash
    simp only [UInt32.le_iff_toNat_le] at hupper
    rw [UInt32.toNat_add] at hval
    simp at hupper hval
    omega
  · exact h

theorem toList_of (space : String) (kind : Kind) (name : String) :
    (ResourceName.of space kind name).text.toList
      = (space.map Char.toLower).toList
        ++ '/' :: (kindText kind ++ '/' :: (name.map Char.toLower).toList) := by
  have hslash : "/".toList = ['/'] := by decide
  have hlower : '/'.toLower = '/' := by decide
  simp only [ResourceName.of, String.toList_map, String.toList_append, List.map_append, hslash,
    List.map_cons, List.map_nil, hlower, kindText]
  simp

/-- A name falls into the parts it was made from, in lower case, whatever the last part is. -/
theorem parts?_of {space : String} (h : '/' ∉ space.toList) (kind : Kind) (name : String) :
    (ResourceName.of space kind name).parts?
      = some (space.map Char.toLower, kind, name.map Char.toLower) := by
  have hspace : ∀ c ∈ (space.map Char.toLower).toList, c ≠ '/' := by
    intro c hc
    rw [String.toList_map] at hc
    obtain ⟨d, hd, rfl⟩ := List.mem_map.mp hc
    exact toLower_ne_slash (ne_of_mem_of_not_mem hd h)
  unfold ResourceName.parts?
  rw [toList_of, cutAtSlash_append hspace]
  simp only [Option.bind_eq_bind, Option.bind_some, cutAtSlash_append (kindText_ne_slash kind),
    parse?_kindText, Option.pure_def, String.ofList_toList]

theorem parts?_resourceName {k : ObjectKey} (h : k.isValid = true) :
    k.resourceName.parts? = some (k.space, k.kind, k.name) := by
  obtain ⟨hs, hn⟩ := parts_of_isValid h
  have hspace : '/' ∉ k.space.toList := fun hc =>
    isNameChar_ne_slash (isNameChar_of_isSubdomain hs hc) rfl
  rw [resourceName, parts?_of hspace, map_toLower_of_isSubdomain hs, map_toLower_of_isSubdomain hn]

/-- A valid key can be read back from the name it gives. -/
theorem ofResourceName?_resourceName {k : ObjectKey} (h : k.isValid = true) :
    ofResourceName? k.resourceName = some k := by
  rw [ofResourceName?, parts?_resourceName h]
  rfl

theorem resourceName_injective {a b : ObjectKey} (ha : a.isValid = true) (hb : b.isValid = true)
    (h : a.resourceName = b.resourceName) : a = b := by
  have hkey := ofResourceName?_resourceName ha
  rw [h, ofResourceName?_resourceName hb] at hkey
  exact (Option.some.inj hkey).symm

end ObjectKey

end ControlPlane
