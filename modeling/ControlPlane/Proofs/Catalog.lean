import ControlPlane.Catalog
import Mathlib.Tactic

/-! # Laws of catalogs

A catalog is determined by what it says of each key (`ext_get?`), and each operation is described
by what `get?` says afterwards.  Since the entries are in strictly increasing key order, a key
stands in at most one entry, and membership among the entries is the same as `get?`
(`mem_entries_iff`). -/

namespace ControlPlane.Catalog

variable {κ α β : Type} [Ord κ] [Std.LawfulEqOrd κ]

theorem compare_eq_iff {a b : κ} : compare a b = .eq ↔ a = b :=
  Std.LawfulEqCmp.compare_eq_iff_eq

theorem ne_of_compare {a b : κ} {o : Ordering} (h : compare a b = o) (ho : o ≠ .eq) : a ≠ b := by
  intro heq
  rw [compare_eq_iff.mpr heq] at h
  exact ho h.symm

/-! ### Membership -/

theorem lookup_eq_some_iff {l : List (κ × α)} (h : l.Pairwise fun x y => compare x.1 y.1 = .lt)
    (k : κ) (v : α) : lookup k l = some v ↔ (k, v) ∈ l := by
  induction l with
  | nil => simp [lookup]
  | cons e rest ih =>
      obtain ⟨k', v'⟩ := e
      obtain ⟨hk, hrest⟩ := List.pairwise_cons.mp h
      unfold lookup
      split
      · rename_i heq
        obtain rfl := compare_eq_iff.mp heq
        constructor
        · intro hv
          rw [Option.some.inj hv]
          exact List.mem_cons_self
        · intro hmem
          rcases List.mem_cons.mp hmem with hhead | htail
          · rw [(Prod.mk.inj hhead).2]
          · exact absurd rfl (ne_of_compare (hk (k, v) htail) (by decide))
      · rename_i hne
        rw [ih hrest, List.mem_cons]
        constructor
        · exact Or.inr
        · rintro (hhead | htail)
          · exact absurd (compare_eq_iff.mpr (Prod.mk.inj hhead).1) hne
          · exact htail

theorem mem_entries_iff {c : Catalog κ α} {k : κ} {v : α} :
    (k, v) ∈ c.entries ↔ c.get? k = some v :=
  (lookup_eq_some_iff c.ordered k v).symm

theorem mem_keys_iff {c : Catalog κ α} {k : κ} : k ∈ c.keys ↔ ∃ v, c.get? k = some v := by
  unfold keys
  rw [List.mem_map]
  constructor
  · rintro ⟨⟨k', v⟩, hmem, rfl⟩
    exact ⟨v, mem_entries_iff.mp hmem⟩
  · rintro ⟨v, hv⟩
    exact ⟨(k, v), mem_entries_iff.mpr hv, rfl⟩

theorem mem_values_iff {c : Catalog κ α} {v : α} : v ∈ c.values ↔ ∃ k, c.get? k = some v := by
  unfold values
  rw [List.mem_map]
  constructor
  · rintro ⟨⟨k, v'⟩, hmem, rfl⟩
    exact ⟨k, mem_entries_iff.mp hmem⟩
  · rintro ⟨k, hv⟩
    exact ⟨(k, v), mem_entries_iff.mpr hv, rfl⟩

omit [Std.LawfulEqOrd κ] in
theorem contains_iff {c : Catalog κ α} {k : κ} :
    c.contains k = true ↔ ∃ v, c.get? k = some v := by
  unfold contains
  rw [Option.isSome_iff_exists]

omit [Std.LawfulEqOrd κ] in
theorem contains_eq_false_iff {c : Catalog κ α} {k : κ} :
    c.contains k = false ↔ c.get? k = none := by
  unfold contains
  rw [Option.isSome_eq_false_iff, Option.isNone_iff_eq_none]

/-- A catalog has one form for each content. -/
theorem ext_get? [Std.TransOrd κ] {a b : Catalog κ α} (h : ∀ k, a.get? k = b.get? k) : a = b := by
  have hmem : ∀ e, e ∈ a.entries ↔ e ∈ b.entries := by
    rintro ⟨k, v⟩
    rw [mem_entries_iff, mem_entries_iff, h]
  have hnodup : ∀ c : Catalog κ α, c.entries.Nodup := fun c =>
    c.ordered.imp fun hlt heq => ne_of_compare hlt (by decide) (congrArg Prod.fst heq)
  have hperm := (List.perm_ext_iff_of_nodup (hnodup a) (hnodup b)).mpr hmem
  have heq : a.entries = b.entries := by
    refine hperm.eq_of_pairwise (fun x y _ _ hxy hyx => ?_) a.ordered b.ordered
    have := Std.OrientedCmp.gt_iff_lt.mpr hyx
    rw [hxy] at this
    cases this
  cases a
  cases b
  cases heq
  rfl

/-! ### Operations -/

theorem get?_filter (c : Catalog κ α) (p : κ → α → Bool) (k : κ) :
    (c.filter p).get? k = (c.get? k).filter (p k) := by
  refine Option.ext fun v => ?_
  rw [← mem_entries_iff]
  simp only [filter, List.mem_filter, mem_entries_iff, Option.filter_eq_some_iff]

theorem get?_mapWithKey (c : Catalog κ α) (f : κ → α → β) (k : κ) :
    (c.mapWithKey f).get? k = (c.get? k).map (f k) := by
  refine Option.ext fun v => ?_
  rw [← mem_entries_iff]
  simp only [mapWithKey, List.mem_map, Option.map_eq_some_iff, Prod.mk.injEq]
  constructor
  · rintro ⟨⟨k', v'⟩, hmem, rfl, rfl⟩
    exact ⟨v', mem_entries_iff.mp hmem, rfl⟩
  · rintro ⟨v', hv', rfl⟩
    exact ⟨(k, v'), mem_entries_iff.mpr hv', rfl, rfl⟩

variable [DecidableEq κ]

theorem get?_erase (c : Catalog κ α) (key k : κ) :
    (c.erase key).get? k = if k = key then none else c.get? k := by
  unfold erase
  rw [get?_filter]
  by_cases h : k = key
  · subst h
    simp
  · have hne : (compare key k != .eq) = true := by
      rw [bne_iff_ne]
      exact fun he => h (compare_eq_iff.mp he).symm
    cases c.get? k <;> simp [h, hne]

@[simp] theorem get?_erase_self (c : Catalog κ α) (key : κ) : (c.erase key).get? key = none := by
  simp [get?_erase]

theorem get?_erase_of_ne (c : Catalog κ α) {key k : κ} (h : k ≠ key) :
    (c.erase key).get? k = c.get? k := by
  simp [get?_erase, h]

theorem get?_foldl_erase (keys : List κ) (c : Catalog κ α) (k : κ) :
    (keys.foldl erase c).get? k = if k ∈ keys then none else c.get? k := by
  induction keys generalizing c with
  | nil => simp
  | cons key rest ih =>
      rw [List.foldl_cons, ih, get?_erase]
      by_cases h : k = key
      · simp [h]
      · simp [h]

variable [Std.TransOrd κ]

omit [Std.TransOrd κ] in
theorem lookup_place (key : κ) (value : α) (l : List (κ × α)) (k : κ) :
    lookup k (place key value l) = if k = key then some value else lookup k l := by
  induction l with
  | nil => simp [place, lookup]
  | cons e rest ih =>
      obtain ⟨k', v'⟩ := e
      unfold place
      split
      · simp [lookup]
      · rename_i heq
        obtain rfl := compare_eq_iff.mp heq
        simp only [lookup, compare_eq_iff]
        split_ifs <;> rfl
      · rename_i hgt
        have hne := ne_of_compare hgt (by decide)
        simp only [lookup, compare_eq_iff, ih]
        split_ifs with h₁ h₂
        · exact absurd (h₂.symm.trans h₁) hne
        · rfl
        · rfl
        · rfl

theorem get?_insert (c : Catalog κ α) (key k : κ) (value : α) :
    (c.insert key value).get? k = if k = key then some value else c.get? k :=
  lookup_place key value c.entries k

@[simp] theorem get?_insert_self (c : Catalog κ α) (key : κ) (value : α) :
    (c.insert key value).get? key = some value := by
  simp [get?_insert]

theorem get?_insert_of_ne (c : Catalog κ α) {key k : κ} (value : α) (h : k ≠ key) :
    (c.insert key value).get? k = c.get? k := by
  simp [get?_insert, h]

/-- To insert what is there is to change nothing. -/
theorem insert_of_get? {c : Catalog κ α} {key : κ} {value : α} (h : c.get? key = some value) :
    c.insert key value = c := by
  apply ext_get?
  intro k
  rw [get?_insert]
  split
  · rename_i hk
    rw [hk, h]
  · rfl

omit [Std.TransOrd κ] in
/-- Of what the entries give rise to, that which bears a key comes from the entry of the key. -/
theorem filter_filterMap_mapWithKey {γ δ : Type} (c : Catalog κ α) (f : κ → α → γ × Option δ)
    (tag : δ → κ) (htag : ∀ k v d, (f k v).2 = some d → tag d = k) (key : κ) :
    ((c.mapWithKey f).values.filterMap (·.2)).filter (fun d => tag d = key) =
      ((c.get? key).bind fun v => (f key v).2).toList := by
  have hlist : ∀ l : List (κ × α), l.Pairwise (fun x y => compare x.1 y.1 = .lt) →
      (l.filterMap fun e => (f e.1 e.2).2).filter (fun d => tag d = key) =
        ((lookup key l).bind fun v => (f key v).2).toList := by
    intro l hl
    induction l with
    | nil => rfl
    | cons e rest ih =>
        obtain ⟨k, v⟩ := e
        obtain ⟨hfirst, hrest⟩ := List.pairwise_cons.mp hl
        have hih := ih hrest
        rw [List.filterMap_cons]
        by_cases hk : key = k
        · subst hk
          have habsent : lookup key rest = none := by
            rw [Option.eq_none_iff_forall_ne_some]
            intro v' hv'
            have hmem := (lookup_eq_some_iff hrest key v').mp hv'
            exact ne_of_compare (hfirst _ hmem) (by decide) rfl
          have hhere : lookup key ((key, v) :: rest) = some v := by
            rw [lookup, if_pos (compare_eq_iff.mpr rfl)]
          rw [habsent] at hih
          rw [hhere]
          cases hd : (f key v).2 with
          | none => simpa [hd] using hih
          | some d =>
              simp only [List.filter_cons, htag key v d hd, decide_true, if_true]
              simpa [hd] using hih
        · have hskip : lookup key ((k, v) :: rest) = lookup key rest := by
            rw [lookup, if_neg fun h => hk (compare_eq_iff.mp h)]
          rw [hskip, ← hih]
          cases hd : (f k v).2 with
          | none => rfl
          | some d =>
              have hne : tag d ≠ key := fun h => hk (h.symm.trans (htag k v d hd))
              simp [hne]
  have hmap : (c.mapWithKey f).values.filterMap (·.2) =
      c.entries.filterMap fun e => (f e.1 e.2).2 := by
    simp [values, mapWithKey, List.filterMap_map, Function.comp_def]
  rw [hmap]
  exact hlist c.entries c.ordered

/-- The keys of a catalog made from a list are those of the list. -/
theorem mem_keys_ofList {l : List (κ × α)} {k : κ} :
    k ∈ (ofList l).keys ↔ ∃ v, (k, v) ∈ l := by
  have hfold : ∀ c : Catalog κ α,
      (∃ v, (l.foldl (fun c e => c.insert e.1 e.2) c).get? k = some v)
        ↔ (∃ v, (k, v) ∈ l) ∨ ∃ v, c.get? k = some v := by
    induction l with
    | nil => simp
    | cons e rest ih =>
        intro c
        obtain ⟨k', v'⟩ := e
        rw [List.foldl_cons, ih, get?_insert]
        by_cases h : k = k'
        · subst h
          simp
        · simp [h]
  rw [mem_keys_iff, ofList, hfold]
  simp [show (empty : Catalog κ α).get? k = none from rfl]

omit [DecidableEq κ] in
theorem ofList_concat (l : List (κ × α)) (e : κ × α) :
    ofList (l ++ [e]) = (ofList l).insert e.1 e.2 := by
  simp [ofList]

/-- A catalog made from a list without repeated keys holds what the list holds. -/
theorem get?_ofList_iff {l : List (κ × α)} (h : (l.map (·.1)).Nodup) {k : κ} {v : α} :
    (ofList l).get? k = some v ↔ (k, v) ∈ l := by
  induction l using List.reverseRecOn with
  | nil => simp [ofList, show (empty : Catalog κ α).get? k = none from rfl]
  | append_singleton rest e ih =>
      rw [List.map_append, List.nodup_append] at h
      obtain ⟨hrest, -, hdisjoint⟩ := h
      rw [ofList_concat, get?_insert, List.mem_append, List.mem_singleton]
      split
      · rename_i hk
        subst hk
        have hnew : (e.1, v) ∉ rest := fun hmem =>
          hdisjoint e.1 (List.mem_map.mpr ⟨(e.1, v), hmem, rfl⟩) e.1 (by simp) rfl
        simp [hnew, Prod.ext_iff, eq_comm]
      · rename_i hk
        rw [ih hrest]
        simp [hk, Prod.ext_iff]

end ControlPlane.Catalog
