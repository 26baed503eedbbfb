/-!
# Catalogs

A finite map kept as a list of entries in strictly increasing key order. The order is part of the
type, so a catalog has one form for each content: two catalogs with the same entries are equal, and
listing one needs no sorting.
-/

namespace ControlPlane

/-- A finite map with its entries in key order. -/
structure Catalog (κ α : Type) [Ord κ] where
  entries : List (κ × α)
  ordered : entries.Pairwise fun x y => compare x.1 y.1 = .lt

namespace Catalog

variable {κ α β : Type} [Ord κ]

instance [DecidableEq κ] [DecidableEq α] : DecidableEq (Catalog κ α) := fun a b =>
  if h : a.entries = b.entries then
    .isTrue (by cases a; cases b; cases h; rfl)
  else .isFalse fun e => h (by rw [e])

def empty : Catalog κ α := ⟨[], .nil⟩

instance : Inhabited (Catalog κ α) := ⟨empty⟩

instance : EmptyCollection (Catalog κ α) := ⟨empty⟩

/-- The value of the first entry with this key. -/
def lookup (key : κ) : List (κ × α) → Option α
  | [] => none
  | (k, v) :: rest => if compare key k = .eq then some v else lookup key rest

def get? (c : Catalog κ α) (key : κ) : Option α := lookup key c.entries

def contains (c : Catalog κ α) (key : κ) : Bool := (c.get? key).isSome

def size (c : Catalog κ α) : Nat := c.entries.length

def keys (c : Catalog κ α) : List κ := c.entries.map (·.1)

def values (c : Catalog κ α) : List α := c.entries.map (·.2)

theorem filter_ordered {p : κ × α → Bool} {l : List (κ × α)}
    (h : l.Pairwise fun x y => compare x.1 y.1 = .lt) :
    (l.filter p).Pairwise fun x y => compare x.1 y.1 = .lt :=
  h.sublist List.filter_sublist

/-- The entries that satisfy a test. -/
def filter (c : Catalog κ α) (p : κ → α → Bool) : Catalog κ α :=
  ⟨c.entries.filter fun e => p e.1 e.2, filter_ordered c.ordered⟩

def erase (c : Catalog κ α) (key : κ) : Catalog κ α :=
  c.filter fun k _ => compare key k != .eq

theorem map_ordered {f : κ → α → β} {l : List (κ × α)}
    (h : l.Pairwise fun x y => compare x.1 y.1 = .lt) :
    (l.map fun e => (e.1, f e.1 e.2)).Pairwise fun x y => compare x.1 y.1 = .lt :=
  List.pairwise_map.2 h

/-- The same keys with other values. -/
def mapWithKey (c : Catalog κ α) (f : κ → α → β) : Catalog κ β :=
  ⟨c.entries.map fun e => (e.1, f e.1 e.2), map_ordered c.ordered⟩

/-- Puts an entry at its place, over one with the same key. -/
def place (key : κ) (value : α) : List (κ × α) → List (κ × α)
  | [] => [(key, value)]
  | (k, v) :: rest =>
    match compare key k with
    | .lt => (key, value) :: (k, v) :: rest
    | .eq => (key, value) :: rest
    | .gt => (k, v) :: place key value rest

theorem mem_place {key : κ} {value : α} {l : List (κ × α)} {x : κ × α}
    (h : x ∈ place key value l) : x = (key, value) ∨ x ∈ l := by
  induction l with
  | nil => simpa [place] using h
  | cons e rest ih =>
    obtain ⟨k, v⟩ := e
    simp only [place] at h
    split at h <;> grind

variable [Std.TransOrd κ] [Std.LawfulEqOrd κ]

theorem place_ordered {key : κ} {value : α} {l : List (κ × α)}
    (h : l.Pairwise fun x y => compare x.1 y.1 = .lt) :
    (place key value l).Pairwise fun x y => compare x.1 y.1 = .lt := by
  induction l with
  | nil => simp [place]
  | cons e rest ih =>
    obtain ⟨k, v⟩ := e
    obtain ⟨hk, hrest⟩ := List.pairwise_cons.1 h
    simp only [place]
    split
    next hlt =>
      refine List.pairwise_cons.2 ⟨fun y hy => ?_, h⟩
      rcases List.mem_cons.1 hy with rfl | hy
      · exact hlt
      · exact Std.TransCmp.lt_trans hlt (hk y hy)
    next heq =>
      obtain rfl := Std.LawfulEqCmp.compare_eq_iff_eq.1 heq
      exact List.pairwise_cons.2 ⟨hk, hrest⟩
    next hgt =>
      refine List.pairwise_cons.2 ⟨fun y hy => ?_, ih hrest⟩
      rcases mem_place hy with rfl | hy
      · exact Std.OrientedCmp.gt_iff_lt.1 hgt
      · exact hk y hy

def insert (c : Catalog κ α) (key : κ) (value : α) : Catalog κ α :=
  ⟨place key value c.entries, place_ordered c.ordered⟩

def ofList (entries : List (κ × α)) : Catalog κ α :=
  entries.foldl (fun c e => c.insert e.1 e.2) empty

/-- A value changed in place, when the key is there. -/
def modify (c : Catalog κ α) (key : κ) (f : α → α) : Catalog κ α :=
  match c.get? key with
  | none => c
  | some v => c.insert key (f v)

end Catalog

end ControlPlane
