import Mathlib.Data.List.Sort
import PaymentProcessing.Foundations.Python.Json

/-!
# JSON values up to the order of keys

A `dict` keeps the order in which its keys were written, and JSON objects have none. `Json.Same`
is equality of JSON values up to the order of the members of every object, at every depth.
`Json.sortKeys` writes every object with its keys in ascending order, and is a normal form for it
(`sortKeys_eq_iff`), provided no object repeats a key (`Json.WellFormed`), as no `dict` does.
-/

namespace Python

variable {α β : Type}

/-! ## Sorting members -/

/-- `sorted` of the items of a `dict`. -/
def sortMembers (kvs : List (Str × β)) : List (Str × β) :=
  kvs.mergeSort fun a b => decide (a.1 ≤ b.1)

theorem sortMembers_perm (kvs : List (Str × β)) : (sortMembers kvs).Perm kvs :=
  List.mergeSort_perm _ _

theorem pairwise_sortMembers (kvs : List (Str × β)) :
    (sortMembers kvs).Pairwise fun a b => a.1 ≤ b.1 := by
  have h := @List.pairwise_mergeSort _ (fun a b : Str × β => decide (a.1 ≤ b.1))
    (fun a b c hab hbc => by simpa using le_trans (by simpa using hab) (by simpa using hbc))
    (fun a b => by simpa using le_total a.1 b.1) kvs
  simpa [sortMembers] using h

theorem eq_of_mem_of_nodup_keys {kvs : List (Str × β)} (h : (kvs.map Prod.fst).Nodup) {k : Str}
    {v v' : β} (hv : (k, v) ∈ kvs) (hv' : (k, v') ∈ kvs) : v = v' := by
  have := List.inj_on_of_nodup_map h hv hv' rfl
  exact (Prod.mk.inj this).2

/-- The order in which members without a repeated key were written does not survive sorting. -/
theorem sortMembers_eq_of_perm {kvs kvs' : List (Str × β)} (h : (kvs.map Prod.fst).Nodup)
    (hp : kvs.Perm kvs') : sortMembers kvs = sortMembers kvs' := by
  have hp' : (sortMembers kvs).Perm (sortMembers kvs') :=
    (sortMembers_perm kvs).trans (hp.trans (sortMembers_perm kvs').symm)
  refine hp'.eq_of_pairwise (fun a b ha hb hab hba => ?_) (pairwise_sortMembers kvs)
    (pairwise_sortMembers kvs')
  have hk : a.1 = b.1 := le_antisymm hab hba
  have ha' : a ∈ kvs := (sortMembers_perm kvs).subset ha
  have hb' : b ∈ kvs := hp.symm.subset ((sortMembers_perm kvs').subset hb)
  exact List.inj_on_of_nodup_map h ha' hb' hk

/-- Sorted lists of members are equal only if the members are the same. -/
theorem perm_of_sortMembers_eq {kvs kvs' : List (Str × β)} (h : sortMembers kvs = sortMembers kvs') :
    kvs.Perm kvs' :=
  (sortMembers_perm kvs).symm.trans (h ▸ sortMembers_perm kvs')

theorem sortMembers_map {γ : Type} (f : β → γ) (kvs : List (Str × β)) :
    sortMembers (kvs.map fun kv => (kv.1, f kv.2)) =
      (sortMembers kvs).map fun kv => (kv.1, f kv.2) := by
  unfold sortMembers
  rw [List.map_mergeSort]
  exact fun _ _ _ _ => rfl

theorem sortMembers_sortMembers (kvs : List (Str × β)) :
    sortMembers (sortMembers kvs) = sortMembers kvs := by
  refine List.mergeSort_of_pairwise ?_
  simpa using pairwise_sortMembers kvs

namespace Json

/-! ## The normal form -/

mutual

/-- No object repeats a key. -/
def WellFormed : Json α → Prop
  | .arr xs => WellFormedItems xs
  | .obj kvs => (kvs.map Prod.fst).Nodup ∧ WellFormedMembers kvs
  | _ => True

/-- `WellFormed` for the items of an array. -/
def WellFormedItems : List (Json α) → Prop
  | [] => True
  | x :: xs => x.WellFormed ∧ WellFormedItems xs

/-- `WellFormed` for the values of an object. -/
def WellFormedMembers : List (Str × Json α) → Prop
  | [] => True
  | (_, x) :: kvs => x.WellFormed ∧ WellFormedMembers kvs

end

theorem wellFormed_empty : (obj [] : Json α).WellFormed := ⟨.nil, trivial⟩

mutual

/-- Every object with its keys in ascending order. -/
def sortKeys : Json α → Json α
  | .arr xs => .arr (sortKeysItems xs)
  | .obj kvs => .obj (sortMembers (sortKeysMembers kvs))
  | x => x

/-- `sortKeys` in the items of an array. -/
def sortKeysItems : List (Json α) → List (Json α)
  | [] => []
  | x :: xs => x.sortKeys :: sortKeysItems xs

/-- `sortKeys` in the values of an object. -/
def sortKeysMembers : List (Str × Json α) → List (Str × Json α)
  | [] => []
  | (k, x) :: kvs => (k, x.sortKeys) :: sortKeysMembers kvs

end

mutual

/-- The same JSON value, up to the order of the members of objects. -/
def Same : Json α → Json α → Prop
  | .arr xs, y => ∃ ys, y = .arr ys ∧ SameItems xs ys
  | .obj kvs, y => ∃ kvs', y = .obj kvs' ∧ (kvs.map Prod.fst).Perm (kvs'.map Prod.fst) ∧
      SameMembers kvs kvs'
  | x, y => x = y

/-- Arrays with the same items at the same places. -/
def SameItems : List (Json α) → List (Json α) → Prop
  | [], ys => ys = []
  | x :: xs, ys => ∃ y ys', ys = y :: ys' ∧ x.Same y ∧ SameItems xs ys'

/-- Every member of the first object is one of the second. -/
def SameMembers : List (Str × Json α) → List (Str × Json α) → Prop
  | [], _ => True
  | (k, x) :: kvs, kvs' => (∃ y, (k, y) ∈ kvs' ∧ x.Same y) ∧ SameMembers kvs kvs'

end

theorem sortKeysMembers_eq_map (kvs : List (Str × Json α)) :
    sortKeysMembers kvs = kvs.map fun kv => (kv.1, kv.2.sortKeys) := by
  induction kvs with
  | nil => rfl
  | cons kv kvs ih => rw [sortKeysMembers, ih, List.map_cons]

theorem keys_sortKeysMembers (kvs : List (Str × Json α)) :
    (sortKeysMembers kvs).map Prod.fst = kvs.map Prod.fst := by
  rw [sortKeysMembers_eq_map, List.map_map]
  rfl

mutual

/-- A normal form is its own normal form. -/
theorem sortKeys_sortKeys : ∀ x : Json α, x.sortKeys.sortKeys = x.sortKeys
  | .null | .bool _ | .int _ | .atom _ | .str _ => rfl
  | .arr xs => by simp only [sortKeys, sortKeysItems_sortKeysItems xs]
  | .obj kvs => by
    have hmap := sortMembers_map sortKeys (sortKeysMembers kvs)
    rw [← sortKeysMembers_eq_map, ← sortKeysMembers_eq_map, sortKeysMembers_sortKeysMembers kvs]
      at hmap
    simp only [sortKeys, ← hmap, sortMembers_sortMembers]

theorem sortKeysItems_sortKeysItems : ∀ xs : List (Json α),
    sortKeysItems (sortKeysItems xs) = sortKeysItems xs
  | [] => rfl
  | x :: xs => by
    simp only [sortKeysItems, sortKeys_sortKeys x, sortKeysItems_sortKeysItems xs]

theorem sortKeysMembers_sortKeysMembers : ∀ kvs : List (Str × Json α),
    sortKeysMembers (sortKeysMembers kvs) = sortKeysMembers kvs
  | [] => rfl
  | (_, x) :: kvs => by
    simp only [sortKeysMembers, sortKeys_sortKeys x, sortKeysMembers_sortKeysMembers kvs]

end

theorem WellFormedMembers.of_mem {kvs : List (Str × Json α)} (h : WellFormedMembers kvs) {k : Str}
    {x : Json α} (hx : (k, x) ∈ kvs) : x.WellFormed := by
  induction kvs with
  | nil => simp at hx
  | cons kv kvs ih =>
    rcases List.mem_cons.mp hx with rfl | hx
    · exact h.1
    · exact ih h.2 hx

/-- Objects with the same keys whose members correspond have the same normal form. -/
theorem sortMembers_sortKeysMembers_eq {kvs kvs' : List (Str × Json α)}
    (hn : (kvs.map Prod.fst).Nodup) (hk : (kvs.map Prod.fst).Perm (kvs'.map Prod.fst))
    (hsub : sortKeysMembers kvs ⊆ sortKeysMembers kvs') :
    sortMembers (sortKeysMembers kvs) = sortMembers (sortKeysMembers kvs') := by
  have hn' : ((sortKeysMembers kvs).map Prod.fst).Nodup := by rwa [keys_sortKeysMembers]
  have hlen : (sortKeysMembers kvs').length ≤ (sortKeysMembers kvs).length := by
    have := hk.length_eq
    simp only [sortKeysMembers_eq_map, List.length_map] at this ⊢
    omega
  exact sortMembers_eq_of_perm hn'
    ((List.subperm_of_subset (List.Nodup.of_map _ hn') hsub).perm_of_length_le hlen)

mutual

/-- The same values have the same normal form. -/
theorem Same.sortKeys_eq : ∀ {x y : Json α}, x.WellFormed → y.WellFormed → x.Same y →
    x.sortKeys = y.sortKeys
  | .null, y, _, _, h => by cases h; rfl
  | .bool b, y, _, _, h => by cases h; rfl
  | .int n, y, _, _, h => by cases h; rfl
  | .atom a, y, _, _, h => by cases h; rfl
  | .str s, y, _, _, h => by cases h; rfl
  | .arr xs, y, hx, hy, h => by
    obtain ⟨ys, rfl, h⟩ := h
    simp only [sortKeys, SameItems.sortKeys_eq hx hy h]
  | .obj kvs, y, hx, hy, h => by
    obtain ⟨kvs', rfl, hk, h⟩ := h
    have hsub := SameMembers.sortKeys_subset hx.2 hy.2 h
    simp only [sortKeys, sortMembers_sortKeysMembers_eq hx.1 hk hsub]

theorem SameItems.sortKeys_eq : ∀ {xs ys : List (Json α)}, WellFormedItems xs →
    WellFormedItems ys → SameItems xs ys → sortKeysItems xs = sortKeysItems ys
  | [], ys, _, _, h => by cases h; rfl
  | x :: xs, ys, hx, hy, h => by
    obtain ⟨y, ys', rfl, hxy, h⟩ := h
    simp only [sortKeysItems, hxy.sortKeys_eq hx.1 hy.1, SameItems.sortKeys_eq hx.2 hy.2 h]

theorem SameMembers.sortKeys_subset : ∀ {kvs kvs' : List (Str × Json α)}, WellFormedMembers kvs →
    WellFormedMembers kvs' → SameMembers kvs kvs' → sortKeysMembers kvs ⊆ sortKeysMembers kvs'
  | [], _, _, _, _ => List.nil_subset _
  | (k, x) :: kvs, kvs', hx, hy, h => by
    obtain ⟨⟨y, hmem, hxy⟩, h⟩ := h
    rw [sortKeysMembers, List.cons_subset]
    refine ⟨?_, SameMembers.sortKeys_subset hx.2 hy h⟩
    rw [hxy.sortKeys_eq hx.1 (hy.of_mem hmem), sortKeysMembers_eq_map]
    exact List.mem_map_of_mem hmem

end

theorem mem_of_sortKeysMembers {kvs : List (Str × Json α)} {k : Str} {x : Json α}
    (h : (k, x) ∈ sortKeysMembers kvs) : ∃ y, (k, y) ∈ kvs ∧ x = y.sortKeys := by
  rw [sortKeysMembers_eq_map] at h
  obtain ⟨⟨k', y⟩, hy, he⟩ := List.mem_map.mp h
  obtain ⟨rfl, rfl⟩ := Prod.mk.inj he
  exact ⟨y, hy, rfl⟩

mutual

/-- Values with the same normal form are the same. -/
theorem same_of_sortKeys_eq : ∀ {x y : Json α}, x.sortKeys = y.sortKeys → x.Same y
  | .null, y, h => by cases y <;> simp_all [sortKeys, Same]
  | .bool b, y, h => by cases y <;> simp_all [sortKeys, Same]
  | .int n, y, h => by cases y <;> simp_all [sortKeys, Same]
  | .atom a, y, h => by cases y <;> simp_all [sortKeys, Same]
  | .str s, y, h => by cases y <;> simp_all [sortKeys, Same]
  | .arr xs, y, h => by
    cases y with
    | arr ys => exact ⟨ys, rfl, sameItems_of_sortKeys_eq (Json.arr.inj h)⟩
    | _ => simp [sortKeys] at h
  | .obj kvs, y, h => by
    cases y with
    | obj kvs' =>
      have hp := perm_of_sortMembers_eq (Json.obj.inj h)
      have hk := hp.map Prod.fst
      rw [keys_sortKeysMembers, keys_sortKeysMembers] at hk
      exact ⟨kvs', rfl, hk, sameMembers_of_sortKeys_subset hp.subset⟩
    | _ => simp [sortKeys] at h

theorem sameItems_of_sortKeys_eq : ∀ {xs ys : List (Json α)},
    sortKeysItems xs = sortKeysItems ys → SameItems xs ys
  | [], ys, h => by cases ys <;> simp_all [sortKeysItems, SameItems]
  | x :: xs, ys, h => by
    cases ys with
    | nil => simp [sortKeysItems] at h
    | cons y ys =>
      obtain ⟨hx, ht⟩ := List.cons.inj h
      exact ⟨y, ys, rfl, same_of_sortKeys_eq hx, sameItems_of_sortKeys_eq ht⟩

theorem sameMembers_of_sortKeys_subset : ∀ {kvs kvs' : List (Str × Json α)},
    sortKeysMembers kvs ⊆ sortKeysMembers kvs' → SameMembers kvs kvs'
  | [], _, _ => trivial
  | (k, x) :: kvs, kvs', h => by
    rw [sortKeysMembers, List.cons_subset] at h
    obtain ⟨y, hy, hxy⟩ := mem_of_sortKeysMembers h.1
    exact ⟨⟨y, hy, same_of_sortKeys_eq hxy⟩, sameMembers_of_sortKeys_subset h.2⟩

end

mutual

/-- Sorting keys changes no string. -/
theorem Encodable.sortKeys : ∀ {x : Json α}, x.Encodable → x.sortKeys.Encodable
  | .null, h | .bool _, h | .int _, h | .atom _, h | .str _, h => h
  | .arr _, h => EncodableItems.sortKeys h
  | .obj kvs, h => by
    have hs := encodableMembers_iff.mp (EncodableMembers.sortKeys h)
    exact encodableMembers_iff.mpr fun kv hkv => hs kv ((sortMembers_perm _).subset hkv)

theorem EncodableItems.sortKeys : ∀ {xs : List (Json α)}, EncodableItems xs →
    EncodableItems (sortKeysItems xs)
  | [], _ => trivial
  | _ :: _, h => ⟨h.1.sortKeys, EncodableItems.sortKeys h.2⟩

theorem EncodableMembers.sortKeys : ∀ {kvs : List (Str × Json α)}, EncodableMembers kvs →
    EncodableMembers (sortKeysMembers kvs)
  | [], _ => trivial
  | (_, _) :: _, h => ⟨h.1, h.2.1.sortKeys, EncodableMembers.sortKeys h.2.2⟩

end

mutual

/-- Sorting keys removes no string. -/
theorem Encodable.of_sortKeys : ∀ {x : Json α}, x.sortKeys.Encodable → x.Encodable
  | .null, h | .bool _, h | .int _, h | .atom _, h | .str _, h => h
  | .arr _, h => EncodableItems.of_sortKeys h
  | .obj _, h => by
    have hs := encodableMembers_iff.mp h
    apply EncodableMembers.of_sortKeys
    exact encodableMembers_iff.mpr fun kv hkv => hs kv ((sortMembers_perm _).symm.subset hkv)

theorem EncodableItems.of_sortKeys : ∀ {xs : List (Json α)}, EncodableItems (sortKeysItems xs) →
    EncodableItems xs
  | [], _ => trivial
  | _ :: _, h => ⟨h.1.of_sortKeys, EncodableItems.of_sortKeys h.2⟩

theorem EncodableMembers.of_sortKeys : ∀ {kvs : List (Str × Json α)},
    EncodableMembers (sortKeysMembers kvs) → EncodableMembers kvs
  | [], _ => trivial
  | (_, _) :: _, h => ⟨h.1, h.2.1.of_sortKeys, EncodableMembers.of_sortKeys h.2.2⟩

end

/-- **Sorting keys is a normal form** for JSON values up to the order of keys. -/
theorem sortKeys_eq_iff {x y : Json α} (hx : x.WellFormed) (hy : y.WellFormed) :
    x.sortKeys = y.sortKeys ↔ x.Same y :=
  ⟨same_of_sortKeys_eq, Same.sortKeys_eq hx hy⟩

/-- The order of keys does not matter for an encoding. -/
theorem Same.encodable {x y : Json α} (h : x.Same y) (hx : x.WellFormed) (hy : y.WellFormed)
    (henc : x.Encodable) : y.Encodable := by
  have hsorted := henc.sortKeys
  rw [h.sortKeys_eq hx hy] at hsorted
  exact hsorted.of_sortKeys

end Json

end Python
