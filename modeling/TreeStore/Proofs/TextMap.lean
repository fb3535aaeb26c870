import Mathlib.Data.List.Nodup
import TreeStore.Text.Map

/-! What maps from texts hold after a key has been written: its value, and all other entries. A map is made again from
its entries in their order. -/

namespace TreeStore

namespace TextMap

variable {α : Type}

theorem mem_insertEntry_iff {key : String} {value : α} {es : List (String × α)}
    (ordered : es.Pairwise fun a b => a.1 < b.1) (x : String × α) :
    x ∈ insertEntry key value es ↔ x = (key, value) ∨ x.1 ≠ key ∧ x ∈ es := by
  induction es with
  | nil => simp [insertEntry]
  | cons e rest ih =>
    obtain ⟨first, tail⟩ := List.pairwise_cons.1 ordered
    have later : ∀ y ∈ rest, y.1 ≠ e.1 := fun y hy => (String.ne_of_lt (first y hy)).symm
    unfold insertEntry
    split
    · next lt =>
      have other : ∀ y ∈ e :: rest, y.1 ≠ key := by
        intro y hy
        rcases List.mem_cons.1 hy with rfl | hy
        · exact (String.ne_of_lt lt).symm
        · exact (String.ne_of_lt (String.lt_trans lt (first y hy))).symm
      rw [List.mem_cons]
      exact or_congr_right ⟨fun h => ⟨other x h, h⟩, fun h => h.2⟩
    · split
      · next gt =>
        simp only [List.mem_cons, ih tail]
        constructor
        · rintro (rfl | rfl | ⟨ne, mem⟩)
          · exact .inr ⟨String.ne_of_lt gt, .inl rfl⟩
          · exact .inl rfl
          · exact .inr ⟨ne, .inr mem⟩
        · rintro (rfl | ⟨ne, rfl | mem⟩)
          · exact .inr (.inl rfl)
          · exact .inl rfl
          · exact .inr (.inr ⟨ne, mem⟩)
      · next nlt ngt =>
        have same : key = e.1 := String.le_antisymm (String.not_lt.1 ngt) (String.not_lt.1 nlt)
        subst same
        simp only [List.mem_cons]
        constructor
        · rintro (rfl | mem)
          · exact .inl rfl
          · exact .inr ⟨later x mem, .inr mem⟩
        · rintro (rfl | ⟨ne, rfl | mem⟩)
          · exact .inl rfl
          · exact absurd rfl ne
          · exact .inr mem

theorem mem_insert (m : TextMap α) (key : String) (value : α) (x : String × α) :
    x ∈ (m.insert key value).entries ↔ x = (key, value) ∨ x.1 ≠ key ∧ x ∈ m.entries :=
  mem_insertEntry_iff m.ordered x

theorem keys_nodup (m : TextMap α) : m.keys.Nodup :=
  List.Pairwise.map _ (fun _ _ lt => String.ne_of_lt lt) m.ordered

theorem entries_functional (m : TextMap α) {x y : String × α} (hx : x ∈ m.entries) (hy : y ∈ m.entries)
    (same : x.1 = y.1) : x = y :=
  List.inj_on_of_nodup_map m.keys_nodup hx hy same

theorem get?_eq_some (m : TextMap α) {key : String} {v : α} :
    m.get? key = some v ↔ (key, v) ∈ m.entries := by
  unfold get?
  constructor
  · intro h
    obtain ⟨before, after, eq, _⟩ := List.lookup_eq_some_iff.1 h
    simp [eq]
  · intro mem
    cases found : m.entries.lookup key with
    | none =>
      have absent := List.lookup_eq_none_iff.1 found _ mem
      simp at absent
    | some w =>
      obtain ⟨before, after, eq, _⟩ := List.lookup_eq_some_iff.1 found
      have other : (key, w) ∈ m.entries := by simp [eq]
      exact congrArg some (Prod.mk.inj (m.entries_functional other mem rfl)).2

theorem get?_insert (m : TextMap α) (key other : String) (value : α) :
    (m.insert key value).get? other = if other = key then some value else m.get? other := by
  apply Option.ext
  intro w
  rw [get?_eq_some, mem_insert]
  by_cases same : other = key
  · simp [same, eq_comm]
  · simp [same, get?_eq_some]

theorem mem_keys (m : TextMap α) {key : String} : key ∈ m.keys ↔ (m.get? key).isSome := by
  rw [Option.isSome_iff_exists]
  simp only [keys, get?_eq_some, List.mem_map]
  exact ⟨fun ⟨x, mem, eq⟩ => ⟨x.2, eq ▸ mem⟩, fun ⟨v, mem⟩ => ⟨_, mem, rfl⟩⟩

theorem mem_keys_ofList (es : List (String × α)) (key : String) :
    key ∈ (ofList es).keys ↔ key ∈ es.map (·.1) := by
  have fold : ∀ m : TextMap α, key ∈ (es.foldl (fun m e => m.insert e.1 e.2) m).keys ↔
      key ∈ m.keys ∨ key ∈ es.map (·.1) := by
    induction es with
    | nil => simp
    | cons e rest ih =>
      intro m
      rw [List.foldl_cons, ih, List.map_cons, List.mem_cons, ← or_assoc]
      refine or_congr_left ?_
      rw [mem_keys, mem_keys, get?_insert]
      by_cases same : key = e.1 <;> simp [same]
  rw [ofList, fold empty]
  simp [keys, empty]

/-- A key has a value that is written with it. -/
theorem mem_of_get?_ofList {es : List (String × α)} {key : String} {v : α} :
    (ofList es).get? key = some v → (key, v) ∈ es := by
  have fold : ∀ m : TextMap α, (key, v) ∈ (es.foldl (fun m e => m.insert e.1 e.2) m).entries →
      (key, v) ∈ m.entries ∨ (key, v) ∈ es := by
    induction es with
    | nil => simp
    | cons e rest ih =>
      intro m mem
      rcases ih _ mem with written | later
      · rcases (mem_insert ..).1 written with own | ⟨_, earlier⟩
        · exact .inr (own ▸ List.mem_cons_self)
        · exact .inl earlier
      · exact .inr (List.mem_cons_of_mem _ later)
  intro found
  simpa [empty] using fold empty ((get?_eq_some _).1 found)

/-- Of keys that are written once, each has the value that is written with it. -/
theorem get?_ofList {es : List (String × α)} (distinct : (es.map (·.1)).Nodup) {key : String} {v : α} :
    (ofList es).get? key = some v ↔ (key, v) ∈ es := by
  have fold : ∀ m : TextMap α, (∀ e ∈ es, m.get? e.1 = none) →
      ((es.foldl (fun m e => m.insert e.1 e.2) m).get? key = some v ↔ m.get? key = some v ∨ (key, v) ∈ es) := by
    induction es with
    | nil => simp
    | cons e rest ih =>
      intro m absent
      obtain ⟨first, distinct⟩ := List.nodup_cons.1 distinct
      obtain ⟨own, others⟩ := List.forall_mem_cons.1 absent
      rw [List.foldl_cons, ih distinct, get?_insert, List.mem_cons, ← or_assoc]
      · refine or_congr_left ?_
        by_cases same : key = e.1
        · subst same
          simp [own, Prod.ext_iff, eq_comm]
        · simp [same, Prod.ext_iff]
      · intro f mem
        have other : f.1 ≠ e.1 := fun same => first (List.mem_map.2 ⟨f, mem, same⟩)
        rw [get?_insert, if_neg other, others f mem]
  rw [ofList, fold empty fun _ _ => rfl]
  simp [get?, empty]

theorem get?_filterMap {β : Type} (f : α → Option β) (m : TextMap α) (key : String) :
    (m.filterMap f).get? key = (m.get? key).bind f := by
  have distinct : ((m.entries.filterMap fun e => (f e.2).map (e.1, ·)).map (·.1)).Nodup := by
    refine List.Pairwise.map _ (fun _ _ lt => String.ne_of_lt lt) (m.ordered.filterMap _ ?_)
    intro a b lt x hx y hy
    obtain ⟨_, _, rfl⟩ := Option.map_eq_some_iff.1 hx
    obtain ⟨_, _, rfl⟩ := Option.map_eq_some_iff.1 hy
    exact lt
  apply Option.ext
  intro w
  rw [filterMap, get?_ofList distinct, List.mem_filterMap, Option.bind_eq_some_iff]
  simp only [Option.map_eq_some_iff, get?_eq_some]
  constructor
  · rintro ⟨⟨_, v⟩, mem, _, image, ⟨⟩⟩
    exact ⟨v, mem, image⟩
  · rintro ⟨v, mem, image⟩
    exact ⟨(key, v), mem, w, image, rfl⟩

theorem eq_empty {m : TextMap α} (none : m.isEmpty = true) : m = empty := by
  obtain ⟨entries, ordered⟩ := m
  obtain rfl : entries = [] := List.isEmpty_iff.1 none
  rfl

/-! ### Entries in order -/

theorem insertEntry_last {key : String} {value : α} {es : List (String × α)} (later : ∀ e ∈ es, e.1 < key) :
    insertEntry key value es = es ++ [(key, value)] := by
  induction es with
  | nil => rfl
  | cons e rest ih =>
    have lt : e.1 < key := later e List.mem_cons_self
    have notBefore : ¬ key < e.1 := fun gt => String.lt_irrefl _ (String.lt_trans lt gt)
    rw [insertEntry, if_neg notBefore, if_pos lt, ih fun x hx => later x (List.mem_cons_of_mem _ hx)]
    rfl

/-- Entries that are written in the order of their keys come one after another. -/
theorem foldl_insert (m : TextMap α) (es : List (String × α))
    (ordered : (m.entries ++ es).Pairwise fun a b => a.1 < b.1) :
    (es.foldl (fun m e => m.insert e.1 e.2) m).entries = m.entries ++ es := by
  induction es generalizing m with
  | nil => exact (List.append_nil _).symm
  | cons e rest ih =>
    have before : ∀ x ∈ m.entries, x.1 < e.1 := fun x hx =>
      (List.pairwise_append.1 ordered).2.2 x hx e List.mem_cons_self
    have entries : (m.insert e.1 e.2).entries = m.entries ++ [e] := insertEntry_last before
    rw [List.foldl_cons, ih, entries, List.append_assoc, List.singleton_append]
    rwa [entries, List.append_assoc, List.singleton_append]

theorem ofList_ordered {es : List (String × α)} (ordered : es.Pairwise fun a b => a.1 < b.1) :
    ofList es = ⟨es, ordered⟩ := by
  have entries : (ofList es).entries = es := foldl_insert empty es ordered
  cases eq : ofList es
  rw [eq] at entries
  subst entries
  rfl

end TextMap

theorem mem_sortedDistinct {xs : List String} {x : String} : x ∈ sortedDistinct xs ↔ x ∈ xs := by
  simp [sortedDistinct, TextMap.mem_keys_ofList]

theorem sortedDistinct_sorted (xs : List String) : (sortedDistinct xs).Pairwise (· < ·) :=
  List.Pairwise.map _ (fun _ _ lt => lt) (TextMap.ofList (xs.map (·, ()))).ordered

theorem sortedDistinct_congr {xs ys : List String} (same : ∀ x, x ∈ xs ↔ x ∈ ys) :
    sortedDistinct xs = sortedDistinct ys := by
  have members : ∀ x, x ∈ sortedDistinct xs ↔ x ∈ sortedDistinct ys := fun x => by
    rw [mem_sortedDistinct, mem_sortedDistinct, same]
  have distinct : ∀ zs : List String, (sortedDistinct zs).Nodup := fun zs =>
    (sortedDistinct_sorted zs).imp fun lt => String.ne_of_lt lt
  have perm := (List.perm_ext_iff_of_nodup (distinct xs) (distinct ys)).2 members
  refine perm.eq_of_pairwise (fun a b _ _ lt gt => ?_) (sortedDistinct_sorted xs) (sortedDistinct_sorted ys)
  exact absurd (String.lt_trans lt gt) (String.lt_irrefl a)

end TreeStore
