/-! Maps from texts, kept as entries in the order of their keys. A key occurs once; writing it again
replaces its value. -/

namespace TreeStore

/-- Entries with strictly increasing keys. -/
structure TextMap (α : Type) where
  entries : List (String × α)
  ordered : entries.Pairwise fun a b => a.1 < b.1
deriving DecidableEq

namespace TextMap

def insertEntry (key : String) (value : α) : List (String × α) → List (String × α)
  | [] => [(key, value)]
  | e :: rest =>
    if key < e.1 then (key, value) :: e :: rest
    else if e.1 < key then e :: insertEntry key value rest
    else (key, value) :: rest

theorem mem_insertEntry {key : String} {value : α} {es : List (String × α)} {x : String × α}
    (h : x ∈ insertEntry key value es) : x = (key, value) ∨ x ∈ es := by
  induction es with
  | nil => simpa [insertEntry] using h
  | cons e rest ih =>
    unfold insertEntry at h
    split at h
    · simpa using h
    · split at h
      · rcases List.mem_cons.1 h with h | h
        · exact Or.inr (h ▸ List.mem_cons_self)
        · exact (ih h).imp id (List.mem_cons_of_mem _)
      · rcases List.mem_cons.1 h with h | h
        · exact Or.inl h
        · exact Or.inr (List.mem_cons_of_mem _ h)

theorem pairwise_insertEntry {key : String} {value : α} {es : List (String × α)}
    (h : es.Pairwise fun a b => a.1 < b.1) :
    (insertEntry key value es).Pairwise fun a b => a.1 < b.1 := by
  induction es with
  | nil => simp [insertEntry]
  | cons e rest ih =>
    obtain ⟨first, tail⟩ := List.pairwise_cons.1 h
    unfold insertEntry
    split
    · next lt =>
      refine List.pairwise_cons.2 ⟨fun x hx => ?_, h⟩
      rcases List.mem_cons.1 hx with rfl | hx
      · exact lt
      · exact String.lt_trans lt (first x hx)
    · split
      · next gt =>
        refine List.pairwise_cons.2 ⟨fun x hx => ?_, ih tail⟩
        rcases mem_insertEntry hx with rfl | hx
        · exact gt
        · exact first x hx
      · next nlt ngt =>
        have same : key = e.1 := String.le_antisymm (String.not_lt.1 ngt) (String.not_lt.1 nlt)
        exact List.pairwise_cons.2 ⟨fun x hx => same ▸ first x hx, tail⟩

def empty : TextMap α := ⟨[], .nil⟩

instance : Inhabited (TextMap α) := ⟨empty⟩

def insert (m : TextMap α) (key : String) (value : α) : TextMap α :=
  ⟨insertEntry key value m.entries, pairwise_insertEntry m.ordered⟩

def ofList (es : List (String × α)) : TextMap α := es.foldl (fun m e => m.insert e.1 e.2) empty

def get? (m : TextMap α) (key : String) : Option α := m.entries.lookup key

def keys (m : TextMap α) : List String := m.entries.map (·.1)

def isEmpty (m : TextMap α) : Bool := m.entries.isEmpty

/-- Keeps the keys, and of the values those with an image. -/
def filterMap (f : α → Option β) (m : TextMap α) : TextMap β :=
  ofList (m.entries.filterMap fun e => (f e.2).map (e.1, ·))

end TextMap

def sortedDistinct (xs : List String) : List String :=
  (TextMap.ofList (xs.map (·, ()))).keys

end TreeStore
