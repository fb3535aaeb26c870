import Mathlib.Data.List.TakeWhile
import TreeStore.Proofs.Outcome
import TreeStore.Xml.Tag

/-! What the inside of a tag is read as: the grammar of attributes, and which of them a tag has. -/

namespace TreeStore.Xml

/-- An attribute as it is written: its key, and what stands between its quotes. -/
structure Written where
  key : String
  value : List Char

def Blank (gap : List Char) : Prop := ∀ c ∈ gap, isSpace c = true

/-- The ways to write attributes one after another, with any blanks before keys, equals signs and quotes. A key ends at
its equals sign, a value at the next quote of its own. -/
inductive Spells : List Char → List Written → Prop
  | none {gap : List Char} (blank : Blank gap) : Spells gap []
  | some {gap key before after value rest : List Char} {first quote : Char} {later : List Written}
    (blank : Blank gap ∧ Blank before ∧ Blank after) (start : isSpace first = false)
    (plain : ∀ c ∈ key, c ≠ '=' ∧ isSpace c = false) (mark : quote = '"' ∨ quote = '\'') (closes : quote ∉ value)
    (further : Spells rest later) :
    Spells (gap ++ first :: (key ++ (before ++ '=' :: (after ++ quote :: (value ++ quote :: rest)))))
      (⟨String.ofList (first :: key), value⟩ :: later)

def Written.Reads (w : Written) (a : String × String) : Prop :=
  a.1 = w.key ∧ Reference.decode w.value = some a.2

/-- A tag is its name, then attributes with keys of their own. It has those that declare no name spaces. -/
def Tag.Spelled (s : List Char) (tag : Tag) : Prop :=
  ∃ rest written, s = tag.name.toList ++ rest ∧ (∀ c ∈ tag.name.toList, isSpace c = false) ∧
    (∀ c ∈ rest.head?, isSpace c = true) ∧ Spells rest written ∧ (written.map (·.key)).Nodup ∧
    List.Forall₂ Written.Reads (written.filter fun w => !Tag.declaresSpace w.key) tag.attributes

namespace Tag

variable {tag : String} {p : Progress} {as : List (String × String)}

/-- Characters at which only what is collected changes. -/
theorem readAttributes_append {m : List Char → Mode} {keeps : Char → Bool} {cs : List Char}
    (stay : ∀ run c, keeps c = true → step tag p (m run) c = .ok (p, m (c :: run)))
    (kept : ∀ c ∈ cs, keeps c = true) (run rest : List Char) :
    readAttributes tag p (m run) (cs ++ rest) = readAttributes tag p (m (cs.reverse ++ run)) rest := by
  induction cs generalizing run with
  | nil => rfl
  | cons c cs ih =>
    rw [List.cons_append, readAttributes, stay run c (kept c List.mem_cons_self), ok_bind]
    refine (ih (fun x mem => kept x (List.mem_cons_of_mem _ mem)) (c :: run)).trans ?_
    rw [List.reverse_cons, List.append_assoc, List.singleton_append]

/-- Attributes are not read to their end in a mode other than the first, unless a character comes that the mode does
not stay at. -/
theorem readAttributes_split {m : List Char → Mode} {keeps : Char → Bool} {s : List Char}
    (stay : ∀ run c, keeps c = true → step tag p (m run) c = .ok (p, m (c :: run))) (run : List Char)
    (read : readAttributes tag p (m run) s = .ok as) :
    (∀ c ∈ s, keeps c = true) ∧ readAttributes tag p (m (s.reverse ++ run)) [] = .ok as ∨
    ∃ cs c rest, s = cs ++ c :: rest ∧ (∀ x ∈ cs, keeps x = true) ∧ keeps c = false ∧
      readAttributes tag p (m (cs.reverse ++ run)) (c :: rest) = .ok as := by
  induction s generalizing run with
  | nil => exact .inl ⟨List.forall_mem_nil _, read⟩
  | cons c rest ih =>
    cases kept : keeps c with
    | false => exact .inr ⟨[], c, rest, rfl, List.forall_mem_nil _, kept, read⟩
    | true =>
      rw [readAttributes, stay run c kept, ok_bind] at read
      rcases ih (c :: run) read with ⟨all, ended⟩ | ⟨cs, d, rest, rfl, all, stops, later⟩
      · exact .inl ⟨List.forall_mem_cons.2 ⟨kept, all⟩, by simpa using ended⟩
      · exact .inr ⟨c :: cs, d, rest, rfl, List.forall_mem_cons.2 ⟨kept, all⟩, stops, by simpa using later⟩

/-! ### One mode after another -/

theorem stays_between (run : List Char) (c : Char) (blank : isSpace c = true) :
    step tag p ((fun _ => .between) run) c = .ok (p, .between) := by
  simp [step, blank]

theorem stays_key (run : List Char) (c : Char) (plain : (c != '=' && !isSpace c) = true) :
    step tag p (.key run) c = .ok (p, .key (c :: run)) := by
  simp_all [step]

theorem stays_afterKey (key : String) (run : List Char) (c : Char) (blank : isSpace c = true) :
    step tag p ((fun _ => .afterKey key) run) c = .ok (p, .afterKey key) := by
  simp [step, blank]

theorem stays_afterEquals (key : String) (run : List Char) (c : Char) (blank : isSpace c = true) :
    step tag p ((fun _ => .afterEquals key) run) c = .ok (p, .afterEquals key) := by
  simp [step, blank]

theorem stays_value (key : String) (quote : Char) (run : List Char) (c : Char) (other : (c != quote) = true) :
    step tag p (.value key quote run) c = .ok (p, .value key quote (c :: run)) := by
  simp_all [step]

theorem between_eq_ok {s : List Char} : readAttributes tag p .between s = .ok as ↔
    Blank s ∧ p.attributes.reverse = as ∨ ∃ gap c rest, s = gap ++ c :: rest ∧ Blank gap ∧ isSpace c = false ∧
      readAttributes tag p (.key [c]) rest = .ok as := by
  constructor
  · intro read
    rcases readAttributes_split stays_between [] read with ⟨all, ended⟩ | ⟨gap, c, rest, rfl, all, start, later⟩
    · exact .inl ⟨all, Except.ok.inj ended⟩
    · refine .inr ⟨gap, c, rest, rfl, all, start, ?_⟩
      simpa [readAttributes, step, start] using later
  · rintro (⟨all, rfl⟩ | ⟨gap, c, rest, rfl, all, start, later⟩)
    · simpa [readAttributes] using readAttributes_append stays_between all [] []
    · rw [readAttributes_append stays_between all []]
      simpa [readAttributes, step, start] using later

theorem endKey_eq_ok {key : String} {r : Progress × Mode} : endKey tag key p = .ok r ↔
    key ∉ p.keys ∧ r = ({ p with keys := key :: p.keys }, .afterEquals key) := by
  unfold endKey
  by_cases old : key ∈ p.keys <;> simp [old, eq_comm]

theorem afterKey_eq_ok {key : String} {s : List Char} : readAttributes tag p (.afterKey key) s = .ok as ↔
    ∃ before rest, s = before ++ '=' :: rest ∧ Blank before ∧ key ∉ p.keys ∧
      readAttributes tag { p with keys := key :: p.keys } (.afterEquals key) rest = .ok as := by
  constructor
  · intro read
    rcases readAttributes_split (stays_afterKey key) [] read with ⟨_, ended⟩ | ⟨gap, c, rest, rfl, all, stop, later⟩
    · cases ended
    · rw [readAttributes, bind_eq_ok] at later
      obtain ⟨r, stepped, later⟩ := later
      simp only [step, stop, Bool.false_eq_true, if_false] at stepped
      split at stepped
      · next equals =>
        subst equals
        obtain ⟨new, rfl⟩ := endKey_eq_ok.1 stepped
        exact ⟨gap, rest, rfl, all, new, later⟩
      · cases stepped
  · rintro ⟨before, rest, rfl, all, new, later⟩
    rw [readAttributes_append (stays_afterKey key) all [], readAttributes, bind_eq_ok]
    exact ⟨_, endKey_eq_ok.2 ⟨new, rfl⟩, later⟩

theorem key_eq_ok {run s : List Char} : readAttributes tag p (.key run) s = .ok as ↔
    ∃ key before rest, s = key ++ (before ++ '=' :: rest) ∧ (∀ c ∈ key, c ≠ '=' ∧ isSpace c = false) ∧ Blank before ∧
      String.ofList (run.reverse ++ key) ∉ p.keys ∧
      readAttributes tag { p with keys := String.ofList (run.reverse ++ key) :: p.keys }
        (.afterEquals (String.ofList (run.reverse ++ key))) rest = .ok as := by
  have plain : ∀ {key : List Char}, (∀ c ∈ key, (c != '=' && !isSpace c) = true) ↔
      ∀ c ∈ key, c ≠ '=' ∧ isSpace c = false := by simp
  constructor
  · intro read
    rcases readAttributes_split stays_key run read with ⟨_, ended⟩ | ⟨key, c, rest, rfl, all, stop, later⟩
    · cases ended
    · have whole : (key.reverse ++ run).reverse = run.reverse ++ key := by simp
      rw [readAttributes, bind_eq_ok] at later
      obtain ⟨r, stepped, later⟩ := later
      simp only [step, whole] at stepped
      by_cases equals : c = '='
      · subst equals
        obtain ⟨new, rfl⟩ := endKey_eq_ok.1 ((if_pos rfl).symm.trans stepped)
        exact ⟨key, [], rest, rfl, plain.1 all, List.forall_mem_nil _, new, later⟩
      · -- The key has ended at a blank; the equals sign is still to come.
        have blank : isSpace c = true := by simpa [equals] using stop
        rw [if_neg equals, if_pos blank] at stepped
        cases stepped
        obtain ⟨before, rest, rfl, gap, new, later⟩ := afterKey_eq_ok.1 later
        exact ⟨key, c :: before, rest, rfl, plain.1 all, List.forall_mem_cons.2 ⟨blank, gap⟩, new, later⟩
  · rintro ⟨key, before, rest, rfl, all, gap, new, later⟩
    have whole : (key.reverse ++ run).reverse = run.reverse ++ key := by simp
    rw [readAttributes_append stays_key (plain.2 all)]
    cases before with
    | nil =>
      rw [List.nil_append, readAttributes, bind_eq_ok]
      refine ⟨(_, _), ?_, later⟩
      rw [step, if_pos rfl, whole]
      exact endKey_eq_ok.2 ⟨new, rfl⟩
    | cons c before =>
      obtain ⟨blank, gap⟩ := List.forall_mem_cons.1 gap
      have other : c ≠ '=' := by rintro rfl; exact absurd blank (by decide)
      rw [List.cons_append, readAttributes, bind_eq_ok]
      refine ⟨_, (if_neg other).trans (if_pos blank), ?_⟩
      rw [whole]
      exact afterKey_eq_ok.2 ⟨before, rest, rfl, gap, new, later⟩

theorem afterEquals_eq_ok {key : String} {s : List Char} : readAttributes tag p (.afterEquals key) s = .ok as ↔
    ∃ after quote rest, s = after ++ quote :: rest ∧ Blank after ∧ (quote = '"' ∨ quote = '\'') ∧
      readAttributes tag p (.value key quote []) rest = .ok as := by
  constructor
  · intro read
    rcases readAttributes_split (stays_afterEquals key) [] read with
      ⟨_, ended⟩ | ⟨after, c, rest, rfl, all, stop, later⟩
    · cases ended
    · rw [readAttributes, bind_eq_ok] at later
      obtain ⟨r, stepped, later⟩ := later
      simp only [step, stop, Bool.false_eq_true, if_false] at stepped
      split at stepped
      · next mark =>
        cases stepped
        exact ⟨after, c, rest, rfl, all, mark, later⟩
      · cases stepped
  · rintro ⟨after, quote, rest, rfl, all, mark, later⟩
    have stop : isSpace quote = false := by rcases mark with rfl | rfl <;> rfl
    rw [readAttributes_append (stays_afterEquals key) all [], readAttributes, bind_eq_ok]
    refine ⟨(p, .value key quote []), ?_, later⟩
    simp only [step, stop, Bool.false_eq_true, if_false, if_pos mark]

theorem value_eq_ok {key : String} {quote : Char} {run s : List Char} :
    readAttributes tag p (.value key quote run) s = .ok as ↔ ∃ value rest q, s = value ++ quote :: rest ∧
      quote ∉ value ∧ endValue tag key (run.reverse ++ value) p = .ok q ∧
      readAttributes tag q .between rest = .ok as := by
  have outside : ∀ {value : List Char}, (∀ c ∈ value, (c != quote) = true) ↔ quote ∉ value := fun {value} => by
    simp only [bne_iff_ne]
    exact ⟨fun all mem => all quote mem rfl, fun out c mem same => out (same ▸ mem)⟩
  constructor
  · intro read
    rcases readAttributes_split (stays_value key quote) run read with
      ⟨_, ended⟩ | ⟨value, c, rest, rfl, all, stop, later⟩
    · cases ended
    · obtain rfl : c = quote := by simpa using stop
      simp only [readAttributes, step, if_pos, bind_eq_ok] at later
      obtain ⟨_, ⟨q, ended, ⟨⟩⟩, later⟩ := later
      exact ⟨value, rest, q, rfl, outside.1 all, by simpa using ended, later⟩
  · rintro ⟨value, rest, q, rfl, out, ended, later⟩
    rw [readAttributes_append (stays_value key quote) (outside.2 out), readAttributes, bind_eq_ok]
    refine ⟨(q, .between), ?_, later⟩
    simp only [step, if_pos, List.reverse_append, List.reverse_reverse, ended]
    rfl

theorem endValue_eq_ok {key : String} {written : List Char} {q : Progress} : endValue tag key written p = .ok q ↔
    declaresSpace key = true ∧ q = p ∨ declaresSpace key = false ∧ ∃ a : String × String,
      Written.Reads ⟨key, written⟩ a ∧ q = { p with attributes := a :: p.attributes } := by
  unfold endValue
  cases declaresSpace key with
  | true => simp [eq_comm]
  | false =>
    cases text : Reference.decode written with
    | none => simp [Written.Reads, text]
    | some v =>
      constructor
      · intro ended
        cases ended
        exact .inr ⟨rfl, (key, v), ⟨rfl, text⟩, rfl⟩
      · rintro (⟨⟨⟩, _⟩ | ⟨_, ⟨_, _⟩, ⟨rfl, same⟩, rfl⟩)
        cases text.symm.trans same
        rfl

/-! ### Attributes -/

structure Adds (written : List Written) (p : Progress) (as : List (String × String)) : Prop where
  nodup : (written.map (·.key)).Nodup
  new : ∀ w ∈ written, w.key ∉ p.keys
  read : ∃ more, List.Forall₂ Written.Reads (written.filter fun w => !declaresSpace w.key) more ∧
    as = p.attributes.reverse ++ more

theorem adds_nil : Adds [] p as ↔ p.attributes.reverse = as := by
  constructor
  · rintro ⟨_, _, more, none, rfl⟩
    cases none
    rw [List.append_nil]
  · rintro rfl
    exact ⟨.nil, List.forall_mem_nil _, [], .nil, (List.append_nil _).symm⟩

theorem adds_cons (tag : String) {key : String} {value : List Char} {later : List Written} :
    Adds (⟨key, value⟩ :: later) p as ↔
      key ∉ p.keys ∧ ∃ q, endValue tag key value { p with keys := key :: p.keys } = .ok q ∧ Adds later q as := by
  have keys : (∀ w ∈ later, w.key ∉ key :: p.keys) ↔ key ∉ later.map (·.key) ∧ ∀ w ∈ later, w.key ∉ p.keys := by
    simp only [List.mem_cons, not_or, List.mem_map, not_exists, not_and]
    grind
  simp only [endValue_eq_ok]
  constructor
  · rintro ⟨nodup, new, more, read, rfl⟩
    rw [List.map_cons, List.nodup_cons] at nodup
    obtain ⟨own, new⟩ := List.forall_mem_cons.1 new
    refine ⟨own, ?_⟩
    cases declares : declaresSpace key with
    | true =>
      rw [List.filter_cons_of_neg (by simp [declares])] at read
      exact ⟨_, .inl ⟨rfl, rfl⟩, nodup.2, keys.2 ⟨nodup.1, new⟩, more, read, rfl⟩
    | false =>
      rw [List.filter_cons_of_pos (by simp [declares])] at read
      cases read with
      | cons first read =>
        refine ⟨_, .inr ⟨rfl, _, first, rfl⟩, nodup.2, keys.2 ⟨nodup.1, new⟩, _, read, ?_⟩
        simp
  · rintro ⟨own, q, ended, nodup, new, more, read, rfl⟩
    rcases ended with ⟨declares, rfl⟩ | ⟨declares, a, first, rfl⟩
    · obtain ⟨other, new⟩ := keys.1 new
      refine ⟨List.nodup_cons.2 ⟨other, nodup⟩, List.forall_mem_cons.2 ⟨own, new⟩, more, ?_, rfl⟩
      rwa [List.filter_cons_of_neg (by simp [declares])]
    · obtain ⟨other, new⟩ := keys.1 new
      refine ⟨List.nodup_cons.2 ⟨other, nodup⟩, List.forall_mem_cons.2 ⟨own, new⟩, a :: more, ?_, by simp⟩
      rw [List.filter_cons_of_pos (by simp [declares])]
      exact .cons first read

theorem readAttributes_spells {s : List Char} {written : List Written} (spells : Spells s written) :
    ∀ p, Adds written p as → readAttributes tag p .between s = .ok as := by
  induction spells with
  | none blank => exact fun p adds => between_eq_ok.2 (.inl ⟨blank, adds_nil.1 adds⟩)
  | @some gap key before after value rest first quote later blank start plain mark closes further ih =>
    intro p adds
    obtain ⟨new, q, ended, adds⟩ := (adds_cons tag).1 adds
    refine between_eq_ok.2 (.inr ⟨gap, first, _, rfl, blank.1, start, ?_⟩)
    refine key_eq_ok.2 ⟨key, before, _, rfl, plain, blank.2.1, new, ?_⟩
    refine afterEquals_eq_ok.2 ⟨after, quote, _, rfl, blank.2.2, mark, ?_⟩
    exact value_eq_ok.2 ⟨value, rest, q, rfl, closes, ended, ih q adds⟩

theorem spells_of_readAttributes (s : List Char) (p : Progress) (read : readAttributes tag p .between s = .ok as) :
    ∃ written, Spells s written ∧ Adds written p as := by
  rcases between_eq_ok.1 read with ⟨blank, none⟩ | ⟨gap, first, s₁, split, blank, start, read⟩
  · exact ⟨[], .none blank, adds_nil.2 none⟩
  · obtain ⟨key, before, s₂, rfl, plain, blank', new, read⟩ := key_eq_ok.1 read
    obtain ⟨after, quote, s₃, rfl, blank'', mark, read⟩ := afterEquals_eq_ok.1 read
    obtain ⟨value, rest, q, rfl, closes, ended, read⟩ := value_eq_ok.1 read
    have shorter : rest.length < s.length := by simp [split]; omega
    obtain ⟨later, further, adds⟩ := spells_of_readAttributes rest q read
    rw [split]
    exact ⟨_, .some ⟨blank, blank', blank''⟩ start plain mark closes further,
      (adds_cons tag).2 ⟨new, q, ended, adds⟩⟩
termination_by s.length

theorem takeWhile_eq (keeps : Char → Bool) {cs rest : List Char} (kept : ∀ c ∈ cs, keeps c = true)
    (stops : ∀ c ∈ rest.head?, keeps c = false) :
    (cs ++ rest).takeWhile keeps = cs ∧ (cs ++ rest).dropWhile keeps = rest := by
  rw [List.takeWhile_append_of_pos kept, List.dropWhile_append_of_pos kept]
  cases rest with
  | nil => simp
  | cons c rest => simp [stops c rfl]

/-- The inside of a tag is read as just the tag that is spelled there. -/
theorem ofText_eq_ok {s : List Char} {t : Tag} : ofText s = .ok t ↔ t.Spelled s := by
  have nothing : ∀ {as written}, Adds written {} as ↔ (written.map (·.key)).Nodup ∧
      List.Forall₂ Written.Reads (written.filter fun w => !declaresSpace w.key) as :=
    ⟨fun ⟨nodup, _, more, read, eq⟩ => ⟨nodup, by simpa [eq] using read⟩,
      fun ⟨nodup, read⟩ => ⟨nodup, fun _ _ => List.not_mem_nil, _, read, rfl⟩⟩
  unfold ofText
  rw [bind_eq_ok]
  constructor
  · rintro ⟨as, read, ⟨⟩⟩
    obtain ⟨written, spells, adds⟩ := spells_of_readAttributes _ _ read
    obtain ⟨nodup, read⟩ := nothing.1 adds
    refine ⟨_, written, ?_, ?_, ?_, spells, nodup, read⟩
    · simp
    · intro c mem
      rw [String.toList_ofList] at mem
      have kept := List.mem_takeWhile_imp mem
      simpa using kept
    · intro c mem
      have stops := List.head?_dropWhile_not (!isSpace ·) s
      rw [mem] at stops
      simpa using stops
  · rintro ⟨rest, written, rfl, name, space, spells, nodup, read⟩
    obtain ⟨own, others⟩ := takeWhile_eq (!isSpace ·) (fun c mem => by simp [name c mem])
      fun c mem => by simp [space c mem]
    exact ⟨t.attributes, others ▸ readAttributes_spells spells {} (nothing.2 ⟨nodup, read⟩), by rw [own]; simp; rfl⟩

/-- The keys that a tag has are different. -/
theorem Spelled.nodup {s : List Char} {t : Tag} (spelled : t.Spelled s) : (t.attributes.map (·.1)).Nodup := by
  obtain ⟨_, written, _, _, _, _, nodup, read⟩ := spelled
  have keys : t.attributes.map (·.1) = (written.filter fun w => !declaresSpace w.key).map (·.key) := by
    generalize written.filter (fun w => !declaresSpace w.key) = given, t.attributes = as at read
    induction read with
    | nil => rfl
    | cons first _ ih => rw [List.map_cons, List.map_cons, first.1, ih]
  rw [keys]
  exact (List.filter_sublist.map _).nodup nodup

end Tag

end TreeStore.Xml
