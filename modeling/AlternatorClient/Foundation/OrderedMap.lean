import AlternatorClient.Foundation.SortedLists

/-! `std::map` under a comparator that compares a projection of the key. Keys
of equal projection are one key of the map, which keeps the spelling inserted
first. `lookup` takes the projection itself and determines the whole map. -/
namespace Foundation
variable {α κ β : Type} [LinearOrder κ]

structure OrderedMap (key : α → κ) (β : Type) where
  entries : List (α × β)
  ascending : Ascending (fun entry : α × β => key entry.1) entries

namespace OrderedMap
variable {key : α → κ}

def empty : OrderedMap key β := ⟨[], .nil⟩

/-- `map.find`, as the entry the iterator points to. It is asked by the image of a
key, which different keys may share. -/
def lookup (m : OrderedMap key β) (x : κ) : Option (α × β) :=
  m.entries.find? fun entry => key entry.1 = x

def keys (m : OrderedMap key β) : List α := m.entries.map Prod.fst

theorem lookup_key {m : OrderedMap key β} {x : κ} {entry : α × β}
    (found : m.lookup x = some entry) : key entry.1 = x := by
  simpa using List.find?_some found

theorem lookup_mem {m : OrderedMap key β} {x : κ} {entry : α × β}
    (found : m.lookup x = some entry) : entry ∈ m.entries := List.mem_of_find?_eq_some found

theorem mem_entries {m : OrderedMap key β} {entry : α × β} :
    entry ∈ m.entries ↔ m.lookup (key entry.1) = some entry := by
  constructor
  · intro member
    cases found : m.lookup (key entry.1) with
    | none =>
      have absent := List.find?_eq_none.mp found entry member
      simp at absent
    | some other =>
      rw [m.ascending.separates (lookup_mem found) member (lookup_key found)]
  · exact lookup_mem

theorem mem_keys {m : OrderedMap key β} {a : α} :
    a ∈ m.keys ↔ ∃ value, m.lookup (key a) = some (a, value) := by
  simp only [keys, List.mem_map, Prod.exists, exists_and_right, exists_eq_right, mem_entries]

theorem keys_ascending (m : OrderedMap key β) : Ascending key m.keys :=
  List.pairwise_map.mpr m.ascending

/-- A map has no content beyond what lookups return: its entries are in the order of
their keys, so two maps with the same lookups are equal. -/
theorem ext {m n : OrderedMap key β} (same : ∀ x, m.lookup x = n.lookup x) : m = n := by
  have entries : m.entries = n.entries :=
    m.ascending.ext n.ascending fun entry => by rw [mem_entries, mem_entries, same]
  cases m
  cases n
  cases entries
  rfl

def upsertEntries (key : α → κ) (a : α) (f : Option β → β) : List (α × β) → List (α × β)
  | [] => [(a, f none)]
  | (b, value) :: rest =>
    if key a < key b then (a, f none) :: (b, value) :: rest
    else if key a = key b then (b, f (some value)) :: rest
    else (b, value) :: upsertEntries key a f rest

theorem mem_upsertEntries {a : α} {f : Option β → β} {l : List (α × β)} {entry : α × β}
    (member : entry ∈ upsertEntries key a f l) :
    key entry.1 = key a ∨ entry ∈ l := by
  induction l with
  | nil => simp_all [upsertEntries]
  | cons first rest ih =>
    simp only [upsertEntries] at member
    split at member
    · rcases List.mem_cons.mp member with rfl | member
      · exact .inl rfl
      · exact .inr member
    · split at member
      · rename_i same
        rcases List.mem_cons.mp member with rfl | member
        · exact .inl same.symm
        · exact .inr (List.mem_cons_of_mem _ member)
      · rcases List.mem_cons.mp member with rfl | member
        · exact .inr List.mem_cons_self
        · exact (ih member).imp_right (List.mem_cons_of_mem _)

theorem upsertEntries_ascending {a : α} {f : Option β → β} {l : List (α × β)}
    (ascending : Ascending (fun entry => key entry.1) l) :
    Ascending (fun entry => key entry.1) (upsertEntries key a f l) := by
  induction l with
  | nil => exact List.pairwise_singleton _ _
  | cons first rest ih =>
    obtain ⟨below, tail⟩ := List.pairwise_cons.mp ascending
    simp only [upsertEntries]
    split
    · rename_i less
      refine List.pairwise_cons.mpr ⟨?_, ascending⟩
      intro entry member
      rcases List.mem_cons.mp member with rfl | member
      · exact less
      · exact less.trans (below entry member)
    · split
      · exact List.pairwise_cons.mpr ⟨below, tail⟩
      · rename_i notLess different
        refine List.pairwise_cons.mpr ⟨?_, ih tail⟩
        intro entry member
        rcases mem_upsertEntries member with same | member
        · exact lt_of_lt_of_eq (lt_of_le_of_ne (not_lt.mp notLess) (Ne.symm different)) same.symm
        · exact below entry member

/-- `operator[]`, `emplace` and `insert_or_assign`: the value becomes `f` of
the present one, and an equivalent key keeps its spelling. -/
def upsert (m : OrderedMap key β) (a : α) (f : Option β → β) : OrderedMap key β :=
  ⟨upsertEntries key a f m.entries, upsertEntries_ascending m.ascending⟩

/-- `map[key] = value`. -/
def assign (m : OrderedMap key β) (a : α) (value : β) : OrderedMap key β :=
  m.upsert a fun _ => value

def eraseIf (m : OrderedMap key β) (p : α × β → Bool) : OrderedMap key β :=
  ⟨m.entries.filter fun entry => !p entry, m.ascending.filter _⟩

/-- `erase` of a key, and of an iterator at its lookup. -/
def erase (m : OrderedMap key β) (x : κ) : OrderedMap key β :=
  m.eraseIf fun entry => key entry.1 = x

/-- Assignment through an iterator found for the key, if there is one. -/
def modify (m : OrderedMap key β) (x : κ) (f : β → β) : OrderedMap key β :=
  ⟨m.entries.map fun entry => if key entry.1 = x then (entry.1, f entry.2) else entry, by
    refine List.pairwise_map.mpr (m.ascending.imp fun {a b} less => ?_)
    have fixed : ∀ entry : α × β,
        key (if key entry.1 = x then (entry.1, f entry.2) else entry).1 = key entry.1 := by
      intro entry
      split <;> rfl
    simpa only [fixed] using less⟩

private theorem find_upsertEntries {a : α} {f : Option β → β} {l : List (α × β)}
    (ascending : Ascending (fun entry => key entry.1) l) (x : κ) :
    (upsertEntries key a f l).find? (fun entry => key entry.1 = x) =
      if x = key a then
        match l.find? (fun entry => key entry.1 = key a) with
        | none => some (a, f none)
        | some (b, value) => some (b, f (some value))
      else l.find? fun entry => key entry.1 = x := by
  induction l with
  | nil =>
    by_cases same : x = key a
    · simp [upsertEntries, same]
    · simp [upsertEntries, same, Ne.symm same]
  | cons first rest ih =>
    obtain ⟨below, tail⟩ := List.pairwise_cons.mp ascending
    have ih := ih tail
    simp only [upsertEntries]
    split
    · rename_i less
      have absent : rest.find? (fun entry => key entry.1 = key a) = none := by
        apply List.find?_eq_none.mpr
        intro entry member
        simpa using ne_of_gt (less.trans (below entry member))
      by_cases same : x = key a
      · simp [same, ne_of_gt less, absent]
      · simp [same, Ne.symm same]
    · split
      · rename_i equal
        by_cases same : x = key a
        · simp [same, equal]
        · simp [same, ← equal, Ne.symm same]
      · rename_i different
        by_cases same : x = key a
        · simp only [same, if_true] at ih ⊢
          simp [Ne.symm different, ih]
        · simp only [same, if_false] at ih ⊢
          by_cases head : key first.1 = x <;> simp [head, ih]

theorem lookup_upsert (m : OrderedMap key β) (a : α) (f : Option β → β) (x : κ) :
    (m.upsert a f).lookup x =
      if x = key a then
        match m.lookup (key a) with
        | none => some (a, f none)
        | some (b, value) => some (b, f (some value))
      else m.lookup x :=
  find_upsertEntries m.ascending x

theorem lookup_eraseIf (m : OrderedMap key β) (p : α × β → Bool) (x : κ) :
    (m.eraseIf p).lookup x = (m.lookup x).filter fun entry => !p entry := by
  cases found : m.lookup x with
  | none =>
    apply List.find?_eq_none.mpr
    intro entry member
    exact List.find?_eq_none.mp found entry (List.mem_of_mem_filter member)
  | some entry =>
    have located := lookup_key found
    by_cases dropped : p entry = true
    · simp only [Option.filter_some, dropped, Bool.not_true, Bool.false_eq_true, if_false]
      apply List.find?_eq_none.mpr
      intro other member
      obtain ⟨member, kept⟩ := List.mem_filter.mp member
      simp only [decide_eq_true_eq]
      intro same
      rw [m.ascending.separates member (lookup_mem found) (same.trans located.symm),
        dropped] at kept
      contradiction
    · simp only [Option.filter_some, dropped, Bool.not_false, if_true]
      have member : entry ∈ (m.eraseIf p).entries :=
        List.mem_filter.mpr ⟨lookup_mem found, by simp [dropped]⟩
      rw [← located]
      exact mem_entries.mp member

theorem lookup_erase (m : OrderedMap key β) (x y : κ) :
    (m.erase x).lookup y = if y = x then none else m.lookup y := by
  rw [erase, lookup_eraseIf]
  cases found : m.lookup y with
  | none => simp
  | some entry =>
    have located := lookup_key found
    by_cases same : y = x <;> simp [located, same]

theorem lookup_modify (m : OrderedMap key β) (x : κ) (f : β → β) (y : κ) :
    (m.modify x f).lookup y =
      (m.lookup y).map fun entry => if y = x then (entry.1, f entry.2) else entry := by
  have same : ∀ entry : α × β,
      key (if key entry.1 = x then (entry.1, f entry.2) else entry).1 = key entry.1 := by
    intro entry
    split <;> rfl
  simp only [lookup, modify, List.find?_map, Function.comp_def, same]
  cases found : m.entries.find? (fun entry => key entry.1 = y) with
  | none => rfl
  | some entry =>
    have located : key entry.1 = y := lookup_key found
    simp [located]

theorem lookup_assign (m : OrderedMap key β) (a : α) (value : β) (x : κ) :
    (m.assign a value).lookup x =
      if x = key a then some (((m.lookup (key a)).map Prod.fst).getD a, value) else m.lookup x := by
  rw [assign, lookup_upsert]
  cases m.lookup (key a) <;> rfl

theorem keys_modify (m : OrderedMap key β) (x : κ) (f : β → β) : (m.modify x f).keys = m.keys := by
  simp only [keys, modify, List.map_map]
  apply List.map_congr_left
  intro entry _
  simp only [Function.comp_apply]
  split <;> rfl

end OrderedMap
end Foundation
