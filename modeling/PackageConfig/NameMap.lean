/-!
Finite maps from names to values, kept in the order of the names. Whatever is
listed by name (option states, requested values, pins, variables) is one of
these, so its order never depends on how it was built.

Names are ordered by code point, which is also the order of their UTF-8 bytes.
Main statements: `get?_insert` says what an insertion does to every name, and
`ext_get?` that two maps with the same look-ups are the same map.
-/

namespace PackageConfig

/-- A map from names to values: its entries, strictly ascending by name. -/
structure NameMap (α : Type) where
  entries : List (String × α)
  ascending : entries.Pairwise fun a b => a.1 < b.1

namespace NameMap

variable {α β : Type}

instance [DecidableEq α] : DecidableEq (NameMap α) := fun m n =>
  decidable_of_iff (m.entries = n.entries) (by cases m; cases n; simp)

/-- The map without entries. -/
def empty : NameMap α := ⟨[], .nil⟩

instance : Inhabited (NameMap α) := ⟨empty⟩

/-! ## Looking up -/

/-- The value that the first entry called `name` holds. -/
def find (name : String) : List (String × α) → Option α
  | [] => none
  | (key, value) :: rest => if key = name then some value else find name rest

/-- The value under `name`, if the map has one. -/
def get? (m : NameMap α) (name : String) : Option α :=
  find name m.entries

/-- Whether the map has an entry called `name`. -/
def contains (m : NameMap α) (name : String) : Bool :=
  (m.get? name).isSome

/-- The names of the map, ascending. -/
def names (m : NameMap α) : List String :=
  m.entries.map Prod.fst

/-- The values of the map, in the order of their names. -/
def values (m : NameMap α) : List α :=
  m.entries.map Prod.snd

/-- How many names the map has. -/
def size (m : NameMap α) : Nat :=
  m.entries.length

/-- Whether the map has no name at all. -/
def isEmpty (m : NameMap α) : Bool :=
  m.entries.isEmpty

/-! ## Inserting -/

/-- Place `value` under `name` among ascending entries, replacing what stands there. -/
def place (name : String) (value : α) : List (String × α) → List (String × α)
  | [] => [(name, value)]
  | (key, old) :: rest =>
    if name < key then (name, value) :: (key, old) :: rest
    else if key = name then (name, value) :: rest
    else (key, old) :: place name value rest

theorem mem_place {name : String} {value : α} {entry : String × α}
    {entries : List (String × α)} (h : entry ∈ place name value entries) :
    entry = (name, value) ∨ entry ∈ entries := by
  induction entries with
  | nil => simpa [place] using h
  | cons head rest ih =>
    obtain ⟨key, old⟩ := head
    rw [place] at h
    split at h
    · simpa using h
    · split at h
      · rcases List.mem_cons.1 h with h | h
        · exact .inl h
        · exact .inr (List.mem_cons_of_mem _ h)
      · rcases List.mem_cons.1 h with h | h
        · exact .inr (h ▸ List.mem_cons_self)
        · exact (ih h).imp_right (List.mem_cons_of_mem _)

theorem place_ascending (name : String) (value : α) {entries : List (String × α)}
    (h : entries.Pairwise fun a b => a.1 < b.1) :
    (place name value entries).Pairwise fun a b => a.1 < b.1 := by
  induction entries with
  | nil => simp [place]
  | cons head rest ih =>
    obtain ⟨key, old⟩ := head
    obtain ⟨below, restAscending⟩ := List.pairwise_cons.1 h
    rw [place]
    split
    next lt =>
      refine List.pairwise_cons.2 ⟨fun entry mem => ?_, h⟩
      rcases List.mem_cons.1 mem with rfl | mem
      · exact lt
      · exact String.lt_trans lt (below entry mem)
    next notLt =>
      split
      next eq => subst eq; exact List.pairwise_cons.2 ⟨below, restAscending⟩
      next ne =>
        refine List.pairwise_cons.2 ⟨fun entry mem => ?_, ih restAscending⟩
        rcases mem_place mem with rfl | mem
        · exact String.not_le.1 fun le => ne (String.le_antisymm (String.not_lt.1 notLt) le)
        · exact below entry mem

/-- The map with `value` under `name`, whatever stood there before. -/
def insert (m : NameMap α) (name : String) (value : α) : NameMap α :=
  ⟨place name value m.entries, place_ascending name value m.ascending⟩

/-- The map with every entry of `overlay` laid over it. -/
def overlay (m top : NameMap α) : NameMap α :=
  top.entries.foldl (fun m entry => m.insert entry.1 entry.2) m

/-- The map of a list of pairs, of which a later one replaces an earlier one. -/
def ofList (pairs : List (String × α)) : NameMap α :=
  pairs.foldl (fun m entry => m.insert entry.1 entry.2) empty

/-! ## Changing values in place -/

theorem map_ascending (f : String × α → β) {entries : List (String × α)}
    (h : entries.Pairwise fun a b => a.1 < b.1) :
    (entries.map fun entry => (entry.1, f entry)).Pairwise fun a b => a.1 < b.1 :=
  List.pairwise_map.2 h

/-- The value under `name` changed by `f`; nothing happens if there is none. -/
def modify (m : NameMap α) (name : String) (f : α → α) : NameMap α :=
  ⟨m.entries.map fun entry => (entry.1, if entry.1 = name then f entry.2 else entry.2),
    map_ascending (fun entry => if entry.1 = name then f entry.2 else entry.2) m.ascending⟩

/-! ## What the operations do to a look-up -/

@[simp]
theorem get?_empty (name : String) : (empty : NameMap α).get? name = none := rfl

theorem find_place (name other : String) (value : α) (entries : List (String × α)) :
    find other (place name value entries) =
      if name = other then some value else find other entries := by
  induction entries with
  | nil => rfl
  | cons head rest ih =>
    obtain ⟨key, old⟩ := head
    rw [place]
    split
    · rfl
    · split
      next eq =>
        subst eq
        by_cases h : key = other <;> simp [find, h]
      next ne =>
        rw [find, find, ih]
        by_cases hk : key = other
        · have : name ≠ other := fun e => ne (hk.trans e.symm)
          simp [hk, this]
        · simp [hk]

theorem get?_insert (m : NameMap α) (name other : String) (value : α) :
    (m.insert name value).get? other = if name = other then some value else m.get? other :=
  find_place name other value m.entries

theorem find_append (name : String) (front back : List (String × α)) :
    find name (front ++ back) = (find name front).or (find name back) := by
  induction front with
  | nil => rfl
  | cons head rest ih =>
    rw [List.cons_append, find, find, ih]
    split <;> rfl

/-- Pairs that are inserted one after another leave the last value that they give a name, and what
was there under every other name. -/
theorem get?_foldl_insert (pairs : List (String × α)) (m : NameMap α) (name : String) :
    (pairs.foldl (fun m entry => m.insert entry.1 entry.2) m).get? name =
      (find name pairs.reverse).or (m.get? name) := by
  induction pairs generalizing m with
  | nil => rfl
  | cons pair rest ih =>
    have single : find name [pair] = if pair.1 = name then some pair.2 else none := rfl
    rw [List.foldl_cons, ih, get?_insert, List.reverse_cons, find_append, single, Option.or_assoc]
    split <;> rfl

/-- A map made of a list of pairs holds the last value that the list gives a name. -/
theorem get?_ofList (pairs : List (String × α)) (name : String) :
    (ofList pairs).get? name = find name pairs.reverse := by
  rw [ofList, get?_foldl_insert, get?_empty, Option.or_none]

theorem get?_modify (m : NameMap α) (name other : String) (f : α → α) :
    (m.modify name f).get? other =
      if name = other then (m.get? other).map f else m.get? other := by
  obtain ⟨entries, ascending⟩ := m
  simp only [modify, get?]
  clear ascending
  induction entries with
  | nil => simp [find]
  | cons head rest ih =>
    rw [List.map_cons, find, find, ih]
    by_cases hk : head.1 = other
    · by_cases hn : name = other
      · simp [hk, hn]
      · have : other ≠ name := fun e => hn e.symm
        simp [hk, hn, this]
    · simp [hk]

@[simp]
theorem names_modify (m : NameMap α) (name : String) (f : α → α) :
    (m.modify name f).names = m.names := by
  simp [names, modify, Function.comp_def]

theorem find_eq_some_iff {name : String} {value : α} {entries : List (String × α)}
    (h : entries.Pairwise fun a b => a.1 < b.1) :
    find name entries = some value ↔ (name, value) ∈ entries := by
  induction entries with
  | nil => simp [find]
  | cons head rest ih =>
    obtain ⟨below, restAscending⟩ := List.pairwise_cons.1 h
    rw [find]
    split
    next eq =>
      subst eq
      constructor
      · rintro ⟨⟩
        exact List.mem_cons_self
      · intro mem
        rcases List.mem_cons.1 mem with eq | mem
        · rw [← eq]
        · exact absurd (below _ mem) (String.lt_irrefl _)
    next ne =>
      rw [ih restAscending, List.mem_cons]
      constructor
      · exact .inr
      · rintro (eq | mem)
        · exact absurd (congrArg Prod.fst eq).symm ne
        · exact mem

theorem mem_of_find {name : String} {value : α} {entries : List (String × α)}
    (found : find name entries = some value) : (name, value) ∈ entries := by
  induction entries with
  | nil => cases found
  | cons head rest ih =>
    rw [find] at found
    split at found
    next same =>
      cases found
      cases same
      exact List.mem_cons_self
    next => exact List.mem_cons_of_mem _ (ih found)

theorem find_eq_none_iff {name : String} {entries : List (String × α)} :
    find name entries = none ↔ ∀ entry ∈ entries, entry.1 ≠ name := by
  induction entries with
  | nil => simp [find]
  | cons head rest ih =>
    rw [find, List.forall_mem_cons, ← ih]
    split
    next same => simp [same]
    next other => simp [other]

/-- A list that repeats no name makes the map of exactly its pairs. -/
theorem get?_ofList_eq_some_iff {pairs : List (String × α)} (nodup : (pairs.map Prod.fst).Nodup)
    {name : String} {value : α} :
    (ofList pairs).get? name = some value ↔ (name, value) ∈ pairs := by
  rw [get?_ofList, ← List.mem_reverse]
  have nodup : (pairs.reverse.map Prod.fst).Nodup := by
    rw [List.map_reverse]
    exact List.pairwise_reverse.2 (nodup.imp Ne.symm)
  generalize pairs.reverse = pairs at nodup
  refine ⟨mem_of_find, fun mem => ?_⟩
  induction pairs with
  | nil => exact absurd mem List.not_mem_nil
  | cons pair rest ih =>
    rw [List.map_cons, List.nodup_cons] at nodup
    rw [find]
    rcases List.mem_cons.1 mem with same | later
    · rw [← same, if_pos rfl]
    · have other : pair.1 ≠ name := fun same =>
        nodup.1 (same ▸ List.mem_map_of_mem later)
      rw [if_neg other]
      exact ih nodup.2 later

/-- A look-up finds exactly the entries of the map. -/
theorem get?_eq_some_iff {m : NameMap α} {name : String} {value : α} :
    m.get? name = some value ↔ (name, value) ∈ m.entries :=
  find_eq_some_iff m.ascending

theorem mem_names_iff {m : NameMap α} {name : String} :
    name ∈ m.names ↔ (m.get? name).isSome := by
  simp only [names, List.mem_map, Prod.exists, exists_and_right, exists_eq_right,
    Option.isSome_iff_exists, get?_eq_some_iff]

/-! ## Equality -/

theorem entries_ext {l r : List (String × α)} (hl : l.Pairwise fun a b => a.1 < b.1)
    (hr : r.Pairwise fun a b => a.1 < b.1) (h : ∀ entry, entry ∈ l ↔ entry ∈ r) : l = r := by
  induction l generalizing r with
  | nil =>
    cases r with
    | nil => rfl
    | cons head _ => exact absurd ((h head).2 List.mem_cons_self) List.not_mem_nil
  | cons x xs ih =>
    cases r with
    | nil => exact absurd ((h x).1 List.mem_cons_self) List.not_mem_nil
    | cons y ys =>
      obtain ⟨belowX, ascendingX⟩ := List.pairwise_cons.1 hl
      obtain ⟨belowY, ascendingY⟩ := List.pairwise_cons.1 hr
      have heads : x = y := by
        rcases List.mem_cons.1 ((h x).1 List.mem_cons_self) with eq | memX
        · exact eq
        · rcases List.mem_cons.1 ((h y).2 List.mem_cons_self) with eq | memY
          · exact eq.symm
          · exact absurd (belowY x memX) (String.lt_asymm (belowX y memY))
      subst heads
      refine congrArg _ (ih ascendingX ascendingY fun entry => ?_)
      constructor
      · intro mem
        rcases List.mem_cons.1 ((h entry).1 (List.mem_cons_of_mem _ mem)) with rfl | mem'
        · exact absurd (belowX _ mem) (String.lt_irrefl _)
        · exact mem'
      · intro mem
        rcases List.mem_cons.1 ((h entry).2 (List.mem_cons_of_mem _ mem)) with rfl | mem'
        · exact absurd (belowY _ mem) (String.lt_irrefl _)
        · exact mem'

/-- Two maps that answer every look-up alike are equal. -/
theorem ext_get? {m n : NameMap α} (h : ∀ name, m.get? name = n.get? name) : m = n := by
  obtain ⟨l, hl⟩ := m
  obtain ⟨r, hr⟩ := n
  have : l = r := entries_ext hl hr fun (name, value) => by
    rw [← find_eq_some_iff hl, ← find_eq_some_iff hr]
    exact iff_of_eq (congrArg (· = some value) (h name))
  subst this
  rfl

/-- In which order a list that repeats no name gives its pairs plays no part. -/
theorem ofList_of_perm {pairs others : List (String × α)} (nodup : (pairs.map Prod.fst).Nodup)
    (perm : pairs.Perm others) : ofList pairs = ofList others := by
  refine ext_get? fun name => Option.ext fun value => ?_
  rw [get?_ofList_eq_some_iff nodup,
    get?_ofList_eq_some_iff ((perm.map Prod.fst).nodup_iff.1 nodup), perm.mem_iff]

/-- The second of two values for one name is the one that stays. -/
theorem insert_insert (m : NameMap α) (name : String) (first second : α) :
    (m.insert name first).insert name second = m.insert name second := by
  refine ext_get? fun other => ?_
  simp only [get?_insert]
  split <;> rfl

theorem insert_comm (m : NameMap α) {name other : String} (apart : name ≠ other)
    (value otherValue : α) :
    (m.insert name value).insert other otherValue =
      (m.insert other otherValue).insert name value := by
  refine ext_get? fun asked => ?_
  simp only [get?_insert]
  by_cases here : name = asked
  · have elsewhere : other ≠ asked := fun same => apart (here.trans same.symm)
    simp only [if_pos here, if_neg elsewhere]
  · simp only [if_neg here]

theorem names_nodup (m : NameMap α) : m.names.Nodup :=
  List.pairwise_map.2 (m.ascending.imp fun lt => String.ne_of_lt lt)

/-- A map is the one that its own entries make. -/
theorem ofList_entries (m : NameMap α) : ofList m.entries = m := by
  refine ext_get? fun name => Option.ext fun value => ?_
  rw [get?_ofList_eq_some_iff m.names_nodup, get?_eq_some_iff]

/-- Under an overlay stays what the overlay says nothing about. -/
theorem get?_overlay (m top : NameMap α) (name : String) :
    (m.overlay top).get? name = (top.get? name).or (m.get? name) := by
  rw [overlay, get?_foldl_insert, ← get?_ofList, ofList_entries]

/-- A list that repeats no name makes a map with exactly its names. -/
theorem names_ofList_perm {pairs : List (String × α)} (nodup : (pairs.map Prod.fst).Nodup) :
    (ofList pairs).names.Perm (pairs.map Prod.fst) := by
  refine (List.perm_ext_iff_of_nodup (names_nodup _) nodup).2 fun name => ?_
  simp only [mem_names_iff, Option.isSome_iff_exists, get?_ofList_eq_some_iff nodup,
    List.mem_map, Prod.exists, exists_and_right, exists_eq_right]

end NameMap

end PackageConfig
