import PackageConfig.Proofs.Lock.Injectivity

/-!
A lockfile is at least as long as each text in it.

The bytes of a text stand in what a format writes of the value that holds it. A format `Shows` a
list of texts when no text of the list is longer than what is written, and this is closed under the
ways to put formats together. A lockfile of fewer than 2 ^ 64 bytes holds no text that cannot be
read back, and so its size says what has to be assumed of its texts (`ofBytes_toBytes_of_length`).
-/

namespace PackageConfig.Lock

variable {α β : Type}

namespace Format

/-- What is written of a value is at least as long as each of some texts. -/
structure Shows (f : Format α) (texts : α → List String) : Prop where
  length_le : ∀ {a s}, s ∈ texts a → (Text.utf8 s).length ≤ (f.write a).length

section Combined

variable {f : Format α} {g : Format β} {texts fewer : α → List String} {others : β → List String}

theorem Shows.mono (law : f.Shows texts) (h : ∀ a, fewer a ⊆ texts a) : f.Shows fewer :=
  ⟨fun mem => law.length_le (h _ mem)⟩

theorem shows_none (f : Format α) : f.Shows fun _ => [] :=
  ⟨fun mem => absurd mem List.not_mem_nil⟩

theorem text_shows : text.Shows fun s => [s] := by
  constructor
  intro a s mem
  cases List.mem_singleton.1 mem
  simp only [text, List.length_append]
  omega

theorem pair_shows (first : f.Shows texts) (second : g.Shows others) :
    (f.pair g).Shows fun p => texts p.1 ++ others p.2 := by
  constructor
  intro p s mem
  simp only [pair, List.length_append]
  rcases List.mem_append.1 mem with inFirst | inSecond
  · have := first.length_le inFirst
    omega
  · have := second.length_le inSecond
    omega

theorem via_shows {out : β → α} {into : α → β} (law : f.Shows texts) :
    (f.via out into).Shows fun b => texts (out b) :=
  ⟨fun mem => law.length_le mem⟩

theorem list_shows (law : f.Shows texts) : (list f).Shows fun items => items.flatMap texts := by
  constructor
  intro items s mem
  obtain ⟨item, inItems, inItem⟩ := List.mem_flatMap.1 mem
  have shown := law.length_le inItem
  have part : (f.write item).length ≤ (items.flatMap f.write).length :=
    (List.sublist_flatten_of_mem (List.mem_map_of_mem inItems)).length_le
  simp only [list, List.length_append]
  omega

end Combined

/-! ## Locks -/

theorem value_shows : value.Shows Value.texts := by
  constructor
  intro v s mem
  cases v with
  | flag on => cases mem
  | text t =>
    have shown := text_shows.length_le mem
    simp only [value, List.length_append]
    omega

theorem state_shows : state.Shows State.texts := by
  constructor
  intro st s mem
  cases st with
  | present v =>
    have shown := value_shows.length_le mem
    simp only [state, List.length_append]
    omega
  | absent cause =>
    cases cause <;>
    · have shown := text_shows.length_le mem
      simp only [state, List.length_append]
      omega

theorem pin_shows : pin.Shows fun p => [p.name, p.version] :=
  via_shows (pair_shows text_shows text_shows)

theorem lock_shows : lock.Shows Lock.texts := by
  refine (via_shows (pair_shows text_shows (pair_shows (shows_none switch)
    (pair_shows (list_shows (pair_shows text_shows state_shows))
      (pair_shows (list_shows pin_shows)
        (list_shows (pair_shows text_shows value_shows))))))).mono fun l s mem => ?_
  simpa [texts, or_assoc] using mem

end Format

/-- A lockfile of fewer than 2 ^ 64 bytes is read back unless one of its lists is too long. -/
theorem ofBytes_toBytes_of_length {lock : Lock} (size : lock.toBytes.length < 2 ^ 64)
    (short : ∀ list, lock.count list ≤ LockList.limit) : ofBytes lock.toBytes = .ok lock := by
  refine ofBytes_toBytes_of_le (fun s mem => ?_) short
  have shown := Format.lock_shows.length_le mem
  simp only [toBytes, List.length_append] at size
  unfold Text.Fits
  omega

end PackageConfig.Lock
