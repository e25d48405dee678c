import PackageConfig.Proofs.Options.Request
import PackageConfig.Proofs.Profile

/-!
How the arguments of a run are laid over its profile.

An argument assigns a text to an option (`Assigns`), and where the text spells a value in the domain
of the option it gives that value (`Gives`); an argument that gives nothing is rejected (`Rejects`).
All arguments are read before any of them is laid over the profile, and they are laid over it as one
map. That comes to one step for each argument, which inserts its value (`request_eq_foldlM`). So
what holds of a run of arguments is proved from what one of them does: it decides the option that it
names and leaves the others (`get?_of_lay_named`, `get?_of_lay_unnamed`).
-/

namespace PackageConfig

/-! ## What an argument says -/

/-- In front of the first `=` of an argument stands the name of an option, between blanks, and
behind it a text. -/
def Assigns (argument name raw : String) : Prop :=
  ∃ before, argument = before ++ "=" ++ raw ∧ '=' ∉ before.toList ∧
    (∃ c ∈ before.toList, Text.isBlank c = false) ∧ Text.Trims before name

/-- An argument names an option, whatever the text that it assigns to it. -/
def Names (argument name : String) : Prop :=
  ∃ raw, Assigns argument name raw

/-- A text spells a value of a domain: one of the two words of a switch, in any letter case, or a
member, both between blanks. -/
inductive Domain.Spells : Domain → String → Value → Prop
  | word {raw : String} {on : Bool}
    (spelled : Text.lowerAscii (Text.trim raw) = if on then "true" else "false") :
    Spells .boolean raw (.flag on)
  | member {members : List String} {raw word : String} (trims : Text.Trims raw word)
    (listed : word ∈ members) : Spells (.enumeration members) raw (.text word)

section Reading

variable {argument name other raw word : String} {value : Value} {d : Domain} {fault : Fault}

theorem Domain.parse?_eq_some_iff : d.parse? raw = some value ↔ d.Spells raw value := by
  cases d with
  | boolean =>
    rw [parse?_boolean_eq_some_iff]
    constructor
    · rintro ⟨⟩
      exact .word ‹_›
    · rintro ⟨⟩
      exact .word ‹_›
  | enumeration members =>
    have read : parse? (.enumeration members) raw =
        if members.contains (Text.trim raw) then some (.text (Text.trim raw)) else none := rfl
    rw [read]
    constructor
    · intro found
      split at found
      next listed =>
        cases found
        exact .member (Text.trims_trim raw) (List.contains_iff_mem.1 listed)
      next => cases found
    · intro spells
      cases spells with
      | member trims listed =>
        rw [Text.trim_eq_iff.2 trims, if_pos (List.contains_iff_mem.2 listed)]

theorem Domain.parse?_eq_none_iff : d.parse? raw = none ↔ ∀ value, ¬ d.Spells raw value := by
  rw [Option.eq_none_iff_forall_ne_some]
  simp only [ne_eq, parse?_eq_some_iff]

theorem Domain.spells_trim : d.Spells (Text.trim raw) value ↔ d.Spells raw value := by
  rw [← parse?_eq_some_iff, ← parse?_eq_some_iff, parse?_trim]

/-- A value that is spelled is acceptable, and stands for itself. -/
theorem Domain.Spells.accepts (spells : d.Spells raw value) : d.Accepts value value :=
  accepts_of_contains (contains_of_parse? (parse?_eq_some_iff.2 spells))

theorem splitArgument_eq_ok_iff :
    splitArgument argument = .ok (name, word) ↔
      ∃ raw, Assigns argument name raw ∧ Text.trim raw = word := by
  unfold splitArgument
  constructor
  · intro made
    cases found : Text.cut '=' argument with
    | none =>
      rw [found] at made
      cases made
    | some parts =>
      obtain ⟨before, raw⟩ := parts
      obtain ⟨whole, unmarked⟩ := Text.cut_eq_some_iff.1 found
      simp only [found] at made
      split at made
      next => cases made
      next solid =>
        cases made
        rw [Text.trim_eq_empty_iff] at solid
        push Not at solid
        refine ⟨raw, ⟨before, String.toList_inj.1 (by simp [whole]), unmarked, ?_,
          Text.trims_trim before⟩, rfl⟩
        simpa only [ne_eq, Bool.not_eq_true] using solid
  · rintro ⟨raw, ⟨before, rfl, unmarked, ⟨c, mem, solid⟩, trims⟩, rfl⟩
    have found : Text.cut '=' (before ++ "=" ++ raw) = some (before, raw) :=
      Text.cut_eq_some_iff.2 ⟨by simp, unmarked⟩
    have named : ¬ Text.trim before = "" := fun empty => by
      rw [Text.trim_eq_empty_iff.1 empty c mem] at solid
      cases solid
    rw [found]
    simp only [if_neg named]
    rw [Text.trim_eq_iff.2 trims]

/-- An argument that names no option is refused for its form. -/
theorem splitArgument_eq_error_iff :
    splitArgument argument = .error fault ↔
      (∀ name, ¬ Names argument name) ∧ fault = .invalidManifest (.malformedRequest argument) := by
  have unnamed : (∀ name, ¬ Names argument name) ↔ ∀ part, splitArgument argument ≠ .ok part := by
    constructor
    · rintro unnamed ⟨name, word⟩ split
      obtain ⟨raw, assigns, -⟩ := splitArgument_eq_ok_iff.1 split
      exact unnamed name ⟨raw, assigns⟩
    · rintro never name ⟨raw, assigns⟩
      exact never _ (splitArgument_eq_ok_iff.2 ⟨raw, assigns, rfl⟩)
  rw [unnamed]
  unfold splitArgument
  split
  next before raw found =>
    split <;> simp [eq_comm]
  next found => simp [eq_comm]

/-- An argument names one option at most. -/
theorem Names.unique (names : Names argument name) (others : Names argument other) :
    name = other := by
  obtain ⟨raw, assigns⟩ := names
  obtain ⟨otherRaw, otherAssigns⟩ := others
  have split := splitArgument_eq_ok_iff.2 ⟨raw, assigns, rfl⟩
  rw [splitArgument_eq_ok_iff.2 ⟨otherRaw, otherAssigns, rfl⟩] at split
  exact (congrArg Prod.fst (Except.ok.inj split)).symm

namespace Catalog

variable {c : Catalog}

theorem WellFormed.read_eq_ok_iff_spells (wf : c.WellFormed) : c.read name raw = .ok value ↔
    ∃ d ∈ c.declarations, d.name = name ∧ d.domain.Spells raw value := by
  simp only [read_eq_ok_iff, wf.find?_eq_some_iff, Domain.parse?_eq_some_iff, and_assoc]

/-- A text is not read for an option that is not declared, or whose domain has no value that it
spells. -/
theorem WellFormed.read_eq_error_iff_spells (wf : c.WellFormed) : c.read name raw = .error fault ↔
    ((∀ d ∈ c.declarations, d.name ≠ name) ∧ fault = .unknownOption name) ∨
      ∃ d ∈ c.declarations, d.name = name ∧ (∀ value, ¬ d.domain.Spells raw value) ∧
        fault = .outsideDomain name raw d.domain := by
  constructor
  · intro refused
    cases found : c.find? name with
    | none =>
      cases (read_of_unknown found raw).symm.trans refused
      exact .inl ⟨wf.find?_eq_none_iff.1 found, rfl⟩
    | some d =>
      obtain ⟨listed, called⟩ := wf.find?_eq_some_iff.1 found
      rw [read_of_find? found] at refused
      cases parsed : d.domain.parse? raw with
      | none =>
        rw [parsed] at refused
        cases refused
        exact .inr ⟨d, listed, called, Domain.parse?_eq_none_iff.1 parsed, rfl⟩
      | some value =>
        rw [parsed] at refused
        cases refused
  · rintro (⟨unlisted, rfl⟩ | ⟨d, listed, called, unspelled, rfl⟩)
    · exact read_of_unknown (wf.find?_eq_none_iff.2 unlisted) raw
    · rw [read_of_find? (wf.find?_eq_some_iff.2 ⟨listed, called⟩),
        Domain.parse?_eq_none_iff.2 unspelled]
      rfl

end Catalog

end Reading

namespace Recipe

variable {recipe : Recipe} {profile : Option Profile} {arguments front back : List String}
  {argument first second name : String} {value : Value} {fault : Fault} {request base : Request}

/-- An argument gives an option a value: the option is declared, and the text that is assigned to it
spells the value in its domain. -/
def Gives (recipe : Recipe) (argument name : String) (value : Value) : Prop :=
  ∃ raw, Assigns argument name raw ∧
    ∃ d ∈ recipe.catalog.declarations, d.name = name ∧ d.domain.Spells raw value

/-- An argument is rejected for its form, for the option that it names, or for its text. -/
inductive Rejects (recipe : Recipe) (argument : String) : Fault → Prop
  | malformed (unnamed : ∀ name, ¬ Names argument name) :
    Rejects recipe argument (.invalidManifest (.malformedRequest argument))
  | undeclared {name : String} (names : Names argument name)
    (unlisted : ∀ d ∈ recipe.catalog.declarations, d.name ≠ name) :
    Rejects recipe argument (.unknownOption name)
  | unreadable {name raw : String} {d : Declaration} (assigns : Assigns argument name raw)
    (listed : d ∈ recipe.catalog.declarations) (called : d.name = name)
    (unspelled : ∀ value, ¬ d.domain.Spells raw value) :
    Rejects recipe argument (.outsideDomain name (Text.trim raw) d.domain)

theorem Gives.names (gives : recipe.Gives argument name value) : Names argument name :=
  gives.imp fun _ both => both.1

theorem readArgument_eq_ok_iff (wf : recipe.catalog.WellFormed) :
    recipe.readArgument argument = .ok (name, value) ↔ recipe.Gives argument name value := by
  unfold readArgument Gives
  rw [Outcome.bind_eq_ok_iff]
  constructor
  · rintro ⟨⟨name, word⟩, split, ran⟩
    obtain ⟨value, read, ⟨⟩⟩ := Outcome.bind_eq_ok_iff.1 ran
    obtain ⟨raw, assigns, rfl⟩ := splitArgument_eq_ok_iff.1 split
    obtain ⟨d, listed, called, spells⟩ := wf.read_eq_ok_iff_spells.1 read
    exact ⟨raw, assigns, d, listed, called, Domain.spells_trim.1 spells⟩
  · rintro ⟨raw, assigns, d, listed, called, spells⟩
    have read : recipe.catalog.read name (Text.trim raw) = .ok value :=
      wf.read_eq_ok_iff_spells.2 ⟨d, listed, called, Domain.spells_trim.2 spells⟩
    exact ⟨(name, Text.trim raw), splitArgument_eq_ok_iff.2 ⟨raw, assigns, rfl⟩,
      Outcome.bind_eq_ok_iff.2 ⟨value, read, rfl⟩⟩

theorem readArgument_eq_error_iff (wf : recipe.catalog.WellFormed) :
    recipe.readArgument argument = .error fault ↔ recipe.Rejects argument fault := by
  unfold readArgument
  rw [Outcome.bind_eq_error_iff]
  constructor
  · rintro (malformed | ⟨⟨name, word⟩, split, ran⟩)
    · obtain ⟨unnamed, rfl⟩ := splitArgument_eq_error_iff.1 malformed
      exact .malformed unnamed
    · obtain ⟨raw, assigns, rfl⟩ := splitArgument_eq_ok_iff.1 split
      rcases Outcome.bind_eq_error_iff.1 ran with refused | ⟨value, -, ⟨⟩⟩
      rcases wf.read_eq_error_iff_spells.1 refused with
        ⟨unlisted, rfl⟩ | ⟨d, listed, called, unspelled, rfl⟩
      · exact .undeclared ⟨raw, assigns⟩ unlisted
      · simp only [Domain.spells_trim] at unspelled
        exact .unreadable assigns listed called unspelled
  · intro rejects
    cases rejects with
    | malformed unnamed => exact .inl (splitArgument_eq_error_iff.2 ⟨unnamed, rfl⟩)
    | @undeclared name names unlisted =>
      obtain ⟨raw, assigns⟩ := names
      refine .inr ⟨_, splitArgument_eq_ok_iff.2 ⟨raw, assigns, rfl⟩, ?_⟩
      exact Outcome.bind_eq_error_iff.2
        (.inl (wf.read_eq_error_iff_spells.2 (.inl ⟨unlisted, rfl⟩)))
    | @unreadable name raw d assigns listed called unspelled =>
      refine .inr ⟨_, splitArgument_eq_ok_iff.2 ⟨raw, assigns, rfl⟩, ?_⟩
      have trimmed : ∀ value, ¬ d.domain.Spells (Text.trim raw) value := fun value spells =>
        unspelled value (Domain.spells_trim.1 spells)
      exact Outcome.bind_eq_error_iff.2
        (.inl (wf.read_eq_error_iff_spells.2 (.inr ⟨d, listed, called, trimmed, rfl⟩)))

/-! ## One argument after another -/

/-- What the options of a profile ask for; without a profile they ask for nothing. -/
def saved (profile : Option Profile) : Request :=
  (profile.map Profile.options).getD .empty

theorem get?_saved (profile : Option Profile) (name : String) :
    (saved profile).get? name = profile.bind fun saved => saved.options.get? name := by
  cases profile <;> rfl

/-- One argument laid over a request. -/
def lay (recipe : Recipe) (base : Request) (argument : String) : Except Fault Request := do
  let (name, value) ← recipe.readArgument argument
  return base.insert name value

theorem lay_of_read (read : recipe.readArgument argument = .ok (name, value)) :
    recipe.lay base argument = .ok (base.insert name value) := by
  rw [lay, read]
  rfl

theorem lay_of_refused (refused : recipe.readArgument argument = .error fault) :
    recipe.lay base argument = .error fault := by
  rw [lay, refused]
  rfl

/-- To read all arguments and lay them over the profile as one map comes to laying them over it one
after another. -/
theorem request_eq_foldlM :
    recipe.request profile arguments = arguments.foldlM recipe.lay (saved profile) := by
  have steps : ∀ base : Request,
      (arguments.mapM recipe.readArgument).map
        (fun given => given.foldl (fun m entry => m.insert entry.1 entry.2) base) =
      arguments.foldlM recipe.lay base := by
    induction arguments with
    | nil => exact fun base => rfl
    | cons argument rest ih =>
      intro base
      rw [List.mapM_cons, List.foldlM_cons]
      cases read : recipe.readArgument argument with
      | error fault =>
        rw [lay_of_refused read]
        rfl
      | ok entry =>
        rw [lay_of_read read]
        refine Eq.trans ?_ (ih (base.insert entry.1 entry.2))
        cases rest.mapM recipe.readArgument <;> rfl
  have onto : ∀ given : List (String × Value), (saved profile).overlay (.ofList given) =
      given.foldl (fun m entry => m.insert entry.1 entry.2) (saved profile) := fun given =>
    NameMap.ext_get? fun name => by
      rw [NameMap.get?_overlay, NameMap.get?_foldl_insert, NameMap.get?_ofList]
  rw [← steps, request]
  cases arguments.mapM recipe.readArgument with
  | error fault => rfl
  | ok given => exact congrArg Except.ok (onto given)

theorem request_eq_error_iff :
    recipe.request profile arguments = .error fault ↔
      arguments.mapM recipe.readArgument = .error fault := by
  unfold request
  cases arguments.mapM recipe.readArgument <;> simp [bind, Except.bind, pure, Except.pure]

theorem exists_request_iff :
    (∃ request, recipe.request profile arguments = .ok request) ↔
      ∃ given, arguments.mapM recipe.readArgument = .ok given := by
  unfold request
  cases arguments.mapM recipe.readArgument <;> simp [bind, Except.bind, pure, Except.pure]

/-- An argument that is laid over a request decides the option that it names. -/
theorem get?_of_lay_named (wf : recipe.catalog.WellFormed)
    (gives : recipe.Gives argument name value) (laid : recipe.lay base argument = .ok request) :
    request.get? name = some value := by
  rw [lay_of_read ((readArgument_eq_ok_iff wf).2 gives)] at laid
  cases laid
  rw [NameMap.get?_insert, if_pos rfl]

/-- Under any other name it leaves what is there. -/
theorem get?_of_lay_unnamed (wf : recipe.catalog.WellFormed) (unnamed : ¬ Names argument name)
    (laid : recipe.lay base argument = .ok request) : request.get? name = base.get? name := by
  obtain ⟨⟨other, value⟩, read, ⟨⟩⟩ := Outcome.bind_eq_ok_iff.1 laid
  have apart : other ≠ name := fun same =>
    unnamed (same ▸ ((readArgument_eq_ok_iff wf).1 read).names)
  rw [NameMap.get?_insert, if_neg apart]

/-- A run of arguments leaves what is under a name that none of them names. -/
theorem get?_of_run_unnamed (wf : recipe.catalog.WellFormed)
    (unnamed : ∀ argument ∈ arguments, ¬ Names argument name)
    (ran : arguments.foldlM recipe.lay base = .ok request) :
    request.get? name = base.get? name := by
  induction arguments generalizing base with
  | nil =>
    cases ran
    rfl
  | cons argument rest ih =>
    obtain ⟨here, after⟩ := List.forall_mem_cons.1 unnamed
    obtain ⟨middle, laid, ran⟩ := Outcome.bind_eq_ok_iff.1 ran
    rw [ih after ran, get?_of_lay_unnamed wf here laid]

/-- The last argument of a run that names an option decides it. -/
theorem get?_of_run_named (wf : recipe.catalog.WellFormed)
    (gives : recipe.Gives argument name value) (last : ∀ later ∈ back, ¬ Names later name)
    (ran : (front ++ argument :: back).foldlM recipe.lay base = .ok request) :
    request.get? name = some value := by
  rw [List.foldlM_append] at ran
  obtain ⟨before, -, ran⟩ := Outcome.bind_eq_ok_iff.1 ran
  obtain ⟨after, laid, ran⟩ := Outcome.bind_eq_ok_iff.1 ran
  rw [get?_of_run_unnamed wf last ran, get?_of_lay_named wf gives laid]

/-- What a run leaves under a name was there, and no argument names it, or else an argument gives
it. -/
theorem origin_of_run (wf : recipe.catalog.WellFormed)
    (ran : arguments.foldlM recipe.lay base = .ok request) (held : request.get? name = some value) :
    ((∀ argument ∈ arguments, ¬ Names argument name) ∧ base.get? name = some value) ∨
      ∃ argument ∈ arguments, recipe.Gives argument name value := by
  induction arguments generalizing base with
  | nil =>
    cases ran
    exact .inl ⟨by simp, held⟩
  | cons argument rest ih =>
    obtain ⟨middle, laid, ran⟩ := Outcome.bind_eq_ok_iff.1 ran
    rcases ih ran with ⟨after, stood⟩ | ⟨later, mem, gives⟩
    · by_cases here : Names argument name
      · obtain ⟨⟨other, given⟩, read, ⟨⟩⟩ := Outcome.bind_eq_ok_iff.1 laid
        have gives := (readArgument_eq_ok_iff wf).1 read
        cases here.unique gives.names
        rw [NameMap.get?_insert, if_pos rfl] at stood
        cases stood
        exact .inr ⟨argument, List.mem_cons_self, gives⟩
      · rw [get?_of_lay_unnamed wf here laid] at stood
        exact .inl ⟨List.forall_mem_cons.2 ⟨here, after⟩, stood⟩
    · exact .inr ⟨later, List.mem_cons_of_mem _ mem, gives⟩

/-! ## Changing the arguments -/

/-- Two arguments for different options may be laid in either order, unless both are rejected. -/
theorem lay_comm (wf : recipe.catalog.WellFormed)
    (apart : ∀ name, ¬ (Names first name ∧ Names second name))
    (good : (∃ name value, recipe.Gives first name value) ∨
      ∃ name value, recipe.Gives second name value) :
    (recipe.lay base first >>= fun laid => recipe.lay laid second) =
      (recipe.lay base second >>= fun laid => recipe.lay laid first) := by
  cases readFirst : recipe.readArgument first with
  | error fault =>
    cases readSecond : recipe.readArgument second with
    | error otherFault =>
      simp only [← readArgument_eq_ok_iff wf, readFirst, readSecond] at good
      rcases good with ⟨name, value, read⟩ | ⟨name, value, read⟩
      · cases read
      · cases read
    | ok entry =>
      rw [lay_of_refused readFirst, lay_of_read readSecond]
      exact (lay_of_refused readFirst).symm
  | ok entry =>
    cases readSecond : recipe.readArgument second with
    | error fault =>
      rw [lay_of_refused readSecond, lay_of_read readFirst]
      exact lay_of_refused readSecond
    | ok otherEntry =>
      have different : entry.1 ≠ otherEntry.1 := fun same =>
        apart entry.1 ⟨((readArgument_eq_ok_iff wf).1 readFirst).names,
          same ▸ ((readArgument_eq_ok_iff wf).1 readSecond).names⟩
      rw [lay_of_read readFirst, lay_of_read readSecond]
      refine (lay_of_read readSecond).trans ((congrArg Except.ok ?_).trans
        (lay_of_read readFirst).symm)
      exact NameMap.insert_comm base different _ _

/-- What stands under a name when a run begins makes no difference to it if one of its arguments
names that option. -/
theorem run_insert_of_named (wf : recipe.catalog.WellFormed)
    (named : ∃ argument ∈ arguments, Names argument name) :
    arguments.foldlM recipe.lay (base.insert name value) = arguments.foldlM recipe.lay base := by
  induction arguments generalizing base with
  | nil => simp at named
  | cons argument rest ih =>
    rw [List.foldlM_cons, List.foldlM_cons]
    cases read : recipe.readArgument argument with
    | error fault => rw [lay_of_refused read, lay_of_refused read]
    | ok entry =>
      obtain ⟨other, given⟩ := entry
      rw [lay_of_read read, lay_of_read read]
      have names : Names argument other := ((readArgument_eq_ok_iff wf).1 read).names
      by_cases same : name = other
      · subst same
        rw [NameMap.insert_insert]
      · have after : ∃ later ∈ rest, Names later name := by
          obtain ⟨later, mem, naming⟩ := named
          rcases List.mem_cons.1 mem with rfl | mem
          · exact absurd (naming.unique names) same
          · exact ⟨later, mem, naming⟩
        rw [NameMap.insert_comm base same]
        exact ih after

/-! ## The request of a run -/

/-- The fault of the first argument that is rejected; the arguments before it all give a value. -/
def FirstRejected (recipe : Recipe) (arguments : List String) (fault : Fault) : Prop :=
  ∃ front bad back, arguments = front ++ bad :: back ∧
    (∀ argument ∈ front, ∃ name value, recipe.Gives argument name value) ∧
    recipe.Rejects bad fault

/-- A request holds, for each option, what the last argument that names it gives, and what the
profile asks for if no argument does. -/
structure Layers (recipe : Recipe) (profile : Option Profile) (arguments : List String)
    (request : Request) : Prop where
  given : ∀ front argument back name value, arguments = front ++ argument :: back →
    recipe.Gives argument name value → (∀ later ∈ back, ¬ Names later name) →
      request.get? name = some value
  kept : ∀ name, (∀ argument ∈ arguments, ¬ Names argument name) →
    request.get? name = profile.bind fun saved => saved.options.get? name

theorem exists_readArgument_iff (wf : recipe.catalog.WellFormed) :
    (∃ entry, recipe.readArgument argument = .ok entry) ↔
      ∃ name value, recipe.Gives argument name value := by
  simp only [Prod.exists, readArgument_eq_ok_iff wf]

theorem exists_request_iff_gives (wf : recipe.catalog.WellFormed) :
    (∃ request, recipe.request profile arguments = .ok request) ↔
      ∀ argument ∈ arguments, ∃ name value, recipe.Gives argument name value := by
  rw [exists_request_iff, Outcome.exists_mapM_iff]
  exact forall₂_congr fun argument _ => exists_readArgument_iff wf

theorem request_eq_error_iff_firstRejected (wf : recipe.catalog.WellFormed) :
    recipe.request profile arguments = .error fault ↔ recipe.FirstRejected arguments fault := by
  rw [request_eq_error_iff, Outcome.mapM_eq_error_iff]
  simp only [exists_readArgument_iff wf, readArgument_eq_error_iff wf]
  rfl

theorem layers_of_request (wf : recipe.catalog.WellFormed)
    (requested : recipe.request profile arguments = .ok request) :
    recipe.Layers profile arguments request := by
  rw [request_eq_foldlM] at requested
  refine ⟨?_, fun name unnamed => ?_⟩
  · rintro front argument back name value rfl gives last
    exact get?_of_run_named wf gives last requested
  · rw [get?_of_run_unnamed wf unnamed requested, get?_saved]

/-- Neighbours that name different options change places without effect, unless both are
rejected. -/
theorem request_swap (wf : recipe.catalog.WellFormed)
    (apart : ∀ name, ¬ (Names first name ∧ Names second name))
    (good : (∃ name value, recipe.Gives first name value) ∨
      ∃ name value, recipe.Gives second name value) :
    recipe.request profile (front ++ second :: first :: back) =
      recipe.request profile (front ++ first :: second :: back) := by
  simp only [request_eq_foldlM, List.foldlM_append, List.foldlM_cons, ← bind_assoc]
  refine congrArg (· >>= _) ?_
  simp only [bind_assoc]
  exact bind_congr fun base => (lay_comm wf apart good).symm

/-- An argument that gives a value has no effect beside a later one that names its option. -/
theorem request_without (wf : recipe.catalog.WellFormed) {earlier : String} {rest : List String}
    (gives : recipe.Gives earlier name value) (named : ∃ later ∈ rest, Names later name) :
    recipe.request profile (front ++ rest) = recipe.request profile (front ++ earlier :: rest) := by
  simp only [request_eq_foldlM]
  rw [List.foldlM_append, List.foldlM_append]
  refine bind_congr fun base => ?_
  rw [List.foldlM_cons, lay_of_read ((readArgument_eq_ok_iff wf).2 gives)]
  exact (run_insert_of_named wf named).symm

/-- What a profile asks for an option that no argument names is acceptable. -/
def AcceptableBelow (recipe : Recipe) (profile : Option Profile) (arguments : List String) : Prop :=
  ∀ name given, (profile.bind fun saved => saved.options.get? name) = some given →
    (∀ argument ∈ arguments, ¬ Names argument name) →
      ∃ d ∈ recipe.catalog.declarations, d.name = name ∧ ∃ value, d.domain.Accepts given value

theorem acceptable_iff (wf : recipe.catalog.WellFormed)
    (requested : recipe.request profile arguments = .ok request) :
    recipe.catalog.Acceptable request ↔ recipe.AcceptableBelow profile arguments := by
  rw [request_eq_foldlM] at requested
  constructor
  · intro acceptable name given asked unnamed
    refine acceptable name given ?_
    rw [get?_of_run_unnamed wf unnamed requested, get?_saved, asked]
  · intro below name given held
    rcases origin_of_run wf requested held with ⟨unnamed, asked⟩ | ⟨argument, -, gives⟩
    · exact below name given (get?_saved profile name ▸ asked) unnamed
    · obtain ⟨raw, -, d, listed, called, spells⟩ := gives
      exact ⟨d, listed, called, given, spells.accepts⟩

/-- The request of a profile and arguments. It is made where every argument gives a value, and is
else refused for the first that does not. Each option then has the value of the last argument that
names it, or the one of the profile. So neighbours that name different options may change places,
unless both are rejected; an argument has no effect beside a later one for the same option; and a
request can be laid over the defaults exactly if what the profile asks for the options that no
argument names is acceptable, whatever it asks for the others. -/
theorem request_layered (valid : recipe.Valid) (profile : Option Profile)
    (arguments : List String) :
    ((∃ request, recipe.request profile arguments = .ok request) ↔
      ∀ argument ∈ arguments, ∃ name value, recipe.Gives argument name value) ∧
    (∀ fault, recipe.request profile arguments = .error fault ↔
      recipe.FirstRejected arguments fault) ∧
    (∀ request, recipe.request profile arguments = .ok request →
      recipe.Layers profile arguments request) ∧
    (∀ front first second back, arguments = front ++ first :: second :: back →
      (∀ name, ¬ (Names first name ∧ Names second name)) →
      ((∃ name value, recipe.Gives first name value) ∨
        ∃ name value, recipe.Gives second name value) →
      recipe.request profile (front ++ second :: first :: back) =
        recipe.request profile arguments) ∧
    (∀ front earlier middle later back name value,
      arguments = front ++ earlier :: (middle ++ later :: back) →
      recipe.Gives earlier name value → Names later name →
      recipe.request profile (front ++ (middle ++ later :: back)) =
        recipe.request profile arguments) ∧
    ∀ request, recipe.request profile arguments = .ok request →
      ((∃ config, recipe.catalog.start request = .ok config) ↔
        recipe.AcceptableBelow profile arguments) := by
  have wf : recipe.catalog.WellFormed := valid.wellFormed
  refine ⟨exists_request_iff_gives wf, fun fault => request_eq_error_iff_firstRejected wf,
    fun request requested => layers_of_request wf requested, ?_, ?_, fun request requested => ?_⟩
  · rintro front first second back rfl apart good
    exact request_swap wf apart good
  · rintro front earlier middle later back name value rfl gives names
    exact request_without wf gives ⟨later, by simp, names⟩
  · rw [wf.exists_start_iff_acceptable, acceptable_iff wf requested]

/-- A renderer that is no member stands in the profile, and an argument for the same option is laid
over it. An earlier argument for that option may be left out, and may change places with one for
another option. Without arguments the profile is refused. An argument without `=` is the one that is
reported, whatever follows it. -/
theorem request_layered_rendering :
    let profile : Option Profile :=
      some ⟨{}, .ofList [("renderer", .text "metal"), ("", .flag true)]⟩
    let arguments := ["renderer=gl", "shared=false", " renderer = vulkan "]
    let request : Request :=
      .ofList [("", .flag true), ("renderer", .text "vulkan"), ("shared", .flag false)]
    rendering.Valid ∧ rendering.request profile arguments = .ok request ∧
      rendering.Layers profile arguments request ∧
      rendering.request profile ["shared=false", "renderer=gl", " renderer = vulkan "] =
        .ok request ∧
      rendering.request profile ["shared=false", " renderer = vulkan "] = .ok request ∧
      rendering.AcceptableBelow profile arguments ∧ ¬ rendering.AcceptableBelow profile [] ∧
      rendering.FirstRejected ["shared=false", "renderer", "with_midi=true"]
        (.invalidManifest (.malformedRequest "renderer")) := by
  intro profile arguments request
  have wf := rendering_valid.wellFormed
  have gl : rendering.Gives "renderer=gl" "renderer" (.text "gl") :=
    (readArgument_eq_ok_iff wf).1 rfl
  have off : rendering.Gives "shared=false" "shared" (.flag false) :=
    (readArgument_eq_ok_iff wf).1 (by decide +kernel)
  have vulkan : rendering.Gives " renderer = vulkan " "renderer" (.text "vulkan") :=
    (readArgument_eq_ok_iff wf).1 rfl
  have apart : ∀ name, ¬ (Names "renderer=gl" name ∧ Names "shared=false" name) := by
    rintro name ⟨first, second⟩
    cases first.unique gl.names
    exact absurd (second.unique off.names) (by decide)
  have requested : rendering.request profile arguments = .ok request := by decide +kernel
  have malformed : rendering.request profile ["shared=false", "renderer", "with_midi=true"] =
      .error (.invalidManifest (.malformedRequest "renderer")) := by decide +kernel
  have started : rendering.catalog.start request = .ok ⟨.ofList [("", .present (.flag true)),
      ("renderer", .present (.text "vulkan")), ("shared", .present (.flag false))]⟩ := rfl
  have refused : rendering.catalog.start (saved profile) =
      .error (.outsideDomain "renderer" "metal" (.enumeration ["gl", "vulkan"])) := rfl
  obtain ⟨-, -, layers, swap, replace, starts⟩ := request_layered rendering_valid profile arguments
  obtain ⟨-, -, -, -, -, startsBare⟩ := request_layered rendering_valid profile []
  obtain ⟨-, rejected, -⟩ :=
    request_layered rendering_valid profile ["shared=false", "renderer", "with_midi=true"]
  refine ⟨rendering_valid, requested, layers request requested, ?_, ?_, (starts request requested).1
    ⟨_, started⟩, fun acceptable => ?_, (rejected _).1 malformed⟩
  · exact (swap [] _ _ [" renderer = vulkan "] rfl apart (.inl ⟨_, _, gl⟩)).trans requested
  · exact (replace [] _ ["shared=false"] _ [] _ _ rfl gl vulkan.names).trans requested
  · obtain ⟨config, accepted⟩ := (startsBare (saved profile) rfl).2 acceptable
    cases refused.symm.trans accepted

end Recipe

end PackageConfig
