import PackageConfig.Proofs.Options.Catalog
import PackageConfig.Proofs.Options.Configuration
import PackageConfig.Proofs.Outcome

/-!
What a resolution starts from.

The defaults give every declared option its default and know no other name
(`WellFormed.get?_defaults`). A request that is accepted only replaces values: an option that
it names holds the value that was accepted for it, every other one its default
(`get?_start`). So every declared option is present at the start (`isPresent_start`): before
the first rule runs, no option has been removed yet, and every value lies in the domain
of its option (`Describes`). A request that is refused is refused for what it names or for
what it asks (`Refuses`).
-/

namespace PackageConfig

/-- The value that a requested one stands for: a boolean option reads a text, and any other
value has to lie in the domain as it is. -/
def Domain.taken? : Domain → Value → Option Value
  | .boolean, .text raw => Domain.boolean.parse? raw
  | d, value => if d.contains value then some value else none

/-- A value that was read under a domain is taken as it is. -/
theorem Domain.taken?_of_parse? {d : Domain} {raw : String} {value : Value}
    (parsed : d.parse? raw = some value) : d.taken? value = some value := by
  have contained := Domain.contains_of_parse? parsed
  cases d with
  | boolean =>
    cases value with
    | flag on => rfl
    | text s => cases contained
  | enumeration members => exact if_pos contained

namespace Catalog

variable {c : Catalog} {config start : Configuration} {name : String}

/-- The defaults hold what the declarations say, and nothing else. -/
theorem WellFormed.get?_defaults (wf : c.WellFormed) (name : String) :
    c.defaults.get? name = (c.find? name).map fun d => .present d.default := by
  unfold defaults Configuration.get?
  rw [NameMap.get?_ofList]
  cases found : NameMap.find name
      (c.declarations.map fun d => (d.name, State.present d.default)).reverse with
  | none =>
    have unlisted := NameMap.find_eq_none_iff.1 found
    cases declared : c.find? name with
    | none => rfl
    | some d =>
      obtain ⟨mem, called⟩ := wf.find?_eq_some_iff.1 declared
      exact absurd called (unlisted _ (List.mem_reverse.2 (List.mem_map_of_mem mem)))
  | some state =>
    have listed := List.mem_reverse.1 (NameMap.mem_of_find found)
    obtain ⟨d, mem, same⟩ := List.mem_map.1 listed
    cases same
    rw [wf.find?_eq_some_iff.2 ⟨mem, rfl⟩]
    rfl

theorem WellFormed.isPresent_defaults (wf : c.WellFormed) (declared : c.declares name = true) :
    c.defaults.isPresent name = true := by
  obtain ⟨d, found⟩ := wf.exists_find?_iff.2 declared
  refine Configuration.isPresent_iff.2 ⟨d.default, ?_⟩
  rw [wf.get?_defaults, found]
  rfl

/-! ## Accepted and refused values -/

theorem read_eq_ok_iff {raw : String} {value : Value} :
    c.read name raw = .ok value ↔
      ∃ d, c.find? name = some d ∧ d.domain.parse? raw = some value := by
  unfold read
  rw [Outcome.bind_eq_ok_iff]
  refine exists_congr fun d => and_congr require_eq_ok_iff ?_
  cases d.domain.parse? raw <;> simp [pure, Except.pure, throw, throwThe, MonadExceptOf.throw]

theorem read_of_find? {d : Declaration} (declared : c.find? name = some d) (raw : String) :
    c.read name raw =
      (d.domain.parse? raw).elim (.error (.outsideDomain name raw d.domain)) .ok := by
  unfold read
  rw [require_eq_ok_iff.2 declared]
  simp only [bind, Except.bind]
  cases d.domain.parse? raw <;> rfl

theorem read_of_unknown (unknown : c.find? name = none) (raw : String) :
    c.read name raw = .error (.unknownOption name) := by
  unfold read require
  rw [unknown]
  rfl

theorem check_of_find? {d : Declaration} (declared : c.find? name = some d) (value : Value) :
    c.check name value =
      if d.domain.contains value then .ok ()
      else .error (.outsideDomain name value.shown d.domain) := by
  unfold check
  rw [require_eq_ok_iff.2 declared]
  rfl

theorem accept_of_unknown (unknown : c.find? name = none) (given : Value) :
    c.accept name given = .error (.unknownOption name) := by
  unfold accept require
  rw [unknown]
  rfl

/-- A declared option accepts what its domain takes, and refuses the rest for its domain. -/
theorem accept_of_find? {d : Declaration} (declared : c.find? name = some d) (given : Value) :
    c.accept name given =
      (d.domain.taken? given).elim (.error (.outsideDomain name given.shown d.domain)) .ok := by
  have compared : (do c.check name given; return given) =
      (if d.domain.contains given then some given else none).elim
        (.error (.outsideDomain name given.shown d.domain)) Except.ok := by
    rw [check_of_find? declared]
    split <;> rfl
  have read := read_of_find? declared
  unfold accept
  rw [require_eq_ok_iff.2 declared]
  simp only [bind, Except.bind] at compared ⊢
  cases shape : d.domain with
  | boolean =>
    rw [shape] at read compared
    cases given with
    | flag on => exact compared
    | text raw => exact read raw
  | enumeration members =>
    rw [shape] at compared
    exact compared

/-- A value that is accepted for an option lies in its domain. -/
theorem admits_of_accept {raw value : Value} (accepted : c.accept name raw = .ok value) :
    c.Admits name value := by
  obtain ⟨d, -, taken⟩ := Outcome.bind_eq_ok_iff.1 accepted
  split at taken
  · obtain ⟨d, declared, parsed⟩ := read_eq_ok_iff.1 taken
    exact ⟨d, declared, Domain.contains_of_parse? parsed⟩
  · obtain ⟨_, checked, same⟩ := Outcome.bind_eq_ok_iff.1 taken
    cases same
    exact check_eq_ok_iff.1 checked

/-- The faults for which a request is refused: a name that is not declared, or a value outside
the domain of its option. -/
inductive Refuses : Fault → Prop
  | unknownOption (name : String) : Refuses (.unknownOption name)
  | outsideDomain (name given : String) (expected : Domain) :
    Refuses (.outsideDomain name given expected)

theorem refuses_of_require {fault : Fault} (refused : c.require name = .error fault) :
    Refuses fault := by
  unfold require at refused
  split at refused
  · cases refused
  · cases refused
    exact .unknownOption name

theorem refuses_of_read {raw : String} {fault : Fault} (refused : c.read name raw = .error fault) :
    Refuses fault := by
  rcases Outcome.bind_eq_error_iff.1 refused with unknown | ⟨d, -, unreadable⟩
  · exact refuses_of_require unknown
  · split at unreadable
    · cases unreadable
    · cases unreadable
      exact .outsideDomain name raw d.domain

theorem refuses_of_check {value : Value} {fault : Fault}
    (refused : c.check name value = .error fault) : Refuses fault := by
  rcases Outcome.bind_eq_error_iff.1 refused with unknown | ⟨d, -, outside⟩
  · exact refuses_of_require unknown
  · split at outside
    · cases outside
    · cases outside
      exact .outsideDomain name value.shown d.domain

theorem refuses_of_accept {raw : Value} {fault : Fault}
    (refused : c.accept name raw = .error fault) : Refuses fault := by
  rcases Outcome.bind_eq_error_iff.1 refused with unknown | ⟨d, -, unfit⟩
  · exact refuses_of_require unknown
  · split at unfit
    · exact refuses_of_read unfit
    · rcases Outcome.bind_eq_error_iff.1 unfit with outside | ⟨_, -, passed⟩
      · exact refuses_of_check outside
      · cases passed

/-- What is accepted, and what is refused for which fault, depends on the look-up alone. -/
theorem accept_congr {other : Catalog} (same : c.find? = other.find?) :
    c.accept = other.accept := by
  have require : c.require = other.require := by
    funext name
    unfold require
    rw [same]
  have read : c.read = other.read := by
    funext name raw
    unfold read
    rw [require]
  have check : c.check = other.check := by
    funext name value
    unfold check
    rw [require]
  funext name raw
  unfold accept
  rw [require, read, check]

/-! ## Requests -/

/-- The defaults with one value in the place of an option's own. -/
def defaultsBut (c : Catalog) (name : String) (value : Value) : Configuration :=
  ⟨c.defaults.states.insert name (.present value)⟩

theorem defaultsBut_injective (c : Catalog) (name : String) :
    Function.Injective (c.defaultsBut name) := by
  intro value other same
  have held := congrArg (fun config => config.get? name) same
  simp only [defaultsBut, Configuration.get?_insert, if_true] at held
  cases held
  rfl

/-- A request for one option succeeds with the value that is accepted for it. -/
theorem start_single (c : Catalog) (name : String) (given : Value) :
    c.start (.ofList [(name, given)]) = (c.accept name given).map (c.defaultsBut name) := by
  have laid : c.start (.ofList [(name, given)]) =
      (do let value ← c.accept name given; return c.defaultsBut name value) := rfl
  rw [laid]
  cases c.accept name given <;> rfl

theorem exists_startFrom_iff {entries : List (String × Value)} :
    (∃ start, c.startFrom entries config = .ok start) ↔
      ∀ entry ∈ entries, ∃ value, c.accept entry.1 entry.2 = .ok value := by
  induction entries generalizing config with
  | nil => exact iff_of_true ⟨config, rfl⟩ fun _ mem => absurd mem List.not_mem_nil
  | cons entry rest ih =>
    rw [List.forall_mem_cons]
    constructor
    · rintro ⟨start, laid⟩
      obtain ⟨value, allowed, later⟩ := Outcome.bind_eq_ok_iff.1 laid
      exact ⟨⟨value, allowed⟩, ih.1 ⟨start, later⟩⟩
    · rintro ⟨⟨value, allowed⟩, later⟩
      obtain ⟨start, laid⟩ := ih.2 later
      exact ⟨start, Outcome.bind_eq_ok_iff.2 ⟨value, allowed, laid⟩⟩

/-- A request is accepted when every value that it asks for is. -/
theorem exists_start_iff {request : Request} :
    (∃ start, c.start request = .ok start) ↔
      ∀ name given, request.get? name = some given → ∃ value, c.accept name given = .ok value := by
  simp only [NameMap.get?_eq_some_iff]
  exact exists_startFrom_iff.trans Prod.forall

/-- What a request that is accepted entry by entry leaves of an option: the value accepted for
it where the request names it, and the state before where it does not. -/
theorem get?_startFrom {entries : List (String × Value)}
    (ascending : entries.Pairwise fun a b => a.1 < b.1)
    (accepted : c.startFrom entries config = .ok start) (name : String) :
    match NameMap.find name entries with
    | some raw => ∃ value, c.accept name raw = .ok value ∧ start.get? name = some (.present value)
    | none => start.get? name = config.get? name := by
  induction entries generalizing config with
  | nil =>
    cases accepted
    rfl
  | cons entry rest ih =>
    obtain ⟨requested, raw⟩ := entry
    obtain ⟨below, restAscending⟩ := List.pairwise_cons.1 ascending
    obtain ⟨value, allowed, later⟩ := Outcome.bind_eq_ok_iff.1 accepted
    have laid := ih restAscending later
    rw [Configuration.get?_insert] at laid
    by_cases same : requested = name
    · -- The entries are ascending, so that none after this one names the option again.
      subst same
      have once : NameMap.find requested rest = none :=
        NameMap.find_eq_none_iff.2 fun other mem same =>
          String.lt_irrefl _ (same ▸ below other mem)
      rw [once, if_pos rfl] at laid
      rw [NameMap.find, if_pos rfl]
      exact ⟨value, allowed, laid⟩
    · rw [if_neg same] at laid
      rw [NameMap.find, if_neg same]
      exact laid

/-- At the start, an option that the request names holds the value accepted for it, and every
other one its default. -/
theorem get?_start {request : Request} (accepted : c.start request = .ok start) (name : String) :
    match request.get? name with
    | some raw => ∃ value, c.accept name raw = .ok value ∧ start.get? name = some (.present value)
    | none => start.get? name = c.defaults.get? name :=
  get?_startFrom request.ascending accepted name

theorem refuses_of_startFrom {entries : List (String × Value)} {fault : Fault}
    (refused : c.startFrom entries config = .error fault) : Refuses fault := by
  induction entries generalizing config with
  | nil => cases refused
  | cons entry rest ih =>
    rcases Outcome.bind_eq_error_iff.1 refused with unfit | ⟨value, -, later⟩
    · exact refuses_of_accept unfit
    · exact ih later

/-- A request is refused only for a name or a value that it asks for. -/
theorem refuses_of_start {request : Request} {fault : Fault}
    (refused : c.start request = .error fault) : Refuses fault :=
  refuses_of_startFrom refused

theorem startFrom_congr {other : Catalog} (same : c.find? = other.find?)
    (entries : List (String × Value)) (config : Configuration) :
    c.startFrom entries config = other.startFrom entries config := by
  induction entries generalizing config with
  | nil => rfl
  | cons entry rest ih =>
    unfold startFrom
    rw [accept_congr same]
    exact bind_congr fun value => ih _

/-- Catalogs that answer every look-up alike start a resolution alike. -/
theorem start_congr {other : Catalog} (wf : c.WellFormed) (otherWf : other.WellFormed)
    (same : c.find? = other.find?) (request : Request) :
    c.start request = other.start request := by
  have defaults : c.defaults = other.defaults := by
    refine Configuration.ext_get? fun name => ?_
    rw [wf.get?_defaults, otherWf.get?_defaults, same]
  unfold start
  rw [defaults, startFrom_congr same]

/-- At the start every declared option is present. -/
theorem isPresent_start (wf : c.WellFormed) {request : Request}
    (accepted : c.start request = .ok start) (declared : c.declares name = true) :
    start.isPresent name = true := by
  have laid := get?_start accepted name
  split at laid
  · obtain ⟨value, -, held⟩ := laid
    exact Configuration.isPresent_iff.2 ⟨value, held⟩
  · rw [Configuration.isPresent_congr laid]
    exact wf.isPresent_defaults declared

/-! ## Configurations that fit the declarations -/

/-- A configuration knows exactly the declared options, and every value that it holds lies in
the domain of its option. -/
structure Describes (c : Catalog) (config : Configuration) : Prop where
  known_iff : ∀ name, name ∈ config.names ↔ c.declares name = true
  admitted : ∀ name value, config.get? name = some (.present value) → c.Admits name value

theorem Describes.exists_get? (fits : c.Describes config) (declared : c.declares name = true) :
    ∃ state, config.get? name = some state :=
  Option.isSome_iff_exists.1 (Configuration.mem_names_iff.1 ((fits.known_iff name).2 declared))

/-- A run from a configuration that fits, in which every new value lies in the domain of its
option, ends in one that fits. -/
theorem Describes.of_leadsTo {later : Configuration} (fits : c.Describes config)
    (run : config.LeadsTo later)
    (values : ∀ name value, later.get? name = some (.present value) →
      config.get? name = some (.present value) ∨ c.Admits name value) : c.Describes later := by
  refine ⟨fun name => ?_, fun name value held => ?_⟩
  · rw [run.names_eq]
    exact fits.known_iff name
  · rcases values name value held with before | admitted
    · exact fits.admitted name value before
    · exact admitted

theorem WellFormed.declares_of_admits (wf : c.WellFormed) {value : Value}
    (admitted : c.Admits name value) : c.declares name = true := by
  obtain ⟨d, found, -⟩ := admitted
  exact wf.exists_find?_iff.1 ⟨d, found⟩

theorem WellFormed.describes_defaults (wf : c.WellFormed) (fit : c.DefaultsFit) :
    c.Describes c.defaults := by
  refine ⟨fun name => ?_, fun name value held => ?_⟩
  · rw [Configuration.mem_names_iff, wf.get?_defaults, Option.isSome_map,
      Option.isSome_iff_exists, wf.exists_find?_iff]
  · rw [wf.get?_defaults] at held
    obtain ⟨d, found, same⟩ := Option.map_eq_some_iff.1 held
    cases same
    exact ⟨d, found, fit d (wf.find?_eq_some_iff.1 found).1⟩

/-- What a request is laid over the defaults to fits the declarations. -/
theorem WellFormed.describes_start (wf : c.WellFormed) (fit : c.DefaultsFit) {request : Request}
    (accepted : c.start request = .ok start) : c.Describes start := by
  have defaults := wf.describes_defaults fit
  refine ⟨fun name => ?_, fun name value held => ?_⟩
  · have laid := get?_start accepted name
    split at laid
    · obtain ⟨value, taken, held⟩ := laid
      have declared := wf.declares_of_admits (admits_of_accept taken)
      rw [Configuration.mem_names_iff, held]
      exact iff_of_true rfl declared
    · rw [Configuration.mem_names_iff, laid, ← Configuration.mem_names_iff]
      exact defaults.known_iff name
  · have laid := get?_start accepted name
    split at laid
    · obtain ⟨taken, allowed, found⟩ := laid
      cases held.symm.trans found
      exact admits_of_accept allowed
    · rw [laid] at held
      exact defaults.admitted name value held

end Catalog

end PackageConfig
