import PackageConfig.Proofs.Options.Start
import PackageConfig.Proofs.Text.ByteOrder

/-!
What a request does to the defaults.

Which values an option takes is said by the domain alone (`Domain.Accepts`). A request asks for
values of several options; what it does to each of them does not depend on the others (`effect`),
and the start is made of these effects, or is refused for the first of them that is a fault, in the
order of the names (`start_eq_ok_iff`, `start_eq_error_iff`). So requests with the same effects
start a resolution alike (`start_eq_of_effect`). In terms of the declarations this is
`start_exact`.
-/

namespace PackageConfig

/-- A requested value is acceptable under a domain, and stands for a value of it: a switch and a
member stand for themselves, and a text for a switch is one of its two words, in any letter case and
with blanks around it. -/
inductive Domain.Accepts : Domain → Value → Value → Prop
  | switch (on : Bool) : Accepts .boolean (.flag on) (.flag on)
  | word {raw : String} {on : Bool}
    (spelled : Text.lowerAscii (Text.trim raw) = if on then "true" else "false") :
    Accepts .boolean (.text raw) (.flag on)
  | member {members : List String} {s : String} (listed : s ∈ members) :
    Accepts (.enumeration members) (.text s) (.text s)

namespace Domain

variable {d : Domain} {given value : Value}

theorem parse?_boolean_eq_some_iff {raw : String} :
    boolean.parse? raw = some value ↔ Accepts .boolean (.text raw) value := by
  have lowTrue : Text.lowerAscii "true" = "true" := by
    simp [Text.lowerAscii, ← String.toList_inj]
  have lowFalse : Text.lowerAscii "false" = "false" := by
    simp [Text.lowerAscii, ← String.toList_inj]
  simp only [parse?, Text.sameWord, lowTrue, lowFalse, beq_iff_eq]
  constructor
  · intro read
    split at read
    next yes =>
      cases read
      exact .word yes
    · split at read
      next no =>
        cases read
        exact .word no
      · cases read
  · intro accepted
    cases accepted with
    | @word raw on spelled =>
      cases on with
      | true =>
        have spelled : Text.lowerAscii (Text.trim raw) = "true" := spelled
        rw [if_pos spelled]
      | false =>
        have spelled : Text.lowerAscii (Text.trim raw) = "false" := spelled
        rw [spelled, if_neg (by decide), if_pos rfl]

theorem taken?_eq_some_iff : d.taken? given = some value ↔ d.Accepts given value := by
  cases d with
  | boolean =>
    cases given with
    | text raw => exact parse?_boolean_eq_some_iff
    | flag on =>
      constructor
      · rintro ⟨⟩
        exact .switch on
      · rintro ⟨⟩
        rfl
  | enumeration members =>
    cases given with
    | flag on => exact iff_of_false (by rintro ⟨⟩) (by rintro ⟨⟩)
    | text s =>
      have taken : taken? (.enumeration members) (.text s) =
          if members.contains s then some (.text s) else none := rfl
      rw [taken]
      constructor
      · intro found
        split at found
        next listed =>
          cases found
          exact .member (List.contains_iff_mem.1 listed)
        · cases found
      · rintro ⟨⟩
        rename_i listed
        rw [if_pos (List.contains_iff_mem.2 listed)]

theorem taken?_eq_none_iff : d.taken? given = none ↔ ∀ value, ¬ d.Accepts given value := by
  rw [Option.eq_none_iff_forall_ne_some]
  simp only [ne_eq, taken?_eq_some_iff]

/-- A value of the domain stands for itself. -/
theorem accepts_of_contains (inside : d.contains value = true) : d.Accepts value value := by
  cases d with
  | boolean =>
    cases value with
    | flag on => exact .switch on
    | text s => cases inside
  | enumeration members =>
    cases value with
    | flag on => cases inside
    | text s => exact .member (List.contains_iff_mem.1 inside)

/-- What a value stands for is itself acceptable, and stands for itself. -/
theorem Accepts.value_accepted (accepts : d.Accepts given value) : d.Accepts value value := by
  cases accepts with
  | switch on => exact .switch on
  | word spelled => exact .switch _
  | member listed => exact .member listed

end Domain

namespace Catalog

variable {c : Catalog} {request other : Request} {config : Configuration} {name : String}
  {given value : Value} {fault : Fault}

/-! ## One option -/

/-- What a request does to an option: it holds the value accepted for what is asked, or its default
if nothing is. -/
def effect (c : Catalog) (request : Request) (name : String) : Except Fault (Option State) :=
  match request.get? name with
  | some given => (c.accept name given).map fun value => some (.present value)
  | none => .ok (c.defaults.get? name)

theorem effect_of_asked (asked : request.get? name = some given) :
    c.effect request name = (c.accept name given).map fun value => some (.present value) := by
  rw [effect, asked]

theorem effect_of_unasked (unasked : request.get? name = none) :
    c.effect request name = .ok (c.defaults.get? name) := by
  rw [effect, unasked]

theorem effect_eq_error_iff : c.effect request name = .error fault ↔
    ∃ given, request.get? name = some given ∧ c.accept name given = .error fault := by
  cases asked : request.get? name with
  | none => simp [effect_of_unasked asked]
  | some given =>
    rw [effect_of_asked asked]
    cases accepted : c.accept name given <;> simp [Except.map, accepted]

theorem exists_effect_iff : (∃ state, c.effect request name = .ok state) ↔
    ∀ given, request.get? name = some given → ∃ value, c.accept name given = .ok value := by
  cases asked : request.get? name with
  | none => simp [effect_of_unasked asked]
  | some given =>
    rw [effect_of_asked asked]
    cases accepted : c.accept name given <;> simp [Except.map, accepted]

/-! ## All options, in the order of their names -/

theorem startFrom_eq_error_iff {entries : List (String × Value)} :
    c.startFrom entries config = .error fault ↔
      (entries.mapM fun entry => c.accept entry.1 entry.2) = .error fault := by
  induction entries generalizing config with
  | nil => simp [startFrom, pure, Except.pure]
  | cons entry rest ih =>
    rw [startFrom, List.mapM_cons, Outcome.bind_eq_error_iff, Outcome.bind_eq_error_iff]
    refine or_congr_right (exists_congr fun value => and_congr_right fun _ => ?_)
    rw [ih, Outcome.bind_eq_error_iff]
    simp [pure, Except.pure]

theorem start_eq_ok_iff :
    c.start request = .ok config ↔ ∀ name, c.effect request name = .ok (config.get? name) := by
  have sound : ∀ config, c.start request = .ok config →
      ∀ name, c.effect request name = .ok (config.get? name) := by
    intro config started name
    have laid := get?_start started name
    split at laid
    next given asked =>
      obtain ⟨value, accepted, held⟩ := laid
      rw [effect_of_asked asked, accepted, held]
      rfl
    next unasked => rw [effect_of_unasked unasked, laid]
  refine ⟨sound config, fun effects => ?_⟩
  have accepted : ∃ start, c.start request = .ok start :=
    exists_start_iff.2 fun name => exists_effect_iff.1 ⟨_, effects name⟩
  obtain ⟨start, started⟩ := accepted
  have same : start = config := Configuration.ext_get? fun name =>
    Except.ok.inj ((sound start started name).symm.trans (effects name))
  rw [started, same]

/-- A request is refused for the first option, in the order of the names, on which its effect is a
fault. -/
theorem start_eq_error_iff :
    c.start request = .error fault ↔
      ∃ name, c.effect request name = .error fault ∧
        ∀ before < name, ∃ state, c.effect request before = .ok state := by
  have ascending := request.ascending
  have listed : ∀ name given, request.get? name = some given ↔ (name, given) ∈ request.entries :=
    fun name given => NameMap.get?_eq_some_iff
  simp only [effect_eq_error_iff, exists_effect_iff, listed]
  unfold start
  rw [startFrom_eq_error_iff, Outcome.mapM_eq_error_iff]
  constructor
  · rintro ⟨front, ⟨name, given⟩, back, split, good, refused⟩
    rw [split] at ascending ⊢
    refine ⟨name, ⟨given, by simp, refused⟩, fun before smaller asked mem => ?_⟩
    obtain ⟨-, behind, -⟩ := List.pairwise_append.1 ascending
    rcases List.mem_append.1 mem with inFront | rest
    · exact good _ inFront
    · rcases List.mem_cons.1 rest with same | inBack
      · cases same
        exact absurd smaller (String.lt_irrefl _)
      · exact absurd smaller (String.lt_asymm ((List.pairwise_cons.1 behind).1 _ inBack))
  · rintro ⟨name, ⟨given, mem, refused⟩, good⟩
    obtain ⟨front, back, split⟩ := List.append_of_mem mem
    refine ⟨front, (name, given), back, split, fun entry inFront => ?_, refused⟩
    rw [split] at ascending good
    have smaller := (List.pairwise_append.1 ascending).2.2 entry inFront _ List.mem_cons_self
    exact good entry.1 smaller entry.2 (List.mem_append_left _ inFront)

/-- Requests that have the same effect on every option start a resolution alike. -/
theorem start_eq_of_effect (same : ∀ name, c.effect request name = c.effect other name) :
    c.start request = c.start other := by
  cases outcome : c.start request with
  | ok config =>
    have effects := start_eq_ok_iff.1 outcome
    simp only [same] at effects
    exact (start_eq_ok_iff.2 effects).symm
  | error fault =>
    have effects := start_eq_error_iff.1 outcome
    simp only [same] at effects
    exact (start_eq_error_iff.2 effects).symm

/-! ## In terms of the declarations -/

theorem WellFormed.accept_eq_ok_iff (wf : c.WellFormed) : c.accept name given = .ok value ↔
    ∃ d ∈ c.declarations, d.name = name ∧ d.domain.Accepts given value := by
  constructor
  · intro accepted
    obtain ⟨d, required, -⟩ := Outcome.bind_eq_ok_iff.1 accepted
    have declared := require_eq_ok_iff.1 required
    obtain ⟨mem, called⟩ := wf.find?_eq_some_iff.1 declared
    rw [accept_of_find? declared] at accepted
    cases taken : d.domain.taken? given with
    | none =>
      rw [taken] at accepted
      cases accepted
    | some found =>
      rw [taken] at accepted
      cases accepted
      exact ⟨d, mem, called, Domain.taken?_eq_some_iff.1 taken⟩
  · rintro ⟨d, mem, called, accepts⟩
    rw [accept_of_find? (wf.find?_eq_some_iff.2 ⟨mem, called⟩), Domain.taken?_eq_some_iff.2 accepts]
    rfl

/-- What is wrong with what a request asks for an option: the option is not declared, or its domain
accepts the value in no way. -/
inductive Offends (c : Catalog) (request : Request) (name : String) : Fault → Prop
  | undeclared {given : Value} (asked : request.get? name = some given)
    (unlisted : ∀ d ∈ c.declarations, d.name ≠ name) : Offends c request name (.unknownOption name)
  | outside {given : Value} {d : Declaration} (asked : request.get? name = some given)
    (listed : d ∈ c.declarations) (called : d.name = name)
    (unfit : ∀ value, ¬ d.domain.Accepts given value) :
    Offends c request name (.outsideDomain name given.shown d.domain)

theorem WellFormed.effect_eq_error_iff_offends (wf : c.WellFormed) :
    c.effect request name = .error fault ↔ c.Offends request name fault := by
  rw [effect_eq_error_iff]
  constructor
  · rintro ⟨given, asked, refused⟩
    cases found : c.find? name with
    | none =>
      cases (accept_of_unknown found given).symm.trans refused
      exact .undeclared asked (wf.find?_eq_none_iff.1 found)
    | some d =>
      obtain ⟨mem, called⟩ := wf.find?_eq_some_iff.1 found
      rw [accept_of_find? found] at refused
      cases taken : d.domain.taken? given with
      | none =>
        rw [taken] at refused
        cases refused
        exact .outside asked mem called (Domain.taken?_eq_none_iff.1 taken)
      | some value =>
        rw [taken] at refused
        cases refused
  · intro offends
    cases offends with
    | @undeclared given asked unlisted =>
      exact ⟨given, asked, accept_of_unknown (wf.find?_eq_none_iff.2 unlisted) given⟩
    | @outside given d asked listed called unfit =>
      refine ⟨given, asked, ?_⟩
      rw [accept_of_find? (wf.find?_eq_some_iff.2 ⟨listed, called⟩),
        Domain.taken?_eq_none_iff.2 unfit]
      rfl

/-- The fault of the first option, in the order of the bytes of the names, for which a request asks
what it should not. -/
def FirstOffence (c : Catalog) (request : Request) (fault : Fault) : Prop :=
  ∃ name, c.Offends request name fault ∧ ∀ other otherFault, c.Offends request other otherFault →
    other = name ∨ Text.utf8 name < Text.utf8 other

theorem WellFormed.start_eq_error_iff_firstOffence (wf : c.WellFormed) :
    c.start request = .error fault ↔ c.FirstOffence request fault := by
  rw [start_eq_error_iff]
  refine exists_congr fun name => and_congr wf.effect_eq_error_iff_offends ?_
  simp only [Text.utf8_lt_iff, ← wf.effect_eq_error_iff_offends]
  constructor
  · intro good other otherFault offends
    by_cases smaller : other < name
    · obtain ⟨state, effect⟩ := good other smaller
      cases effect.symm.trans offends
    · by_cases larger : name < other
      · exact .inr larger
      · exact .inl (String.le_antisymm (String.not_lt.1 larger) (String.not_lt.1 smaller))
  · intro first before smaller
    cases effect : c.effect request before with
    | ok state => exact ⟨state, rfl⟩
    | error otherFault =>
      rcases first before otherFault effect with rfl | larger
      · exact absurd smaller (String.lt_irrefl _)
      · exact absurd smaller (String.lt_asymm larger)

/-- Every option that a request names is declared, and its domain accepts the value. -/
def Acceptable (c : Catalog) (request : Request) : Prop :=
  ∀ name given, request.get? name = some given →
    ∃ d ∈ c.declarations, d.name = name ∧ ∃ value, d.domain.Accepts given value

theorem WellFormed.exists_start_iff_acceptable (wf : c.WellFormed) :
    (∃ config, c.start request = .ok config) ↔ c.Acceptable request := by
  rw [exists_start_iff]
  refine forall₃_congr fun name given _ => ?_
  simp only [wf.accept_eq_ok_iff]
  constructor
  · rintro ⟨value, d, mem, called, accepts⟩
    exact ⟨d, mem, called, value, accepts⟩
  · rintro ⟨d, mem, called, value, accepts⟩
    exact ⟨value, d, mem, called, accepts⟩

/-- A configuration knows exactly the declared options, all of them present: those that a request
names with the value that was accepted for it, the others with their default. -/
structure Overlays (c : Catalog) (request : Request) (config : Configuration) : Prop where
  names_iff : ∀ name, name ∈ config.names ↔ ∃ d ∈ c.declarations, d.name = name
  requested : ∀ d ∈ c.declarations, ∀ given, request.get? d.name = some given →
    ∃ value, d.domain.Accepts given value ∧ config.get? d.name = some (.present value)
  unrequested : ∀ d ∈ c.declarations, request.get? d.name = none →
    config.get? d.name = some (.present d.default)

theorem WellFormed.get?_defaults_of_mem (wf : c.WellFormed) {d : Declaration}
    (mem : d ∈ c.declarations) : c.defaults.get? d.name = some (.present d.default) := by
  rw [wf.get?_defaults, wf.find?_eq_some_iff.2 ⟨mem, rfl⟩]
  rfl

theorem WellFormed.overlays_of_start (wf : c.WellFormed) (fit : c.DefaultsFit)
    (started : c.start request = .ok config) : c.Overlays request config := by
  refine ⟨fun name => ?_, fun d mem given asked => ?_, fun d mem unasked => ?_⟩
  · rw [(wf.describes_start fit started).known_iff, wf.declares_iff]
  · have laid := get?_start started d.name
    rw [asked] at laid
    obtain ⟨value, accepted, held⟩ := laid
    obtain ⟨e, listed, called, accepts⟩ := wf.accept_eq_ok_iff.1 accepted
    have same : some e = some d := by
      rw [← wf.find?_eq_some_iff.2 ⟨listed, called⟩, wf.find?_eq_some_iff.2 ⟨mem, rfl⟩]
    cases same
    exact ⟨value, accepts, held⟩
  · have laid := get?_start started d.name
    rw [unasked] at laid
    rw [laid, wf.get?_defaults_of_mem mem]

/-! ## Requests that say the same -/

/-- A request for one option may be put in the place of what was asked for it, or of nothing, if it
has the same effect. -/
theorem start_insert (same : (c.accept name value).map (fun value => some (State.present value)) =
    c.effect request name) : c.start (request.insert name value) = c.start request := by
  refine start_eq_of_effect fun other => ?_
  by_cases here : name = other
  · subst here
    have asked : (request.insert name value).get? name = some value := by
      rw [NameMap.get?_insert, if_pos rfl]
    rw [effect_of_asked asked, same]
  · unfold effect
    rw [NameMap.get?_insert, if_neg here]

/-- To apply a request to the defaults is exact. It succeeds where every option that is named is
declared and every value acceptable, and then makes of it what it asks and nothing else; where it
fails, it does so with the fault of the first name that offends. So asking for the default of an
option that was not asked for, or for the switch that an accepted text reads as, changes nothing. -/
theorem start_exact (calls : List Declaration) (request : Request) :
    let c := ofCalls calls
    ((∃ config, c.start request = .ok config) ↔ c.Acceptable request) ∧
    (∀ config, c.start request = .ok config → c.Overlays request config) ∧
    (∀ fault, c.start request = .error fault ↔ c.FirstOffence request fault) ∧
    (∀ d ∈ c.declarations, request.get? d.name = none →
      c.start (request.insert d.name d.default) = c.start request) ∧
    ∀ d ∈ c.declarations, ∀ raw on, request.get? d.name = some (.text raw) →
      d.domain.Accepts (.text raw) (.flag on) →
        c.start (request.insert d.name (.flag on)) = c.start request := by
  intro c
  have wf : c.WellFormed := wellFormed_ofCalls calls
  have fit : c.DefaultsFit := defaultsFit_ofCalls calls
  refine ⟨wf.exists_start_iff_acceptable, fun config => wf.overlays_of_start fit,
    fun fault => wf.start_eq_error_iff_firstOffence, fun d mem unasked => ?_,
    fun d mem raw on asked accepts => ?_⟩
  · have accepted : c.accept d.name d.default = .ok d.default :=
      wf.accept_eq_ok_iff.2 ⟨d, mem, rfl, Domain.accepts_of_contains (fit d mem)⟩
    refine start_insert ?_
    rw [effect_of_unasked unasked, accepted, wf.get?_defaults_of_mem mem]
    rfl
  · have read : c.accept d.name (.text raw) = .ok (.flag on) :=
      wf.accept_eq_ok_iff.2 ⟨d, mem, rfl, accepts⟩
    have accepted : c.accept d.name (.flag on) = .ok (.flag on) :=
      wf.accept_eq_ok_iff.2 ⟨d, mem, rfl, accepts.value_accepted⟩
    refine start_insert ?_
    rw [effect_of_asked asked, accepted, read]

/-- A switch and an enumerated option. -/
def display : List Declaration :=
  [.flag "shared" false, ⟨"renderer", .enumeration ["gl", "vulkan"], .text "gl", none⟩]

/-- A word in capitals with blanks around it turns the switch on, and it makes no difference to say
so plainly, or to ask for the default of the other option. Of two names that offend, the one that
comes first is reported. -/
theorem start_exact_display :
    let c := ofCalls display
    let request : Request := .ofList [("shared", .text " TRUE ")]
    let config : Configuration :=
      ⟨.ofList [("shared", .present (.flag true)), ("renderer", .present (.text "gl"))]⟩
    c.start request = .ok config ∧ c.Overlays request config ∧
      request.get? "renderer" = none ∧
      c.start (request.insert "renderer" (.text "gl")) = .ok config ∧
      request.get? "shared" = some (.text " TRUE ") ∧
      Domain.boolean.Accepts (.text " TRUE ") (.flag true) ∧
      c.start (request.insert "shared" (.flag true)) = .ok config ∧
      c.FirstOffence (.ofList [("with_midi", .flag true), ("renderer", .text "metal")])
        (.outsideDomain "renderer" "metal" (.enumeration ["gl", "vulkan"])) := by
  intro c request config
  have word : Domain.boolean.Accepts (.text " TRUE ") (.flag true) := by
    refine .word (String.toList_inj.1 ?_)
    rw [Text.lowerAscii, String.toList_map, Text.toList_trim]
    decide
  have listed : Declaration.flag "shared" false ∈ c.declarations := by decide
  have accepted : c.accept "shared" (.text " TRUE ") = .ok (.flag true) :=
    (wellFormed_ofCalls display).accept_eq_ok_iff.2 ⟨_, listed, rfl, word⟩
  have started : c.start request = .ok config := by
    have single : c.start request =
        (c.accept "shared" (.text " TRUE ")).map (c.defaultsBut "shared") := start_single _ _ _
    rw [single, accepted]
    rfl
  have refused : c.start (.ofList [("with_midi", .flag true), ("renderer", .text "metal")]) =
      .error (.outsideDomain "renderer" "metal" (.enumeration ["gl", "vulkan"])) := rfl
  obtain ⟨-, overlays, -, ofDefault, ofWord⟩ := start_exact display request
  obtain ⟨-, -, offence, -⟩ := start_exact display
    (.ofList [("with_midi", .flag true), ("renderer", .text "metal")])
  have default := ofDefault ⟨"renderer", .enumeration ["gl", "vulkan"], .text "gl", none⟩
    (by decide) rfl
  have plain := ofWord _ listed " TRUE " true rfl word
  exact ⟨started, overlays config started, rfl, default.trans started, rfl, word,
    plain.trans started, (offence _).1 refused⟩

end Catalog

end PackageConfig
