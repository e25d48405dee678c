import PackageConfig.Proofs.Options.Closure
import Mathlib.Data.List.Basic

/-!
Closing a configuration one option at a time.

A pass of closing first finds all orphans and then removes them together. Here a single orphan is
removed at each step, any of those that there are (`RemovesOne`). A removal keeps what a pass
keeps, so a sequence of them that cannot go on has computed the closure too, and there is only one
(`IsClosure.eq`). Every removal leaves fewer present options that have a parent, so that every
sequence comes to an end.
-/

namespace PackageConfig

namespace Catalog

variable {c : Catalog} {start config next last : Configuration} {name : String} {count : Nat}

/-! ## Single removals -/

/-- One removal: a declared option that is present, while its parent is not present and enabled,
is taken away for the sake of that parent. -/
inductive RemovesOne (c : Catalog) (config : Configuration) : Configuration → Prop
  | orphan {d : Declaration} {parent : String} (declared : d ∈ c.declarations)
      (stated : d.parent = some parent) (present : config.isPresent d.name = true)
      (disabled : config.isEnabled parent = false) :
      c.RemovesOne config (config.remove d.name (.parent parent))

/-- A number of removals, one after another. -/
inductive Removes (c : Catalog) (start : Configuration) : Nat → Configuration → Prop
  | none : c.Removes start 0 start
  | more {count : Nat} {config next : Configuration} (before : c.Removes start count config)
      (removal : c.RemovesOne config next) : c.Removes start (count + 1) next

theorem removesOne_iff (wf : c.WellFormed) :
    c.RemovesOne config next ↔ ∃ orphan ∈ c.orphans config,
      next = config.remove orphan.1 (.parent orphan.2) := by
  constructor
  · intro removal
    cases removal with
    | @orphan d parent declared stated present disabled =>
      have above := wf.parent?_eq_some_iff.2 ⟨d, declared, rfl, stated⟩
      exact ⟨(d.name, parent), (mem_orphans_iff wf).2 ⟨above, present, disabled⟩, rfl⟩
  · intro removal
    rcases removal with ⟨⟨name, parent⟩, mem, rfl⟩
    obtain ⟨above, present, disabled⟩ := (mem_orphans_iff wf).1 mem
    obtain ⟨d, declared, rfl, stated⟩ := wf.parent?_eq_some_iff.1 above
    exact .orphan declared stated present disabled

/-- No removal is possible exactly when no orphan is left. -/
theorem no_removal_iff (wf : c.WellFormed) :
    (∀ next, ¬ c.RemovesOne config next) ↔ c.orphans config = [] := by
  simp only [removesOne_iff wf]
  constructor
  · intro stuck
    refine List.eq_nil_iff_forall_not_mem.2 fun orphan mem => ?_
    exact stuck _ ⟨orphan, mem, rfl⟩
  · intro done next removal
    rcases removal with ⟨orphan, mem, -⟩
    rw [done] at mem
    exact List.not_mem_nil mem

theorem RemovesOne.leadsTo (removal : c.RemovesOne config next) : config.LeadsTo next := by
  cases removal with
  | orphan declared stated present disabled => exact config.leadsTo_remove _ _

theorem Removes.leadsTo (run : c.Removes start count last) : start.LeadsTo last := by
  induction run with
  | none => exact .refl start
  | more _ removal ih => exact ih.trans removal.leadsTo

/-! ## Where removals end -/

/-- A removal keeps what relates the passes of closing to their start. -/
theorem Trimmed.removesOne (wf : c.WellFormed) (kept : c.Trimmed start config)
    (removal : c.RemovesOne config next) : c.Trimmed start next := by
  obtain ⟨⟨child, parent⟩, mem, rfl⟩ := (removesOne_iff wf).1 removal
  obtain ⟨stated, present, disabled⟩ := (mem_orphans_iff wf).1 mem
  intro name
  rw [Configuration.get?_remove]
  split
  next same =>
    subst same
    obtain ⟨value, held⟩ := Configuration.isPresent_iff.1 present
    obtain ⟨before, unsupported⟩ := kept.of_orphan stated present disabled
    refine .inr ⟨before, ⟨parent, stated, ?_⟩, unsupported⟩
    rw [held]
    rfl
  next => exact kept name

theorem Removes.trimmed (wf : c.WellFormed) (run : c.Removes start count last) :
    c.Trimmed start last := by
  induction run with
  | none => exact fun _ => .inl rfl
  | more _ removal ih => exact ih.removesOne wf removal

/-- A configuration has one closure. -/
theorem IsClosure.eq {closed other : Configuration} (closure : c.IsClosure config closed)
    (otherClosure : c.IsClosure config other) : closed = other :=
  Configuration.ext_get? fun _ => closure.get?_of_agree otherClosure rfl fun _ _ => rfl

/-- Removals that cannot go on end where the passes end. -/
theorem Removes.eq_close (wf : c.WellFormed) (run : c.Removes start count last)
    (stuck : ∀ next, ¬ c.RemovesOne last next) : last = c.close start :=
  (isClosure_of_trimmed wf run.leadsTo (run.trimmed wf) ((no_removal_iff wf).1 stuck)).eq
    (wf.isClosure_close start)

/-! ## How long removals go on -/

/-- The present options that have a declared parent. -/
def presentChildren (c : Catalog) (config : Configuration) : List String :=
  config.names.filter fun name => config.isPresent name && (c.parent? name).isSome

/-- A removal leaves fewer present options that have a parent. -/
theorem RemovesOne.length_presentChildren_lt (wf : c.WellFormed)
    (removal : c.RemovesOne config next) :
    (c.presentChildren next).length < (c.presentChildren config).length := by
  have names := removal.leadsTo.names_eq
  obtain ⟨⟨child, parent⟩, mem, rfl⟩ := (removesOne_iff wf).1 removal
  obtain ⟨stated, present, -⟩ := (mem_orphans_iff wf).1 mem
  obtain ⟨value, held⟩ := Configuration.isPresent_iff.1 present
  have absent : (config.remove child (.parent parent)).get? child =
      some (.absent (.parent parent)) := by
    rw [Configuration.get?_remove, if_pos rfl, held]
    rfl
  have counted : child ∈ c.presentChildren config := by
    have known : child ∈ config.names :=
      Configuration.mem_names_iff.2 (Option.isSome_of_eq_some held)
    exact List.mem_filter.2 ⟨known, Bool.and_eq_true_iff.2
      ⟨present, Option.isSome_of_eq_some stated⟩⟩
  have sub : (c.presentChildren (config.remove child (.parent parent))).Sublist
      (c.presentChildren config) := by
    unfold presentChildren
    rw [names]
    refine List.monotone_filter_right _ fun name both => ?_
    obtain ⟨left, hasParent⟩ := Bool.and_eq_true_iff.1 both
    obtain ⟨kept, stays⟩ := Configuration.isPresent_iff.1 left
    refine Bool.and_eq_true_iff.2 ⟨?_, hasParent⟩
    exact Configuration.isPresent_iff.2 ⟨kept, Configuration.get?_of_remove stays⟩
  refine Nat.lt_of_not_le fun tooMany => ?_
  rw [← sub.eq_of_length_le tooMany] at counted
  obtain ⟨left, -⟩ := Bool.and_eq_true_iff.1 (List.mem_filter.1 counted).2
  rw [Configuration.not_isPresent_of_absent absent] at left
  cases left

theorem Removes.add_length_presentChildren_le (wf : c.WellFormed)
    (run : c.Removes start count last) :
    count + (c.presentChildren last).length ≤ (c.presentChildren start).length := by
  induction run with
  | none => exact Nat.le_of_eq (Nat.zero_add _)
  | more _ removal ih =>
    have fewer := removal.length_presentChildren_lt wf
    omega

/-- Some sequence of removals cannot go on: else there were sequences of every length. -/
theorem exists_removes_stuck (wf : c.WellFormed) (start : Configuration) :
    ∃ count last, c.Removes start count last ∧ ∀ next, ¬ c.RemovesOne last next := by
  by_contra none
  have every : ∀ count, ∃ last, c.Removes start count last := by
    intro count
    induction count with
    | zero => exact ⟨start, .none⟩
    | succ count ih =>
      obtain ⟨last, run⟩ := ih
      have goesOn : ∃ next, c.RemovesOne last next := by
        by_contra stuck
        exact none ⟨count, last, run, not_exists.1 stuck⟩
      obtain ⟨next, removal⟩ := goesOn
      exact ⟨next, run.more removal⟩
  obtain ⟨last, run⟩ := every ((c.presentChildren start).length + 1)
  have bound := run.add_length_presentChildren_le wf
  omega

/-- For every catalog built by declaring and every configuration: removing orphans one at a time,
in whatever order, goes on for at most as many removals as there are present options with a
parent, so never forever; and where it cannot go on, which some sequence reaches, it has come to
the closed configuration, with the causes that closing records. -/
theorem removals_reach_close (calls : List Declaration) (config : Configuration) :
    let c := ofCalls calls
    (∀ count last, c.Removes config count last →
        count ≤ (c.presentChildren config).length ∧
        ((∀ next, ¬ c.RemovesOne last next) → last = c.close config)) ∧
      (¬ ∃ run : Nat → Configuration, run 0 = config ∧ ∀ i, c.RemovesOne (run i) (run (i + 1))) ∧
      (∃ count, c.Removes config count (c.close config)) ∧
        ∀ next, ¬ c.RemovesOne (c.close config) next := by
  intro c
  have wf : c.WellFormed := wellFormed_ofCalls calls
  have bound : ∀ count last, c.Removes config count last →
      count ≤ (c.presentChildren config).length := by
    intro count last run
    exact Nat.le_of_add_right_le (run.add_length_presentChildren_le wf)
  refine ⟨fun count last run => ⟨bound count last run, run.eq_close wf⟩, ?_, ?_⟩
  · intro forever
    obtain ⟨run, rfl, each⟩ := forever
    have reached : ∀ count, c.Removes (run 0) count (run count) := by
      intro count
      induction count with
      | zero => exact .none
      | succ count ih => exact ih.more (each count)
    exact Nat.not_succ_le_self _ (bound _ _ (reached ((c.presentChildren (run 0)).length + 1)))
  · obtain ⟨count, last, run, stuck⟩ := exists_removes_stuck wf config
    have closed := run.eq_close wf stuck
    subst closed
    exact ⟨⟨count, run⟩, stuck⟩

/-- Options of which the first two are off, each the parent of the next. -/
def nested : Catalog :=
  ofCalls [.flag "window" false, .flag "opengl" false (some "window"),
    .flag "debug" true (some "opengl")]

/-- Both children can be removed at once. Whichever goes first, two removals end in the closed
configuration, where each child names its own parent. -/
theorem removals_reach_close_nested :
    let config := nested.defaults
    let fromAbove := config.remove "opengl" (.parent "window")
    let fromBelow := config.remove "debug" (.parent "opengl")
    let last := fromAbove.remove "debug" (.parent "opengl")
    nested.Removes config 2 last ∧
      (nested.RemovesOne config fromBelow ∧ nested.RemovesOne fromBelow last) ∧
      last = nested.close config ∧ (nested.presentChildren config).length = 2 ∧
      last.get? "opengl" = some (.absent (.parent "window")) ∧
      last.get? "debug" = some (.absent (.parent "opengl")) := by
  intro config fromAbove fromBelow last
  let opengl : Declaration := .flag "opengl" false (some "window")
  let debug : Declaration := .flag "debug" true (some "opengl")
  have above : nested.RemovesOne config fromAbove :=
    .orphan (d := opengl) (by decide) rfl (by decide) (by decide)
  have aboveThenBelow : nested.RemovesOne fromAbove last :=
    .orphan (d := debug) (by decide) rfl (by decide) (by decide)
  have below : nested.RemovesOne config fromBelow :=
    .orphan (d := debug) (by decide) rfl (by decide) (by decide)
  have belowThenAbove : nested.RemovesOne fromBelow
      (fromBelow.remove "opengl" (.parent "window")) :=
    .orphan (d := opengl) (by decide) rfl (by decide) (by decide)
  have same : fromBelow.remove "opengl" (.parent "window") = last := by decide
  rw [same] at belowThenAbove
  have run : nested.Removes config 2 last := (Removes.none.more above).more aboveThenBelow
  have stuck : ∀ next, ¬ nested.RemovesOne last next :=
    (no_removal_iff (wellFormed_ofCalls _)).2 (by decide)
  have closed : last = nested.close config := ((removals_reach_close _ config).1 2 last run).2 stuck
  exact ⟨run, ⟨below, belowThenAbove⟩, closed, by decide, by decide, by decide⟩

end Catalog

end PackageConfig
