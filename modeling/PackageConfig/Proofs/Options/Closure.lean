import PackageConfig.Options.Closure
import PackageConfig.Proofs.Options.Catalog
import PackageConfig.Proofs.Options.Configuration
import Mathlib.Logic.Function.Iterate

/-!
What closing a configuration computes.

One pass takes away exactly the present options whose parent is not enabled
(`get?_pass`). `Trimmed` relates a configuration to one that some passes have
led to: what was taken away had an ancestor that was not enabled at the start. The
passes keep it (`Trimmed.pass`), and where no orphan is left it fixes every
state (`isClosure_of_trimmed`), so the order of the passes plays no part.
-/

namespace PackageConfig

namespace Catalog

variable {c : Catalog} {config : Configuration} {name : String}

/-! ## One pass -/

/-- One pass of closing: every orphan of the configuration is taken away. -/
def pass (c : Catalog) (config : Configuration) : Configuration :=
  removeOrphans (c.orphans config) config

theorem mem_orphans_iff {orphan : String × String} (wf : c.WellFormed) :
    orphan ∈ c.orphans config ↔ c.parent? orphan.1 = some orphan.2 ∧
      config.isPresent orphan.1 = true ∧ config.isEnabled orphan.2 = false := by
  unfold orphans
  rw [List.mem_filterMap, wf.parent?_eq_some_iff]
  simp only [Option.bind_eq_some_iff, Option.ite_none_right_eq_some, Bool.and_eq_true,
    Bool.not_eq_true']
  constructor
  · intro listed
    rcases listed with ⟨d, mem, parent, stated, ⟨present, disabled⟩, ⟨⟩⟩
    exact ⟨⟨d, mem, rfl, stated⟩, present, disabled⟩
  · intro orphaned
    rcases orphaned with ⟨⟨d, mem, called, stated⟩, present, disabled⟩
    exact ⟨d, mem, orphan.2, stated, ⟨called ▸ present, disabled⟩, by rw [called]⟩

theorem leadsTo_removeOrphans (orphans : List (String × String)) (config : Configuration) :
    config.LeadsTo (removeOrphans orphans config) := by
  unfold removeOrphans
  apply Configuration.leadsTo_foldl
  intro s orphan
  exact s.leadsTo_remove _ _

theorem get?_removeOrphans_of_notMem (orphans : List (String × String))
    (spared : ∀ parent, (name, parent) ∉ orphans) :
    (removeOrphans orphans config).get? name = config.get? name := by
  induction orphans generalizing config with
  | nil => rfl
  | cons orphan rest ih =>
    have other : orphan.1 ≠ name := fun same => spared orphan.2 (same ▸ List.mem_cons_self)
    have step := @ih (config.remove orphan.1 (.parent orphan.2))
      fun parent mem => spared parent (List.mem_cons_of_mem _ mem)
    rw [Configuration.get?_remove, if_neg other] at step
    exact step

theorem get?_removeOrphans_of_mem {parent : String} {orphans : List (String × String)}
    (single : ∀ other, (name, other) ∈ orphans → other = parent)
    (present : config.isPresent name = true) (mem : (name, parent) ∈ orphans) :
    (removeOrphans orphans config).get? name = some (.absent (.parent parent)) := by
  induction orphans generalizing config with
  | nil => exact absurd mem List.not_mem_nil
  | cons orphan rest ih =>
    by_cases same : orphan.1 = name
    · -- The first removal of the name settles its cause.
      obtain ⟨value, held⟩ := Configuration.isPresent_iff.1 present
      have recorded : orphan.2 = parent := single orphan.2 (same ▸ List.mem_cons_self)
      refine (leadsTo_removeOrphans rest _).absent_kept name _ ?_
      rw [Configuration.get?_remove, if_pos same, held, recorded]
      rfl
    · have later : (name, parent) ∈ rest := by
        rcases List.mem_cons.1 mem with eq | later
        · exact absurd (congrArg Prod.fst eq).symm same
        · exact later
      refine ih (fun other mem => single other (List.mem_cons_of_mem _ mem)) ?_ later
      rw [Configuration.isPresent_congr (t := config)]
      · exact present
      · rw [Configuration.get?_remove, if_neg same]

/-- A pass takes a present option away exactly when its parent is not enabled, and
changes nothing else. -/
theorem get?_pass (wf : c.WellFormed) (config : Configuration) (name : String) :
    (∃ parent, c.parent? name = some parent ∧ config.isPresent name = true ∧
        config.isEnabled parent = false ∧
        (c.pass config).get? name = some (.absent (.parent parent))) ∨
      (∀ parent, (name, parent) ∉ c.orphans config) ∧
        (c.pass config).get? name = config.get? name := by
  by_cases orphaned : ∃ parent, (name, parent) ∈ c.orphans config
  · obtain ⟨parent, mem⟩ := orphaned
    obtain ⟨stated, present, disabled⟩ := (mem_orphans_iff wf).1 mem
    have single : ∀ other, (name, other) ∈ c.orphans config → other = parent := by
      intro other mem
      have stated' := ((mem_orphans_iff wf).1 mem).1
      exact Option.some.inj (stated'.symm.trans stated)
    exact .inl ⟨parent, stated, present, disabled, get?_removeOrphans_of_mem single present mem⟩
  · have spared : ∀ parent, (name, parent) ∉ c.orphans config :=
      fun parent mem => orphaned ⟨parent, mem⟩
    exact .inr ⟨spared, get?_removeOrphans_of_notMem _ spared⟩

/-! ## All passes -/

theorem close_of_orphans_nil (done : c.orphans config = []) : c.close config = config := by
  rw [close, dif_pos done]

theorem close_of_orphans_ne_nil (left : c.orphans config ≠ []) :
    c.close config = c.close (c.pass config) := by
  rw [close, dif_neg left, pass]

theorem presentCount_pass_lt (left : c.orphans config ≠ []) :
    (c.pass config).presentCount < config.presentCount :=
  presentCount_removeOrphans_lt left fun _ mem => isPresent_of_mem_orphans mem

/-- The passes come to an end, after at most as many as there are present options, and
then no orphan is left. -/
theorem exists_passes (c : Catalog) (config : Configuration) :
    ∃ passes ≤ config.presentCount,
      c.close config = (c.pass)^[passes] config ∧ c.orphans (c.close config) = [] := by
  induction config using close.induct c with
  | case1 config done =>
    rw [close_of_orphans_nil done]
    exact ⟨0, Nat.zero_le _, rfl, done⟩
  | case2 config left _ ih =>
    obtain ⟨passes, bound, reached, done⟩ := ih
    rw [close_of_orphans_ne_nil left]
    have fewer := presentCount_pass_lt left
    exact ⟨passes + 1, Nat.lt_of_le_of_lt bound fewer, reached, done⟩

/-- What holds between a configuration and every one that passes lead to: a name keeps
its state, or it was present and was taken away for the sake of its parent, while some
ancestor of it was not enabled. -/
def Trimmed (c : Catalog) (start config : Configuration) : Prop :=
  ∀ name, config.get? name = start.get? name ∨
    start.isPresent name = true ∧
      (∃ parent, c.parent? name = some parent ∧
        config.get? name = some (.absent (.parent parent))) ∧
      ∃ ancestor, c.HasAncestor name ancestor ∧ start.isEnabled ancestor = false

/-- An orphan was present at the start too, where some ancestor of it was not enabled. -/
theorem Trimmed.of_orphan {start : Configuration} {parent : String} (kept : c.Trimmed start config)
    (stated : c.parent? name = some parent) (present : config.isPresent name = true)
    (disabled : config.isEnabled parent = false) :
    start.isPresent name = true ∧
      ∃ ancestor, c.HasAncestor name ancestor ∧ start.isEnabled ancestor = false := by
  rcases kept name with unchanged | ⟨-, ⟨other, -, absent⟩, -⟩
  · rw [Configuration.isPresent_congr unchanged] at present
    refine ⟨present, ?_⟩
    -- The parent was not enabled from the start, or went away for an ancestor that was not.
    rcases kept parent with unchanged | ⟨-, -, ancestor, above, off⟩
    · rw [Configuration.isEnabled_congr unchanged] at disabled
      exact ⟨parent, .of_parent stated, disabled⟩
    · exact ⟨ancestor, .above_parent stated above, off⟩
  · rw [Configuration.not_isPresent_of_absent absent] at present
    cases present

theorem Trimmed.pass {start : Configuration} (wf : c.WellFormed) (kept : c.Trimmed start config) :
    c.Trimmed start (c.pass config) := by
  intro name
  rcases get?_pass wf config name with ⟨parent, stated, present, disabled, removed⟩ | ⟨-, same⟩
  · obtain ⟨before, unsupported⟩ := kept.of_orphan stated present disabled
    exact .inr ⟨before, ⟨parent, stated, removed⟩, unsupported⟩
  · rw [same]
    exact kept name

theorem Trimmed.close {start : Configuration} (wf : c.WellFormed)
    (kept : c.Trimmed start config) : c.Trimmed start (c.close config) := by
  induction config using close.induct c with
  | case1 config done =>
    rw [close_of_orphans_nil done]
    exact kept
  | case2 config left _ ih =>
    rw [close_of_orphans_ne_nil left]
    exact ih (kept.pass wf)

theorem trimmed_close (wf : c.WellFormed) (config : Configuration) :
    c.Trimmed config (c.close config) :=
  Trimmed.close wf fun _ => .inl rfl

theorem leadsTo_close (c : Catalog) (config : Configuration) :
    config.LeadsTo (c.close config) := by
  induction config using close.induct c with
  | case1 config done =>
    rw [close_of_orphans_nil done]
    exact .refl config
  | case2 config left _ ih =>
    rw [close_of_orphans_ne_nil left]
    exact (leadsTo_removeOrphans _ config).trans ih

theorem get?_of_removeOrphans {value : Value} (orphans : List (String × String))
    (present : (removeOrphans orphans config).get? name = some (.present value)) :
    config.get? name = some (.present value) := by
  induction orphans generalizing config with
  | nil => exact present
  | cons orphan rest ih => exact Configuration.get?_of_remove (ih present)

/-- A value that closing leaves is the one before. -/
theorem get?_of_close {value : Value}
    (present : (c.close config).get? name = some (.present value)) :
    config.get? name = some (.present value) := by
  induction config using close.induct c with
  | case1 config done =>
    rw [close_of_orphans_nil done] at present
    exact present
  | case2 config left _ ih =>
    rw [close_of_orphans_ne_nil left] at present
    exact get?_of_removeOrphans _ (ih present)

/-- A configuration that was closed is closed. -/
theorem close_close (c : Catalog) (config : Configuration) :
    c.close (c.close config) = c.close config := by
  obtain ⟨_, _, _, done⟩ := exists_passes c config
  exact close_of_orphans_nil done

/-- Without orphans a present option has only enabled ancestors. -/
theorem isEnabled_of_hasAncestor (wf : c.WellFormed) (done : c.orphans config = [])
    {ancestor : String} (above : c.HasAncestor name ancestor)
    (present : config.isPresent name = true) : config.isEnabled ancestor = true := by
  have parents : ∀ child parent, c.parent? child = some parent → config.isPresent child = true →
      config.isEnabled parent = true := by
    intro child parent stated present
    cases enabled : config.isEnabled parent with
    | true => rfl
    | false =>
      have orphan : (child, parent) ∈ c.orphans config :=
        (mem_orphans_iff wf).2 ⟨stated, present, enabled⟩
      rw [done] at orphan
      exact absurd orphan List.not_mem_nil
  induction above with
  | single stated => exact parents _ _ stated present
  | tail _ stated enabled =>
    exact parents _ _ stated (Configuration.isPresent_of_isEnabled enabled)

/-! ## The closure -/

/-- The second configuration is the downward closure of absence in the first, under the
declared parents. An option that a configuration does not know counts as not enabled. -/
structure IsClosure (c : Catalog) (config closed : Configuration) : Prop where
  names_eq : closed.names = config.names
  present_iff : ∀ name, closed.isPresent name = true ↔
    config.isPresent name = true ∧
      ∀ ancestor, c.HasAncestor name ancestor → config.isEnabled ancestor = true
  value_kept : ∀ name, closed.isPresent name = true → closed.get? name = config.get? name
  cause_kept : ∀ name cause, config.get? name = some (.absent cause) →
    closed.get? name = some (.absent cause)
  removed_for_parent : ∀ name, config.isPresent name = true → closed.isPresent name = false →
    ∃ parent, c.parent? name = some parent ∧ closed.get? name = some (.absent (.parent parent))
  ancestors_enabled : ∀ name ancestor, closed.isPresent name = true →
    c.HasAncestor name ancestor → closed.isEnabled ancestor = true

/-- Passes that started at a configuration and left no orphan have computed its closure. -/
theorem isClosure_of_trimmed {start : Configuration} (wf : c.WellFormed)
    (run : start.LeadsTo config) (kept : c.Trimmed start config)
    (done : c.orphans config = []) : c.IsClosure start config := by
  have unchanged : ∀ name, config.isPresent name = true → config.get? name = start.get? name := by
    intro name present
    rcases kept name with same | ⟨-, ⟨parent, -, absent⟩, -⟩
    · exact same
    · rw [Configuration.not_isPresent_of_absent absent] at present
      cases present
  have ancestors : ∀ name ancestor, config.isPresent name = true → c.HasAncestor name ancestor →
      config.isEnabled ancestor = true :=
    fun name ancestor present above => isEnabled_of_hasAncestor wf done above present
  refine ⟨run.names_eq, fun name => ⟨fun present => ⟨?_, fun ancestor above => ?_⟩, ?_⟩,
    unchanged, run.absent_kept, fun name present gone => ?_, ancestors⟩
  · rw [← Configuration.isPresent_congr (unchanged name present)]
    exact present
  · have enabled := ancestors name ancestor present above
    have same := unchanged ancestor (Configuration.isPresent_of_isEnabled enabled)
    rw [← Configuration.isEnabled_congr same]
    exact enabled
  · intro supported
    rcases supported with ⟨present, enabled⟩
    rcases kept name with same | ⟨-, -, ancestor, above, disabled⟩
    · rw [Configuration.isPresent_congr same]
      exact present
    · rw [enabled ancestor above] at disabled
      cases disabled
  · rcases kept name with same | ⟨-, removed, -⟩
    · rw [Configuration.isPresent_congr same, present] at gone
      cases gone
    · exact removed

/-- What closing took away for its parent has a parent that is not enabled afterwards either. -/
theorem IsClosure.parent_disabled {closed : Configuration} {parent : String}
    (closure : c.IsClosure config closed) (present : config.isPresent name = true)
    (gone : closed.isPresent name = false) (stated : c.parent? name = some parent) :
    closed.isEnabled parent = false := by
  cases enabled : closed.isEnabled parent with
  | false => rfl
  | true =>
    -- An enabled parent has kept its value, and so have all above it: the option would be present.
    have parentPresent := Configuration.isPresent_of_isEnabled enabled
    have same := closure.value_kept parent parentPresent
    have supported : ∀ ancestor, c.HasAncestor name ancestor →
        config.isEnabled ancestor = true := by
      intro ancestor above
      rcases Relation.TransGen.head'_iff.1 above with ⟨first, direct, beyond⟩
      cases stated.symm.trans direct
      rcases Relation.reflTransGen_iff_eq_or_transGen.1 beyond with rfl | higher
      · rw [← Configuration.isEnabled_congr same]
        exact enabled
      · exact ((closure.present_iff parent).1 parentPresent).2 ancestor higher
    have kept := (closure.present_iff name).2 ⟨present, supported⟩
    rw [gone] at kept
    cases kept

theorem WellFormed.isClosure_close (wf : c.WellFormed) (config : Configuration) :
    c.IsClosure config (c.close config) := by
  obtain ⟨_, _, _, done⟩ := exists_passes c config
  exact isClosure_of_trimmed wf (leadsTo_close c config) (trimmed_close wf config) done

/-- The closure reads nothing but the stated parents. -/
theorem IsClosure.of_parents {other : Catalog} {closed : Configuration}
    (closure : c.IsClosure config closed) (parents : c.parent? = other.parent?) :
    other.IsClosure config closed := by
  have ancestors : c.HasAncestor = other.HasAncestor := by
    unfold HasAncestor
    rw [parents]
  obtain ⟨names, present, value, cause, removed, enabled⟩ := closure
  rw [ancestors] at present enabled
  rw [parents] at removed
  exact ⟨names, present, value, cause, removed, enabled⟩

theorem IsClosure.leadsTo {closed : Configuration} (closure : c.IsClosure config closed) :
    config.LeadsTo closed :=
  ⟨closure.names_eq, closure.cause_kept⟩

theorem IsClosure.isPresent_of_agree {other closed otherClosed : Configuration}
    (closure : c.IsClosure config closed) (otherClosure : c.IsClosure other otherClosed)
    (same : config.get? name = other.get? name)
    (above : ∀ ancestor, c.HasAncestor name ancestor →
      config.get? ancestor = other.get? ancestor)
    (present : closed.isPresent name = true) : otherClosed.isPresent name = true := by
  obtain ⟨before, enabled⟩ := (closure.present_iff name).1 present
  refine (otherClosure.present_iff name).2 ⟨?_, fun ancestor higher => ?_⟩
  · rw [← Configuration.isPresent_congr same]
    exact before
  · rw [← Configuration.isEnabled_congr (above ancestor higher)]
    exact enabled ancestor higher

/-- What closing makes of an option depends on its own state and on those of its ancestors. -/
theorem IsClosure.get?_of_agree {other closed otherClosed : Configuration}
    (closure : c.IsClosure config closed) (otherClosure : c.IsClosure other otherClosed)
    (same : config.get? name = other.get? name)
    (above : ∀ ancestor, c.HasAncestor name ancestor →
      config.get? ancestor = other.get? ancestor) :
    closed.get? name = otherClosed.get? name := by
  have present : closed.isPresent name = otherClosed.isPresent name :=
    Bool.eq_iff_iff.2 ⟨closure.isPresent_of_agree otherClosure same above,
      otherClosure.isPresent_of_agree closure same.symm fun ancestor higher =>
        (above ancestor higher).symm⟩
  cases left : closed.isPresent name with
  | true =>
    rw [closure.value_kept name left, otherClosure.value_kept name (present ▸ left), same]
  | false =>
    rw [left] at present
    cases before : config.isPresent name with
    | true =>
      -- Both were taken away for the sake of the one parent that the option has.
      have otherBefore := (Configuration.isPresent_congr same).symm.trans before
      obtain ⟨parent, stated, absent⟩ := closure.removed_for_parent name before left
      obtain ⟨otherParent, otherStated, otherAbsent⟩ :=
        otherClosure.removed_for_parent name otherBefore present.symm
      cases stated.symm.trans otherStated
      rw [absent, otherAbsent]
    | false =>
      have gone : ∀ value, config.get? name ≠ some (.present value) := by
        intro value held
        rw [Configuration.isPresent_iff.2 ⟨value, held⟩] at before
        cases before
      rw [closure.leadsTo.get?_of_gone gone,
        otherClosure.leadsTo.get?_of_gone fun value => same ▸ gone value, same]

/-- Closing leaves an option without parent as it is. -/
theorem IsClosure.get?_of_top {closed : Configuration} (closure : c.IsClosure config closed)
    (top : c.parent? name = none) : closed.get? name = config.get? name := by
  cases before : config.isPresent name with
  | true =>
    refine closure.value_kept name ((closure.present_iff name).2 ⟨before, fun ancestor above => ?_⟩)
    exact absurd above (not_hasAncestor top)
  | false =>
    refine closure.leadsTo.get?_of_gone fun value held => ?_
    rw [Configuration.isPresent_iff.2 ⟨value, held⟩] at before
    cases before

/-- Closing leaves a present option as it is where its parent ends up enabled, and takes it away
for its parent where it does not. -/
theorem IsClosure.get?_of_parent {closed : Configuration} {parent : String}
    (closure : c.IsClosure config closed) (stated : c.parent? name = some parent)
    (present : config.isPresent name = true) :
    closed.get? name =
      if closed.isEnabled parent then config.get? name else some (.absent (.parent parent)) := by
  cases after : closed.isPresent name with
  | true =>
    have enabled := closure.ancestors_enabled name parent after (.of_parent stated)
    rw [if_pos enabled, closure.value_kept name after]
  | false =>
    obtain ⟨other, statedOther, absent⟩ := closure.removed_for_parent name present after
    cases stated.symm.trans statedOther
    rw [absent, closure.parent_disabled present after stated]
    rfl

/-- Catalogs that state the same parents close every configuration alike, in whatever order
they declare its options. -/
theorem close_congr {other : Catalog} (wf : c.WellFormed) (otherWf : other.WellFormed)
    (parents : c.parent? = other.parent?) (config : Configuration) :
    c.close config = other.close config := by
  have closure := (wf.isClosure_close config).of_parents parents
  exact Configuration.ext_get? fun name =>
    closure.get?_of_agree (otherWf.isClosure_close config) rfl fun _ _ => rfl

/-- For every catalog built by declaring and every configuration, closing ends after
at most one pass for each present option, where nothing is left to take away, and it
ends in the downward closure of absence. -/
theorem close_isClosure (calls : List Declaration) (config : Configuration) :
    (∃ passes ≤ config.presentCount,
      (ofCalls calls).close config = (ofCalls calls).pass^[passes] config ∧
        (ofCalls calls).orphans ((ofCalls calls).close config) = []) ∧
      (ofCalls calls).IsClosure config ((ofCalls calls).close config) := by
  have wf := wellFormed_ofCalls calls
  obtain ⟨passes, bound, reached, done⟩ := exists_passes (ofCalls calls) config
  exact ⟨⟨passes, bound, reached, done⟩,
    isClosure_of_trimmed wf (leadsTo_close _ config) (trimmed_close wf config) done⟩

end Catalog

end PackageConfig
