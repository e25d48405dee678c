import Mathlib.Data.List.Forall2

/-!
When a sequence of steps that may fail succeeds: every step of it does, and no check stops it.
It fails with the fault of the first step that does.
-/

namespace PackageConfig.Outcome

variable {ε α β : Type} {b : β}

theorem bind_eq_ok_iff {x : Except ε α} {next : α → Except ε β} :
    (x >>= next) = .ok b ↔ ∃ a, x = .ok a ∧ next a = .ok b := by
  cases x with
  | error fault => simp [bind, Except.bind]
  | ok a => simp [bind, Except.bind]

theorem bind_eq_error_iff {x : Except ε α} {next : α → Except ε β} {fault : ε} :
    (x >>= next) = .error fault ↔
      x = .error fault ∨ ∃ a, x = .ok a ∧ next a = .error fault := by
  cases x with
  | error first => simp [bind, Except.bind]
  | ok a => simp [bind, Except.bind]

/-- What cannot succeed fails. -/
theorem exists_error_of_ne_ok {x : Except ε β} (never : ∀ b, x ≠ .ok b) :
    ∃ fault, x = .error fault := by
  cases x with
  | error fault => exact ⟨fault, rfl⟩
  | ok b => exact absurd rfl (never b)

/-- A check that stops with a fault is passed only where it does not apply. -/
theorem check_eq_ok_iff {p : Prop} [Decidable p] {fault : ε} {skipped : α → Except ε β}
    {next : Except ε β} :
    (if p then throw fault >>= skipped else next) = .ok b ↔ ¬p ∧ next = .ok b := by
  split
  next applies =>
    refine ⟨fun stopped => ?_, fun passed => absurd applies passed.1⟩
    cases stopped
  next passed => exact ⟨fun ok => ⟨passed, ok⟩, And.right⟩

theorem check_eq_error_iff {p : Prop} [Decidable p] {fault other : ε} {skipped : α → Except ε β}
    {next : Except ε β} :
    (if p then throw fault >>= skipped else next) = .error other ↔
      p ∧ fault = other ∨ ¬p ∧ next = .error other := by
  split
  next applies =>
    simp [applies, throw, throwThe, MonadExceptOf.throw, bind, Except.bind]
  next passed => simp [passed]

/-- What follows a check succeeds only where the check is passed. -/
theorem check_then_eq_ok_iff {check : Except ε Unit} {next : Except ε β} :
    (check >>= fun _ => next) = .ok b ↔ check = .ok () ∧ next = .ok b :=
  bind_eq_ok_iff.trans ⟨fun ⟨_, passed, ok⟩ => ⟨passed, ok⟩, fun both => ⟨(), both⟩⟩

/-- A check of every item is passed exactly when each item passes it. -/
theorem forM_eq_ok_iff {items : List α} {check : α → Except ε Unit} :
    items.forM check = .ok () ↔ ∀ item ∈ items, check item = .ok () := by
  induction items with
  | nil => exact iff_of_true rfl fun _ mem => absurd mem List.not_mem_nil
  | cons item rest ih =>
    rw [List.forall_mem_cons, ← ih]
    exact check_then_eq_ok_iff

/-- What is only computed to see whether it succeeds. -/
theorem discard_eq_ok_iff {x : Except ε α} :
    (do let _ ← x; return () : Except ε Unit) = .ok () ↔ ∃ a, x = .ok a := by
  rw [bind_eq_ok_iff]
  exact exists_congr fun a => and_iff_left rfl

/-! ## One step for each item -/

variable {f : α → Except ε β} {items : List α} {results : List β}

/-- A step for each item succeeds with the results of all steps, in their order. -/
theorem mapM_eq_ok_iff :
    items.mapM f = .ok results ↔
      List.Forall₂ (fun item result => f item = .ok result) items results := by
  induction items generalizing results with
  | nil => simp [pure, Except.pure, eq_comm]
  | cons item rest ih =>
    rw [List.mapM_cons, bind_eq_ok_iff, List.forall₂_cons_left_iff]
    refine exists_congr fun result => ?_
    rw [bind_eq_ok_iff]
    simp only [ih, pure, Except.pure, Except.ok.injEq]
    exact ⟨fun ⟨first, later, each, same⟩ => ⟨later, first, each, same.symm⟩,
      fun ⟨later, first, each, same⟩ => ⟨first, later, each, same.symm⟩⟩

theorem exists_mapM_iff :
    (∃ results, items.mapM f = .ok results) ↔ ∀ item ∈ items, ∃ b, f item = .ok b := by
  induction items with
  | nil => exact iff_of_true ⟨[], rfl⟩ fun _ mem => absurd mem List.not_mem_nil
  | cons item rest ih =>
    rw [List.forall_mem_cons, ← ih, List.mapM_cons]
    constructor
    · rintro ⟨results, ran⟩
      obtain ⟨first, here, ran⟩ := bind_eq_ok_iff.1 ran
      obtain ⟨others, later, -⟩ := bind_eq_ok_iff.1 ran
      exact ⟨⟨first, here⟩, others, later⟩
    · rintro ⟨⟨first, here⟩, others, later⟩
      exact ⟨first :: others, bind_eq_ok_iff.2 ⟨first, here, bind_eq_ok_iff.2 ⟨others, later, rfl⟩⟩⟩

/-- It fails with the fault of the first item for which the step fails. -/
theorem mapM_eq_error_iff {fault : ε} :
    items.mapM f = .error fault ↔ ∃ front bad back, items = front ++ bad :: back ∧
      (∀ item ∈ front, ∃ b, f item = .ok b) ∧ f bad = .error fault := by
  induction items with
  | nil => simp [pure, Except.pure]
  | cons item rest ih =>
    rw [List.mapM_cons, bind_eq_error_iff]
    constructor
    · rintro (here | ⟨first, passed, later⟩)
      · exact ⟨[], item, rest, rfl, by simp, here⟩
      · rcases bind_eq_error_iff.1 later with failed | ⟨others, -, ⟨⟩⟩
        obtain ⟨front, bad, back, rfl, good, fault⟩ := ih.1 failed
        exact ⟨item :: front, bad, back, rfl, List.forall_mem_cons.2 ⟨⟨first, passed⟩, good⟩, fault⟩
    · rintro ⟨front, bad, back, split, good, failed⟩
      cases front with
      | nil =>
        cases split
        exact .inl failed
      | cons head front =>
        cases split
        obtain ⟨⟨first, passed⟩, good⟩ := List.forall_mem_cons.1 good
        have later := ih.2 ⟨front, bad, back, rfl, good, failed⟩
        exact .inr ⟨first, passed, bind_eq_error_iff.2 (.inl later)⟩

end PackageConfig.Outcome
