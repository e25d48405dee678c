import PackageConfig.Proofs.CommandLine.Lockfile

/-!
Which files a sequence of runs changes.

One run changes at most one file: it has to be a `lock` that succeeds, and what it writes is the
lockfile of the resolution of the files that it found (`Call.Locks`, `Call.on_of_locks`). Every
other run leaves the files as they are (`Call.on_of_idle`). Over a sequence of runs a place keeps
what it held until a run locks it, and holds in the end what the last such run wrote
(`filesAfter_cases`).
-/

namespace PackageConfig.CommandLine

/-! ## Runs one after the other -/

/-- What stands at each place. -/
abbrev Files := Place → Option Item

/-- A run as it is asked for: on which machine, from which directory, with which arguments. -/
structure Call where
  host : Host
  home : Place
  words : List String

namespace Call

/-- The files as the run sees them. -/
def volume (call : Call) (files : Files) : Volume where
  home := call.home
  item? := files

/-- What the run leaves behind. -/
def on (call : Call) (files : Files) : Outcome :=
  run call.host (call.volume files) call.words

/-- The run is a `lock` that succeeds: a place is found for its output, its arguments are resolved
on the files as they are, and these bytes are the lockfile of the resolution. -/
def Locks (call : Call) (files : Files) (place : Place) (bytes : ByteArray) : Prop :=
  ∃ a output recipe r content, Arguments.parse? call.words = some a ∧ a.command = .lock output ∧
    (call.on files).failure = none ∧ (call.volume files).outputPlace output = .ok place ∧
      resolveArguments call.host (call.volume files) a = .ok (recipe, r) ∧
        r.lockFile = .ok content ∧ bytes = ⟨content.toArray⟩

end Call

/-- The files after a sequence of runs, each of which finds what the one before it left. -/
def filesAfter (files : Files) (history : List Call) : Files :=
  history.foldl (fun files call => (call.on files).volume.item?) files

/-- No run of a sequence locks a place. -/
def NeverLocked (files : Files) (history : List Call) (place : Place) : Prop :=
  ∀ earlier call later, history = earlier ++ call :: later →
    ∀ bytes, ¬call.Locks (filesAfter files earlier) place bytes

variable {files : Files} {call : Call} {history : List Call} {a : Arguments} {place : Place}
  {bytes : ByteArray} {output : String}

/-! ## One run -/

theorem Outcome.volume_ofPrinted (v : Volume) (printed : Except Fault Printed) :
    (Outcome.ofPrinted v printed).volume = v := by
  cases printed <;> rfl

/-- A command that is not `lock` leaves the files as they are, whether it succeeds or fails. -/
theorem volume_execute {host : Host} {v : Volume} (other : ∀ output, a.command ≠ .lock output) :
    (execute host v a).volume = v := by
  unfold execute
  cases command : a.command with
  | lock output => exact absurd command (other output)
  | resolve => exact Outcome.volume_ofPrinted v _
  | options => exact Outcome.volume_ofPrinted v _
  | pins => exact Outcome.volume_ofPrinted v _
  | table format => exact Outcome.volume_ofPrinted v _
  | explain => exact Outcome.volume_ofPrinted v _
  | verify input => exact Outcome.volume_ofPrinted v _
  | hash => exact Outcome.volume_ofPrinted v _

/-- Every failure of `lock` comes before it writes. -/
theorem volume_run_lock_of_failure {host : Host} {v : Volume} {words : List String}
    (parsed : Arguments.parse? words = some a) (lock : a.command = .lock output)
    (failed : (run host v words).failure ≠ none) : (run host v words).volume = v := by
  rw [run_lock parsed lock] at failed ⊢
  cases written : writeLock host v a output with
  | error fault => rfl
  | ok outcome =>
    rw [written] at failed
    exact absurd rfl failed

namespace Call

/-- A run that fails leaves the files as they are. -/
theorem on_of_failure (failed : (call.on files).failure ≠ none) :
    (call.on files).volume.item? = files := by
  have unchanged : (call.on files).volume = call.volume files := by
    cases parsed : Arguments.parse? call.words with
    | none =>
      unfold on run
      rw [parsed]
    | some a =>
      by_cases lock : ∃ output, a.command = .lock output
      · obtain ⟨output, lock⟩ := lock
        exact volume_run_lock_of_failure parsed lock failed
      · unfold on run
        rw [parsed]
        exact volume_execute (not_exists.1 lock)
  rw [unchanged]
  rfl

/-- A run of a command that is not `lock` leaves the files as they are. -/
theorem on_of_command (parsed : Arguments.parse? call.words = some a)
    (other : ∀ output, a.command ≠ .lock output) : (call.on files).volume.item? = files := by
  have unchanged : (call.on files).volume = call.volume files := by
    unfold on run
    rw [parsed]
    exact volume_execute other
  rw [unchanged]
  rfl

/-- A `lock` that succeeds has locked its output file. -/
theorem exists_locks (parsed : Arguments.parse? call.words = some a)
    (lock : a.command = .lock output) (succeeded : (call.on files).failure = none) :
    ∃ place bytes, (call.volume files).outputPlace output = .ok place ∧
      call.Locks files place bytes := by
  have written := (failure_of_lock_eq_none_iff parsed lock).1 succeeded
  obtain ⟨place, recipe, r, found, resolved, wrote⟩ := writeLock_eq_ok_iff.1 written
  exact ⟨place, _, found, a, output, recipe, r, _, parsed, lock, succeeded, found, resolved,
    r.lockFile_eq_ok, rfl⟩

/-- A run that locks a place changes what stands there, and nothing else. -/
theorem on_of_locks (locks : call.Locks files place bytes) (other : Place) :
    (call.on files).volume.item? other =
      if other = place then some (.file bytes) else files other := by
  obtain ⟨a, output, recipe, r, content, parsed, lock, succeeded, found, resolved, encoded, rfl⟩ :=
    locks
  have written := (failure_of_lock_eq_none_iff parsed lock).1 succeeded
  obtain ⟨place', recipe', r', found', resolved', wrote⟩ := writeLock_eq_ok_iff.1 written
  cases found.symm.trans found'
  cases resolved.symm.trans resolved'
  cases encoded.symm.trans r.lockFile_eq_ok
  have put : (call.volume files).put place (.file ⟨r.lockBytes.toArray⟩) =
    (call.on files).volume := (Volume.write_eq_ok_iff.1 wrote).2
  rw [← put]
  rfl

/-- A run that locks nothing leaves the files as they are. -/
theorem on_of_idle (idle : ∀ place bytes, ¬call.Locks files place bytes) :
    (call.on files).volume.item? = files := by
  by_cases failed : (call.on files).failure = none
  · cases parsed : Arguments.parse? call.words with
    | none =>
      unfold on run at failed
      rw [parsed] at failed
      cases failed
    | some a =>
      refine on_of_command parsed fun output lock => ?_
      obtain ⟨place, bytes, -, locks⟩ := exists_locks parsed lock failed
      exact idle place bytes locks
  · exact on_of_failure failed

/-- A run that does not lock a place leaves what stands there. -/
theorem on_apply (spared : ∀ bytes, ¬call.Locks files place bytes) :
    (call.on files).volume.item? place = files place := by
  by_cases locked : ∃ other bytes, call.Locks files other bytes
  · obtain ⟨other, bytes, locks⟩ := locked
    have apart : place ≠ other := fun same => spared bytes (same ▸ locks)
    rw [on_of_locks locks, if_neg apart]
  · rw [on_of_idle fun other bytes locks => locked ⟨other, bytes, locks⟩]

end Call

/-! ## Any number of runs -/

theorem neverLocked_cons (spared : ∀ bytes, ¬call.Locks files place bytes)
    (rest : NeverLocked (call.on files).volume.item? history place) :
    NeverLocked files (call :: history) place := by
  intro earlier other later split
  cases earlier with
  | nil =>
    cases split
    exact spared
  | cons first earlier =>
    cases split
    exact rest earlier other later rfl

/-- A place holds in the end what the last run that locks it wrote, or what it held before if no
run does. -/
theorem filesAfter_cases (files : Files) (history : List Call) (place : Place) :
    NeverLocked files history place ∧ filesAfter files history place = files place ∨
      ∃ earlier call later bytes, history = earlier ++ call :: later ∧
        call.Locks (filesAfter files earlier) place bytes ∧
          NeverLocked (filesAfter files (earlier ++ [call])) later place ∧
            filesAfter files history place = some (.file bytes) := by
  induction history generalizing files with
  | nil =>
    refine .inl ⟨fun earlier call later split => ?_, rfl⟩
    exact absurd split.symm (List.append_ne_nil_of_right_ne_nil _ (List.cons_ne_nil _ _))
  | cons call history ih =>
    obtain ⟨never, kept⟩ | ⟨earlier, last, later, bytes, rfl, rest⟩ :=
      ih (call.on files).volume.item?
    · by_cases locked : ∃ bytes, call.Locks files place bytes
      · -- This run is the last that locks the place: it stays what it became by it.
        obtain ⟨bytes, locks⟩ := locked
        refine .inr ⟨[], call, history, bytes, rfl, locks, never, kept.trans ?_⟩
        rw [Call.on_of_locks locks, if_pos rfl]
      · have spared := not_exists.1 locked
        exact .inl ⟨neverLocked_cons spared never, kept.trans (Call.on_apply spared)⟩
    · exact .inr ⟨call :: earlier, last, later, bytes, rfl, rest⟩

/-- Only a `lock` that succeeds changes a file. Whatever stood where at first and whatever was run
since, a run that fails and a run of another command leave every file as it was; a `lock` that
succeeds leaves every file but its output, and this is then the lockfile of the resolution of
its arguments on the files that it found. So after all the runs, what stands at a place is the
lockfile that the last run to lock the place wrote, or is what stood there at first if none
did. -/
theorem only_lock_writes (files : Files) (history : List Call) :
    (∀ call : Call,
      let before := filesAfter files history
      let ran := call.on before
      (ran.failure ≠ none → ran.volume.item? = before) ∧
      (∀ a, Arguments.parse? call.words = some a → (∀ output, a.command ≠ .lock output) →
        ran.volume.item? = before) ∧
      ∀ a output, Arguments.parse? call.words = some a → a.command = .lock output →
        ran.failure = none →
          ∃ place recipe r content, (call.volume before).outputPlace output = .ok place ∧
            resolveArguments call.host (call.volume before) a = .ok (recipe, r) ∧
            r.lockFile = .ok content ∧
            ran.volume.item? place = some (.file ⟨content.toArray⟩) ∧
            ∀ other, other ≠ place → ran.volume.item? other = before other) ∧
    ∀ place,
      NeverLocked files history place ∧ filesAfter files history place = files place ∨
        ∃ earlier call later bytes, history = earlier ++ call :: later ∧
          call.Locks (filesAfter files earlier) place bytes ∧
            NeverLocked (filesAfter files (earlier ++ [call])) later place ∧
              filesAfter files history place = some (.file bytes) := by
  refine ⟨fun call => ⟨Call.on_of_failure, fun a => Call.on_of_command, ?_⟩,
    filesAfter_cases files history⟩
  intro a output parsed lock succeeded
  obtain ⟨place, bytes, found, locks⟩ := Call.exists_locks parsed lock succeeded
  have changed := Call.on_of_locks locks
  obtain ⟨_, _, recipe, r, content, parsed', lock', -, -, resolved, encoded, rfl⟩ := locks
  cases parsed.symm.trans parsed'
  cases lock.symm.trans lock'
  refine ⟨place, recipe, r, content, found, resolved, encoded, ?_, fun other apart => ?_⟩
  · rw [changed, if_pos rfl]
  · rw [changed, if_neg apart]

end PackageConfig.CommandLine
