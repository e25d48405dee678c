import PackageConfig.CommandLine.Run
import PackageConfig.Proofs.Lock.Size
import PackageConfig.Proofs.Recipe.Totality
import PackageConfig.Proofs.Volume

/-!
What `lock` writes, `verify` accepts.

A run of `lock` that succeeds has resolved its arguments and written the lockfile of the resolution
(`writeLock_eq_ok_iff`). After that the recipe and the profile are read as before, so that the same
arguments are resolved to the same (`resolveArguments_put`), and the lockfile is found under the
name that it was written under, and read back. What `verify` answers then is whether the two
resolutions are one (`printVerdict_of_lock`).
-/

namespace PackageConfig.CommandLine

variable {host : Host} {v after : Volume} {a : Arguments} {words : List String} {recipe : Recipe}
  {r : Resolution} {place : Place} {bytes : ByteArray} {name text : String}

/-! ## Resolving on changed files -/

/-- The files that arguments name stand elsewhere than at a place. -/
def Arguments.Avoid (a : Arguments) (v : Volume) (place : Place) : Prop :=
  ∀ path, a.recipe = some path ∨ a.profile = some path → v.locate path ≠ .ok place

theorem recipeOf_put (free : v.isDirectory place = false) (avoid : a.Avoid v place)
    (found : recipeOf v a = .ok recipe) :
    recipeOf (v.put place (.file bytes)) a = .ok recipe := by
  unfold recipeOf at found ⊢
  split at found
  next path named => exact Volume.readText_bind_put free (avoid path (.inl named)) found
  next => exact found

theorem profileOf_put {profile : Option Profile} (free : v.isDirectory place = false)
    (avoid : a.Avoid v place) (found : profileOf v a = .ok profile) :
    profileOf (v.put place (.file bytes)) a = .ok profile := by
  unfold profileOf at found ⊢
  split at found
  next path named => exact Volume.readText_bind_put free (avoid path (.inr named)) found
  next => exact found

/-- Arguments are resolved as before when a file is written that they do not name. -/
theorem resolveArguments_put (free : v.isDirectory place = false) (avoid : a.Avoid v place)
    (resolved : resolveArguments host v a = .ok (recipe, r)) (bytes : ByteArray) :
    resolveArguments host (v.put place (.file bytes)) a = .ok (recipe, r) := by
  obtain ⟨_, found, rest⟩ := Outcome.bind_eq_ok_iff.1 resolved
  obtain ⟨_, outcome, same⟩ := Outcome.bind_eq_ok_iff.1 rest
  cases same
  obtain ⟨profile, read, platform⟩ := Outcome.bind_eq_ok_iff.1 outcome
  refine Outcome.bind_eq_ok_iff.2 ⟨recipe, recipeOf_put free avoid found, ?_⟩
  refine Outcome.bind_eq_ok_iff.2 ⟨r, ?_, rfl⟩
  exact Outcome.bind_eq_ok_iff.2 ⟨profile, profileOf_put free avoid read, platform⟩

/-! ## One run of each command -/

/-- A lockfile is written for the resolution of the arguments. -/
theorem writeLock_eq_ok_iff :
    (∃ printed, writeLock host v a name = .ok (printed, after)) ↔
      ∃ place recipe r, v.outputPlace name = .ok place ∧
        resolveArguments host v a = .ok (recipe, r) ∧
          v.write place ⟨r.lockBytes.toArray⟩ = .ok after := by
  constructor
  · rintro ⟨printed, written⟩
    obtain ⟨place, output, written⟩ := Outcome.bind_eq_ok_iff.1 written
    obtain ⟨⟨recipe, r⟩, resolved, written⟩ := Outcome.bind_eq_ok_iff.1 written
    obtain ⟨bytes, encoded, written⟩ := Outcome.bind_eq_ok_iff.1 written
    obtain ⟨volume, wrote, same⟩ := Outcome.bind_eq_ok_iff.1 written
    cases same
    cases r.lockFile_eq_ok.symm.trans encoded
    exact ⟨place, recipe, r, output, resolved, wrote⟩
  · rintro ⟨place, recipe, r, output, resolved, wrote⟩
    unfold writeLock
    rw [output, resolved]
    simp only [bind, Except.bind, r.lockFile_eq_ok, wrote]
    exact ⟨_, rfl⟩

/-- Where a lockfile can be read, `verify` answers whether it was written from the resolution. -/
theorem printVerdict_of_lock {locked : Resolution} (read : v.read lockLimit name = .ok bytes)
    (decoded : Lock.ofBytes bytes.data.toList = .ok (.ofResolution locked))
    (resolved : resolveArguments host v a = .ok (recipe, r)) :
    ∃ text, printVerdict host v a name =
      .ok (text, if locked = r then none else some (.lockMismatch name)) := by
  have agree : Lock.ofResolution locked = .ofResolution r ↔ locked = r :=
    ⟨Lock.ofResolution_injective, fun same => same ▸ rfl⟩
  unfold printVerdict
  rw [read, resolved]
  simp only [bind, Except.bind, decoded, decide_eq_true_eq, agree]
  exact ⟨_, rfl⟩

theorem run_lock (parsed : Arguments.parse? words = some a) (lock : a.command = .lock name)
    (host : Host) (v : Volume) : run host v words = .ofWritten v (writeLock host v a name) := by
  unfold run execute
  rw [parsed]
  simp only [lock]

theorem run_verify (parsed : Arguments.parse? words = some a) (verify : a.command = .verify name)
    (host : Host) (v : Volume) : run host v words = .ofPrinted v (printVerdict host v a name) := by
  unfold run execute
  rw [parsed]
  simp only [verify]

/-- A run of `lock` succeeds exactly when it has written a lockfile. -/
theorem failure_of_lock_eq_none_iff (parsed : Arguments.parse? words = some a)
    (lock : a.command = .lock name) :
    (run host v words).failure = none ↔
      ∃ printed, writeLock host v a name = .ok (printed, (run host v words).volume) := by
  rw [run_lock parsed lock]
  cases writeLock host v a name with
  | error fault => simp [Outcome.ofWritten]
  | ok outcome => exact iff_of_true rfl ⟨outcome.1, rfl⟩

/-! ## One run after the other -/

/-- If `lock` succeeds in writing a plain name that is neither the recipe nor the profile, it has
written the lockfile of what its arguments are resolved to and changed no other file. On the files
as they are then, unless the lockfile is too large to be read or a list in it too long, `verify` of
that name succeeds with the same arguments, with and without `--json`; and with arguments that
are resolved to anything else, it fails for the difference. -/
theorem verify_of_lock (parsed : Arguments.parse? words = some a)
    (lock : a.command = .lock name) (plain : '/' ∉ name.toList)
    (avoid : a.Avoid v (v.home ++ [name]))
    (succeeded : (run host v words).failure = none) :
    ∃ recipe r, resolveArguments host v a = .ok (recipe, r) ∧
      (run host v words).volume = v.put (v.home ++ [name]) (.file ⟨r.lockBytes.toArray⟩) ∧
      ((∀ list, (Lock.ofResolution r).count list ≤ 100000) →
        r.lockBytes.length ≤ 16 * 1024 * 1024 →
        (∀ checking json,
          Arguments.parse? checking = some { a with json := json, command := .verify name } →
            (run host (run host v words).volume checking).failure = none) ∧
        ∀ checking b other r', Arguments.parse? checking = some b → b.command = .verify name →
          resolveArguments host (run host v words).volume b = .ok (other, r') → r' ≠ r →
            (run host (run host v words).volume checking).failure =
              some (.fault (.lockMismatch name))) := by
  have written := (failure_of_lock_eq_none_iff parsed lock).1 succeeded
  obtain ⟨place, recipe, r, output, resolved, wrote⟩ := writeLock_eq_ok_iff.1 written
  obtain ⟨here, proper, rfl⟩ := (Volume.outputPlace_of_plain plain).1 output
  obtain ⟨passed, put⟩ := Volume.write_eq_ok_iff.1 wrote
  have writable := Volume.writeFault?_eq_none_iff.1 passed
  refine ⟨recipe, r, resolved, put.symm, fun short small => ?_⟩
  -- Both verdicts rest on the lockfile that is read back; they differ in what is resolved anew.
  rw [← put]
  have read : (v.put (v.home ++ [name]) (.file ⟨r.lockBytes.toArray⟩)).read lockLimit name =
      .ok ⟨r.lockBytes.toArray⟩ :=
    Volume.read_written plain proper here writable small
  have decoded : Lock.ofBytes r.lockBytes = .ok (.ofResolution r) :=
    Lock.ofBytes_toBytes_of_length (Nat.lt_of_le_of_lt small (by decide)) short
  constructor
  · intro checking json parsed
    have again := resolveArguments_put writable.free avoid resolved ⟨r.lockBytes.toArray⟩
    obtain ⟨text, verdict⟩ := printVerdict_of_lock (a := { a with json, command := .verify name })
      read decoded again
    rw [run_verify parsed rfl, verdict, if_pos rfl]
    rfl
  · intro checking b other r' parsed verify resolved differs
    obtain ⟨text, verdict⟩ := printVerdict_of_lock read decoded resolved
    rw [run_verify parsed verify, verdict, if_neg differs.symm]
    rfl

/-! ## A directory with a recipe -/

/-- A recipe with one option. -/
def oneSwitch : Recipe where
  catalog := .ofCalls [.flag "shared" false]
  pruneRules := .empty
  pinRules := []
  variableRules := ⟨"", []⟩
  linkageOption := "shared"

/-- What that recipe resolves to for one platform. -/
def oneSwitchBuild (shared : Bool) : Resolution where
  platform := ⟨.linux, .gcc, .x86_64⟩
  linkage := if shared then .shared else .static
  config := ⟨.ofList [("shared", .present (.flag shared))]⟩
  pins := .empty
  table := .empty

/-- A directory with that recipe in a file. -/
def workshop : Volume :=
  (Volume.empty ["work"]).put ["work", "r.toml"]
    (.file "[[option]]\nname = \"shared\"\ndefault = false\n".toByteArray)

theorem locate_workshop : workshop.locate "r.toml" = .ok ["work", "r.toml"] :=
  (Volume.locate_of_plain (by decide) (by decide)).2
    ⟨by decide, ⟨by decide, rfl, by decide, rfl⟩, rfl⟩

theorem readRecipe_workshop : readRecipe workshop "r.toml" = .ok oneSwitch := by
  have read : workshop.readText textLimit "r.toml" =
      .ok "[[option]]\nname = \"shared\"\ndefault = false\n" :=
    Volume.readText_eq_ok_iff.2
      (Volume.read_eq_ok_iff.2 ⟨["work", "r.toml"], locate_workshop, rfl, by decide⟩)
  have rows : readTables "r.toml" (Manifest.ofData? .toml)
      "[[option]]\nname = \"shared\"\ndefault = false\n" =
        .ok { options := [{ name := "shared", default := .flag false }] } := by decide +kernel
  unfold readRecipe
  rw [read]
  simp only [bind, Except.bind, rows]
  rfl

theorem resolveArguments_workshop {shared : Bool} {request : Request}
    (named : a.recipe = some "r.toml") (unnamed : a.profile = none)
    (platform : a.platform = ⟨some "linux", none, some "x86_64"⟩)
    (asked : oneSwitch.request none a.options = .ok request)
    (accepted : oneSwitch.catalog.start request =
      .ok ⟨.ofList [("shared", .present (.flag shared))]⟩) :
    resolveArguments {} workshop a = .ok (oneSwitch, oneSwitchBuild shared) := by
  have valid : oneSwitch.Valid := .of_check rfl rfl
  have selected : Platform.select {} ⟨some "linux", none, some "x86_64"⟩ {} =
      .ok ⟨.linux, .gcc, .x86_64⟩ := by decide +kernel
  have settled : oneSwitch.settle ⟨.linux, .gcc, .x86_64⟩
      ⟨.ofList [("shared", .present (.flag shared))]⟩ =
        ⟨.ofList [("shared", .present (.flag shared))]⟩ := Catalog.close_of_orphans_nil rfl
  have resolved : oneSwitch.resolve ⟨.linux, .gcc, .x86_64⟩ request =
      .ok (oneSwitchBuild shared) := by
    rw [valid.resolve_of_accepted accepted, settled]
    cases shared <;> rfl
  unfold resolveArguments resolutionOf recipeOf profileOf
  rw [named, unnamed, platform]
  simp only [readRecipe_workshop, asked, selected, resolved, bind, Except.bind, Option.map_none,
    Option.getD_none, pure, Except.pure]

/-- The lockfile of a static build is accepted for the same arguments, also where the verdict is
printed as data, and refused for a shared build. -/
theorem verify_of_lock_workshop :
    let flags := ["-r", "r.toml", "--os", "linux", "--arch", "x86_64"]
    let locking := run {} workshop (flags ++ ["lock", "--output", "a.lock"])
    locking.failure = none ∧
      (run {} locking.volume (flags ++ ["--json", "verify", "-i", "a.lock"])).failure = none ∧
      (run {} locking.volume (flags ++ ["-o", "shared=true", "verify", "-i", "a.lock"])).failure =
        some (.fault (.lockMismatch "a.lock")) := by
  intro flags locking
  let a : Arguments :=
    { recipe := some "r.toml", platform := ⟨some "linux", none, some "x86_64"⟩,
      command := .lock "a.lock" }
  let b : Arguments := { a with options := ["shared=true"], command := .verify "a.lock" }
  have parsed : Arguments.parse? (flags ++ ["lock", "--output", "a.lock"]) = some a := rfl
  have avoid : a.Avoid workshop ["work", "a.lock"] := by
    rintro path (named | unnamed)
    · cases named
      rw [locate_workshop]
      decide
    · cases unnamed
  have static : resolveArguments {} workshop a = .ok (oneSwitch, oneSwitchBuild false) :=
    resolveArguments_workshop rfl rfl rfl rfl rfl
  have asked : oneSwitch.request none b.options = .ok (.ofList [("shared", .flag true)]) := by
    decide +kernel
  have shared : resolveArguments {} workshop b = .ok (oneSwitch, oneSwitchBuild true) :=
    resolveArguments_workshop rfl rfl rfl asked rfl
  have output : workshop.outputPlace "a.lock" = .ok ["work", "a.lock"] :=
    (Volume.outputPlace_of_plain (by decide)).2 ⟨rfl, by decide, rfl⟩
  have writable : workshop.Writable ["work"] "a.lock" := ⟨by decide, by decide, by decide, rfl⟩
  obtain ⟨printed, written⟩ := writeLock_eq_ok_iff.2 ⟨["work", "a.lock"], oneSwitch,
    oneSwitchBuild false, output, static,
    Volume.write_eq_ok_iff.2 ⟨Volume.writeFault?_eq_none_iff.2 writable, rfl⟩⟩
  have ran := run_lock parsed rfl {} workshop
  rw [written] at ran
  have succeeded : locking.failure = none := congrArg Outcome.failure ran
  obtain ⟨recipe, r, resolved, after, verdicts⟩ :=
    verify_of_lock parsed rfl (by decide) avoid succeeded
  cases static.symm.trans resolved
  have short : ∀ list, (Lock.ofResolution (oneSwitchBuild false)).count list ≤ 100000 := by
    intro list
    cases list <;> decide
  obtain ⟨same, different⟩ := verdicts short (by decide +kernel)
  have changed : resolveArguments {} locking.volume b = .ok (oneSwitch, oneSwitchBuild true) := by
    rw [after]
    exact resolveArguments_put (a := b) writable.free avoid shared _
  exact ⟨succeeded, same _ true rfl,
    different _ b oneSwitch (oneSwitchBuild true) rfl rfl changed (by decide)⟩

end PackageConfig.CommandLine
